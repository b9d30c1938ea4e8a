import Stencil.Proofs.Fill.InPlace
import Stencil.Proofs.Fill.Mirror

/-!
# A fill stays where it belongs

Whatever templates ask for, and wherever links in the tree lead, a fill changes something only below
its root: the directory itself when it fills in place, the other directory when it fills into one
(`fillDirectory_confined`). Outside of the root nothing happens but that the other directory is made,
with the directories around it that were missing.

The other directory has to be free. A path that leads nowhere, but would lead to a directory full of
links if the directories on its way were there, is not good enough (`mirror_leaves_target`).
-/

namespace Stencil.Fill

open Files Files.Disk

/-- The places at which a fill may change something. -/
def MayChange (given : String) (mode : Mode) (before after : Disk) (place : Place) : Prop :=
  match mode with
  | .inPlace => ∃ root, before.canonical given = .ok root ∧ place.isWithin root = true
  | .mirror target => (∃ root, after.canonical target = .ok root ∧ place.isWithin root = true) ∨
      -- The directory, or one around it, that was not there.
      (before.at? place = none ∧ after.at? place = some .directory ∧
        ∃ path ∈ target :: (Path.ofString target).outer.map Path.render,
          after.canonical path = .ok place)
  | .terminal => False

/-- **A fill changes something only below its root**, however it ends. -/
theorem fillDirectory_confined (given : String) (patterns : List String)
    (vars : Variables) (mode : Mode)
    (world : World) (hsound : world.disk.Sound)
    (hfree : ∀ target, mode = .mirror target → world.disk.IsFree target) (place : Place)
    (hchanged : ((fillDirectory given patterns vars mode).on world).2.disk.at? place ≠
      world.disk.at? place) :
    MayChange given mode world.disk
      ((fillDirectory given patterns vars mode).on world).2.disk place := by
  cases mode with
  | inPlace =>
      obtain ⟨_, hwrites⟩ := fillDirectory_inPlace given patterns vars hsound
      obtain ⟨_, _, _, hmade⟩ := (hwrites.changed place).resolve_left hchanged
      exact hmade.1
  | mirror target =>
      have hwrites :=
        (fillDirectory_mirror given patterns vars target hsound (hfree target rfl)).writes
      obtain ⟨entry, hat, hfresh, hmade⟩ := (hwrites.changed place).resolve_left hchanged
      rcases hmade with ⟨root, hroot, _, hin⟩ | ⟨rfl, hpath⟩
      · exact Or.inl ⟨root, hroot, hin⟩
      · refine Or.inr ⟨?_, hat, hpath⟩
        generalize world.disk.at? place = before at hfresh ⊢
        cases hfresh
        rfl
  | terminal =>
      rw [fillDirectory_terminal] at hchanged
      exact hchanged rfl

/-- A template with one file, beside a directory with a link in it that leads out. -/
def linkedDisk : Disk where
  tree := [(["w"], .directory), (["w", "b"], .directory), (["w", "b", "x"], .link "../secret"),
    (["w", "secret"], .file "s".toUTF8 false), (["w", "src"], .directory),
    (["w", "src", "x"], .file "p".toUTF8 false)]
  directory := ["w"]

theorem fillDirectory_confined_mirror :
    linkedDisk.Sound ∧ linkedDisk.IsFree "a/out" ∧
      ((fillDirectory "src" [] [] (.mirror "a/out")).on { disk := linkedDisk }).2.disk.at?
        ["w", "a", "out", "x"] ≠
        linkedDisk.at? ["w", "a", "out", "x"] ∧
      MayChange "src" (.mirror "a/out") linkedDisk
        ((fillDirectory "src" [] [] (.mirror "a/out")).on { disk := linkedDisk }).2.disk
        ["w", "a", "out", "x"] := by
  have hsound : linkedDisk.Sound := by decide +kernel
  have hfree : linkedDisk.IsFree "a/out" := by decide +kernel
  have hchanged : ((fillDirectory "src" [] [] (.mirror "a/out")).on { disk := linkedDisk }).2.disk.at?
      ["w", "a", "out", "x"] ≠ linkedDisk.at? ["w", "a", "out", "x"] := by decide +kernel
  refine ⟨hsound, hfree, hchanged, ?_⟩
  refine fillDirectory_confined "src" [] [] (.mirror "a/out")
    { disk := linkedDisk } hsound ?_ _ hchanged
  intro target htarget
  obtain rfl : "a/out" = target := by simpa using htarget
  exact hfree

/-- A path that leads nowhere is no protection: once `a` was made, `a/../b` leads to a directory that
was there, and the link in it leads out. -/
theorem mirror_leaves_target :
    ¬ ∀ (given : String) (patterns : List String) (vars : Variables) (target : String)
      (world : World),
      world.disk.Sound → world.disk.has target = false → ∀ place,
        ((fillDirectory given patterns vars (.mirror target)).on world).2.disk.at? place ≠
          world.disk.at? place →
        MayChange given (.mirror target) world.disk
          ((fillDirectory given patterns vars (.mirror target)).on world).2.disk place := by
  intro h
  have hmay := h "src" [] [] "a/../b" { disk := linkedDisk } (by decide +kernel) (by decide +kernel)
    ["w", "secret"] (by decide +kernel)
  rcases hmay with ⟨root, hroot, hin⟩ | ⟨hnone, _⟩
  · have hb :
        (((fillDirectory "src" [] [] (.mirror "a/../b")).on { disk := linkedDisk }).2.disk.canonical
        "a/../b").toOption = some ["w", "b"] := by decide +kernel
    rw [hroot, Except.toOption, Option.some.injEq] at hb
    subst hb
    exact absurd hin (by decide)
  · exact absurd hnone (by decide +kernel)

end Stencil.Fill
