import Stencil.DryRun
import Stencil.Proofs.Files.Pruning
import Stencil.Proofs.Work

/-!
# Clearing and pruning as work

A directory is cleared before something is written to it, and cleared again if that goes wrong.
Clearing does not mind if there is nothing to clear, and it says whether it has succeeded; what it
does to the disk is the same either way.

Pruning takes away what is marked or ignored, and just that, as long as the path of the directory does not lead
through what is inside (`pruneDirectory_exact`). A path that does leads nowhere once that is gone. Pruning takes
that for a sign that what it meets is gone already, and succeeds without having pruned it.
-/

namespace Stencil

open Files Files.Disk

/-- Clearing takes a directory away as far as that can be done, and succeeds if
nothing had to be done. -/
theorem clearDirectory_ends (path : String) (world : World) :
    let cleared : World := { world with disk := (world.disk.removeDirectory path).1 }
    (clearDirectory path).Ends world
      (fun _ after => after = cleared ∧ ((world.disk.removeDirectory path).2 = .ok () ∨
        (world.disk.removeDirectory path).2 = .error .notFound))
      fun _ after => after = cleared := by
  refine .attempt (fun disk h => ?_) fun disk fault h => ?_
  · split at h
    · rename_i disk' hmissing
      obtain rfl : disk' = disk := congrArg Prod.fst h
      exact ⟨by rw [hmissing], Or.inr (by rw [hmissing])⟩
    · exact ⟨by rw [h], Or.inl (by rw [h])⟩
  · split at h
    · exact absurd h (by simp)
    · rw [h]

/-- What is left when a directory was cleared. -/
theorem cleared_of_ok {path : String} {world cleared : World} (hsound : world.disk.Sound)
    (h : (clearDirectory path).on world = (.ok (), cleared)) :
    cleared = { world with disk := (world.disk.removeDirectory path).1 } ∧ cleared.disk.Sound ∧
      cleared.disk.hasEntry path = false := by
  obtain ⟨rfl, hgone⟩ := (clearDirectory_ends path world).done_of_ok h
  exact ⟨rfl, hsound.removeDirectory path, hasEntry_removeDirectory hsound hgone⟩

/-- However clearing ends, what could be taken away is gone. -/
theorem clearDirectory_disk (path : String) (world : World) :
    ((clearDirectory path).on world).2.disk = (world.disk.removeDirectory path).1 :=
  ((clearDirectory_ends path world).mono (fun _ _ h => by rw [h.1]) fun _ _ h => by rw [h]).always
    fun after : World => after.disk = (world.disk.removeDirectory path).1

theorem clearDirectory_on_done {path : String} {world : World} {disk : Disk}
    (h : world.disk.removeDirectory path = (disk, .ok ())) :
    (clearDirectory path).on world = (.ok (), { world with disk }) := by
  simp only [clearDirectory, Work.on_attempt, h]

/-- Where directories can be taken away, clearing fails only if there is none, and changes nothing then. -/
theorem clearDirectory_fails {path : String} {world : World} (hremoves : world.disk.Removes path) :
    (clearDirectory path).Ends world (fun _ _ => True) fun _ after => after = world ∧
      ∀ place entry, world.disk.find false path = .ok (place, entry) → entry.isFile = true := by
  refine .attempt (fun _ _ => trivial) fun disk fault h => ?_
  split at h
  · cases h
  · obtain ⟨hsame, hnone⟩ := hremoves.of_error (congrArg Prod.snd h)
    obtain rfl : disk = world.disk := by rw [← hsame, h]
    exact ⟨rfl, hnone⟩

/-- Pruning leaves what was pruned by then, even if it fails. -/
theorem pruneDirectory_ends (directory : String) (patterns : List String) (mark : String)
    (world : World) :
    (pruneDirectory directory patterns mark).Ends world
      (fun _ after => ∃ set, IgnoreSet.ofPatterns directory patterns = .ok set ∧
        prune set mark world.disk = (after.disk, .ok ()))
      fun _ after => after = world ∨ ∃ set, IgnoreSet.ofPatterns directory patterns = .ok set ∧
        after.disk = (prune set mark world.disk).1 := by
  refine .bind (.ofExcept (fun set hset => ?_) fun _ _ => Or.inl rfl)
  refine .bind (.disk ?_)
  rcases hprune : prune set mark world.disk with ⟨pruned, result⟩
  refine .bind (.setDisk (.ofExcept (fun _ hdone => ⟨set, hset, ?_⟩) fun _ _ => Or.inr ⟨set, hset, ?_⟩))
  · rw [hprune, hdone]
  · rw [hprune]

theorem pruneDirectory_on {directory mark : String} {patterns : List String} {set : IgnoreSet} {world : World}
    (hset : IgnoreSet.ofPatterns directory patterns = .ok set) :
    (pruneDirectory directory patterns mark).on world =
      ((prune set mark world.disk).2.mapError .ofPrune, { world with disk := (prune set mark world.disk).1 }) := by
  simp only [pruneDirectory, Work.on_bind, hset, Work.on_ofExcept_ok, Work.on_disk, Work.on_setDisk]
  cases (prune set mark world.disk).2 <;> rfl

theorem pruneDirectory_silent (directory : String) (patterns : List String) (mark : String) :
    (pruneDirectory directory patterns mark).Silent :=
  .bind .ofExcept fun _ => .bind .disk fun _ => .bind .setDisk fun _ => .ofExcept

/-- Pruning what its path leads to fails only where nothing was done. -/
theorem pruneDirectory_fails {directory mark : String} {patterns : List String} {world : World}
    (hsound : world.disk.Sound) (hthere : world.disk.has directory = true) :
    (pruneDirectory directory patterns mark).Ends world (fun _ _ => True) fun _ after => after = world := by
  cases hset : IgnoreSet.ofPatterns directory patterns with
  | error fault =>
      refine .bind (.ofExcept (fun set h => ?_) fun _ _ => rfl)
      rw [hset] at h
      cases h
  | ok set =>
      obtain ⟨root, entry, hroot⟩ := has_iff.mp hthere
      obtain rfl : set.base = directory := IgnoreSet.base_of_ofPatterns hset
      refine (Work.Ends.self _ world).mono (fun _ _ _ => trivial) fun failure after hon => ?_
      rw [pruneDirectory_on hset, prune_done hsound hroot] at hon
      cases congrArg Prod.fst hon

/-- **Whether nothing was taken away but what is unwanted** inside of a directory: the directory itself and all that
is around it, be it what a link inside leads to, is as it was, and whatever does not lie at or inside of something
unwanted is there with the same content. -/
structure SparesWanted (set : IgnoreSet) (mark : String) (root : Place) (old new : Disk) : Prop where
  sound : new.Sound
  around : SameAround root old new
  left : ∀ names entry, new.at? (root ++ names) = some entry → old.at? (root ++ names) = some entry
  kept : ∀ names entry, old.at? (root ++ names) = some entry →
    (∀ front, front ≠ [] → front <+: names → ¬ IsUnwantedPath set mark front) → new.at? (root ++ names) = some entry

/-- Nothing unwanted is on the way to a place if it is not pruned. -/
theorem not_prunes_iff {disk : Disk} {set : IgnoreSet} {mark : String} {root names : Place} {entry : Entry}
    (hsound : disk.Sound) (hbase : set.base ≠ "") (hat : disk.at? (root ++ names) = some entry) :
    ¬ Prunes set mark names ↔ ∀ front, front ≠ [] → front <+: names → ¬ IsUnwantedPath set mark front := by
  have hiff : ∀ front, front ≠ [] → front <+: names →
      (IsUnwantedName set mark front ↔ IsUnwantedPath set mark front) := fun front hfront hprefix =>
    isUnwantedName_iff hbase hfront fun s hs =>
      hsound.isName hat s (List.mem_append_right _ (List.IsPrefix.subset hprefix hs))
  constructor
  · intro hnot front hfront hprefix hunwanted
    exact hnot ⟨front, hfront, hprefix, (hiff front hfront hprefix).mpr hunwanted⟩
  · rintro hall ⟨front, hfront, hprefix, hunwanted⟩
    exact hall front hfront hprefix ((hiff front hfront hprefix).mp hunwanted)

/-- What is not pruned is still there, and there is nothing else. -/
theorem prune_sparesWanted {disk : Disk} {set : IgnoreSet} {root : Place} (hsound : disk.Sound) (mark : String)
    (hbase : set.base ≠ "") (hroot : disk.canonical set.base = .ok root) :
    SparesWanted set mark root disk (prune set mark disk).1 := by
  have hleft := prune_left hsound set mark
  refine ⟨hleft.sound hsound, prune_sameAround hsound set mark hroot, fun names entry => hleft.shrunk.at?_eq_some,
    fun names entry hat hwanted => (hleft.at?_eq ?_).trans hat⟩
  rintro ⟨root', hroot', front, hunwanted, hin⟩
  rw [hroot, Except.ok.injEq] at hroot'
  subst hroot'
  exact (not_prunes_iff hsound hbase hat).mpr hwanted ⟨front, hunwanted.ne_nil,
    (List.prefix_append_right_inj root).mp (Place.isWithin_iff.mp hin), hunwanted⟩

/-- **Pruning a directory takes away nothing but what is unwanted**, and if the path leads to the directory in the
end it succeeds and takes all of that away. A path that finds the directory even if nothing is inside leads there in
the end. Where there is no directory nothing is done. -/
theorem pruneDirectory_exact {directory : String} {patterns : List String} {set : IgnoreSet} (mark : String)
    (world : World) (hsound : world.disk.Sound) (hset : IgnoreSet.ofPatterns directory patterns = .ok set) :
    let ended := (pruneDirectory directory patterns mark).on world
    ended.2 = { world with disk := ended.2.disk } ∧
    (∀ root found, world.disk.find true directory = .ok (root, found) → found.isDirectory = true →
      SparesWanted set mark root world.disk ended.2.disk ∧
      (ended.2.disk.canonical directory = .ok root → ended.1 = .ok () ∧
        ∀ names entry, names ≠ [] → (ended.2.disk.at? (root ++ names) = some entry ↔
          world.disk.at? (root ++ names) = some entry ∧
            ∀ front, front ≠ [] → front <+: names → ¬ IsUnwantedPath set mark front)) ∧
      (world.disk.Reaches directory root → ended.2.disk.canonical directory = .ok root)) ∧
    ((∀ root found, world.disk.find true directory = .ok (root, found) → found.isDirectory = false) →
      ended.2 = world) := by
  obtain rfl : set.base = directory := IgnoreSet.base_of_ofPatterns hset
  simp only [pruneDirectory_on hset]
  refine ⟨trivial, fun root found hfind hdir => ?_, fun hnone => ?_⟩
  · have hbase : set.base ≠ "" := (find_iff_leads.mp hfind).1.ne_empty
    refine ⟨prune_sparesWanted hsound mark hbase (canonical_eq_ok.mpr ⟨found, hfind⟩), fun hend => ?_,
      canonical_prune hsound mark⟩
    obtain ⟨new, hprune, hpruned⟩ := prune_eq hsound hfind hdir hend
    rw [hprune]
    refine ⟨rfl, fun names entry hne => (hpruned names entry hne).trans ?_⟩
    exact and_congr_right fun hat => not_prunes_iff hsound hbase hat
  · rw [prune_of_not_directory set mark hnone]

/-- A directory with a marked link out of it, a file, and a link to a file elsewhere. -/
def linkedRoom : World where
  disk := { directory := [], tree := [(["o"], .directory), (["o", "x"], .file "x".toUTF8 false), (["r"], .directory),
    (["r", "__l"], .link "../o"), (["r", "a"], .directory), (["r", "a", "b"], .file "b".toUTF8 false),
    (["r", "a", "k"], .link "../../o/x")] }

/-- The pattern that leaves out the file. -/
def linkedRoomPatterns : IgnoreSet :=
  { base := "r", patterns := [{ text := "a/b", pieces := [.literal 'a', .literal '/', .literal 'b'] }] }

theorem pruneDirectory_exact_linkedRoom :
    let ended := (pruneDirectory "r" ["a/b"] "__").on linkedRoom
    linkedRoom.disk.Sound ∧ IgnoreSet.ofPatterns "r" ["a/b"] = .ok linkedRoomPatterns ∧ ended.1 = .ok () ∧
      ended.2.disk.at? ["r", "__l"] = none ∧ ended.2.disk.at? ["r", "a", "b"] = none ∧
      ended.2.disk.at? ["r", "a", "k"] = some (.link "../../o/x") ∧
      ended.2.disk.at? ["o", "x"] = some (.file "x".toUTF8 false) := by
  intro ended
  have hsound : linkedRoom.disk.Sound := by decide +kernel
  have hset : IgnoreSet.ofPatterns "r" ["a/b"] = .ok linkedRoomPatterns := by rfl
  obtain ⟨-, hroot, -⟩ := pruneDirectory_exact "__" linkedRoom hsound hset
  obtain ⟨hspares, hexact, hends⟩ := hroot ["r"] .directory (by decide +kernel) rfl
  obtain ⟨hdone, hinside⟩ := hexact (hends (show _ = _ by decide +kernel))
  have hgone : ∀ names, names ≠ [] → IsUnwantedPath linkedRoomPatterns "__" names →
      ended.2.disk.at? (["r"] ++ names) = none := by
    intro names hne hunwanted
    cases hat : ended.2.disk.at? (["r"] ++ names) with
    | none => rfl
    | some entry => exact absurd hunwanted (((hinside names entry hne).mp hat).2 names hne List.prefix_rfl)
  refine ⟨hsound, hset, hdone, hgone ["__l"] (by simp) (Or.inl ⟨by simp, "__l", rfl, by decide +kernel⟩),
    hgone ["a", "b"] (by simp) (Or.inr (by decide +kernel)), ?_, ?_⟩
  · refine (hinside ["a", "k"] _ (by simp)).mpr ⟨by decide +kernel, fun front hne hprefix => ?_⟩
    obtain rfl | rfl : front = ["a"] ∨ front = ["a", "k"] := by
      rcases List.prefix_concat_iff.mp (show front <+: ["a"] ++ ["k"] from hprefix) with heq | hfront
      · exact Or.inr heq
      · rcases List.prefix_concat_iff.mp (show front <+: [] ++ ["a"] from hfront) with heq | hnil
        · exact Or.inl heq
        · exact absurd (List.prefix_nil.mp hnil) hne
    · decide +kernel
    · decide +kernel
  · exact (hspares.around.at?_eq ["o", "x"] (by decide)).trans (by decide +kernel)

/-- By a path that leads through what is marked something else that is marked is not found any more. -/
example :
    let world : World := { disk := { directory := [], tree := [(["r"], .directory), (["r", "__p"], .directory),
      (["r", "__q"], .file "q".toUTF8 false)] } }
    let ended := (pruneDirectory "r/__p/.." [] "__").on world
    ended.1.isOk = true ∧ ended.2.disk.at? ["r", "__p"] = none ∧
      ended.2.disk.at? ["r", "__q"] = some (.file "q".toUTF8 false) := by decide +kernel

end Stencil
