import Stencil.Proofs.Files.Writing
import Stencil.Proofs.Planning
import Stencil.Proofs.Starter.Reading
import Stencil.Starter.Making

/-!
# What is read from a new template

What was written to a path is what is read from it, so the manifest of a new template is the one that its
starter was written as, and it says what the starter does.
-/

namespace Stencil

namespace Files.Disk

variable {disk new : Disk} {path : String} {place : Place} {content : ByteArray} {executable : Bool}

theorem read_of_canonical (h : disk.canonical path = .ok place)
    (hat : disk.at? place = some (.file content executable)) : disk.read path = .ok content := by
  obtain ⟨entry, hfind⟩ := canonical_eq_ok.mp h
  obtain rfl : entry = .file content executable := by
    rw [find_at? hfind, Option.some.injEq] at hat
    exact hat
  simp [read, hfind]

namespace Sound

/-- What was written to a path is what is read from it. -/
theorem read_write (hsound : disk.Sound) (h : disk.write path content = .ok new) :
    new.read path = .ok content := by
  unfold Disk.write at h
  cases hlocate : disk.locate true path with
  | error fault => simp [hlocate] at h
  | ok location =>
    rw [hlocate] at h
    have hat := locate_at? hlocate
    have hcan := (locate_eq_ok.mp hlocate).1
    obtain ⟨place, entry?, ends⟩ := location
    cases entry? with
    | none =>
      simp only at h
      split at h
      · cases h
      next hends =>
        cases h
        obtain ⟨outer, s, rfl, -, -⟩ := hsound.room hlocate rfl
        have hcanonical := canonical_put hsound (.file content false) hlocate rfl rfl rfl
          hcan.ne_empty hcan.noNull (Or.inr ⟨rfl, by simpa using hends, rfl⟩)
        exact read_of_canonical hcanonical (disk.at?_put_self _ (by simp))
    | some entry =>
      cases entry with
      | directory | link | history => simp at h
      | file old executable =>
        cases h
        have hne : place ≠ [] := by
          rintro rfl
          exact absurd hat (by simp)
        have hfresh : Fresh (disk.at? place) (.file content executable) := hat ▸ Fresh.again _ _ _ _
        have hcanonical := canonical_grow (grown_put hne hfresh)
          (canonical_eq_ok.mpr ⟨_, find_eq_ok.mpr ⟨ends, hlocate⟩⟩)
        exact read_of_canonical hcanonical (disk.at?_put_self _ hne)

end Sound

end Files.Disk

theorem fromUTF8?_toUTF8 (text : String) : String.fromUTF8? text.toUTF8 = some text := by
  simp only [String.fromUTF8?, String.toUTF8_eq_toByteArray, dif_pos text.isValidUTF8]
  rfl

namespace Starter

variable {settings : Settings} {starter : Starter} {world after : World} {destination : String}

/-- A new template has its manifest in its directory. -/
theorem exists_write_of_make (h : (starter.make settings).on world = (.ok destination, after)) :
    ∃ mid new, world.disk.makeDirectories destination = (mid, .ok ()) ∧
      mid.write (Path.join destination settings.manifestFile)
        ((starter.withDefaults settings).manifest settings).toUTF8 = .ok new ∧
      after = { world with disk := new } := by
  simp only [make, Work.on_bind, Work.on_disk] at h
  split_ifs at h with hthere
  · rw [Work.on_bind, Work.on_fail] at h
    cases h
  · rw [Work.on_bind, Work.on_attempt] at h
    rcases hmade : world.disk.makeDirectories (starter.withDefaults settings).destination with
      ⟨mid, fault | ⟨⟩⟩
    · simp [hmade] at h
    · rw [hmade] at h
      dsimp only at h
      rw [Work.on_bind, Work.on_change] at h
      cases hwrite : mid.write
          (Path.join (starter.withDefaults settings).destination settings.manifestFile)
          ((starter.withDefaults settings).manifest settings).toUTF8 with
      | error fault =>
        rw [hwrite] at h
        cases h
      | ok new =>
        rw [hwrite] at h
        cases h
        exact ⟨mid, new, hmade, hwrite, rfl⟩

/-- What is read from a new template is its manifest. -/
theorem readManifest_of_make (hsound : world.disk.Sound)
    (h : (starter.make settings).on world = (.ok destination, after)) :
    (readManifest settings destination).on after =
      (parseManifest settings ((starter.withDefaults settings).manifest settings)).on after := by
  obtain ⟨mid, new, hmade, hwrite, rfl⟩ := exists_write_of_make h
  have hmid : mid.Sound := by
    have := (hsound.makeDirectories destination).1
    rwa [hmade] at this
  rw [readManifest, Work.on_bind, readManifestText_on (hmid.read_write hwrite), fromUTF8?_toUTF8]

/-- **A new template says what its starter does**, if every character of the texts comes back from
between quotes; and if one of them may not stand in a stream and is written as it is, nothing can be read
from the template. -/
theorem make_described (starter : Starter) :
    let made := starter.withDefaults Settings.standard
    ((∀ text ∈ made.texts, ∀ c ∈ text.toList, Yaml.isQuotable c = true) →
      Manifest.parse (made.manifest Settings.standard) Settings.standard.supportedVersions =
          .ok (made.described Settings.standard) ∧
        ∀ world destination after, world.disk.Sound →
          (starter.make Settings.standard).on world = (.ok destination, after) →
            (readManifest Settings.standard destination).on after =
              (.ok (made.described Settings.standard), after)) ∧
    (∀ text ∈ made.texts, ∀ c ∈ text.toList, 32 ≤ c.toNat → Yaml.isAllowed c = false →
      Manifest.parse (made.manifest Settings.standard) Settings.standard.supportedVersions =
          .error .malformed ∧
        ∀ world destination after, world.disk.Sound →
          (starter.make Settings.standard).on world = (.ok destination, after) →
            (readManifest Settings.standard destination).on after =
              (.error (.manifest .malformed), after)) := by
  intro made
  refine ⟨fun h => ?_, fun text htext c hmem hcontrol hforbidden => ?_⟩
  · have hparse : Manifest.parse (made.manifest Settings.standard) Settings.standard.supportedVersions =
        .ok (made.described Settings.standard) := by
      rw [Manifest.parse, Manifest.Draft.ofString?, ofString?_fields h, Option.bind_eq_bind,
        Option.bind_some, ofNode?_fields h]
      exact check_draft (not_isAllBlank_withDefaults starter)
    refine ⟨hparse, fun world destination after hsound hmake => ?_⟩
    rw [readManifest_of_make hsound hmake, parseManifest, hparse]
    rfl
  · have hparse : Manifest.parse (made.manifest Settings.standard) Settings.standard.supportedVersions =
        .error .malformed := by
      rw [Manifest.parse, ofString?_forbidden (mem_manifest htext (mem_scalar hmem hcontrol hforbidden))
        hforbidden]
    refine ⟨hparse, fun world destination after hsound hmake => ?_⟩
    rw [readManifest_of_make hsound hmake, parseManifest, hparse]
    rfl

/-- A starter with a name that has to be quoted, and an author. -/
def quotedStarter : Starter where
  name := "a: b"
  authors := ["Ana"]

/-- A starter whose name has a delete character in it. -/
def deletedStarter : Starter where
  name := "a\x7f"

/-- A world with nothing in it. -/
def emptyWorld : World where
  disk := { directory := [], tree := [] }

theorem make_described_quoted :
    (∃ after, (quotedStarter.make .standard).on emptyWorld = (.ok "a: b", after) ∧
      (readManifest .standard "a: b").on after =
        (.ok ((quotedStarter.withDefaults .standard).described .standard), after)) ∧
    ∃ after, (deletedStarter.make .standard).on emptyWorld = (.ok "a\x7f", after) ∧
      (readManifest .standard "a\x7f").on after = (.error (.manifest .malformed), after) := by
  have hsound : emptyWorld.disk.Sound := by decide +kernel
  have hmade : ((quotedStarter.make .standard).on emptyWorld).1 = .ok "a: b" := by decide +kernel
  have hmade' : ((deletedStarter.make .standard).on emptyWorld).1 = .ok "a\x7f" := by decide +kernel
  rcases hrun : (quotedStarter.make .standard).on emptyWorld with ⟨result, after⟩
  rcases hrun' : (deletedStarter.make .standard).on emptyWorld with ⟨result', after'⟩
  obtain rfl : result = .ok "a: b" := by rwa [hrun] at hmade
  obtain rfl : result' = .ok "a\x7f" := by rwa [hrun'] at hmade'
  -- As a computation over the lists, not over all characters that there are.
  have hquotable : ((quotedStarter.withDefaults .standard).texts.all fun text =>
      text.toList.all Yaml.isQuotable) = true := by decide +kernel
  obtain ⟨-, hread⟩ := (make_described quotedStarter).1 fun text htext =>
    List.all_eq_true.mp (List.all_eq_true.mp hquotable text htext)
  obtain ⟨-, hread'⟩ := (make_described deletedStarter).2 "a\x7f" (by decide +kernel) '\x7f'
    (by decide +kernel) (by decide +kernel) (by decide +kernel)
  exact ⟨⟨after, rfl, hread _ _ _ hsound hrun⟩, after', rfl, hread' _ _ _ hsound hrun'⟩

end Starter

end Stencil
