import Stencil.Proofs.Files.Order
import Stencil.Proofs.Fill.InPlace

/-!
# What a fill takes

Which files a fill takes is decided before the first of them is read, and by the disk alone (`gather`).
A fill in place, and one in the terminal, find out nothing else before they start (`prepare_inPlace`,
`prepare_terminal`).
-/

namespace Stencil.Fill

open Files Files.Disk

/-- The place of a directory and the files in it that a fill takes, or why it takes none. -/
def gather (given : String) (patterns : List String) (disk : Disk) :
    Except Failure (Place × List Visit) :=
  match disk.canonical given with
  | .error fault => .error (.files fault)
  | .ok root =>
    match IgnoreSet.ofPatterns root.render patterns with
    | .error fault => .error (.pattern fault)
    | .ok set =>
      match disk.filesOf set with
      | .error fault => .error (.walk root.render fault)
      | .ok visits => .ok (root, visits)

variable {given : String} {patterns : List String} {root : Place} {visits : List Visit} {disk : Disk}

theorem gather_eq_ok : gather given patterns disk = .ok (root, visits) ↔
    disk.canonical given = .ok root ∧ ∃ set, IgnoreSet.ofPatterns root.render patterns = .ok set ∧
      disk.filesOf set = .ok visits := by
  constructor
  · intro h
    unfold gather at h
    split at h
    · exact absurd h (by simp)
    · rename_i found hfound
      split at h
      · exact absurd h (by simp)
      · rename_i set hset
        split at h
        · exact absurd h (by simp)
        · rename_i all hfiles
          obtain ⟨rfl, rfl⟩ := Prod.mk.inj (Except.ok.inj h)
          exact ⟨hfound, set, hset, hfiles⟩
  · rintro ⟨hroot, set, hset, hfiles⟩
    simp [gather, hroot, hset, hfiles]

/-- A fill in place finds out what to take, and changes nothing for that. -/
theorem prepare_inPlace (given : String) (patterns : List String) (vars : Variables) (world : World) :
    (prepare given patterns vars .inPlace).on world =
      match gather given patterns world.disk with
      | .ok (root, visits) =>
        (.ok ({ given, source := root.render, context := vars.context, route := .inPlace }, visits), world)
      | .error failure => (.error failure, world) := by
  simp only [prepare, gather, routeOf, Work.on_bind, Work.on_ask]
  cases world.disk.canonical given with
  | error fault => rfl
  | ok root =>
      cases hset : IgnoreSet.ofPatterns root.render patterns with
      | error fault => simp [hset]
      | ok set => cases hfiles : world.disk.filesOf set <;> simp [hset, hfiles]

/-- A fill in the terminal finds out what to take, and changes nothing for that. -/
theorem prepare_terminal (given : String) (patterns : List String) (vars : Variables) (world : World) :
    (prepare given patterns vars .terminal).on world =
      match gather given patterns world.disk with
      | .ok (root, visits) =>
        (.ok ({ given, source := root.render, context := vars.context, route := .terminal }, visits),
          world)
      | .error failure => (.error failure, world) := by
  simp only [prepare, gather, routeOf, Work.on_bind, Work.on_ask]
  cases world.disk.canonical given with
  | error fault => rfl
  | ok root =>
      cases hset : IgnoreSet.ofPatterns root.render patterns with
      | error fault => simp [hset]
      | ok set => cases hfiles : world.disk.filesOf set <;> simp [hset, hfiles]

/-- A directory that is gathered is found by the path of its place. -/
theorem canonical_render_of_gather (hsound : disk.Sound)
    (h : gather given patterns disk = .ok (root, visits)) : disk.canonical root.render = .ok root := by
  obtain ⟨entry, hfind⟩ := canonical_eq_ok.mp (gather_eq_ok.mp h).1
  exact canonical_eq_ok.mpr ⟨entry, hsound.find_render (find_at? hfind)
    (by simp [hsound.not_isLink hfind])⟩

/-- What is gathered can be filled in place. -/
theorem planned_of_gather (hsound : disk.Sound) (h : gather given patterns disk = .ok (root, visits))
    (context : Value) :
    Planned given patterns disk { given, source := root.render, context, route := .inPlace } root
      visits :=
  ⟨⟨rfl, rfl, hsound, canonical_render_of_gather hsound h⟩, (gather_eq_ok.mp h).1,
    (gather_eq_ok.mp h).2⟩

/-! ## The files that are taken -/

variable {visit other : Visit}

/-- What is gathered are files, and their paths find them. -/
theorem file_of_gather (hsound : disk.Sound) (h : gather given patterns disk = .ok (root, visits))
    (hvisit : visit ∈ visits) :
    ∃ content executable, disk.at? (root ++ visit.names) = some (.file content executable) ∧
      disk.find true (visit.path root.render) = .ok (root ++ visit.names, .file content executable) := by
  obtain ⟨content, executable, hat⟩ := (planned_of_gather hsound h .null).file_at hvisit
  refine ⟨content, executable, hat, ?_⟩
  rw [Visit.path_render (hsound.isName hat)]
  exact hsound.find_render hat (by simp [Entry.isLink])

theorem isName_of_gather (hsound : disk.Sound) (h : gather given patterns disk = .ok (root, visits)) :
    ∀ visit ∈ visits, ∀ s ∈ visit.names, IsName s :=
  (planned_of_gather hsound h .null).names_isName

/-- No file that is gathered lies inside of another one. -/
theorem names_eq_of_leading (hsound : disk.Sound) (h : gather given patterns disk = .ok (root, visits))
    (hvisit : visit ∈ visits) (hother : other ∈ visits) (hlead : visit.names <+: other.names) :
    visit.names = other.names := by
  obtain ⟨content, executable, hat, _⟩ := file_of_gather hsound h hvisit
  obtain ⟨_, _, hat', _⟩ := file_of_gather hsound h hother
  obtain ⟨more, hmore⟩ := hlead
  by_cases hempty : more = []
  · rw [← hmore, hempty, List.append_nil]
  · rw [← hmore, ← List.append_assoc] at hat'
    obtain ⟨entry, hentry, hdir⟩ := holds_iff.mp (hsound.outer_append hempty hat')
    rw [hat, Option.some.injEq] at hentry
    exact absurd hdir (by simp [← hentry, Entry.isDirectory])

/-- The files are taken in the order of their paths. -/
theorem gather_sorted (hsound : disk.Sound) (h : gather given patterns disk = .ok (root, visits)) :
    visits.Pairwise fun a b => a.names < b.names := by
  obtain ⟨_, set, _, hfiles⟩ := gather_eq_ok.mp h
  exact filesOf_sorted hsound hfiles

/-- Nor does it matter what comes with them. -/
theorem gather_sorted_fst {α : Type} {files : List (Visit × α)} (hsound : disk.Sound)
    (h : gather given patterns disk = .ok (root, files.map Prod.fst)) :
    (files.map fun file => file.1.names).Pairwise (· < ·) := by
  have hsorted := gather_sorted hsound h
  rw [List.pairwise_map] at hsorted
  exact List.pairwise_map.mpr hsorted

end Stencil.Fill
