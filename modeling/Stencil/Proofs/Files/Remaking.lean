import Stencil.Proofs.Files.Apart

/-!
# Directories that are made again

A directory that was made can be taken away again by the same path, and then all is as it was
(`removeEmptied_of_made`). So it can be made once more, and then all is as it was before that.

If directories around it were made as well they stay. What is made again then is the directory alone, on a disk that
has the others already (`exists_of_made`). That asks for a path that can climb: by another one the directory itself may
be made as one that is around it. Whatever has come to be inside by then does not matter (`removeDirectory_of_made`).
-/

namespace Stencil.Files.Disk

variable {disk new : Disk} {path : String} {place : Place}

/-- **A directory that was made is found where it was put**, and its path ends with a name. -/
theorem find_of_made (hsound : disk.Sound) (h : disk.makeDirectory path = .ok new) :
    ∃ outer s, disk.at? (outer ++ [s]) = none ∧ new = disk.put (outer ++ [s]) .directory ∧
      new.find false (withoutEndSlashes path) = .ok (outer ++ [s], .directory) ∧
      ∃ piece, lastPiece? path = some piece ∧ piece ≠ ['.'] ∧ piece ≠ ['.', '.'] := by
  obtain ⟨front, s, outer, ends, hsteps, hfront, hholds, hnone, rfl⟩ := exists_of_makeDirectory hsound h
  obtain ⟨location, hlocate, -, hdot, -⟩ := makeDirectory_inv h
  obtain ⟨hcan, -⟩ := locate_eq_ok.mp hlocate
  have hlast := exists_lastPiece? hsteps hdot
  refine ⟨outer, s, hnone, rfl, find_iff_leads.mpr ⟨⟨hcan.ne_empty, hcan.noNull, ?_⟩, false, ?_⟩, hlast⟩
  · exact (hsound.makeDirectory h).2.grown.holds hcan.holds
  · have hends : (Route.ofString (withoutEndSlashes path)).endsInDirectory = false := by
      rw [Bool.eq_false_iff]
      intro hends
      exact hdot (lastPiece?_of_endsInDirectory hcan.ne_empty (getLast?_withoutEndSlashes (by simp [hsteps])) hends)
    obtain ⟨found, hat, hfound⟩ := holds_iff.mp hholds
    obtain ⟨hnew, hwrites⟩ := hsound.makeDirectory h
    obtain ⟨grown, halike, hfront'⟩ := hfront.grow hat hwrites.grown.kept
    have hnext : (disk.put (outer ++ [s]) .directory).at? (outer ++ [s]) = some .directory :=
      at?_put_self disk .directory (by simp)
    rw [hends, Route.steps_withoutEndSlashes, hsteps, hwrites.grown.start_eq, start_withoutEndSlashes]
    exact hfront'.append rfl (halike.isDirectory_eq ▸ hfound) (by simp)
      (Sound.leads_names hnew outer [s] hnext (Or.inl rfl))

/-- **What was made can be taken away again**, and then all is as it was. -/
theorem removeEmptied_of_made (hsound : disk.Sound) (h : disk.makeDirectory path = .ok new) :
    new.removeEmptied path = (disk, .ok ()) := by
  obtain ⟨outer, s, hnone, rfl, hfind, piece, hpiece, hdot, hdots⟩ := find_of_made hsound h
  have hback : (disk.put (outer ++ [s]) .directory).erase (outer ++ [s]) = disk := by
    refine hsound.eq_of_at? ((hsound.makeDirectory h).1.erase _) rfl fun place => ?_
    rw [at?_erase]
    split
    · rename_i hin
      exact (hsound.at?_within_eq_none hnone hin.2).symm
    · rename_i hout
      exact at?_put_of_ne _ _ fun heq => hout ⟨by simp [heq], heq ▸ Place.isWithin_self _⟩
  unfold removeEmptied
  rw [hfind, hpiece]
  dsimp only
  split
  · rename_i heq
    exact absurd (Option.some.inj heq) hdot
  · rename_i heq
    exact absurd (Option.some.inj heq) hdots
  · rw [hback]
    rfl
  · rename_i heq
    cases heq

/-- What a path finds once its directory was made was not made as a directory around it. -/
theorem ne_of_around {room : Place → Entry → Prop} {p : String} (hsound : disk.Sound) (hclimb : disk.CanClimb path)
    (hholds : disk.Holds (disk.start path)) (hnone : disk.at? place = none) (hwrites : WritesOnly room disk new)
    (hplace : new.canonical path = .ok place) (hp : p ∈ (Path.ofString path).outer.map Path.render) :
    new.canonical p ≠ .ok place := by
  intro haround
  obtain ⟨names, hsteps, hnames⟩ :=
    exists_names_of_around hsound hclimb hholds hnone hwrites hplace (List.mem_cons_of_mem _ hp) haround
  obtain rfl : names = [] := by simpa using hnames.symm
  obtain ⟨outer, houter, rfl⟩ := List.mem_map.mp hp
  rw [List.map_nil, List.append_nil] at hsteps
  refine Path.steps_outer_ne houter (fun hnil => ?_) hsteps.symm
  -- Without a step the path would lead to where it starts, and that was there before.
  obtain ⟨_, _, hleads⟩ := exists_leads_of_canonical hplace
  rw [hnil, start, hwrites.directory_eq, ← start] at hleads
  have hbefore := holds_of_no_name hsound hholds (by simp) hleads
  rw [Holds, hnone] at hbefore
  cases hbefore

/-- A directory is made at once or after those around it, or nothing is made but those around it. -/
theorem makeAll_cons (disk : Disk) (path : String) (outer : List String) :
    (∃ base made, (base = disk ∨ disk.makeAll outer = (base, .ok ())) ∧ base.makeDirectory path = .ok made ∧
      disk.makeAll (path :: outer) = (made, .ok ())) ∨
    (disk.makeAll (path :: outer)).1 = disk ∨ (disk.makeAll (path :: outer)).1 = (disk.makeAll outer).1 := by
  rw [makeAll]
  split
  · rename_i made hmade
    exact Or.inl ⟨disk, made, Or.inl rfl, hmade, rfl⟩
  · split
    · rename_i mid fault hmid
      exact Or.inr (Or.inr (by rw [hmid]))
    · rename_i mid hmid
      split
      · rename_i made hmade
        exact Or.inl ⟨mid, made, Or.inr hmid, hmade, rfl⟩
      · exact Or.inr (Or.inr (by rw [hmid]))
  · exact Or.inr (Or.inl rfl)

/-- **Where a missing directory was made, it can be made right away** once those around it are there, and then it is all
that is made. -/
theorem exists_of_made (hsound : disk.Sound) (hmissing : disk.hasEntry path = false) (hclimb : disk.CanClimb path)
    (hplace : (disk.makeDirectories path).1.canonical path = .ok place) :
    ∃ base, base.Sound ∧ Grown disk base ∧ base.makeDirectory path = .ok (disk.makeDirectories path).1 ∧
      base.makeDirectories path = ((disk.makeDirectories path).1, .ok ()) := by
  have hgone : disk.canonical path ≠ .ok place := by
    intro hbefore
    obtain ⟨entry, hfind⟩ := canonical_eq_ok.mp hbefore
    rw [hasEntry_of_has (has_iff.mpr ⟨place, entry, hfind⟩)] at hmissing
    cases hmissing
  have hhas := has_of_no_entry hmissing
  have hnone := isFree_of_missing hsound hhas hclimb place hplace
  have hholds := holds_start_of_missing hhas hplace
  by_cases hempty : (Path.ofString path).outer.isEmpty = true
  · rw [makeDirectories, if_pos hempty] at hplace
    exact absurd hplace hgone
  obtain ⟨outer, houter, hmake⟩ : ∃ outer : List String, (∀ p ∈ outer, p ∈ (Path.ofString path).outer.map Path.render) ∧
      ∀ base : Disk, base.makeDirectories path = base.makeAll (path :: outer) :=
    ⟨_, fun p hp => (List.mem_filter.mp hp).1, fun base => by rw [makeDirectories, if_neg hempty]⟩
  obtain ⟨hmid, hwrites⟩ := hsound.makeAll outer
  rw [hmake] at hplace ⊢
  rcases makeAll_cons disk path outer with ⟨base, made, hbase, hmade, heq⟩ | heq | heq <;> rw [heq] at hplace ⊢
  · have hagain : base.makeDirectories path = (made, .ok ()) := by rw [hmake, makeAll, hmade]
    rcases hbase with rfl | hbase
    · exact ⟨base, hsound, .refl base, hmade, hagain⟩
    · rw [hbase] at hmid hwrites
      exact ⟨base, hmid, hwrites.grown, hmade, hagain⟩
  · exact absurd hplace hgone
  · -- The directory itself would have been made as one that is around it.
    rcases hwrites.changed place with hsame | ⟨_, -, -, -, p, hp, haround⟩
    · obtain ⟨entry, hfind⟩ := canonical_eq_ok.mp hplace
      rw [find_at? hfind, hnone] at hsame
      cases hsame
    · exact absurd haround (ne_of_around hsound hclimb hholds hnone hwrites hplace (houter p hp))

/-! ## With something inside -/

variable {after : Disk}

/-- Nothing is inside of a directory that was made. -/
theorem at?_inside_made {inner : Place} (hsound : disk.Sound) (hmissing : disk.hasEntry path = false)
    (hclimb : disk.CanClimb path) (hplace : (disk.makeDirectories path).1.canonical path = .ok place)
    (hin : inner.isInside place = true) : (disk.makeDirectories path).1.at? inner = none := by
  obtain ⟨names, hne, rfl⟩ := Place.isInside_iff.mp hin
  cases hat : (disk.makeDirectories path).1.at? (place ++ names) with
  | none => rfl
  | some entry =>
      have hmem := (hsound.makeDirectories path).1.mem_inside.mpr ⟨hne, hat⟩
      rw [(isVacant_of_missing hsound (has_of_no_entry hmissing) hclimb).2 place hplace] at hmem
      cases hmem

/-- What was made is found by its path as a directory, and no link. -/
theorem find_made (hsound : disk.Sound) (hmissing : disk.hasEntry path = false) (hclimb : disk.CanClimb path)
    (hplace : (disk.makeDirectories path).1.canonical path = .ok place) :
    (disk.makeDirectories path).1.find false path = .ok (place, .directory) := by
  obtain ⟨entry, hfind⟩ := canonical_eq_ok.mp hplace
  obtain ⟨there, found, hthere⟩ := hasEntry_iff.mp (hasEntry_of_has (has_iff.mpr ⟨place, entry, hfind⟩))
  obtain rfl := directory_of_new hsound (isNew_of_missing hsound hmissing hclimb) hthere
  obtain ⟨rfl, -⟩ := Prod.mk.inj (Except.ok.inj (hfind.symm.trans (find_follow_last hthere rfl)))
  exact hthere

/-- It is reached by its path. -/
theorem reaches_made (hsound : disk.Sound) (hmissing : disk.hasEntry path = false) (hclimb : disk.CanClimb path)
    (hplace : (disk.makeDirectories path).1.canonical path = .ok place) :
    (disk.makeDirectories path).1.Reaches path place :=
  .of_empty (find_follow_last (find_made hsound hmissing hclimb hplace) rfl) fun _ hin =>
    at?_inside_made hsound hmissing hclimb hplace hin

/-- **A directory that was made can be taken away with all that came to be inside**, and then it can be made again. -/
theorem removeDirectory_of_made (hsound : disk.Sound) (hmissing : disk.hasEntry path = false)
    (hclimb : disk.CanClimb path) (hplace : (disk.makeDirectories path).1.canonical path = .ok place)
    (hafter : after.Sound) (hsame : SameAround place (disk.makeDirectories path).1 after) :
    after.find false path = .ok (place, .directory) ∧
      ∃ base, Grown disk base ∧ base.makeDirectories path = ((disk.makeDirectories path).1, .ok ()) ∧
        after.removeDirectory path = (base, .ok ()) := by
  have hempty : ∀ inner, inner.isInside place = true → (disk.makeDirectories path).1.at? inner = none :=
    fun _ => at?_inside_made hsound hmissing hclimb hplace
  have hkept : ∀ inner entry, (disk.makeDirectories path).1.at? inner = some entry → after.at? inner = some entry := by
    intro inner entry hat
    rw [hsame.at?_eq, hat]
    rw [Bool.eq_false_iff]
    intro hin
    rw [hempty inner hin] at hat
    cases hat
  -- Emptied, it is as it was when it was made.
  have hback : after.eraseInside place = (disk.makeDirectories path).1 := by
    refine (hsound.makeDirectories path).1.eq_of_at? (hafter.eraseInside place) hsame.directory_eq fun inner => ?_
    rw [at?_eraseInside]
    split
    · rename_i hin
      exact (hempty inner hin).symm
    · rename_i hout
      exact hsame.at?_eq inner (by simpa using hout)
  have hfind := find_kept hsame.directory_eq hkept (find_made hsound hmissing hclimb hplace)
  obtain ⟨base, hbase, hgrown, hmake, hagain⟩ := exists_of_made hsound hmissing hclimb hplace
  refine ⟨hfind, base, hgrown, hagain, ?_⟩
  rw [removeDirectory_of_directory hfind rfl, hback, removeEmptied_of_made hbase hmake]

end Stencil.Files.Disk
