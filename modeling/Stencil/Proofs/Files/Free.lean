import Stencil.Proofs.Files.Writing
import Stencil.Proofs.Path.Parts

/-!
# Free places

To make a directory at a path is harmless if nothing is where the path leads in the end. It is not
enough that the path leads nowhere now: steps up behind a missing directory are taken once it was
made, and may lead to something that was there all along. So a place is free if nothing is where the
path leads once the directories were made (`IsFree`).

A path that leads nowhere is free if whatever it takes a step up from is there (`CanClimb`), as it
is for a path that takes its steps up first (`isFree_of_missing`): up to what is missing first it
leads through what is there, and everything behind is missing as well. If there is not even a link
at its end, whatever stands there once the directory was made is new (`IsNew`). Nothing is
inside of the directory then once it was made (`isVacant_of_missing`).
-/

namespace Stencil.Files.Disk

variable {disk : Disk} {path : String} {place : Place}

/-- **Whether a place is free for a directory**: nothing is where the path leads once the directory
and those around it were made. -/
def IsFree (disk : Disk) (path : String) : Prop :=
  ∀ place, (disk.makeDirectories path).1.canonical path = .ok place → disk.at? place = none

instance (disk : Disk) (path : String) : Decidable (disk.IsFree path) :=
  match h : (disk.makeDirectories path).1.canonical path with
  | .ok place => decidable_of_iff (disk.at? place = none)
      ⟨fun hnone there hthere => by rw [h, Except.ok.injEq] at hthere; exact hthere ▸ hnone,
        fun hfree => hfree place h⟩
  | .error _ => isTrue fun place hplace => by rw [h] at hplace; exact absurd hplace (by simp)

/-- Either nothing is made, or something could be made right away. -/
theorem makeAll_first (disk : Disk) (paths : List String) :
    (disk.makeAll paths).1 = disk ∨ ∃ path ∈ paths, ∃ new, disk.makeDirectory path = .ok new := by
  induction paths with
  | nil => exact Or.inl rfl
  | cons path outer ih =>
      unfold makeAll
      split
      · rename_i new hmake
        exact Or.inr ⟨path, List.mem_cons_self, new, hmake⟩
      · rcases ih with hsame | ⟨other, hother, new, hmake⟩
        · split
          · rename_i mid fault hmid
            rw [hmid] at hsame
            exact Or.inl hsame
          · rename_i mid hmid
            rw [hmid] at hsame
            simp only at hsame
            subst hsame
            split
            · rename_i new hmake
              exact Or.inr ⟨path, List.mem_cons_self, new, hmake⟩
            · exact Or.inl rfl
        · exact Or.inr ⟨other, List.mem_cons_of_mem _ hother, new, hmake⟩
      · exact Or.inl rfl

theorem makeDirectories_first (disk : Disk) (path : String) :
    (disk.makeDirectories path).1 = disk ∨
      ∃ p ∈ path :: (Path.ofString path).outer.map Path.render, ∃ new,
        disk.makeDirectory p = .ok new := by
  unfold makeDirectories
  simp only
  split
  · exact Or.inl rfl
  · refine (makeAll_first disk _).imp_right fun ⟨p, hp, new, hmake⟩ => ⟨p, ?_, new, hmake⟩
    rcases List.mem_cons.mp hp with rfl | hp
    · exact List.mem_cons_self
    · exact List.mem_cons_of_mem _ (List.mem_filter.mp hp).1

/-- Where a directory can be made, its path starts where names can be. -/
theorem holds_start_of_makeDirectory {new : Disk} (h : disk.makeDirectory path = .ok new) :
    disk.Holds (disk.start path) := by
  obtain ⟨location, hlocate, _⟩ := makeDirectory_inv h
  rw [← start_withoutEndSlashes]
  exact (locate_eq_ok.mp hlocate).1.holds

/-- A last step that leads to nothing is a name. -/
theorem exists_name_of_missing {links : Nat} {step : Step} {location : Location}
    (hsound : disk.Sound) (hholds : disk.Holds place) (hnone : location.entry? = none)
    (h : Leads disk.tree false links place [step] false location) :
    ∃ s, step = .name s ∧ location.place = place ++ [s] ∧ disk.at? (place ++ [s]) = none := by
  cases step with
  | up =>
      -- A step up leads to what is there.
      obtain ⟨outer, houter, _⟩ := holds_iff.mp (hsound.holds_dropLast hholds)
      cases h with
      | up hhere =>
          cases hhere with
          | here => exact absurd (hnone.symm.trans houter) (by simp)
  | name s =>
      have hplace := h.place_of_name
      rw [h.entry_eq, hplace] at hnone
      exact ⟨s, rfl, hplace, hnone⟩

/-- Where a directory can be made right away, its path leads through what is there to what is not. -/
theorem exists_of_makeDirectory {new : Disk} (hsound : disk.Sound)
    (h : disk.makeDirectory path = .ok new) :
    ∃ front s inner ends, (Route.ofString path).steps = front ++ [.name s] ∧
      Leads disk.tree true maxLinks (disk.start path) front false ⟨inner, disk.at? inner, ends⟩ ∧
      disk.Holds inner ∧ disk.at? (inner ++ [s]) = none ∧ new = disk.put (inner ++ [s]) .directory := by
  obtain ⟨location, hlocate, hentry, hdot, rfl⟩ := makeDirectory_inv h
  obtain ⟨hcan, hleads⟩ := locate_eq_ok.mp hlocate
  have hstart := start_withoutEndSlashes disk path
  rw [hstart, Route.steps_withoutEndSlashes] at hleads
  have hholds : disk.Holds (disk.start path) := hstart ▸ hcan.holds
  -- Without steps the path would lead to where it starts.
  have hne : (Route.ofString path).steps ≠ [] := by
    intro hnil
    rw [hnil] at hleads
    obtain ⟨entry, hat, _⟩ := holds_iff.mp hholds
    cases hleads with
    | here => exact absurd (hentry.symm.trans hat) (by simp)
  have hends : (Route.ofString (withoutEndSlashes path)).endsInDirectory = false := by
    rw [Bool.eq_false_iff]
    intro hends
    have hlast := getLast?_withoutEndSlashes hne
    exact hdot (lastPiece?_of_endsInDirectory hcan.ne_empty hlast hends)
  rw [hends] at hleads
  obtain ⟨front, last, hsteps⟩ := (List.eq_nil_or_concat _).resolve_left hne
  rw [List.concat_eq_append] at hsteps
  rw [hsteps] at hleads
  obtain ⟨location', hfront, hinner⟩ := hleads.front hsound (by simp) hholds false
  obtain ⟨found, hat, _⟩ := holds_iff.mp hinner
  have hentry' : location'.entry? = some found := hfront.entry_eq.trans hat
  obtain ⟨_, _, hlast⟩ := hfront.rest (by simp [hentry']) (by simp) hleads
  obtain ⟨inner, entry?, ends'⟩ := location'
  obtain rfl : entry? = disk.at? inner := hfront.entry_eq
  obtain ⟨s, rfl, hplace, hmissing⟩ := exists_name_of_missing hsound hinner hentry hlast
  exact ⟨front, s, inner, ends', hsteps, hfront, hinner, hmissing, by rw [hplace]⟩

theorem exists_names_of_no_up {steps : List Step} (hup : .up ∉ steps) :
    ∃ names : Place, steps = names.map .name := by
  induction steps with
  | nil => exact ⟨[], rfl⟩
  | cons step steps ih =>
      obtain ⟨names, rfl⟩ := ih fun hmem => hup (List.mem_cons_of_mem _ hmem)
      cases step with
      | up => exact absurd List.mem_cons_self hup
      | name s => exact ⟨s :: names, rfl⟩

/-- A path, or one around it, goes along the path. -/
theorem route_around {p : String} (hp : p ∈ path :: (Path.ofString path).outer.map Path.render) :
    (Route.ofString p).steps <+: (Route.ofString path).steps ∧
      (Route.ofString p).isAbsolute = (Route.ofString path).isAbsolute := by
  rcases List.mem_cons.mp hp with rfl | hp
  · exact ⟨List.prefix_rfl, rfl⟩
  · obtain ⟨outer, houter, rfl⟩ := List.mem_map.mp hp
    exact ⟨Path.steps_outer houter, Path.isAbsolute_outer houter⟩

/-- Whether a path takes its steps up, if it has any, before it enters anything. -/
def UpFirst (path : String) : Prop :=
  ∀ front s rest, (Route.ofString path).steps = front ++ .name s :: rest → .up ∉ rest

/-- **Whether whatever a path has entered before it takes a step up is there.** -/
def CanClimb (disk : Disk) (path : String) : Prop :=
  ∀ front rest, (Route.ofString path).steps = front ++ .up :: rest → (∃ s, .name s ∈ front) →
    ∃ location, Leads disk.tree true maxLinks (disk.start path) front false location ∧ disk.Holds location.place

/-- A path whose steps up come first has entered nothing by then. -/
theorem UpFirst.canClimb (h : UpFirst path) (disk : Disk) : disk.CanClimb path := by
  rintro front rest hsteps ⟨s, hs⟩
  obtain ⟨before, behind, rfl⟩ := List.append_of_mem hs
  rw [List.append_assoc, List.cons_append] at hsteps
  exact absurd (List.mem_append_right _ List.mem_cons_self) (h before s (behind ++ .up :: rest) hsteps)

/-- The path leads to what is there as long as it has steps up to take. -/
theorem CanClimb.exists_leads {front rest : List Step} (h : disk.CanClimb path) (hsound : disk.Sound)
    (hholds : disk.Holds (disk.start path)) (hsteps : (Route.ofString path).steps = front ++ rest)
    (hname : ∃ s, .name s ∈ front) (hup : .up ∈ rest) :
    ∃ location, Leads disk.tree true maxLinks (disk.start path) front false location ∧ disk.Holds location.place := by
  obtain ⟨before, behind, rfl⟩ := List.append_of_mem hup
  obtain ⟨location, hleads, hdir⟩ := h (front ++ before) behind (by rw [hsteps, List.append_assoc])
    (hname.imp fun _ hs => List.mem_append_left _ hs)
  by_cases hempty : before = []
  · rw [hempty, List.append_nil] at hleads
    exact ⟨location, hleads, hdir⟩
  · exact hleads.front hsound hempty hholds false

/-- Behind what is missing there is no step up. -/
theorem CanClimb.no_up {front rest : List Step} {s : String} {location : Location} (h : disk.CanClimb path)
    (hsound : disk.Sound) (hholds : disk.Holds (disk.start path))
    (hsteps : (Route.ofString path).steps = front ++ .name s :: rest)
    (hfront : Leads disk.tree true maxLinks (disk.start path) front false location) (hsome : location.entry? ≠ none)
    (hnone : disk.at? (location.place ++ [s]) = none) : .up ∉ rest := by
  intro hup
  -- The step up would have to be taken from what is missing, or from within.
  obtain ⟨found, hleads, hfound⟩ := h.exists_leads hsound hholds
    (show (Route.ofString path).steps = (front ++ [.name s]) ++ rest by simp [hsteps]) ⟨s, by simp⟩ hup
  obtain ⟨_, _, hlast⟩ := hfront.rest hsome (by simp) hleads
  have hplace := hlast.place_of_names [s] fun deeper hne hprefix target hlink => by
    obtain ⟨t, deeper, rfl⟩ := List.exists_cons_of_ne_nil hne
    obtain ⟨rfl, htail⟩ := List.cons_prefix_cons.mp hprefix
    obtain rfl := List.prefix_nil.mp htail
    cases hlink.symm.trans hnone
  rw [Holds, hplace, hnone] at hfound
  cases hfound

/-- Whatever a path that leads nowhere finds once its directory was made was not there before, if the path can climb.
-/
theorem at?_of_made {followLast : Bool} {entry : Entry} (hsound : disk.Sound)
    (hmissing : ∀ found, disk.find followLast path ≠ .ok found) (hclimb : disk.CanClimb path)
    (hfind : (disk.makeDirectories path).1.find followLast path = .ok (place, entry)) : disk.at? place = none := by
  obtain ⟨_, hwrites⟩ := hsound.makeDirectories path
  rcases makeDirectories_first disk path with hsame | ⟨p, hp, first, hmake⟩
  · rw [hsame] at hfind
    exact absurd hfind (hmissing _)
  · -- The first directory that can be made is on the way, and nothing is inside of it.
    obtain ⟨hsteps, habsolute⟩ := route_around hp
    obtain ⟨front, s, inner, _, hfrontSteps, hfront, hholds, hnone, -⟩ := exists_of_makeDirectory hsound hmake
    obtain ⟨more, hmore⟩ := hsteps
    rw [hfrontSteps] at hmore
    obtain ⟨found, hat, _⟩ := holds_iff.mp hholds
    have hstart' : disk.start p = disk.start path := by rw [start, start, habsolute]
    obtain ⟨names, hnames⟩ := exists_names_of_no_up (hclimb.no_up hsound
      (hstart' ▸ holds_start_of_makeDirectory hmake) (by simpa using hmore.symm) (hstart' ▸ hfront) (by simp [hat])
      hnone)
    obtain ⟨grown, _, hfront'⟩ := hfront.grow hat hwrites.grown.kept
    obtain ⟨-, _, hleads⟩ := find_iff_leads.mp hfind
    have hstart : (disk.makeDirectories path).1.start path = disk.start p := by
      rw [hwrites.grown.start_eq, hstart']
    rw [hstart, ← hmore, hnames, List.append_assoc] at hleads
    obtain ⟨_, _, hrest⟩ := hfront'.rest (by simp) (by simp) hleads
    have hwithin : ∀ deeper : Place, disk.at? (inner ++ [s] ++ deeper) = none := fun deeper =>
      hsound.at?_within_eq_none hnone (Place.isWithin_append _ deeper)
    have hend := hrest.place_of_names (s :: names) fun deeper hne hdeeper target hlink => by
      obtain ⟨t, deeper, rfl⟩ := List.exists_cons_of_ne_nil hne
      obtain ⟨rfl, _⟩ := List.cons_prefix_cons.mp hdeeper
      have hbefore := hwrites.link_of_link hlink
      rw [← List.singleton_append, ← List.append_assoc, hwithin] at hbefore
      exact absurd hbefore (by simp)
    simp only at hend
    rw [hend]
    simpa using hwithin names

/-- **A path that leads nowhere is free**, if it can climb. -/
theorem isFree_of_missing (hsound : disk.Sound) (hmissing : disk.has path = false) (hclimb : disk.CanClimb path) :
    disk.IsFree path := by
  intro place hplace
  obtain ⟨entry, hfind⟩ := canonical_eq_ok.mp hplace
  refine at?_of_made hsound (fun found hfound => ?_) hclimb hfind
  rw [has_iff.mpr ⟨_, _, hfound⟩] at hmissing
  cases hmissing

/-- **Whether what a path finds once its directory was made was not there before**, be it a link at the end. -/
def IsNew (disk : Disk) (path : String) : Prop :=
  ∀ place entry, (disk.makeDirectories path).1.find false path = .ok (place, entry) → disk.at? place = none

instance (disk : Disk) (path : String) : Decidable (disk.IsNew path) :=
  match h : (disk.makeDirectories path).1.find false path with
  | .ok found => decidable_of_iff (disk.at? found.1 = none)
      ⟨fun hnone place entry hfind => by
        rw [h, Except.ok.injEq] at hfind
        rwa [hfind] at hnone, fun hnew => hnew found.1 found.2 h⟩
  | .error _ => isTrue fun place entry hfind => by rw [h] at hfind; exact absurd hfind (by simp)

/-- A path with nothing at its end is new, if it can climb. -/
theorem isNew_of_missing (hsound : disk.Sound) (hmissing : disk.hasEntry path = false) (hclimb : disk.CanClimb path) :
    disk.IsNew path := by
  intro place entry hfind
  refine at?_of_made hsound (fun found hfound => ?_) hclimb hfind
  rw [hasEntry_iff.mpr ⟨_, _, hfound⟩] at hmissing
  cases hmissing

/-- What was made where nothing was is a directory, and no link. -/
theorem directory_of_new {entry : Entry} (hsound : disk.Sound) (hnew : disk.IsNew path)
    (hfind : (disk.makeDirectories path).1.find false path = .ok (place, entry)) : entry = .directory := by
  have hnone := hnew place entry hfind
  rcases (hsound.makeDirectories path).2.changed place with heq | ⟨made, hat, _, hmade⟩
  · rw [find_at? hfind, hnone] at heq
    exact absurd heq (by simp)
  · rw [find_at? hfind, Option.some.injEq] at hat
    exact hat.trans hmade.1

/-- What is new is free. -/
theorem IsNew.isFree (hsound : disk.Sound) (hnew : disk.IsNew path) : disk.IsFree path := by
  intro place hplace
  obtain ⟨entry, hfind⟩ := canonical_eq_ok.mp hplace
  obtain ⟨there, found, hthere⟩ := hasEntry_iff.mp (hasEntry_of_has (has_iff.mpr ⟨place, entry, hfind⟩))
  obtain rfl := directory_of_new hsound hnew hthere
  have hsame := find_follow_last hthere rfl
  rw [hfind, Except.ok.injEq, Prod.mk.injEq] at hsame
  obtain ⟨rfl, -⟩ := hsame
  exact hnew _ _ hthere

/-! ## What was made, and what cannot be -/

theorem hasDirectory_eq_true : disk.hasDirectory path = true ↔
    ∃ place entry, disk.find true path = .ok (place, entry) ∧ entry.isDirectory = true := by
  unfold hasDirectory
  cases disk.find true path with
  | error fault => simp
  | ok found =>
      obtain ⟨there, found⟩ := found
      constructor
      · exact fun h => ⟨there, found, rfl, h⟩
      · rintro ⟨_, _, h, hdir⟩
        obtain ⟨rfl, rfl⟩ : there = _ ∧ found = _ := by simpa using h
        exact hdir

/-- If making fails there is a directory missing in the end. -/
theorem makeAll_failed {fault : Fault} {paths : List String}
    (h : (disk.makeAll paths).2 = .error fault) :
    ∃ path ∈ paths, (disk.makeAll paths).1.hasDirectory path = false := by
  induction paths with
  | nil => exact absurd h (by simp [makeAll])
  | cons path outer ih =>
      unfold makeAll at h ⊢
      split at h
      · exact absurd h (by simp)
      · split at h
        · rename_i mid fault' hmid
          rw [hmid] at ih
          obtain ⟨p, hp, hmissing⟩ := ih h
          exact ⟨p, List.mem_cons_of_mem _ hp, hmissing⟩
        · split at h
          · exact absurd h (by simp)
          · refine ⟨path, List.mem_cons_self, ?_⟩
            rw [Bool.eq_false_iff]
            intro hhas
            simp only [hhas, if_true] at h
            exact absurd h (by simp)
      · refine ⟨path, List.mem_cons_self, ?_⟩
        rw [Bool.eq_false_iff]
        intro hhas
        simp only [hhas, if_true] at h
        exact absurd h (by simp)

/-- A directory is where one was made. -/
theorem hasDirectory_makeDirectory {new : Disk} (hsound : disk.Sound)
    (h : disk.makeDirectory path = .ok new) :
    new.hasDirectory path = true := by
  obtain ⟨outer, s, _, _, _, rfl, hcanonical⟩ := hsound.makeDirectory_eq h
  obtain ⟨entry, hfind⟩ := canonical_eq_ok.mp hcanonical
  have hat := find_at? hfind
  rw [at?_put_self _ _ (by simp), Option.some.injEq] at hat
  exact hasDirectory_eq_true.mpr ⟨_, entry, hfind, hat ▸ rfl⟩

/-- If making succeeds the innermost directory is there in the end. -/
theorem makeAll_done {outer : List String} (hsound : disk.Sound)
    (h : (disk.makeAll (path :: outer)).2 = .ok ()) :
    (disk.makeAll (path :: outer)).1.hasDirectory path = true := by
  have hthere : ∀ {other : Disk} {fault : Fault},
      (if other.hasDirectory path then .ok () else .error fault : Except Fault Unit) = .ok () →
      other.hasDirectory path = true := by
    intro other fault hend
    split at hend
    · assumption
    · exact absurd hend (by simp)
  unfold makeAll at h ⊢
  split at h
  · rename_i new hmake
    exact hasDirectory_makeDirectory hsound hmake
  · obtain ⟨hmid, _⟩ := hsound.makeAll outer
    split at h
    · exact absurd h (by simp)
    · rename_i mid hmade
      rw [hmade] at hmid
      split at h
      · rename_i new hmake
        exact hasDirectory_makeDirectory hmid hmake
      · exact hthere h
  · exact hthere h

/-- **Where a missing directory was made there is one.** -/
theorem holds_of_made (hsound : disk.Sound) (hmissing : disk.has path = false)
    (h : (disk.makeDirectories path).2 = .ok ())
    (hplace : (disk.makeDirectories path).1.canonical path = .ok place) :
    (disk.makeDirectories path).1.Holds place := by
  obtain ⟨entry, hfind⟩ := canonical_eq_ok.mp hplace
  have hthere : (disk.makeDirectories path).1.hasDirectory path = true := by
    have hhas : (disk.makeDirectories path).1.has path = true := has_iff.mpr ⟨place, entry, hfind⟩
    unfold makeDirectories at h hhas ⊢
    simp only at h hhas ⊢
    split at h
    · rename_i hempty
      rw [if_pos hempty, hmissing] at hhas
      exact absurd hhas (by simp)
    · rename_i hsome
      rw [if_neg hsome]
      exact makeAll_done hsound h
  obtain ⟨there, found, hfound, hdir⟩ := hasDirectory_eq_true.mp hthere
  obtain ⟨rfl, rfl⟩ : place = there ∧ entry = found := by simpa using hfind.symm.trans hfound
  exact .of_at? (find_at? hfind) hdir

/-- Around a directory that a path leads to there are directories on the way. -/
theorem hasDirectory_outer (hsound : disk.Sound) (h : disk.hasDirectory path = true) {outer : Path}
    (houter : outer ∈ (Path.ofString path).outer) (hne : outer.render ≠ "") :
    disk.hasDirectory outer.render = true := by
  obtain ⟨place, entry, hfind, hdir⟩ := hasDirectory_eq_true.mp h
  obtain ⟨hcan, ends, hleads⟩ := find_iff_leads.mp hfind
  obtain ⟨more, hmore⟩ := Path.steps_outer houter
  have hstart : disk.start outer.render = disk.start path := by
    rw [start, start, Path.isAbsolute_outer houter]
  have hcan' : disk.CanFollow outer.render := by
    refine ⟨hne, fun hnull => ?_, hstart ▸ hcan.holds⟩
    obtain ⟨s, hs, hc⟩ := exists_name_of_mem (by decide) (by decide) hnull
    exact hcan.noNull ((isName_of_mem_route ((Path.steps_outer houter).subset hs)).2 _ hc)
  have hfound : ∃ location entry, Leads disk.tree true maxLinks (disk.start path)
      (Route.ofString outer.render).steps (Route.ofString outer.render).endsInDirectory location ∧
      location.entry? = some entry ∧ entry.isDirectory = true := by
    by_cases hempty : more = []
    · rw [hempty, List.append_nil] at hmore
      obtain ⟨ends', hleads'⟩ := hleads.any_end rfl hdir (Route.ofString outer.render).endsInDirectory
      exact ⟨_, entry, hmore ▸ hleads', rfl, hdir⟩
    · rw [← hmore] at hleads
      obtain ⟨location, hfront, hholds⟩ := hleads.front hsound hempty hcan.holds
        (Route.ofString outer.render).endsInDirectory
      obtain ⟨found, hat, hfound⟩ := holds_iff.mp hholds
      exact ⟨location, found, hfront, hfront.entry_eq.trans hat, hfound⟩
  obtain ⟨⟨there, entry?, ends'⟩, found, hleads', hsome, hfound⟩ := hfound
  obtain rfl : entry? = some found := hsome
  have hfind' : disk.find true outer.render = .ok (there, found) :=
    find_iff_leads.mpr ⟨hcan', ends', hstart ▸ hleads'⟩
  exact hasDirectory_eq_true.mpr ⟨there, found, hfind', hfound⟩

/-- What was made in a free place is a directory. -/
theorem directory_of_free {entry : Entry} (hsound : disk.Sound) (hfree : disk.IsFree path)
    (hfind : (disk.makeDirectories path).1.find true path = .ok (place, entry)) :
      entry = .directory := by
  have hnone := hfree place (canonical_eq_ok.mpr ⟨entry, hfind⟩)
  rcases (hsound.makeDirectories path).2.changed place with heq | ⟨made, hat, _, hmade⟩
  · rw [find_at? hfind, hnone] at heq
    exact absurd heq (by simp)
  · rw [find_at? hfind, Option.some.injEq] at hat
    exact hat.trans hmade.1

/-- **Where no directory could be made for a free path, the path leads nowhere.** -/
theorem has_of_not_made {fault : Fault} (hsound : disk.Sound) (hfree : disk.IsFree path)
    (h : (disk.makeDirectories path).2 = .error fault) :
      (disk.makeDirectories path).1.has path = false := by
  rw [Bool.eq_false_iff]
  intro hhas
  obtain ⟨place, entry, hfind⟩ := has_iff.mp hhas
  have hnew := (hsound.makeDirectories path).1
  have hthere : (disk.makeDirectories path).1.hasDirectory path = true :=
    hasDirectory_eq_true.mpr ⟨place, entry, hfind, directory_of_free hsound hfree hfind ▸ rfl⟩
  have hall : ∀ p ∈ path :: ((Path.ofString path).outer.map Path.render).filter (fun p =>
    !p.isEmpty && p ≠ "/"),
      (disk.makeDirectories path).1.hasDirectory p = true := by
    intro p hp
    rcases List.mem_cons.mp hp with rfl | hp
    · exact hthere
    · obtain ⟨hp, hkeep⟩ := List.mem_filter.mp hp
      obtain ⟨outer, houter, rfl⟩ := List.mem_map.mp hp
      refine hasDirectory_outer hnew hthere houter ?_
      rintro hempty
      rw [hempty] at hkeep
      exact absurd hkeep (by decide)
  unfold makeDirectories at h hall
  simp only at h hall
  split at h
  · exact absurd h (by simp)
  · rename_i hsome
    rw [if_neg hsome] at hall
    obtain ⟨p, hp, hmissing⟩ := makeAll_failed h
    rw [hall p hp] at hmissing
    exact absurd hmissing (by simp)

/-! ## Vacant places -/

/-- Whether a directory that is made for a path has nothing inside, and nothing was in
its place before. -/
def IsVacant (disk : Disk) (path : String) : Prop :=
  disk.IsFree path ∧ ∀ place, (disk.makeDirectories path).1.canonical path = .ok place →
    (disk.makeDirectories path).1.tree.inside place = []

instance (disk : Disk) (path : String) : Decidable (disk.IsVacant path) :=
  match h : (disk.makeDirectories path).1.canonical path with
  | .ok place =>
      decidable_of_iff (disk.IsFree path ∧ (disk.makeDirectories path).1.tree.inside place = [])
      ⟨fun hboth =>
        ⟨hboth.1, fun there hthere => by rw [h, Except.ok.injEq] at hthere; exact hthere ▸ hboth.2⟩,
        fun hvacant => ⟨hvacant.1, hvacant.2 place h⟩⟩
  | .error _ => isTrue ⟨fun place hplace => by rw [h] at hplace; exact absurd hplace (by simp),
      fun place hplace => by rw [h] at hplace; exact absurd hplace (by simp)⟩

/-- Steps up lead to what is there. -/
theorem holds_of_no_name {new : Disk} {links : Nat} {steps : List Step} {ends : Bool}
    {location : Location}
    (hsound : disk.Sound) (hholds : disk.Holds place) (hup : ∀ s, .name s ∉ steps)
    (h : Leads new.tree true links place steps ends location) : disk.Holds location.place := by
  induction h with
  | here => exact hholds
  | up _ ih => exact ih (hsound.holds_dropLast hholds) fun s hs => hup s (List.mem_cons_of_mem _ hs)
  | missing | file | stop | link | inner => exact absurd List.mem_cons_self (hup _)

/-- Where a missing directory could be made, its path starts where names can be. -/
theorem holds_start_of_missing (hmissing : disk.has path = false)
    (hplace : (disk.makeDirectories path).1.canonical path = .ok place) :
    disk.Holds (disk.start path) := by
  rcases makeDirectories_first disk path with hsame | ⟨p, hp, first, hmake⟩
  · obtain ⟨found, hfind⟩ := canonical_eq_ok.mp (hsame ▸ hplace)
    rw [has_iff.mpr ⟨place, found, hfind⟩] at hmissing
    exact absurd hmissing (by simp)
  · have hstart : disk.start p = disk.start path := by rw [start, start, (route_around hp).2]
    exact hstart ▸ holds_start_of_makeDirectory hmake

/-- A path goes on by names only from where a path around it leads to, if nothing was there before. -/
theorem exists_names_of_around {room : Place → Entry → Prop} {new : Disk} {there : Place} {p : String}
    (hsound : disk.Sound) (hclimb : disk.CanClimb path) (hholds : disk.Holds (disk.start path))
    (hnone : disk.at? there = none) (hwrites : WritesOnly room disk new)
    (hplace : new.canonical path = .ok place)
    (hp : p ∈ path :: (Path.ofString path).outer.map Path.render)
    (haround : new.canonical p = .ok there) :
    ∃ names : Place, (Route.ofString path).steps = (Route.ofString p).steps ++ names.map .name ∧
      place = there ++ names := by
  have hwithin : ∀ deeper : Place, disk.at? (there ++ deeper) = none := fun deeper =>
    hsound.at?_within_eq_none hnone (Place.isWithin_append _ deeper)
  obtain ⟨_, _, hleads⟩ := exists_leads_of_canonical hplace
  obtain ⟨_, _, hfront⟩ := exists_leads_of_canonical haround
  obtain ⟨⟨more, hmore⟩, habsolute⟩ := route_around hp
  have hstart : ∀ q, (Route.ofString q).isAbsolute = (Route.ofString path).isAbsolute →
      new.start q = disk.start path := by
    intro q hq
    rw [start, start, hq, hwrites.directory_eq]
  rw [hstart path rfl, ← hmore] at hleads
  rw [hstart p habsolute] at hfront
  by_cases hempty : more = []
  · rw [hempty, List.append_nil] at hleads hmore
    exact ⟨[], by simp [hmore], by simpa using hfront.place_unique hleads⟩
  · have hname : ∃ s, .name s ∈ (Route.ofString p).steps := by
      by_cases hsome : ∃ s, .name s ∈ (Route.ofString p).steps
      · exact hsome
      · -- Steps up would have led to what was there before.
        have hbefore := holds_of_no_name hsound hholds (fun s hs => hsome ⟨s, hs⟩) hfront
        rw [Holds, hnone] at hbefore
        exact absurd hbefore (by simp)
    -- A step up would be taken from what was there before. So the path goes on by names only, and further down with
    -- every one of them.
    obtain ⟨names, rfl⟩ := exists_names_of_no_up fun hup => by
      obtain ⟨location, hbefore, hdir⟩ := hclimb.exists_leads hsound hholds hmore.symm hname hup
      obtain ⟨entry, hat, -⟩ := holds_iff.mp hdir
      obtain ⟨_, -, hgrown⟩ := hbefore.grow (hbefore.entry_eq.trans hat) hwrites.grown.kept
      obtain rfl := hfront.place_unique hgrown
      cases hat.symm.trans hnone
    obtain ⟨_, _, hrest⟩ := hfront.rest (by simp) hempty hleads
    have hend := hrest.place_of_names names fun deeper _ _ target hlink => by
      have hbefore := hwrites.link_of_link hlink
      rw [hwithin] at hbefore
      exact absurd hbefore (by simp)
    exact ⟨names, hmore.symm, hend⟩

/-- What a path around leads to lies around what the path itself leads to, if nothing was there before. -/
theorem isWithin_of_around {room : Place → Entry → Prop} {new : Disk} {there : Place} {p : String}
    (hsound : disk.Sound) (hclimb : disk.CanClimb path) (hholds : disk.Holds (disk.start path))
    (hnone : disk.at? there = none) (hwrites : WritesOnly room disk new)
    (hplace : new.canonical path = .ok place)
    (hp : p ∈ path :: (Path.ofString path).outer.map Path.render)
    (haround : new.canonical p = .ok there) : place.isWithin there = true := by
  obtain ⟨names, -, rfl⟩ := exists_names_of_around hsound hclimb hholds hnone hwrites hplace hp haround
  exact Place.isWithin_append there names

/-- **A path that leads nowhere is vacant**, if it can climb. -/
theorem isVacant_of_missing (hsound : disk.Sound) (hmissing : disk.has path = false)
    (hclimb : disk.CanClimb path) : disk.IsVacant path := by
  have hfree := isFree_of_missing hsound hmissing hclimb
  refine ⟨hfree, fun place hplace => List.eq_nil_iff_forall_not_mem.mpr ?_⟩
  rintro ⟨names, entry⟩ hmem
  obtain ⟨hnew, hwrites⟩ := hsound.makeDirectories path
  obtain ⟨hne, hat⟩ := hnew.mem_inside.mp hmem
  have hnone := hfree place hplace
  rcases hwrites.changed (place ++ names) with heq | ⟨_, _, _, _, p, hp, hinner⟩
  · rw [hat, hsound.at?_within_eq_none hnone (Place.isWithin_append _ names)] at heq
    exact absurd heq (by simp)
  · have hholds := holds_start_of_missing hmissing hplace
    have hwithin := isWithin_of_around hsound hclimb hholds
      (hsound.at?_within_eq_none hnone (Place.isWithin_append _ names)) hwrites hplace hp hinner
    have hlength := (Place.isWithin_iff.mp hwithin).length_le
    rw [List.length_append] at hlength
    exact hne (List.length_eq_zero_iff.mp (by omega))

end Stencil.Files.Disk
