import Stencil.Proofs.Files.Sound

/-!
# Where paths lead

How a path is followed is said here a second time, as a relation with one rule for each thing that can
be met on the way (`Leads`). The two agree wherever a path leads somewhere (`follow_eq_ok`), and what
is to be known about following is proved on the rules: the front of a path can be followed first
(`Leads.rest`), a path that leads to something keeps leading there while the tree only grows
(`Leads.grow`), and it leads to nothing any more once what it led to is gone (`Leads.gone`).

Faults do not appear in the relation. That a path leads nowhere never needs a reason.
-/

namespace Stencil.Files

/-- Whether two entries are the same, up to what is in a file. -/
def Entry.Alike : Entry → Entry → Prop
  | .file _ _, .file _ _ => True
  | entry, other => entry = other

theorem Entry.alike_refl (entry : Entry) : entry.Alike entry := by cases entry <;> simp [Alike]

theorem Entry.Alike.trans {a b c : Entry} (h : a.Alike b) (h' : b.Alike c) : a.Alike c := by
  cases a <;> cases b <;> cases c <;> simp_all [Alike]

theorem Entry.Alike.isDirectory_eq {a b : Entry} (h : a.Alike b) : a.isDirectory = b.isDirectory := by
  cases a <;> cases b <;> simp_all [Alike, isDirectory]

namespace Disk

/-! ## The rules -/

/-- The place from which what a link stands for is followed, given the directory that it is in. -/
def linkStart (place : Place) (target : String) : Place :=
  if (Route.ofString target).isAbsolute then [] else place

/-- Following steps from a place, with so many links at most, leads to a location. -/
inductive Leads (tree : Tree) (followLast : Bool) :
    Nat → Place → List Step → Bool → Location → Prop where
  | here {links : Nat} {place : Place} {ends : Bool} :
      Leads tree followLast links place [] ends ⟨place, tree.at? place, ends⟩
  | up {links : Nat} {place : Place} {rest : List Step} {ends : Bool} {location : Location} :
      Leads tree followLast links place.dropLast rest ends location →
      Leads tree followLast links place (.up :: rest) ends location
  | missing {links : Nat} {place : Place} {s : String} {ends : Bool} :
      s.utf8ByteSize ≤ maxNameSize → tree.at? (place ++ [s]) = none →
      Leads tree followLast links place [.name s] ends ⟨place ++ [s], none, ends⟩
  | file {links : Nat} {place : Place} {s : String} {content : ByteArray} {executable : Bool} :
      s.utf8ByteSize ≤ maxNameSize → tree.at? (place ++ [s]) = some (.file content executable) →
      Leads tree followLast links place [.name s] false
        ⟨place ++ [s], some (.file content executable), false⟩
  | stop {links : Nat} {place : Place} {s target : String} :
      s.utf8ByteSize ≤ maxNameSize → followLast = false →
        tree.at? (place ++ [s]) = some (.link target) →
      Leads tree followLast links place [.name s] false ⟨place ++ [s], some (.link target), false⟩
  | link {links : Nat} {place : Place} {s target : String} {rest : List Step} {ends : Bool}
      {location : Location} :
      s.utf8ByteSize ≤ maxNameSize → tree.at? (place ++ [s]) = some (.link target) →
      (followLast = true ∨ ends = true ∨ rest ≠ []) →
      Leads tree followLast links (linkStart place target) ((Route.ofString target).steps ++ rest)
        (ends || rest.isEmpty && (Route.ofString target).endsInDirectory) location →
      Leads tree followLast (links + 1) place (.name s :: rest) ends location
  | inner {links : Nat} {place : Place} {s : String} {rest : List Step} {ends : Bool} {entry : Entry}
      {location : Location} :
      s.utf8ByteSize ≤ maxNameSize → tree.at? (place ++ [s]) = some entry → entry.isDirectory = true →
      Leads tree followLast links (place ++ [s]) rest ends location →
      Leads tree followLast links place (.name s :: rest) ends location

/-! ## The rules are how a path is followed -/

/-- Whoever goes on behind a link, with so many links left. -/
def entering (tree : Tree) (followLast : Bool) : Nat → Place → List Step → Bool →
    Except Fault Location
  | 0 => fun _ _ _ => .error .tooManyLinks
  | links + 1 => follow tree followLast links

theorem follow_eq (tree : Tree) (followLast : Bool) (links : Nat) :
    follow tree followLast links = stepThrough tree followLast (entering tree followLast links) := by
  cases links <;> rfl

variable {tree tree' : Tree} {followLast ends : Bool} {links : Nat} {place : Place}
  {steps : List Step} {location : Location}

theorem leads_of_stepThrough
    (ih : ∀ place steps ends location, entering tree followLast links place steps ends =
      .ok location →
      ∃ fewer, links = fewer + 1 ∧ Leads tree followLast fewer place steps ends location)
    (h : stepThrough tree followLast (entering tree followLast links) place steps ends =
      .ok location) :
    Leads tree followLast links place steps ends location := by
  induction steps generalizing place with
  | nil =>
      rw [stepThrough, Except.ok.injEq] at h
      exact h ▸ Leads.here
  | cons step rest ihsteps =>
      cases step with
      | up => exact Leads.up (ihsteps h)
      | name s =>
          rw [stepThrough] at h
          split at h
          · exact absurd h (by simp)
          · rename_i hsize
            have hle : s.utf8ByteSize ≤ maxNameSize := Nat.not_lt.mp hsize
            split at h
            · rename_i hat
              split at h
              · rename_i hlast
                obtain rfl := List.isEmpty_iff.mp hlast
                rw [Except.ok.injEq] at h
                exact h ▸ Leads.missing hle hat
              · exact absurd h (by simp)
            · rename_i hat
              split at h
              · rename_i hlast
                obtain ⟨hrest, hends⟩ : rest = [] ∧ ends = false := by simpa using hlast
                subst hrest hends
                rw [Except.ok.injEq] at h
                exact h ▸ Leads.file hle hat
              · exact absurd h (by simp)
            · rename_i target hat
              split at h
              · rename_i hlast
                obtain ⟨⟨hrest, hfollow⟩, hends⟩ : (rest = [] ∧ followLast = false) ∧
                    ends = false := by
                  simpa using hlast
                subst hrest hends
                rw [Except.ok.injEq] at h
                exact h ▸ Leads.stop hle hfollow hat
              · rename_i hgo
                obtain ⟨fewer, rfl, hleads⟩ := ih _ _ _ _ h
                refine Leads.link hle hat ?_ hleads
                by_cases hrest : rest = []
                · cases followLast <;> cases ends <;> simp_all
                · exact Or.inr (Or.inr hrest)
            · rename_i entry hfile hlink hat
              refine Leads.inner hle hat ?_ (ihsteps h)
              cases entry with
              | file content executable => exact (hfile content executable rfl).elim
              | link target => exact (hlink target rfl).elim
              | directory | history => rfl

theorem Leads.stepThrough_eq (h : Leads tree followLast links place steps ends location)
    (ih : ∀ fewer, links = fewer + 1 → ∀ place steps ends location,
      Leads tree followLast fewer place steps ends location →
        follow tree followLast fewer place steps ends = .ok location) :
    stepThrough tree followLast (entering tree followLast links) place steps ends = .ok location := by
  induction h with
  | here => rfl
  | up _ ihup => exact ihup ih
  | missing hle hat => simp [stepThrough, Nat.not_lt.mpr hle, hat]
  | file hle hat => simp [stepThrough, Nat.not_lt.mpr hle, hat]
  | stop hle hfollow hat => simp [stepThrough, Nat.not_lt.mpr hle, hat, hfollow]
  | @link links place s target rest ends location hle hat hgo hleads _ =>
      have hnext := ih links rfl _ _ _ _ hleads
      have hcond : (rest.isEmpty && !followLast && !ends) = false := by
        rcases hgo with h | h | h <;> simp [h]
      simp only [stepThrough, Nat.not_lt.mpr hle, hat, hcond]
      exact hnext
  | @inner links place s rest ends entry location hle hat hdir _ ihinner =>
      have hnext := ihinner ih
      cases entry with
      | file | link => exact absurd hdir (by simp [Entry.isDirectory])
      | directory | history => simpa [stepThrough, Nat.not_lt.mpr hle, hat] using hnext

/-- **A path leads where following it ends.** -/
theorem follow_eq_ok :
    follow tree followLast links place steps ends = .ok location ↔
      Leads tree followLast links place steps ends location := by
  induction links generalizing place steps ends location with
  | zero =>
      rw [follow_eq]
      refine ⟨leads_of_stepThrough fun _ _ _ _ h => absurd h (by simp [entering]), fun h => ?_⟩
      exact h.stepThrough_eq fun fewer hfewer => absurd hfewer (by simp)
  | succ links ih =>
      rw [follow_eq]
      refine ⟨leads_of_stepThrough fun _ _ _ _ h => ⟨links, rfl, ih.mp h⟩, fun h => ?_⟩
      refine h.stepThrough_eq fun fewer hfewer => ?_
      obtain rfl := Nat.succ.inj hfewer
      exact fun _ _ _ _ h => ih.mpr h

namespace Leads

theorem entry_eq (h : Leads tree followLast links place steps ends location) :
    location.entry? = tree.at? location.place := by
  induction h with
  | here => rfl
  | missing _ hat | file _ hat | stop _ _ hat => exact hat.symm
  | up _ ih | link _ _ _ _ ih | inner _ _ _ _ ih => exact ih

theorem mono (h : Leads tree followLast links place steps ends location) {more : Nat}
    (hle : links ≤ more) : Leads tree followLast more place steps ends location := by
  induction h generalizing more with
  | here => exact here
  | up _ ih => exact up (ih hle)
  | missing hsize hat => exact missing hsize hat
  | file hsize hat => exact file hsize hat
  | stop hsize hfollow hat => exact stop hsize hfollow hat
  | link hsize hat hgo _ ih =>
      obtain ⟨fewer, rfl⟩ : ∃ fewer, more = fewer + 1 := ⟨more - 1, by omega⟩
      exact link hsize hat hgo (ih (Nat.le_of_succ_le_succ hle))
  | inner hsize hat hdir _ ih => exact inner hsize hat hdir (ih hle)

/-! What is where a name leads decides which rule a path with that name in front goes by. -/

theorem missing_inv {s : String} {rest : List Step} (hat : tree.at? (place ++ [s]) = none)
    (h : Leads tree followLast links place (.name s :: rest) ends location) :
    location.entry? = none := by
  cases h with
  | missing => rfl
  | file _ hat' | stop _ _ hat' | link _ hat' | inner _ hat' => simp [hat] at hat'

theorem file_inv {s : String} {rest : List Step} {content : ByteArray} {executable : Bool}
    (hat : tree.at? (place ++ [s]) = some (.file content executable))
    (h : Leads tree followLast links place (.name s :: rest) ends location) :
    rest = [] ∧ location.place = place ++ [s] := by
  cases h with
  | missing | file | stop => exact ⟨rfl, rfl⟩
  | link _ hat' => simp [hat] at hat'
  | inner _ hat' hdir =>
      rw [hat, Option.some.injEq] at hat'
      exact absurd hdir (by simp [← hat', Entry.isDirectory])

theorem link_inv {s target : String} {rest : List Step}
    (hat : tree.at? (place ++ [s]) = some (.link target)) (hgo : followLast = true ∨ rest ≠ [])
    (h : Leads tree followLast links place (.name s :: rest) ends location) :
    ∃ fewer, links = fewer + 1 ∧
      Leads tree followLast fewer (linkStart place target) ((Route.ofString target).steps ++ rest)
        (ends || rest.isEmpty && (Route.ofString target).endsInDirectory) location := by
  cases h with
  | missing _ hat' | file _ hat' => simp [hat] at hat'
  | stop _ hfollow => simp [hfollow] at hgo
  | link _ hat' _ h =>
      rw [hat, Option.some.injEq, Entry.link.injEq] at hat'
      subst hat'
      exact ⟨_, rfl, h⟩
  | inner _ hat' hdir =>
      rw [hat, Option.some.injEq] at hat'
      exact absurd hdir (by simp [← hat', Entry.isDirectory])

theorem inner_inv {s : String} {rest : List Step} {entry : Entry}
    (hat : tree.at? (place ++ [s]) = some entry) (hdir : entry.isDirectory = true)
    (h : Leads tree followLast links place (.name s :: rest) ends location) :
    Leads tree followLast links (place ++ [s]) rest ends location := by
  cases h with
  | missing _ hat' => simp [hat] at hat'
  | file _ hat' | stop _ _ hat' | link _ hat' =>
      rw [hat, Option.some.injEq] at hat'
      exact absurd hdir (by simp [hat', Entry.isDirectory])
  | inner _ _ _ h => exact h

/-- Where steps lead does not depend on what may be at the end, if links are
followed there as well. -/
theorem place_unique (h : Leads tree true links place steps ends location) {links' : Nat}
    {ends' : Bool} {location' : Location}
    (h' : Leads tree true links' place steps ends' location') :
    location'.place = location.place := by
  induction h generalizing links' ends' with
  | here =>
      cases h' with
      | here => rfl
  | up _ ih =>
      cases h' with
      | up h' => exact ih h'
  | missing _ hat =>
      cases h' with
      | missing | file | stop => rfl
      | link _ hat' | inner _ hat' => simp [hat] at hat'
  | file _ hat => exact (h'.file_inv hat).2
  | stop _ hfollow => exact absurd hfollow (by simp)
  | link _ hat _ _ ih =>
      obtain ⟨_, _, hnext⟩ := h'.link_inv hat (Or.inl rfl)
      exact ih hnext
  | inner _ hat hdir _ ih => exact ih (h'.inner_inv hat hdir)

/-- **The front of a path can be followed first.** What it leads to is where the rest starts. -/
theorem rest {front rest : List Step} {links' : Nat} {ends' : Bool} {location' : Location}
    (hfront : Leads tree true links place front ends location) (hsome : location.entry? ≠ none)
    (hrest : rest ≠ []) (h : Leads tree followLast links' place (front ++ rest) ends' location') :
    ∃ fewer ≤ links', Leads tree followLast fewer location.place rest ends' location' := by
  induction hfront generalizing links' ends' with
  | here => exact ⟨links', Nat.le_refl _, h⟩
  | up _ ih =>
      cases h with
      | up h => exact ih hsome h
  | missing => exact absurd rfl hsome
  | file _ hat => exact absurd (h.file_inv hat).1 hrest
  | stop _ hfollow => exact absurd hfollow (by simp)
  | @link links place s target front ends location _ hat _ _ ih =>
      -- What is behind a link is followed before the rest, so the rest alone decides how it may end.
      have hmore : (front ++ rest).isEmpty = false := by simp [hrest]
      rw [List.cons_append] at h
      obtain ⟨fewer', rfl, hnext⟩ := h.link_inv hat (Or.inr (by simp [hrest]))
      rw [← List.append_assoc, hmore, Bool.false_and, Bool.or_false] at hnext
      obtain ⟨fewer, hle, hlast⟩ := ih hsome hnext
      exact ⟨fewer, Nat.le_succ_of_le hle, hlast⟩
  | inner _ hat hdir _ ih => exact ih hsome (h.inner_inv hat hdir)

/-- Steps without further links can be put behind the front of a path. -/
theorem append {front rest : List Step} {ends' : Bool} {location' : Location}
    (hfront : Leads tree true links place front ends location) {entry : Entry}
    (hsome : location.entry? = some entry) (hdir : entry.isDirectory = true) (hrest : rest ≠ [])
    (h : Leads tree followLast 0 location.place rest ends' location') :
    Leads tree followLast links place (front ++ rest) ends' location' := by
  induction hfront with
  | here => exact h.mono (Nat.zero_le _)
  | up _ ih => exact up (ih hsome h)
  | missing => exact absurd hsome (by simp)
  | file =>
      rw [Option.some.injEq] at hsome
      exact absurd (hsome ▸ hdir) (by simp [Entry.isDirectory])
  | stop _ hfollow => exact absurd hfollow (by simp)
  | @link links place s target front ends location hsize hat _ _ ih =>
      have hmore : (front ++ rest).isEmpty = false := by simp [hrest]
      rw [List.cons_append]
      refine link hsize hat (Or.inr (Or.inr (by simp [hrest]))) ?_
      rw [hmore, Bool.false_and, Bool.or_false, ← List.append_assoc]
      exact ih hsome h
  | inner hsize hat hdir' _ ih => exact inner hsize hat hdir' (ih hsome h)

/-- Names that are no links lead to themselves. -/
theorem place_of_names (names : Place)
    (h : Leads tree followLast links place (names.map .name) ends location)
    (hlinks : ∀ front, front ≠ [] → front <+: names → ∀ target,
      tree.at? (place ++ front) ≠ some (.link target)) :
    location.place = place ++ names := by
  induction names generalizing place links ends with
  | nil =>
      cases h with
      | here => simp
  | cons s names ih =>
      rw [List.map_cons] at h
      generalize hall : names.map Step.name = all at h
      have hs : ∀ target, tree.at? (place ++ [s]) ≠ some (.link target) :=
        hlinks [s] (by simp) (by simp)
      cases h with
      | missing | file | stop => simp_all
      | link _ hat => exact absurd hat (hs _)
      | inner _ _ _ h =>
          rw [← hall] at h
          have hnext := ih h fun front hne hprefix target => by
            simpa using hlinks (s :: front) (by simp) (by simpa using hprefix) target
          simpa using hnext

/-- One name leads to that name, if a link there is not followed. -/
theorem place_of_name {s : String} (h : Leads tree false links place [.name s] false location) :
    location.place = place ++ [s] := by
  cases h with
  | missing | file | stop => rfl
  | link _ _ hgo => exact absurd hgo (by simp)
  | inner _ _ _ hhere =>
      cases hhere with
      | here => rfl

/-- Whatever may be at the end, a directory may. -/
theorem any_end (h : Leads tree true links place steps ends location) {entry : Entry}
    (hsome : location.entry? = some entry) (hdir : entry.isDirectory = true) (ends' : Bool) :
    ∃ ends'', Leads tree true links place steps ends' ⟨location.place, some entry, ends''⟩ := by
  induction h generalizing ends' with
  | here => exact ⟨ends', hsome ▸ here⟩
  | up _ ih =>
      obtain ⟨ends'', h⟩ := ih hsome ends'
      exact ⟨ends'', up h⟩
  | missing => exact absurd hsome (by simp)
  | file =>
      rw [Option.some.injEq] at hsome
      exact absurd (hsome ▸ hdir) (by simp [Entry.isDirectory])
  | stop _ hfollow => exact absurd hfollow (by simp)
  | @link links place s target rest ends location hsize hat _ _ ih =>
      obtain ⟨ends'', h⟩ :=
        ih hsome (ends' || rest.isEmpty && (Route.ofString target).endsInDirectory)
      exact ⟨ends'', link hsize hat (Or.inl rfl) h⟩
  | inner hsize hat hdir' _ ih =>
      obtain ⟨ends'', h⟩ := ih hsome ends'
      exact ⟨ends'', inner hsize hat hdir' h⟩

/-- What follows links at the end as well gets at least to an end. -/
theorem exists_stop (h : Leads tree true links place steps ends location)
    (hsome : location.entry? ≠ none) :
    ∃ location', Leads tree false links place steps ends location' ∧ location'.entry? ≠ none := by
  induction h with
  | here => exact ⟨_, here, hsome⟩
  | up _ ih =>
      obtain ⟨location', h, hsome'⟩ := ih hsome
      exact ⟨location', up h, hsome'⟩
  | missing => exact absurd rfl hsome
  | file hsize hat => exact ⟨_, file hsize hat, hsome⟩
  | stop _ hfollow => exact absurd hfollow (by simp)
  | @link links place s target rest ends location hsize hat _ _ ih =>
      by_cases hgo : ends = true ∨ rest ≠ []
      · obtain ⟨location', h, hsome'⟩ := ih hsome
        exact ⟨location', link hsize hat (Or.inr hgo) h, hsome'⟩
      · obtain ⟨hends, hrest⟩ : ends = false ∧ rest = [] := by simpa using hgo
        subst hends hrest
        exact ⟨_, stop hsize rfl hat, by simp⟩
  | inner hsize hat hdir _ ih =>
      obtain ⟨location', h, hsome'⟩ := ih hsome
      exact ⟨location', inner hsize hat hdir h, hsome'⟩

/-- Where a path leads without its last link followed, it leads anyway if there is no link. -/
theorem follow_last (h : Leads tree false links place steps ends location)
    (hlink : ∀ target, location.entry? ≠ some (.link target)) : Leads tree true links place steps ends location := by
  induction h with
  | here => exact here
  | up _ ih => exact up (ih hlink)
  | missing hsize hat => exact missing hsize hat
  | file hsize hat => exact file hsize hat
  | stop => exact absurd rfl (hlink _)
  | link hsize hat _ _ ih => exact link hsize hat (Or.inl rfl) (ih hlink)
  | inner hsize hat hdir _ ih => exact inner hsize hat hdir (ih hlink)

/-! ## Other trees -/

/-- A path leads to the same place in a tree that has grown. -/
theorem grow (h : Leads tree followLast links place steps ends location) {entry : Entry}
    (hsome : location.entry? = some entry)
    (hgrow : ∀ place entry, tree.at? place = some entry → ∃ grown, tree'.at? place = some grown ∧
      entry.Alike grown) :
    ∃ grown, entry.Alike grown ∧
      Leads tree' followLast links place steps ends { location with entry? := some grown } := by
  induction h with
  | @here links place ends =>
      obtain ⟨grown, hat, halike⟩ := hgrow _ _ hsome
      exact ⟨grown, halike, hat ▸ here⟩
  | up _ ih =>
      obtain ⟨grown, halike, h⟩ := ih hsome
      exact ⟨grown, halike, up h⟩
  | missing => exact absurd hsome (by simp)
  | file hsize hat =>
      obtain ⟨grown, hat', halike⟩ := hgrow _ _ hat
      rw [Option.some.injEq] at hsome
      subst hsome
      cases grown with
      | file => exact ⟨_, halike, file hsize hat'⟩
      | directory | link | history => simp [Entry.Alike] at halike
  | stop hsize hfollow hat =>
      obtain ⟨grown, hat', halike⟩ := hgrow _ _ hat
      rw [Option.some.injEq] at hsome
      subst hsome
      cases grown with
      | link =>
          obtain rfl : _ = _ := by simpa [Entry.Alike] using halike
          exact ⟨_, halike, stop hsize hfollow hat'⟩
      | file | directory | history => simp [Entry.Alike] at halike
  | link hsize hat hgo _ ih =>
      obtain ⟨grown, halike, h⟩ := ih hsome
      obtain ⟨next, hat', hlink⟩ := hgrow _ _ hat
      simp only [Entry.Alike] at hlink
      exact ⟨grown, halike, link hsize (hlink ▸ hat') hgo h⟩
  | inner hsize hat hdir _ ih =>
      obtain ⟨grown, halike, h⟩ := ih hsome
      obtain ⟨next, hat', hnext⟩ := hgrow _ _ hat
      exact ⟨grown, halike, inner hsize hat' (hnext.isDirectory_eq ▸ hdir) h⟩

/-- What was missing at the end of a path is found by it once it is there. -/
theorem put_missing (h : Leads tree followLast links place steps ends location) {entry : Entry}
    {ends' : Bool}
    (hnone : location.entry? = none)
    (hentry : entry.isDirectory = true ∨
      entry.isFile = true ∧ location.endsInDirectory = false ∧ ends' = ends) :
    ∃ ends'', Leads (tree.put location.place entry) true links place steps ends'
      ⟨location.place, some entry, ends''⟩ := by
  have hother : ∀ {other found}, tree.at? other = some found →
      (tree.put location.place entry).at? other = some found := by
    intro other found hfound
    have hne : other ≠ location.place := by
      rintro rfl
      rw [← h.entry_eq, hnone] at hfound
      exact absurd hfound (by simp)
    rw [Tree.at?_put_of_ne _ _ hne, hfound]
  induction h generalizing ends' with
  | @here links place ends =>
      have hne : place ≠ [] := by
        rintro rfl
        exact absurd hnone (by simp)
      have hat := Tree.at?_put_self tree entry hne
      exact ⟨ends', hat ▸ here⟩
  | up _ ih =>
      obtain ⟨ends'', h⟩ := ih hnone hentry hother
      exact ⟨ends'', up h⟩
  | @missing links place s ends hsize hat =>
      have hne : place ++ [s] ≠ [] := by simp
      have hat := Tree.at?_put_self tree entry hne
      rcases hentry with hdir | ⟨hfile, hends, rfl⟩
      · exact ⟨ends', inner hsize hat hdir (hat ▸ here)⟩
      · obtain rfl : ends' = false := hends
        cases entry with
        | file => exact ⟨false, file hsize hat⟩
        | directory | link | history => exact absurd hfile (by simp [Entry.isFile])
  | file | stop => exact absurd hnone (by simp)
  | @link links place s target rest ends location hsize hat _ _ ih =>
      have hentry' : entry.isDirectory = true ∨ entry.isFile = true ∧
        location.endsInDirectory = false ∧
          (ends' || rest.isEmpty && (Route.ofString target).endsInDirectory) =
            (ends || rest.isEmpty && (Route.ofString target).endsInDirectory) :=
        hentry.imp_right fun ⟨hfile, hends, heq⟩ => ⟨hfile, hends, heq ▸ rfl⟩
      obtain ⟨ends'', h⟩ := ih hnone hentry' hother
      exact ⟨ends'', link hsize (hother hat) (Or.inl rfl) h⟩
  | inner hsize hat hdir _ ih =>
      obtain ⟨ends'', h⟩ := ih hnone hentry hother
      exact ⟨ends'', inner hsize (hother hat) hdir h⟩

/-- **A path leads to nothing once what it led to is gone.** -/
theorem gone (h : Leads tree followLast links place steps ends location)
    (hsome : location.entry? ≠ none)
    (hgone : tree'.at? location.place = none)
    (hshrink : ∀ place, tree'.at? place = tree.at? place ∨ tree'.at? place = none)
    {links' : Nat} {ends' : Bool} {location' : Location}
    (h' : Leads tree' true links' place steps ends' location') : location'.entry? = none := by
  induction h generalizing links' ends' with
  | here =>
      cases h' with
      | here => exact hgone
  | up _ ih =>
      cases h' with
      | up h' => exact ih hsome hgone h'
  | missing => exact absurd rfl hsome
  | file | stop => exact h'.missing_inv hgone
  -- Behind a name there is what was there before, or nothing is there any more.
  | @link links place s target rest ends location _ hat _ _ ih =>
      rcases hshrink (place ++ [s]) with heq | hnone
      · obtain ⟨_, _, hnext⟩ := h'.link_inv (heq.trans hat) (Or.inl rfl)
        exact ih hsome hgone hnext
      · exact h'.missing_inv hnone
  | @inner links place s rest ends entry location _ hat hdir _ ih =>
      rcases hshrink (place ++ [s]) with heq | hnone
      · exact ih hsome hgone (h'.inner_inv (heq.trans hat) hdir)
      · exact h'.missing_inv hnone

/-- A name that is missing is the end of a path, or a fault. -/
theorem follow_missing {s : String} {rest : List Step} (hsize : s.utf8ByteSize ≤ maxNameSize)
    (hnone : tree.at? (place ++ [s]) = none) :
    follow tree followLast links place (.name s :: rest) ends = .error .notFound ∨
      ∃ location, follow tree followLast links place (.name s :: rest) ends = .ok location ∧
        location.entry? = none := by
  rw [follow_eq]
  cases rest with
  | nil => exact Or.inr ⟨⟨place ++ [s], none, ends⟩, by simp [stepThrough, Nat.not_lt.mpr hsize, hnone], rfl⟩
  | cons => exact Or.inl (by simp [stepThrough, Nat.not_lt.mpr hsize, hnone])

/-- **In what is left of a tree** a path leads to where it led before, or to nothing, or something is missing on the
way. No other fault can come up. -/
theorem follow_left (h : Leads tree followLast links place steps ends location)
    (hshrink : ∀ place, tree'.at? place = tree.at? place ∨ tree'.at? place = none) :
    follow tree' followLast links place steps ends = .error .notFound ∨
      ∃ location', follow tree' followLast links place steps ends = .ok location' ∧
        (location' = location ∨ location'.entry? = none) := by
  have hmissing : ∀ {links place s rest ends location}, s.utf8ByteSize ≤ maxNameSize →
      tree'.at? (place ++ [s]) = none →
      follow tree' followLast links place (.name s :: rest) ends = .error .notFound ∨
        ∃ location', follow tree' followLast links place (.name s :: rest) ends = .ok location' ∧
          (location' = location ∨ location'.entry? = none) := fun hsize hnone =>
    (follow_missing hsize hnone).imp_right fun ⟨location', heq, hentry⟩ => ⟨location', heq, Or.inr hentry⟩
  induction h with
  | @here links place ends =>
      refine Or.inr ⟨_, follow_eq_ok.mpr here, ?_⟩
      rcases hshrink place with heq | hnone
      · exact Or.inl (by rw [heq])
      · exact Or.inr hnone
  | up _ ih =>
      rw [follow_eq] at ih ⊢
      exact ih
  | missing hsize hat => exact hmissing hsize ((hshrink _).elim (·.trans hat) id)
  | @file links place s content executable hsize hat =>
      rcases hshrink (place ++ [s]) with heq | hnone
      · exact Or.inr ⟨_, follow_eq_ok.mpr (file hsize (heq.trans hat)), Or.inl rfl⟩
      · exact hmissing hsize hnone
  | @stop links place s target hsize hfollow hat =>
      rcases hshrink (place ++ [s]) with heq | hnone
      · exact Or.inr ⟨_, follow_eq_ok.mpr (stop hsize hfollow (heq.trans hat)), Or.inl rfl⟩
      · exact hmissing hsize hnone
  | @link links place s target rest ends location hsize hat hgo _ ih =>
      rcases hshrink (place ++ [s]) with heq | hnone
      · have hcond : (rest.isEmpty && !followLast && !ends) = false := by
          rcases hgo with h | h | h <;> simp [h]
        rw [follow_eq]
        simp only [stepThrough, Nat.not_lt.mpr hsize, if_false, heq, hat, hcond, Bool.false_eq_true]
        exact ih
      · exact hmissing hsize hnone
  | @inner links place s rest ends entry location hsize hat hdir _ ih =>
      rcases hshrink (place ++ [s]) with heq | hnone
      · rw [follow_eq] at ih ⊢
        cases entry with
        | file | link => exact absurd hdir (by simp [Entry.isDirectory])
        | directory | history => simpa [stepThrough, Nat.not_lt.mpr hsize, heq, hat] using ih
      · exact hmissing hsize hnone

end Leads

end Disk

end Stencil.Files
