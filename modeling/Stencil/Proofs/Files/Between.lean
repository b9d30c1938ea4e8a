import Stencil.Proofs.Files.Finding

/-!
# Between two disks

A disk grows from one state to a later one, and something is read from it in between. What was found at
first is found at any time, and what cannot be found for another reason than that it is missing never can be
(`find_error_grow`). Only what is missing may turn up, and what has turned up stays. So a path that finds
the same at first and in the end has found the same all the time (`find_between`).
-/

namespace Stencil.Files.Disk

/-! ## What cannot be found -/

/-- Whoever goes on behind a link may have a reason to fail that stays one. -/
theorem stepThrough_error_grow {tree tree' : Tree} {followLast : Bool}
    {enter enter' : Place → List Step → Bool → Except Fault Location} {place : Place} {steps : List Step}
    {ends : Bool} {fault : Fault}
    (hkept : ∀ place entry, tree.at? place = some entry →
      ∃ grown, tree'.at? place = some grown ∧ entry.Alike grown)
    (henter : ∀ place steps ends, enter place steps ends = .error fault →
      enter' place steps ends = .error fault)
    (hfault : fault ≠ .notFound) (h : stepThrough tree followLast enter place steps ends = .error fault) :
    stepThrough tree' followLast enter' place steps ends = .error fault := by
  induction steps generalizing place with
  | nil => cases h
  | cons step rest ih =>
      cases step with
      | up => exact ih h
      | name s =>
          rw [stepThrough] at h ⊢
          split at h
          · rename_i hsize
            rw [if_pos hsize, h]
          · rename_i hsize
            rw [if_neg hsize]
            split at h
            · -- Something may be here later on.
              split at h
              · cases h
              · exact absurd (Except.error.inj h).symm hfault
            · rename_i hat
              obtain ⟨grown, hat', halike⟩ := hkept _ _ hat
              cases grown with
              | directory | link | history => exact absurd halike (by simp [Entry.Alike])
              | file =>
                  split at h
                  · cases h
                  · rename_i hlast
                    rw [hat']
                    exact (if_neg hlast).trans h
            · rename_i target hat
              obtain ⟨grown, hat', halike⟩ := hkept _ _ hat
              obtain rfl : .link target = grown := by simpa [Entry.Alike] using halike
              split at h
              · cases h
              · rename_i hgo
                rw [hat']
                exact (if_neg hgo).trans (henter _ _ _ h)
            · rename_i entry hfile hlink hat
              obtain ⟨grown, hat', halike⟩ := hkept _ _ hat
              cases entry with
              | file content executable => exact (hfile content executable rfl).elim
              | link target => exact (hlink target rfl).elim
              | directory | history =>
                  obtain rfl := (by simpa [Entry.Alike] using halike : _ = grown)
                  rw [hat']
                  exact ih h

theorem follow_error_grow {tree tree' : Tree} {followLast : Bool} {links : Nat} {place : Place}
    {steps : List Step} {ends : Bool} {fault : Fault}
    (hkept : ∀ place entry, tree.at? place = some entry →
      ∃ grown, tree'.at? place = some grown ∧ entry.Alike grown)
    (hfault : fault ≠ .notFound) (h : follow tree followLast links place steps ends = .error fault) :
    follow tree' followLast links place steps ends = .error fault := by
  induction links generalizing place steps ends with
  | zero => exact stepThrough_error_grow hkept (fun _ _ _ h => h) hfault h
  | succ links ih => exact stepThrough_error_grow hkept (fun _ _ _ h => ih h) hfault h

variable {old mid new : Disk} {followLast : Bool} {path : String} {fault : Fault}

/-- **A reason not to find something stays one**, unless it is that it is missing. -/
theorem find_error_grow (hgrown : Grown old new) (hfault : fault ≠ .notFound)
    (h : old.find followLast path = .error fault) : new.find followLast path = .error fault := by
  have hlocate : old.locate followLast path = .error fault := by
    unfold find at h
    split at h
    · rename_i hlocate
      exact Except.error.inj h ▸ hlocate
    · split at h
      · cases h
      · exact absurd (Except.error.inj h).symm hfault
  suffices h' : new.locate followLast path = .error fault by
    rw [find, h']
  unfold locate at hlocate ⊢
  simp only at hlocate ⊢
  split at hlocate
  · exact absurd (Except.error.inj hlocate).symm hfault
  · rename_i hempty
    rw [if_neg hempty]
    split at hlocate
    · rename_i hnull
      rw [if_pos hnull, hlocate]
    · rename_i hnull
      rw [if_neg hnull]
      split at hlocate
      · rename_i habsolute
        rw [if_pos habsolute]
        exact follow_error_grow hgrown.kept hfault hlocate
      · rename_i habsolute
        rw [if_neg habsolute]
        split at hlocate
        · rename_i hholds
          have hholds' : (new.at? new.directory).any Entry.isDirectory = true :=
            hgrown.directory_eq ▸ hgrown.holds hholds
          rw [if_pos hholds', hgrown.directory_eq]
          exact follow_error_grow hgrown.kept hfault hlocate
        · exact absurd (Except.error.inj hlocate).symm hfault

/-! ## What is found in between -/

/-- **A path that leads nowhere at first and nowhere in the end leads nowhere in between**, and for the same
reason as at first. -/
theorem find_error_between (hbefore : Grown old mid) (hafter : Grown mid new)
    (hold : old.find followLast path = .error fault)
    (hnew : fault = .notFound → new.find followLast path = .error .notFound) :
    mid.find followLast path = .error fault := by
  by_cases hfault : fault = .notFound
  · subst hfault
    have hend := hnew rfl
    cases hmid : mid.find followLast path with
    | ok found =>
        obtain ⟨grown, _, hfind⟩ := find_grow hafter hmid
        exact absurd (hfind.symm.trans hend) (by simp)
    | error reason =>
        by_cases hreason : reason = .notFound
        · rw [hreason]
        · exact absurd ((find_error_grow hafter hreason hmid).symm.trans hend) (by simp [hreason])
  · exact find_error_grow hbefore hfault hold

/-- What a path reads does not change while the file that it finds does not, if what is missing at first is
missing in the end. -/
theorem readText_between (hbefore : Grown old mid) (hafter : Grown mid new)
    (hmissing : old.readText path = .error .notFound → new.readText path = .error .notFound)
    (hkept : ∀ place, old.canonical path = .ok place → mid.at? place = old.at? place) :
    mid.readText path = old.readText path := by
  have hread : ∀ (disk : Disk) (fault : Fault), disk.find true path = .error fault →
      disk.readText path = .error fault := by
    intro disk fault h
    simp [readText, read, h]
  cases hold : old.find true path with
  | error fault =>
      rw [hread _ _ hold]
      refine hread _ _ (find_error_between hbefore hafter hold fun heq => ?_)
      have hend := hmissing (heq ▸ hread _ _ hold)
      cases hnew : new.find true path with
      | error reason => rw [Except.error.inj ((hread _ _ hnew).symm.trans hend)]
      | ok found =>
          obtain ⟨place, entry⟩ := found
          unfold readText read at hend
          rw [hnew] at hend
          cases entry with
          | directory | link | history => cases hend
          | file content executable =>
              dsimp only at hend
              split at hend <;> cases hend
  | ok found =>
      obtain ⟨place, entry⟩ := found
      obtain ⟨grown, _, hmid⟩ := find_grow hbefore hold
      have heq := hkept place (canonical_eq_ok.mpr ⟨entry, hold⟩)
      rw [find_at? hmid, find_at? hold, Option.some.injEq] at heq
      simp only [readText, read, hmid, hold, heq]

end Stencil.Files.Disk
