import Stencil.Proofs.Files.Around

/-!
# What a checkout does to a disk

A checkout changes a directory inside, and nothing around it. The repository's own directory is kept;
of the rest nothing is left, and what comes in its place is the snapshot. Nothing in a snapshot lies
inside of something else, so that one thing never takes the place of a directory that another one
needs. That is why the disk stays sound (`Sound.checkOut`).
-/

namespace Stencil.Files.Disk

variable {disk : Disk} {room names place : Place} {entry : Entry} {snapshot : Snapshot} {item : Item}

/-! ## Putting one thing -/

/-- The directories around some names, so many of them. -/
def putAround (room : Place) (disk : Disk) (names : Place) (n : Nat) : Disk :=
  (((List.range n).map names.take).filter (· ≠ [])).foldl
    (fun disk names => disk.put (room ++ names) .directory) disk

theorem putAround_succ (room : Place) (disk : Disk) (names : Place) (n : Nat) :
    putAround room disk names (n + 1) =
      if names.take n = [] then putAround room disk names n
      else (putAround room disk names n).put (room ++ names.take n) .directory := by
  unfold putAround
  rw [List.range_succ, List.map_append, List.filter_append, List.foldl_append]
  by_cases hempty : names.take n = [] <;> simp [hempty]

/-- What is known of a directory in which something was put, together with directories around it. -/
structure PutInside (room : Place) (old new : Disk) (around : Place → Prop) : Prop where
  sound : new.Sound
  same : SameAround room old new
  holds : ∀ names, new.Holds (room ++ names) → old.Holds (room ++ names) ∨ around names

theorem putAround_inside (hsound : disk.Sound) (hroom : disk.Holds room)
    (hnames : ∀ s ∈ names, IsStorable s) {n : Nat} (hn : n ≤ names.length) :
    PutInside room disk (putAround room disk names n) (fun p => ∃ k < n, p = names.take k) ∧
      ∀ k < n, (putAround room disk names n).Holds (room ++ names.take k) := by
  induction n with
  | zero => exact ⟨⟨hsound, .refl disk room, fun p h => Or.inl h⟩, fun k hk => absurd hk (by omega)⟩
  | succ n ih =>
      obtain ⟨hput, hheld⟩ := ih (by omega)
      rw [putAround_succ]
      split
      · rename_i hempty
        refine ⟨⟨hput.sound, hput.same, fun p h => ?_⟩, fun k hk => ?_⟩
        · refine (hput.holds p h).imp_right ?_
          rintro ⟨k, hk, hp⟩
          exact ⟨k, by omega, hp⟩
        · by_cases hlast : k = n
          · rw [hlast, hempty, List.append_nil]
            exact hput.same.holds hroom
          · exact hheld k (by omega)
      · rename_i hne
        -- The directory before this one is there already.
        obtain ⟨m, rfl⟩ : ∃ m, n = m + 1 := ⟨n - 1, by
          cases n with
          | zero => exact absurd rfl hne
          | succ m => simp⟩
        have hm : m < names.length := by omega
        have htake : names.take (m + 1) = names.take m ++ [names[m]] :=
          (List.take_append_getElem hm).symm
        have houter : (putAround room disk names (m + 1)).Holds (room ++ names.take m) :=
          hheld m (by omega)
        have hs : IsStorable names[m] := hnames _ (List.getElem_mem _)
        have hin : Place.isInside (room ++ names.take (m + 1)) room = true :=
          Place.isInside_append _ hne
        refine ⟨⟨?_, hput.same.trans (.put _ _ hin), fun p h => ?_⟩, fun k hk => ?_⟩
        · rw [htake, ← List.append_assoc]
          exact hput.sound.put houter hs trivial (Or.inl rfl)
        · by_cases hp : p = names.take (m + 1)
          · exact Or.inr ⟨m + 1, by omega, hp⟩
          · rw [Holds, at?_put_of_ne _ _ (by simpa using hp)] at h
            refine (hput.holds p h).imp_right ?_
            rintro ⟨k, hk, hp⟩
            exact ⟨k, by omega, hp⟩
        · by_cases hlast : k = m + 1
          · rw [hlast, Holds, at?_put_self _ _ (by simp [hne])]
            rfl
          · have hother : names.take k ≠ names.take (m + 1) := by
              intro heq
              have hlength := congrArg List.length heq
              rw [List.length_take, List.length_take] at hlength
              omega
            rw [Holds, at?_put_of_ne _ _ (by simpa using hother)]
            exact hheld k (by omega)

/-- **Something can be put inside of a directory**, with the directories around it, if no
directory is there. -/
theorem Sound.putItem (hsound : disk.Sound) (hroom : disk.Holds room) (hne : names ≠ [])
    (hnames : ∀ s ∈ names, IsStorable s) (hitem : item.entry.Sound)
    (hfree : ¬ disk.Holds (room ++ names)) :
    PutInside room disk (disk.putItem room names item) fun p => p <+: names := by
  obtain ⟨front, last, rfl⟩ := (List.eq_nil_or_concat names).resolve_left hne
  rw [List.concat_eq_append] at hne hnames hfree ⊢
  obtain ⟨hput, hheld⟩ := putAround_inside hsound hroom hnames (Nat.le_refl _)
  have hlength : (front ++ [last]).length = front.length + 1 := by simp
  have houter := hheld front.length (by omega)
  rw [List.take_left] at houter
  have hin : Place.isInside (room ++ (front ++ [last])) room = true :=
    Place.isInside_append _ hne
  have hnot : ¬ (putAround room disk (front ++ [last]) (front ++ [last]).length).Holds
      (room ++ (front ++ [last])) := by
    intro hholds
    rcases hput.holds _ hholds with hbefore | ⟨k, hk, heq⟩
    · exact hfree hbefore
    · have hlt := congrArg List.length heq
      rw [List.length_take] at hlt
      omega
  have hfile : item.entry.isDirectory = false := by cases item <;> rfl
  unfold Files.Disk.putItem
  refine ⟨?_, hput.same.trans (.put _ _ hin), fun p hholds => ?_⟩
  · rw [← List.append_assoc] at hnot ⊢
    exact hput.sound.put houter (hnames last (by simp)) hitem (Or.inr hnot)
  · by_cases hp : p = front ++ [last]
    · exact Or.inr (hp ▸ List.prefix_rfl)
    · rw [Holds, at?_put_of_ne _ _ (by simpa using hp)] at hholds
      refine (hput.holds p hholds).imp_right ?_
      rintro ⟨k, _, rfl⟩
      exact List.take_prefix k _

/-! ## Putting a snapshot -/

/-- Puts a snapshot inside of a directory, one thing after the other. -/
def putSnapshot (disk : Disk) (room : Place) (snapshot : Snapshot) : Disk :=
  snapshot.foldl (fun disk (names, item) => putItem room disk names item) disk

/-- **A snapshot can be put inside of a directory**, if nothing of it is where a directory is. -/
theorem Sound.putSnapshot (hsound : disk.Sound) (hroom : disk.Holds room) (hsnapshot : snapshot.Sound)
    (hfree : ∀ found ∈ snapshot, ¬ disk.Holds (room ++ found.1)) :
    (disk.putSnapshot room snapshot).Sound ∧
      SameAround room disk (disk.putSnapshot room snapshot) := by
  induction snapshot generalizing disk with
  | nil => exact ⟨hsound, .refl disk room⟩
  | cons found rest ih =>
      obtain ⟨hne, hnames, _, hitem⟩ := hsnapshot.kept found List.mem_cons_self
      have hentry : found.2.entry.Sound := by
        cases hfound : found.2 with
        | file => exact trivial
        | link target =>
            rw [hfound] at hitem
            exact hitem
      obtain ⟨hhead, hrest⟩ := List.pairwise_cons.mp hsnapshot.apart
      have hput := hsound.putItem hroom hne hnames hentry (hfree found List.mem_cons_self)
      have hfree' : ∀ other ∈ rest, ¬ (disk.putItem room found.1 found.2).Holds
          (room ++ other.1) := by
        intro other hother hholds
        rcases hput.holds _ hholds with hbefore | hprefix
        · exact hfree other (List.mem_cons_of_mem _ hother) hbefore
        · exact (hhead other hother).2 hprefix
      have hsnapshot' : Snapshot.Sound rest :=
        ⟨fun other hother => hsnapshot.kept other (List.mem_cons_of_mem _ hother), hrest⟩
      obtain ⟨hnew, hsame⟩ := ih hput.sound (hput.same.holds hroom) hsnapshot' hfree'
      exact ⟨hnew, hput.same.trans hsame⟩

/-! ## Keeping the repository's own directory -/

/-- What is left of a directory if everything is taken away but the repository's own. -/
def keepStore (disk : Disk) (room : Place) : Disk :=
  ((disk.tree.inside room).filter fun (names, _) => names.head? = some storeName).foldl
    (fun disk (names, entry) => disk.put (room ++ names) entry) (disk.eraseInside room)

theorem checkOut_eq (disk : Disk) (room : Place) (snapshot : Snapshot) :
    disk.checkOut room snapshot = (disk.keepStore room).putSnapshot room snapshot := rfl

/-- What was put somewhere is there, and nothing else has changed. -/
theorem foldl_put {items : List (Place × Entry)} (hsorted : disk.tree.Sorted)
    (hne : ∀ found ∈ items, found.1 ≠ []) (hroot : disk.tree.find? [] = none) :
    let new := items.foldl (fun disk (names, entry) => disk.put (room ++ names) entry) disk
    new.tree.Sorted ∧ new.tree.find? [] = none ∧ SameAround room disk new ∧
      ∀ names,
        (new.at? (room ++ names) = disk.at? (room ++ names) ∧ ∀ entry, (names, entry) ∉ items) ∨
        ∃ entry, (names, entry) ∈ items ∧ new.at? (room ++ names) = some entry := by
  induction items generalizing disk with
  | nil => exact ⟨hsorted, hroot, .refl disk room, fun _ => Or.inl ⟨rfl, by simp⟩⟩
  | cons found rest ih =>
      obtain ⟨there, entry⟩ := found
      have hthere : there ≠ [] := hne _ List.mem_cons_self
      have hin : Place.isInside (room ++ there) room = true :=
        Place.isInside_append _ hthere
      obtain ⟨hsorted', hroot', hsame, hat⟩ := @ih (disk.put (room ++ there) entry) (hsorted.put _ _)
        (fun other hother => hne other (List.mem_cons_of_mem _ hother))
        ((Tree.find?_put_of_ne (by simp [hthere]) entry disk.tree).trans hroot)
      refine ⟨hsorted', hroot', (SameAround.put disk entry hin).trans hsame, fun names => ?_⟩
      rcases hat names with ⟨heq, hnot⟩ | ⟨entry', hmem, heq⟩
      · by_cases hnames : names = there
        · subst hnames
          have hself : (disk.put (room ++ names) entry).at? (room ++ names) = some entry :=
            disk.at?_put_self entry (by simp [hthere])
          exact Or.inr ⟨entry, List.mem_cons_self, heq.trans hself⟩
        · have hother : (disk.put (room ++ there) entry).at? (room ++ names) =
              disk.at? (room ++ names) :=
            disk.at?_put_of_ne entry (by simpa using hnames)
          refine Or.inl ⟨heq.trans hother, fun entry' hmem => ?_⟩
          rcases List.mem_cons.mp hmem with hfirst | hmem
          · exact hnames (congrArg Prod.fst hfirst)
          · exact hnot entry' hmem
      · exact Or.inr ⟨entry', List.mem_cons_of_mem _ hmem, heq⟩

theorem mem_store (hsound : disk.Sound) :
    (names, entry) ∈ (disk.tree.inside room).filter (fun (names, _) => names.head? = some storeName) ↔
      names.head? = some storeName ∧ disk.at? (room ++ names) = some entry := by
  rw [List.mem_filter, hsound.mem_inside]
  cases names with
  | nil => simp
  | cons s rest => simp [and_comm]

/-- What is kept inside is the repository's own directory. -/
theorem keepStore_inside (hsound : disk.Sound) (room : Place) :
    (disk.keepStore room).tree.Sorted ∧ (disk.keepStore room).tree.find? [] = none ∧
      SameAround room disk (disk.keepStore room) ∧
      ∀ names, names ≠ [] → (disk.keepStore room).at? (room ++ names) =
        if names.head? = some storeName then disk.at? (room ++ names) else none := by
  have herased := hsound.eraseInside room
  have hne : ∀ found ∈ (disk.tree.inside room).filter
      (fun (names, _) => names.head? = some storeName), found.1 ≠ [] := by
    rintro ⟨names, entry⟩ hmem rfl
    exact absurd ((mem_store hsound).mp hmem).1 (by simp)
  obtain ⟨hsorted, hroot, hsame, hat⟩ :=
    @foldl_put (disk.eraseInside room) room _ herased.sorted hne herased.find?_root
  refine ⟨hsorted, hroot, (SameAround.eraseInside disk room).trans hsame, fun names hnames => ?_⟩
  rcases hat names with ⟨heq, hnot⟩ | ⟨entry, hmem, heq⟩
  · have hnone : (disk.keepStore room).at? (room ++ names) = none := by
      refine heq.trans ?_
      rw [at?_eraseInside, if_pos (Place.isInside_append _ hnames)]
    rw [hnone]
    split
    · rename_i hstore
      -- If there had been something it would have been put back.
      cases hbefore : disk.at? (room ++ names) with
      | none => rfl
      | some entry => exact absurd ((mem_store hsound).mpr ⟨hstore, hbefore⟩) (hnot entry)
    · rfl
  · obtain ⟨hstore, hbefore⟩ := (mem_store hsound).mp hmem
    rw [if_pos hstore, hbefore]
    exact heq

/-- Whatever is left was there before, and what is around it is left, too. -/
theorem keepStore_left {s : String} (hsound : disk.Sound) (hroom : disk.Holds room)
    (hentry : (disk.keepStore room).at? (place ++ [s]) = some entry) :
    disk.at? (place ++ [s]) = some entry ∧ (disk.keepStore room).Holds place := by
  obtain ⟨_, _, hsame, hkept⟩ := keepStore_inside hsound room
  by_cases hin : Place.isInside (place ++ [s]) room = true
  · obtain ⟨names, hnames, hplace⟩ := Place.isInside_iff.mp hin
    obtain ⟨front, last, rfl⟩ := (List.eq_nil_or_concat names).resolve_left hnames
    rw [List.concat_eq_append, ← List.append_assoc] at hplace
    obtain ⟨rfl, hlast⟩ := List.append_inj' hplace rfl
    obtain rfl : s = last := by simpa using hlast
    rw [List.append_assoc, hkept _ (by simp)] at hentry
    split at hentry
    · rename_i hstore
      rw [← List.append_assoc] at hentry
      refine ⟨hentry, ?_⟩
      by_cases hfront : front = []
      · rw [hfront, List.append_nil]
        exact hsame.holds hroom
      · have hhead : front.head? = some storeName := by
          cases front with
          | nil => exact absurd rfl hfront
          | cons t rest => exact hstore
        rw [Holds, hkept front hfront, if_pos hhead]
        exact hsound.outer hentry
    · exact absurd hentry (by simp)
  · have hout : Place.isInside (place ++ [s]) room = false := by simpa using hin
    rw [hsame.at?_eq _ hout] at hentry
    refine ⟨hentry, ?_⟩
    rw [Holds, hsame.at?_eq _ (Place.not_isInside_outer hout)]
    exact hsound.outer hentry

/-- **What is kept is the repository's own directory**, and what is around. -/
theorem Sound.keepStore (hsound : disk.Sound) (hroom : disk.Holds room) :
    (disk.keepStore room).Sound ∧ SameAround room disk (disk.keepStore room) ∧
      ∀ names, names ≠ [] → (disk.keepStore room).at? (room ++ names) =
        if names.head? = some storeName then disk.at? (room ++ names) else none := by
  obtain ⟨hsorted, hroot, hsame, hkept⟩ := keepStore_inside hsound room
  refine ⟨of_at? hsorted hroot fun place s entry hentry => ?_, hsame, hkept⟩
  obtain ⟨hbefore, hholds⟩ := keepStore_left hsound hroom hentry
  exact ⟨hsound.storable hbefore, hholds, hsound.entry hbefore⟩

/-- **A checkout keeps a disk sound**, and what is around the directory. -/
theorem Sound.checkOut (hsound : disk.Sound) (hroom : disk.Holds room) (hsnapshot : snapshot.Sound) :
    (disk.checkOut room snapshot).Sound ∧ SameAround room disk (disk.checkOut room snapshot) := by
  obtain ⟨hkept, hsame, hat⟩ := hsound.keepStore hroom
  have hfree : ∀ found ∈ snapshot, ¬ (disk.keepStore room).Holds (room ++ found.1) := by
    intro found hfound
    obtain ⟨hne, _, hstore, _⟩ := hsnapshot.kept found hfound
    have hhead : found.1.head? ≠ some storeName := fun h => hstore (List.mem_of_head? h)
    rw [Holds, hat _ hne, if_neg hhead]
    simp
  obtain ⟨hnew, hsame'⟩ := hkept.putSnapshot (hsame.holds hroom) hsnapshot hfree
  rw [checkOut_eq]
  exact ⟨hnew, hsame.trans hsame'⟩

/-- The history of a repository is put into its directory. -/
theorem Sound.putHistory {history : History} (hsound : disk.Sound) (hroom : disk.Holds room)
    (hhistory : history.Sound) :
    (disk.putHistory room history).Sound ∧ SameAround room disk (disk.putHistory room history) := by
  have hstore : (disk.put (room ++ [storeName]) .directory).Sound :=
    hsound.put hroom (by decide) trivial (Or.inl rfl)
  have hholds : (disk.put (room ++ [storeName]) .directory).Holds (room ++ [storeName]) := by
    rw [Holds, at?_put_self _ _ (by simp)]
    rfl
  have hplace : room ++ [storeName, objectsName] = room ++ [storeName] ++ [objectsName] := by simp
  have hsame := SameAround.put disk .directory (Place.isInside_append room (List.cons_ne_nil storeName []))
  have hsame' := SameAround.put (disk.put (room ++ [storeName]) .directory) (.history history)
    (Place.isInside_append room (List.cons_ne_nil storeName [objectsName]))
  refine ⟨?_, hsame.trans hsame'⟩
  rw [Disk.putHistory, hplace]
  exact hstore.put hholds (by decide) hhistory (Or.inl rfl)

end Stencil.Files.Disk
