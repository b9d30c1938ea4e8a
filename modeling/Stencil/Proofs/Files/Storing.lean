import Mathlib.Data.List.Induction
import Stencil.Proofs.Files.Writing

/-!
# Writing at a place

A place can be written to by its own path if nothing is in the way: whatever is there of the way to it is a
directory (`IsOpen`). Then the directories that are missing are made, and nothing else
(`Sound.makeDirectories_place`), and a file that was missing is written (`Sound.writeInside_place`).

Elsewhere it is enough to know what an operation may have changed. Here it is that the operation succeeds.
-/

namespace Stencil.Files.Disk

variable {disk : Disk} {place outer : Place} {s : String}

/-- Whether nothing is in the way to a place but directories. -/
def IsOpen (disk : Disk) (place : Place) : Prop :=
  ∀ front, front <+: place → disk.at? front = none ∨ disk.Holds front

theorem IsOpen.front (h : disk.IsOpen place) (hfront : outer <+: place) : disk.IsOpen outer :=
  fun _ hfirst => h _ (hfirst.trans hfront)

/-! ## Paths that lead to nothing -/

/-- The path of a place in a directory, where nothing is, leads to where something can be put. -/
theorem locate_missing (hsound : disk.Sound) (hholds : disk.Holds outer) (hs : IsStorable s)
    (hnone : disk.at? (outer ++ [s]) = none) (followLast : Bool) :
    disk.locate followLast (Place.render (outer ++ [s])) = .ok ⟨outer ++ [s], none, false⟩ := by
  obtain ⟨entry, hat, hdir⟩ := holds_iff.mp hholds
  have hnames : ∀ t ∈ outer ++ [s], IsStorable t := fun t ht => (List.mem_append.mp ht).elim
    (hsound.storable hat t) fun ht => List.mem_singleton.mp ht ▸ hs
  have hroute := Route.ofString_render fun t ht => (hnames t ht).toIsName
  have hstart : disk.start (Place.render (outer ++ [s])) = [] := by simp [start, hroute]
  refine locate_eq_ok.mpr ⟨⟨(spells_render fun t ht => (hnames t ht).toIsName).ne_empty, ?_, ?_⟩, ?_⟩
  · exact noNull_render_iff.mpr fun t ht => (hnames t ht).noNull
  · rw [hstart]
    exact holds_root disk
  · have hfront : Leads disk.tree true maxLinks [] (outer.map .name) false ⟨outer, some entry, false⟩ :=
      Sound.leads_names hsound [] outer hat (Or.inl hdir)
    rw [hstart, hroute, List.map_append, List.isEmpty_eq_false_iff.mpr (by simp)]
    exact hfront.append rfl hdir (by simp) (.missing hs.size_le hnone)

/-- Names that lead through nothing on the way lead nowhere. -/
theorem stepThrough_missing {tree : Tree} {followLast : Bool}
    {enter : Place → List Step → Bool → Except Fault Location} {names : Place} {ends : Bool}
    (hsize : ∀ s ∈ names, s.utf8ByteSize ≤ maxNameSize) (hplace : tree.at? place ≠ none)
    (hopen : ∀ front, front <+: names →
      tree.at? (place ++ front) = none ∨ (tree.at? (place ++ front)).any Entry.isDirectory = true)
    (hmissing : ∃ front, front <+: names ∧ front ≠ names ∧ tree.at? (place ++ front) = none) :
    stepThrough tree followLast enter place (names.map .name) ends = .error .notFound := by
  induction names generalizing place with
  | nil =>
      obtain ⟨front, hfront, hne, _⟩ := hmissing
      exact absurd (List.prefix_nil.mp hfront) hne
  | cons s rest ih =>
      obtain ⟨front, hfront, hne, hnone⟩ := hmissing
      obtain ⟨t, more, rfl⟩ := List.exists_cons_of_ne_nil (l := front) fun hnil => by
        simp [hnil, hplace] at hnone
      obtain ⟨rfl, hmore⟩ := List.cons_prefix_cons.mp hfront
      rw [List.map_cons, stepThrough, if_neg (Nat.not_lt.mpr (hsize t List.mem_cons_self))]
      rcases hopen [t] (by simp) with hat | hdir
      · have hrest : rest ≠ [] := by
          rintro rfl
          exact hne (by rw [List.prefix_nil.mp hmore])
        simp [hat, hrest]
      · cases hat : tree.at? (place ++ [t]) with
        | none => simp [hat] at hdir
        | some entry =>
            have hnext : stepThrough tree followLast enter (place ++ [t]) (rest.map .name) ends =
                .error .notFound := by
              refine ih (fun s hs => hsize s (List.mem_cons_of_mem _ hs)) (by simp [hat]) ?_
                ⟨more, hmore, fun heq => hne (heq ▸ rfl), by simpa using hnone⟩
              intro front hfront
              simpa using hopen (t :: front) (List.cons_prefix_cons.mpr ⟨rfl, hfront⟩)
            cases entry with
            | file | link => simp [hat, Entry.isDirectory] at hdir
            | directory | history => exact hnext

/-- The path of a place whose directory is missing leads nowhere. -/
theorem locate_of_missing_outer (hstorable : ∀ t ∈ outer ++ [s], IsStorable t)
    (hopen : disk.IsOpen (outer ++ [s])) (hnone : disk.at? outer = none) (followLast : Bool) :
    disk.locate followLast (Place.render (outer ++ [s])) = .error .notFound := by
  have hnames : ∀ t ∈ outer ++ [s], IsName t := fun t ht => (hstorable t ht).toIsName
  have hroute := Route.ofString_render hnames
  have hnull := noNull_render_iff.mpr fun t ht => (hstorable t ht).noNull
  have hempty : (Place.render (outer ++ [s])).isEmpty = false := by
    simpa using (spells_render hnames).ne_empty
  have hfollow : follow disk.tree followLast maxLinks [] ((outer ++ [s]).map .name) false =
      .error .notFound := by
    rw [follow_eq]
    refine stepThrough_missing (fun t ht => (hstorable t ht).size_le) (by simp) (fun front hfront => ?_)
      ⟨outer, List.prefix_append _ _, by simp, hnone⟩
    exact hopen front hfront
  have hends : (outer ++ [s]).isEmpty = false := by simp
  rw [locate, hroute, hempty, hends]
  simpa [hnull] using hfollow

/-! ## Directories -/

/-- A place that is not the root has no slash at the end of its path. -/
theorem withoutEndSlashes_render (h : ∀ t ∈ place, IsName t) (hne : place ≠ []) :
    withoutEndSlashes place.render = place.render := by
  obtain ⟨slashes, hpath, hslashes, _⟩ := exists_withoutEndSlashes place.render
  rcases List.eq_nil_or_concat slashes with rfl | ⟨more, c, rfl⟩
  · rw [List.append_nil] at hpath
    exact (String.toList_inj.mp hpath).symm
  · -- Otherwise the path would end with a slash.
    obtain rfl : c = '/' := hslashes c (by simp)
    have hends : place.render.endsWith "/" = true := by
      rw [String.endsWith, String.Slice.endsWith_string_iff, String.copy_toSlice, hpath]
      exact ⟨(withoutEndSlashes place.render).toList ++ more, by simp⟩
    rw [Path.endsWith_slash_render h] at hends
    exact absurd (List.isEmpty_iff.mp hends) hne

theorem lastPiece?_render (h : ∀ t ∈ outer ++ [s], IsName t) :
    lastPiece? (Place.render (outer ++ [s])) = some s.toList := by
  have hs := (h s (by simp)).toList_ne.1
  rw [lastPiece?, splitOn_render h, if_neg (by simp), List.map_append, List.filter_cons_of_neg (by simp),
    List.filter_append]
  simp [hs]

theorem makeDirectory_missing (hsound : disk.Sound) (hholds : disk.Holds outer) (hs : IsStorable s)
    (hnone : disk.at? (outer ++ [s]) = none) :
    disk.makeDirectory (Place.render (outer ++ [s])) = .ok (disk.put (outer ++ [s]) .directory) := by
  obtain ⟨entry, hat, _⟩ := holds_iff.mp hholds
  have hnames : ∀ t ∈ outer ++ [s], IsName t := fun t ht => (List.mem_append.mp ht).elim
    (hsound.isName hat t) fun ht => List.mem_singleton.mp ht ▸ hs.toIsName
  have hdot : some s.toList ≠ some ['.'] := fun h => hs.toIsName.toList_ne.2.1 (Option.some.inj h)
  simp [makeDirectory, withoutEndSlashes_render hnames, locate_missing hsound hholds hs hnone,
    lastPiece?_render hnames, hdot]

/-- The paths of a place and of all that it lies in but the root, the innermost first. -/
def ways (place : Place) : List String :=
  (List.range place.length).reverse.map fun n => Place.render (place.take (n + 1))

theorem ways_concat (outer : Place) (s : String) :
    ways (outer ++ [s]) = Place.render (outer ++ [s]) :: ways outer := by
  rw [ways, List.length_append, List.length_singleton, List.range_succ, List.reverse_append,
    List.reverse_singleton, List.singleton_append, List.map_cons, List.take_of_length_le (by simp)]
  refine congrArg _ (List.map_congr_left fun n hn => ?_)
  have hlt : n < outer.length := by simpa using hn
  rw [List.take_append_of_le_length hlt]

/-- The paths around a place are the ways to what it lies in, and the root. -/
theorem outer_render (h : ∀ t ∈ outer ++ [s], IsName t) :
    (Path.ofString (Place.render (outer ++ [s]))).outer.map Path.render = ways outer ++ ["/"] := by
  rw [Path.ofString_render h, Place.outer_eq, List.map_map, List.length_append, List.length_singleton,
    List.range_succ_eq_map, List.reverse_cons, List.map_append, ← List.map_reverse, List.map_map, ways]
  congr 1
  refine List.map_congr_left fun n hn => ?_
  have hlt : n < outer.length := by simpa using hn
  simp only [Function.comp_apply, Path.render_place]
  rw [List.take_append_of_le_length hlt]

theorem mem_ways {path : String} (h : path ∈ ways place) :
    ∃ front : Place, front <+: place ∧ front ≠ [] ∧ path = front.render := by
  obtain ⟨n, hn, rfl⟩ := List.mem_map.mp h
  have hlt : n < place.length := by simpa using hn
  refine ⟨place.take (n + 1), List.take_prefix _ _, ?_, rfl⟩
  rw [← List.length_pos_iff, List.length_take]
  omega

/-- To make the directories at the path of a place is to make all that are missing on the way. -/
theorem makeDirectories_render (h : ∀ t ∈ place, IsName t) (disk : Disk) :
    disk.makeDirectories place.render = disk.makeAll (ways place) := by
  rcases List.eq_nil_or_concat place with rfl | ⟨outer, s, rfl⟩
  · rfl
  · rw [List.concat_eq_append] at h ⊢
    have houter := outer_render h
    have hne : (Path.ofString (Place.render (outer ++ [s]))).outer.isEmpty = false := by
      rw [Bool.eq_false_iff]
      intro hempty
      rw [List.isEmpty_iff.mp hempty] at houter
      exact absurd houter (by simp)
    have hkeep : (ways outer).filter (fun p => !p.isEmpty && p ≠ "/") = ways outer := by
      refine List.filter_eq_self.mpr fun path hpath => ?_
      obtain ⟨front, hfront, hsome, rfl⟩ := mem_ways hpath
      have hnames : ∀ t ∈ front, IsName t := fun t ht =>
        h t (List.mem_append_left _ (hfront.subset ht))
      have hroot : front.render ≠ Place.render [] := fun heq => by
        have hparts := Path.ofString_render hnames
        rw [heq, Path.ofString_render (by simp)] at hparts
        exact hsome (by simpa using hparts)
      have hroot' : front.render ≠ "/" := hroot
      simp [hroot', (spells_render hnames).ne_empty]
    rw [makeDirectories, hne, houter, List.filter_append, hkeep, ways_concat]
    simp

theorem makeDirectory_there (hsound : disk.Sound) (hne : place ≠ []) (hholds : disk.Holds place) :
    disk.makeDirectory place.render = .error .alreadyExists ∧ disk.hasDirectory place.render = true := by
  obtain ⟨entry, hat, hdir⟩ := holds_iff.mp hholds
  have hfind : ∀ followLast, disk.find followLast place.render = .ok (place, entry) := fun followLast =>
    hsound.find_render hat fun hlink => by cases entry <;> simp [Entry.isLink, Entry.isDirectory] at hlink hdir
  constructor
  · obtain ⟨ends, hlocate⟩ := find_eq_ok.mp (hfind false)
    simp [makeDirectory, withoutEndSlashes_render (hsound.isName hat) hne, hlocate]
  · simp [hasDirectory, hfind true, hdir]

/-- What making directories up to a place has done. -/
structure MadeUpTo (place : Place) (old new : Disk) : Prop where
  sound : new.Sound
  holds : new.Holds place
  writes : WritesOnly (fun there entry => entry = .directory ∧ there <+: place) old new

theorem makeAll_ways (hsound : disk.Sound) (hstorable : ∀ t ∈ place, IsStorable t)
    (hopen : disk.IsOpen place) :
    ∃ new, disk.makeAll (ways place) = (new, .ok ()) ∧ MadeUpTo place disk new := by
  induction place using List.reverseRecOn with
  | nil => exact ⟨disk, rfl, hsound, holds_root disk, WritesOnly.refl disk⟩
  | append_singleton outer s ih =>
      have hs : IsStorable s := hstorable s (by simp)
      have hnames : ∀ t ∈ outer ++ [s], IsName t := fun t ht => (hstorable t ht).toIsName
      rw [ways_concat, makeAll]
      rcases hopen _ List.prefix_rfl with hnone | hthere
      · rcases hopen outer (List.prefix_append _ _) with houter | hholds
        · -- What it lies in is made before.
          obtain ⟨mid, hmake, hmid⟩ := ih (fun t ht => hstorable t (List.mem_append_left _ ht))
            (hopen.front (List.prefix_append _ _))
          have hnone' : mid.at? (outer ++ [s]) = none := by
            rw [hmid.writes.at?_eq fun _ hin => ?_, hnone]
            exact absurd hin.2.length_le (by simp)
          have hfail : disk.makeDirectory (Place.render (outer ++ [s])) = .error .notFound := by
            simp [makeDirectory, withoutEndSlashes_render hnames,
              locate_of_missing_outer hstorable hopen houter]
          rw [hfail]
          simp only [hmake, makeDirectory_missing hmid.sound hmid.holds hs hnone']
          refine ⟨_, rfl, hmid.sound.put hmid.holds hs trivial (Or.inl rfl), ?_, ?_⟩
          · exact Holds.of_at? (at?_put_self _ _ (by simp)) rfl
          · refine hmid.writes.trans_mono (.put (by simp) (hnone' ▸ Fresh.directory) ?_) ?_ fun _ _ h => h
            · exact ⟨rfl, List.prefix_rfl⟩
            · exact fun _ _ h => ⟨h.1, h.2.trans (List.prefix_append _ _)⟩
        · rw [makeDirectory_missing hsound hholds hs hnone]
          refine ⟨_, rfl, hsound.put hholds hs trivial (Or.inl rfl), ?_, ?_⟩
          · exact Holds.of_at? (at?_put_self _ _ (by simp)) rfl
          · exact .put (by simp) (hnone ▸ Fresh.directory) ⟨rfl, List.prefix_rfl⟩
      · obtain ⟨hfail, hhas⟩ := makeDirectory_there hsound (by simp) hthere
        rw [hfail]
        simp only [hhas, if_true]
        exact ⟨disk, rfl, hsound, hthere, WritesOnly.refl disk⟩

namespace Sound

/-- **Directories can be made up to a place that is open.** -/
theorem makeDirectories_place (hsound : disk.Sound) (hstorable : ∀ t ∈ place, IsStorable t)
    (hopen : disk.IsOpen place) :
    ∃ new, disk.makeDirectories place.render = (new, .ok ()) ∧ MadeUpTo place disk new := by
  rw [makeDirectories_render (fun t ht => (hstorable t ht).toIsName)]
  exact makeAll_ways hsound hstorable hopen

/-- **A missing file can be written where the way to it is open.** -/
theorem writeInside_place (hsound : disk.Sound) (hstorable : ∀ t ∈ outer ++ [s], IsStorable t)
    (hopen : disk.IsOpen outer) (hnone : disk.at? (outer ++ [s]) = none) (content : ByteArray) :
    ∃ new, disk.writeInside (Place.render (outer ++ [s])) content = (new, .ok ()) ∧ new.Sound ∧
      new.at? (outer ++ [s]) = some (.file content false) ∧
      WritesOnly (fun there entry => there = outer ++ [s] ∨ entry = .directory ∧ there <+: outer)
        disk new := by
  have hs : IsStorable s := hstorable s (by simp)
  have hnames : ∀ t ∈ outer ++ [s], IsName t := fun t ht => (hstorable t ht).toIsName
  obtain ⟨mid, hmake, hmid⟩ := hsound.makeDirectories_place
    (fun t ht => hstorable t (List.mem_append_left _ ht)) hopen
  have hnone' : mid.at? (outer ++ [s]) = none := by
    rw [hmid.writes.at?_eq fun _ hin => ?_, hnone]
    exact absurd hin.2.length_le (by simp)
  have hparent : (Path.ofString (Place.render (outer ++ [s]))).parent? =
      some (.root :: outer.map .name) := by
    rw [Path.ofString_render hnames, Path.parent?, Place.outer_eq, List.length_append,
      List.length_singleton, List.range_succ, List.reverse_append]
    simp
  refine ⟨mid.put (outer ++ [s]) (.file content false), ?_, ?_, at?_put_self _ _ (by simp), ?_⟩
  · rw [Disk.writeInside, hparent]
    simp only [Path.render_place, hmake, Disk.write, locate_missing hmid.sound hmid.holds hs hnone']
    rfl
  · exact hmid.sound.put hmid.holds hs trivial (Or.inr (by simp [Holds, hnone']))
  · refine hmid.writes.trans_mono (.put (by simp) (hnone' ▸ Fresh.file content false) (Or.inl rfl)) ?_
      fun _ _ h => h
    exact fun _ _ h => Or.inr h

end Sound

end Stencil.Files.Disk
