import Stencil.Proofs.Files.Behind
import Stencil.Proofs.Files.Collecting
import Stencil.Proofs.Path.Parts
import Stencil.Watch

/-!
# What ends a wait

A wait hears of every edit in a directory that is watched, and it ends with the first that counts. Two things have to
fit together for that: the directories that are watched are known by a walk that leaves out what is ignored, and whether
an edit counts is known from the path by which one is told of it. They fit if the base is a path from the root, for that
is what the paths start with then (`wait_ends`): a file that is not ignored lies in a directory that is watched, and one
that is ignored does not count even if its directory is watched.

With any other base one is still told by paths from the root. These do not start with the base, so nothing is ignored
any more, and all that keeps an edit from being noticed is that its directory is not watched.
-/

namespace Stencil

open Files Files.Disk

variable {disk : Disk} {set : IgnoreSet} {root names : Place} {base directory path s : String}
  {places : List (Place × String)} {edit : Edit}

/-! ## Paths from the root -/

namespace Path

/-- A path from the root is behind no base that does not start there. -/
theorem below?_eq_none (hbase : base ≠ "") (hrelative : base.startsWith "/" = false)
    (habsolute : path.startsWith "/" = true) : below? base path = none := by
  obtain ⟨rest, hpath⟩ : ∃ rest, path.toList = '/' :: rest := by
    obtain ⟨rest, hrest⟩ := String.startsWith_string_iff.mp habsolute
    exact ⟨rest, by simpa using hrest.symm⟩
  have hfront : head path.toList = ([.root], rest) := by rw [hpath, head]
  simp only [below?, hfront]
  -- The first part of the base is the current directory or a name.
  rcases head_cases base.toList with ⟨more, hchars, -⟩ | ⟨-, hhead⟩ | ⟨more, -, hhead⟩ | ⟨-, hhead⟩
  · have hstarts : base.startsWith "/" = true := String.startsWith_string_iff.mpr ⟨more, by simp [hchars]⟩
    rw [hrelative] at hstarts
    cases hstarts
  · simp [ofString, hhead]
  · simp [ofString, hhead]
  · obtain ⟨part, parts, hparts, hroot, hcurrent⟩ := exists_part_of_head hbase (by rw [hhead])
    simp [hparts, hroot, hcurrent]

end Path

/-- What is known by a path from the root is known by this path. -/
theorem fromRoot_of_absolute (habsolute : path.startsWith "/" = true) : fromRoot disk path = path :=
  if_pos habsolute

theorem startsWith_fromRoot (disk : Disk) (path : String) : (fromRoot disk path).startsWith "/" = true := by
  unfold fromRoot
  split
  · assumption
  · rename_i hrelative
    have hcurrent := Path.startsWith_render disk.directory
    rw [Path.startsWith_join ?_ (by simpa using hrelative), hcurrent]
    rintro hempty
    rw [hempty] at hcurrent
    simp at hcurrent

theorem fromRoot_ne_empty (disk : Disk) (path : String) : fromRoot disk path ≠ "" := by
  intro hempty
  have hstarts := startsWith_fromRoot disk path
  rw [hempty] at hstarts
  simp at hstarts

/-- Nothing is ignored by a path from the root if the base is none. -/
theorem IgnoreSet.ignores_of_absolute (hbase : set.base ≠ "") (hrelative : set.base.startsWith "/" = false)
    (habsolute : path.startsWith "/" = true) : set.ignores path = false := by
  rw [ignores, Path.below?_eq_none hbase hrelative habsolute]

/-- Whether a name is that of a backup shows at its end, whatever stands in front of it. -/
theorem isBackup_join (hdirectory : directory ≠ "") (hs : IsName s) :
    isBackup (Path.join directory s) = isBackup s := by
  obtain ⟨chars, hjoin, -, -⟩ := Path.exists_toList_join hdirectory hs
  have hends : ∀ text : String, isBackup text = true ↔ text.toList.getLast? = some '~' := by
    intro text
    rw [isBackup, String.endsWith, String.Slice.endsWith_string_iff, String.copy_toSlice,
      show "~".toList = ['~'] by simp, List.singleton_suffix_iff_getLast?_eq_some]
  -- A name is not empty, so it is its own last character that the path ends in.
  have hlast : (chars ++ '/' :: s.toList).getLast? = s.toList.getLast? := by
    rw [← List.singleton_append, ← List.append_assoc, List.getLast?_append,
      List.getLast?_eq_some_getLast hs.toList_ne.1, Option.some_or]
  rw [Bool.eq_iff_iff, hends, hends, hjoin, hlast]

/-! ## Which directories are watched -/

/-- The path of a file behind that of its directory. -/
theorem Visit.join_path {visit : Files.Visit} (hbase : base ≠ "") (h : ∀ t ∈ visit.names ++ [s], IsName t) :
    Path.join (visit.path base) s = Path.join base ("/".intercalate (visit.names ++ [s])) := by
  unfold Files.Visit.path
  by_cases hempty : visit.names = []
  · rw [if_pos (by simpa using hempty), hempty, List.nil_append, String.intercalate_singleton]
  · rw [if_neg (by simpa using hempty), Files.Visit.relative, Path.join_concat hbase hempty h]

/-- What is watched can be told if the base leads somewhere. -/
theorem exists_watched (hsound : disk.Sound) (hroot : disk.canonical set.base = .ok root) :
    ∃ places, watched disk set = .ok places := by
  obtain ⟨visits, hwalk⟩ := exists_walkUnignored hsound hroot
  exact ⟨_, by rw [watched, directoriesOf, hwalk]⟩

/-- What is watched are the directories that are met and not ignored, by their paths from the root. -/
theorem mem_watched (hsound : disk.Sound) (hbase : set.base ≠ "") (hplaces : watched disk set = .ok places)
    {place : Place} : (place, path) ∈ places ↔ ∃ visit : Visit, disk.Meets set.base visit ∧
      visit.entry.isDirectory = true ∧ visit.isIgnored set = false ∧ visit.place = place ∧
        path = fromRoot disk (visit.path set.base) := by
  unfold watched at hplaces
  split at hplaces
  · cases hplaces
  · rename_i directories hdirectories
    obtain rfl := Except.ok.inj hplaces
    have hmem := (collects_directoriesOf hsound hdirectories).mem_iff
    constructor
    · intro hthere
      obtain ⟨visit, hvisit, heq⟩ := List.mem_map.mp hthere
      obtain ⟨rfl, rfl⟩ := Prod.mk.inj heq
      obtain ⟨hmeets, hdir, hkept⟩ := (hmem visit).mp hvisit
      rw [Visit.ignores_path hbase (isName_of_meets hsound hmeets)] at hkept
      exact ⟨visit, hmeets, hdir, hkept, rfl, rfl⟩
    · rintro ⟨visit, hmeets, hdir, hkept, rfl, rfl⟩
      refine List.mem_map.mpr ⟨visit, (hmem visit).mpr ⟨hmeets, hdir, ?_⟩, rfl⟩
      rwa [Visit.ignores_path hbase (isName_of_meets hsound hmeets)]

/-- A directory that is met behind the base is met by the names that lead there. -/
theorem names_of_meets {visit : Visit} (hroot : disk.canonical base = .ok root) (hmeets : disk.Meets base visit)
    (hdir : visit.entry.isDirectory = true) (hplace : visit.place = root ++ names) : visit.names = names := by
  cases hmeets with
  | @start place entry hstart =>
      -- A link is no directory, so the base is met where it leads to.
      have hlink : entry.isLink = false := by
        cases entry with
        | link => cases hdir
        | file | directory | history => rfl
      have hfound := canonical_eq_ok.mpr ⟨entry, find_follow_last hstart hlink⟩
      obtain rfl : root = place := Except.ok.inj (hroot.symm.trans hfound)
      simpa using hplace.symm
  | inside hroot' =>
      rw [hroot, Except.ok.injEq] at hroot'
      subst hroot'
      exact List.append_cancel_left hplace

/-- **A directory is watched, by its path from the root, if it is not ignored.** -/
theorem mem_watched_iff (hsound : disk.Sound) (hroot : disk.canonical set.base = .ok root)
    (hplaces : watched disk set = .ok places) (hholds : disk.Holds (root ++ names))
    (hstart : names = [] → ∃ entry, disk.find false set.base = .ok (root, entry)) :
    (root ++ names, path) ∈ places ↔ set.ignoresRelative names.slashed = false ∧
      path = fromRoot disk ((Visit.behind root names .directory).path set.base) := by
  obtain ⟨_, hfound⟩ := canonical_eq_ok.mp hroot
  rw [mem_watched hsound (ne_empty_of_find hfound) hplaces]
  constructor
  · rintro ⟨visit, hmeets, hdir, hkept, hplace, rfl⟩
    obtain rfl := names_of_meets hroot hmeets hdir hplace
    exact ⟨hkept, rfl⟩
  · rintro ⟨hkept, rfl⟩
    obtain ⟨entry, hat, hdir⟩ := holds_iff.mp hholds
    -- The walk takes the base for what is there and not for what it leads to, unlike all that is inside.
    by_cases hempty : names = []
    · obtain ⟨entry', hfind⟩ := hstart hempty
      subst hempty
      rw [List.append_nil, find_at? hfind] at hat
      obtain rfl := Option.some.inj hat
      exact ⟨{ names := [], place := root, entry := entry' }, .start hfind, hdir, hkept, by simp, rfl⟩
    · exact ⟨.behind root names entry, .inside hroot hempty hat, hdir, hkept, rfl, rfl⟩

/-- A base that is a link is not watched. -/
theorem not_mem_watched (hsound : disk.Sound) (hroot : disk.canonical set.base = .ok root)
    (hplaces : watched disk set = .ok places) {place : Place} {target : String}
    (hlink : disk.find false set.base = .ok (place, .link target)) (path : String) : (root, path) ∉ places := by
  intro hmem
  obtain ⟨visit, hmeets, hdir, -, hplace, -⟩ := (mem_watched hsound (ne_empty_of_find hlink) hplaces).mp hmem
  have hnames := names_of_meets hroot hmeets hdir (hplace.trans (List.append_nil root).symm)
  cases hmeets with
  | start hstart =>
      rw [hlink, Except.ok.injEq, Prod.mk.injEq] at hstart
      rw [← hstart.2] at hdir
      cases hdir
  | inside _ hne => exact hne hnames

/-! ## Edits below the base -/

namespace Edit

/-- The path of the directory of an edit, from a base that leads to a root. -/
def directoryFrom (edit : Edit) (base : String) (root : Place) : String :=
  (Visit.behind root (edit.directory.drop root.length) .directory).path base

/-- The path of the file. -/
def pathFrom (edit : Edit) (base : String) (root : Place) : String :=
  Path.join (edit.directoryFrom base root) edit.name

/-- Whether a file is created, modified or removed in a directory that some names lead to from a base, with no link on
the way. -/
structure IsIn (edit : Edit) (disk : Disk) (base : String) (root names : Place) : Prop where
  kind : edit.kind.isEdit = true
  isName : IsName edit.name
  directory_eq : edit.directory = root ++ names
  holds : disk.Holds (root ++ names)
  start : names = [] → ∃ entry, disk.find false base = .ok (root, entry)

namespace IsIn

theorem directoryFrom_eq (h : edit.IsIn disk base root names) :
    edit.directoryFrom base root = (Visit.behind root names .directory).path base := by
  rw [directoryFrom, h.directory_eq, List.drop_left]

theorem isName_names (h : edit.IsIn disk base root names) (hsound : disk.Sound) : ∀ t ∈ names, IsName t := by
  obtain ⟨entry, hat, -⟩ := holds_iff.mp h.holds
  exact fun t ht => hsound.isName hat t (List.mem_append_right _ ht)

theorem directoryFrom_ne_empty (h : edit.IsIn disk base root names) (hsound : disk.Sound) (hbase : base ≠ "") :
    edit.directoryFrom base root ≠ "" := by
  rw [h.directoryFrom_eq]
  exact (Visit.isBehind_path hbase (h.isName_names hsound)).ne_empty

theorem startsWith_directoryFrom (h : edit.IsIn disk base root names) (hsound : disk.Sound) (hbase : base ≠ "") :
    (edit.directoryFrom base root).startsWith "/" = base.startsWith "/" := by
  rw [h.directoryFrom_eq, Files.Visit.path]
  split
  · rfl
  · exact Path.startsWith_join hbase (Path.not_startsWith_slash (h.isName_names hsound))

/-- Whether the path of the directory is ignored is known from the names. -/
theorem ignores_directoryFrom (h : edit.IsIn disk set.base root names) (hsound : disk.Sound) (hbase : set.base ≠ "") :
    set.ignores (edit.directoryFrom set.base root) = set.ignoresRelative names.slashed := by
  rw [h.directoryFrom_eq, Visit.ignores_path hbase (h.isName_names hsound)]
  rfl

/-- So it is for the file. -/
theorem ignores_pathFrom (h : edit.IsIn disk set.base root names) (hsound : disk.Sound) (hbase : set.base ≠ "") :
    set.ignores (edit.pathFrom set.base root) = set.ignoresRelative (Place.slashed (names ++ [edit.name])) := by
  have hall : ∀ t ∈ names ++ [edit.name], IsName t := by
    intro t ht
    rcases List.mem_append.mp ht with ht | ht
    · exact h.isName_names hsound t ht
    · exact List.mem_singleton.mp ht ▸ h.isName
  rw [pathFrom, h.directoryFrom_eq, Visit.join_path hbase hall]
  exact IgnoreSet.ignores_join hbase (by simp) hall

/-- A file that is not ignored lies in a directory that is not. -/
theorem directory_kept (h : edit.IsIn disk set.base root names) (hsound : disk.Sound) (hbase : set.base ≠ "")
    (hkept : set.ignores (edit.pathFrom set.base root) = false) : set.ignoresRelative names.slashed = false := by
  rw [h.ignores_pathFrom hsound hbase] at hkept
  rw [Bool.eq_false_iff]
  intro hignored
  rw [IgnoreSet.ignoresRelative_slashed hignored (List.prefix_append names [edit.name])] at hkept
  cases hkept

/-- What is told of an edit is one change of the file, if its directory is watched. -/
theorem mem_told_iff (h : edit.IsIn disk set.base root names) (hsound : disk.Sound)
    (hroot : disk.canonical set.base = .ok root) (hplaces : watched disk set = .ok places) (change : Change) :
    change ∈ edit.told places ↔ set.ignoresRelative names.slashed = false ∧ change =
      { kind := edit.kind, paths := [Path.join (fromRoot disk (edit.directoryFrom set.base root)) edit.name] } := by
  have hwatched := fun path => @mem_watched_iff disk set root names path places hsound hroot hplaces h.holds h.start
  rw [told, List.mem_map]
  constructor
  · rintro ⟨⟨place, path⟩, hmem, rfl⟩
    obtain ⟨hmem, hplace⟩ := List.mem_filter.mp hmem
    obtain rfl : place = root ++ names := (of_decide_eq_true hplace).trans h.directory_eq
    obtain ⟨hkept, rfl⟩ := (hwatched path).mp hmem
    exact ⟨hkept, by rw [h.directoryFrom_eq]⟩
  · rintro ⟨hkept, rfl⟩
    refine ⟨(root ++ names, _), List.mem_filter.mpr ⟨(hwatched _).mpr ⟨hkept, rfl⟩, ?_⟩, by rw [h.directoryFrom_eq]⟩
    exact decide_eq_true h.directory_eq.symm

/-- **Whether an edit is noticed** depends on its directory and on the path by which one is told of it. -/
theorem exists_relevant_iff (h : edit.IsIn disk set.base root names) (hsound : disk.Sound)
    (hroot : disk.canonical set.base = .ok root) (hplaces : watched disk set = .ok places) :
    (∃ change ∈ edit.told places, change.isRelevant set = true) ↔ set.ignoresRelative names.slashed = false ∧
      set.ignores (Path.join (fromRoot disk (edit.directoryFrom set.base root)) edit.name) = false ∧
        isBackup (edit.pathFrom set.base root) = false := by
  obtain ⟨_, hfound⟩ := canonical_eq_ok.mp hroot
  have hempty := h.directoryFrom_ne_empty hsound (ne_empty_of_find hfound)
  have hbackup : isBackup (Path.join (fromRoot disk (edit.directoryFrom set.base root)) edit.name) =
      isBackup (edit.pathFrom set.base root) := by
    rw [pathFrom, isBackup_join (fromRoot_ne_empty _ _) h.isName, isBackup_join hempty h.isName]
  have hrelevant : ∀ change : Change, change = { kind := edit.kind, paths :=
      [Path.join (fromRoot disk (edit.directoryFrom set.base root)) edit.name] } →
      (change.isRelevant set = true ↔ isBackup (edit.pathFrom set.base root) = false ∧
        set.ignores (Path.join (fromRoot disk (edit.directoryFrom set.base root)) edit.name) = false) := by
    rintro change rfl
    simp [Change.isRelevant, h.kind, hbackup]
  constructor
  · rintro ⟨change, hchange, hcounts⟩
    obtain ⟨hkept, heq⟩ := (h.mem_told_iff hsound hroot hplaces change).mp hchange
    exact ⟨hkept, ((hrelevant change heq).mp hcounts).symm⟩
  · rintro ⟨hkept, hcounts⟩
    exact ⟨_, (h.mem_told_iff hsound hroot hplaces _).mpr ⟨hkept, rfl⟩, (hrelevant _ rfl).mpr hcounts.symm⟩

end IsIn

end Edit

/-! ## Waiting -/

/-- **A wait ends with the first change that counts**, and hears of nothing else if there is none. -/
theorem wait_changes (set : IgnoreSet) (changes : List Change) (rest : List Signal) :
    wait set (changes.map .change ++ rest) =
      if ∃ change ∈ changes, change.isRelevant set = true then .changed else wait set rest := by
  induction changes with
  | nil => simp
  | cons change more ih =>
      rw [List.map_cons, List.cons_append, wait, ih]
      by_cases hrelevant : change.isRelevant set = true <;> simp [hrelevant]

/-- What is heard of edits that are told as nothing that counts goes by, however much of it there is. -/
theorem wait_signals (set : IgnoreSet) (places : List (Place × String)) (edits : List Edit) (rest : List Signal) :
    wait set (signals places edits ++ rest) =
      if ∃ edit ∈ edits, ∃ change ∈ edit.told places, change.isRelevant set = true then .changed
      else wait set rest := by
  have hsignals : signals places edits = (edits.flatMap (·.told places)).map .change := by
    rw [signals, List.map_flatMap]
  rw [hsignals, wait_changes]
  refine if_congr ⟨?_, ?_⟩ rfl rfl
  · rintro ⟨change, hchange, hrelevant⟩
    obtain ⟨edit, hedit, htold⟩ := List.mem_flatMap.mp hchange
    exact ⟨edit, hedit, change, htold, hrelevant⟩
  · rintro ⟨edit, hedit, change, htold, hrelevant⟩
    exact ⟨change, List.mem_flatMap.mpr ⟨edit, hedit, htold⟩, hrelevant⟩

/-- **A wait below a base that is a path from the root ends with the first edit of a file that is neither ignored nor a
backup**, and with nothing else, however many edits there are. What is watched can be told if the base leads somewhere,
and the directory of such a file is watched. Below any other base it is the directory that must not be ignored, and
nothing but its name keeps a file in there from being noticed. A base that is a link is not watched in either case. -/
theorem wait_ends (hsound : disk.Sound) (hroot : disk.canonical set.base = .ok root) :
    ∃ places, watched disk set = .ok places ∧
      (∀ edit : Edit, ∀ names, edit.IsIn disk set.base root names →
        set.ignores (edit.pathFrom set.base root) = false → ∃ path, (edit.directory, path) ∈ places) ∧
      (∀ place target, disk.find false set.base = .ok (place, .link target) → ∀ path, (root, path) ∉ places) ∧
      ∀ edits : List Edit, (∀ edit ∈ edits, ∃ names, edit.IsIn disk set.base root names) → ∀ rest,
        (set.base.startsWith "/" = true → wait set (signals places edits ++ rest) =
          if ∃ edit ∈ edits, set.ignores (edit.pathFrom set.base root) = false ∧
            isBackup (edit.pathFrom set.base root) = false then .changed
          else wait set rest) ∧
        (set.base.startsWith "/" = false → wait set (signals places edits ++ rest) =
          if ∃ edit ∈ edits, set.ignores (edit.directoryFrom set.base root) = false ∧
            isBackup (edit.pathFrom set.base root) = false then .changed
          else wait set rest) := by
  obtain ⟨places, hplaces⟩ := exists_watched hsound hroot
  obtain ⟨_, hfound⟩ := canonical_eq_ok.mp hroot
  have hbase := ne_empty_of_find hfound
  refine ⟨places, hplaces, fun edit names h hkept => ?_, fun place target => not_mem_watched hsound hroot hplaces,
    fun edits hedits rest => ?_⟩
  · rw [h.directory_eq]
    exact ⟨_, (mem_watched_iff hsound hroot hplaces h.holds h.start).mpr ⟨h.directory_kept hsound hbase hkept, rfl⟩⟩
  · rw [wait_signals]
    refine ⟨fun habsolute => if_congr ?_ rfl rfl, fun hrelative => if_congr ?_ rfl rfl⟩
    · -- What one is told is the path that the patterns are made for.
      refine exists_congr fun edit => and_congr_right fun hedit => ?_
      obtain ⟨names, h⟩ := hedits edit hedit
      have hknown : fromRoot disk (edit.directoryFrom set.base root) = edit.directoryFrom set.base root :=
        fromRoot_of_absolute ((h.startsWith_directoryFrom hsound hbase).trans habsolute)
      rw [h.exists_relevant_iff hsound hroot hplaces, hknown]
      exact and_iff_right_of_imp fun hcounts => h.directory_kept hsound hbase hcounts.1
    · -- What one is told is outside of the base, so no pattern is asked.
      refine exists_congr fun edit => and_congr_right fun hedit => ?_
      obtain ⟨names, h⟩ := hedits edit hedit
      have hnever : set.ignores (Path.join (fromRoot disk (edit.directoryFrom set.base root)) edit.name) = false := by
        refine IgnoreSet.ignores_of_absolute hbase hrelative ?_
        rw [Path.startsWith_join (fromRoot_ne_empty _ _) (Path.name_not_startsWith_slash h.isName), startsWith_fromRoot]
      rw [h.exists_relevant_iff hsound hroot hplaces, h.ignores_directoryFrom hsound hbase, hnever]
      simp

/-- A directory with two others in it. -/
def watchedDisk : Disk where
  tree := [(["t"], .directory), (["t", "k"], .directory), (["t", "s"], .directory)]
  directory := []

/-- The patterns that leave out one of them. -/
def watchedPatterns : IgnoreSet := { base := "/t", patterns := [{ text := "k", pieces := [.literal 'k'] }] }

/-- A backup is made, something happens in what is left out, and then a file is modified. -/
def someEdits : List Edit :=
  [{ kind := .create, directory := ["t", "s"], name := "x~" },
    { kind := .modify, directory := ["t", "k"], name := "y" },
    { kind := .modify, directory := ["t", "s"], name := "x" }]

theorem wait_ends_third : ∃ places, watched watchedDisk watchedPatterns = .ok places ∧
    wait watchedPatterns (signals places (someEdits.take 2) ++ []) = .waiting ∧
    wait watchedPatterns (signals places someEdits ++ []) = .changed := by
  obtain ⟨places, hplaces, -, -, hwait⟩ :=
    @wait_ends watchedDisk watchedPatterns ["t"] (by decide +kernel) (by decide +kernel)
  have hsome : ∀ edit ∈ someEdits, ∃ names, edit.IsIn watchedDisk watchedPatterns.base ["t"] names := by
    intro edit hedit
    simp only [someEdits, List.mem_cons, List.not_mem_nil, or_false] at hedit
    rcases hedit with rfl | rfl | rfl
    · exact ⟨["s"], rfl, by decide +kernel, rfl, rfl, by simp⟩
    · exact ⟨["k"], rfl, by decide +kernel, rfl, rfl, by simp⟩
    · exact ⟨["s"], rfl, by decide +kernel, rfl, rfl, by simp⟩
  have hfirst : ∀ edit ∈ someEdits.take 2, ∃ names, edit.IsIn watchedDisk watchedPatterns.base ["t"] names :=
    fun edit hedit => hsome edit (List.mem_of_mem_take hedit)
  refine ⟨places, hplaces, ?_, ?_⟩
  · exact ((hwait _ hfirst []).1 (by decide +kernel)).trans (by decide +kernel)
  · exact ((hwait _ hsome []).1 (by decide +kernel)).trans (by decide +kernel)

/-- Below another base what is left out is noticed. -/
example : (isNoticed watchedDisk watchedPatterns ["t"] "k").toOption = some false ∧
    (isNoticed watchedDisk { watchedPatterns with base := "t" } ["t"] "k").toOption = some true := by decide +kernel

end Stencil
