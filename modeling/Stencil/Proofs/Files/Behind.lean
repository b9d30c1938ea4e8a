import Mathlib.Data.List.Induction
import Stencil.Files.Site
import Stencil.Proofs.Files.Walk

/-!
# Behind a directory

Where no links are in a directory, what names lead to from there is known from what is there, faults included
(`Disk.find_behind`). It does not matter how the directory was found, nor where it is: two directories with the
same in them give the same answers to paths with the same names behind (`Disk.lookUp_congr`,
`Disk.readText_congr`).

The name of a template is such a path behind the directory of the templates (`Site.templatePath?_behind`).
-/

namespace Stencil.Files

namespace Disk

variable {disk disk' : Disk} {tree : Tree} {followLast ends : Bool} {links : Nat} {place root root' names : Place}
  {given given' path path' : String} {entry : Entry}

/-- What some names lead to from a place if no links are on the way. -/
def lookUp (disk : Disk) : Place → Place → Bool → Except Fault Entry
  | place, [], _ =>
    match disk.at? place with
    | some entry => .ok entry
    | none => .error .notFound
  | place, s :: rest, ends =>
    if s.utf8ByteSize > maxNameSize then .error .nameTooLong
    else match disk.at? (place ++ [s]) with
      | none => .error .notFound
      | some (.file content executable) =>
        if rest.isEmpty && !ends then .ok (.file content executable) else .error .notADirectory
      | some _ => disk.lookUp (place ++ [s]) rest ends

/-- **The same is found where the same is there.** -/
theorem lookUp_congr (h : ∀ front, front <+: names → disk'.at? (root' ++ front) = disk.at? (root ++ front))
    (ends : Bool) : disk'.lookUp root' names ends = disk.lookUp root names ends := by
  induction names generalizing root root' with
  | nil =>
      have hroot := h [] List.prefix_rfl
      rw [List.append_nil, List.append_nil] at hroot
      rw [lookUp, lookUp, hroot]
  | cons s rest ih =>
      have hrest : disk'.lookUp (root' ++ [s]) rest ends = disk.lookUp (root ++ [s]) rest ends := ih fun front hfront => by
        have hlonger := h (s :: front) (List.cons_prefix_cons.mpr ⟨rfl, hfront⟩)
        simpa using hlonger
      rw [lookUp, lookUp, h [s] (by simp), hrest]

/-- What is found is there. -/
theorem at?_of_lookUp (h : disk.lookUp root names ends = .ok entry) :
    disk.at? (root ++ names) = some entry := by
  induction names generalizing root with
  | nil =>
      rw [lookUp] at h
      rw [List.append_nil]
      split at h
      · rename_i found hat
        rw [hat, Except.ok.inj h]
      · cases h
  | cons s rest ih =>
      have hrest : disk.lookUp (root ++ [s]) rest ends = .ok entry →
          disk.at? (root ++ s :: rest) = some entry := fun hfound => by simpa using ih hfound
      rw [lookUp] at h
      split at h
      · cases h
      · split at h
        · cases h
        · rename_i content executable hat
          split at h
          · rename_i hlast
            simp only [Bool.and_eq_true, List.isEmpty_iff] at hlast
            rw [hlast.1, hat, Except.ok.inj h]
          · cases h
        · exact hrest h

/-- Steps by names are looked up. -/
theorem stepThrough_names (enter : Place → List Step → Bool → Except Fault Location)
    (hlinks : ∀ front, front ≠ [] → front <+: names → ∀ target,
      disk.at? (place ++ front) ≠ some (.link target)) :
    (match stepThrough disk.tree followLast enter place (names.map .name) ends with
      | .error fault => .error fault
      | .ok location =>
        match location.entry? with
        | some entry => .ok (location.place, entry)
        | none => .error .notFound) =
      (disk.lookUp place names ends).map fun entry => (place ++ names, entry) := by
  induction names generalizing place with
  | nil =>
      rw [List.map_nil, stepThrough, lookUp, List.append_nil]
      change (match disk.at? place with | some entry => _ | none => _) = _
      cases disk.at? place <;> rfl
  | cons s rest ih =>
      have hlink := hlinks [s] (by simp) (by simp)
      have hrest := @ih (place ++ [s]) fun front hne hfront target => by
        have hlonger := hlinks (s :: front) (by simp) (List.cons_prefix_cons.mpr ⟨rfl, hfront⟩) target
        simpa using hlonger
      rw [List.append_assoc, List.singleton_append] at hrest
      rw [List.map_cons, stepThrough, lookUp]
      by_cases hsize : s.utf8ByteSize > maxNameSize
      · simp only [if_pos hsize]
        rfl
      · rw [if_neg hsize, if_neg hsize, ← Disk.at?]
        cases hat : disk.at? (place ++ [s]) with
        | none => cases rest <;> rfl
        | some entry =>
            cases entry with
            | link target => exact absurd hat (hlink target)
            | directory | history => exact hrest
            | file content executable =>
                cases rest with
                | nil => cases ends <;> rfl
                | cons => rfl

/-- A path that can be followed is followed. -/
theorem locate_eq_follow (h : disk.CanFollow path) :
    disk.locate followLast path = follow disk.tree followLast maxLinks (disk.start path)
      (Route.ofString path).steps (Route.ofString path).endsInDirectory := by
  have hempty : path.isEmpty = false := by simpa using h.ne_empty
  have hnull : path.toList.contains '\x00' = false := by simpa using h.noNull
  have hholds := h.holds
  simp only [locate, hempty, hnull, Bool.false_eq_true, if_false]
  unfold start at hholds ⊢
  split
  · rfl
  · rename_i hrelative
    rw [if_neg hrelative] at hholds
    exact if_pos hholds

/-- Following a path goes on from where its front leads. -/
theorem Leads.follow_append {front rest : List Step} {location : Location} {ends' : Bool}
    (hfront : Leads tree true links place front ends location) (hsome : location.entry? = some entry)
    (hdir : entry.isDirectory = true) (hrest : rest ≠ []) :
    ∃ enter, follow tree followLast links place (front ++ rest) ends' =
      stepThrough tree followLast enter location.place rest ends' := by
  induction hfront with
  | @here links place => exact ⟨entering tree followLast links, by rw [follow_eq]; rfl⟩
  | @up links place rest' ends location _ ih =>
      obtain ⟨enter, h⟩ := ih hsome
      refine ⟨enter, ?_⟩
      rw [← h, follow_eq, List.cons_append, stepThrough]
  | missing => cases hsome
  | file =>
      obtain rfl := Option.some.inj hsome
      cases hdir
  | stop _ hfollow => cases hfollow
  | @link links place s target front ends location hsize hat _ _ ih =>
      obtain ⟨enter, h⟩ := ih hsome
      refine ⟨enter, ?_⟩
      rw [← h, follow_eq, List.cons_append, stepThrough, if_neg (by omega), hat]
      have hmore : (front ++ rest).isEmpty = false := by simp [hrest]
      simp [hmore, entering, linkStart]
  | @inner links place s front ends found location hsize hat hdir' _ ih =>
      obtain ⟨enter, h⟩ := ih hsome
      refine ⟨enter, ?_⟩
      rw [← h, follow_eq, List.cons_append, stepThrough, if_neg (by omega), hat]
      cases found with
      | directory | history => rfl
      | file | link => cases hdir'

end Disk

/-! ## Paths behind others -/

/-- Whether a path has some more names than another one. -/
structure IsBehind (given path : String) (names : Place) : Prop where
  ne_empty : path ≠ ""
  isAbsolute_eq : (Route.ofString path).isAbsolute = (Route.ofString given).isAbsolute
  steps_eq : (Route.ofString path).steps = (Route.ofString given).steps ++ names.map .name
  null_iff : '\x00' ∈ path.toList ↔ '\x00' ∈ given.toList ∨ ∃ s ∈ names, '\x00' ∈ s.toList

namespace IsBehind

variable {given mid path : String} {names names' : Place}

theorem refl (hne : given ≠ "") : IsBehind given given [] :=
  ⟨hne, rfl, by simp, by simp⟩

theorem trans (h : IsBehind given mid names) (h' : IsBehind mid path names') :
    IsBehind given path (names ++ names') := by
  refine ⟨h'.ne_empty, h'.isAbsolute_eq.trans h.isAbsolute_eq, ?_, ?_⟩
  · rw [h'.steps_eq, h.steps_eq, List.append_assoc, List.map_append]
  · rw [h'.null_iff, h.null_iff, or_assoc]
    simp only [List.mem_append, or_and_right, exists_or]

/-- A slash at the end adds no name. -/
theorem slash (hne : given ≠ "") : IsBehind given (given ++ "/") [] := by
  have htext : (given ++ "/").toList = given.toList ++ ['/'] := by simp
  have hchars : given.toList ≠ [] := fun he => hne (String.toList_inj.mp he)
  refine ⟨fun he => ?_, ?_, ?_, by simp⟩
  · simpa using congrArg String.toList he
  · simp only [Route.ofString, htext]
    rw [List.head?_append, Option.or_of_isSome (by simpa using hchars)]
  · simp only [Route.ofString, htext, List.map_nil, List.append_nil]
    exact filterMap_splitOn_append _ (by simp)

theorem join {s : String} (hne : given ≠ "") (hs : IsName s) :
    IsBehind given (Path.join given s) [s] ∧ (Route.ofString (Path.join given s)).endsInDirectory = false := by
  have hroute := Path.route_join hne hs
  have hstart : s.startsWith "/" = false := by
    simpa using @Path.not_startsWith_slash [s] (by simpa using hs)
  have hempty : given.isEmpty = false := by simpa using hne
  refine ⟨⟨?_, by rw [hroute], by rw [hroute]; rfl, ?_⟩, by rw [hroute]⟩
  · rintro he
    have hsteps := congrArg Route.steps hroute
    rw [he] at hsteps
    simp [Route.ofString, Text.splitOn, Step.ofPiece?] at hsteps
  · simp only [Path.join, hstart, hempty, Bool.or_self, Bool.false_eq_true, if_false]
    split <;> simp

/-- Names that are joined to a path are behind it. -/
theorem intercalate (hne : given ≠ "") (hnames : names ≠ []) (h : ∀ s ∈ names, IsName s) :
    IsBehind given (Path.join given ("/".intercalate names)) names ∧
      (Route.ofString (Path.join given ("/".intercalate names))).endsInDirectory = false := by
  induction names using List.reverseRecOn with
  | nil => exact absurd rfl hnames
  | append_singleton front s ih =>
      have hs : IsName s := h s (by simp)
      by_cases hfront : front = []
      · subst hfront
        simpa using join hne hs
      · obtain ⟨hbehind, -⟩ := ih hfront fun t ht => h t (List.mem_append_left _ ht)
        obtain ⟨hlast, hends⟩ := join hbehind.ne_empty hs
        rw [Path.join_concat hne hfront h]
        exact ⟨hbehind.trans hlast, hends⟩

end IsBehind

namespace Visit

variable {visit : Visit} {start : String}

/-- The path of a visit is behind the start of the walk. -/
theorem isBehind_path (hstart : start ≠ "") (h : ∀ s ∈ visit.names, IsName s) :
    IsBehind start (visit.path start) visit.names := by
  unfold path
  by_cases hempty : visit.names = []
  · rw [if_pos (by simpa using hempty), hempty]
    exact .refl hstart
  · rw [if_neg (by simpa using hempty)]
    exact (IsBehind.intercalate hstart hempty h).1

/-- The path of a visit inside of a directory ends with a name. -/
theorem endsInName_path (hstart : start ≠ "") (hne : visit.names ≠ []) (h : ∀ s ∈ visit.names, IsName s) :
    Path.EndsInName (visit.path start) := by
  unfold path relative
  rw [if_neg (by simpa using hne)]
  obtain ⟨front, s, hnames⟩ := (List.eq_nil_or_concat visit.names).resolve_left hne
  rw [List.concat_eq_append] at hnames
  have hslashes := @Path.withoutEndSlashes_join start _ hne h
  rw [hnames] at h hslashes ⊢
  have hs : IsName s := h s (by simp)
  refine ⟨hslashes, s.toList, ?_, hs.toList_ne.2⟩
  by_cases hfront : front = []
  · subst hfront
    simpa using Path.lastPiece?_join hstart hs
  · have hbehind := (IsBehind.intercalate hstart hfront fun t ht => h t (List.mem_append_left _ ht)).1
    rw [Path.join_concat hstart hfront h, Path.lastPiece?_join hbehind.ne_empty hs]

end Visit

namespace Disk

variable {disk : Disk} {followLast : Bool} {root names : Place} {given path : String}

/-- **A path behind a directory is looked up there.** -/
theorem find_behind (hgiven : disk.find true given = .ok (root, .directory))
    (hbehind : IsBehind given path names) (hnull : ∀ s ∈ names, '\x00' ∉ s.toList)
    (hnames : names ≠ [] ∨ followLast = true)
    (hlinks : ∀ front, front ≠ [] → front <+: names → ∀ target,
      disk.at? (root ++ front) ≠ some (.link target)) :
    disk.find followLast path = (disk.lookUp root names (Route.ofString path).endsInDirectory).map
      fun entry => (root ++ names, entry) := by
  obtain ⟨hcan, ends', hleads⟩ := find_iff_leads.mp hgiven
  have hstart : disk.start path = disk.start given := by rw [start, start, hbehind.isAbsolute_eq]
  have hcan' : disk.CanFollow path := by
    refine ⟨hbehind.ne_empty, fun hmem => ?_, hstart ▸ hcan.holds⟩
    rcases hbehind.null_iff.mp hmem with hmem | ⟨s, hs, hmem⟩
    · exact hcan.noNull hmem
    · exact hnull s hs hmem
  by_cases hempty : names = []
  · subst hempty
    obtain rfl := hnames.resolve_left (by simp)
    obtain ⟨ends'', hagain⟩ := hleads.any_end rfl rfl (Route.ofString path).endsInDirectory
    rw [List.append_nil, lookUp, find_at? hgiven]
    refine find_iff_leads.mpr ⟨hcan', ends'', ?_⟩
    rwa [hstart, hbehind.steps_eq, List.map_nil, List.append_nil]
  · obtain ⟨enter, hfollow⟩ := hleads.follow_append rfl rfl
      (show names.map Step.name ≠ [] by simpa using hempty)
    rw [find, locate_eq_follow hcan', hstart, hbehind.steps_eq, hfollow]
    exact stepThrough_names enter hlinks

/-- **What a walk meets is found by its path**, if that is no link or no link at the end is followed. -/
theorem find_visit {visit : Visit} {start : String} {found : Entry} (hsound : disk.Sound)
    (hstart : disk.find true start = .ok (root, found)) (hdir : found.isDirectory = true)
    (hne : visit.names ≠ []) (hat : disk.at? (root ++ visit.names) = some visit.entry)
    (hlink : visit.entry.isLink = true → followLast = false) :
    disk.find followLast (visit.path start) = .ok (root ++ visit.names, visit.entry) := by
  obtain ⟨hcan, ends, hleads⟩ := find_iff_leads.mp hstart
  have hstorable : ∀ s ∈ visit.names, IsStorable s := fun s hs =>
    hsound.storable hat s (List.mem_append_right _ hs)
  have hnames : ∀ s ∈ visit.names, IsName s := fun s hs => (hstorable s hs).toIsName
  have hbehind := Visit.isBehind_path hcan.ne_empty hnames
  have hends : (Route.ofString (visit.path start)).endsInDirectory = false := by
    unfold Visit.path
    rw [if_neg (by simpa using hne)]
    exact (IsBehind.intercalate hcan.ne_empty hne hnames).2
  have hsame : disk.start (visit.path start) = disk.start start := by
    rw [Disk.start, Disk.start, hbehind.isAbsolute_eq]
  refine find_iff_leads.mpr ⟨⟨hbehind.ne_empty, fun hmem => ?_, hsame ▸ hcan.holds⟩, false, ?_⟩
  · rcases hbehind.null_iff.mp hmem with hmem | ⟨s, hs, hmem⟩
    · exact hcan.noNull hmem
    · exact (hstorable s hs).noNull hmem
  · rw [hsame, hbehind.steps_eq, hends]
    exact hleads.append rfl hdir (by simpa using hne) (hsound.leads_names root visit.names hat (Or.inr ⟨rfl, hlink⟩))

/-- A directory is found by the path of a walk from above, or of one that starts with it. -/
theorem find_visit_directory {start : String} {found entry kind : Entry} (hsound : disk.Sound)
    (hstart : disk.find true start = .ok (root, found)) (hdir : found.isDirectory = true)
    (hat : disk.at? (root ++ names) = some entry) (hinner : entry.isDirectory = true) :
    disk.find true ((Visit.behind root names kind).path start) = .ok (root ++ names, entry) := by
  by_cases hnames : names = []
  · subst hnames
    rw [List.append_nil, find_at? hstart] at hat
    rw [show (Visit.behind root [] kind).path start = start from rfl, hstart, List.append_nil, Option.some.inj hat]
  · refine @find_visit disk true root (.behind root names entry) start found hsound hstart hdir hnames hat fun hlink => ?_
    cases entry with
    | file | directory | history => cases hlink
    | link => cases hinner

/-- A path with a character that no path has leads nowhere. -/
theorem find_null (hbehind : IsBehind given path names) (hnull : ∃ s ∈ names, '\x00' ∈ s.toList) :
    disk.find followLast path = .error .badPath := by
  have hmem := hbehind.null_iff.mpr (Or.inr hnull)
  have hempty : path.isEmpty = false := by simpa using hbehind.ne_empty
  have hcontains : path.toList.contains '\x00' = true := by simpa using hmem
  simp only [find, locate, hempty, hcontains, Bool.false_eq_true, if_false, if_true]

/-- A file in a directory is found by its name. -/
theorem find_name {s : String} {content : ByteArray} {executable : Bool} (hsound : disk.Sound)
    (hgiven : disk.find true given = .ok (root, .directory))
    (hat : disk.at? (root ++ [s]) = some (.file content executable)) :
    disk.find followLast (Path.join given s) = .ok (root ++ [s], .file content executable) := by
  have hs : IsStorable s := hsound.storable hat s (by simp)
  obtain ⟨hbehind, hends⟩ := IsBehind.join (find_iff_leads.mp hgiven).1.ne_empty hs.toIsName
  have hlinks : ∀ front, front ≠ [] → front <+: [s] → ∀ target,
      disk.at? (root ++ front) ≠ some (.link target) := by
    intro front hne hfront target hlink
    obtain rfl : front = [s] := by
      rcases List.prefix_concat_iff.mp (show front <+: [] ++ [s] from hfront) with h | h
      · exact h
      · exact absurd (List.prefix_nil.mp h) hne
    rw [hat] at hlink
    cases hlink
  rw [find_behind hgiven hbehind (by simpa using hs.noNull) (Or.inl (by simp)) hlinks, hends]
  have hsize : ¬ s.utf8ByteSize > maxNameSize := Nat.not_lt.mpr hs.size_le
  simp only [lookUp, if_neg hsize, hat]
  rfl

/-- **The same is read behind two directories in which the same is there.** -/
theorem readText_congr {disk' : Disk} {root' : Place} {given' path' : String}
    (hgiven : disk.find true given = .ok (root, .directory))
    (hgiven' : disk'.find true given' = .ok (root', .directory)) (hbehind : IsBehind given path names)
    (hbehind' : IsBehind given' path' names)
    (hends : names ≠ [] →
      (Route.ofString path').endsInDirectory = (Route.ofString path).endsInDirectory)
    (hsame : ∀ front, front <+: names → disk'.at? (root' ++ front) = disk.at? (root ++ front))
    (hlinks : ∀ front, front ≠ [] → front <+: names → ∀ target,
      disk.at? (root ++ front) ≠ some (.link target)) :
    disk'.readText path' = disk.readText path := by
  have hread : disk'.read path' = disk.read path := by
    by_cases hnull : ∃ s ∈ names, '\x00' ∈ s.toList
    · rw [read, read, find_null hbehind hnull, find_null hbehind' hnull]
    · have hclean : ∀ s ∈ names, '\x00' ∉ s.toList := fun s hs hmem => hnull ⟨s, hs, hmem⟩
      have hlookUp : disk'.lookUp root' names (Route.ofString path').endsInDirectory =
          disk.lookUp root names (Route.ofString path).endsInDirectory := by
        by_cases hempty : names = []
        · subst hempty
          exact lookUp_congr hsame _
        · rw [hends hempty]
          exact lookUp_congr hsame _
      rw [read, read, find_behind hgiven hbehind hclean (Or.inr rfl) hlinks,
        find_behind hgiven' hbehind' hclean (Or.inr rfl) fun front hne hfront target =>
          hsame front hfront ▸ hlinks front hne hfront target, hlookUp]
      cases disk.lookUp root names (Route.ofString path).endsInDirectory with
      | error fault => rfl
      | ok entry => cases entry <;> rfl
  rw [readText, readText, hread]

/-- What is read behind a directory is in a file there. -/
theorem file_of_readText {text : String} (hgiven : disk.find true given = .ok (root, .directory))
    (hbehind : IsBehind given path names)
    (hlinks : ∀ front, front ≠ [] → front <+: names → ∀ target,
      disk.at? (root ++ front) ≠ some (.link target))
    (h : disk.readText path = .ok text) :
    ∃ content executable, disk.at? (root ++ names) = some (.file content executable) ∧
      String.fromUTF8? content = some text := by
  by_cases hnull : ∃ s ∈ names, '\x00' ∈ s.toList
  · simp [readText, read, find_null hbehind hnull] at h
  · have hclean : ∀ s ∈ names, '\x00' ∉ s.toList := fun s hs hmem => hnull ⟨s, hs, hmem⟩
    rw [readText, read, find_behind hgiven hbehind hclean (Or.inr rfl) hlinks] at h
    cases hlook : disk.lookUp root names (Route.ofString path).endsInDirectory with
    | error fault =>
        rw [hlook] at h
        cases h
    | ok entry =>
        rw [hlook] at h
        cases entry with
        | directory | link | history => cases h
        | file content executable =>
            refine ⟨content, executable, at?_of_lookUp hlook, ?_⟩
            dsimp only [Except.map] at h
            split at h
            · rename_i found htext
              rw [htext, Except.ok.inj h]
            · cases h

end Disk

/-! ## Templates -/

namespace Site

/-- The names behind the directory of the templates that the name of a template stands for. -/
def templateNames (name : String) : Place :=
  ((Text.splitOn '/' name.toList).filter (· ≠ [])).map String.ofList

/-- Goes on by a piece of the name of a template. -/
def enterPiece (path : String) (piece : List Char) : String :=
  if piece = [] then if path.endsWith "/" || path.isEmpty then path else path ++ "/"
  else Path.join path (String.ofList piece)

theorem templatePath?_eq (directory name : String) : templatePath? directory name =
    if (Text.splitOn '/' name.toList).any fun piece => piece.head? = some '.' || piece.contains '\\' then none
    else some ((Text.splitOn '/' name.toList).foldl enterPiece directory) := rfl

theorem isName_ofList {piece : List Char} (hne : piece ≠ []) (hslash : '/' ∉ piece)
    (hdot : piece.head? ≠ some '.') : IsName (String.ofList piece) := by
  refine ⟨fun h => ?_, fun h => ?_, fun h => ?_, by simpa using hslash⟩
  all_goals
    have hchars := congrArg String.toList h
    rw [String.toList_ofList] at hchars
  · exact hne (by simpa using hchars)
  · exact hdot (by simp [hchars])
  · exact hdot (by simp [hchars])

/-- A piece of the name of a template leads to a name, or says that only a directory can be meant. -/
theorem enterPiece_behind {path : String} {piece : List Char} (hne : path ≠ "") (hslash : '/' ∉ piece)
    (hdot : piece.head? ≠ some '.') :
    IsBehind path (enterPiece path piece) (([piece].filter (· ≠ [])).map String.ofList) ∧
      ((Route.ofString (enterPiece path piece)).endsInDirectory = true ↔ piece = []) := by
  by_cases hempty : piece = []
  · subst hempty
    have hisEmpty : path.isEmpty = false := by simpa using hne
    simp only [enterPiece, hisEmpty, Bool.or_false, if_true, iff_true]
    by_cases hends : path.endsWith "/" = true
    · rw [if_pos hends]
      refine ⟨.refl hne, ?_⟩
      rw [String.endsWith, String.Slice.endsWith_string_iff, String.copy_toSlice,
        show "/".toList = ['/'] by simp] at hends
      obtain ⟨chars, hchars⟩ := hends
      simp [Route.ofString, ← hchars, Text.splitOn_append_mark]
    · rw [if_neg hends]
      refine ⟨.slash hne, ?_⟩
      simp [Route.ofString, Text.splitOn_append_mark]
  · obtain ⟨hbehind, hends⟩ := IsBehind.join hne (isName_ofList hempty hslash hdot)
    simp only [enterPiece, if_neg hempty, hends]
    simpa [hempty] using hbehind

theorem foldl_enterPiece_behind {path : String} {pieces : List (List Char)} (hne : path ≠ "")
    (h : ∀ piece ∈ pieces, '/' ∉ piece ∧ piece.head? ≠ some '.') :
    IsBehind path (pieces.foldl enterPiece path) ((pieces.filter (· ≠ [])).map String.ofList) ∧
      (pieces ≠ [] →
        ((Route.ofString (pieces.foldl enterPiece path)).endsInDirectory = true ↔
          pieces.getLast? = some [])) := by
  induction pieces generalizing path with
  | nil => exact ⟨.refl hne, fun hnil => absurd rfl hnil⟩
  | cons piece rest ih =>
      obtain ⟨hslash, hdot⟩ := h piece List.mem_cons_self
      obtain ⟨hfirst, hends⟩ := enterPiece_behind hne hslash hdot
      obtain ⟨hmore, hlast⟩ := ih hfirst.ne_empty fun other hother => h other (List.mem_cons_of_mem _ hother)
      refine ⟨?_, fun _ => ?_⟩
      · have hall := hfirst.trans hmore
        rwa [← List.map_append, ← List.filter_append, List.singleton_append] at hall
      · by_cases hrest : rest = []
        · subst hrest
          simpa using hends
        · rw [List.foldl_cons, hlast hrest, List.getLast?_cons_of_ne_nil hrest]

/-- **The name of a template is a path behind the directory of the templates.** -/
theorem templatePath?_behind {directory name path : String} (hne : directory ≠ "")
    (h : templatePath? directory name = some path) :
    IsBehind directory path (templateNames name) ∧
      ((Route.ofString path).endsInDirectory = true ↔ (Text.splitOn '/' name.toList).getLast? = some []) := by
  rw [templatePath?_eq] at h
  split at h
  · cases h
  · rename_i hpieces
    obtain rfl := Option.some.inj h
    simp only [List.any_eq_true, Bool.or_eq_true, decide_eq_true_eq, not_exists, not_and, not_or] at hpieces
    have hfold := foldl_enterPiece_behind hne fun piece hpiece =>
      ⟨Text.not_mem_of_mem_splitOn hpiece, (hpieces piece hpiece).1⟩
    exact ⟨hfold.1, hfold.2 (Text.splitOn_ne_nil '/' name.toList)⟩

/-- No template lies behind a hidden name. -/
theorem head?_templateNames {directory name path : String}
    (h : templatePath? directory name = some path) {s : String} (hs : s ∈ templateNames name) :
    s.toList.head? ≠ some '.' := by
  rw [templatePath?_eq] at h
  split at h
  · cases h
  · rename_i hpieces
    simp only [List.any_eq_true, Bool.or_eq_true, decide_eq_true_eq, not_exists, not_and, not_or] at hpieces
    obtain ⟨piece, hpiece, rfl⟩ := List.mem_map.mp hs
    rw [String.toList_ofList]
    exact (hpieces piece (List.mem_filter.mp hpiece).1).1

end Site

end Stencil.Files
