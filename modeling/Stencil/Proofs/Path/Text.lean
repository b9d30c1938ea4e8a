import Stencil.Files.Disk

/-!
# Paths are read as they are written

A place is written as a slash before each of its names, and whoever reads the text gets the place
back: the file system as the steps that lead there (`Route.ofString_render`), everybody else as the
parts of a path (`Path.ofString_render`). That needs names that can stand between slashes, and those
are the only ones that reading ever yields (`isName_of_mem_route`).

Every theorem on what happens at a *place* meets paths as *text* in between; what is proved here is
all that it has to know about the text.
-/

namespace Stencil

open Files

/-! ## Pieces between slashes -/

namespace Text

variable {mark : Char}

theorem splitOn_eq (chars : List Char) : splitOn mark chars = chars.splitOn mark := by
  induction chars with
  | nil => rfl
  | cons c rest ih =>
      rw [List.splitOn_cons_eq_if_modifyHead, ← ih, splitOn]
      by_cases hc : c = mark
      · simp [hc]
      · cases hs : splitOn mark rest with
        | nil => exact absurd hs (splitOn_ne_nil mark rest)
        | cons part parts => simp [hc]

theorem intercalate_eq_joinWith (parts : List (List Char)) :
    [mark].intercalate parts = joinWith mark parts := by
  induction parts with
  | nil => rfl
  | cons part parts ih =>
      cases parts with
      | nil => simp [joinWith]
      | cons next more => simp [joinWith, ← ih]

/-- Parts are got back from where they were joined. -/
theorem splitOn_joinWith {parts : List (List Char)} (hne : parts ≠ [])
    (h : ∀ part ∈ parts, mark ∉ part) : splitOn mark (joinWith mark parts) = parts := by
  rw [splitOn_eq, ← intercalate_eq_joinWith]
  exact List.splitOn_intercalate mark h hne

theorem not_mem_of_mem_splitOn {chars part : List Char} (h : part ∈ splitOn mark chars) :
    mark ∉ part := by
  induction chars generalizing part with
  | nil =>
      simp only [splitOn, List.mem_singleton] at h
      simp [h]
  | cons c rest ih =>
      unfold splitOn at h
      split at h
      · rcases List.mem_cons.mp h with h | h
        · simp [h]
        · exact ih h
      · rename_i hc
        split at h
        · rename_i first parts hs
          rcases List.mem_cons.mp h with h | h
          · subst h
            have : mark ∉ first := ih (hs ▸ List.mem_cons_self)
            simp [Ne.symm hc, this]
          · exact ih (hs ▸ List.mem_cons_of_mem _ h)
        · simp only [List.mem_singleton] at h
          simp [h, Ne.symm hc]

/-- A row is split at every mark. -/
theorem splitOn_append (chars more : List Char) :
    splitOn mark (chars ++ mark :: more) = splitOn mark chars ++ splitOn mark more := by
  induction chars with
  | nil => simp [splitOn]
  | cons c rest ih =>
      rw [List.cons_append, splitOn, splitOn, ih]
      split
      · rfl
      · cases hs : splitOn mark rest with
        | nil => exact absurd hs (splitOn_ne_nil mark rest)
        | cons part parts => rfl

/-- Rows of parts that are joined have the mark in between. -/
theorem joinWith_append {front back : List (List Char)} (hfront : front ≠ []) (hback : back ≠ []) :
    joinWith mark (front ++ back) = joinWith mark front ++ mark :: joinWith mark back := by
  induction front with
  | nil => exact absurd rfl hfront
  | cons part parts ih =>
      cases parts with
      | nil =>
          obtain ⟨next, more, rfl⟩ := List.exists_cons_of_ne_nil hback
          rfl
      | cons next more =>
          have hrest := ih (by simp)
          simp only [List.cons_append, joinWith] at hrest ⊢
          simp [hrest]

theorem splitOn_append_mark (chars : List Char) :
    splitOn mark (chars ++ [mark]) = splitOn mark chars ++ [[]] :=
  splitOn_append chars []

theorem splitOn_of_not_mem {chars : List Char} (h : mark ∉ chars) : splitOn mark chars = [chars] :=
  splitOn_joinWith (List.cons_ne_nil chars []) (by simpa using h)

/-- The last part is empty only where the mark stands at the end. -/
theorem getLast?_of_splitOn {chars : List Char} (h : (splitOn mark chars).getLast? = some [])
    (hne : chars ≠ []) : chars.getLast? = some mark := by
  induction chars with
  | nil => exact absurd rfl hne
  | cons c rest ih =>
      by_cases hrest : rest = []
      · subst hrest
        by_cases hc : c = mark
        · simp [hc]
        · simp [splitOn, hc] at h
      · rw [List.getLast?_cons_of_ne_nil hrest]
        refine ih ?_ hrest
        unfold splitOn at h
        split at h
        · rwa [List.getLast?_cons_of_ne_nil (splitOn_ne_nil mark rest)] at h
        · cases hs : splitOn mark rest with
          | nil => exact absurd hs (splitOn_ne_nil mark rest)
          | cons part parts =>
              rw [hs] at h
              cases parts with
              | nil => simp at h
              | cons next more => simpa using h

theorem mem_joinWith {parts : List (List Char)} {part : List Char} {c : Char}
    (h : part ∈ parts) (hc : c ∈ part) : c ∈ joinWith mark parts := by
  induction parts with
  | nil => exact absurd h (by simp)
  | cons first more ih =>
      cases more with
      | nil =>
          rw [List.mem_singleton.mp h] at hc
          exact hc
      | cons next more =>
          show c ∈ first ++ mark :: joinWith mark (next :: more)
          rcases List.mem_cons.mp h with h | h
          · exact List.mem_append_left _ (h ▸ hc)
          · exact List.mem_append_right _ (List.mem_cons_of_mem _ (ih h))

theorem exists_of_mem_joinWith {parts : List (List Char)} {c : Char} (hc : c ≠ mark)
    (h : c ∈ joinWith mark parts) : ∃ part ∈ parts, c ∈ part := by
  induction parts with
  | nil => exact absurd h (by simp [joinWith])
  | cons first more ih =>
      cases more with
      | nil => exact ⟨first, by simp, h⟩
      | cons next more =>
          have h : c ∈ first ++ mark :: joinWith mark (next :: more) := h
          rcases List.mem_append.mp h with h | h
          · exact ⟨first, by simp, h⟩
          · obtain ⟨part, hpart, hmem⟩ := ih ((List.mem_cons.mp h).resolve_left hc)
            exact ⟨part, List.mem_cons_of_mem _ hpart, hmem⟩

theorem mem_of_mem_splitOn {chars part : List Char} {c : Char} (h : part ∈ splitOn mark chars)
    (hc : c ∈ part) : c ∈ chars := by
  have hj : c ∈ joinWith mark (splitOn mark chars) := mem_joinWith h hc
  rwa [joinWith_splitOn] at hj

end Text

/-! ## Names -/

namespace Files

/-- A name that can stand between slashes. -/
structure IsName (s : String) : Prop where
  ne_empty : s ≠ ""
  ne_dot : s ≠ "."
  ne_dots : s ≠ ".."
  noSlash : '/' ∉ s.toList

instance (s : String) : Decidable (IsName s) :=
  decidable_of_iff (s ≠ "" ∧ s ≠ "." ∧ s ≠ ".." ∧ '/' ∉ s.toList)
    ⟨fun h => ⟨h.1, h.2.1, h.2.2.1, h.2.2.2⟩, fun h => ⟨h.1, h.2, h.3, h.4⟩⟩

theorem IsName.toList_ne {s : String} (h : IsName s) :
    s.toList ≠ [] ∧ s.toList ≠ ['.'] ∧ s.toList ≠ ['.', '.'] := by
  refine ⟨fun he => h.ne_empty ?_, fun he => h.ne_dot ?_, fun he => h.ne_dots ?_⟩
  · exact String.toList_inj.mp he
  · exact String.toList_inj.mp he
  · exact String.toList_inj.mp he

theorem Step.ofPiece?_name {s : String} (h : IsName s) :
    Step.ofPiece? s.toList = some (.name s) := by
  obtain ⟨h1, h2, h3⟩ := h.toList_ne
  simp [Step.ofPiece?, h1, h2, h3]

theorem isName_of_ofPiece? {piece : List Char} {s : String} (hslash : '/' ∉ piece)
    (h : Step.ofPiece? piece = some (.name s)) : IsName s ∧ s.toList = piece := by
  unfold Step.ofPiece? at h
  split at h
  · exact absurd h (by simp)
  · rename_i hdot
    split at h
    · exact absurd h (by simp)
    · rename_i hdots
      simp only [Option.some.injEq, Step.name.injEq] at h
      subst h
      simp only [Bool.or_eq_true, decide_eq_true_eq, not_or] at hdot
      refine ⟨⟨?_, ?_, ?_, ?_⟩, String.toList_ofList⟩
      · intro he
        exact hdot.1 (by simpa using congrArg String.toList he)
      · intro he
        exact hdot.2 (by simpa using congrArg String.toList he)
      · intro he
        exact hdots (by simpa using congrArg String.toList he)
      · rwa [String.toList_ofList]

/-- Reading a path yields only names that can stand between slashes. -/
theorem isName_of_mem_route {text s : String} (h : Step.name s ∈ (Route.ofString text).steps) :
    IsName s ∧ ∀ c ∈ s.toList, c ∈ text.toList := by
  obtain ⟨piece, hmem, hpiece⟩ := List.mem_filterMap.mp h
  obtain ⟨hname, hchars⟩ := isName_of_ofPiece? (Text.not_mem_of_mem_splitOn hmem) hpiece
  exact ⟨hname, fun c hc => Text.mem_of_mem_splitOn hmem (hchars ▸ hc)⟩

/-- What is neither a slash nor a dot is read as part of a name. -/
theorem exists_name_of_mem {text : String} {c : Char} (hslash : c ≠ '/') (hdot : c ≠ '.')
    (h : c ∈ text.toList) :
    ∃ s, Step.name s ∈ (Route.ofString text).steps ∧ c ∈ s.toList := by
  rw [← Text.joinWith_splitOn '/' text.toList] at h
  obtain ⟨piece, hpiece, hc⟩ := Text.exists_of_mem_joinWith hslash h
  refine ⟨String.ofList piece, List.mem_filterMap.mpr ⟨piece, hpiece, ?_⟩, by simpa using hc⟩
  have hempty : piece ≠ [] := List.ne_nil_of_mem hc
  have hcurrent : piece ≠ ['.'] := fun he => hdot (by simpa [he] using hc)
  have hparent : piece ≠ ['.', '.'] := fun he => hdot (by simpa [he] using hc)
  simp [Step.ofPiece?, hempty, hcurrent, hparent]

/-- Slashes at the end of a path are no steps. -/
theorem filterMap_splitOn_append (chars : List Char) {slashes : List Char}
    (h : ∀ c ∈ slashes, c = '/') :
    (Text.splitOn '/' (chars ++ slashes)).filterMap Step.ofPiece? =
      (Text.splitOn '/' chars).filterMap Step.ofPiece? := by
  induction slashes generalizing chars with
  | nil => rw [List.append_nil]
  | cons c slashes ih =>
      obtain rfl : c = '/' := h c List.mem_cons_self
      rw [← List.singleton_append, ← List.append_assoc, ih _ fun d hd =>
        h d (List.mem_cons_of_mem _ hd),
        Text.splitOn_append_mark, List.filterMap_append]
      simp [Step.ofPiece?]

theorem Disk.exists_withoutEndSlashes (path : String) :
    ∃ slashes, path.toList = (withoutEndSlashes path).toList ++ slashes ∧ (∀ c ∈ slashes, c = '/') ∧
      (withoutEndSlashes path = "" → path = "") := by
  have hall := List.takeWhile_append_dropWhile (p := fun c => decide (c = '/')) (l :=
    path.toList.reverse)
  unfold withoutEndSlashes
  cases hchars : path.toList.reverse.dropWhile (· = '/') with
  | nil => exact ⟨[], by simp, by simp, id⟩
  | cons last front =>
      refine ⟨(path.toList.reverse.takeWhile (· = '/')).reverse, ?_, ?_, ?_⟩
      · rw [hchars] at hall
        rw [String.toList_ofList, ← List.reverse_append, hall, List.reverse_reverse]
      · intro c hc
        simpa using (List.all_eq_true.mp List.all_takeWhile) c (List.mem_reverse.mp hc)
      · intro hempty
        have hnil := congrArg String.toList hempty
        rw [String.toList_ofList] at hnil
        exact absurd hnil (by simp)

/-- Without the slashes at its end a path has the same steps. -/
theorem Route.steps_withoutEndSlashes (path : String) :
    (Route.ofString (Disk.withoutEndSlashes path)).steps = (Route.ofString path).steps := by
  obtain ⟨slashes, hpath, hslashes, _⟩ := Disk.exists_withoutEndSlashes path
  simp only [Route.ofString, hpath, filterMap_splitOn_append _ hslashes]

theorem Route.isAbsolute_withoutEndSlashes (path : String) :
    (Route.ofString (Disk.withoutEndSlashes path)).isAbsolute = (Route.ofString path).isAbsolute := by
  obtain ⟨slashes, hpath, hslashes, hempty⟩ := Disk.exists_withoutEndSlashes path
  by_cases h : Disk.withoutEndSlashes path = ""
  · rw [h, hempty h]
  · have hne : (Disk.withoutEndSlashes path).toList ≠ [] := fun he => h (String.toList_inj.mp he)
    simp only [Route.ofString, hpath]
    rw [List.head?_append, Option.or_of_isSome (by simpa using hne)]

/-- No slash is left at the end of a path that has any steps. -/
theorem Disk.getLast?_withoutEndSlashes {path : String} (h : (Route.ofString path).steps ≠ []) :
    (withoutEndSlashes path).toList.getLast? ≠ some '/' := by
  unfold withoutEndSlashes
  cases hchars : path.toList.reverse.dropWhile (· = '/') with
  | nil =>
      have hall : ∀ c ∈ path.toList, c = '/' := by
        have hsame := List.takeWhile_append_dropWhile (p := fun c => decide (c = '/')) (l :=
          path.toList.reverse)
        rw [hchars, List.append_nil] at hsame
        intro c hc
        have hmem : c ∈ path.toList.reverse := List.mem_reverse.mpr hc
        rw [← hsame] at hmem
        simpa using List.all_eq_true.mp List.all_takeWhile c hmem
      refine absurd ?_ h
      simpa [Route.ofString, Text.splitOn, Step.ofPiece?] using filterMap_splitOn_append [] hall
  | cons last front =>
      simp only [String.toList_ofList, List.getLast?_reverse, List.head?_cons]
      intro hlast
      have hdrop := List.head?_dropWhile_not (fun c => decide (c = '/')) path.toList.reverse
      rw [hchars] at hdrop
      simp_all

/-- Pieces without text lead nowhere. -/
theorem Route.steps_of_pieces (path : String) : (Route.ofString path).steps =
    ((Text.splitOn '/' path.toList).filter (· ≠ [])).filterMap Step.ofPiece? := by
  rw [List.filterMap_filter]
  refine congrArg (List.filterMap · _) (funext fun piece => ?_)
  by_cases hnil : piece = []
  · simp [hnil, Step.ofPiece?]
  · simp [hnil]

/-- A path whose last piece is a name leads there by a last step of that name. -/
theorem Disk.exists_steps_of_lastPiece? {path : String} {piece : List Char} (h : Disk.lastPiece? path = some piece)
    (hdot : piece ≠ ['.']) (hdots : piece ≠ ['.', '.']) :
    ∃ front, (Route.ofString path).steps = front ++ [.name (String.ofList piece)] := by
  obtain ⟨front, hpieces⟩ := List.getLast?_eq_some_iff.mp h
  have hne : piece ≠ [] := by
    rintro rfl
    have hmem : ([] : List Char) ∈ (Text.splitOn '/' path.toList).filter (· ≠ []) := by
      rw [hpieces]
      exact List.mem_append_right _ List.mem_cons_self
    simpa using (List.mem_filter.mp hmem).2
  refine ⟨front.filterMap Step.ofPiece?, ?_⟩
  rw [Route.steps_of_pieces, hpieces, List.filterMap_append]
  simp [Step.ofPiece?, hne, hdot, hdots]

/-- A path whose last step is a name ends with it, or with a dot. -/
theorem Disk.exists_lastPiece? {path s : String} {front : List Step}
    (h : (Route.ofString path).steps = front ++ [.name s]) (hdot : lastPiece? path ≠ some ['.']) :
    ∃ piece, lastPiece? path = some piece ∧ piece ≠ ['.'] ∧ piece ≠ ['.', '.'] := by
  rw [Route.steps_of_pieces] at h
  cases hpiece : lastPiece? path with
  | none =>
      rw [List.getLast?_eq_none_iff.mp hpiece] at h
      simp at h
  | some piece =>
      refine ⟨piece, rfl, fun heq => hdot (heq ▸ hpiece), ?_⟩
      rintro rfl
      obtain ⟨pieces, hpieces⟩ := List.getLast?_eq_some_iff.mp hpiece
      rw [hpieces, List.filterMap_append] at h
      simpa [Step.ofPiece?] using congrArg List.getLast? h

/-- A path without slashes at its end can only mean a directory if it ends with a dot. -/
theorem Disk.lastPiece?_of_endsInDirectory {path : String} (hne : withoutEndSlashes path ≠ "")
    (hend : (withoutEndSlashes path).toList.getLast? ≠ some '/')
    (h : (Route.ofString (withoutEndSlashes path)).endsInDirectory = true) :
      lastPiece? path = some ['.'] := by
  obtain ⟨slashes, hpath, hslashes, _⟩ := exists_withoutEndSlashes path
  have hchars : (withoutEndSlashes path).toList ≠ [] := fun he => hne (String.toList_inj.mp he)
  have hpieces : (Text.splitOn '/' path.toList).filter (· ≠ []) =
      (Text.splitOn '/' (withoutEndSlashes path).toList).filter (· ≠ []) := by
    rw [hpath]
    clear hpath hend h hchars hne
    generalize (withoutEndSlashes path).toList = chars
    induction slashes generalizing chars with
    | nil => rw [List.append_nil]
    | cons c slashes ih =>
        obtain rfl : c = '/' := hslashes c List.mem_cons_self
        rw [← List.singleton_append, ← List.append_assoc,
          ih (fun d hd => hslashes d (List.mem_cons_of_mem _ hd)), Text.splitOn_append_mark,
            List.filter_append]
        simp
  obtain ⟨front, last, hlast⟩ :=
    List.eq_nil_or_concat (Text.splitOn '/' (withoutEndSlashes path).toList)
    |>.resolve_left (Text.splitOn_ne_nil _ _)
  rw [List.concat_eq_append] at hlast
  simp only [Route.ofString, hlast, List.getLast?_append, List.getLast?_singleton, Option.some_or,
    Option.any_some, Bool.or_eq_true, decide_eq_true_eq] at h
  have hfull : last ≠ [] := by
    rintro rfl
    exact hend (Text.getLast?_of_splitOn (by rw [hlast]; simp) hchars)
  rw [lastPiece?, hpieces, hlast, List.filter_append, List.getLast?_append]
  simp [h.resolve_left hfull]

/-! ## Places -/

theorem Place.toList_render (place : Place) :
    place.render.toList = '/' :: Text.joinWith '/' (place.map String.toList) := by
  simp [Place.render, String.toList_intercalate, ← Text.intercalate_eq_joinWith]

theorem splitOn_render {place : Place} (h : ∀ s ∈ place, IsName s) :
    Text.splitOn '/' place.render.toList =
      [] :: if place = [] then [[]] else place.map String.toList := by
  rw [Place.toList_render, Text.splitOn, if_pos rfl]
  by_cases hp : place = []
  · simp [hp, Text.joinWith, Text.splitOn]
  · rw [if_neg hp, Text.splitOn_joinWith (by simpa using hp)]
    intro part hpart
    obtain ⟨s, hs, rfl⟩ := List.mem_map.mp hpart
    exact (h s hs).noSlash

theorem filterMap_ofPiece? {place : Place} (h : ∀ s ∈ place, IsName s) :
    (place.map String.toList).filterMap Step.ofPiece? = place.map Step.name := by
  induction place with
  | nil => rfl
  | cons s rest ih =>
      rw [List.map_cons, List.filterMap_cons_some (Step.ofPiece?_name (h s List.mem_cons_self)),
        ih fun t ht => h t (List.mem_cons_of_mem _ ht), List.map_cons]

/-- The text of a place is read as the steps that lead there from the root. -/
theorem Route.ofString_render {place : Place} (h : ∀ s ∈ place, IsName s) :
    Route.ofString place.render =
      { isAbsolute := true, steps := place.map .name, endsInDirectory := place.isEmpty } := by
  have hhead : place.render.toList.head? = some '/' := by rw [Place.toList_render]; rfl
  simp only [Route.ofString, splitOn_render h, hhead, Route.mk.injEq]
  refine ⟨by simp, ?_, ?_⟩
  · by_cases hp : place = []
    · simp [hp, Step.ofPiece?]
    · simp [hp, Step.ofPiece?, filterMap_ofPiece? h]
  · rcases List.eq_nil_or_concat place with rfl | ⟨front, last, rfl⟩
    · simp
    · have hl := (h last (by simp)).toList_ne
      simp [List.getLast?_cons, hl.1, hl.2.1]

end Files

namespace Path

theorem part?_name {s : String} (h : IsName s) : part? s.toList = some (.name s) := by
  obtain ⟨h1, h2, h3⟩ := h.toList_ne
  simp [part?, h1, h2, h3]

theorem render_place (place : Place) : render (.root :: place.map .name) = place.render := by
  simp [render, Place.render, partText, Function.comp_def]

/-- The text of a place is read as the path of its names behind the root. -/
theorem ofString_render {place : Place} (h : ∀ s ∈ place, IsName s) :
    ofString place.render = .root :: place.map .name := by
  have hsplit := splitOn_render h
  rw [Place.toList_render, Text.splitOn, if_pos rfl, List.cons.injEq] at hsplit
  have hnames : (place.map String.toList).filterMap part? = place.map Part.name := by
    clear hsplit
    induction place with
    | nil => rfl
    | cons s rest ih =>
        rw [List.map_cons, List.filterMap_cons_some (part?_name (h s List.mem_cons_self)),
          ih fun t ht => h t (List.mem_cons_of_mem _ ht), List.map_cons]
  simp only [ofString, Place.toList_render, head, hsplit.2]
  by_cases hp : place = []
  · simp [hp, part?]
  · simp [hp, hnames]

theorem not_startsWith_slash {names : Place} (h : ∀ s ∈ names, IsName s) :
    ("/".intercalate names).startsWith "/" = false := by
  rw [String.startsWith_string_eq_false_iff, String.toList_intercalate]
  cases names with
  | nil => simp
  | cons s rest =>
      have hs := h s List.mem_cons_self
      cases hchars : s.toList with
      | nil => exact absurd hchars hs.toList_ne.1
      | cons c chars =>
          have hc : c ≠ '/' := fun he => hs.noSlash (by simp [hchars, he])
          cases rest <;> simp [hchars, Ne.symm hc]

theorem name_not_startsWith_slash {s : String} (hs : IsName s) : s.startsWith "/" = false := by
  simpa using @not_startsWith_slash [s] (by simpa using hs)

theorem startsWith_render (place : Place) : place.render.startsWith "/" = true := by
  rw [String.startsWith_string_iff, Place.render, String.toList_append]
  exact List.prefix_append _ _

/-- What is joined to a path starts as the path does. -/
theorem startsWith_join {directory relative : String} (hdirectory : directory ≠ "")
    (hrelative : relative.startsWith "/" = false) :
    (join directory relative).startsWith "/" = directory.startsWith "/" := by
  have hchars : directory.toList ≠ [] := fun hnil => hdirectory (String.toList_inj.mp hnil)
  obtain ⟨c, rest, hdir⟩ := List.exists_cons_of_ne_nil hchars
  have hempty : directory.isEmpty = false := by simpa using hdirectory
  rw [join, hrelative, hempty, Bool.or_self, if_neg Bool.false_ne_true, Bool.eq_iff_iff]
  split <;> simp [String.startsWith_string_iff, hdir]

/-- The text of a place ends with its last name. -/
theorem render_concat (front : Place) (last : String) :
    ∃ text : String, Place.render (front ++ [last]) = text ++ last := by
  cases front with
  | nil => exact ⟨"/", by simp [Place.render]⟩
  | cons s rest =>
      refine ⟨"/" ++ ("/".intercalate (s :: rest) ++ "/"), ?_⟩
      rw [Place.render, String.intercalate_append_of_ne_nil (by simp) (by simp)]
      simp [String.append_assoc]

/-- No slash stands behind a name. -/
theorem not_endsWith_slash (text : String) {s : String} (hs : IsName s) : (text ++ s).endsWith "/" = false := by
  rw [Bool.eq_false_iff, ne_eq, String.endsWith, String.Slice.endsWith_string_iff, String.copy_toSlice,
    show "/".toList = ['/'] by simp, List.singleton_suffix_iff_getLast?_eq_some, String.toList_append,
    List.getLast?_append, List.getLast?_eq_some_getLast hs.toList_ne.1, Option.some_or, Option.some.injEq]
  exact fun hlast => hs.noSlash (hlast ▸ List.getLast_mem hs.toList_ne.1)

theorem endsWith_slash_render {place : Place} (h : ∀ s ∈ place, IsName s) :
    place.render.endsWith "/" = place.isEmpty := by
  rcases List.eq_nil_or_concat place with rfl | ⟨front, last, rfl⟩
  · rw [Bool.eq_iff_iff, String.endsWith, String.Slice.endsWith_string_iff, String.copy_toSlice]
    simp [Place.render]
  · obtain ⟨text, htext⟩ := render_concat front last
    rw [List.concat_eq_append, htext, not_endsWith_slash text (h last (by simp))]
    simp

/-- Names behind a place are joined to its text. -/
theorem join_render {place names : Place} (hplace : ∀ s ∈ place, IsName s)
    (hnames : ∀ s ∈ names, IsName s) (hne : names ≠ []) :
    join place.render ("/".intercalate names) = Place.render (place ++ names) := by
  have hempty : place.render.isEmpty = false := by
    rw [Bool.eq_false_iff]
    simp [Place.render]
  rw [join, not_startsWith_slash hnames, hempty, endsWith_slash_render hplace]
  cases place with
  | nil => simp [Place.render]
  | cons s rest =>
      rw [Place.render, Place.render, String.intercalate_append_of_ne_nil (by simp) hne]
      simp [String.append_assoc]

theorem filterMap_splitOn_append (chars : List Char) :
    (Text.splitOn '/' (chars ++ ['/'])).filterMap part? =
      (Text.splitOn '/' chars).filterMap part? := by
  rw [Text.splitOn_append_mark, List.filterMap_append]
  simp [part?]

/-- A name behind a path stands behind a slash, and in front of that is what the path says. -/
theorem exists_toList_join {directory s : String} (hne : directory ≠ "") (hs : IsName s) :
    ∃ chars, (join directory s).toList = chars ++ '/' :: s.toList ∧
      (Text.splitOn '/' chars).filterMap Step.ofPiece? = (Route.ofString directory).steps ∧
      (chars ++ '/' :: s.toList).head? = directory.toList.head? := by
  have hstart := name_not_startsWith_slash hs
  have hempty : directory.isEmpty = false := by simpa using hne
  by_cases hslash : directory.endsWith "/" = true
  · obtain ⟨chars, hchars⟩ : ∃ chars, directory.toList = chars ++ ['/'] := by
      rw [String.endsWith, String.Slice.endsWith_string_iff, String.copy_toSlice,
        show "/".toList = ['/'] by simp] at hslash
      obtain ⟨chars, hchars⟩ := hslash
      exact ⟨chars, hchars.symm⟩
    refine ⟨chars, by simp [join, hstart, hempty, hslash, hchars], ?_, ?_⟩
    · simp [Route.ofString, hchars, Text.splitOn_append_mark, Step.ofPiece?]
    · rw [hchars]
      cases chars <;> rfl
  · have hchars : directory.toList ≠ [] := fun he => hne (String.toList_inj.mp he)
    refine ⟨directory.toList, by simp [join, hstart, hempty, hslash], rfl, ?_⟩
    rw [List.head?_append, Option.or_of_isSome (by simpa using hchars)]

/-- A name behind a path is the last step. -/
theorem route_join {directory s : String} (hne : directory ≠ "") (hs : IsName s) :
    Route.ofString (join directory s) =
      { isAbsolute := (Route.ofString directory).isAbsolute
        steps := (Route.ofString directory).steps ++ [.name s]
        endsInDirectory := false } := by
  obtain ⟨chars, hjoin, hsteps, hhead⟩ := exists_toList_join hne hs
  have hsplit : Text.splitOn '/' (join directory s).toList = Text.splitOn '/' chars ++
      [s.toList] := by
    rw [hjoin, Text.splitOn_append, Text.splitOn_of_not_mem hs.noSlash]
  obtain ⟨hnil, hdot, _⟩ := hs.toList_ne
  rw [Route.ofString, Route.mk.injEq]
  refine ⟨?_, ?_, ?_⟩
  · rw [hjoin, hhead]
    rfl
  · rw [hsplit, List.filterMap_append, hsteps]
    simp [Step.ofPiece?_name hs]
  · rw [hsplit]
    simp [hnil, hdot]

/-- Whether a path ends with a name, so that what it finds can be taken away by it. -/
structure EndsInName (path : String) : Prop where
  withoutEndSlashes_eq : Disk.withoutEndSlashes path = path
  last : ∃ s, Disk.lastPiece? path = some s ∧ s ≠ ['.'] ∧ s ≠ ['.', '.']

/-- A path that ends with a name has no slashes at its end. -/
theorem withoutEndSlashes_append {text s : String} (hs : IsName s) :
    Disk.withoutEndSlashes (text ++ s) = text ++ s := by
  obtain ⟨slashes, hpath, hslashes, -⟩ := Disk.exists_withoutEndSlashes (text ++ s)
  rcases List.eq_nil_or_concat slashes with rfl | ⟨more, c, rfl⟩
  · rw [List.append_nil] at hpath
    exact (String.toList_inj.mp hpath).symm
  · obtain rfl : c = '/' := hslashes c (by simp)
    have hlast := congrArg List.getLast? hpath
    rw [String.toList_append, List.getLast?_append, List.concat_eq_append, ← List.append_assoc,
      List.getLast?_concat] at hlast
    obtain ⟨last, hsome⟩ := Option.ne_none_iff_exists'.mp (mt List.getLast?_eq_none_iff.mp hs.toList_ne.1)
    rw [hsome, Option.some_or, Option.some.injEq] at hlast
    exact absurd (hlast ▸ List.mem_of_getLast? hsome) hs.noSlash

/-- A name behind a path is its last piece. -/
theorem lastPiece?_join {directory s : String} (hne : directory ≠ "") (hs : IsName s) :
    Disk.lastPiece? (join directory s) = some s.toList := by
  obtain ⟨chars, hjoin, -⟩ := exists_toList_join hne hs
  rw [Disk.lastPiece?, hjoin, Text.splitOn_append, Text.splitOn_of_not_mem hs.noSlash, List.filter_append]
  simp [hs.toList_ne.1]

/-- A path with names behind it ends with the last of them. -/
theorem exists_join_eq {directory : String} {names : Place} (hne : names ≠ []) (h : ∀ s ∈ names, IsName s) :
    ∃ text last, IsName last ∧ join directory ("/".intercalate names) = text ++ last := by
  obtain ⟨front, last, rfl⟩ := (List.eq_nil_or_concat names).resolve_left hne
  rw [List.concat_eq_append] at h ⊢
  obtain ⟨text, htext⟩ : ∃ text, "/".intercalate (front ++ [last]) = text ++ last := by
    by_cases hfront : front = []
    · exact ⟨"", by simp [hfront]⟩
    · exact ⟨"/".intercalate front ++ "/", by rw [String.intercalate_append_of_ne_nil hfront (by simp)]; simp⟩
  rw [join, htext]
  split
  · exact ⟨text, last, h last (by simp), rfl⟩
  · split
    · exact ⟨directory ++ text, last, h last (by simp), by rw [String.append_assoc]⟩
    · exact ⟨directory ++ "/" ++ text, last, h last (by simp), by simp [String.append_assoc]⟩

/-- A path with names behind it has no slashes at its end. -/
theorem withoutEndSlashes_join {directory : String} {names : Place} (hne : names ≠ []) (h : ∀ s ∈ names, IsName s) :
    Disk.withoutEndSlashes (join directory ("/".intercalate names)) = join directory ("/".intercalate names) := by
  obtain ⟨text, last, hlast, hjoin⟩ := @exists_join_eq directory names hne h
  rw [hjoin, withoutEndSlashes_append hlast]

/-- Names are joined one after the other. -/
theorem join_concat {directory : String} {names : Place} {s : String} (hdirectory : directory ≠ "")
    (hne : names ≠ []) (h : ∀ t ∈ names ++ [s], IsName t) :
    join directory ("/".intercalate (names ++ [s])) = join (join directory ("/".intercalate names)) s := by
  have hnames : ∀ t ∈ names, IsName t := fun t ht => h t (List.mem_append_left _ ht)
  have hs := name_not_startsWith_slash (h s (by simp))
  have hempty : directory.isEmpty = false := by simpa using hdirectory
  obtain ⟨text, last, hlast, hjoin⟩ := @exists_join_eq directory names hne hnames
  have hends := not_endsWith_slash text hlast
  have hfull : (text ++ last).isEmpty = false := by
    rw [Bool.eq_false_iff, ne_eq, String.isEmpty_iff]
    intro hnil
    have hchars := congrArg String.toList hnil
    rw [String.toList_append, String.toList_empty, List.append_eq_nil_iff] at hchars
    exact hlast.toList_ne.1 hchars.2
  have hrest := not_startsWith_slash h
  rw [String.intercalate_append_of_ne_nil hne (by simp), String.intercalate_singleton] at hrest ⊢
  rw [hjoin, join.eq_def (text ++ last), hs, hfull, hends, ← hjoin]
  simp only [join, hrest, not_startsWith_slash hnames, hempty, Bool.or_self, Bool.false_eq_true, if_false]
  split <;> simp only [String.append_assoc]

end Path

/-! ## Spellings -/

namespace Files

/-- Whether a text is a path of some names from the root, as everybody reads it. -/
structure Spells (path : String) (names : Place) : Prop where
  isName : ∀ s ∈ names, IsName s
  parts_eq : Path.ofString path = .root :: names.map .name
  isAbsolute : (Route.ofString path).isAbsolute = true
  steps_eq : (Route.ofString path).steps = names.map .name

theorem spells_render {names : Place} (h : ∀ s ∈ names, IsName s) :
    Spells (Place.render names) names := by
  refine ⟨h, Path.ofString_render h, ?_, ?_⟩ <;> rw [Route.ofString_render h]

theorem Spells.ne_empty {path : String} {names : Place} (h : Spells path names) : path ≠ "" := by
  rintro rfl
  exact absurd h.isAbsolute (by simp [Route.ofString])

/-- A slash at its end does not matter to a spelling. -/
theorem Spells.append_slash {path : String} {names : Place} (h : Spells path names) :
    Spells (path ++ "/") names := by
  have htext : (path ++ "/").toList = path.toList ++ ['/'] := by simp
  obtain ⟨rest, hrest⟩ : ∃ rest, path.toList = '/' :: rest := by
    have habsolute := h.isAbsolute
    simp only [Route.ofString, decide_eq_true_eq] at habsolute
    exact List.head?_eq_some_iff.mp habsolute
  refine ⟨h.isName, ?_, ?_, ?_⟩
  · rw [← h.parts_eq]
    simp only [Path.ofString, htext, hrest, List.cons_append, Path.head]
    rw [Path.filterMap_splitOn_append]
  · simp [Route.ofString, htext, hrest]
  · rw [← h.steps_eq]
    simp only [Route.ofString, htext]
    exact filterMap_splitOn_append _ (by simp)

end Files

end Stencil
