import Stencil.Files.Walk
import Stencil.Proofs.Path.Behind

/-!
# What is ignored

What is inside of something ignored is ignored (`IgnoreSet.ignoresRelative_inner`), and whether a path is
ignored by some patterns followed by others is known from both (`IgnoreSet.ignoresRelative_append`). The base
has no say in either, since paths are taken relative to it.
-/

namespace Stencil

/-- The text by which patterns know what is behind some names. -/
def Files.Place.slashed (names : Files.Place) : String := Path.toSlash ("/".intercalate names)

namespace IgnoreSet

variable {set : IgnoreSet} {base : String} {first second : List String} {patterns : List IgnorePattern}

/-! ## Inside of what is ignored -/

theorem mem_scan {before chars front : List Char} :
    front ∈ ancestors.scan before chars ↔ ∃ inner outer, chars = inner ++ '/' :: outer ∧
      front = before.reverse ++ inner := by
  induction chars generalizing before with
  | nil => simp [ancestors.scan]
  | cons c rest ih =>
      rw [ancestors.scan, List.mem_append, ih]
      constructor
      · rintro (⟨inner, outer, rfl, rfl⟩ | hhere)
        · exact ⟨c :: inner, outer, rfl, by simp⟩
        · split at hhere
          · rename_i hslash
            exact ⟨[], rest, by rw [hslash]; rfl, by simpa using hhere⟩
          · cases hhere
      · rintro ⟨inner, outer, hchars, rfl⟩
        cases inner with
        | nil =>
            obtain ⟨rfl, rfl⟩ := List.cons.inj hchars
            exact Or.inr (by simp)
        | cons c' inner =>
            obtain ⟨rfl, rfl⟩ := List.cons.inj hchars
            exact Or.inl ⟨inner, outer, rfl, by simp⟩

/-- The front parts of a text end before its slashes. -/
theorem mem_ancestors {chars front : List Char} :
    front ∈ ancestors chars ↔ ∃ outer, chars = front ++ '/' :: outer := by
  rw [ancestors, mem_scan]
  constructor
  · rintro ⟨inner, outer, rfl, rfl⟩
    exact ⟨outer, rfl⟩
  · rintro ⟨outer, rfl⟩
    exact ⟨front, outer, rfl, rfl⟩

/-- **What is inside of something ignored is ignored.** -/
theorem ignoresRelative_inner {outer inner : String} {more : List Char}
    (h : set.ignoresRelative outer = true) (hinner : inner.toList = outer.toList ++ '/' :: more) :
    set.ignoresRelative inner = true := by
  simp only [ignoresRelative, Bool.and_eq_true, Bool.not_eq_true', Bool.or_eq_true, List.any_eq_true] at h ⊢
  refine ⟨?_, Or.inr ?_⟩
  · rw [Bool.eq_false_iff, ne_eq, String.isEmpty_iff]
    rintro rfl
    simp at hinner
  · rcases h.2 with hself | ⟨front, hfront, hmatch⟩
    · exact ⟨outer.toList, mem_ancestors.mpr ⟨more, hinner⟩, by simpa using hself⟩
    · obtain ⟨rest, hrest⟩ := mem_ancestors.mp hfront
      exact ⟨front, mem_ancestors.mpr ⟨rest ++ '/' :: more, by rw [hinner, hrest]; simp⟩, hmatch⟩

theorem toList_slashed (names : Files.Place) :
    names.slashed.toList = (Text.joinWith '/' (names.map String.toList)).map
      fun c => if c = '\\' then '/' else c := by
  rw [Files.Place.slashed, Path.toSlash, String.toList_ofList, String.toList_intercalate,
    ← Text.intercalate_eq_joinWith]
  rfl

/-- **What is behind more names is inside.** -/
theorem ignoresRelative_slashed {names front : Files.Place} (h : set.ignoresRelative front.slashed = true)
    (hlead : front <+: names) : set.ignoresRelative names.slashed = true := by
  obtain ⟨more, rfl⟩ := hlead
  rcases List.eq_nil_or_concat front with rfl | ⟨outer, last, rfl⟩
  · simp [Files.Place.slashed, ignoresRelative, Path.toSlash] at h
  · cases more with
    | nil => rwa [List.append_nil]
    | cons s rest =>
        refine @ignoresRelative_inner _ _ _ (Files.Place.slashed (s :: rest)).toList h ?_
        rw [toList_slashed, toList_slashed, toList_slashed, List.map_append,
          Text.joinWith_append (by simp) (by simp), List.map_append, List.map_cons, if_neg (by decide)]

/-! ## Patterns after others -/

attribute [local irreducible] Glob.parse tidyPattern in
/-- Reads the first pattern, if anything of it is left, and then the others. -/
theorem parsePatterns_cons (pattern : String) (rest : List String) :
    parsePatterns (pattern :: rest) =
      if (tidyPattern pattern).isEmpty then parsePatterns rest
      else match Glob.parse (tidyPattern pattern) with
        | .error fault => .error { pattern := tidyPattern pattern, fault }
        | .ok pieces =>
          match parsePatterns rest with
          | .error fault => .error fault
          | .ok patterns => .ok ({ text := tidyPattern pattern, pieces } :: patterns) := rfl

theorem parsePatterns_append (first second : List String) :
    parsePatterns (first ++ second) =
      match parsePatterns first with
      | .error fault => .error fault
      | .ok patterns => (parsePatterns second).map (patterns ++ ·) := by
  induction first with
  | nil =>
      have hnil : parsePatterns [] = .ok [] := rfl
      rw [hnil, List.nil_append]
      generalize parsePatterns second = parsed
      cases parsed <;> rfl
  | cons pattern rest ih =>
      rw [List.cons_append, parsePatterns_cons, parsePatterns_cons, ih]
      generalize tidyPattern pattern = text
      generalize Glob.parse text = parsed
      generalize parsePatterns rest = found
      generalize parsePatterns second = other
      split
      · rfl
      · cases parsed with
        | error fault => rfl
        | ok pieces => cases found with
          | error fault => rfl
          | ok patterns => cases other <;> rfl

/-- Patterns and others can be read together only if both can. -/
theorem exists_of_parsePatterns_append (h : parsePatterns (first ++ second) = .ok patterns) :
    ∃ parsed more, parsePatterns first = .ok parsed ∧ parsePatterns second = .ok more := by
  rw [parsePatterns_append] at h
  split at h
  · cases h
  · rename_i parsed hfirst
    cases hsecond : parsePatterns second with
    | error fault =>
        rw [hsecond] at h
        cases h
    | ok more => exact ⟨parsed, more, hfirst, rfl⟩

/-- A path is ignored by patterns and others if it is by either. -/
theorem ignoresRelative_append (base : String) (first second : List IgnorePattern) (relative : String) :
    ignoresRelative { base, patterns := first ++ second } relative =
      (ignoresRelative { base, patterns := first } relative ||
        ignoresRelative { base, patterns := second } relative) := by
  simp only [ignoresRelative, matchesAny, List.any_append]
  cases relative.isEmpty with
  | true => rfl
  | false =>
      simp only [Bool.not_false, Bool.true_and]
      rw [Bool.eq_iff_iff]
      simp only [Bool.or_eq_true, List.any_eq_true]
      constructor
      · rintro ((h | h) | ⟨front, hfront, h | h⟩)
        · exact Or.inl (Or.inl h)
        · exact Or.inr (Or.inl h)
        · exact Or.inl (Or.inr ⟨front, hfront, h⟩)
        · exact Or.inr (Or.inr ⟨front, hfront, h⟩)
      · rintro ((h | ⟨front, hfront, h⟩) | h | ⟨front, hfront, h⟩)
        · exact Or.inl (Or.inl h)
        · exact Or.inr ⟨front, hfront, Or.inl h⟩
        · exact Or.inl (Or.inr h)
        · exact Or.inr ⟨front, hfront, Or.inr h⟩

/-- A set of patterns is that of some patterns and of others. -/
theorem ofPatterns_append (base : String) (second : List String) (h : parsePatterns first = .ok patterns) :
    ofPatterns base (first ++ second) = (parsePatterns second).map fun more =>
      { base, patterns := patterns ++ more } := by
  rw [ofPatterns, parsePatterns_append, h]
  cases parsePatterns second <;> rfl

theorem base_of_ofPatterns {base : String} {patterns : List String} (h : ofPatterns base patterns = .ok set) :
    set.base = base := by
  unfold ofPatterns at h
  split at h
  · cases h
  · rw [← Except.ok.inj h]

theorem parsePatterns_of_ofPatterns {all : List String} (h : ofPatterns base all = .ok set) :
    parsePatterns all = .ok set.patterns := by
  unfold ofPatterns at h
  split at h
  · cases h
  · rename_i parsed hparsed
    rw [hparsed, ← Except.ok.inj h]

/-- Whether patterns ignore what some names lead to; patterns that cannot be read ignore nothing. -/
def ignoredBy (patterns : List String) (names : Files.Place) : Bool :=
  match parsePatterns patterns with
  | .ok parsed => ignoresRelative { base := "", patterns := parsed } names.slashed
  | .error _ => false

theorem ignoresRelative_eq_ignoredBy {all : List String} (h : ofPatterns base all = .ok set)
    (names : Files.Place) : set.ignoresRelative names.slashed = ignoredBy all names := by
  unfold ofPatterns at h
  unfold ignoredBy
  split at h
  · cases h
  · rename_i parsed hparsed
    rw [hparsed, ← Except.ok.inj h]
    rfl

theorem ignoredBy_inner {all : List String} {names front : Files.Place} (h : ignoredBy all front = true)
    (hlead : front <+: names) : ignoredBy all names = true := by
  unfold ignoredBy at h ⊢
  split at h
  · exact ignoresRelative_slashed h hlead
  · cases h

theorem ignoredBy_append {more : List IgnorePattern} (hfirst : parsePatterns first = .ok patterns)
    (hsecond : parsePatterns second = .ok more) (names : Files.Place) :
    ignoredBy (first ++ second) names = (ignoredBy first names || ignoredBy second names) := by
  unfold ignoredBy
  rw [parsePatterns_append, hfirst, hsecond]
  exact ignoresRelative_append _ _ _ _

/-! ## Pattern by pattern -/

/-- Each of some patterns that can be read can be read alone. -/
theorem exists_of_parsePatterns_mem {all : List String} {pattern : String} (h : parsePatterns all = .ok patterns)
    (hmem : pattern ∈ all) : ∃ parsed, parsePatterns [pattern] = .ok parsed := by
  obtain ⟨front, rest, rfl⟩ := List.append_of_mem hmem
  obtain ⟨_, _, -, hback⟩ := exists_of_parsePatterns_append h
  rw [← List.singleton_append] at hback
  obtain ⟨parsed, _, hparsed, -⟩ := exists_of_parsePatterns_append hback
  exact ⟨parsed, hparsed⟩

/-- Some of the patterns can be read if all can. -/
theorem exists_of_parsePatterns_subset {all few : List String} (h : parsePatterns all = .ok patterns)
    (hsub : ∀ pattern ∈ few, pattern ∈ all) : ∃ parsed, parsePatterns few = .ok parsed := by
  induction few with
  | nil => exact ⟨[], rfl⟩
  | cons pattern rest ih =>
      obtain ⟨parsed, hparsed⟩ := exists_of_parsePatterns_mem h (hsub pattern List.mem_cons_self)
      obtain ⟨others, hothers⟩ := ih fun other hother => hsub other (List.mem_cons_of_mem _ hother)
      have happend := parsePatterns_append [pattern] rest
      rw [hparsed, hothers] at happend
      exact ⟨parsed ++ others, happend⟩

/-- **What is ignored is ignored by one of the patterns**, and their order plays no part. -/
theorem ignoredBy_iff_exists {all : List String} (h : parsePatterns all = .ok patterns) (names : Files.Place) :
    ignoredBy all names = true ↔ ∃ pattern ∈ all, ignoredBy [pattern] names = true := by
  induction all generalizing patterns with
  | nil =>
      have hnil : parsePatterns [] = .ok [] := rfl
      rw [ignoredBy, hnil]
      simp [ignoresRelative, matchesAny]
  | cons pattern rest ih =>
      rw [← List.singleton_append] at h
      obtain ⟨first, second, hfirst, hsecond⟩ := exists_of_parsePatterns_append h
      rw [← List.singleton_append, ignoredBy_append hfirst hsecond, Bool.or_eq_true, ih hsecond]
      simp

/-- What names below the base lead to is ignored by its path, or from the base. -/
theorem ignores_join {set : IgnoreSet} {names : Files.Place} (hbase : set.base ≠ "") (hne : names ≠ [])
    (h : ∀ s ∈ names, Files.IsName s) :
    set.ignores (Path.join set.base ("/".intercalate names)) = set.ignoresRelative names.slashed := by
  rw [ignores, Path.below?_join hbase hne h]
  rfl

end IgnoreSet

end Stencil
