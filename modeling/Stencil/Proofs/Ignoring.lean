import Stencil.Proofs.Ignore
import Stencil.Proofs.Path.Relative

/-!
# Ignored for the sake of a front

A path is ignored for the sake of a few texts: what is left of it behind the base, and the fronts of that which end
before a slash. One of them must be hit by one of the patterns. What hitting means plays no part, so it is left open
here (`IgnoreSet.ignoresBy`); with globs it is what the program decides (`IgnoreSet.ignores_eq_ignoresBy`).

All else follows from that. The fronts of a text are among those of a text that goes on from it, so what is joined to an
ignored path is ignored with it, and of the patterns it only counts which there are. It is the text that counts, though:
a path to the same place, or to a place inside, is not ignored with another if it is written in another way.
-/

namespace Stencil

open Stencil.Path (below? join ofString startsWith toSlash GoesOn)

theorem Path.toSlash_eq_empty_iff {text : String} : toSlash text = "" ↔ text = "" := by
  rw [toSlash, ← String.toList_inj, String.toList_ofList, String.toList_empty, List.map_eq_nil_iff,
    String.toList_eq_nil_iff]

theorem Path.GoesOn.trans {first second third : String} (h : GoesOn first second) (h' : GoesOn second third) :
    GoesOn first third := by
  rcases h with rfl | ⟨more, hmore⟩
  · exact h'
  · rcases h' with rfl | ⟨rest, hrest⟩
    · exact Or.inr ⟨more, hmore⟩
    · exact Or.inr ⟨more ++ '/' :: rest, by rw [hrest, hmore]; simp⟩

/-- A slash stays a slash. -/
theorem Path.GoesOn.toSlash {text further : String} (h : GoesOn text further) :
    GoesOn (toSlash text) (toSlash further) := by
  rcases h with rfl | ⟨more, hmore⟩
  · exact Or.inl rfl
  · exact Or.inr ⟨more.map fun c => if c = '\\' then '/' else c, by simp [Path.toSlash, hmore]⟩

namespace IgnoreSet

variable {set : IgnoreSet} {base path : String} {patterns others : List String} {hits : String → String → Bool}

/-- The patterns of which something is left. -/
def tidied (patterns : List String) : List String := (patterns.map tidyPattern).filter (!·.isEmpty)

theorem mem_tidied {text : String} :
    text ∈ tidied patterns ↔ ∃ pattern ∈ patterns, tidyPattern pattern ≠ "" ∧ tidyPattern pattern = text := by
  simp only [tidied, List.mem_filter, List.mem_map, Bool.not_eq_true', String.isEmpty_eq_false_iff]
  constructor
  · rintro ⟨⟨pattern, hpattern, rfl⟩, hne⟩
    exact ⟨pattern, hpattern, hne, rfl⟩
  · rintro ⟨pattern, hpattern, hne, rfl⟩
    exact ⟨⟨pattern, hpattern, rfl⟩, hne⟩

/-- Whether a path is ignored, whichever texts a pattern hits. -/
def ignoresBy (hits : String → String → Bool) (base : String) (patterns : List String) (path : String) : Bool :=
  match below? base path with
  | some relative =>
    let hit (text : String) : Bool := (tidied patterns).any (hits · text)
    !(toSlash relative).isEmpty && (hit (toSlash relative)
      || (ancestors (toSlash relative).toList).any fun chars => hit (String.ofList chars))
  | none => false

/-- Whether a pattern hits a text as a glob. -/
def globHits (pattern text : String) : Bool :=
  match Glob.parse pattern with
  | .ok pieces => Glob.isMatch pieces text
  | .error _ => false

/-! ## What the program decides -/

/-- Patterns that were read hit what their texts hit. -/
theorem any_of_parsePatterns {parsed : List IgnorePattern} (h : parsePatterns patterns = .ok parsed) (text : String) :
    (parsed.any fun pattern => Glob.isMatch pattern.pieces text) = (tidied patterns).any (globHits · text) := by
  induction patterns generalizing parsed with
  | nil =>
      cases h
      rfl
  | cons pattern rest ih =>
      rw [parsePatterns_cons] at h
      rw [tidied, List.map_cons, List.filter_cons, ← tidied]
      split at h
      · -- Of a pattern that is dropped nothing is left to hit anything.
        rename_i hempty
        rw [if_neg (by simp [hempty])]
        exact ih h
      · rename_i hne
        rw [if_pos (by simpa using hne), List.any_cons]
        cases hparse : Glob.parse (tidyPattern pattern) with
        | error fault =>
            rw [hparse] at h
            cases h
        | ok pieces =>
            rw [hparse] at h
            cases hrest : parsePatterns rest with
            | error fault =>
                rw [hrest] at h
                cases h
            | ok more =>
                rw [hrest] at h
                obtain rfl := Except.ok.inj h
                rw [List.any_cons, ih hrest, globHits, hparse]

theorem ignores_eq_ignoresBy (h : ofPatterns base patterns = .ok set) (path : String) :
    set.ignores path = ignoresBy globHits base patterns path := by
  have hmatches : ∀ text, set.matchesAny text = (tidied patterns).any (globHits · text) := fun text =>
    any_of_parsePatterns (parsePatterns_of_ofPatterns h) text
  rw [ignores, ignoresBy, base_of_ofPatterns h]
  cases below? base path with
  | none => rfl
  | some relative => simp only [ignoresRelative, hmatches]

/-! ## Fronts that are hit -/

/-- **A path is ignored if a pattern hits what is left of it**, or a front of that. -/
theorem ignoresBy_iff : ignoresBy hits base patterns path = true ↔ ∃ relative, below? base path = some relative ∧
    relative ≠ "" ∧ ∃ pattern ∈ patterns, tidyPattern pattern ≠ "" ∧
      ∃ front, GoesOn front (toSlash relative) ∧ hits (tidyPattern pattern) front = true := by
  have hany : ∀ text, (tidied patterns).any (hits · text) = true ↔
      ∃ pattern ∈ patterns, tidyPattern pattern ≠ "" ∧ hits (tidyPattern pattern) text = true := by
    intro text
    simp only [List.any_eq_true, mem_tidied]
    constructor
    · rintro ⟨_, ⟨pattern, hpattern, hne, rfl⟩, hhit⟩
      exact ⟨pattern, hpattern, hne, hhit⟩
    · rintro ⟨pattern, hpattern, hne, hhit⟩
      exact ⟨_, ⟨pattern, hpattern, hne, rfl⟩, hhit⟩
  cases hbelow : below? base path with
  | none => simp [ignoresBy, hbelow]
  | some relative =>
      simp only [ignoresBy, hbelow, Bool.and_eq_true, Bool.not_eq_true', String.isEmpty_eq_false_iff, ne_eq,
        Path.toSlash_eq_empty_iff, Bool.or_eq_true, List.any_eq_true (l := ancestors _), hany]
      constructor
      · rintro ⟨hne, ⟨pattern, hpattern, htidy, hhit⟩ | ⟨chars, hchars, pattern, hpattern, htidy, hhit⟩⟩
        · exact ⟨relative, rfl, hne, pattern, hpattern, htidy, _, Or.inl rfl, hhit⟩
        · obtain ⟨rest, hrest⟩ := mem_ancestors.mp hchars
          exact ⟨relative, rfl, hne, pattern, hpattern, htidy, _, Or.inr ⟨rest, by simpa using hrest⟩, hhit⟩
      · rintro ⟨other, hother, hne, pattern, hpattern, htidy, front, hfront, hhit⟩
        obtain rfl := Option.some.inj hother
        -- A front is the whole text, or one of those in the list.
        rcases hfront with rfl | ⟨rest, hrest⟩
        · exact ⟨hne, Or.inl ⟨pattern, hpattern, htidy, hhit⟩⟩
        · have hfront := mem_ancestors.mpr ⟨rest, hrest⟩
          exact ⟨hne, Or.inr ⟨front.toList, hfront, pattern, hpattern, htidy, by simpa using hhit⟩⟩

/-- **A path goes on being ignored** as long as what is left of it goes on. -/
theorem ignoresBy_of_goesOn {inner relative further : String} (h : ignoresBy hits base patterns path = true)
    (hpath : below? base path = some relative) (hinner : below? base inner = some further)
    (hlead : GoesOn (toSlash relative) (toSlash further)) : ignoresBy hits base patterns inner = true := by
  obtain ⟨other, hother, hne, pattern, hpattern, htidy, front, hfront, hhit⟩ := ignoresBy_iff.mp h
  obtain rfl : relative = other := Option.some.inj (hpath.symm.trans hother)
  refine ignoresBy_iff.mpr ⟨further, hinner, ?_, pattern, hpattern, htidy, front, hfront.trans hlead, hhit⟩
  rintro rfl
  rcases hlead with heq | ⟨more, hmore⟩
  · exact hne (Path.toSlash_eq_empty_iff.mp heq.symm)
  · simp [toSlash] at hmore

/-- What is ignored by some patterns is ignored by more. -/
theorem ignoresBy_of_subset (hsub : ∀ pattern ∈ patterns, pattern ∈ others)
    (h : ignoresBy hits base patterns path = true) : ignoresBy hits base others path = true := by
  obtain ⟨relative, hrelative, hne, pattern, hpattern, hhit⟩ := ignoresBy_iff.mp h
  exact ignoresBy_iff.mpr ⟨relative, hrelative, hne, pattern, hsub pattern hpattern, hhit⟩

/-- Only what is strictly behind the base is ignored. -/
theorem behind_of_ignoresBy (h : ignoresBy hits base patterns path = true) :
    startsWith (ofString path) (ofString base) = true ∧ ofString path ≠ ofString base := by
  obtain ⟨relative, hrelative, hne, -⟩ := ignoresBy_iff.mp h
  have hparts := Path.ofString_of_below? hrelative
  exact ⟨List.isPrefixOf_iff_prefix.mpr ⟨_, hparts.symm⟩, mt (Path.eq_empty_iff_of_below? hrelative).mpr hne⟩

/-- **What is ignored is what lies strictly behind the base and has a front that a pattern hits**, whatever it is to
hit. So what goes on from an ignored path is ignored, unless that path is the root; the base and what is not behind it
are not; and it matters which patterns there are, but not their order, while more of them ignore no less. -/
theorem ignored_by_fronts :
    (∀ base patterns set path, ofPatterns base patterns = .ok set →
      set.ignores path = ignoresBy globHits base patterns path) ∧
    ∀ (hits : String → String → Bool) (base : String) (patterns : List String),
      (∀ path, startsWith (ofString path) (ofString base) = true →
        ∃ relative, below? base path = some relative ∧ ofString path = ofString base ++ ofString relative) ∧
      (∀ path, ignoresBy hits base patterns path = true ↔
        startsWith (ofString path) (ofString base) = true ∧ ofString path ≠ ofString base ∧
          ∃ relative, below? base path = some relative ∧ ∃ pattern ∈ patterns, tidyPattern pattern ≠ "" ∧
            ∃ front, GoesOn front (toSlash relative) ∧ hits (tidyPattern pattern) front = true) ∧
      (∀ path inner relative further, ignoresBy hits base patterns path = true → below? base path = some relative →
        below? base inner = some further → GoesOn (toSlash relative) (toSlash further) →
        ignoresBy hits base patterns inner = true) ∧
      (∀ path text, ignoresBy hits base patterns path = true → ofString path ≠ [.root] → text.startsWith "/" = false →
        ignoresBy hits base patterns (join path text) = true) ∧
      (∀ path, ofString path = ofString base ∨ startsWith (ofString path) (ofString base) = false →
        ignoresBy hits base patterns path = false) ∧
      (∀ others, (∀ pattern, pattern ∈ others ↔ pattern ∈ patterns) →
        ∀ path, ignoresBy hits base others path = ignoresBy hits base patterns path) ∧
      (∀ others, (∀ pattern ∈ patterns, pattern ∈ others) →
        ∀ path, ignoresBy hits base patterns path = true → ignoresBy hits base others path = true) := by
  refine ⟨fun base patterns set path h => ignores_eq_ignoresBy h path, fun hits base patterns =>
    ⟨fun path hstarts => ?_, fun path => ⟨fun h => ?_, ?_⟩, fun path inner relative further h hpath hinner hlead =>
      ignoresBy_of_goesOn h hpath hinner hlead, fun path text h hroot htext => ?_, fun path h => ?_,
      fun others hsame path => ?_, fun others hsub path => ignoresBy_of_subset hsub⟩⟩
  · obtain ⟨relative, hrelative⟩ := Path.exists_below? hstarts
    exact ⟨relative, hrelative, Path.ofString_of_below? hrelative⟩
  · obtain ⟨hstarts, hne⟩ := behind_of_ignoresBy h
    obtain ⟨relative, hrelative, -, hhit⟩ := ignoresBy_iff.mp h
    exact ⟨hstarts, hne, relative, hrelative, hhit⟩
  · rintro ⟨-, hne, relative, hrelative, hhit⟩
    exact ignoresBy_iff.mpr ⟨relative, hrelative, mt (Path.eq_empty_iff_of_below? hrelative).mp hne, hhit⟩
  · obtain ⟨relative, hrelative, hne, -⟩ := ignoresBy_iff.mp h
    obtain ⟨further, hfurther, hlead⟩ := Path.below?_join_text hrelative hne hroot htext
    exact ignoresBy_of_goesOn h hrelative hfurther hlead.toSlash
  · rw [Bool.eq_false_iff]
    intro hignored
    obtain ⟨hstarts, hne⟩ := behind_of_ignoresBy hignored
    rcases h with heq | hout
    · exact hne heq
    · rw [hout] at hstarts
      cases hstarts
  · rw [Bool.eq_iff_iff]
    constructor
    · exact ignoresBy_of_subset fun pattern => (hsame pattern).mp
    · exact ignoresBy_of_subset fun pattern => (hsame pattern).mpr

theorem ignored_by_fronts_git :
    ∃ set, ofPatterns "/base" ["*.log", "/.git/"] = .ok set ∧ set.ignores "/base/.git" = true ∧
      set.ignores "/base/.git/objects/ab" = true ∧ set.ignores "/base/" = false ∧
      ignoresBy globHits "/base" ["/.git/", "*.log", "/.git/"] "/base/.git/objects/ab" = true ∧
      ignoresBy globHits "/base" ["build", "/.git/", "*.log"] "/base/.git/objects/ab" = true := by
  obtain ⟨hcode, hall⟩ := ignored_by_fronts
  obtain ⟨-, -, -, hinside, hnot, hsame, hmore⟩ := hall globHits "/base" ["*.log", "/.git/"]
  have hgit : ignoresBy globHits "/base" ["*.log", "/.git/"] "/base/.git" = true := by decide +kernel
  have hobject := hinside "/base/.git" "objects/ab" hgit (by decide +kernel) (by decide +kernel)
  rw [show join "/base/.git" "objects/ab" = "/base/.git/objects/ab" by decide +kernel] at hobject
  have hbase := hnot "/base/" (Or.inl (by decide +kernel))
  have hread : (ofPatterns "/base" ["*.log", "/.git/"]).toBool = true := by decide +kernel
  cases hset : ofPatterns "/base" ["*.log", "/.git/"] with
  | error fault =>
      rw [hset] at hread
      cases hread
  | ok set =>
      refine ⟨set, rfl, ?_, ?_, ?_, ?_, hmore _ (by simp) _ hobject⟩
      · rw [hcode _ _ _ _ hset, hgit]
      · rw [hcode _ _ _ _ hset, hobject]
      · rw [hcode _ _ _ _ hset, hbase]
      · rw [hsame ["/.git/", "*.log", "/.git/"] (by simp [or_comm]), hobject]

/-- It is not enough to lie inside of what is ignored: the root is left behind the empty path with the slash at its
end, and a path may be written with more slashes than another. -/
theorem inside_not_ignored :
    (ofPatterns "" ["?"]).map (fun set => (set.ignores "/", set.ignores "/ab")) = .ok (true, false) ∧
      startsWith (ofString "/ab") (ofString "/") = true ∧
      (ofPatterns "/base" ["a/b"]).map (fun set => (set.ignores "/base/a/b", set.ignores "/base/a//b/c")) =
        .ok (true, false) ∧
      startsWith (ofString "/base/a//b/c") (ofString "/base/a/b") = true := by
  decide +kernel

end IgnoreSet

end Stencil
