import Mathlib
import Stencil.Proofs.Characters
import Stencil.Proofs.Checking
import Stencil.Proofs.Path.Text

/-!
# The grammar of versions

Semantic Versioning 2.0.0 gives versions by a grammar, and it is written down here as one, production by
production (`Derives`). The check of a manifest cuts the text at marks instead: first at a plus, then at the first
hyphen before it, then at points. Both say the same, because no part of a version has a mark in it at which it
could be cut too early (`isValid_iff_derives`).

There is one difference, and it is a parameter of the grammar: what is a digit. The grammar of Semantic Versioning
means the ten of ASCII (`SemVer`). The check takes the digits of any script for digits, though not for the first
one of a number. So it accepts all versions, and a few texts besides (`Manifest.parse_templateVersion`).
-/

namespace Stencil

namespace Version

/-! ## The grammar -/

section

variable (digit : Char → Bool)

/-- A zero, or a digit that is none and digits behind it. -/
inductive Numeric : List Char → Prop
  | zero : Numeric ['0']
  | positive {first : Char} {rest : List Char} (hfirst : '1' ≤ first ∧ first ≤ '9')
    (hrest : ∀ c ∈ rest, digit c = true) : Numeric (first :: rest)

/-- A number, or identifier characters of which at least one is no digit. -/
inductive PreRelease : List Char → Prop
  | numeric {part : List Char} (h : Numeric digit part) : PreRelease part
  | alphanumeric {lead rest : List Char} {first : Char} (hlead : ∀ c ∈ lead, digit c = true)
    (hfirst : isLetter first = true) (hrest : ∀ c ∈ rest, isIdentifierChar c = true) :
    PreRelease (lead ++ first :: rest)

/-- Identifier characters, at least one. -/
inductive Build : List Char → Prop
  | row {first : Char} {rest : List Char} (h : ∀ c ∈ first :: rest, isIdentifierChar c = true) :
    Build (first :: rest)

/-- Parts of one kind with points between them, at least one. -/
inductive Dotted (kind : List Char → Prop) : List Char → Prop
  | one {part : List Char} (h : kind part) : Dotted kind part
  | more {part rest : List Char} (h : kind part) (hrest : Dotted kind rest) : Dotted kind (part ++ '.' :: rest)

/-- Three numbers with points between them. -/
inductive Core : List Char → Prop
  | numbers {major minor patch : List Char} (hmajor : Numeric digit major) (hminor : Numeric digit minor)
    (hpatch : Numeric digit patch) : Core (major ++ '.' :: (minor ++ '.' :: patch))

/-- A version: three numbers, then a hyphen and pre-release identifiers, then a plus and build identifiers; the
last two may be left out. -/
inductive Derives : List Char → Prop
  | core {core : List Char} (h : Core digit core) : Derives core
  | preRelease {core parts : List Char} (h : Core digit core) (hparts : Dotted (PreRelease digit) parts) :
    Derives (core ++ '-' :: parts)
  | build {core parts : List Char} (h : Core digit core) (hparts : Dotted Build parts) :
    Derives (core ++ '+' :: parts)
  | both {core parts more : List Char} (h : Core digit core) (hparts : Dotted (PreRelease digit) parts)
    (hmore : Dotted Build more) : Derives (core ++ '-' :: parts ++ '+' :: more)

end

/-- The versions of Semantic Versioning 2.0.0: digits are those of ASCII. -/
def SemVer (chars : List Char) : Prop := Derives Decimal.isDigit chars

/-! ## Characters -/

theorem isLetter_iff {c : Char} : isLetter c = true ↔
    (65 ≤ c.toNat ∧ c.toNat ≤ 90) ∨ (97 ≤ c.toNat ∧ c.toNat ≤ 122) ∨ c.toNat = 45 := by
  simp [isLetter, Char.le_def, UInt32.le_iff_toNat_le, ← Char.toNat_inj, or_assoc]

theorem isIdentifierChar_iff {c : Char} :
    isIdentifierChar c = true ↔ Decimal.isDigit c = true ∨ isLetter c = true := by
  simp [isIdentifierChar, isLetter, Decimal.isDigit, or_assoc]

theorem isAnyDigit_of_isDigit {c : Char} (h : Decimal.isDigit c = true) : Text.isAnyDigit c = true := by
  have hrange := Decimal.isDigit_iff.mp h
  rw [Text.isAnyDigit_eq (by omega)]
  simpa using hrange

/-- No letter is a digit. -/
theorem isAnyDigit_of_isLetter {c : Char} (h : isLetter c = true) : Text.isAnyDigit c = false := by
  have hrange := isLetter_iff.mp h
  rw [Text.isAnyDigit_eq (by omega)]
  simp
  omega

theorem isDigit_of_nonzero {c : Char} (h : '1' ≤ c ∧ c ≤ '9') : Decimal.isDigit c = true := by
  have hlow : 49 ≤ c.toNat := h.1
  have hhigh : c.toNat ≤ 57 := h.2
  exact Decimal.isDigit_iff.mpr ⟨by omega, hhigh⟩

/-- The digits among identifier characters are those of ASCII. -/
theorem isDigit_of_isIdentifierChar {c : Char} (h : isIdentifierChar c = true) (hdigit : Text.isAnyDigit c = true) :
    Decimal.isDigit c = true := by
  refine (isIdentifierChar_iff.mp h).resolve_right fun hletter => ?_
  rw [isAnyDigit_of_isLetter hletter] at hdigit
  cases hdigit

/-! ## Parts -/

section

variable {digit other : Char → Bool} {part chars : List Char}

theorem Numeric.mem (h : Numeric digit part) {c : Char} (hc : c ∈ part) :
    Decimal.isDigit c = true ∨ digit c = true := by
  cases h with
  | zero =>
      obtain rfl := List.mem_singleton.mp hc
      exact .inl rfl
  | positive hfirst hrest =>
      rcases List.mem_cons.mp hc with rfl | hc
      · exact .inl (isDigit_of_nonzero hfirst)
      · exact .inr (hrest c hc)

theorem PreRelease.mem (h : PreRelease digit part) {c : Char} (hc : c ∈ part) :
    isIdentifierChar c = true ∨ digit c = true := by
  cases h with
  | numeric h => exact (h.mem hc).imp_left fun hdigit => isIdentifierChar_iff.mpr (.inl hdigit)
  | alphanumeric hlead hfirst hrest =>
      rcases List.mem_append.mp hc with hc | hc
      · exact .inr (hlead c hc)
      · rcases List.mem_cons.mp hc with rfl | hc
        · exact .inl (isIdentifierChar_iff.mpr (.inr hfirst))
        · exact .inl (hrest c hc)

theorem Build.mem (h : Build part) {c : Char} (hc : c ∈ part) : isIdentifierChar c = true := by
  obtain ⟨h⟩ := h
  exact h c hc

/-- What holds of points and of the characters of each part holds of all characters. -/
theorem Dotted.forall_mem {kind : List Char → Prop} {p : Char → Prop} (h : Dotted kind chars) (hpoint : p '.')
    (hkind : ∀ part, kind part → ∀ c ∈ part, p c) : ∀ c ∈ chars, p c := by
  induction h with
  | one h => exact hkind _ h
  | more h _ ih => simpa [or_imp, forall_and, hpoint] using ⟨hkind _ h, ih⟩

theorem Core.mem (h : Core digit chars) {c : Char} (hc : c ∈ chars) :
    c = '.' ∨ Decimal.isDigit c = true ∨ digit c = true := by
  obtain ⟨hmajor, hminor, hpatch⟩ := h
  simp only [List.mem_append, List.mem_cons] at hc
  rcases hc with hc | rfl | hc | rfl | hc
  · exact .inr (hmajor.mem hc)
  · exact .inl rfl
  · exact .inr (hminor.mem hc)
  · exact .inl rfl
  · exact .inr (hpatch.mem hc)

/-! ### Another notion of a digit -/

theorem Numeric.imp (himp : ∀ c ∈ part, digit c = true → other c = true) (h : Numeric digit part) :
    Numeric other part := by
  cases h with
  | zero => exact .zero
  | positive hfirst hrest =>
      exact .positive hfirst fun c hc => himp c (List.mem_cons_of_mem _ hc) (hrest c hc)

theorem PreRelease.imp (himp : ∀ c ∈ part, digit c = true → other c = true) (h : PreRelease digit part) :
    PreRelease other part := by
  cases h with
  | numeric h => exact .numeric (h.imp himp)
  | alphanumeric hlead hfirst hrest =>
      exact .alphanumeric (fun c hc => himp c (List.mem_append_left _ hc) (hlead c hc)) hfirst hrest

theorem Dotted.imp {kind more : List Char → Prop}
    (himp : ∀ part, (∀ c ∈ part, c ∈ chars) → kind part → more part) (h : Dotted kind chars) : Dotted more chars := by
  induction h with
  | one h => exact .one (himp _ (fun c hc => hc) h)
  | more h _ ih =>
      exact .more (himp _ (fun c hc => List.mem_append_left _ hc) h) (ih fun part hpart =>
        himp part fun c hc => List.mem_append_right _ (List.mem_cons_of_mem _ (hpart c hc)))

theorem Core.imp (himp : ∀ c ∈ chars, digit c = true → other c = true) (h : Core digit chars) :
    Core other chars := by
  obtain ⟨hmajor, hminor, hpatch⟩ := h
  exact .numbers (hmajor.imp fun c hc => himp c (by simp [hc])) (hminor.imp fun c hc => himp c (by simp [hc]))
    (hpatch.imp fun c hc => himp c (by simp [hc]))

/-- A version stays one if the digits in it stay digits. -/
theorem Derives.imp (himp : ∀ c ∈ chars, digit c = true → other c = true) (h : Derives digit chars) :
    Derives other chars := by
  have hparts {parts : List Char} (hmem : ∀ c ∈ parts, c ∈ chars) (h : Dotted (PreRelease digit) parts) :
      Dotted (PreRelease other) parts :=
    h.imp fun part hpart hkind => hkind.imp fun c hc => himp c (hmem c (hpart c hc))
  cases h with
  | core h => exact .core (h.imp himp)
  | preRelease h hpre =>
      exact .preRelease (h.imp fun c hc => himp c (by simp [hc])) (hparts (fun c hc => by simp [hc]) hpre)
  | build h hbuild => exact .build (h.imp fun c hc => himp c (by simp [hc])) hbuild
  | both h hpre hbuild =>
      exact .both (h.imp fun c hc => himp c (by simp [hc])) (hparts (fun c hc => by simp [hc]) hpre) hbuild

theorem Numeric.ne_nil (h : Numeric digit part) : part ≠ [] := by
  cases h <;> exact List.cons_ne_nil _ _

/-- Where the digits are those of ASCII, a pre-release identifier is a row of identifier characters that is a number
if there are only digits in it. -/
theorem preRelease_iff : PreRelease Decimal.isDigit part ↔ part ≠ [] ∧ (∀ c ∈ part, isIdentifierChar c = true) ∧
    ((∀ c ∈ part, Decimal.isDigit c = true) → Numeric Decimal.isDigit part) := by
  constructor
  · intro h
    have hall : ∀ c ∈ part, isIdentifierChar c = true := fun c hc =>
      (h.mem hc).elim id fun hdigit => isIdentifierChar_iff.mpr (.inl hdigit)
    cases h with
    | numeric h => exact ⟨h.ne_nil, hall, fun _ => h⟩
    | alphanumeric hlead hfirst hrest =>
        refine ⟨by simp, hall, fun hdigits => ?_⟩
        have hdigit := isAnyDigit_of_isDigit (hdigits _ (List.mem_append_right _ List.mem_cons_self))
        rw [isAnyDigit_of_isLetter hfirst] at hdigit
        cases hdigit
  · rintro ⟨hne, hall, hnumeric⟩
    have hpart := List.takeWhile_append_dropWhile (p := Decimal.isDigit) (l := part)
    have hstop := List.head?_dropWhile_not Decimal.isDigit part
    cases hrest : part.dropWhile Decimal.isDigit with
    | nil => exact .numeric (hnumeric (List.dropWhile_eq_nil_iff.mp hrest))
    | cons first rest =>
        rw [hrest] at hpart hstop
        rw [← hpart] at hall ⊢
        have hfirst := isIdentifierChar_iff.mp (hall first (List.mem_append_right _ List.mem_cons_self))
        refine .alphanumeric (fun c hc => List.mem_takeWhile_imp hc) (hfirst.resolve_left ?_) fun c hc =>
          hall c (List.mem_append_right _ (List.mem_cons_of_mem _ hc))
        simpa using hstop

end

/-! ## Cutting -/

end Version

namespace Text

variable {mark : Char} {chars front rest : List Char}

theorem cutAt_of_not_mem (h : mark ∉ chars) : cutAt mark chars = (chars, none) := by
  have hall : ∀ c ∈ chars, (decide (c ≠ mark)) = true := fun c hc => by
    rw [decide_eq_true_eq]
    rintro rfl
    exact h hc
  rw [cutAt, List.takeWhile_eq_self_iff.mpr hall, List.dropWhile_eq_nil_iff.mpr hall]

theorem cutAt_append (h : mark ∉ front) : cutAt mark (front ++ mark :: rest) = (front, some rest) := by
  have hall : ∀ c ∈ front, (decide (c ≠ mark)) = true := fun c hc => by
    rw [decide_eq_true_eq]
    rintro rfl
    exact h hc
  rw [cutAt, List.takeWhile_append_of_pos hall, List.dropWhile_append_of_pos hall]
  simp

/-- What was cut is put together again. -/
theorem eq_of_cutAt {behind? : Option (List Char)} (h : cutAt mark chars = (front, behind?)) :
    chars = front ++ (behind?.map (mark :: ·)).getD [] := by
  obtain ⟨rfl, rfl⟩ := Prod.mk.inj h
  have hchars := List.takeWhile_append_dropWhile (p := fun c => decide (c ≠ mark)) (l := chars)
  have hstop := List.head?_dropWhile_not (fun c => decide (c ≠ mark)) chars
  cases hrest : chars.dropWhile fun c => decide (c ≠ mark) with
  | nil =>
      rw [hrest] at hchars
      exact hchars.symm
  | cons c rest =>
      rw [hrest] at hchars hstop
      obtain rfl : c = mark := by simpa using hstop
      exact hchars.symm

end Text

namespace Version

variable {chars part : List Char}

theorem isNumber_iff : isNumber part = true ↔ Numeric Text.isAnyDigit part := by
  constructor
  · intro h
    unfold isNumber at h
    split at h
    · exact .zero
    · simp only [Bool.and_eq_true, decide_eq_true_eq, List.all_eq_true] at h
      exact .positive h.1 h.2
    · cases h
  · rintro (_ | ⟨hfirst, hrest⟩)
    · rfl
    · unfold isNumber
      split
      · rfl
      · rename_i heq
        cases heq
        simpa using ⟨hfirst, hrest⟩
      · rename_i heq
        cases heq

theorem isPreRelease_iff : isPreRelease part = true ↔ PreRelease Text.isAnyDigit part := by
  rw [isPreRelease, Bool.or_eq_true, isNumber_iff]
  constructor
  · rintro (h | h)
    · exact .numeric h
    · cases hrest : part.dropWhile Text.isAnyDigit with
      | nil => rw [hrest] at h; cases h
      | cons first rest =>
          rw [hrest] at h
          simp only [Bool.and_eq_true, List.all_eq_true] at h
          rw [← List.takeWhile_append_dropWhile (p := Text.isAnyDigit) (l := part), hrest]
          exact .alphanumeric (fun c hc => List.mem_takeWhile_imp hc) h.1 h.2
  · rintro (h | ⟨hlead, hfirst, hrest⟩)
    · exact .inl h
    · right
      rw [List.dropWhile_append_of_pos hlead, List.dropWhile_cons_of_neg (by simp [isAnyDigit_of_isLetter hfirst])]
      simpa using ⟨hfirst, hrest⟩

theorem isBuild_iff : isBuild part = true ↔ Build part := by
  constructor
  · intro h
    cases part with
    | nil => cases h
    | cons first rest => exact .row (by simpa [isBuild] using h)
  · rintro ⟨h⟩
    simpa [isBuild] using h

/-! ### No part can be cut -/

theorem Numeric.no_mark (h : Numeric Text.isAnyDigit part) {mark : Char}
    (hmark : mark = '.' ∨ mark = '-' ∨ mark = '+') : mark ∉ part := by
  intro hmem
  have hdigit := h.mem hmem
  rcases hmark with rfl | rfl | rfl <;> revert hdigit <;> decide

theorem PreRelease.no_mark (h : PreRelease Text.isAnyDigit part) {mark : Char} (hmark : mark = '.' ∨ mark = '+') :
    mark ∉ part := by
  intro hmem
  have hchar := h.mem hmem
  rcases hmark with rfl | rfl <;> revert hchar <;> decide

theorem Build.no_mark (h : Build part) : '.' ∉ part := fun hmem =>
  absurd (h.mem hmem) (by decide)

theorem Core.no_mark (h : Core Text.isAnyDigit chars) {mark : Char} (hmark : mark = '-' ∨ mark = '+') :
    mark ∉ chars := by
  intro hmem
  have hchar := h.mem hmem
  rcases hmark with rfl | rfl <;> revert hchar <;> decide

theorem Dotted.no_plus (h : Dotted (PreRelease Text.isAnyDigit) chars) : '+' ∉ chars := fun hmem =>
  h.forall_mem (p := (· ≠ '+')) (by decide) (fun _ hpart _ hc heq => hpart.no_mark (.inr rfl) (heq ▸ hc)) _ hmem rfl

/-! ### Parts and points -/

theorem all_splitOn_iff {kind : List Char → Prop} {check : List Char → Bool}
    (hcheck : ∀ part, check part = true ↔ kind part) (hmark : ∀ part, kind part → '.' ∉ part) :
    (Text.splitOn '.' chars).all check = true ↔ Dotted kind chars := by
  rw [List.all_eq_true]
  simp only [hcheck]
  constructor
  · intro h
    rw [← Text.joinWith_splitOn '.' chars]
    have hne := Text.splitOn_ne_nil '.' chars
    generalize Text.splitOn '.' chars = parts at h hne
    induction parts with
    | nil => exact absurd rfl hne
    | cons part parts ih =>
        cases parts with
        | nil => exact .one (h part List.mem_cons_self)
        | cons next parts =>
            exact .more (h part List.mem_cons_self)
              (ih (fun part hpart => h part (List.mem_cons_of_mem _ hpart)) (List.cons_ne_nil _ _))
  · intro h
    induction h with
    | one h => simpa [Text.splitOn_of_not_mem (hmark _ h)] using h
    | more h _ ih =>
        rw [Text.splitOn_append, Text.splitOn_of_not_mem (hmark _ h)]
        simpa using ⟨h, ih⟩

theorem core_iff : ((Text.splitOn '.' chars).length = 3 ∧ (Text.splitOn '.' chars).all isNumber = true) ↔
    Core Text.isAnyDigit chars := by
  constructor
  · rintro ⟨hlength, hall⟩
    obtain ⟨major, minor, patch, hparts⟩ := List.length_eq_three.mp hlength
    rw [hparts] at hall
    rw [← Text.joinWith_splitOn '.' chars, hparts]
    simp only [List.all_cons, List.all_nil, Bool.and_true, Bool.and_eq_true, isNumber_iff] at hall
    exact .numbers hall.1 hall.2.1 hall.2.2
  · rintro ⟨hmajor, hminor, hpatch⟩
    rw [Text.splitOn_append, Text.splitOn_append, Text.splitOn_of_not_mem (hmajor.no_mark (.inl rfl)),
      Text.splitOn_of_not_mem (hminor.no_mark (.inl rfl)), Text.splitOn_of_not_mem (hpatch.no_mark (.inl rfl))]
    simpa [isNumber_iff] using ⟨hmajor, hminor, hpatch⟩

theorem all_isPreRelease_iff : (Text.splitOn '.' chars).all isPreRelease = true ↔
    Dotted (PreRelease Text.isAnyDigit) chars :=
  all_splitOn_iff (fun _ => isPreRelease_iff) fun _ h => h.no_mark (.inl rfl)

theorem all_isBuild_iff : (Text.splitOn '.' chars).all isBuild = true ↔ Dotted Build chars :=
  all_splitOn_iff (fun _ => isBuild_iff) fun _ h => h.no_mark

/-- The check judges what it cut a text into. -/
theorem isValid_of_cutAt {s : String} {rest core : List Char} {preRelease build : Option (List Char)}
    (hs : s.toList = chars) (hplus : Text.cutAt '+' chars = (rest, build)) (hhyphen : Text.cutAt '-' rest = (core, preRelease)) :
    isValid s = true ↔ Core Text.isAnyDigit core ∧
      (∀ parts, preRelease = some parts → Dotted (PreRelease Text.isAnyDigit) parts) ∧
      (∀ parts, build = some parts → Dotted Build parts) := by
  simp only [isValid, hs, hplus, hhyphen, Bool.and_eq_true, decide_eq_true_eq, core_iff, and_assoc]
  refine and_congr_right fun _ => and_congr ?_ ?_
  · cases preRelease with
    | none => simp
    | some parts => simpa using all_isPreRelease_iff
  · cases build with
    | none => simp
    | some parts => simpa using all_isBuild_iff

/-- **The check of versions accepts what the grammar derives**, digits of any script being digits. -/
theorem isValid_iff_derives {s : String} : isValid s = true ↔ Derives Text.isAnyDigit s.toList := by
  constructor
  · generalize hplus : Text.cutAt '+' s.toList = cut
    obtain ⟨rest, build⟩ := cut
    generalize hhyphen : Text.cutAt '-' rest = cut
    obtain ⟨core, preRelease⟩ := cut
    rw [isValid_of_cutAt rfl hplus hhyphen, Text.eq_of_cutAt hplus, Text.eq_of_cutAt hhyphen]
    rintro ⟨hcore, hpre, hbuild⟩
    cases preRelease with
    | none =>
        cases build with
        | none => simpa using Derives.core hcore
        | some more => simpa using Derives.build hcore (hbuild more rfl)
    | some parts =>
        cases build with
        | none => simpa using Derives.preRelease hcore (hpre parts rfl)
        | some more => simpa using Derives.both hcore (hpre parts rfl) (hbuild more rfl)
  · -- Neither the numbers nor the pre-release have a mark in them that would be taken for a later one.
    intro h
    generalize hs : s.toList = chars at h
    cases h with
    | core h =>
        have hplus := Text.cutAt_of_not_mem (h.no_mark (.inr rfl))
        have hhyphen := Text.cutAt_of_not_mem (h.no_mark (.inl rfl))
        exact (isValid_of_cutAt hs hplus hhyphen).mpr ⟨h, by simp, by simp⟩
    | @preRelease core parts h hparts =>
        have hnone : '+' ∉ core ++ '-' :: parts := by
          simpa using ⟨h.no_mark (.inr rfl), hparts.no_plus⟩
        have hhyphen : Text.cutAt '-' (core ++ '-' :: parts) = (core, some parts) :=
          Text.cutAt_append (h.no_mark (.inl rfl))
        exact (isValid_of_cutAt hs (Text.cutAt_of_not_mem hnone) hhyphen).mpr
          ⟨h, by simpa using hparts, by simp⟩
    | @build core parts h hparts =>
        have hplus : Text.cutAt '+' (core ++ '+' :: parts) = (core, some parts) :=
          Text.cutAt_append (h.no_mark (.inr rfl))
        have hhyphen := Text.cutAt_of_not_mem (h.no_mark (.inl rfl))
        exact (isValid_of_cutAt hs hplus hhyphen).mpr ⟨h, by simp, by simpa using hparts⟩
    | @both core parts more h hparts hmore =>
        have hnone : '+' ∉ core ++ '-' :: parts := by
          simpa using ⟨h.no_mark (.inr rfl), hparts.no_plus⟩
        have hhyphen : Text.cutAt '-' (core ++ '-' :: parts) = (core, some parts) :=
          Text.cutAt_append (h.no_mark (.inl rfl))
        have hplus : Text.cutAt '+' (core ++ '-' :: parts ++ '+' :: more) = (core ++ '-' :: parts, some more) :=
          Text.cutAt_append hnone
        exact (isValid_of_cutAt hs hplus hhyphen).mpr
          ⟨h, by simpa using hparts, by simpa using hmore⟩

/-! ## Versions of Semantic Versioning -/

/-- What holds of marks, of identifier characters and of digits holds of all characters of a version. -/
theorem Derives.forall_mem {digit : Char → Bool} {p : Char → Prop} (h : Derives digit chars) (hpoint : p '.')
    (hplus : p '+') (hchar : ∀ c, isIdentifierChar c = true → p c) (hdigit : ∀ c, digit c = true → p c) :
    ∀ c ∈ chars, p c := by
  have hhyphen : p '-' := hchar '-' rfl
  have hcore {core : List Char} (h : Core digit core) : ∀ c ∈ core, p c := by
    intro c hc
    rcases h.mem hc with rfl | hascii | hother
    · exact hpoint
    · exact hchar c (isIdentifierChar_iff.mpr (.inl hascii))
    · exact hdigit c hother
  have hpre {parts : List Char} (h : Dotted (PreRelease digit) parts) : ∀ c ∈ parts, p c :=
    h.forall_mem hpoint fun part hpart c hc => (hpart.mem hc).elim (hchar c) (hdigit c)
  have hbuild {parts : List Char} (h : Dotted Build parts) : ∀ c ∈ parts, p c :=
    h.forall_mem hpoint fun part hpart c hc => hchar c (hpart.mem hc)
  cases h with
  | core h => exact hcore h
  | preRelease h hparts => simpa [or_imp, forall_and, hhyphen] using ⟨hcore h, hpre hparts⟩
  | build h hparts => simpa [or_imp, forall_and, hplus] using ⟨hcore h, hbuild hparts⟩
  | both h hparts hmore =>
      simpa [or_imp, forall_and, hhyphen, hplus] using ⟨hcore h, hpre hparts, hbuild hmore⟩

/-- **A version of Semantic Versioning is an accepted text without digits of other scripts.** -/
theorem semVer_iff : SemVer chars ↔ Derives Text.isAnyDigit chars ∧
    ∀ c ∈ chars, Text.isAnyDigit c = true → Decimal.isDigit c = true := by
  constructor
  · intro h
    exact ⟨h.imp fun c _ => isAnyDigit_of_isDigit,
      h.forall_mem (by decide) (by decide) (fun c => isDigit_of_isIdentifierChar) fun c hdigit _ => hdigit⟩
  · rintro ⟨h, hascii⟩
    exact h.imp hascii

end Version

/-! ## The version of a template -/

namespace Version

theorem Derives.point_mem {digit : Char → Bool} {chars : List Char} (h : Derives digit chars) : '.' ∈ chars := by
  have hcore {core : List Char} (h : Core digit core) : '.' ∈ core := by
    obtain ⟨⟩ := h
    simp
  cases h with
  | core h => exact hcore h
  | preRelease h | build h => exact List.mem_append_left _ (hcore h)
  | both h => exact List.mem_append_left _ (List.mem_append_left _ (hcore h))

/-- A version is not blank. -/
theorem isAllBlank_of_isValid {s : String} (h : isValid s = true) : Text.isAllBlank s = false :=
  List.all_eq_false.mpr ⟨'.', (isValid_iff_derives.mp h).point_mem, by decide⟩

end Version

namespace Manifest

open Version

variable {text s : String} {supported : List String} {draft : Manifest.Draft}

theorem Draft.broken_templateVersion (hversion : draft.templateVersion = .text s) (h : isValid s = false) :
    draft.Broken supported .templateVersion (if Text.isAllBlank s then .missingRootField "template_version"
      else .malformedVersion "template_version" s) := by
  split
  · rename_i hblank
    refine .noTemplateVersion fun version hwrites => ?_
    rw [hversion] at hwrites
    obtain ⟨hnot⟩ := hwrites
    rw [hblank] at hnot
    cases hnot
  · rename_i hblank
    exact .templateVersion (hversion ▸ .text (Bool.eq_false_iff.mpr hblank)) h

theorem Draft.not_broken_templateVersion (hversion : draft.templateVersion = .text s) (h : isValid s = true)
    (violation : Violation) : ¬ draft.Broken supported .templateVersion violation := by
  have hwrites : draft.templateVersion.Writes s := hversion ▸ .text (isAllBlank_of_isValid h)
  rintro (_ | _ | hnone | ⟨hother, hinvalid⟩)
  · exact hnone s hwrites
  · rw [hother.unique hwrites, h] at hinvalid
    cases hinvalid

/-- Of a draft that breaks one rule only that is reported: entries of a report have different rules. -/
theorem Draft.Broken.found_eq {rule : Rule} {violation : Violation} {found : List (Rule × Violation)}
    (h : draft.Broken supported rule violation)
    (hothers : ∀ other violation, draft.Broken supported other violation → other = rule)
    (hsorted : found.Pairwise (·.1.rank < ·.1.rank))
    (hfound : ∀ rule violation, (rule, violation) ∈ found ↔ draft.Broken supported rule violation) :
    found = [(rule, violation)] := by
  have hsame : ∀ entry ∈ found, entry = (rule, violation) := fun entry hentry => by
    obtain ⟨other, reported⟩ := entry
    have hbroken : draft.Broken supported other reported := (hfound _ _).mp hentry
    obtain rfl : other = rule := hothers _ _ hbroken
    rw [hbroken.unique h]
  cases found with
  | nil => exact absurd ((hfound _ _).mpr h) List.not_mem_nil
  | cons first rest =>
      obtain rfl := hsame first List.mem_cons_self
      cases rest with
      | nil => rfl
      | cons second rest =>
          obtain rfl := hsame second (List.mem_cons_of_mem _ List.mem_cons_self)
          exact absurd (List.rel_of_pairwise_cons hsorted List.mem_cons_self) (lt_irrefl _)

/-- **A manifest that is otherwise as it should be is accepted if its version is derived** by the grammar, with the
digits of any script for digits. Else the version is all that is reported: as missing if it is blank, as malformed if
not. The versions of Semantic Versioning are those of the accepted ones in which all digits are those of ASCII. -/
theorem parse_templateVersion (hdraft : Manifest.Draft.ofString? text = some draft)
    (hversion : draft.templateVersion = .text s)
    (hothers : ∀ rule violation, draft.Broken supported rule violation → rule = .templateVersion) :
    ((∃ manifest, Manifest.parse text supported = .ok manifest ∧ manifest.templateVersion = s) ↔
      Derives Text.isAnyDigit s.toList) ∧
    (¬ Derives Text.isAnyDigit s.toList → Manifest.parse text supported = .error (.violations
      [if Text.isAllBlank s then .missingRootField "template_version" else .malformedVersion "template_version" s])) ∧
    (SemVer s.toList ↔ (∃ manifest, Manifest.parse text supported = .ok manifest) ∧
      ∀ c ∈ s.toList, Text.isAnyDigit c = true → Decimal.isDigit c = true) := by
  have haccepted (h : isValid s = true) :
      ∃ manifest, Manifest.parse text supported = .ok manifest ∧ manifest.templateVersion = s := by
    have hvalid : draft.Valid supported := Draft.valid_iff_unbroken.mpr fun rule violation hbroken =>
      Draft.not_broken_templateVersion hversion h violation (hothers rule violation hbroken ▸ hbroken)
    obtain ⟨manifest, hparse, hdecodes⟩ := parse_of_valid hdraft hvalid
    have hwrites : (Value.text s).Writes manifest.templateVersion := hversion ▸ hdecodes.templateVersion
    exact ⟨manifest, hparse, hwrites.unique (.text (isAllBlank_of_isValid h))⟩
  have hrejected (h : isValid s = false) : Manifest.parse text supported = .error (.violations
      [if Text.isAllBlank s then .missingRootField "template_version" else .malformedVersion "template_version" s]) := by
    have hbroken : draft.Broken supported .templateVersion _ := Draft.broken_templateVersion hversion h
    obtain ⟨found, hparse, -, hsorted, hfound⟩ := parse_of_not_valid hdraft fun hvalid =>
      Draft.valid_iff_unbroken.mp hvalid _ _ hbroken
    rw [hparse, hbroken.found_eq hothers hsorted hfound]
    rfl
  have hparse_iff : (∃ manifest, Manifest.parse text supported = .ok manifest) ↔ isValid s = true := by
    constructor
    · rintro ⟨manifest, hparse⟩
      cases hvalid : isValid s with
      | true => rfl
      | false => rw [hrejected hvalid] at hparse; cases hparse
    · intro h
      obtain ⟨manifest, hparse, -⟩ := haccepted h
      exact ⟨manifest, hparse⟩
  refine ⟨⟨?_, fun h => haccepted (isValid_iff_derives.mpr h)⟩, fun h => ?_, ?_⟩
  · rintro ⟨manifest, hparse, -⟩
    exact isValid_iff_derives.mp (hparse_iff.mp ⟨manifest, hparse⟩)
  · exact hrejected (Bool.eq_false_iff.mpr fun hvalid => h (isValid_iff_derives.mp hvalid))
  · rw [hparse_iff, isValid_iff_derives]
    exact semVer_iff

/-- A manifest whose version has an Arabic digit in it. -/
def arabicVersionText : String := "name: a\ntemplate_version: '1٠.0.0'\nmanifest_version: v1\n"

/-- The draft of `arabicVersionText`. -/
def arabicVersion : Manifest.Draft :=
  { name? := some "a", description? := none, templateVersion := .text "1٠.0.0", manifestVersion := .text "v1",
    authors := [], license? := none,
    configuration := { configuration := { ignorePaths := [], postCloneCommands := [] }, unknown := [] },
    declarations := [], unknown := [] }

theorem ofString?_arabicVersionText : Manifest.Draft.ofString? arabicVersionText = some arabicVersion := by cbv

theorem parse_arabicVersion : Manifest.parse arabicVersionText ["v1", "v2"] = .ok arabicVersion.manifest := by
  have hviolations : arabicVersion.violations ["v1", "v2"] = [] := by decide
  rw [Manifest.parse, ofString?_arabicVersionText]
  dsimp only
  rw [Draft.check, hviolations]
  rfl

/-- An Arabic digit is taken for a digit, so this manifest is accepted; but its version is none of Semantic
Versioning. -/
theorem parse_templateVersion_arabic :
    Manifest.Draft.ofString? arabicVersionText = some arabicVersion ∧
      arabicVersion.templateVersion = .text "1٠.0.0" ∧
      (∀ rule violation, arabicVersion.Broken ["v1", "v2"] rule violation → rule = .templateVersion) ∧
      (∃ manifest, Manifest.parse arabicVersionText ["v1", "v2"] = .ok manifest ∧
        manifest.templateVersion = "1٠.0.0") ∧
      Derives Text.isAnyDigit "1٠.0.0".toList ∧ ¬ SemVer "1٠.0.0".toList := by
  have hvalid : arabicVersion.Valid ["v1", "v2"] := by
    obtain ⟨draft, hdraft, hvalid, -⟩ := valid_of_parse parse_arabicVersion
    rw [ofString?_arabicVersionText, Option.some.injEq] at hdraft
    exact hdraft ▸ hvalid
  have hothers : ∀ rule violation, arabicVersion.Broken ["v1", "v2"] rule violation → rule = .templateVersion :=
    fun rule violation hbroken => absurd hbroken (Draft.valid_iff_unbroken.mp hvalid rule violation)
  obtain ⟨haccepted, -, hsemVer⟩ := parse_templateVersion ofString?_arabicVersionText rfl hothers
  refine ⟨ofString?_arabicVersionText, rfl, hothers, ⟨_, parse_arabicVersion, rfl⟩,
    haccepted.mp ⟨_, parse_arabicVersion, rfl⟩, fun h => ?_⟩
  exact absurd ((hsemVer.mp h).2 '٠' (by decide)) (by decide)

end Manifest

end Stencil
