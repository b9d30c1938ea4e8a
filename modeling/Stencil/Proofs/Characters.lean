import Mathlib
import Stencil.Decimal.Reading
import Stencil.Text.Blank
import Stencil.Text.Digit
import Stencil.Text.Word

/-!
# Characters of ASCII

Sets of characters are told by ranges of code points of all scripts. Of a character of ASCII it is enough to look at
the first few ranges.
-/

namespace Stencil

theorem Decimal.isDigit_iff {c : Char} : isDigit c = true ↔ 48 ≤ c.toNat ∧ c.toNat ≤ 57 := by
  simp [isDigit, Char.le_def, UInt32.le_iff_toNat_le]

namespace Text

/-- Ranges that lie above a code point do not matter to it. -/
theorem Ranges.has_append_of_lt {front later : Ranges} {n bound : Nat} (hn : n < bound)
    (h : later.all (bound ≤ ·.1) = true) : Ranges.has (front ++ later) n = Ranges.has front n := by
  have hnone : Ranges.has later n = false := by
    refine List.any_eq_false.mpr fun range hrange => ?_
    have hlow : bound ≤ range.1 := by simpa using List.all_eq_true.mp h range hrange
    simp
    omega
  rw [Ranges.has, List.any_append, ← Ranges.has, ← Ranges.has, hnone, Bool.or_false]

/-- The digits of ASCII. -/
theorem isAnyDigit_eq {c : Char} (h : c.toNat < 128) : isAnyDigit c = (48 ≤ c.toNat && c.toNat ≤ 57 : Bool) := by
  have hranges : digitRanges = [(0x30, 0x39)] ++ digitRanges.drop 1 := rfl
  have hlater : (digitRanges.drop 1).all (128 ≤ ·.1) = true := by decide +kernel
  rw [isAnyDigit, hranges, Ranges.has_append_of_lt h hlater]
  simp [Ranges.has]

/-- The characters of words in ASCII. -/
theorem isWordChar_eq {c : Char} (h : c.toNat < 128) : isWordChar c =
    ((48 ≤ c.toNat && c.toNat ≤ 57) || (65 ≤ c.toNat && c.toNat ≤ 90) || c.toNat = 95 ||
      (97 ≤ c.toNat && c.toNat ≤ 122) : Bool) := by
  have hranges : wordRanges = [(0x30, 0x39), (0x41, 0x5a), (0x5f, 0x5f), (0x61, 0x7a)] ++ wordRanges.drop 4 := rfl
  have hlater : (wordRanges.drop 4).all (128 ≤ ·.1) = true := by decide +kernel
  rw [isWordChar, hranges, Ranges.has_append_of_lt h hlater, Bool.eq_iff_iff]
  simp only [Ranges.has, List.any_cons, List.any_nil, Bool.or_false, Bool.or_eq_true, Bool.and_eq_true,
    decide_eq_true_eq]
  omega

/-- No character that can be seen is a blank. -/
theorem isBlank_of_visible {c : Char} (h : 32 < c.toNat ∧ c.toNat < 127) : isBlank c = false := by
  simp [isBlank]
  omega

end Text

end Stencil
