import Mathlib.Data.List.Basic

/-!
# Blanks and digits

The classes of characters on which programs disagree: Python takes as blank every character that
Unicode says separates words or lines, as digit every decimal digit of every script; ECMAScript has
its own list of blanks, and the ASCII digits only. The tables are those of Unicode 15.

The decimal digits of Unicode come in runs of ten, which the code point of their zero determines.
-/

namespace Unicode

/-- The code point is in one of the ranges, whose ends are included. -/
def inRanges (ranges : List (ℕ × ℕ)) (n : ℕ) : Bool := ranges.any fun r ↦ r.1 ≤ n && n ≤ r.2

/-- The blanks that Python and ECMAScript share. -/
def commonBlanks : List (ℕ × ℕ) :=
  [(0x9, 0xd), (0x20, 0x20), (0xa0, 0xa0), (0x1680, 0x1680), (0x2000, 0x200a), (0x2028, 0x2029),
    (0x202f, 0x202f), (0x205f, 0x205f), (0x3000, 0x3000)]

/-- The other blanks of Python. -/
def pyBlanks : List (ℕ × ℕ) := [(0x1c, 0x1f), (0x85, 0x85)]

/-- The other blanks of ECMAScript. -/
def jsBlanks : List (ℕ × ℕ) := [(0xfeff, 0xfeff)]

/-- `c.isspace()`, and `\s` in a regular expression, in Python. -/
def isPySpace (c : Char) : Bool := inRanges commonBlanks c.toNat || inRanges pyBlanks c.toNat

/-- `\s` in a regular expression of ECMAScript. -/
def isJsSpace (c : Char) : Bool := inRanges commonBlanks c.toNat || inRanges jsBlanks c.toNat

/-- A blank of C, in the ASCII range. -/
def isAsciiSpace (c : Char) : Bool := inRanges [(0x9, 0xd), (0x20, 0x20)] c.toNat

/-- The zeros of the decimal digits. -/
def decimalZeros : List ℕ :=
  [0x30, 0x660, 0x6f0, 0x7c0, 0x966, 0x9e6, 0xa66, 0xae6, 0xb66, 0xbe6, 0xc66, 0xce6, 0xd66,
    0xde6, 0xe50, 0xed0, 0xf20, 0x1040, 0x1090, 0x17e0, 0x1810, 0x1946, 0x19d0, 0x1a80, 0x1a90,
    0x1b50, 0x1bb0, 0x1c40, 0x1c50, 0xa620, 0xa8d0, 0xa900, 0xa9d0, 0xa9f0, 0xaa50, 0xabf0,
    0xff10, 0x104a0, 0x10d30, 0x11066, 0x110f0, 0x11136, 0x111d0, 0x112f0, 0x11450, 0x114d0,
    0x11650, 0x116c0, 0x11730, 0x118e0, 0x11950, 0x11c50, 0x11d50, 0x11da0, 0x11f50, 0x16a60,
    0x16ac0, 0x16b50, 0x1d7ce, 0x1d7d8, 0x1d7e2, 0x1d7ec, 0x1d7f6, 0x1e140, 0x1e2f0, 0x1e4f0,
    0x1e950, 0x1fbf0]

/-- The value of a decimal digit of any script. -/
def decimal (c : Char) : Option ℕ :=
  (decimalZeros.find? fun z ↦ z ≤ c.toNat && c.toNat ≤ z + 9).map fun z ↦ c.toNat - z

/-- `\d` in a regular expression, in Python. -/
def isDecimal (c : Char) : Bool := (decimal c).isSome

/-- `\d` in a regular expression of ECMAScript. -/
def isAsciiDigit (c : Char) : Bool := 0x30 ≤ c.toNat && c.toNat ≤ 0x39

theorem isDecimal_of_isAsciiDigit {c : Char} (h : isAsciiDigit c = true) : isDecimal c = true := by
  rw [isDecimal, decimal, Option.isSome_map, List.find?_isSome]
  exact ⟨0x30, by simp [decimalZeros], h⟩

theorem inRanges_iff {ranges : List (ℕ × ℕ)} {n : ℕ} :
    inRanges ranges n = true ↔ ∃ r ∈ ranges, r.1 ≤ n ∧ n ≤ r.2 := by
  rw [inRanges, List.any_eq_true]
  simp only [Bool.and_eq_true, decide_eq_true_eq]

theorem isDecimal_iff {c : Char} :
    isDecimal c = true ↔ ∃ z ∈ decimalZeros, z ≤ c.toNat ∧ c.toNat ≤ z + 9 := by
  rw [isDecimal, decimal, Option.isSome_map, List.find?_isSome]
  simp only [Bool.and_eq_true, decide_eq_true_eq]

theorem isDecimal_eq_isAsciiDigit {c : Char} (h : c.toNat < 0x80) :
    isDecimal c = isAsciiDigit c := by
  refine Bool.eq_iff_iff.mpr ⟨fun hdecimal ↦ ?_, isDecimal_of_isAsciiDigit⟩
  obtain ⟨z, hz, hle, hge⟩ := isDecimal_iff.mp hdecimal
  have hzero : ∀ z ∈ decimalZeros, z = 0x30 ∨ 0x80 ≤ z := by decide
  rw [isAsciiDigit, Bool.and_eq_true, decide_eq_true_eq, decide_eq_true_eq]
  rcases hzero z hz with rfl | hz
  · exact ⟨hle, hge⟩
  · omega

theorem isDecimal_of_inRanges {ranges : List (ℕ × ℕ)} {c : Char}
    (hranges : ∀ r ∈ ranges, ∀ z ∈ decimalZeros, r.2 < z ∨ z + 9 < r.1)
    (h : inRanges ranges c.toNat = true) : isDecimal c = false := by
  refine Bool.eq_false_iff.mpr fun hdecimal ↦ ?_
  obtain ⟨r, hr, hle, hge⟩ := inRanges_iff.mp h
  obtain ⟨z, hz, hle', hge'⟩ := isDecimal_iff.mp hdecimal
  rcases hranges r hr z hz with hlt | hlt
  · omega
  · omega

theorem isDecimal_of_isPySpace {c : Char} (h : isPySpace c = true) : isDecimal c = false := by
  rcases Bool.or_eq_true_iff.mp h with h | h
  · exact isDecimal_of_inRanges (by decide) h
  · exact isDecimal_of_inRanges (by decide) h

theorem isDecimal_of_isJsSpace {c : Char} (h : isJsSpace c = true) : isDecimal c = false := by
  rcases Bool.or_eq_true_iff.mp h with h | h
  · exact isDecimal_of_inRanges (by decide) h
  · exact isDecimal_of_inRanges (by decide) h

theorem not_inRanges_of_printable {ranges : List (ℕ × ℕ)} {n : ℕ}
    (hranges : ∀ r ∈ ranges, r.2 ≤ 0x20 ∨ 0x7f ≤ r.1) (hn : 0x20 < n ∧ n < 0x7f) :
    inRanges ranges n = false := by
  refine Bool.eq_false_iff.mpr fun h ↦ ?_
  obtain ⟨r, hr, hle, hge⟩ := inRanges_iff.mp h
  rcases hranges r hr with hlt | hlt
  · omega
  · omega

theorem not_inRanges_of_apart {ranges others : List (ℕ × ℕ)} {n : ℕ}
    (hapart : ∀ r ∈ ranges, ∀ r' ∈ others, r.2 < r'.1 ∨ r'.2 < r.1)
    (h : inRanges others n = true) : inRanges ranges n = false := by
  refine Bool.eq_false_iff.mpr fun h' ↦ ?_
  obtain ⟨r', hr', hle', hge'⟩ := inRanges_iff.mp h
  obtain ⟨r, hr, hle, hge⟩ := inRanges_iff.mp h'
  rcases hapart r hr r' hr' with hlt | hlt
  · omega
  · omega

end Unicode
