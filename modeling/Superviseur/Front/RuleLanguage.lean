import Superviseur.Api.SynopticExpr
import Superviseur.Front.Expressions

/-!
# The language of the rules

The checker of the API and the compiler of the viewer are to accept the same expressions. Both
accept those of the documented grammar, each with the blanks and the digits of its own language, and
the checker those alone that nest no deeper than its interpreter allows.

So **they agree on a text that is no expression, and on one whose characters outside quoted texts
are of the same kind in both languages**, if it does not nest too deep. Where a character is a blank
or a digit in one of them only, or the nesting is too deep, they agree when both refuse the text.
-/

namespace Superviseur.RuleExpr

open Precedence SynopticExpr Expressions

/-- The blanks and the digits of both languages. -/
def bothLexicon : Lexicon where
  blank c := Unicode.isPySpace c || Unicode.isJsSpace c
  digit := Unicode.isDecimal
  blank_of_isPrintable h :=
    Bool.or_eq_false_iff.mpr ⟨pyLexicon.blank_of_isPrintable h, jsLexicon.blank_of_isPrintable h⟩
  digit_of_isPrintable := pyLexicon.digit_of_isPrintable
  digit_of_blank h := by
    rcases Bool.or_eq_true_iff.mp h with h | h
    · exact Unicode.isDecimal_of_isPySpace h
    · exact Unicode.isDecimal_of_isJsSpace h

/-- A text is an expression of the documented grammar, no more than `n` of whose levels nest. -/
def IsExpression (n : ℕ) (text : String) : Prop :=
  ∃ ts, Lexes bothLexicon text.toList ts ∧ grammar.Derives n grammar.levels ts

/-- A blank of ECMAScript that is none of Python. -/
def onlyJs (c : Char) : Bool := Unicode.inRanges Unicode.jsBlanks c.toNat

/-- A blank or a digit of Python that is none of ECMAScript. -/
def onlyPy (c : Char) : Bool :=
  Unicode.inRanges Unicode.pyBlanks c.toNat || (Unicode.isDecimal c && !Unicode.isAsciiDigit c)

variable {c : Char} {frames : ℕ} {text : String}

theorem py_le_both : pyLexicon.Le bothLexicon where
  blank h := Bool.or_eq_true_iff.mpr (.inl h)
  digit h := h

theorem js_le_both : jsLexicon.Le bothLexicon where
  blank h := Bool.or_eq_true_iff.mpr (.inr h)
  digit h := Unicode.isDecimal_of_isAsciiDigit h

theorem same_py_iff : pyLexicon.Same bothLexicon c ↔ onlyJs c = false := by
  have happart : onlyJs c = true → Unicode.isPySpace c = false := fun h ↦
    Bool.or_eq_false_iff.mpr ⟨Unicode.not_inRanges_of_apart (by decide) h,
      Unicode.not_inRanges_of_apart (by decide) h⟩
  constructor
  · rintro ⟨hblank, -⟩
    refine Bool.eq_false_iff.mpr fun h ↦ ?_
    have hjs : Unicode.isJsSpace c = true := Bool.or_eq_true_iff.mpr (.inr h)
    have hpy : Unicode.isPySpace c = (Unicode.isPySpace c || Unicode.isJsSpace c) := hblank
    rw [happart h, hjs] at hpy
    nomatch hpy
  · intro h
    refine ⟨?_, rfl⟩
    change Unicode.isPySpace c = (Unicode.isPySpace c || Unicode.isJsSpace c)
    rw [Unicode.isJsSpace, show Unicode.inRanges Unicode.jsBlanks c.toNat = false from h,
      Bool.or_false, Unicode.isPySpace, Bool.or_right_comm, Bool.or_self]

theorem same_js_iff : jsLexicon.Same bothLexicon c ↔ onlyPy c = false := by
  have happart : Unicode.inRanges Unicode.pyBlanks c.toNat = true → Unicode.isJsSpace c = false :=
    fun h ↦ Bool.or_eq_false_iff.mpr ⟨Unicode.not_inRanges_of_apart (by decide) h,
      Unicode.not_inRanges_of_apart (by decide) h⟩
  constructor
  · rintro ⟨hblank, hdigit⟩
    have hjs : Unicode.isJsSpace c = (Unicode.isPySpace c || Unicode.isJsSpace c) := hblank
    have hascii : Unicode.isAsciiDigit c = Unicode.isDecimal c := hdigit
    refine Bool.or_eq_false_iff.mpr ⟨Bool.eq_false_iff.mpr fun h ↦ ?_, ?_⟩
    · have hpy : Unicode.isPySpace c = true := Bool.or_eq_true_iff.mpr (.inr h)
      rw [happart h, hpy] at hjs
      nomatch hjs
    · rw [hascii, Bool.and_not_self]
  · intro h
    obtain ⟨hblank, hdigit⟩ := Bool.or_eq_false_iff.mp h
    constructor
    · change Unicode.isJsSpace c = (Unicode.isPySpace c || Unicode.isJsSpace c)
      rw [Unicode.isPySpace, hblank, Bool.or_false, Unicode.isJsSpace, ← Bool.or_assoc,
        Bool.or_self]
    · change Unicode.isAsciiDigit c = Unicode.isDecimal c
      cases hascii : Unicode.isAsciiDigit c with
      | true => exact (Unicode.isDecimal_of_isAsciiDigit hascii).symm
      | false =>
        rw [hascii, Bool.not_false, Bool.and_true] at hdigit
        exact hdigit.symm

/-- The checker accepts the expressions that nest no deeper than its frames and have no blank of
ECMAScript only. -/
theorem checkExpression_iff : checkExpression frames text = .ok () ↔
    IsExpression frames text ∧ ∀ c ∈ bare none text.toList, onlyJs c = false := by
  rw [checkExpression_eq_ok_iff]
  constructor
  · rintro ⟨ts, hlexes, hderives⟩
    obtain ⟨hboth, hsame⟩ := (lexes_iff py_le_both).mp hlexes
    exact ⟨⟨ts, hboth, hderives⟩, fun c hc ↦ same_py_iff.mp (hsame c hc)⟩
  · rintro ⟨⟨ts, hboth, hderives⟩, honly⟩
    exact ⟨ts, (lexes_iff py_le_both).mpr ⟨hboth, fun c hc ↦ same_py_iff.mpr (honly c hc)⟩,
      hderives⟩

/-- The compiler accepts the expressions that have no blank and no digit of Python only. -/
theorem compile_iff : (∃ tree, compile text = .ok tree) ↔
    (∃ n, IsExpression n text) ∧ ∀ c ∈ bare none text.toList, onlyPy c = false := by
  rw [exists_compile_iff]
  constructor
  · rintro ⟨n, ts, hlexes, hderives⟩
    obtain ⟨hboth, hsame⟩ := (lexes_iff js_le_both).mp hlexes
    exact ⟨⟨n, ts, hboth, hderives⟩, fun c hc ↦ same_js_iff.mp (hsame c hc)⟩
  · rintro ⟨⟨n, ts, hboth, hderives⟩, honly⟩
    exact ⟨n, ts, (lexes_iff js_le_both).mpr ⟨hboth, fun c hc ↦ same_js_iff.mpr (honly c hc)⟩,
      hderives⟩

/-- **When the two verdicts are the same**: the text is no expression; or it nests no deeper than
the frames of the checker and has no blank of ECMAScript only, if and only if it has no blank and no
digit of Python only, the quoted texts left out. -/
theorem same_verdict_iff (frames : ℕ) (text : String) :
    (checkExpression frames text = .ok () ↔ ∃ tree, compile text = .ok tree) ↔
      ∀ n, IsExpression n text →
        ((IsExpression frames text ∧ ∀ c ∈ bare none text.toList, onlyJs c = false) ↔
          ∀ c ∈ bare none text.toList, onlyPy c = false) := by
  rw [checkExpression_iff, compile_iff]
  constructor
  · intro h n hn
    constructor
    · exact fun hcheck ↦ (h.mp hcheck).2
    · exact fun honly ↦ h.mpr ⟨⟨n, hn⟩, honly⟩
  · intro h
    constructor
    · exact fun hcheck ↦ ⟨⟨frames, hcheck.1⟩, (h frames hcheck.1).mp hcheck⟩
    · rintro ⟨⟨n, hn⟩, honly⟩
      exact (h n hn).mpr honly

/-- A text of so many brackets around a number. -/
def nested (brackets : ℕ) : String :=
  String.ofList (List.replicate brackets '(' ++ '1' :: List.replicate brackets ')')

/-- Three texts with different verdicts: a digit that is not ASCII, a byte order mark, and a number
in more brackets than the interpreter can follow. -/
theorem different_verdicts :
    (checkExpression 900 "value > \uff12" = .ok () ∧
      ¬ ∃ tree, compile "value > \uff12" = .ok tree) ∧
    (checkExpression 900 "\ufeffvalue > 1" ≠ .ok () ∧
      ∃ tree, compile "\ufeffvalue > 1" = .ok tree) ∧
    (checkExpression 900 (nested 113) = .error .recursionError ∧
      ∃ tree, compile (nested 113) = .ok tree) := by
  have hok : ∀ {text}, (compile text).isOk = true → ∃ tree, compile text = .ok tree := by
    intro text h
    cases htree : compile text with
    | error e =>
      rw [htree] at h
      nomatch h
    | ok tree => exact ⟨tree, rfl⟩
  refine ⟨⟨by decide +kernel, ?_⟩, ⟨by decide +kernel, hok (by decide +kernel)⟩, ?_, hok ?_⟩
  · rintro ⟨tree, htree⟩
    have hrefused : (compile "value > \uff12").isOk = false := by decide
    rw [htree] at hrefused
    nomatch hrefused
  · rw [checkExpression, nested, String.toList_ofList]
    decide +kernel
  · rw [compile, nested, String.toList_ofList]
    decide +kernel

end Superviseur.RuleExpr
