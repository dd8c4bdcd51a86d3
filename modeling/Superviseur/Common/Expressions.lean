import Mathlib.Data.List.TakeWhile
import Superviseur.Library.Precedence
import Superviseur.Library.Unicode

/-!
# The expressions of the rules

A rule of a synoptic applies when an expression is true. Its grammar is documented with the checker
of the API, in Python, and repeated with the evaluator of the viewer, in TypeScript; each has its
own lexer and its own parser.

Both read a text piece by piece, the longest number or word there is, with the blanks and the digits
of their language. `Lexes` says what is read with some `Lexicon`, and two of them read alike the
texts on whose characters they agree, the quoted texts left out.
-/

namespace Superviseur.RuleExpr

open Precedence

/-- `&& || == != <= >= < > ! + - * / % ( )`. -/
inductive Operator where
  | and
  | or
  | eq
  | ne
  | le
  | ge
  | lt
  | gt
  | not
  | add
  | sub
  | mul
  | div
  | mod
  | opening
  | closing
  deriving DecidableEq

def Operator.text : Operator → List Char
  | and => ['&', '&']
  | or => ['|', '|']
  | eq => ['=', '=']
  | ne => ['!', '=']
  | le => ['<', '=']
  | ge => ['>', '=']
  | lt => ['<']
  | gt => ['>']
  | not => ['!']
  | add => ['+']
  | sub => ['-']
  | mul => ['*']
  | div => ['/']
  | mod => ['%']
  | opening => ['(']
  | closing => [')']

/-- The operators, in the order in which they are tried. -/
def operators : List Operator :=
  [.and, .or, .eq, .ne, .le, .ge, .lt, .gt, .not, .add, .sub, .mul, .div, .mod, .opening, .closing]

/-- The operators that may be written as words. -/
def wordOperators : List (String × Operator) := [("and", .and), ("or", .or), ("not", .not)]

/-- The identifiers and the literals. -/
def names : List String := ["value", "status", "true", "false", "null"]

/-- The documented grammar. -/
def grammar : Grammar Operator where
  levels :=
    [.chain [.or], .chain [.and], .pre [.not], .chain [.eq, .ne, .le, .ge, .lt, .gt],
      .chain [.add, .sub], .chain [.mul, .div, .mod], .pre [.sub]]
  opening := .opening
  closing := .closing
  unambiguous := by decide
  closes := by decide

@[simp] theorem grammar_opening : grammar.opening = .opening := rfl

@[simp] theorem grammar_closing : grammar.closing = .closing := rfl

/-- Why an expression is refused. -/
inductive Failure where
  /-- `ExpressionError`. -/
  | expressionError (message : String)
  /-- `RecursionError`. -/
  | recursionError
  deriving DecidableEq

def Failure.refusal : Failure → Refusal
  | expressionError _ => .malformed
  | recursionError => .depth

/-! ## What a parser reads -/

section

variable {τ ρ ρ' : Type} {view : τ → Terminal Operator} {left : ρ → List τ} {left' : ρ' → List τ}

/-- The result of a parser, in the grammar: the terminals of the tokens that are left. -/
def lower (view : τ → Terminal Operator) (left : ρ → List τ) :
    Except Failure ρ → Except Refusal (List (Terminal Operator))
  | .ok read => .ok ((left read).map view)
  | .error e => .error e.refusal

theorem lower_bind {x : Except Failure ρ} {f : ρ → Except Failure ρ'}
    {y : Except Refusal (List (Terminal Operator))}
    {g : List (Terminal Operator) → Except Refusal (List (Terminal Operator))}
    (hx : lower view left x = y)
    (hf : ∀ read, lower view left' (f read) = g ((left read).map view)) :
    lower view left' (x >>= f) = y >>= g := by
  subst hx
  cases x with
  | ok read => exact hf read
  | error e => rfl

/-- A parser that reads the levels of the grammar reads a list whole if and only if it derives from
the grammar. -/
theorem exists_read_iff {n : ℕ} {x : Except Failure ρ} {ts : List τ}
    (h : lower view left x = grammar.parse n grammar.levels (ts.map view)) :
    (∃ read, x = .ok read ∧ left read = []) ↔
      grammar.Derives n grammar.levels (ts.map view) := by
  rw [← Grammar.parse_eq_ok_nil_iff, ← h]
  constructor
  · rintro ⟨read, rfl, hread⟩
    rw [lower, hread, List.map_nil]
  · intro hread
    cases x with
    | error e => nomatch hread
    | ok read => exact ⟨read, rfl, List.map_eq_nil_iff.mp (Except.ok.inj hread)⟩

theorem not_derives_nil {n : ℕ} {ts : List τ}
    (h : grammar.Derives n grammar.levels (ts.map view)) : ts.isEmpty = false := by
  obtain ⟨t, ts', heq, -⟩ := h.exists_cons
  rw [List.isEmpty_eq_false_iff]
  rintro rfl
  nomatch heq

end

/-! ## The pieces of a text -/

def isQuote (c : Char) : Bool := c = '\x27' || c = '\x22'

/-- `[A-Za-z_]`. -/
def isWordStart (c : Char) : Bool :=
  Unicode.inRanges [(0x41, 0x5a), (0x5f, 0x5f), (0x61, 0x7a)] c.toNat

/-- `[A-Za-z0-9_]`. -/
def isWordPart (c : Char) : Bool := isWordStart c || Unicode.isAsciiDigit c

/-- `\d+(?:\.\d+)?`: the number at the start of a text, and the rest. -/
def matchNumber (digit : Char → Bool) (cs : List Char) : Option (List Char × List Char) :=
  let whole := cs.takeWhile digit
  if whole = [] then none
  else match cs.dropWhile digit with
    | '.' :: rest =>
      let decimals := rest.takeWhile digit
      if decimals = [] then some (whole, '.' :: rest)
      else some (whole ++ '.' :: decimals, rest.dropWhile digit)
    | rest => some (whole, rest)

/-- `'[^'\n]*'|"[^"\n]*"`: the quoted text at the start of a text, without its quotes, and the
rest. -/
def matchText : List Char → Option (List Char × List Char)
  | quote :: cs =>
    if isQuote quote then
      match cs.dropWhile fun c ↦ c ≠ quote && c ≠ '\n' with
      | c :: rest =>
        if c = quote then some (cs.takeWhile fun c ↦ c ≠ quote && c ≠ '\n', rest) else none
      | [] => none
    else none
  | [] => none

/-- `[A-Za-z_][A-Za-z0-9_]*`. -/
def matchWord : List Char → Option (List Char × List Char)
  | c :: cs =>
    if isWordStart c then some (c :: cs.takeWhile isWordPart, cs.dropWhile isWordPart) else none
  | [] => none

/-- The first operator that begins a text. -/
def matchOperator (cs : List Char) : Option (Operator × List Char) :=
  operators.findSome? fun o ↦ (o.text.isPrefixOf? cs).map fun rest ↦ (o, rest)

/-- What a word stands for. -/
def wordTerminal (word : List Char) : Terminal Operator :=
  match wordOperators.lookup (String.ofList word) with
  | some o => .op o
  | none => if String.ofList word ∈ names then .operand else .other

theorem wordTerminal_of_some {word : List Char} {o : Operator}
    (h : wordOperators.lookup (String.ofList word) = some o) : wordTerminal word = .op o := by
  rw [wordTerminal, h]

theorem wordTerminal_of_none {word : List Char}
    (h : wordOperators.lookup (String.ofList word) = none) :
    wordTerminal word = if String.ofList word ∈ names then .operand else .other := by
  rw [wordTerminal, h]

/-- The piece at the start of a text that begins with no blank. -/
def lexeme (digit : Char → Bool) (cs : List Char) : Option (Terminal Operator × List Char) :=
  match matchNumber digit cs with
  | some (_, rest) => some (.operand, rest)
  | none => match matchText cs with
    | some (_, rest) => some (.operand, rest)
    | none => match matchWord cs with
      | some (word, rest) => some (wordTerminal word, rest)
      | none => (matchOperator cs).map fun (o, rest) ↦ (.op o, rest)

/-- The characters outside the quoted texts; `quote` is the one of the text that is open. -/
def bare : (quote : Option Char) → List Char → List Char
  | _, [] => []
  | none, c :: cs => if isQuote c then bare (some c) cs else c :: bare none cs
  | some quote, c :: cs => if c = quote then bare none cs else bare (some quote) cs

/-! ## Lexica -/

/-- The printable characters of ASCII. -/
def isPrintable (c : Char) : Bool := 0x20 < c.toNat && c.toNat < 0x7f

theorem isPrintable_iff {c : Char} :
    isPrintable c = true ↔ 0x20 < c.toNat ∧ c.toNat < 0x7f := by
  rw [isPrintable, Bool.and_eq_true, decide_eq_true_eq, decide_eq_true_eq]

/-- The blanks and the digits of a language. -/
structure Lexicon where
  blank : Char → Bool
  digit : Char → Bool
  blank_of_isPrintable : ∀ {c}, isPrintable c = true → blank c = false
  digit_of_isPrintable : ∀ {c}, isPrintable c = true → digit c = Unicode.isAsciiDigit c
  digit_of_blank : ∀ {c}, blank c = true → digit c = false

/-- A text is read as a list of terminals. -/
inductive Lexes (L : Lexicon) : List Char → List (Terminal Operator) → Prop
  | nil : Lexes L [] []
  | blank {c cs ts} : L.blank c = true → Lexes L cs ts → Lexes L (c :: cs) ts
  | piece {c cs t rest ts} : L.blank c = false → lexeme L.digit (c :: cs) = some (t, rest) →
      Lexes L rest ts → Lexes L (c :: cs) (t :: ts)

/-! ## What a piece is made of -/

variable {c : Char} {cs rest number body word : List Char} {digit : Char → Bool}
  {t : Terminal Operator} {o : Operator}

theorem isPrintable_of_isQuote (h : isQuote c = true) :
    isPrintable c = true ∧ Unicode.isAsciiDigit c = false := by
  rw [isQuote, Bool.or_eq_true, decide_eq_true_eq, decide_eq_true_eq] at h
  rcases h with rfl | rfl <;> decide

theorem isPrintable_of_isWordPart (h : isWordPart c = true) :
    isPrintable c = true ∧ isQuote c = false := by
  have hquote : isQuote c = true → isWordPart c = false := by
    intro hquote
    rw [isQuote, Bool.or_eq_true, decide_eq_true_eq, decide_eq_true_eq] at hquote
    rcases hquote with rfl | rfl <;> decide
  refine ⟨?_, Bool.eq_false_iff.mpr fun hc ↦ ?_⟩
  · simp only [isWordPart, isWordStart, Unicode.inRanges, Unicode.isAsciiDigit, List.any_cons,
      List.any_nil, Bool.or_eq_true, Bool.and_eq_true, decide_eq_true_eq, Bool.false_eq_true,
      or_false] at h
    rw [isPrintable_iff]
    omega
  · rw [hquote hc] at h
    simp at h

theorem isPrintable_of_mem_text (h : c ∈ o.text) : isPrintable c = true ∧ isQuote c = false := by
  have hall : (o.text.all fun c ↦ isPrintable c && !isQuote c) = true := by cases o <;> decide
  simpa using List.all_eq_true.mp hall c h

theorem bare_cons (h : isQuote c = false) : bare none (c :: cs) = c :: bare none cs := by
  rw [bare, h]
  rfl

theorem bare_append {pre : List Char} (h : ∀ c ∈ pre, isQuote c = false) :
    bare none (pre ++ cs) = pre ++ bare none cs := by
  induction pre with
  | nil => rfl
  | cons c pre ih =>
    obtain ⟨hc, hpre⟩ := List.forall_mem_cons.mp h
    rw [List.cons_append, bare_cons hc, ih hpre, List.cons_append]

theorem eq_of_matchNumber (h : matchNumber digit cs = some (number, rest)) :
    cs = number ++ rest ∧ number ≠ [] ∧ ∀ c ∈ number, digit c = true ∨ c = '.' := by
  rw [matchNumber] at h
  split at h
  · nomatch h
  · rename_i hwhole
    have hdigit : ∀ {cs : List Char}, ∀ c ∈ cs.takeWhile digit, digit c = true :=
      fun _ hc ↦ List.mem_takeWhile_imp hc
    have happend := List.takeWhile_append_dropWhile (p := digit) (l := cs)
    split at h
    · rename_i rest' hdrop
      rw [hdrop] at happend
      dsimp only at h
      split at h
      · obtain ⟨rfl, rfl⟩ := Prod.mk.inj (Option.some.inj h)
        exact ⟨happend.symm, hwhole, fun c hc ↦ .inl (hdigit c hc)⟩
      · obtain ⟨rfl, rfl⟩ := Prod.mk.inj (Option.some.inj h)
        refine ⟨?_, by simp, fun c hc ↦ ?_⟩
        · rw [List.append_assoc, List.cons_append, List.takeWhile_append_dropWhile, happend]
        · rcases List.mem_append.mp hc with hc | hc
          · exact .inl (hdigit c hc)
          · rcases List.mem_cons.mp hc with rfl | hc
            · exact .inr rfl
            · exact .inl (hdigit c hc)
    · obtain ⟨rfl, rfl⟩ := Prod.mk.inj (Option.some.inj h)
      exact ⟨happend.symm, hwhole, fun c hc ↦ .inl (hdigit c hc)⟩

theorem eq_of_matchText (h : matchText cs = some (body, rest)) : ∃ quote, isQuote quote = true ∧
    cs = quote :: (body ++ quote :: rest) ∧ ∀ c ∈ body, c ≠ quote ∧ c ≠ '\n' := by
  rw [matchText.eq_def] at h
  split at h
  · rename_i quote cs
    split at h
    · rename_i hquote
      split at h
      · rename_i c rest' hdrop
        split at h
        · rename_i hc
          obtain ⟨rfl, rfl⟩ := Prod.mk.inj (Option.some.inj h)
          refine ⟨quote, hquote, ?_, fun c hc ↦ ?_⟩
          · rw [← hc, ← hdrop, hc, List.takeWhile_append_dropWhile]
          · simpa using List.mem_takeWhile_imp hc
        · nomatch h
      · nomatch h
    · nomatch h
  · nomatch h

theorem bare_of_matchText (h : matchText cs = some (body, rest)) :
    bare none cs = bare none rest := by
  obtain ⟨quote, hquote, rfl, hbody⟩ := eq_of_matchText h
  rw [bare, if_pos hquote]
  clear h
  induction body with
  | nil => rw [List.nil_append, bare, if_pos rfl]
  | cons c body ih =>
    obtain ⟨⟨hc, -⟩, hrest⟩ := List.forall_mem_cons.mp hbody
    rw [List.cons_append, bare, if_neg hc, ih hrest]

theorem eq_of_matchWord (h : matchWord cs = some (word, rest)) :
    cs = word ++ rest ∧ word ≠ [] ∧ ∀ c ∈ word, isWordPart c = true := by
  rw [matchWord.eq_def] at h
  split at h
  · rename_i c cs
    split at h
    · rename_i hc
      obtain ⟨rfl, rfl⟩ := Prod.mk.inj (Option.some.inj h)
      refine ⟨by rw [List.cons_append, List.takeWhile_append_dropWhile], by simp, ?_⟩
      refine List.forall_mem_cons.mpr ⟨?_, fun c hc ↦ List.mem_takeWhile_imp hc⟩
      rw [isWordPart, hc, Bool.true_or]
    · nomatch h
  · nomatch h

theorem eq_of_matchOperator (h : matchOperator cs = some (o, rest)) : cs = o.text ++ rest := by
  obtain ⟨o', -, ho'⟩ := List.exists_of_findSome?_eq_some h
  obtain ⟨rest', hrest, heq⟩ := Option.map_eq_some_iff.mp ho'
  obtain ⟨rfl, rfl⟩ := Prod.mk.inj heq
  exact (List.append_eq_of_isPrefixOf?_eq_some hrest).symm

/-- A piece is not empty, and what it has outside quoted texts are digits and printable
characters. -/
theorem bare_lexeme
    (hdigit : ∀ {c}, isPrintable c = true → digit c = Unicode.isAsciiDigit c)
    (h : lexeme digit cs = some (t, rest)) : rest.length < cs.length ∧
      ∃ shown, bare none cs = shown ++ bare none rest ∧
        ∀ c ∈ shown, digit c = true ∨ isPrintable c = true := by
  have hlength : ∀ {pre : List Char}, pre ≠ [] → rest.length < (pre ++ rest).length := by
    intro pre hpre
    have hpos := List.length_pos_of_ne_nil hpre
    rw [List.length_append]
    omega
  rw [lexeme] at h
  split at h
  · rename_i number rest' hnumber
    obtain ⟨-, rfl⟩ := Prod.mk.inj (Option.some.inj h)
    obtain ⟨rfl, hne, hall⟩ := eq_of_matchNumber hnumber
    refine ⟨hlength hne, number, bare_append fun c hc ↦ ?_, fun c hc ↦ (hall c hc).imp_right ?_⟩
    · rcases hall c hc with hc | rfl
      · refine Bool.eq_false_iff.mpr fun hquote ↦ ?_
        obtain ⟨hprintable, hascii⟩ := isPrintable_of_isQuote hquote
        rw [hdigit hprintable, hascii] at hc
        nomatch hc
      · decide
    · rintro rfl
      decide
  · split at h
    · rename_i body rest' htext
      obtain ⟨-, rfl⟩ := Prod.mk.inj (Option.some.inj h)
      -- a quoted text shows nothing
      refine ⟨?_, [], bare_of_matchText htext, fun c hc ↦ nomatch hc⟩
      obtain ⟨quote, -, rfl, -⟩ := eq_of_matchText htext
      simp only [List.length_cons, List.length_append]
      omega
    · split at h
      · rename_i word rest' hword
        obtain ⟨-, rfl⟩ := Prod.mk.inj (Option.some.inj h)
        obtain ⟨rfl, hne, hall⟩ := eq_of_matchWord hword
        exact ⟨hlength hne, word, bare_append fun c hc ↦ (isPrintable_of_isWordPart (hall c hc)).2,
          fun c hc ↦ .inr (isPrintable_of_isWordPart (hall c hc)).1⟩
      · obtain ⟨⟨o, rest'⟩, hoperator, heq⟩ := Option.map_eq_some_iff.mp h
        obtain ⟨-, rfl⟩ := Prod.mk.inj heq
        obtain rfl := eq_of_matchOperator hoperator
        have hne : o.text ≠ [] := by cases o <;> nofun
        exact ⟨hlength hne, o.text, bare_append fun c hc ↦ (isPrintable_of_mem_text hc).2,
          fun c hc ↦ .inr (isPrintable_of_mem_text hc).1⟩

/-! ## Two lexica -/

section

variable {digit' : Char → Bool}

theorem takeWhile_congr (hquote : ∀ c, isQuote c = true → digit c = false ∧ digit' c = false)
    (h : ∀ c ∈ bare none cs, digit c = digit' c) :
    cs.takeWhile digit = cs.takeWhile digit' ∧ cs.dropWhile digit = cs.dropWhile digit' ∧
      ∀ c ∈ bare none (cs.dropWhile digit), c ∈ bare none cs := by
  induction cs with
  | nil => exact ⟨rfl, rfl, fun c hc ↦ hc⟩
  | cons c cs ih =>
    by_cases hc : isQuote c = true
    · obtain ⟨hdigit, hdigit'⟩ := hquote c hc
      have hneg : ¬ digit c = true := by simp [hdigit]
      have hneg' : ¬ digit' c = true := by simp [hdigit']
      rw [List.takeWhile_cons_of_neg hneg, List.takeWhile_cons_of_neg hneg',
        List.dropWhile_cons_of_neg hneg, List.dropWhile_cons_of_neg hneg']
      exact ⟨rfl, rfl, fun c hc ↦ hc⟩
    · have hbare := @bare_cons c cs (Bool.eq_false_iff.mpr hc)
      rw [hbare] at h ⊢
      obtain ⟨hsame, hrest⟩ := List.forall_mem_cons.mp h
      obtain ⟨htake, hdrop, hmem⟩ := ih hrest
      by_cases hdigit : digit c = true
      · have hdigit' := hsame ▸ hdigit
        rw [List.takeWhile_cons_of_pos hdigit, List.takeWhile_cons_of_pos hdigit',
          List.dropWhile_cons_of_pos hdigit, List.dropWhile_cons_of_pos hdigit', htake]
        exact ⟨rfl, hdrop, fun c hc ↦ List.mem_cons_of_mem _ (hmem c hc)⟩
      · have hdigit' := hsame ▸ hdigit
        rw [List.takeWhile_cons_of_neg hdigit, List.takeWhile_cons_of_neg hdigit',
          List.dropWhile_cons_of_neg hdigit, List.dropWhile_cons_of_neg hdigit', hbare]
        exact ⟨rfl, rfl, fun c hc ↦ hc⟩

theorem lexeme_congr (hquote : ∀ c, isQuote c = true → digit c = false ∧ digit' c = false)
    (h : ∀ c ∈ bare none cs, digit c = digit' c) : lexeme digit cs = lexeme digit' cs := by
  have hnumber : matchNumber digit cs = matchNumber digit' cs := by
    obtain ⟨htake, hdrop, hmem⟩ := takeWhile_congr hquote h
    rw [matchNumber, matchNumber, ← htake, ← hdrop]
    split
    · rfl
    · split
      · rename_i rest hdropped
        rw [hdropped] at hmem
        have hrest : ∀ c ∈ bare none rest, digit c = digit' c := fun c hc ↦
          h c (hmem c (List.mem_cons_of_mem _ hc))
        obtain ⟨htake', hdrop', -⟩ := takeWhile_congr hquote hrest
        rw [htake', hdrop']
      · rfl
  rw [lexeme, lexeme, hnumber]

end

variable {L L' : Lexicon} {ts : List (Terminal Operator)}

/-! ### The steps of a reading -/

theorem lexes_nil_iff : Lexes L [] ts ↔ ts = [] := by
  constructor
  · rintro ⟨⟩
    rfl
  · rintro rfl
    exact .nil

theorem lexes_blank_iff (hc : L.blank c = true) : Lexes L (c :: cs) ts ↔ Lexes L cs ts := by
  constructor
  · intro h
    cases h with
    | blank _ h => exact h
    | piece hblank _ _ =>
      rw [hc] at hblank
      nomatch hblank
  · exact .blank hc

theorem lexes_piece_iff (hc : L.blank c = false) : Lexes L (c :: cs) ts ↔
    ∃ t rest ts', ts = t :: ts' ∧ lexeme L.digit (c :: cs) = some (t, rest) ∧ Lexes L rest ts' := by
  constructor
  · intro h
    cases h with
    | blank hblank _ =>
      rw [hc] at hblank
      nomatch hblank
    | piece _ hlexeme h => exact ⟨_, _, _, rfl, hlexeme, h⟩
  · rintro ⟨t, rest, ts', rfl, hlexeme, h⟩
    exact .piece hc hlexeme h

theorem lexes_dropWhile_iff : Lexes L (cs.dropWhile L.blank) ts ↔ Lexes L cs ts := by
  induction cs with
  | nil => rfl
  | cons c cs ih =>
    by_cases hc : L.blank c = true
    · rw [List.dropWhile_cons_of_pos hc, ih, lexes_blank_iff hc]
    · rw [List.dropWhile_cons_of_neg hc]

theorem lexes_of_all_blank (h : cs.all L.blank = true) : Lexes L cs ts ↔ ts = [] := by
  rw [← lexes_dropWhile_iff, List.dropWhile_eq_nil_iff.mpr (List.all_eq_true.mp h), lexes_nil_iff]

/-- A text that is not all blank goes on, after its blanks, with a piece. -/
theorem lexes_iff_exists_piece (h : cs.all L.blank = false) : Lexes L cs ts ↔
    ∃ t rest ts', ts = t :: ts' ∧ lexeme L.digit (cs.dropWhile L.blank) = some (t, rest) ∧
      Lexes L rest ts' := by
  rw [← lexes_dropWhile_iff]
  cases hdrop : cs.dropWhile L.blank with
  | nil =>
    rw [List.all_eq_true.mpr (List.dropWhile_eq_nil_iff.mp hdrop)] at h
    nomatch h
  | cons c cs' =>
    have hc := List.head_dropWhile_not L.blank (w := by rw [hdrop]; exact List.cons_ne_nil _ _)
    simp only [hdrop, List.head_cons] at hc
    exact lexes_piece_iff hc

/-! ### Comparison -/

/-- The character is of the same kind in two lexica. -/
def Lexicon.Same (L L' : Lexicon) (c : Char) : Prop :=
  L.blank c = L'.blank c ∧ L.digit c = L'.digit c

/-- The blanks and the digits of a lexicon are those of another one. -/
structure Lexicon.Le (L L' : Lexicon) : Prop where
  blank : ∀ {c}, L.blank c = true → L'.blank c = true
  digit : ∀ {c}, L.digit c = true → L'.digit c = true

theorem Lexicon.same_of_isPrintable (h : isPrintable c = true) : L.Same L' c := by
  rw [Lexicon.Same, L.blank_of_isPrintable h, L'.blank_of_isPrintable h, L.digit_of_isPrintable h,
    L'.digit_of_isPrintable h]
  exact ⟨rfl, rfl⟩

theorem Lexicon.Le.same_of_blank (hle : L.Le L') (h : L.blank c = true) : L.Same L' c := by
  have h' := hle.blank h
  exact ⟨h.trans h'.symm, (L.digit_of_blank h).trans (L'.digit_of_blank h').symm⟩

theorem Lexicon.Le.same_of_digit (hle : L.Le L') (h : L.digit c = true) : L.Same L' c := by
  have hblank : ∀ L : Lexicon, L.digit c = true → L.blank c = false := by
    intro L hdigit
    refine Bool.eq_false_iff.mpr fun hblank ↦ ?_
    rw [L.digit_of_blank hblank] at hdigit
    nomatch hdigit
  have h' := hle.digit h
  exact ⟨(hblank L h).trans (hblank L' h').symm, h.trans h'.symm⟩

theorem Lexicon.digit_of_isQuote (L : Lexicon) (h : isQuote c = true) : L.digit c = false := by
  obtain ⟨hprintable, hascii⟩ := isPrintable_of_isQuote h
  rw [L.digit_of_isPrintable hprintable, hascii]

theorem Lexicon.not_isQuote_of_blank (L : Lexicon) (h : L.blank c = true) : isQuote c = false := by
  refine Bool.eq_false_iff.mpr fun hquote ↦ ?_
  rw [L.blank_of_isPrintable (isPrintable_of_isQuote hquote).1] at h
  nomatch h

/-- What is read with a lexicon has nothing that is only in a larger one. -/
theorem Lexes.same (hle : L.Le L') (h : Lexes L cs ts) : ∀ c ∈ bare none cs, L.Same L' c := by
  induction h with
  | nil => exact fun c hc ↦ nomatch hc
  | blank hblank _ ih =>
    rw [bare_cons (L.not_isQuote_of_blank hblank)]
    exact List.forall_mem_cons.mpr ⟨hle.same_of_blank hblank, ih⟩
  | piece _ hlexeme _ ih =>
    obtain ⟨-, shown, hbare, hshown⟩ := bare_lexeme L.digit_of_isPrintable hlexeme
    rw [hbare]
    intro c hc
    rcases List.mem_append.mp hc with hc | hc
    · rcases hshown c hc with hdigit | hprintable
      · exact hle.same_of_digit hdigit
      · exact Lexicon.same_of_isPrintable hprintable
    · exact ih c hc

theorem Lexes.congr (h : Lexes L cs ts) (hsame : ∀ c ∈ bare none cs, L.Same L' c) :
    Lexes L' cs ts := by
  induction h with
  | nil => exact .nil
  | blank hblank _ ih =>
    rw [bare_cons (L.not_isQuote_of_blank hblank)] at hsame
    obtain ⟨hc, hrest⟩ := List.forall_mem_cons.mp hsame
    exact .blank (hc.1 ▸ hblank) (ih hrest)
  | @piece c cs t rest ts hblank hlexeme _ ih =>
    obtain ⟨-, shown, hbare, -⟩ := bare_lexeme L.digit_of_isPrintable hlexeme
    refine .piece ?_ ?_ (ih fun c hc ↦ hsame c (hbare ▸ List.mem_append_right _ hc))
    · by_cases hquote : isQuote c = true
      · exact L'.blank_of_isPrintable (isPrintable_of_isQuote hquote).1
      · rw [bare_cons (Bool.eq_false_iff.mpr hquote)] at hsame
        rw [← (hsame c (List.mem_cons_self ..)).1]
        exact hblank
    · rw [← hlexeme]
      exact (lexeme_congr (fun c hc ↦ ⟨L.digit_of_isQuote hc, L'.digit_of_isQuote hc⟩)
        fun c hc ↦ (hsame c hc).2).symm

/-- **A lexicon reads the texts a larger one reads**, but for those that have, outside quoted texts,
a character that is a blank or a digit in the larger one only. -/
theorem lexes_iff (hle : L.Le L') :
    Lexes L cs ts ↔ Lexes L' cs ts ∧ ∀ c ∈ bare none cs, L.Same L' c := by
  constructor
  · exact fun h ↦ ⟨h.congr (h.same hle), h.same hle⟩
  · rintro ⟨h, hsame⟩
    exact h.congr fun c hc ↦ ⟨(hsame c hc).1.symm, (hsame c hc).2.symm⟩

end Superviseur.RuleExpr
