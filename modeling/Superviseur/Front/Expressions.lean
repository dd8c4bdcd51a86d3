import Superviseur.Common.Expressions
import Superviseur.Library.PyFloat

/-!
# The compiler of expressions

`compile` makes a tree of an expression, for the viewer to evaluate. `tokenize` goes through the
text character by character; the parser goes down the levels of the grammar, with one function for
all the levels of binary operators.

The parser is given how deep its functions may call each other; `compile` gives it a depth that the
number of tokens makes enough, so that nothing is refused for it.
-/

namespace Superviseur.Expressions

open RuleExpr Precedence

/-- `ExprValue`. -/
inductive ExprValue where
  | number (x : PyFloat)
  | text (s : List Char)
  | bool (b : Bool)
  | null

/-- A node of the tree. -/
inductive Node where
  | literal (value : ExprValue)
  | variable (name : List Char)
  | unary (op : Operator) (operand : Node)
  | binary (op : Operator) (left right : Node)

/-- A token. `WORD_OPERATORS` is an object: it has the members of `Object.prototype` too, and such a
name makes an operator whose text, given here as it is written, is that of none. -/
inductive Token where
  | number (text : List Char)
  | string (text : List Char)
  | word (text : List Char)
  | op (o : Operator)
  | member (text : String)

/-- The members of `Object.prototype`, and how they are written. -/
def objectPrototype : List (String × String) :=
  ("constructor", "function Object() \x7b [native code] \x7d") ::
    ("__proto__", "[object Object]") ::
    ["__defineGetter__", "__defineSetter__", "hasOwnProperty", "__lookupGetter__",
      "__lookupSetter__", "isPrototypeOf", "propertyIsEnumerable", "toString", "valueOf",
      "toLocaleString"].map fun name ↦ (name, "function " ++ name ++ "() \x7b [native code] \x7d")

/-- The code units of a text. -/
def units (cs : List Char) : ℕ := (cs.map fun c ↦ if c.toNat < 0x10000 then 1 else 2).sum

/-- `text.indexOf(char, i + 1)`: what comes before the character, and what comes after. -/
def indexOf (char : Char) (cs : List Char) : Option (List Char × List Char) :=
  match cs.dropWhile (· ≠ char) with
  | _ :: rest => some (cs.takeWhile (· ≠ char), rest)
  | [] => none

/-- The token of a word. -/
def wordToken (name : List Char) : Except RuleExpr.Failure Token :=
  match wordOperators.lookup (String.ofList name) with
  | some o => .ok (.op o)
  | none => match objectPrototype.lookup (String.ofList name) with
    | some text => .ok (.member text)
    | none =>
      if String.ofList name ∈ names then .ok (.word name)
      else .error (.expressionError ("identifiant inconnu : " ++ String.ofList name))

/-- The loop of `tokenize`, as many times as there are characters at most; `i` counts code units. -/
def tokenizeFrom : ℕ → (i : ℕ) → List Char → Except RuleExpr.Failure (List Token)
  | _, _, [] => .ok []
  | 0, _, _ :: _ => .ok []
  | n + 1, i, char :: cs =>
    if Unicode.isJsSpace char then tokenizeFrom n (i + 1) cs
    else match matchNumber Unicode.isAsciiDigit (char :: cs) with
    | some (text, rest) => do
      let tokens ← tokenizeFrom n (i + text.length) rest
      return .number text :: tokens
    | none =>
      if isQuote char then
        match indexOf char cs with
        | some (body, rest) =>
          if '\n' ∈ body then .error (.expressionError "texte non terminé")
          else do
            let tokens ← tokenizeFrom n (i + 1 + units body + 1) rest
            return .string body :: tokens
        | none => .error (.expressionError "texte non terminé")
      else match matchWord (char :: cs) with
      | some (name, rest) => do
        let token ← wordToken name
        let tokens ← tokenizeFrom n (i + name.length) rest
        return token :: tokens
      | none => match matchOperator (char :: cs) with
        | some (o, rest) => do
          let tokens ← tokenizeFrom n (i + o.text.length) rest
          return .op o :: tokens
        | none =>
          .error (.expressionError ("caractère inattendu à la position " ++ toString i))

/-- `tokenize`. -/
def tokenize (text : List Char) : Except RuleExpr.Failure (List Token) :=
  tokenizeFrom text.length 0 text

/-! ## The parser -/

/-- `takeOp`; the tokens that are left stand for `index`. -/
def takeOp (operators : List Operator) : List Token → Option (Operator × List Token)
  | .op o :: ts => if o ∈ operators then some (o, ts) else none
  | _ => none

/-- The loop of `chain`, as many times as there are tokens at most. -/
def chainFrom (next : List Token → Except RuleExpr.Failure (Node × List Token))
    (operators : List Operator) :
    ℕ → Node → List Token → Except RuleExpr.Failure (Node × List Token)
  | 0, left, ts => .ok (left, ts)
  | n + 1, left, ts => match takeOp operators ts with
    | some (op, ts) => do
      let (right, ts) ← next ts
      chainFrom next operators n (.binary op left right) ts
    | none => .ok (left, ts)

/-- `chain`. -/
def chain (next : List Token → Except RuleExpr.Failure (Node × List Token))
    (operators : List Operator) (ts : List Token) :
    Except RuleExpr.Failure (Node × List Token) := do
  let (left, ts) ← next ts
  chainFrom next operators ts.length left ts

/-- `Number(text)`, for the text of a number. -/
def toNumber (text : List Char) : PyFloat :=
  let whole := text.takeWhile Unicode.isAsciiDigit
  let decimals := (text.dropWhile Unicode.isAsciiDigit).drop 1
  let digits : ℕ := (whole ++ decimals).foldl (fun n c ↦ 10 * n + (c.toNat - 0x30)) 0
  .round ((digits : ℚ) / 10 ^ decimals.length)

/-- The node of a word. -/
def wordNode (text : List Char) : Node :=
  if text = "true".toList then .literal (.bool true)
  else if text = "false".toList then .literal (.bool false)
  else if text = "null".toList then .literal .null
  else .variable text

namespace Parser

mutual

def or : (depth : ℕ) → List Token → Except RuleExpr.Failure (Node × List Token)
  | 0, _ => .error .recursionError
  | n + 1, ts => chain (and n) [.or] ts

def and : (depth : ℕ) → List Token → Except RuleExpr.Failure (Node × List Token)
  | 0, _ => .error .recursionError
  | n + 1, ts => chain (not n) [.and] ts

def not : (depth : ℕ) → List Token → Except RuleExpr.Failure (Node × List Token)
  | 0, _ => .error .recursionError
  | n + 1, ts => match takeOp [.not] ts with
    | some (_, ts) => do
      let (operand, ts) ← not n ts
      return (.unary .not operand, ts)
    | none => cmp n ts

def cmp : (depth : ℕ) → List Token → Except RuleExpr.Failure (Node × List Token)
  | 0, _ => .error .recursionError
  | n + 1, ts => chain (add n) [.eq, .ne, .le, .ge, .lt, .gt] ts

def add : (depth : ℕ) → List Token → Except RuleExpr.Failure (Node × List Token)
  | 0, _ => .error .recursionError
  | n + 1, ts => chain (mul n) [.add, .sub] ts

def mul : (depth : ℕ) → List Token → Except RuleExpr.Failure (Node × List Token)
  | 0, _ => .error .recursionError
  | n + 1, ts => chain (unary n) [.mul, .div, .mod] ts

def unary : (depth : ℕ) → List Token → Except RuleExpr.Failure (Node × List Token)
  | 0, _ => .error .recursionError
  | n + 1, ts => match takeOp [.sub] ts with
    | some (_, ts) => do
      let (operand, ts) ← unary n ts
      return (.unary .sub operand, ts)
    | none => primary n ts

def primary : (depth : ℕ) → List Token → Except RuleExpr.Failure (Node × List Token)
  | _, [] => .error (.expressionError "expression incomplète")
  | _, .number text :: ts => .ok (.literal (.number (toNumber text)), ts)
  | _, .string text :: ts => .ok (.literal (.text text), ts)
  | _, .word text :: ts => .ok (wordNode text, ts)
  | _, .member text :: _ => .error (.expressionError ("jeton inattendu : " ++ text))
  | 0, .op _ :: _ => .error .recursionError
  | n + 1, .op o :: ts =>
    if o = .opening then do
      let (inner, ts) ← or n ts
      match takeOp [.closing] ts with
      | some (_, ts) => .ok (inner, ts)
      | none => .error (.expressionError "parenthèse fermante attendue")
    else .error (.expressionError ("jeton inattendu : " ++ String.ofList o.text))

end

/-- `parse`. -/
def parse (depth : ℕ) (ts : List Token) : Except RuleExpr.Failure Node :=
  if ts.isEmpty then .error (.expressionError "expression vide")
  else do
    let (node, ts) ← or depth ts
    if ts.isEmpty then return node
    else .error (.expressionError "expression incomplète ou jeton en trop")

end Parser

/-- A depth that is enough for so many tokens. -/
def enough (tokens : ℕ) : ℕ := grammar.depth grammar.levels tokens

/-- `compile`. -/
def compile (text : String) : Except RuleExpr.Failure Node := do
  let ts ← tokenize text.toList
  Parser.parse (enough ts.length) ts

/-! ## The parser and the grammar -/

/-- What a token is in the grammar. -/
def Token.view : Token → Terminal Operator
  | op o => .op o
  | member _ => .other
  | _ => .operand

theorem take_view (operators : List Operator) (ts : List Token) :
    Grammar.take operators (ts.map Token.view) =
      (takeOp operators ts).map fun taken ↦ taken.2.map Token.view := by
  match ts with
  | [] => rfl
  | .number _ :: _ => rfl
  | .string _ :: _ => rfl
  | .word _ :: _ => rfl
  | .member _ :: _ => rfl
  | .op o :: ts =>
    rw [takeOp, List.map_cons, Token.view, Grammar.take]
    split <;> rfl

theorem lower_chainFrom {operators : List Operator}
    {next : List Token → Except RuleExpr.Failure (Node × List Token)}
    {next' : List (Terminal Operator) → Except Refusal (List (Terminal Operator))}
    (hnext : ∀ ts, lower Token.view Prod.snd (next ts) = next' (ts.map Token.view)) (k : ℕ)
    (left : Node) (ts : List Token) :
    lower Token.view Prod.snd (chainFrom next operators k left ts) =
      Grammar.repeated operators next' k (ts.map Token.view) := by
  induction k generalizing left ts with
  | zero => rfl
  | succ k ih =>
    rw [chainFrom, Grammar.repeated, take_view]
    cases takeOp operators ts with
    | none => rfl
    | some taken =>
      exact lower_bind (hnext taken.2) fun read ↦ ih (.binary taken.1 left read.1) read.2

theorem lower_chain {operators : List Operator} {levels : List (Level Operator)} {n : ℕ}
    {next : List Token → Except RuleExpr.Failure (Node × List Token)}
    (hnext : ∀ ts, lower Token.view Prod.snd (next ts) = grammar.parse n levels (ts.map Token.view))
    (ts : List Token) : lower Token.view Prod.snd (chain next operators ts) =
      grammar.parse (n + 1) (.chain operators :: levels) (ts.map Token.view) := by
  refine lower_bind (hnext ts) fun read ↦ ?_
  rw [lower_chainFrom hnext, List.length_map]

theorem lower_prefixed {operators : List Operator} {levels : List (Level Operator)} {n : ℕ}
    {self next : List Token → Except RuleExpr.Failure (Node × List Token)} {o : Operator}
    (hself : ∀ ts, lower Token.view Prod.snd (self ts) =
      grammar.parse n (.pre operators :: levels) (ts.map Token.view))
    (hnext : ∀ ts, lower Token.view Prod.snd (next ts) = grammar.parse n levels (ts.map Token.view))
    (ts : List Token) :
    lower Token.view Prod.snd (match takeOp operators ts with
      | some (_, ts) => do
        let (operand, ts) ← self ts
        return (.unary o operand, ts)
      | none => next ts) =
      grammar.parse (n + 1) (.pre operators :: levels) (ts.map Token.view) := by
  rw [Grammar.parse, take_view]
  cases takeOp operators ts with
  | none => exact hnext ts
  | some taken =>
    change lower Token.view Prod.snd
      (self taken.2 >>= fun read ↦ pure (Node.unary o read.1, read.2)) =
      grammar.parse n (.pre operators :: levels) (taken.2.map Token.view)
    rw [← hself taken.2]
    cases self taken.2 <;> rfl

/-- The functions of the parser, at some depth, read the levels of the grammar. -/
structure Reads (n : ℕ) : Prop where
  or : ∀ ts, lower Token.view Prod.snd (Parser.or n ts) =
    grammar.parse n grammar.levels (ts.map Token.view)
  and : ∀ ts, lower Token.view Prod.snd (Parser.and n ts) =
    grammar.parse n (grammar.levels.drop 1) (ts.map Token.view)
  not : ∀ ts, lower Token.view Prod.snd (Parser.not n ts) =
    grammar.parse n (grammar.levels.drop 2) (ts.map Token.view)
  cmp : ∀ ts, lower Token.view Prod.snd (Parser.cmp n ts) =
    grammar.parse n (grammar.levels.drop 3) (ts.map Token.view)
  add : ∀ ts, lower Token.view Prod.snd (Parser.add n ts) =
    grammar.parse n (grammar.levels.drop 4) (ts.map Token.view)
  mul : ∀ ts, lower Token.view Prod.snd (Parser.mul n ts) =
    grammar.parse n (grammar.levels.drop 5) (ts.map Token.view)
  unary : ∀ ts, lower Token.view Prod.snd (Parser.unary n ts) =
    grammar.parse n (grammar.levels.drop 6) (ts.map Token.view)
  primary : ∀ ts, lower Token.view Prod.snd (Parser.primary n ts) =
    grammar.parse n [] (ts.map Token.view)

theorem reads (n : ℕ) : Reads n := by
  induction n with
  | zero =>
    refine ⟨fun _ ↦ rfl, fun _ ↦ rfl, fun _ ↦ rfl, fun _ ↦ rfl, fun _ ↦ rfl, fun _ ↦ rfl,
      fun _ ↦ rfl, fun ts ↦ ?_⟩
    rcases ts with - | ⟨token, ts⟩
    · rfl
    · cases token <;> rfl
  | succ n ih =>
    refine ⟨lower_chain ih.and, lower_chain ih.not, lower_prefixed ih.not ih.cmp,
      lower_chain ih.add, lower_chain ih.mul, lower_chain ih.unary,
      lower_prefixed ih.unary ih.primary, fun ts ↦ ?_⟩
    rcases ts with - | ⟨token, ts⟩
    · rfl
    cases token with
    | number text | string text | word text | member text => rfl
    | op o =>
      rw [Parser.primary, List.map_cons, Token.view, Grammar.parse, grammar_opening,
        grammar_closing]
      by_cases ho : o = .opening
      · rw [if_pos ho, if_pos ho]
        refine lower_bind (ih.or ts) fun pair ↦ ?_
        obtain ⟨inner, rest⟩ := pair
        dsimp only
        rw [take_view]
        cases takeOp [.closing] rest with
        | none => rfl
        | some taken => rfl
      · rw [if_neg ho, if_neg ho]
        rfl

/-- **The parser accepts the lists of tokens that derive from the grammar.** -/
theorem exists_parse_iff {depth : ℕ} {ts : List Token} :
    (∃ node, Parser.parse depth ts = .ok node) ↔
      grammar.Derives depth grammar.levels (ts.map Token.view) := by
  rw [← exists_read_iff ((reads depth).or ts), Parser.parse]
  constructor
  · rintro ⟨node, h⟩
    split at h
    · nomatch h
    · obtain ⟨read, hread, h⟩ := Grammar.bind_eq_ok h
      dsimp only at h
      split at h
      · rename_i hempty
        exact ⟨read, hread, List.isEmpty_iff.mp hempty⟩
      · nomatch h
  · intro h
    rw [not_derives_nil ((exists_read_iff ((reads depth).or ts)).mp h)]
    obtain ⟨⟨node, rest⟩, hread, rfl : rest = []⟩ := h
    refine ⟨node, ?_⟩
    rw [hread]
    rfl

/-! ## The lexer -/

/-- The blanks and the digits of ECMAScript. -/
def jsLexicon : Lexicon where
  blank := Unicode.isJsSpace
  digit := Unicode.isAsciiDigit
  blank_of_isPrintable h := by
    have hn := isPrintable_iff.mp h
    rw [Unicode.isJsSpace, Unicode.not_inRanges_of_printable (by decide) hn,
      Unicode.not_inRanges_of_printable (by decide) hn]
    rfl
  digit_of_isPrintable _ := rfl
  digit_of_blank h := by
    refine Bool.eq_false_iff.mpr fun hdigit ↦ ?_
    have hdecimal := Unicode.isDecimal_of_isAsciiDigit hdigit
    rw [Unicode.isDecimal_of_isJsSpace h] at hdecimal
    nomatch hdecimal

variable {char : Char} {cs : List Char} {n i : ℕ}

/-- The text up to the closing quote, if it has no line break, is what the documentation says. -/
theorem matchText_cons (h : isQuote char = true) : matchText (char :: cs) =
    (indexOf char cs).filter fun found ↦ '\n' ∉ found.1 := by
  have hbreak : char ≠ '\n' := by
    rintro rfl
    exact absurd h (by decide)
  rw [matchText, if_pos h, indexOf]
  induction cs with
  | nil => rfl
  | cons c cs ih =>
    by_cases hc : c = char
    · rw [List.dropWhile_cons_of_neg (by simp [hc]), List.dropWhile_cons_of_neg (by simp [hc]),
        List.takeWhile_cons_of_neg (by simp [hc]), List.takeWhile_cons_of_neg (by simp [hc])]
      dsimp only
      rw [if_pos hc]
      rfl
    · have hpos : decide (c ≠ char) = true := decide_eq_true hc
      rw [List.dropWhile_cons_of_pos (p := (· ≠ char)) hpos,
        List.takeWhile_cons_of_pos (p := (· ≠ char)) hpos]
      by_cases hn : c = '\n'
      · rw [List.dropWhile_cons_of_neg (by simp [hn])]
        dsimp only
        rw [if_neg hc, hn]
        cases cs.dropWhile (· ≠ char) with
        | nil => rfl
        | cons d rest => exact (Option.filter_some_neg (by simp)).symm
      · have hboth : (decide (c ≠ char) && decide (c ≠ '\n')) = true := by simp [hc, hn]
        rw [List.dropWhile_cons_of_pos (p := fun c ↦ c ≠ char && c ≠ '\n') hboth,
          List.takeWhile_cons_of_pos (p := fun c ↦ c ≠ char && c ≠ '\n') hboth]
        have hmem : ∀ body : List Char, '\n' ∈ c :: body ↔ '\n' ∈ body := fun body ↦ by
          rw [List.mem_cons, or_iff_right (Ne.symm hn)]
        generalize cs.dropWhile (fun c ↦ c ≠ char && c ≠ '\n') = dropped at ih ⊢
        generalize cs.dropWhile (· ≠ char) = dropped' at ih ⊢
        cases dropped <;> cases dropped' <;> grind

theorem matchWord_of_isQuote (h : isQuote char = true) : matchWord (char :: cs) = none := by
  rw [isQuote, Bool.or_eq_true, decide_eq_true_eq, decide_eq_true_eq] at h
  rcases h with rfl | rfl <;> rfl

theorem matchOperator_of_isQuote (h : isQuote char = true) : matchOperator (char :: cs) = none := by
  rw [isQuote, Bool.or_eq_true, decide_eq_true_eq, decide_eq_true_eq] at h
  rcases h with rfl | rfl <;> rfl

theorem matchText_of_not_isQuote (h : isQuote char = false) : matchText (char :: cs) = none := by
  rw [matchText, h]
  rfl

/-- The token of a word is what the word stands for; a member of `Object.prototype` stands for
nothing. -/
theorem wordToken_view {name : List Char} {token : Token} (h : wordToken name = .ok token) :
    token.view = wordTerminal name := by
  rw [wordToken] at h
  split at h
  · rename_i o ho
    obtain rfl := Except.ok.inj h
    rw [wordTerminal_of_some ho]
    rfl
  · rename_i ho
    rw [wordTerminal_of_none ho]
    split at h
    · rename_i text htext
      obtain rfl := Except.ok.inj h
      have hnames : ∀ name ∈ names, objectPrototype.lookup name = none := by decide
      refine (if_neg fun hname ↦ ?_).symm
      rw [hnames _ hname] at htext
      nomatch htext
    · split at h
      · rename_i hname
        obtain rfl := Except.ok.inj h
        exact (if_pos hname).symm
      · nomatch h

theorem exists_wordToken {name : List Char} (h : wordTerminal name ≠ .other) :
    ∃ token, wordToken name = .ok token := by
  rw [wordToken]
  split
  · exact ⟨_, rfl⟩
  · rename_i ho
    rw [wordTerminal_of_none ho] at h
    split
    · exact ⟨_, rfl⟩
    · split at h
      · rename_i hname
        exact ⟨_, if_pos hname⟩
      · exact absurd rfl h

/-- Where the text begins with a piece of the grammar, its token is made and the loop goes on. -/
theorem tokenizeFrom_piece (hblank : Unicode.isJsSpace char = false) {t : Terminal Operator}
    {rest : List Char} (h : lexeme Unicode.isAsciiDigit (char :: cs) = some (t, rest)) :
    ∃ token j, tokenizeFrom (n + 1) i (char :: cs) = (do
        let token ← token
        let tokens ← tokenizeFrom n j rest
        return token :: tokens) ∧
      (∀ kept, token = .ok kept → kept.view = t) ∧ (t ≠ .other → ∃ kept, token = .ok kept) := by
  rw [tokenizeFrom, hblank, if_neg Bool.false_ne_true]
  rw [lexeme] at h
  rcases hnumber : matchNumber Unicode.isAsciiDigit (char :: cs) with _ | ⟨text, rest'⟩
  · rw [hnumber] at h
    dsimp only at h ⊢
    by_cases hquote : isQuote char = true
    · rw [matchText_cons hquote] at h
      rw [if_pos hquote]
      rcases hindex : indexOf char cs with _ | ⟨body, rest'⟩
      · rw [hindex] at h
        -- a quote that is not closed begins no piece
        rw [matchWord_of_isQuote hquote, matchOperator_of_isQuote hquote] at h
        simp at h
      · rw [hindex] at h
        by_cases hbody : '\n' ∈ body
        · rw [Option.filter_some_neg (by simpa using hbody), matchWord_of_isQuote hquote,
            matchOperator_of_isQuote hquote] at h
          simp at h
        · rw [Option.filter_some_pos (by simpa using hbody)] at h
          obtain ⟨rfl, rfl⟩ := Prod.mk.inj (Option.some.inj h)
          dsimp only
          rw [if_neg hbody]
          exact ⟨.ok (.string body), _, rfl, fun kept hkept ↦ by rw [← Except.ok.inj hkept]; rfl,
            fun _ ↦ ⟨_, rfl⟩⟩
    · rw [matchText_of_not_isQuote (Bool.eq_false_iff.mpr hquote)] at h
      rw [if_neg hquote]
      dsimp only at h
      rcases hword : matchWord (char :: cs) with _ | ⟨name, rest'⟩
      · rw [hword] at h
        obtain ⟨⟨o, rest'⟩, hoperator, heq⟩ := Option.map_eq_some_iff.mp h
        obtain ⟨rfl, rfl⟩ := Prod.mk.inj heq
        rw [hoperator]
        exact ⟨.ok (.op o), _, rfl, fun kept hkept ↦ by rw [← Except.ok.inj hkept]; rfl,
          fun _ ↦ ⟨_, rfl⟩⟩
      · rw [hword] at h
        obtain ⟨rfl, rfl⟩ := Prod.mk.inj (Option.some.inj h)
        exact ⟨wordToken name, _, rfl, fun kept hkept ↦ wordToken_view hkept, exists_wordToken⟩
  · rw [hnumber] at h
    obtain ⟨rfl, rfl⟩ := Prod.mk.inj (Option.some.inj h)
    exact ⟨.ok (.number text), _, rfl, fun kept hkept ↦ by rw [← Except.ok.inj hkept]; rfl,
      fun _ ↦ ⟨_, rfl⟩⟩

theorem tokenizeFrom_none (hblank : Unicode.isJsSpace char = false)
    (h : lexeme Unicode.isAsciiDigit (char :: cs) = none) :
    ∃ e, tokenizeFrom (n + 1) i (char :: cs) = .error e := by
  rw [tokenizeFrom, hblank, if_neg Bool.false_ne_true]
  rw [lexeme] at h
  rcases hnumber : matchNumber Unicode.isAsciiDigit (char :: cs) with _ | ⟨text, rest⟩
  · rw [hnumber] at h
    dsimp only at h ⊢
    by_cases hquote : isQuote char = true
    · rw [matchText_cons hquote] at h
      rw [if_pos hquote]
      rcases hindex : indexOf char cs with _ | ⟨body, rest⟩
      · exact ⟨_, rfl⟩
      · rw [hindex] at h
        by_cases hbody : '\n' ∈ body
        · dsimp only
          rw [if_pos hbody]
          exact ⟨_, rfl⟩
        · rw [Option.filter_some_pos (by simpa using hbody)] at h
          simp at h
    · rw [matchText_of_not_isQuote (Bool.eq_false_iff.mpr hquote)] at h
      rw [if_neg hquote]
      dsimp only at h
      rcases hword : matchWord (char :: cs) with _ | ⟨name, rest⟩
      · rw [hword] at h
        dsimp only at h
        rw [Option.map_eq_none_iff.mp h]
        exact ⟨_, rfl⟩
      · rw [hword] at h
        simp at h
  · rw [hnumber] at h
    simp at h

theorem lexes_of_tokenizeFrom {ts : List Token} (hn : cs.length ≤ n)
    (h : tokenizeFrom n i cs = .ok ts) : Lexes jsLexicon cs (ts.map Token.view) := by
  induction n generalizing i cs ts with
  | zero =>
    obtain rfl := List.length_eq_zero_iff.mp (Nat.le_zero.mp hn)
    obtain rfl := Except.ok.inj h
    exact .nil
  | succ n ih =>
    match cs with
    | [] =>
      obtain rfl := Except.ok.inj h
      exact .nil
    | char :: cs =>
      rw [List.length_cons] at hn
      by_cases hblank : Unicode.isJsSpace char = true
      · rw [tokenizeFrom, if_pos hblank] at h
        exact .blank hblank (ih (by omega) h)
      · have hblank := Bool.eq_false_iff.mpr hblank
        rcases hlexeme : lexeme Unicode.isAsciiDigit (char :: cs) with _ | ⟨t, rest⟩
        · obtain ⟨e, he⟩ := @tokenizeFrom_none _ _ n i hblank hlexeme
          rw [he] at h
          nomatch h
        · obtain ⟨token, j, heq, hview, -⟩ := @tokenizeFrom_piece _ _ n i hblank _ _ hlexeme
          have hlength := (bare_lexeme jsLexicon.digit_of_isPrintable hlexeme).1
          rw [List.length_cons] at hlength
          rw [heq] at h
          obtain ⟨kept, hkept, h⟩ := Grammar.bind_eq_ok h
          obtain ⟨tokens, htokens, h⟩ := Grammar.bind_eq_ok h
          obtain rfl := Except.ok.inj h
          rw [List.map_cons, hview kept hkept]
          exact .piece hblank hlexeme (ih (by omega) htokens)

theorem exists_tokenizeFrom {ts : List (Terminal Operator)} (hn : cs.length ≤ n)
    (h : Lexes jsLexicon cs ts) (hts : .other ∉ ts) :
    ∃ tokens, tokenizeFrom n i cs = .ok tokens ∧ tokens.map Token.view = ts := by
  induction h generalizing n i with
  | nil => exact ⟨[], by cases n <;> rfl, rfl⟩
  | @blank c cs ts hblank _ ih =>
    rw [List.length_cons] at hn
    obtain ⟨n, rfl⟩ := Nat.exists_eq_add_of_le' (Nat.one_le_of_lt hn)
    obtain ⟨tokens, htokens, hview⟩ := @ih n (i + 1) (by omega) hts
    refine ⟨tokens, ?_, hview⟩
    rw [tokenizeFrom, if_pos (show Unicode.isJsSpace c = true from hblank), htokens]
  | @piece c cs t rest ts hblank hlexeme _ ih =>
    have hlength := (bare_lexeme jsLexicon.digit_of_isPrintable hlexeme).1
    rw [List.length_cons] at hn hlength
    obtain ⟨n, rfl⟩ := Nat.exists_eq_add_of_le' (Nat.one_le_of_lt hn)
    obtain ⟨htoken, hts'⟩ := not_or.mp (List.mem_cons.not.mp hts)
    obtain ⟨token, j, heq, hview, hkept⟩ := @tokenizeFrom_piece _ _ n i hblank _ _ hlexeme
    obtain ⟨kept, rfl⟩ := hkept (Ne.symm htoken)
    obtain ⟨tokens, htokens, hrest⟩ := @ih n j (by omega) hts'
    refine ⟨kept :: tokens, ?_, ?_⟩
    · rw [heq]
      exact congrArg (· >>= fun tokens ↦ pure (kept :: tokens)) htokens
    · rw [List.map_cons, hview kept rfl, hrest]

/-- **The compiler accepts the expressions of the grammar**, read with the blanks and the digits of
ECMAScript. -/
theorem exists_compile_iff {text : String} : (∃ tree, compile text = .ok tree) ↔
    ∃ n ts, Lexes jsLexicon text.toList ts ∧ grammar.Derives n grammar.levels ts := by
  rw [compile, tokenize]
  constructor
  · rintro ⟨tree, h⟩
    obtain ⟨ts, htokens, hparse⟩ := Grammar.bind_eq_ok h
    exact ⟨_, _, lexes_of_tokenizeFrom (Nat.le_refl _) htokens, exists_parse_iff.mp ⟨tree, hparse⟩⟩
  · rintro ⟨n, ts, hlexes, hderives⟩
    obtain ⟨tokens, htokens, rfl⟩ :=
      @exists_tokenizeFrom _ _ 0 _ (Nat.le_refl _) hlexes hderives.other_not_mem
    have hwithin := hderives.within
    rw [List.length_map] at hwithin
    rw [htokens]
    exact exists_parse_iff.mpr hwithin

end Superviseur.Expressions
