import Superviseur.Common.Expressions

/-!
# The checker of expressions

`check_expression` refuses a rule whose expression is invalid. `_tokens` matches one regular
expression after the other, blanks included; the parser goes down the levels of the grammar, one
method each, and builds nothing.

The interpreter bounds how deep calls may nest, whatever the source does. `frames` is how deep the
methods `or_` to `primary` may; the calls of `take_op` and of `peek` need two frames more, and only
`primary` can do with one.
-/

namespace Superviseur.SynopticExpr

open RuleExpr Precedence

/-- A token: its kind, with its text, or its operator; quoted texts are without their quotes. -/
inductive Token where
  | number (text : List Char)
  | string (text : List Char)
  | word (text : List Char)
  | op (o : Operator)
  deriving DecidableEq

/-- `IDENTIFIERS`. -/
def identifiers : List String := ["value", "status"]

/-- `LITERALS`. -/
def literals : List String := ["true", "false", "null"]

/-- What `_TOKEN` matches after the blanks, and the rest of the text. -/
def matchToken (cs : List Char) : Option (Token × List Char) :=
  match matchNumber Unicode.isDecimal cs with
  | some (text, rest) => some (.number text, rest)
  | none => match matchText cs with
    | some (text, rest) => some (.string text, rest)
    | none => match matchWord cs with
      | some (text, rest) => some (.word text, rest)
      | none => (matchOperator cs).map fun (o, rest) ↦ (.op o, rest)

/-- The token that is kept for a match. -/
def Token.keep : Token → Except RuleExpr.Failure Token
  | word text =>
    match wordOperators.lookup (String.ofList text) with
    | some o => .ok (op o)
    | none =>
      if String.ofList text ∈ identifiers ∨ String.ofList text ∈ literals then .ok (word text)
      else .error (.expressionError ("identifiant inconnu : " ++ String.ofList text))
  | token => .ok token

/-- The loop of `_tokens`, as many times as there are characters at most. -/
def tokensFrom : ℕ → (position : ℕ) → List Char → Except RuleExpr.Failure (List Token)
  | 0, _, _ => .ok []
  | n + 1, position, cs =>
    if cs.all Unicode.isPySpace then .ok []
    else match matchToken (cs.dropWhile Unicode.isPySpace) with
      | none =>
        .error (.expressionError ("caractère inattendu à la position " ++ toString position))
      | some (token, rest) => do
        let token ← token.keep
        let tokens ← tokensFrom n (position + (cs.length - rest.length)) rest
        return token :: tokens

/-- `_tokens`. -/
def tokens (text : List Char) : Except RuleExpr.Failure (List Token) :=
  tokensFrom text.length 0 text

/-! ## The parser -/

/-- `take_op`; the tokens that are left stand for `index`. -/
def takeOp (operators : List Operator) : List Token → Option (Operator × List Token)
  | .op o :: ts => if o ∈ operators then some (o, ts) else none
  | _ => none

/-- `while self.take_op(*operators): next()`, as many times as there are tokens at most. -/
def whileOp (operators : List Operator) (next : List Token → Except RuleExpr.Failure (List Token)) :
    ℕ → List Token → Except RuleExpr.Failure (List Token)
  | 0, ts => .ok ts
  | n + 1, ts => match takeOp operators ts with
    | some (_, ts) => do
      let ts ← next ts
      whileOp operators next n ts
    | none => .ok ts

namespace Parser

mutual

def or_ : (frames : ℕ) → List Token → Except RuleExpr.Failure (List Token)
  | 0, _ => .error .recursionError
  | n + 1, ts => do
    let ts ← and_ n ts
    whileOp [.or] (and_ n) ts.length ts

def and_ : (frames : ℕ) → List Token → Except RuleExpr.Failure (List Token)
  | 0, _ => .error .recursionError
  | n + 1, ts => do
    let ts ← not_ n ts
    whileOp [.and] (not_ n) ts.length ts

def not_ : (frames : ℕ) → List Token → Except RuleExpr.Failure (List Token)
  | 0, _ => .error .recursionError
  | n + 1, ts => match takeOp [.not] ts with
    | some (_, ts) => not_ n ts
    | none => cmp n ts

def cmp : (frames : ℕ) → List Token → Except RuleExpr.Failure (List Token)
  | 0, _ => .error .recursionError
  | n + 1, ts => do
    let ts ← add n ts
    whileOp [.eq, .ne, .le, .ge, .lt, .gt] (add n) ts.length ts

def add : (frames : ℕ) → List Token → Except RuleExpr.Failure (List Token)
  | 0, _ => .error .recursionError
  | n + 1, ts => do
    let ts ← mul n ts
    whileOp [.add, .sub] (mul n) ts.length ts

def mul : (frames : ℕ) → List Token → Except RuleExpr.Failure (List Token)
  | 0, _ => .error .recursionError
  | n + 1, ts => do
    let ts ← unary n ts
    whileOp [.mul, .div, .mod] (unary n) ts.length ts

def unary : (frames : ℕ) → List Token → Except RuleExpr.Failure (List Token)
  | 0, _ => .error .recursionError
  | n + 1, ts => match takeOp [.sub] ts with
    | some (_, ts) => unary n ts
    | none => primary n ts

def primary : (frames : ℕ) → List Token → Except RuleExpr.Failure (List Token)
  | _, [] => .error (.expressionError "expression incomplète")
  | _, .number _ :: ts => .ok ts
  | _, .string _ :: ts => .ok ts
  | _, .word _ :: ts => .ok ts
  | 0, .op _ :: _ => .error .recursionError
  | n + 1, .op o :: ts =>
    if o = .opening then do
      let ts ← or_ n ts
      match takeOp [.closing] ts with
      | some (_, ts) => .ok ts
      | none => .error (.expressionError "parenthèse fermante attendue")
    else .error (.expressionError ("jeton inattendu : " ++ String.ofList o.text))

end

/-- `parse`. -/
def parse (frames : ℕ) (ts : List Token) : Except RuleExpr.Failure Unit :=
  if ts.isEmpty then .error (.expressionError "expression vide")
  else do
    let ts ← or_ frames ts
    if ts.isEmpty then return ()
    else .error (.expressionError "expression incomplète ou jeton en trop")

end Parser

/-- `check_expression`. -/
def checkExpression (frames : ℕ) (text : String) : Except RuleExpr.Failure Unit := do
  let ts ← tokens text.toList
  Parser.parse frames ts

/-! ## The parser and the grammar -/

/-- What a token is in the grammar. -/
def Token.view : Token → Terminal Operator
  | op o => .op o
  | _ => .operand

theorem take_view (operators : List Operator) (ts : List Token) :
    Grammar.take operators (ts.map Token.view) =
      (takeOp operators ts).map fun taken ↦ taken.2.map Token.view := by
  match ts with
  | [] => rfl
  | .number _ :: _ => rfl
  | .string _ :: _ => rfl
  | .word _ :: _ => rfl
  | .op o :: ts =>
    rw [takeOp, List.map_cons, Token.view, Grammar.take]
    split <;> rfl

theorem lower_whileOp {operators : List Operator}
    {next : List Token → Except RuleExpr.Failure (List Token)}
    {next' : List (Terminal Operator) → Except Refusal (List (Terminal Operator))}
    (hnext : ∀ ts, lower Token.view id (next ts) = next' (ts.map Token.view)) (k : ℕ)
    (ts : List Token) :
    lower Token.view id (whileOp operators next k ts) =
      Grammar.repeated operators next' k (ts.map Token.view) := by
  induction k generalizing ts with
  | zero => rfl
  | succ k ih =>
    rw [whileOp, Grammar.repeated, take_view]
    cases takeOp operators ts with
    | none => rfl
    | some taken => exact lower_bind (hnext taken.2) ih

theorem lower_chain {operators : List Operator} {levels : List (Level Operator)} {n : ℕ}
    {next : List Token → Except RuleExpr.Failure (List Token)}
    (hnext : ∀ ts, lower Token.view id (next ts) = grammar.parse n levels (ts.map Token.view))
    (ts : List Token) :
    lower Token.view id (next ts >>= fun ts ↦ whileOp operators next ts.length ts) =
      grammar.parse (n + 1) (.chain operators :: levels) (ts.map Token.view) := by
  refine lower_bind (hnext ts) fun rest ↦ ?_
  rw [id_eq, lower_whileOp hnext, List.length_map]

theorem lower_prefixed {operators : List Operator} {levels : List (Level Operator)} {n : ℕ}
    {self next : List Token → Except RuleExpr.Failure (List Token)}
    (hself : ∀ ts, lower Token.view id (self ts) =
      grammar.parse n (.pre operators :: levels) (ts.map Token.view))
    (hnext : ∀ ts, lower Token.view id (next ts) = grammar.parse n levels (ts.map Token.view))
    (ts : List Token) :
    lower Token.view id (match takeOp operators ts with
      | some (_, ts) => self ts
      | none => next ts) =
      grammar.parse (n + 1) (.pre operators :: levels) (ts.map Token.view) := by
  rw [Grammar.parse, take_view]
  cases takeOp operators ts with
  | none => exact hnext ts
  | some taken => exact hself taken.2

/-- The methods of the parser, with so many frames, read the levels of the grammar. -/
structure Reads (n : ℕ) : Prop where
  or_ : ∀ ts, lower Token.view id (Parser.or_ n ts) =
    grammar.parse n grammar.levels (ts.map Token.view)
  and_ : ∀ ts, lower Token.view id (Parser.and_ n ts) =
    grammar.parse n (grammar.levels.drop 1) (ts.map Token.view)
  not_ : ∀ ts, lower Token.view id (Parser.not_ n ts) =
    grammar.parse n (grammar.levels.drop 2) (ts.map Token.view)
  cmp : ∀ ts, lower Token.view id (Parser.cmp n ts) =
    grammar.parse n (grammar.levels.drop 3) (ts.map Token.view)
  add : ∀ ts, lower Token.view id (Parser.add n ts) =
    grammar.parse n (grammar.levels.drop 4) (ts.map Token.view)
  mul : ∀ ts, lower Token.view id (Parser.mul n ts) =
    grammar.parse n (grammar.levels.drop 5) (ts.map Token.view)
  unary : ∀ ts, lower Token.view id (Parser.unary n ts) =
    grammar.parse n (grammar.levels.drop 6) (ts.map Token.view)
  primary : ∀ ts, lower Token.view id (Parser.primary n ts) = grammar.parse n [] (ts.map Token.view)

theorem reads (n : ℕ) : Reads n := by
  induction n with
  | zero =>
    refine ⟨fun _ ↦ rfl, fun _ ↦ rfl, fun _ ↦ rfl, fun _ ↦ rfl, fun _ ↦ rfl, fun _ ↦ rfl,
      fun _ ↦ rfl, fun ts ↦ ?_⟩
    match ts with
    | [] => rfl
    | .number _ :: _ => rfl
    | .string _ :: _ => rfl
    | .word _ :: _ => rfl
    | .op _ :: _ => rfl
  | succ n ih =>
    refine ⟨lower_chain ih.and_, lower_chain ih.not_, lower_prefixed ih.not_ ih.cmp,
      lower_chain ih.add, lower_chain ih.mul, lower_chain ih.unary,
      lower_prefixed ih.unary ih.primary, fun ts ↦ ?_⟩
    match ts with
    | [] => rfl
    | .number _ :: _ => rfl
    | .string _ :: _ => rfl
    | .word _ :: _ => rfl
    | .op o :: ts =>
      rw [Parser.primary, List.map_cons, Token.view, Grammar.parse, grammar_opening,
        grammar_closing]
      by_cases ho : o = .opening
      · rw [if_pos ho, if_pos ho]
        refine lower_bind (ih.or_ ts) fun rest ↦ ?_
        rw [id_eq, take_view]
        cases takeOp [.closing] rest with
        | none => rfl
        | some taken => rfl
      · rw [if_neg ho, if_neg ho]
        rfl

/-- **The parser accepts the lists of tokens that derive from the grammar.** -/
theorem parse_eq_ok_iff {frames : ℕ} {ts : List Token} : Parser.parse frames ts = .ok () ↔
    grammar.Derives frames grammar.levels (ts.map Token.view) := by
  rw [← exists_read_iff ((reads frames).or_ ts), Parser.parse]
  constructor
  · intro h
    split at h
    · nomatch h
    · obtain ⟨rest, hrest, h⟩ := Grammar.bind_eq_ok h
      split at h
      · rename_i hempty
        exact ⟨rest, hrest, List.isEmpty_iff.mp hempty⟩
      · nomatch h
  · intro h
    rw [not_derives_nil ((exists_read_iff ((reads frames).or_ ts)).mp h)]
    obtain ⟨rest, hrest, rfl : rest = []⟩ := h
    rw [hrest]
    rfl

/-! ## The lexer -/

/-- The blanks and the digits of Python. -/
def pyLexicon : Lexicon where
  blank := Unicode.isPySpace
  digit := Unicode.isDecimal
  blank_of_isPrintable h := by
    have hn := isPrintable_iff.mp h
    rw [Unicode.isPySpace, Unicode.not_inRanges_of_printable (by decide) hn,
      Unicode.not_inRanges_of_printable (by decide) hn]
    rfl
  digit_of_isPrintable h := Unicode.isDecimal_eq_isAsciiDigit (by
    have hn := isPrintable_iff.mp h
    omega)
  digit_of_blank := Unicode.isDecimal_of_isPySpace

/-- What a match is in the grammar. -/
def Token.terminal : Token → Terminal Operator
  | word text => wordTerminal text
  | op o => .op o
  | _ => .operand

theorem lexeme_eq (cs : List Char) : lexeme Unicode.isDecimal cs =
    (matchToken cs).map fun found ↦ (found.1.terminal, found.2) := by
  rw [lexeme, matchToken]
  rcases matchNumber Unicode.isDecimal cs with _ | ⟨text, rest⟩
  · rcases matchText cs with _ | ⟨text, rest⟩
    · rcases matchWord cs with _ | ⟨text, rest⟩
      · dsimp only
        rw [Option.map_map]
        rfl
      · rfl
    · rfl
  · rfl

theorem mem_names {name : String} : name ∈ names ↔ name ∈ identifiers ∨ name ∈ literals := by
  rw [← List.mem_append]
  rfl

theorem keep_eq_ok {token kept : Token} (h : token.keep = .ok kept) :
    kept.view = token.terminal ∧ token.terminal ≠ .other := by
  match token with
  | .number _ | .string _ | .op _ =>
    obtain rfl := Except.ok.inj h
    exact ⟨rfl, nofun⟩
  | .word text =>
    rw [Token.keep] at h
    rw [Token.terminal]
    split at h
    · rename_i o ho
      obtain rfl := Except.ok.inj h
      rw [wordTerminal_of_some ho]
      exact ⟨rfl, nofun⟩
    · rename_i ho
      split at h
      · rename_i hname
        obtain rfl := Except.ok.inj h
        rw [wordTerminal_of_none ho, if_pos (mem_names.mpr hname)]
        exact ⟨rfl, nofun⟩
      · nomatch h

theorem exists_keep {token : Token} (h : token.terminal ≠ .other) :
    ∃ kept, token.keep = .ok kept := by
  match token with
  | .number _ | .string _ | .op _ => exact ⟨_, rfl⟩
  | .word text =>
    rw [Token.terminal] at h
    rw [Token.keep]
    split
    · exact ⟨_, rfl⟩
    · rename_i ho
      rw [wordTerminal_of_none ho] at h
      split at h
      · rename_i hname
        rw [if_pos (mem_names.mp hname)]
        exact ⟨_, rfl⟩
      · exact absurd rfl h

/-- A text that is not all blank goes on, after its blanks, with a match. -/
theorem lexes_iff_exists_match {cs : List Char} {ts : List (Terminal Operator)}
    (hcs : cs.all Unicode.isPySpace = false) : Lexes pyLexicon cs ts ↔
      ∃ token rest ts', ts = token.terminal :: ts' ∧
        matchToken (cs.dropWhile Unicode.isPySpace) = some (token, rest) ∧
          Lexes pyLexicon rest ts' := by
  rw [lexes_iff_exists_piece (L := pyLexicon) hcs]
  constructor
  · rintro ⟨t, rest, ts', rfl, hlexeme, hrest⟩
    obtain ⟨⟨token, rest⟩, hmatch, heq⟩ :=
      Option.map_eq_some_iff.mp ((lexeme_eq _).symm.trans hlexeme)
    obtain ⟨rfl, rfl⟩ := Prod.mk.inj heq
    exact ⟨token, rest, ts', rfl, hmatch, hrest⟩
  · rintro ⟨token, rest, ts', rfl, hmatch, hrest⟩
    refine ⟨_, rest, ts', rfl, ?_, hrest⟩
    exact (lexeme_eq _).trans (Option.map_eq_some_iff.mpr ⟨_, hmatch, rfl⟩)

theorem length_lt_of_matchToken {cs rest : List Char} {token : Token}
    (h : matchToken (cs.dropWhile Unicode.isPySpace) = some (token, rest)) :
    rest.length < cs.length := by
  have hlexeme : lexeme Unicode.isDecimal (cs.dropWhile Unicode.isPySpace) =
      some (token.terminal, rest) := by
    rw [lexeme_eq, h]
    rfl
  have hlt := (bare_lexeme pyLexicon.digit_of_isPrintable hlexeme).1
  exact Nat.lt_of_lt_of_le hlt (List.dropWhile_sublist _).length_le

theorem lexes_of_tokensFrom {n position : ℕ} {cs : List Char} {ts : List Token}
    (hn : cs.length ≤ n) (h : tokensFrom n position cs = .ok ts) :
    Lexes pyLexicon cs (ts.map Token.view) := by
  induction n generalizing position cs ts with
  | zero =>
    obtain rfl := List.length_eq_zero_iff.mp (Nat.le_zero.mp hn)
    obtain rfl := Except.ok.inj h
    exact .nil
  | succ n ih =>
    rw [tokensFrom] at h
    split at h
    · rename_i hblank
      obtain rfl := Except.ok.inj h
      exact (lexes_of_all_blank hblank).mpr rfl
    · rename_i hblank
      split at h
      · nomatch h
      · rename_i token rest hmatch
        obtain ⟨kept, hkept, h⟩ := Grammar.bind_eq_ok h
        obtain ⟨tokens, htokens, h⟩ := Grammar.bind_eq_ok h
        obtain rfl := Except.ok.inj h
        have hlength := length_lt_of_matchToken hmatch
        refine (lexes_iff_exists_match (Bool.eq_false_iff.mpr hblank)).mpr
          ⟨token, rest, tokens.map Token.view, ?_, hmatch, ih (by omega) htokens⟩
        rw [List.map_cons, (keep_eq_ok hkept).1]

theorem exists_tokensFrom {n position : ℕ} {cs : List Char} {ts : List (Terminal Operator)}
    (hn : cs.length ≤ n) (h : Lexes pyLexicon cs ts) (hts : .other ∉ ts) :
    ∃ tokens, tokensFrom n position cs = .ok tokens ∧ tokens.map Token.view = ts := by
  induction n generalizing position cs ts with
  | zero =>
    obtain rfl := List.length_eq_zero_iff.mp (Nat.le_zero.mp hn)
    obtain rfl := lexes_nil_iff.mp h
    exact ⟨[], rfl, rfl⟩
  | succ n ih =>
    rw [tokensFrom]
    by_cases hblank : cs.all Unicode.isPySpace = true
    · obtain rfl := (lexes_of_all_blank hblank).mp h
      rw [if_pos hblank]
      exact ⟨[], rfl, rfl⟩
    · obtain ⟨token, rest, ts', rfl, hmatch, hrest⟩ :=
        (lexes_iff_exists_match (Bool.eq_false_iff.mpr hblank)).mp h
      have hlength := length_lt_of_matchToken hmatch
      obtain ⟨htoken, hts'⟩ := not_or.mp (List.mem_cons.not.mp hts)
      obtain ⟨kept, hkept⟩ := exists_keep (Ne.symm htoken)
      obtain ⟨tokens, htokens, hview⟩ :=
        @ih (position + (cs.length - rest.length)) _ _ (by omega) hrest hts'
      refine ⟨kept :: tokens, ?_, ?_⟩
      · rw [if_neg hblank, hmatch]
        dsimp only
        rw [hkept]
        exact congrArg (· >>= fun tokens ↦ pure (kept :: tokens)) htokens
      · rw [List.map_cons, hview, (keep_eq_ok hkept).1]

/-- **The checker accepts the expressions of the grammar**, read with the blanks and the digits of
Python, that nest no deeper than the frames it has. -/
theorem checkExpression_eq_ok_iff {frames : ℕ} {text : String} :
    checkExpression frames text = .ok () ↔
      ∃ ts, Lexes pyLexicon text.toList ts ∧ grammar.Derives frames grammar.levels ts := by
  rw [checkExpression, tokens]
  constructor
  · intro h
    obtain ⟨ts, htokens, hparse⟩ := Grammar.bind_eq_ok h
    exact ⟨_, lexes_of_tokensFrom (Nat.le_refl _) htokens, parse_eq_ok_iff.mp hparse⟩
  · rintro ⟨ts, hlexes, hderives⟩
    obtain ⟨tokens, htokens, rfl⟩ :=
      @exists_tokensFrom _ 0 _ _ (Nat.le_refl _) hlexes hderives.other_not_mem
    rw [htokens]
    exact parse_eq_ok_iff.mpr hderives

/-! ## Expressions that nest too deep -/

theorem tokensFrom_ne_recursionError {n position : ℕ} {cs : List Char} :
    tokensFrom n position cs ≠ .error .recursionError := by
  induction n generalizing position cs with
  | zero => exact nofun
  | succ n ih =>
    rw [tokensFrom]
    split
    · exact nofun
    · split
      · exact nofun
      · rename_i token rest hmatch
        cases hkeep : token.keep with
        | error e =>
          have hkind : e ≠ .recursionError := by
            rintro rfl
            rw [Token.keep.eq_def] at hkeep
            split at hkeep
            · split at hkeep
              · nomatch hkeep
              · split at hkeep <;> nomatch hkeep
            · nomatch hkeep
          exact fun h ↦ hkind (Except.error.inj h)
        | ok kept =>
          cases hrest : tokensFrom n (position + (cs.length - rest.length)) rest with
          | error e =>
            have hkind : e ≠ .recursionError := fun he ↦ ih (hrest.trans (congrArg _ he))
            exact fun h ↦ hkind (Except.error.inj h)
          | ok tokens => exact nofun

theorem lower_eq_depth_iff {x : Except RuleExpr.Failure (List Token)} :
    lower Token.view id x = .error .depth ↔ x = .error .recursionError := by
  match x with
  | .ok _ => exact ⟨nofun, nofun⟩
  | .error .recursionError => exact ⟨fun _ ↦ rfl, fun _ ↦ rfl⟩
  | .error (.expressionError _) => exact ⟨nofun, nofun⟩

theorem parse_eq_recursionError_iff {frames : ℕ} {ts : List Token} :
    Parser.parse frames ts = .error .recursionError ↔
      ts ≠ [] ∧ grammar.Overflows frames grammar.levels (ts.map Token.view) := by
  rw [← Grammar.parse_eq_depth_iff, ← (reads frames).or_ ts, lower_eq_depth_iff, Parser.parse]
  cases hempty : ts.isEmpty with
  | true =>
    obtain rfl := List.isEmpty_iff.mp hempty
    exact ⟨nofun, fun h ↦ absurd rfl h.1⟩
  | false =>
    have hne : ts ≠ [] := List.isEmpty_eq_false_iff.mp hempty
    rw [if_neg Bool.false_ne_true]
    cases hread : Parser.or_ frames ts with
    | error e =>
      constructor
      · exact fun h ↦ ⟨hne, congrArg _ (Except.error.inj h)⟩
      · exact fun h ↦ congrArg _ (Except.error.inj h.2)
    | ok rest =>
      refine ⟨fun h ↦ ?_, nofun⟩
      change (if rest.isEmpty then Except.ok () else Except.error
        (Failure.expressionError "expression incomplète ou jeton en trop")) = _ at h
      split at h <;> nomatch h

/-- The text begins like an expression, and goes on deeper than `frames`. -/
def NestsTooDeep (frames : ℕ) (text : String) : Prop :=
  ∃ ts, ts ≠ [] ∧ .other ∉ ts ∧ Lexes pyLexicon text.toList ts ∧
    grammar.Overflows frames grammar.levels ts

/-- **The checker runs out of frames** on the texts that nest too deep. -/
theorem checkExpression_eq_recursionError_iff {frames : ℕ} {text : String} :
    checkExpression frames text = .error .recursionError ↔ NestsTooDeep frames text := by
  rw [checkExpression, tokens]
  constructor
  · intro h
    cases htokens : tokensFrom text.toList.length 0 text.toList with
    | error e =>
      rw [htokens] at h
      obtain rfl : e = .recursionError := Except.error.inj h
      exact absurd htokens tokensFrom_ne_recursionError
    | ok ts =>
      rw [htokens] at h
      obtain ⟨hne, hoverflows⟩ := parse_eq_recursionError_iff.mp h
      have hother : .other ∉ ts.map Token.view := by
        intro hmem
        obtain ⟨token, -, hview⟩ := List.mem_map.mp hmem
        rw [Token.view.eq_def] at hview
        split at hview <;> nomatch hview
      exact ⟨_, fun hnil ↦ hne (List.map_eq_nil_iff.mp hnil), hother,
        lexes_of_tokensFrom (Nat.le_refl _) htokens, hoverflows⟩
  · rintro ⟨ts, hne, hother, hlexes, hoverflows⟩
    obtain ⟨tokens, htokens, rfl⟩ := @exists_tokensFrom _ 0 _ _ (Nat.le_refl _) hlexes hother
    rw [htokens]
    exact parse_eq_recursionError_iff.mpr ⟨fun hnil ↦ hne (hnil ▸ rfl), hoverflows⟩

end Superviseur.SynopticExpr
