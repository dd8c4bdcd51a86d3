import Superviseur.Api.SynopticExpr
import Superviseur.Common.DocumentedGrammar
import Superviseur.Front.Expressions

/-!
# The parsers and the documented grammar

Both parsers are given the tokens of a lexer, in which a word is one of those the grammar names.
**They accept the lists of tokens that derive from the grammar, and no others**.

The methods of the parser of the API call each other: it needs frames in proportion to the tokens. A
bracket takes eight, and comes with one that closes it; the 200 characters that a `when` may have
never take more than 803 (`checkExpression_iff_documented`).
-/

namespace Superviseur

open RuleExpr Precedence

/-! ## The tokens of the checker -/

namespace SynopticExpr

/-- A token, for the documented grammar. -/
def Token.lexeme : Token → Lexeme
  | number _ => .number
  | string _ => .string
  | word text => .word (String.ofList text)
  | op o => .op o

/-- A word is one that the grammar names. -/
def Token.Known : Token → Prop
  | word text => String.ofList text ∈ names
  | _ => True

variable {token kept : Token} {ts : List Token} {frames n position : ℕ} {cs : List Char}

theorem Token.Known.view (h : token.Known) : token.lexeme.view = token.view := by
  match token with
  | .number _ | .string _ | .op _ => rfl
  | .word _ => exact if_pos h

theorem view_lexeme (hts : ∀ token ∈ ts, token.Known) :
    (ts.map Token.lexeme).map Lexeme.view = ts.map Token.view := by
  rw [List.map_map]
  exact List.map_congr_left fun token htoken ↦ (hts token htoken).view

theorem known_of_keep (h : token.keep = .ok kept) : kept.Known := by
  rw [Token.keep.eq_def] at h
  split at h
  · split at h
    · obtain rfl := Except.ok.inj h
      trivial
    · split at h
      · rename_i hname
        obtain rfl := Except.ok.inj h
        exact mem_names.mpr hname
      · cases h
  · rename_i hword
    obtain rfl := Except.ok.inj h
    cases token with
    | number | string | op => trivial
    | word text => exact absurd rfl (hword text)

theorem known_of_tokensFrom (h : tokensFrom n position cs = .ok ts) :
    ∀ token ∈ ts, token.Known := by
  induction n generalizing position cs ts with
  | zero =>
    obtain rfl := Except.ok.inj h
    exact List.forall_mem_nil _
  | succ n ih =>
    rw [tokensFrom] at h
    split at h
    · obtain rfl := Except.ok.inj h
      exact List.forall_mem_nil _
    · split at h
      · cases h
      · obtain ⟨kept, hkept, h⟩ := Grammar.bind_eq_ok h
        obtain ⟨tokens, htokens, h⟩ := Grammar.bind_eq_ok h
        obtain rfl := Except.ok.inj h
        exact List.forall_mem_cons.mpr ⟨known_of_keep hkept, ih htokens⟩

/-- **The lexer keeps the words that the grammar names.** -/
theorem known_of_tokens {text : List Char} (h : tokens text = .ok ts) :
    ∀ token ∈ ts, token.Known := known_of_tokensFrom h

theorem length_le_of_tokensFrom (h : tokensFrom n position cs = .ok ts) :
    ts.length ≤ cs.length := by
  induction n generalizing position cs ts with
  | zero =>
    obtain rfl := Except.ok.inj h
    exact Nat.zero_le _
  | succ n ih =>
    rw [tokensFrom] at h
    split at h
    · obtain rfl := Except.ok.inj h
      exact Nat.zero_le _
    · split at h
      · cases h
      · rename_i hmatch
        obtain ⟨kept, -, h⟩ := Grammar.bind_eq_ok h
        obtain ⟨tokens, htokens, h⟩ := Grammar.bind_eq_ok h
        obtain rfl := Except.ok.inj h
        exact Nat.succ_le_of_lt (Nat.lt_of_le_of_lt (ih htokens) (length_lt_of_matchToken hmatch))

theorem length_le_of_tokens {text : List Char} (h : tokens text = .ok ts) :
    ts.length ≤ text.length := length_le_of_tokensFrom h

/-- With frames for it, the parser accepts what derives from the documented grammar. -/
theorem parse_iff_documented (hts : ∀ token ∈ ts, token.Known)
    (hframes : 4 * ts.length + 3 ≤ frames) :
    Parser.parse frames ts = .ok () ↔ Documented (ts.map Token.lexeme) := by
  rw [parse_eq_ok_iff, documented_iff, view_lexeme hts]
  constructor
  · exact fun h ↦ ⟨frames, h⟩
  · rintro ⟨n, h⟩
    have hlevels : grammar.levels.length = 7 := rfl
    refine h.of_length (c := 4) (by omega) ?_
    rw [List.length_map]
    omega

/-- **The checker accepts, of the texts that a `when` may be, those that derive from the documented
grammar.** -/
theorem checkExpression_iff_documented {text : String} (htext : text.length ≤ 200)
    (hframes : 803 ≤ frames) (h : tokens text.toList = .ok ts) :
    checkExpression frames text = .ok () ↔ Documented (ts.map Token.lexeme) := by
  have hlength := length_le_of_tokens h
  rw [String.length_toList] at hlength
  have henough : 4 * ts.length + 3 ≤ frames := by omega
  rw [← parse_iff_documented (known_of_tokens h) henough, checkExpression, h]
  rfl

end SynopticExpr

/-! ## The tokens of the viewer -/

namespace Expressions

/-- A token, for the documented grammar. -/
def Token.lexeme : Token → Lexeme
  | number _ => .number
  | string _ => .string
  | word text => .word (String.ofList text)
  | op o => .op o
  | member _ => .other

/-- A word is one that the grammar names. -/
def Token.Known : Token → Prop
  | word text => String.ofList text ∈ names
  | _ => True

variable {token : Token} {ts : List Token} {n i : ℕ} {cs : List Char}

theorem Token.Known.view (h : token.Known) : token.lexeme.view = token.view := by
  match token with
  | .number _ | .string _ | .op _ | .member _ => rfl
  | .word _ => exact if_pos h

theorem view_lexeme (hts : ∀ token ∈ ts, token.Known) :
    (ts.map Token.lexeme).map Lexeme.view = ts.map Token.view := by
  rw [List.map_map]
  exact List.map_congr_left fun token htoken ↦ (hts token htoken).view

theorem known_of_wordToken {name : List Char} (h : wordToken name = .ok token) : token.Known := by
  rw [wordToken] at h
  split at h
  · obtain rfl := Except.ok.inj h
    trivial
  · split at h
    · obtain rfl := Except.ok.inj h
      trivial
    · split at h
      · rename_i hname
        obtain rfl := Except.ok.inj h
        exact hname
      · cases h

theorem known_of_bind (token : Token) {x : Except RuleExpr.Failure (List Token)}
    (htoken : token.Known)
    (hrest : ∀ {ts}, x = .ok ts → ∀ token ∈ ts, token.Known)
    (h : (x >>= fun tokens ↦ pure (token :: tokens)) = .ok ts) : ∀ token ∈ ts, token.Known := by
  obtain ⟨tokens, htokens, h⟩ := Grammar.bind_eq_ok h
  obtain rfl := Except.ok.inj h
  exact List.forall_mem_cons.mpr ⟨htoken, hrest htokens⟩

theorem known_of_tokenizeFrom (h : tokenizeFrom n i cs = .ok ts) : ∀ token ∈ ts, token.Known := by
  induction n generalizing i cs ts with
  | zero =>
    rw [tokenizeFrom.eq_def] at h
    split at h
    · obtain rfl := Except.ok.inj h
      exact List.forall_mem_nil _
    · obtain rfl := Except.ok.inj h
      exact List.forall_mem_nil _
    · cases ‹0 = _ + 1›
  | succ n ih =>
    rcases cs with - | ⟨char, cs⟩
    · obtain rfl := Except.ok.inj h
      exact List.forall_mem_nil _
    · rw [tokenizeFrom] at h
      split at h
      · exact ih h
      · split at h
        · exact known_of_bind (.number _) trivial ih h
        · split at h
          · split at h
            · split at h
              · cases h
              · exact known_of_bind (.string _) trivial ih h
            · cases h
          · split at h
            · obtain ⟨token, htoken, h⟩ := Grammar.bind_eq_ok h
              exact known_of_bind token (known_of_wordToken htoken) ih h
            · split at h
              · exact known_of_bind (.op _) trivial ih h
              · cases h

/-- **The lexer keeps the words that the grammar names.** -/
theorem known_of_tokenize {text : List Char} (h : tokenize text = .ok ts) :
    ∀ token ∈ ts, token.Known := known_of_tokenizeFrom h

/-- **The parser accepts what derives from the documented grammar.** -/
theorem exists_parse_iff_documented (hts : ∀ token ∈ ts, token.Known) :
    (∃ node, Parser.parse (enough ts.length) ts = .ok node) ↔
      Documented (ts.map Token.lexeme) := by
  rw [exists_parse_iff, documented_iff, view_lexeme hts]
  constructor
  · exact fun h ↦ ⟨_, h⟩
  · rintro ⟨n, h⟩
    have hwithin := h.within
    rwa [List.length_map] at hwithin

end Expressions

namespace RuleExpr

/-- **Both parsers accept the documented grammar**, that of the API with four frames a token and
three more. -/
theorem parsers_documented (frames : ℕ) (ts : List SynopticExpr.Token)
    (hts : ∀ token ∈ ts, token.Known) (hframes : 4 * ts.length + 3 ≤ frames)
    (js : List Expressions.Token) (hjs : ∀ token ∈ js, token.Known) :
    (SynopticExpr.Parser.parse frames ts = .ok () ↔ Documented (ts.map (·.lexeme))) ∧
    ((∃ node, Expressions.Parser.parse (Expressions.enough js.length) js = .ok node) ↔
      Documented (js.map (·.lexeme))) :=
  ⟨SynopticExpr.parse_iff_documented hts hframes, Expressions.exists_parse_iff_documented hjs⟩

/-- `!(status == 'ok')`, with the frames that are enough for 200 characters. -/
theorem parsers_documented_status :
    (SynopticExpr.Parser.parse 803 [.op .not, .op .opening, .word "status".toList, .op .eq,
        .string "ok".toList, .op .closing] = .ok () ↔
      Documented [.op .not, .op .opening, .word "status", .op .eq, .string, .op .closing]) ∧
    ((∃ node, Expressions.Parser.parse (Expressions.enough 6) [.op .not, .op .opening,
        .word "status".toList, .op .eq, .string "ok".toList, .op .closing] = .ok node) ↔
      Documented [.op .not, .op .opening, .word "status", .op .eq, .string, .op .closing]) :=
  parsers_documented 803
    [.op .not, .op .opening, .word "status".toList, .op .eq, .string "ok".toList, .op .closing]
    (by simp [SynopticExpr.Token.Known, names]) (by decide)
    [.op .not, .op .opening, .word "status".toList, .op .eq, .string "ok".toList, .op .closing]
    (by simp [Expressions.Token.Known, names])

end RuleExpr

end Superviseur
