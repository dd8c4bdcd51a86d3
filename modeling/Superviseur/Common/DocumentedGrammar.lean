import Superviseur.Common.Expressions
import Superviseur.Library.Ebnf

/-!
# The grammar of the documentation

The module of the checker and that of the viewer document the same grammar, rule by rule, from `or`
down to `primary`. It is written here as it is there; the words for operators are already mapped to
their symbols.

What derives from `or` is what derives from the levels of `grammar`, however deep they nest
(`documented_iff`).
-/

namespace Superviseur.RuleExpr

open Precedence Ebnf

/-- What the rules speak of: `nombre`, `texte`, a word, an operator; and what is none of these. -/
inductive Lexeme where
  | number
  | string
  | word (name : String)
  | op (o : Operator)
  | other

/-- The symbols that the grammar defines. -/
inductive Symbol where
  | or
  | and
  | not
  | cmp
  | add
  | mul
  | unary
  | primary

/-- `"||" | …`. -/
def operator (first : Operator) (others : List Operator) : Rule Symbol Lexeme :=
  .oneOf (.terminal (.op first)) (others.map fun o ↦ .terminal (.op o))

/-- `next (operator next)*`. -/
def chained (next : Symbol) (operator : Rule Symbol Lexeme) : Rule Symbol Lexeme :=
  .seq (.symbol next) (.star (.seq operator (.symbol next)))

/-- `operator self | next`. -/
def prefixed (self next : Symbol) (operator : Rule Symbol Lexeme) : Rule Symbol Lexeme :=
  .alt (.seq operator (.symbol self)) (.symbol next)

/-- `"(" or ")"`. -/
def bracketed : Rule Symbol Lexeme :=
  .seq (operator .opening []) (.seq (.symbol .or) (operator .closing []))

/-- The documented rules. -/
def rule : Symbol → Rule Symbol Lexeme
  | .or => chained .and (operator .or [])
  | .and => chained .not (operator .and [])
  | .not => prefixed .not .cmp (operator .not [])
  | .cmp => chained .add (operator .eq [.ne, .lt, .le, .gt, .ge])
  | .add => chained .mul (operator .add [.sub])
  | .mul => chained .unary (operator .mul [.div, .mod])
  | .unary => prefixed .unary .primary (operator .sub [])
  | .primary => .oneOf (.terminal .number)
      [.terminal .string, .terminal (.word "true"), .terminal (.word "false"),
        .terminal (.word "null"), .terminal (.word "value"), .terminal (.word "status"), bracketed]

/-- The list derives from `or`. -/
def Documented (ts : List Lexeme) : Prop := Derives rule (.symbol .or) ts

/-! ## The levels -/

/-- What a lexeme is for the levels. -/
def Lexeme.view : Lexeme → Terminal Operator
  | number | string => .operand
  | word name => if name ∈ names then .operand else .other
  | op o => .op o
  | other => .other

/-- The levels of a symbol. -/
def Symbol.levels : Symbol → List (Level Operator)
  | or => grammar.levels
  | and => grammar.levels.drop 1
  | not => grammar.levels.drop 2
  | cmp => grammar.levels.drop 3
  | add => grammar.levels.drop 4
  | mul => grammar.levels.drop 5
  | unary => grammar.levels.drop 6
  | primary => []

/-- What derives from the levels of a symbol, however deep they nest. -/
def Symbol.meaning (s : Symbol) : Language Lexeme :=
  {ts : List Lexeme | ∃ n, grammar.Derives n s.levels (ts.map Lexeme.view)}

variable {s next : Symbol} {ts : List Lexeme} {ops : List Operator} {levels : List (Level Operator)}
  {first o : Operator} {others : List Operator}

theorem Lexeme.view_eq_op {t : Lexeme} (h : t.view = .op o) : t = .op o := by
  rw [Lexeme.view.eq_def] at h
  split at h
  · nomatch h
  · nomatch h
  · split at h <;> nomatch h
  · rw [Terminal.op.inj h]
  · nomatch h

theorem mem_operator {meaning : Symbol → Language Lexeme}
    (h : ts ∈ (operator first others).lang meaning) : ∃ o ∈ first :: others, ts = [.op o] := by
  obtain ⟨e, he, hts⟩ := mem_lang_oneOf h
  rcases List.mem_cons.mp he with rfl | he
  · exact ⟨first, List.mem_cons_self, hts⟩
  · obtain ⟨o, ho, rfl⟩ := List.mem_map.mp he
    exact ⟨o, List.mem_cons_of_mem _ ho, hts⟩

theorem derives_operator (h : o ∈ first :: others) :
    Derives rule (operator first others) [.op o] := by
  refine Derives.terminal.oneOf ?_
  rcases List.mem_cons.mp h with rfl | ho
  · exact List.mem_cons_self
  · exact List.mem_cons_of_mem _ (List.mem_map_of_mem ho)

theorem derives_single : Derives rule (operator o []) [.op o] := derives_operator List.mem_cons_self

/-! ## What the rules derive -/

/-- A rule of operators between operands is within a level that has them. -/
theorem mem_meaning_of_chained (hlevels : s.levels = .chain ops :: next.levels)
    (hops : ∀ o ∈ first :: others, o ∈ ops)
    (h : ts ∈ (chained next (operator first others)).lang Symbol.meaning) : ts ∈ s.meaning := by
  refine mem_of_mem_lang_seq_star ?_ ?_ h
  · rintro ts ⟨n, hts⟩
    refine ⟨n + 1, ?_⟩
    rw [hlevels]
    exact .one hts
  · rintro ts hts
    obtain ⟨left, ⟨n, hleft⟩, mid, hmid, rfl⟩ := Language.mem_mul.mp hts
    obtain ⟨sign, hsign, right, ⟨m, hright⟩, rfl⟩ := Language.mem_mul.mp hmid
    obtain ⟨o, ho, rfl⟩ := mem_operator hsign
    refine ⟨max n m + 1, ?_⟩
    rw [hlevels] at hleft ⊢
    rw [List.map_append]
    exact .more (hleft.mono (by omega)) (hops o ho) (hright.mono (by omega))

/-- A rule of operators before their operand is within a level that has them. -/
theorem mem_meaning_of_prefixed (hlevels : s.levels = .pre ops :: next.levels)
    (hops : ∀ o ∈ first :: others, o ∈ ops)
    (h : ts ∈ (prefixed s next (operator first others)).lang Symbol.meaning) : ts ∈ s.meaning := by
  rcases h with hts | ⟨n, hts⟩
  · obtain ⟨sign, hsign, operand, ⟨n, hoperand⟩, rfl⟩ := Language.mem_mul.mp hts
    obtain ⟨o, ho, rfl⟩ := mem_operator hsign
    refine ⟨n + 1, ?_⟩
    rw [hlevels] at hoperand ⊢
    exact .pre (hops o ho) hoperand
  · refine ⟨n + 1, ?_⟩
    rw [hlevels]
    exact .bare hts

theorem mem_meaning_of_primary (hts : ts ∈ (rule .primary).lang Symbol.meaning) :
    ts ∈ Symbol.primary.meaning := by
  obtain ⟨e, he, hts⟩ := mem_lang_oneOf hts
  -- Every terminal of the rule is an operand; the last choice is the brackets.
  have hoperand : ∀ t : Lexeme, t.view = .operand → ts = [t] → ts ∈ Symbol.primary.meaning := by
    rintro t ht rfl
    exact ⟨0, by rw [List.map_singleton, ht]; exact .operand⟩
  simp only [List.mem_cons, List.not_mem_nil, or_false] at he
  rcases he with rfl | rfl | rfl | rfl | rfl | rfl | rfl | rfl
  · exact hoperand _ rfl hts
  · exact hoperand _ rfl hts
  · exact hoperand _ rfl hts
  · exact hoperand _ rfl hts
  · exact hoperand _ rfl hts
  · exact hoperand _ rfl hts
  · exact hoperand _ rfl hts
  · obtain ⟨opening, hopening, rest, hrest, rfl⟩ := Language.mem_mul.mp hts
    obtain ⟨inner, ⟨n, hinner⟩, closing, hclosing, rfl⟩ := Language.mem_mul.mp hrest
    obtain ⟨o, ho, rfl⟩ := mem_operator hopening
    obtain ⟨o', ho', rfl⟩ := mem_operator hclosing
    obtain rfl := List.mem_singleton.mp ho
    obtain rfl := List.mem_singleton.mp ho'
    refine ⟨n + 1, ?_⟩
    rw [List.map_append, List.map_append]
    exact .group hinner

theorem mem_meaning_of_rule (s : Symbol) (ts : List Lexeme)
    (h : ts ∈ (rule s).lang Symbol.meaning) : ts ∈ s.meaning := by
  cases s with
  | or => exact mem_meaning_of_chained rfl (by decide) h
  | and => exact mem_meaning_of_chained rfl (by decide) h
  | not => exact mem_meaning_of_prefixed rfl (by decide) h
  | cmp => exact mem_meaning_of_chained rfl (by decide) h
  | add => exact mem_meaning_of_chained rfl (by decide) h
  | mul => exact mem_meaning_of_chained rfl (by decide) h
  | unary => exact mem_meaning_of_prefixed rfl (by decide) h
  | primary => exact mem_meaning_of_primary h

/-! ## What the levels derive -/

theorem eq_primary (h : s.levels = []) : s = .primary := by
  cases s with
  | primary => rfl
  | or | and | not | cmp | add | mul | unary => nomatch h

/-- The rule of a symbol whose first level is one of operators between operands. -/
theorem exists_chained (h : s.levels = .chain ops :: levels) : ∃ next first others,
    levels = Symbol.levels next ∧ rule s = chained next (operator first others) ∧
      ∀ o ∈ ops, o ∈ first :: others := by
  cases s with
  | or =>
    cases h
    exact ⟨.and, _, _, rfl, rfl, by decide⟩
  | and =>
    cases h
    exact ⟨.not, _, _, rfl, rfl, by decide⟩
  | cmp =>
    cases h
    exact ⟨.add, _, _, rfl, rfl, by decide⟩
  | add =>
    cases h
    exact ⟨.mul, _, _, rfl, rfl, by decide⟩
  | mul =>
    cases h
    exact ⟨.unary, _, _, rfl, rfl, by decide⟩
  | not | unary | primary => nomatch h

/-- The rule of a symbol whose first level is one of operators before their operand. -/
theorem exists_prefixed (h : s.levels = .pre ops :: levels) : ∃ next first others,
    levels = Symbol.levels next ∧ rule s = prefixed s next (operator first others) ∧
      ∀ o ∈ ops, o ∈ first :: others := by
  cases s with
  | not =>
    cases h
    exact ⟨.cmp, _, _, rfl, rfl, by decide⟩
  | unary =>
    cases h
    exact ⟨.primary, _, _, rfl, rfl, by decide⟩
  | or | and | cmp | add | mul | primary => nomatch h

theorem derives_operand {t : Lexeme} (h : t.view = .operand) :
    Derives rule (.symbol .primary) [t] := by
  refine .symbol (Derives.terminal.oneOf ?_)
  rw [Lexeme.view.eq_def] at h
  split at h
  · exact List.mem_cons_self
  · exact List.mem_cons_of_mem _ List.mem_cons_self
  · rename_i name
    split at h
    · rename_i hname
      simp only [names, List.mem_cons, List.not_mem_nil, or_false] at hname
      rcases hname with rfl | rfl | rfl | rfl | rfl <;> simp
    · nomatch h
  · nomatch h
  · nomatch h

theorem Documented.bracketed (h : Documented ts) :
    Derives rule (.symbol .primary) (.op .opening :: (ts ++ [.op .closing])) := by
  have hgroup : Derives rule RuleExpr.bracketed ([.op .opening] ++ (ts ++ [.op .closing])) :=
    derives_single.seq (h.seq derives_single)
  exact .symbol (hgroup.oneOf (by simp))

theorem derives_of_levels {n : ℕ} {terminals : List (Terminal Operator)}
    (h : grammar.Derives n levels terminals) : ∀ {s : Symbol} {ts : List Lexeme},
      s.levels = levels → ts.map Lexeme.view = terminals → Derives rule (.symbol s) ts := by
  induction h with
  | operand =>
    intro s ts hs hts
    obtain rfl := eq_primary hs
    obtain ⟨t, ts', rfl, ht, hnil⟩ := List.map_eq_cons_iff.mp hts
    obtain rfl := List.map_eq_nil_iff.mp hnil
    exact derives_operand ht
  | group _ ih =>
    intro s ts hs hts
    obtain rfl := eq_primary hs
    obtain ⟨t, ts', rfl, ht, hts⟩ := List.map_eq_cons_iff.mp hts
    obtain ⟨inner, closing, rfl, hinner, hclosing⟩ := List.map_eq_append_iff.mp hts
    obtain ⟨t', ts', rfl, ht', hnil⟩ := List.map_eq_cons_iff.mp hclosing
    obtain rfl := List.map_eq_nil_iff.mp hnil
    obtain rfl := Lexeme.view_eq_op ht
    obtain rfl := Lexeme.view_eq_op ht'
    exact Documented.bracketed (ih (s := .or) rfl hinner)
  | one _ ih =>
    intro s ts hs hts
    obtain ⟨next, first, others, rfl, hrule, -⟩ := exists_chained hs
    refine .symbol ?_
    rw [hrule, ← List.append_nil ts]
    exact .seq (ih rfl hts) .nil
  | more _ ho _ ihleft ihright =>
    intro s ts hs hts
    obtain ⟨next, first, others, rfl, hrule, hops⟩ := exists_chained hs
    obtain ⟨left, rest, rfl, hleft, hrest⟩ := List.map_eq_append_iff.mp hts
    obtain ⟨t, right, rfl, ht, hright⟩ := List.map_eq_cons_iff.mp hrest
    obtain rfl := Lexeme.view_eq_op ht
    have hturn : Derives rule (.seq (operator first others) (.symbol next)) ([.op _] ++ right) :=
      (derives_operator (hops _ ho)).seq (ihright rfl hright)
    -- The operands before the operator derive from the rule too: the turn is one more of its star.
    have hderives := ihleft hs hleft
    cases hderives with
    | symbol hderives =>
      refine .symbol ?_
      rw [hrule] at hderives ⊢
      cases hderives with
      | seq hfirst hstar =>
        rw [List.append_assoc]
        exact hfirst.seq (hstar.more hturn)
  | bare _ ih =>
    intro s ts hs hts
    obtain ⟨next, first, others, rfl, hrule, -⟩ := exists_prefixed hs
    refine .symbol ?_
    rw [hrule]
    exact .right (ih rfl hts)
  | pre ho _ ih =>
    intro s ts hs hts
    obtain ⟨next, first, others, rfl, hrule, hops⟩ := exists_prefixed hs
    obtain ⟨t, operand, rfl, ht, hoperand⟩ := List.map_eq_cons_iff.mp hts
    obtain rfl := Lexeme.view_eq_op ht
    refine .symbol ?_
    rw [hrule]
    exact .left ((derives_operator (hops _ ho)).seq (ih hs hoperand))

/-- **What derives from the documented grammar is what derives from the levels**, however deep they
nest. -/
theorem documented_iff :
    Documented ts ↔ ∃ n, grammar.Derives n grammar.levels (ts.map Lexeme.view) := by
  constructor
  · exact fun h ↦ h.mem_lang mem_meaning_of_rule
  · rintro ⟨n, h⟩
    exact derives_of_levels h rfl rfl

end Superviseur.RuleExpr
