import Superviseur.Front.Expressions

/-!
# The trees of the parser

The parser of the viewer makes a tree of what it reads. `Builds` says which tree a list of tokens
has at some levels of the grammar: operators between operands take them from the left, operators
before an operand take it from the right, and brackets leave no trace.

**What has a tree is read as this tree** (`Builds.parse`). As in the grammar without trees, the
operand of a level is read together with what goes on with it, and the loop of a level goes on from
the tree of what it has read so far.
-/

namespace Superviseur.Expressions

open RuleExpr Precedence

/-! ## The parser, level by level -/

/-- The function of the parser for some levels. -/
def read : (depth : ℕ) → List (Level Operator) → List Token →
    Except RuleExpr.Failure (Node × List Token)
  | n, [], ts => Parser.primary n ts
  | 0, _ :: _, _ => .error .recursionError
  | n + 1, .chain operators :: levels, ts => chain (read n levels) operators ts
  | n + 1, .pre operators :: levels, ts => match takeOp operators ts with
    | some (op, ts) => do
      let (operand, ts) ← read n (.pre operators :: levels) ts
      return (.unary op operand, ts)
    | none => read n levels ts

theorem read_nil (n : ℕ) : read n [] = Parser.primary n := by
  cases n <;> rfl

theorem read_pre_single (n : ℕ) (o : Operator) (levels : List (Level Operator)) (ts : List Token) :
    read (n + 1) (.pre [o] :: levels) ts = match takeOp [o] ts with
      | some (_, ts) => do
        let (operand, ts) ← read n (.pre [o] :: levels) ts
        return (.unary o operand, ts)
      | none => read n levels ts := by
  rw [read]
  match ts with
  | [] | .number _ :: _ | .string _ :: _ | .word _ :: _ | .member _ :: _ => rfl
  | .op o' :: ts =>
    by_cases ho : o' ∈ [o]
    · rw [takeOp, if_pos ho, List.mem_singleton.mp ho]
    · rw [takeOp, if_neg ho]

theorem parser_eq_read (n : ℕ) : Parser.or n = read n grammar.levels ∧
    Parser.and n = read n (grammar.levels.drop 1) ∧
    Parser.not n = read n (grammar.levels.drop 2) ∧
    Parser.cmp n = read n (grammar.levels.drop 3) ∧
    Parser.add n = read n (grammar.levels.drop 4) ∧
    Parser.mul n = read n (grammar.levels.drop 5) ∧
    Parser.unary n = read n (grammar.levels.drop 6) := by
  induction n with
  | zero => exact ⟨rfl, rfl, rfl, rfl, rfl, rfl, rfl⟩
  | succ n ih =>
    obtain ⟨-, hand, hnot, hcmp, hadd, hmul, hunary⟩ := ih
    refine ⟨funext fun ts ↦ ?_, funext fun ts ↦ ?_, funext fun ts ↦ ?_, funext fun ts ↦ ?_,
      funext fun ts ↦ ?_, funext fun ts ↦ ?_, funext fun ts ↦ ?_⟩
    · rw [Parser.or, hand]
      rfl
    · rw [Parser.and, hnot]
      rfl
    · rw [Parser.not, hnot, hcmp]
      exact (read_pre_single n .not _ ts).symm
    · rw [Parser.cmp, hadd]
      rfl
    · rw [Parser.add, hmul]
      rfl
    · rw [Parser.mul, hunary]
      rfl
    · rw [Parser.unary, hunary, ← read_nil]
      exact (read_pre_single n .sub _ ts).symm

/-! ## Trees -/

/-- The tree of a token that stands alone. -/
def Token.leaf : Token → Option Node
  | number text => some (.literal (.number (toNumber text)))
  | string text => some (.literal (.text text))
  | word text => some (wordNode text)
  | op _ | member _ => none

/-- The tree that a list of tokens has at some levels. -/
inductive Builds : List (Level Operator) → List Token → Node → Prop
  | leaf {token node} : token.leaf = some node → Builds [] [token] node
  | group {ts node} : Builds grammar.levels ts node →
      Builds [] (.op .opening :: (ts ++ [.op .closing])) node
  | one {ops levels ts node} : Builds levels ts node →
      Builds (.chain ops :: levels) ts node
  | more {ops levels ts left o ts' right} : Builds (.chain ops :: levels) ts left →
      o ∈ ops → Builds levels ts' right →
      Builds (.chain ops :: levels) (ts ++ .op o :: ts') (.binary o left right)
  | bare {ops levels ts node} : Builds levels ts node →
      Builds (.pre ops :: levels) ts node
  | pre {ops levels o ts node} : o ∈ ops → Builds (.pre ops :: levels) ts node →
      Builds (.pre ops :: levels) (.op o :: ts) (.unary o node)

variable {n k m : ℕ} {levels : List (Level Operator)} {ts rest : List Token} {node left : Node}
  {operators : List Operator} {o : Operator}

theorem lower_read (n : ℕ) (levels : List (Level Operator)) (ts : List Token) :
    lower Token.view Prod.snd (read n levels ts) = grammar.parse n levels (ts.map Token.view) := by
  induction n generalizing levels ts with
  | zero =>
    cases levels with
    | nil => exact (reads 0).primary ts
    | cons => rfl
  | succ n ih =>
    rcases levels with - | ⟨operators | operators, levels⟩
    · exact (reads (n + 1)).primary ts
    · exact lower_chain (ih levels) ts
    · rw [read, Grammar.parse, take_view]
      rcases takeOp operators ts with _ | ⟨o, ts⟩
      · exact ih levels ts
      · dsimp only [Option.map_some]
        rw [← ih (.pre operators :: levels) ts]
        cases read n (.pre operators :: levels) ts <;> rfl

theorem length_lt_of_read (h : read n levels ts = .ok (node, rest)) : rest.length < ts.length := by
  have hlower := lower_read n levels ts
  rw [h] at hlower
  have hlt := Grammar.length_lt_of_parse hlower.symm
  rwa [List.length_map, List.length_map] at hlt

theorem Builds.exists_derives (h : Builds levels ts node) :
    ∃ n, grammar.Derives n levels (ts.map Token.view) := by
  induction h with
  | @leaf token node hleaf =>
    refine ⟨0, ?_⟩
    match token with
    | .number _ | .string _ | .word _ => exact .operand
  | group _ ih =>
    obtain ⟨n, hn⟩ := ih
    rw [List.map_cons, List.map_append]
    exact ⟨n + 1, .group hn⟩
  | one _ ih =>
    obtain ⟨n, hn⟩ := ih
    exact ⟨n + 1, .one hn⟩
  | more _ ho _ ihleft ihright =>
    obtain ⟨n, hn⟩ := ihleft
    obtain ⟨m, hm⟩ := ihright
    rw [List.map_append]
    exact ⟨max n m + 1, .more (hn.mono (by omega)) ho (hm.mono (by omega))⟩
  | bare _ ih =>
    obtain ⟨n, hn⟩ := ih
    exact ⟨n + 1, .bare hn⟩
  | pre ho _ ih =>
    obtain ⟨n, hn⟩ := ih
    exact ⟨n + 1, .pre ho hn⟩

/-! ## What has a tree is read as this tree -/

theorem takeOp_cons (ho : o ∈ operators) : takeOp operators (.op o :: ts) = some (o, ts) :=
  if_pos ho

theorem takeOp_eq_none (h : Grammar.take operators (ts.map Token.view) = none) :
    takeOp operators ts = none := by
  rw [take_view] at h
  exact Option.map_eq_none_iff.mp h

theorem length_of_takeOp (h : takeOp operators ts = some (o, rest)) :
    ts.length = rest.length + 1 := by
  rw [takeOp.eq_def] at h
  split at h
  · split at h
    · obtain ⟨-, rfl⟩ := Prod.mk.inj (Option.some.inj h)
      rfl
    · cases h
  · cases h

theorem chainFrom_congr {next : List Token → Except RuleExpr.Failure (Node × List Token)}
    (hnext : ∀ {ts node rest}, next ts = .ok (node, rest) → rest.length < ts.length)
    (hk : ts.length ≤ k) (hm : ts.length ≤ m) :
    chainFrom next operators k left ts = chainFrom next operators m left ts := by
  induction k generalizing m left ts with
  | zero =>
    obtain rfl := List.length_eq_zero_iff.mp (Nat.le_zero.mp hk)
    cases m <;> rfl
  | succ k ih =>
    rcases m with - | m
    · obtain rfl := List.length_eq_zero_iff.mp (Nat.le_zero.mp hm)
      rfl
    · rw [chainFrom, chainFrom]
      rcases htake : takeOp operators ts with _ | ⟨o, ts'⟩
      · rfl
      · dsimp only
        have hrest := length_of_takeOp htake
        rcases hread : next ts' with _ | ⟨right, rest⟩
        · rfl
        · have hlt : rest.length < ts'.length := hnext hread
          exact ih (show rest.length ≤ k by omega) (show rest.length ≤ m by omega)

/-- How the parser goes on after a tree of the levels. -/
def goOn : ℕ → List (Level Operator) → Node → List Token →
    Except RuleExpr.Failure (Node × List Token)
  | n + 1, .chain operators :: levels, node, rest =>
    chainFrom (read n levels) operators rest.length node rest
  | _, _, node, rest => .ok (node, rest)

theorem goOn_of_stops (h : Grammar.Stops levels (rest.map Token.view)) :
    goOn n levels node rest = .ok (node, rest) := by
  rw [goOn.eq_def]
  split
  · have htake := takeOp_eq_none (h.take_eq_none (List.subset_append_left _ _))
    cases rest.length with
    | zero => rfl
    | succ k => rw [chainFrom, htake]
  · rfl

theorem exists_succ {level : Level Operator} (hn : grammar.depth (level :: levels) k ≤ n) :
    ∃ m, n = m + 1 :=
  Nat.exists_eq_add_of_le' (Nat.le_trans (by rw [Grammar.depth, List.length_cons]; omega) hn)

/-- The parser reads what has a tree, makes this tree, and goes on with its level. -/
theorem Builds.read_append (h : Builds levels ts node)
    (hlevels : Level.Unambiguous grammar.opening levels)
    (hstops : Grammar.Stops (Grammar.inner levels) (rest.map Token.view))
    (hn : grammar.depth levels ts.length ≤ n) :
    read n levels (ts ++ rest) = goOn n levels node rest := by
  induction h generalizing n rest with
  | @leaf token node hleaf =>
    rw [read_nil]
    match token with
    | .number _ | .string _ | .word _ =>
      obtain rfl := Option.some.inj hleaf
      cases n <;> rfl
  | @group ts node _ ih =>
    simp only [Grammar.depth, List.length_cons, List.length_append, List.length_nil, Nat.mul_add,
      Nat.mul_one] at hn
    obtain ⟨n, rfl⟩ : ∃ m, n = m + 1 := Nat.exists_eq_add_of_le' (by omega)
    have hclosing : Grammar.Stops grammar.levels
        ((Token.op .closing :: rest).map Token.view) := Grammar.stops_op grammar.closes
    have hinner : grammar.depth grammar.levels ts.length ≤ n := by
      rw [Grammar.depth]
      omega
    have hread := (ih grammar.unambiguous hclosing.inner hinner).trans (goOn_of_stops hclosing)
    rw [read_nil, List.cons_append, List.append_assoc, List.singleton_append, Parser.primary,
      if_pos rfl, (parser_eq_read n).1, hread]
    rfl
  | @one operators levels ts node _ ih =>
    obtain ⟨-, hunambiguous⟩ := hlevels
    obtain ⟨n, rfl⟩ := exists_succ hn
    have hread := (ih hunambiguous hstops.inner (Nat.le_of_succ_le_succ hn)).trans
      (goOn_of_stops hstops)
    rw [read, chain, hread]
    rfl
  | @more operators levels ts left o ts' right _ ho _ ihleft ihright =>
    obtain ⟨hops, hunambiguous⟩ := hlevels
    obtain ⟨n, rfl⟩ := exists_succ hn
    have hlengths : grammar.depth (.chain operators :: levels) ts.length ≤ n + 1 ∧
        grammar.depth levels ts'.length ≤ n := by
      simp only [Grammar.depth, List.length_cons, List.length_append, Nat.mul_add] at hn ⊢
      omega
    have hread := (ihright hunambiguous hstops.inner hlengths.2).trans (goOn_of_stops hstops)
    have hstop : Grammar.Stops levels ((Token.op o :: (ts' ++ rest)).map Token.view) :=
      Grammar.stops_op (hops o ho)
    rw [List.append_assoc, List.cons_append, ihleft ⟨hops, hunambiguous⟩ hstop hlengths.1, goOn,
      List.length_cons, chainFrom, takeOp_cons ho]
    dsimp only
    rw [hread]
    -- The turns counted before the operator are as many as are needed after its operand.
    change chainFrom (read n levels) operators (ts' ++ rest).length (.binary o left right) rest =
      chainFrom (read n levels) operators rest.length (.binary o left right) rest
    exact chainFrom_congr length_lt_of_read (by rw [List.length_append]; omega) (Nat.le_refl _)
  | @bare operators levels ts node hts ih =>
    obtain ⟨hops, hunambiguous⟩ := hlevels
    obtain ⟨n, rfl⟩ := exists_succ hn
    have hstops : Grammar.Stops levels (rest.map Token.view) := hstops
    obtain ⟨m, hderives⟩ := hts.exists_derives
    have htake : takeOp operators (ts ++ rest) = none := by
      refine takeOp_eq_none ?_
      rw [List.map_append]
      exact hderives.take_eq_none hops
    rw [read, htake]
    exact (ih hunambiguous hstops.inner (Nat.le_of_succ_le_succ hn)).trans (goOn_of_stops hstops)
  | @pre operators levels o ts node ho _ ih =>
    obtain ⟨n, rfl⟩ := exists_succ hn
    have hlength : grammar.depth (.pre operators :: levels) ts.length ≤ n := by
      simp only [Grammar.depth, List.length_cons, Nat.mul_add] at hn ⊢
      omega
    have hstops : Grammar.Stops (.pre operators :: levels) (rest.map Token.view) := hstops
    have hread := (ih hlevels hstops hlength).trans (goOn_of_stops hstops)
    rw [List.cons_append, read, takeOp_cons ho]
    dsimp only
    rw [hread]
    rfl

/-- **What has a tree is parsed as this tree.** -/
theorem Builds.parse (h : Builds grammar.levels ts node) :
    Parser.parse (enough ts.length) ts = .ok node := by
  have hstops : Grammar.Stops grammar.levels (([] : List Token).map Token.view) :=
    fun _ _ _ ↦ nofun
  have hread := (h.read_append grammar.unambiguous hstops.inner (Nat.le_refl _)).trans
    (goOn_of_stops hstops)
  rw [List.append_nil, ← (parser_eq_read _).1] at hread
  have hempty : ts.isEmpty = false := by
    obtain ⟨n, hderives⟩ := h.exists_derives
    exact not_derives_nil hderives
  rw [Parser.parse, hempty, enough, hread]
  rfl

end Superviseur.Expressions
