import Mathlib.Data.List.Basic

/-!
# Grammars of operators

A grammar of operators is a list of levels, from the loosest to the tightest: the operators of a
level either chain operands of the next one, or stand before an operand of their own level. Below
the last level are the operands, and the expressions between brackets.

`Derives` says which lists of terminals belong to a level, and how deep the levels have to nest;
`parse` is the descent that reads them from left to right. It reads all of what derives from a level
and nothing else, whatever comes after that does not go on with the expression (`parse_append`,
`derives_of_parse`), and it never nests deeper than the derivation.
-/

namespace Precedence

/-- A terminal of a grammar whose operators are in `ω`; what is neither operand nor operator is in
no expression. -/
inductive Terminal (ω : Type) where
  | operand
  | op (o : ω)
  | other
  deriving DecidableEq

/-- A level of a grammar: the operators between its operands, or before them. -/
inductive Level (ω : Type) where
  | chain (ops : List ω)
  | pre (ops : List ω)

namespace Level

variable {ω : Type}

/-- The operators that go on with an expression of the levels. -/
def follow : List (Level ω) → List ω
  | [] => []
  | .chain ops :: levels => ops ++ follow levels
  | .pre _ :: levels => follow levels

/-- The operators with which an expression of the levels may begin. -/
def starts (opening : ω) : List (Level ω) → List ω
  | [] => [opening]
  | .chain _ :: levels => starts opening levels
  | .pre ops :: levels => ops ++ starts opening levels

/-- The first operator of what is left says at which level it goes on. -/
def Unambiguous (opening : ω) : List (Level ω) → Prop
  | [] => True
  | .chain ops :: levels => (∀ o ∈ ops, o ∉ follow levels) ∧ Unambiguous opening levels
  | .pre ops :: levels => (∀ o ∈ ops, o ∉ starts opening levels) ∧ Unambiguous opening levels

instance [DecidableEq ω] (opening : ω) :
    (levels : List (Level ω)) → Decidable (Unambiguous opening levels)
  | [] => .isTrue trivial
  | .chain ops :: levels =>
    haveI := instDecidableUnambiguousOfDecidableEq opening levels
    inferInstanceAs (Decidable ((∀ o ∈ ops, o ∉ follow levels) ∧ Unambiguous opening levels))
  | .pre ops :: levels =>
    haveI := instDecidableUnambiguousOfDecidableEq opening levels
    inferInstanceAs (Decidable ((∀ o ∈ ops, o ∉ starts opening levels) ∧
      Unambiguous opening levels))

end Level

/-- A grammar of operators, with its brackets. -/
structure Grammar (ω : Type) where
  levels : List (Level ω)
  opening : ω
  closing : ω
  unambiguous : Level.Unambiguous opening levels
  closes : closing ∉ Level.follow levels

/-- Why a list is not read. -/
inductive Refusal where
  | malformed
  | depth
  deriving DecidableEq

namespace Grammar

variable {ω : Type} (G : Grammar ω)

/-- The terminals derive from the levels, no more than `n` of them nesting; the innermost operands
count for nothing. -/
inductive Derives : ℕ → List (Level ω) → List (Terminal ω) → Prop
  | operand {n} : Derives n [] [.operand]
  | group {n ts} : Derives n G.levels ts →
      Derives (n + 1) [] (.op G.opening :: (ts ++ [.op G.closing]))
  | one {n ops levels ts} : Derives n levels ts → Derives (n + 1) (.chain ops :: levels) ts
  | more {n ops levels left o right} : Derives (n + 1) (.chain ops :: levels) left → o ∈ ops →
      Derives n levels right → Derives (n + 1) (.chain ops :: levels) (left ++ .op o :: right)
  | bare {n ops levels ts} : Derives n levels ts → Derives (n + 1) (.pre ops :: levels) ts
  | pre {n ops levels o ts} : o ∈ ops → Derives n (.pre ops :: levels) ts →
      Derives (n + 1) (.pre ops :: levels) (.op o :: ts)

section

variable {G} {n : ℕ} {levels : List (Level ω)} {ts : List (Terminal ω)}

theorem Derives.exists_cons (h : G.Derives n levels ts) : ∃ t ts', ts = t :: ts' ∧
    (t = .operand ∨ ∃ o ∈ Level.starts G.opening levels, t = .op o) := by
  induction h with
  | operand => exact ⟨_, _, rfl, .inl rfl⟩
  | group => exact ⟨_, _, rfl, .inr ⟨_, List.mem_singleton_self _, rfl⟩⟩
  | one _ ih => exact ih
  | more _ _ _ ih _ =>
    obtain ⟨t, ts', rfl, ht⟩ := ih
    exact ⟨t, _, rfl, ht⟩
  | bare _ ih =>
    obtain ⟨t, ts', rfl, ht⟩ := ih
    refine ⟨t, ts', rfl, ht.imp_right ?_⟩
    rintro ⟨o, ho, rfl⟩
    exact ⟨o, List.mem_append_right _ ho, rfl⟩
  | pre ho _ _ => exact ⟨_, _, rfl, .inr ⟨_, List.mem_append_left _ ho, rfl⟩⟩

theorem Derives.length_pos (h : G.Derives n levels ts) : 0 < ts.length := by
  obtain ⟨t, ts', rfl, -⟩ := h.exists_cons
  exact Nat.succ_pos _

theorem Derives.other_not_mem (h : G.Derives n levels ts) : .other ∉ ts := by
  induction h with
  | operand => simp
  | group _ ih => simp [ih]
  | one _ ih => exact ih
  | more _ _ _ ihleft ihright => simp [ihleft, ihright]
  | bare _ ih => exact ih
  | pre _ _ ih => simp [ih]

theorem Derives.mono {m : ℕ} (h : G.Derives n levels ts) (hm : n ≤ m) :
    G.Derives m levels ts := by
  induction h generalizing m with
  | operand => exact .operand
  | group _ ih =>
    obtain ⟨m, rfl⟩ := Nat.exists_eq_add_of_le' (Nat.one_le_of_lt hm)
    exact .group (ih (by omega))
  | one _ ih =>
    obtain ⟨m, rfl⟩ := Nat.exists_eq_add_of_le' (Nat.one_le_of_lt hm)
    exact .one (ih (by omega))
  | more _ ho _ ihleft ihright =>
    obtain ⟨m, rfl⟩ := Nat.exists_eq_add_of_le' (Nat.one_le_of_lt hm)
    exact .more (ihleft hm) ho (ihright (by omega))
  | bare _ ih =>
    obtain ⟨m, rfl⟩ := Nat.exists_eq_add_of_le' (Nat.one_le_of_lt hm)
    exact .bare (ih (by omega))
  | pre ho _ ih =>
    obtain ⟨m, rfl⟩ := Nat.exists_eq_add_of_le' (Nat.one_le_of_lt hm)
    exact .pre ho (ih (by omega))

/-! ## The depth that is enough -/

/-- A bracket goes through all the levels and comes with one that closes it: a token makes a list
nest half as many levels deeper, at most. -/
theorem Derives.of_length {c : ℕ} (h : G.Derives n levels ts) (hc : G.levels.length + 1 ≤ 2 * c) :
    ∀ {m}, c * ts.length + levels.length ≤ m + c → G.Derives m levels ts := by
  induction h with
  | operand => exact fun _ ↦ .operand
  | @group n ts hts ih =>
    intro m hm
    have hlength : (Terminal.op G.opening :: (ts ++ [.op G.closing])).length = ts.length + 2 := by
      simp
    rw [hlength, Nat.mul_add, List.length_nil] at hm
    obtain ⟨m, rfl⟩ : ∃ k, m = k + 1 := Nat.exists_eq_add_of_le' (by omega)
    exact .group (ih (by omega))
  | @one n ops levels ts hts ih =>
    intro m hm
    have hlength := Nat.le_mul_of_pos_right c hts.length_pos
    rw [List.length_cons] at hm
    obtain ⟨m, rfl⟩ : ∃ k, m = k + 1 := Nat.exists_eq_add_of_le' (by omega)
    exact .one (ih (by omega))
  | @more n ops levels left o right hleft ho hright ihleft ihright =>
    intro m hm
    have hlength := Nat.le_mul_of_pos_right c hleft.length_pos
    rw [List.length_append, List.length_cons, Nat.mul_add, Nat.mul_add, List.length_cons] at hm
    obtain ⟨m, rfl⟩ : ∃ k, m = k + 1 := Nat.exists_eq_add_of_le' (by omega)
    refine (ihleft ?_).more ho (ihright (by omega))
    rw [List.length_cons]
    omega
  | @bare n ops levels ts hts ih =>
    intro m hm
    have hlength := Nat.le_mul_of_pos_right c hts.length_pos
    rw [List.length_cons] at hm
    obtain ⟨m, rfl⟩ : ∃ k, m = k + 1 := Nat.exists_eq_add_of_le' (by omega)
    exact .bare (ih (by omega))
  | @pre n ops levels o ts ho hts ih =>
    intro m hm
    have hlength := Nat.le_mul_of_pos_right c hts.length_pos
    rw [List.length_cons, List.length_cons, Nat.mul_add] at hm
    obtain ⟨m, rfl⟩ : ∃ k, m = k + 1 := Nat.exists_eq_add_of_le' (by omega)
    refine .pre ho (ih ?_)
    rw [List.length_cons]
    omega

/-- How deep the levels nest at most, for a list of some length. -/
def depth (G : Grammar ω) (levels : List (Level ω)) (length : ℕ) : ℕ :=
  (G.levels.length + 1) * length + levels.length

/-- A list that derives from the levels does so within the depth of its length. -/
theorem Derives.within (h : G.Derives n levels ts) :
    G.Derives (G.depth levels ts.length) levels ts :=
  h.of_length (c := G.levels.length + 1) (by omega) (Nat.le_add_right _ _)

/-! ## What stops an expression -/

variable {o : ω} {rest : List (Terminal ω)}

/-- The rest does not go on with an expression of the levels. -/
def Stops (levels : List (Level ω)) (rest : List (Terminal ω)) : Prop :=
  ∀ o ∈ Level.follow levels, ∀ ts, rest ≠ .op o :: ts

/-- The levels that are done with once an operand of the first one is. -/
def inner : List (Level ω) → List (Level ω)
  | .chain _ :: levels => levels
  | levels => levels

theorem Stops.inner (h : Stops levels rest) : Stops (Grammar.inner levels) rest := by
  rw [Grammar.inner.eq_def]
  split
  · exact fun o ho ↦ h o (List.mem_append_right _ ho)
  · exact h

theorem stops_op (h : o ∉ Level.follow levels) : Stops levels (.op o :: ts) := by
  rintro o' ho' ts' heq
  obtain ⟨hop, -⟩ := List.cons.inj heq
  exact h (Terminal.op.inj hop ▸ ho')

end

section

variable [DecidableEq ω]

/-- What is left after one of the operators, if the list begins with one. -/
def take (ops : List ω) : List (Terminal ω) → Option (List (Terminal ω))
  | .op o :: ts => if o ∈ ops then some ts else none
  | _ => none

/-- As many operators of a level as there are, each with its operand. -/
def repeated (ops : List ω) (next : List (Terminal ω) → Except Refusal (List (Terminal ω))) :
    ℕ → List (Terminal ω) → Except Refusal (List (Terminal ω))
  | 0, ts => .ok ts
  | k + 1, ts => match take ops ts with
    | some rest => next rest >>= repeated ops next k
    | none => .ok ts

/-- The descent: what is left after the longest expression of the levels. -/
def parse : ℕ → List (Level ω) → List (Terminal ω) → Except Refusal (List (Terminal ω))
  | _, [], [] => .error .malformed
  | _, [], .operand :: ts => .ok ts
  | _, [], .other :: _ => .error .malformed
  | 0, _, _ => .error .depth
  | n + 1, [], .op o :: ts =>
    if o = G.opening then do
      let ts ← parse n G.levels ts
      match take [G.closing] ts with
      | some ts => .ok ts
      | none => .error .malformed
    else .error .malformed
  | n + 1, .chain ops :: levels, ts => do
    let ts ← parse n levels ts
    repeated ops (parse n levels) ts.length ts
  | n + 1, .pre ops :: levels, ts => match take ops ts with
    | some ts => parse n (.pre ops :: levels) ts
    | none => parse n levels ts

variable {G} {n m k : ℕ} {ops : List ω} {levels : List (Level ω)} {ts rest pre : List (Terminal ω)}
  {o : ω}

theorem bind_eq_ok {ε α β : Type} {x : Except ε α} {f : α → Except ε β} {b : β}
    (h : x >>= f = .ok b) : ∃ a, x = .ok a ∧ f a = .ok b := by
  cases x with
  | error e => nomatch h
  | ok a => exact ⟨a, rfl, h⟩

theorem eq_of_take (h : take ops ts = some rest) : ∃ o ∈ ops, ts = .op o :: rest := by
  rw [take.eq_def] at h
  split at h
  · rename_i o ts
    split at h
    · rename_i ho
      exact ⟨o, ho, by rw [Option.some.inj h]⟩
    · nomatch h
  · nomatch h

theorem take_cons (ho : o ∈ ops) : take ops (.op o :: ts) = some ts := if_pos ho

/-! ## What is read derives -/

theorem derives_of_repeated {next : List (Terminal ω) → Except Refusal (List (Terminal ω))}
    (hnext : ∀ {ts rest}, next ts = .ok rest → ∃ right, ts = right ++ rest ∧
      G.Derives n levels right)
    {left : List (Terminal ω)} (hleft : G.Derives (n + 1) (.chain ops :: levels) left)
    (h : repeated ops next k ts = .ok rest) :
    ∃ mid, ts = mid ++ rest ∧ G.Derives (n + 1) (.chain ops :: levels) (left ++ mid) := by
  induction k generalizing left ts with
  | zero => exact ⟨[], Except.ok.inj h, by rwa [List.append_nil]⟩
  | succ k ih =>
    rw [repeated] at h
    split at h
    · rename_i ts' htake
      obtain ⟨o, ho, rfl⟩ := eq_of_take htake
      obtain ⟨ts'', hright, hrest⟩ := bind_eq_ok h
      obtain ⟨right, rfl, hderives⟩ := hnext hright
      obtain ⟨mid, rfl, hmid⟩ := ih (hleft.more ho hderives) hrest
      refine ⟨.op o :: (right ++ mid), by simp, ?_⟩
      rwa [List.append_assoc] at hmid
    · exact ⟨[], Except.ok.inj h, by rwa [List.append_nil]⟩

/-- **What is read derives from the levels.** -/
theorem derives_of_parse (h : G.parse n levels ts = .ok rest) :
    ∃ pre, ts = pre ++ rest ∧ G.Derives n levels pre := by
  induction n generalizing levels ts rest with
  | zero =>
    match levels, ts with
    | [], [] => nomatch h
    | [], .operand :: ts => exact ⟨[.operand], by rw [← Except.ok.inj h]; rfl, .operand⟩
    | [], .other :: _ => nomatch h
    | [], .op _ :: _ => nomatch h
    | _ :: _, _ => nomatch h
  | succ n ih =>
    match levels, ts with
    | [], [] => nomatch h
    | [], .operand :: ts => exact ⟨[.operand], by rw [← Except.ok.inj h]; rfl, .operand⟩
    | [], .other :: _ => nomatch h
    | [], .op o :: ts =>
      rw [parse] at h
      split at h
      · rename_i ho
        obtain ⟨ts', hgroup, hrest⟩ := bind_eq_ok h
        obtain ⟨pre, rfl, hderives⟩ := ih hgroup
        split at hrest
        · rename_i ts'' htake
          obtain ⟨o', ho', rfl⟩ := eq_of_take htake
          obtain rfl := Except.ok.inj hrest
          obtain rfl := List.mem_singleton.mp ho'
          refine ⟨_, ?_, .group hderives⟩
          simp [ho]
        · nomatch hrest
      · nomatch h
    | .chain ops :: levels, ts =>
      -- the first operand, and then each operator with the next
      obtain ⟨ts', hfirst, hrest⟩ := bind_eq_ok h
      obtain ⟨left, rfl, hleft⟩ := ih hfirst
      obtain ⟨mid, rfl, hmid⟩ := derives_of_repeated ih (.one hleft) hrest
      exact ⟨left ++ mid, (List.append_assoc ..).symm, hmid⟩
    | .pre ops :: levels, ts =>
      rw [parse] at h
      split at h
      · rename_i ts' htake
        obtain ⟨o, ho, rfl⟩ := eq_of_take htake
        obtain ⟨pre, rfl, hderives⟩ := ih h
        exact ⟨.op o :: pre, rfl, .pre ho hderives⟩
      · obtain ⟨pre, rfl, hderives⟩ := ih h
        exact ⟨pre, rfl, .bare hderives⟩

theorem length_lt_of_parse (h : G.parse n levels ts = .ok rest) : rest.length < ts.length := by
  obtain ⟨pre, rfl, hderives⟩ := derives_of_parse h
  obtain ⟨t, pre, rfl, -⟩ := hderives.exists_cons
  rw [List.cons_append, List.length_cons, List.length_append]
  omega

/-! ## What derives is read -/

theorem Stops.take_eq_none (h : Stops levels rest) (hops : ops ⊆ Level.follow levels) :
    take ops rest = none := by
  by_contra htake
  obtain ⟨ts, hts⟩ := Option.ne_none_iff_exists'.mp htake
  obtain ⟨o, ho, rfl⟩ := eq_of_take hts
  exact h o (hops ho) ts rfl

theorem Derives.take_eq_none (h : G.Derives n levels ts)
    (hops : ∀ o ∈ ops, o ∉ Level.starts G.opening levels) : take ops (ts ++ rest) = none := by
  obtain ⟨t, ts', rfl, rfl | ⟨o, ho, rfl⟩⟩ := h.exists_cons
  · rfl
  · exact if_neg fun hmem ↦ hops o hmem ho

theorem repeated_congr {next : List (Terminal ω) → Except Refusal (List (Terminal ω))}
    (hnext : ∀ {ts rest}, next ts = .ok rest → rest.length < ts.length) (hk : ts.length ≤ k)
    (hm : ts.length ≤ m) : repeated ops next k ts = repeated ops next m ts := by
  have hnil : ∀ k, repeated ops next k [] = .ok [] := by
    intro k
    cases k <;> rfl
  induction k generalizing m ts with
  | zero =>
    obtain rfl := List.length_eq_zero_iff.mp (Nat.le_zero.mp hk)
    rw [hnil, hnil]
  | succ k ih =>
    cases m with
    | zero =>
      obtain rfl := List.length_eq_zero_iff.mp (Nat.le_zero.mp hm)
      rw [hnil, hnil]
    | succ m =>
      rw [repeated, repeated]
      split
      · rename_i rest htake
        obtain ⟨o, -, rfl⟩ := eq_of_take htake
        cases hrest : next rest with
        | error e => rfl
        | ok rest' =>
          have hlt := hnext hrest
          rw [List.length_cons] at hk hm
          exact ih (by omega) (by omega)
      · rfl

/-- How the descent goes on after an expression of the levels. -/
def goOn (G : Grammar ω) : ℕ → List (Level ω) → List (Terminal ω) →
    Except Refusal (List (Terminal ω))
  | n + 1, .chain ops :: levels, rest => repeated ops (G.parse n levels) rest.length rest
  | _, _, rest => .ok rest

theorem goOn_of_stops (h : Stops levels rest) : goOn G n levels rest = .ok rest := by
  rw [goOn.eq_def]
  split
  · have htake := h.take_eq_none (List.subset_append_left _ _)
    cases rest.length with
    | zero => rfl
    | succ k => rw [repeated, htake]
  · rfl

theorem Derives.parse_append (h : G.Derives n levels ts)
    (hlevels : Level.Unambiguous G.opening levels) (hstops : Stops (inner levels) rest) :
    G.parse n levels (ts ++ rest) = goOn G n levels rest := by
  induction h generalizing rest with
  | @operand n =>
    cases n <;> rfl
  | @group n ts _ ih =>
    have hclosing : Stops G.levels (.op G.closing :: rest) := stops_op G.closes
    have hread := (ih G.unambiguous hclosing.inner).trans (goOn_of_stops hclosing)
    rw [List.cons_append, List.append_assoc, List.singleton_append, parse, if_pos rfl, hread]
    change (match take [G.closing] (.op G.closing :: rest) with
      | some ts => Except.ok ts
      | none => Except.error Refusal.malformed) = .ok rest
    rw [take_cons (List.mem_singleton_self _)]
  | @one n ops levels ts _ ih =>
    obtain ⟨-, hinner⟩ := hlevels
    have hread := (ih hinner hstops.inner).trans (goOn_of_stops hstops)
    rw [parse, hread]
    rfl
  | @more n ops levels left o right _ ho _ ihleft ihright =>
    obtain ⟨hops, hinner⟩ := hlevels
    have hread := (ihright hinner hstops.inner).trans (goOn_of_stops hstops)
    rw [List.append_assoc, List.cons_append, ihleft ⟨hops, hinner⟩ (stops_op (hops o ho)), goOn,
      List.length_cons, repeated, take_cons ho]
    dsimp only
    rw [hread]
    -- The turns counted before the operator are as many as are needed after its operand.
    change repeated ops (G.parse n levels) (right ++ rest).length rest =
      repeated ops (G.parse n levels) rest.length rest
    exact repeated_congr length_lt_of_parse (by rw [List.length_append]; omega) (Nat.le_refl _)
  | @bare n ops levels ts hts ih =>
    obtain ⟨hops, hinner⟩ := hlevels
    have htake : take ops (ts ++ rest) = none := hts.take_eq_none hops
    have hstops : Stops levels rest := hstops
    rw [parse, htake]
    exact (ih hinner hstops.inner).trans (goOn_of_stops hstops)
  | @pre n ops levels o ts ho _ ih =>
    rw [List.cons_append, parse, take_cons ho]
    exact (ih hlevels hstops).trans (goOn_of_stops hstops)

/-- **What derives from the levels is read**, whatever comes after that does not go on with it. -/
theorem parse_append (h : G.Derives n levels ts) (hlevels : Level.Unambiguous G.opening levels)
    (hstops : Stops levels rest) : G.parse n levels (ts ++ rest) = .ok rest := by
  rw [h.parse_append hlevels hstops.inner, goOn_of_stops hstops]

/-- **The descent reads a list whole if and only if it derives from the grammar.** -/
theorem parse_eq_ok_nil_iff : G.parse n G.levels ts = .ok [] ↔ G.Derives n G.levels ts := by
  constructor
  · intro h
    obtain ⟨pre, hpre, hderives⟩ := derives_of_parse h
    rwa [hpre, List.append_nil]
  · intro h
    have hstops : Stops G.levels ([] : List (Terminal ω)) := fun _ _ _ ↦ nofun
    have hread := parse_append h G.unambiguous hstops
    rwa [List.append_nil] at hread

end

/-! ## What nests too deep -/

section

variable [DecidableEq ω]

/-- The list begins like an expression of the levels, and goes on, more than `n` levels deep, where
one more operand is expected. -/
inductive Overflows : ℕ → List (Level ω) → List (Terminal ω) → Prop
  | level {level levels ts} : Overflows 0 (level :: levels) ts
  | operator {o ts} : Overflows 0 [] (.op o :: ts)
  | group {n ts} : Overflows n G.levels ts → Overflows (n + 1) [] (.op G.opening :: ts)
  | first {n ops levels ts} : Overflows n levels ts → Overflows (n + 1) (.chain ops :: levels) ts
  | more {n ops levels left o ts} : G.Derives (n + 1) (.chain ops :: levels) left → o ∈ ops →
      Overflows n levels ts → Overflows (n + 1) (.chain ops :: levels) (left ++ .op o :: ts)
  | bare {n ops levels ts} : take ops ts = none → Overflows n levels ts →
      Overflows (n + 1) (.pre ops :: levels) ts
  | pre {n ops levels o ts} : o ∈ ops → Overflows n (.pre ops :: levels) ts →
      Overflows (n + 1) (.pre ops :: levels) (.op o :: ts)

variable {G} {n k : ℕ} {ops : List ω} {levels : List (Level ω)} {ts rest : List (Terminal ω)}

/-- The turn of a chain whose operand is too deep, after the operands before it. -/
theorem exists_turn_of_repeated
    {next : List (Terminal ω) → Except Refusal (List (Terminal ω))}
    (hnext : ∀ {ts rest}, next ts = .ok rest → ∃ right, ts = right ++ rest ∧
      G.Derives n levels right)
    {left : List (Terminal ω)} (hleft : G.Derives (n + 1) (.chain ops :: levels) left)
    (h : repeated ops next k ts = .error .depth) :
    ∃ mid o ts', ts = mid ++ .op o :: ts' ∧ o ∈ ops ∧ next ts' = .error .depth ∧
      G.Derives (n + 1) (.chain ops :: levels) (left ++ mid) := by
  induction k generalizing left ts with
  | zero => nomatch h
  | succ k ih =>
    rw [repeated] at h
    split at h
    · rename_i ts' htake
      obtain ⟨o, ho, rfl⟩ := eq_of_take htake
      cases hread : next ts' with
      | error e =>
        rw [hread] at h
        obtain rfl : e = .depth := Except.error.inj h
        exact ⟨[], o, ts', rfl, ho, hread, by rwa [List.append_nil]⟩
      | ok rest =>
        rw [hread] at h
        obtain ⟨right, rfl, hright⟩ := hnext hread
        obtain ⟨mid, o', ts'', rfl, ho', hdeep, hmid⟩ := ih (hleft.more ho hright) h
        refine ⟨.op o :: (right ++ mid), o', ts'', by simp, ho', hdeep, ?_⟩
        rwa [List.append_assoc] at hmid
    · nomatch h

theorem overflows_of_parse (h : G.parse n levels ts = .error .depth) : G.Overflows n levels ts := by
  induction n generalizing levels ts with
  | zero =>
    match levels, ts with
    | [], [] => nomatch h
    | [], .operand :: _ => nomatch h
    | [], .other :: _ => nomatch h
    | [], .op _ :: _ => exact .operator
    | _ :: _, _ => exact .level
  | succ n ih =>
    match levels, ts with
    | [], [] => nomatch h
    | [], .operand :: _ => nomatch h
    | [], .other :: _ => nomatch h
    | [], .op o :: ts =>
      rw [parse] at h
      split at h
      · rename_i ho
        cases hread : G.parse n G.levels ts with
        | error e =>
          rw [hread] at h
          obtain rfl : e = .depth := Except.error.inj h
          exact ho ▸ .group (ih hread)
        | ok rest =>
          rw [hread] at h
          -- a group that was read and is not closed is malformed, not too deep
          change (match take [G.closing] rest with
            | some ts => Except.ok ts
            | none => Except.error Refusal.malformed) = .error .depth at h
          split at h
          · nomatch h
          · nomatch h
      · nomatch h
    | .chain ops :: levels, ts =>
      rw [parse] at h
      cases hread : G.parse n levels ts with
      | error e =>
        rw [hread] at h
        obtain rfl : e = .depth := Except.error.inj h
        exact .first (ih hread)
      | ok rest =>
        rw [hread] at h
        obtain ⟨left, rfl, hleft⟩ := derives_of_parse hread
        -- the first operand was read: a later one is too deep
        obtain ⟨mid, o, ts', rfl, ho, hdeep, hmid⟩ :=
          exists_turn_of_repeated derives_of_parse (.one hleft) h
        rw [← List.append_assoc]
        exact .more hmid ho (ih hdeep)
    | .pre ops :: levels, ts =>
      rw [parse] at h
      split at h
      · rename_i ts' htake
        obtain ⟨o, ho, rfl⟩ := eq_of_take htake
        exact .pre ho (ih h)
      · rename_i htake
        exact .bare htake (ih h)

theorem Overflows.parse (h : G.Overflows n levels ts)
    (hlevels : Level.Unambiguous G.opening levels) : G.parse n levels ts = .error .depth := by
  induction h with
  | level => rw [Grammar.parse.eq_def]
  | operator => rfl
  | group _ ih =>
    rw [Grammar.parse, if_pos rfl, ih G.unambiguous]
    rfl
  | first _ ih =>
    rw [Grammar.parse, ih hlevels.2]
    rfl
  | @more n ops levels left o ts hleft ho _ ih =>
    obtain ⟨hops, hinner⟩ := hlevels
    rw [hleft.parse_append ⟨hops, hinner⟩ (stops_op (hops o ho)), goOn, List.length_cons, repeated,
      take_cons ho]
    dsimp only
    rw [ih hinner]
    rfl
  | bare htake _ ih =>
    rw [Grammar.parse, htake]
    exact ih hlevels.2
  | pre ho _ ih =>
    rw [Grammar.parse, take_cons ho]
    exact ih hlevels

/-- **The descent gives up for its depth on the lists that overflow**, and on no others. -/
theorem parse_eq_depth_iff : G.parse n G.levels ts = .error .depth ↔ G.Overflows n G.levels ts :=
  ⟨overflows_of_parse, fun h ↦ h.parse G.unambiguous⟩

end

end Grammar

end Precedence
