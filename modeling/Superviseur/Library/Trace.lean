import Mathlib.Data.List.Induction
import Mathlib.Logic.Relation

/-!
# Labelled paths

A labelled transition system is a relation `R s i t`: label `i` leads from `s` to `t`. A path is a
finite list of labels taken one after the other. A run under a condition on its steps is a path of
the relation that carries the condition, so that "in every run whose steps all meet `C`" is a
statement about one inductive predicate.

Properties of whole paths are obtained from properties of one step by `Path.invariant` (a predicate
of the state) and `Path.relate` (a relation between the two ends).
-/

namespace Trace

variable {σ ι : Type*}

/-- `Path R s is t`: the labels `is` lead from `s` to `t`. -/
inductive Path (R : σ → ι → σ → Prop) : σ → List ι → σ → Prop
  | nil (s : σ) : Path R s [] s
  | cons {s t u : σ} {i : ι} {is : List ι} (hstep : R s i t) (hrest : Path R t is u) :
      Path R s (i :: is) u

namespace Path

variable {R R' : σ → ι → σ → Prop} {s t u : σ} {i : ι} {is js : List ι}

theorem single (h : R s i t) : Path R s [i] t := .cons h (.nil t)

/-- **Invariant rule.** What one step preserves, a path preserves. -/
theorem invariant (I : σ → Prop) (hI : ∀ {s i t}, I s → R s i t → I t) (h : Path R s is t) :
    I s → I t := by
  induction h with
  | nil s => exact id
  | cons hstep _ ih => exact fun hs ↦ ih (hI hs hstep)

/-- **Relation rule.** A reflexive and transitive relation that holds across every step from an
invariant state holds across every path from one. -/
theorem relate (I : σ → Prop) (Q : σ → σ → Prop) (hrefl : ∀ s, Q s s)
    (htrans : ∀ {s t u}, Q s t → Q t u → Q s u)
    (hI : ∀ {s i t}, I s → R s i t → I t ∧ Q s t) (h : Path R s is t) : I s → Q s t := by
  induction h with
  | nil s => exact fun _ ↦ hrefl s
  | cons hstep _ ih =>
    intro hs
    obtain ⟨ht, hQ⟩ := hI hs hstep
    exact htrans hQ (ih ht)

theorem mono (hR : ∀ {s i t}, R s i t → R' s i t) (h : Path R s is t) : Path R' s is t := by
  induction h with
  | nil s => exact .nil s
  | cons hstep _ ih => exact .cons (hR hstep) ih

theorem append (h : Path R s is t) (h' : Path R t js u) : Path R s (is ++ js) u := by
  induction h with
  | nil s => exact h'
  | cons hstep _ ih => exact .cons hstep (ih h')

/-- A path over `is ++ js` passes through a state between the two parts. -/
theorem of_append (h : Path R s (is ++ js) u) : ∃ t, Path R s is t ∧ Path R t js u := by
  induction is generalizing s with
  | nil => exact ⟨s, .nil s, h⟩
  | cons i is ih =>
    cases h with
    | cons hstep hrest =>
      obtain ⟨t, h1, h2⟩ := ih hrest
      exact ⟨t, .cons hstep h1, h2⟩

/-- The labels determine the end of a path where they determine the end of a step. -/
theorem deterministic (hR : ∀ {s i t u}, R s i t → R s i u → t = u) (h : Path R s is t)
    (h' : Path R s is u) : t = u := by
  induction h with
  | nil s =>
    cases h'
    rfl
  | cons hstep _ ih =>
    cases h' with
    | cons hstep' hrest' =>
      rw [hR hstep' hstep] at hrest'
      exact ih hrest'

end Path

/-! ## Executable systems -/

/-- The relation of a step function, for steps that meet a condition. -/
def Stepping (next : σ → ι → Option σ) (C : σ → ι → Prop) (s : σ) (i : ι) (t : σ) : Prop :=
  C s i ∧ next s i = some t

/-- Execution of a list of labels, stopping where a label is impossible. -/
def exec (next : σ → ι → Option σ) : σ → List ι → Option σ
  | s, [] => some s
  | s, i :: is => (next s i).bind fun t ↦ exec next t is

theorem exec_append {next : σ → ι → Option σ} (s : σ) (is js : List ι) :
    exec next s (is ++ js) = (exec next s is).bind fun t ↦ exec next t js := by
  induction is generalizing s with
  | nil => rfl
  | cons i is ih =>
    rw [List.cons_append, exec, exec, Option.bind_assoc]
    exact congrArg _ (funext fun t ↦ ih t)

/-- What `exec` computes is a path, under any condition its labels always meet. -/
theorem Path.of_exec {next : σ → ι → Option σ} {C : σ → ι → Prop} {s t : σ} {is : List ι}
    (hC : ∀ i ∈ is, ∀ s, C s i) (h : exec next s is = some t) : Path (Stepping next C) s is t := by
  induction is generalizing s with
  | nil =>
    rw [exec, Option.some.injEq] at h
    subst h
    exact .nil _
  | cons i is ih =>
    obtain ⟨u, hu, hrest⟩ := Option.bind_eq_some_iff.mp h
    exact .cons ⟨hC i (List.mem_cons_self ..) s, hu⟩
      (ih (fun i' hi' ↦ hC i' (List.mem_cons_of_mem _ hi')) hrest)

theorem Path.of_exec_next {next : σ → ι → Option σ} {s t : σ} {is : List ι}
    (h : exec next s is = some t) : Path (fun s i t ↦ next s i = some t) s is t :=
  (Path.of_exec (fun _ _ _ ↦ trivial) h : Path (Stepping next fun _ _ ↦ True) s is t).mono And.right

/-- What `exec` computes is a path under the condition it checks before each step. -/
theorem Path.of_exec_checked {next : σ → ι → Option σ} {C : σ → ι → Prop}
    [∀ s i, Decidable (C s i)] {s t : σ} {is : List ι}
    (h : exec (fun s i ↦ if C s i then next s i else none) s is = some t) :
    Path (Stepping next C) s is t := by
  refine (Path.of_exec (fun _ _ _ ↦ trivial) h : Path (Stepping _ fun _ _ ↦ True) s is t).mono ?_
  rintro s i t ⟨-, hstep⟩
  by_cases hC : C s i
  · exact ⟨hC, by simpa only [hC, if_true] using hstep⟩
  · simp [hC] at hstep

/-! ## Runs of a function -/

/-- What holds at each label after the labels before it, by the position of the label. -/
theorem forall_concat_prefix_iff {P : List ι → ι → Prop} {labels : List ι} :
    (∀ past i, past ++ [i] <+: labels → P past i) ↔
      ∀ k (hk : k < labels.length), P (labels.take k) (labels.get ⟨k, hk⟩) := by
  constructor
  · intro h k hk
    refine h _ _ ?_
    rw [List.get_eq_getElem, List.take_append_getElem]
    exact List.take_prefix _ _
  · rintro h past i ⟨rest, rfl⟩
    have hlabel := h past.length (by simp)
    simpa using hlabel

/-- **Exactness rule.** An invariant that implies `P` and is kept by the steps that meet `C`, while
`P` does not hold after any other: `P` holds in every state reached if and only if every step meets
`C`. -/
theorem forall_prefix_iff {step : σ → ι → σ} {I P : σ → Prop} {C : σ → ι → Prop} {s : σ}
    (hP : ∀ {s}, I s → P s) (hkeep : ∀ {s i}, I s → C s i → I (step s i))
    (hbreak : ∀ {s i}, I s → ¬ C s i → ¬ P (step s i)) (hs : I s) (labels : List ι) :
    (∀ past, past <+: labels → P (past.foldl step s)) ↔
      ∀ past i, past ++ [i] <+: labels → C (past.foldl step s) i := by
  have hconcat (past : List ι) (i : ι) :
      (past ++ [i]).foldl step s = step (past.foldl step s) i := by
    rw [List.foldl_append, List.foldl_cons, List.foldl_nil]
  constructor
  · intro h
    have hinvariant : ∀ past, past <+: labels → I (past.foldl step s) := by
      intro past
      induction past using List.reverseRecOn with
      | nil => exact fun _ ↦ hs
      | append_singleton past i ih =>
        intro hpast
        have hI := ih ((List.prefix_append past [i]).trans hpast)
        have hstep := h (past ++ [i]) hpast
        rw [hconcat] at hstep ⊢
        by_contra hnot
        exact hbreak hI (fun hC ↦ hnot (hkeep hI hC)) hstep
    intro past i hpast
    by_contra hC
    have hstep := h (past ++ [i]) hpast
    rw [hconcat] at hstep
    exact hbreak (hinvariant past ((List.prefix_append past [i]).trans hpast)) hC hstep
  · intro h past
    suffices hinvariant : past <+: labels → I (past.foldl step s) from
      fun hpast ↦ hP (hinvariant hpast)
    induction past using List.reverseRecOn with
    | nil => exact fun _ ↦ hs
    | append_singleton past i ih =>
      intro hpast
      rw [hconcat]
      exact hkeep (ih ((List.prefix_append past [i]).trans hpast)) (h past i hpast)

end Trace
