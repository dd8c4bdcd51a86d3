import Mathlib.Data.List.Chain
import Mathlib.Data.List.DropRight
import Mathlib.Data.List.Induction
import Mathlib.Data.List.Infix

/-!
# Runs between separators

A list made of non-empty runs, with one separator between any two. It is recognised by cutting it at
the separators, or by looking at its ends and at what stands next to what; the second way tells what
cutting, stripping and joining do to it.
-/

namespace Separated

variable {α : Type} [DecidableEq α]

/-- Non-empty runs of `p`, with one `sep` between any two. -/
def isRuns (sep : α) (p : α → Bool) (cs : List α) : Bool :=
  (cs.splitOn sep).all fun run ↦ !run.isEmpty && run.all p

/-- Nothing but `p` and `sep`, and no two separators in a row. -/
structure Spaced (sep : α) (p : α → Bool) (cs : List α) : Prop where
  chars : ∀ c ∈ cs, p c = true ∨ c = sep
  chain : cs.IsChain fun a b ↦ ¬(a = sep ∧ b = sep)

variable {sep : α} {p : α → Bool} {c d : α} {cs ds : List α}

theorem isRuns_iff_intercalate (hsep : p sep = false) : isRuns sep p cs = true ↔
    ∃ runs : List (List α), runs ≠ [] ∧ (∀ run ∈ runs, run ≠ [] ∧ ∀ c ∈ run, p c = true) ∧
      cs = [sep].intercalate runs := by
  have hrun : ∀ run : List α, (!run.isEmpty && run.all p) = true ↔
      run ≠ [] ∧ ∀ c ∈ run, p c = true := by
    intro run
    rw [Bool.and_eq_true, Bool.not_eq_true', List.isEmpty_eq_false_iff, List.all_eq_true]
  rw [isRuns, List.all_eq_true]
  constructor
  · intro h
    exact ⟨cs.splitOn sep, List.splitOn_ne_nil _ _, fun run hmem ↦ (hrun run).mp (h run hmem),
      (List.intercalate_splitOn sep).symm⟩
  · rintro ⟨runs, hne, hruns, rfl⟩ run hmem
    have hfree : ∀ run ∈ runs, sep ∉ run := by
      intro run hmem hin
      rw [(hruns run hmem).2 sep hin] at hsep
      exact Bool.noConfusion hsep
    rw [List.splitOn_intercalate sep hfree hne] at hmem
    exact (hrun run).mpr (hruns run hmem)

/-! ## One element after the other -/

theorem isRuns_nil : isRuns sep p [] = false := rfl

theorem isRuns_sep : isRuns sep p (sep :: cs) = false := by
  simp [isRuns, List.splitOn_cons_eq_if_modifyHead]

theorem isRuns_singleton (hc : c ≠ sep) : isRuns sep p [c] = p c := by
  simp [isRuns, List.splitOn_cons_eq_if_modifyHead, hc]

theorem isRuns_cons_sep (hc : c ≠ sep) :
    isRuns sep p (c :: sep :: cs) = (p c && isRuns sep p cs) := by
  simp [isRuns, List.splitOn_cons_eq_if_modifyHead, hc]

theorem isRuns_cons_cons (hc : c ≠ sep) (hd : d ≠ sep) :
    isRuns sep p (c :: d :: cs) = (p c && isRuns sep p (d :: cs)) := by
  obtain ⟨run, runs, hruns⟩ := List.exists_cons_of_ne_nil (List.splitOn_ne_nil sep cs)
  simp [isRuns, List.splitOn_cons_eq_if_modifyHead, hc, hd, hruns, Bool.and_assoc]

namespace Spaced

omit [DecidableEq α]

theorem of_part (h : Spaced sep p ds) (hpart : cs <:+: ds) : Spaced sep p cs :=
  ⟨fun c hc ↦ h.chars c (hpart.subset hc), h.chain.infix hpart⟩

theorem nil : Spaced sep p [] := ⟨fun _ h ↦ absurd h List.not_mem_nil, List.isChain_nil⟩

theorem of_forall (hsep : p sep = false) (h : ∀ c ∈ cs, p c = true) : Spaced sep p cs := by
  refine ⟨fun c hc ↦ .inl (h c hc), List.Pairwise.isChain ?_⟩
  refine List.pairwise_of_forall_mem_list fun a ha b _ hab ↦ ?_
  rw [← hab.1, h a ha] at hsep
  exact Bool.noConfusion hsep

theorem cons_iff : Spaced sep p (c :: cs) ↔
    (p c = true ∨ c = sep) ∧ (c = sep → cs.head? ≠ some sep) ∧ Spaced sep p cs := by
  constructor
  · rintro ⟨hchars, hchain⟩
    obtain ⟨hc, hcs⟩ := List.forall_mem_cons.mp hchars
    obtain ⟨hhead, hchain⟩ := List.isChain_cons.mp hchain
    exact ⟨hc, fun heq hsep ↦ hhead sep hsep ⟨heq, rfl⟩, hcs, hchain⟩
  · rintro ⟨hc, hhead, hcs, hchain⟩
    refine ⟨List.forall_mem_cons.mpr ⟨hc, hcs⟩, List.isChain_cons.mpr ⟨?_, hchain⟩⟩
    rintro d hd ⟨heq, rfl⟩
    exact hhead heq hd

theorem append_iff : Spaced sep p (cs ++ ds) ↔
    Spaced sep p cs ∧ Spaced sep p ds ∧ ¬(cs.getLast? = some sep ∧ ds.head? = some sep) := by
  constructor
  · rintro ⟨hchars, hchain⟩
    obtain ⟨hcs, hds, hmeet⟩ := List.isChain_append.mp hchain
    obtain ⟨hchars, hchars'⟩ := List.forall_mem_append.mp hchars
    exact ⟨⟨hchars, hcs⟩, ⟨hchars', hds⟩, fun ⟨hlast, hhead⟩ ↦ hmeet sep hlast sep hhead ⟨rfl, rfl⟩⟩
  · rintro ⟨⟨hchars, hcs⟩, ⟨hchars', hds⟩, hmeet⟩
    refine ⟨List.forall_mem_append.mpr ⟨hchars, hchars'⟩, List.isChain_append.mpr ⟨hcs, hds, ?_⟩⟩
    rintro a ha b hb ⟨rfl, rfl⟩
    exact hmeet ⟨ha, hb⟩

end Spaced

/-- **Runs are what is spaced, with no separator at either end.** -/
theorem isRuns_iff (hsep : p sep = false) : isRuns sep p cs = true ↔
    cs ≠ [] ∧ cs.head? ≠ some sep ∧ cs.getLast? ≠ some sep ∧ Spaced sep p cs := by
  induction cs using List.twoStepInduction with
  | nil => simp [isRuns_nil]
  | singleton c =>
    by_cases hc : c = sep
    · subst hc
      simp [isRuns_sep]
    · simp [isRuns_singleton hc, Spaced.cons_iff, Spaced.nil, hc]
  | cons_cons c d cs ih ih' =>
    by_cases hc : c = sep
    · subst hc
      simp [isRuns_sep]
    · have hhead : (c :: d :: cs).head? ≠ some sep := fun h ↦ hc (Option.some.inj h)
      by_cases hd : d = sep
      · -- a separator in second place: what follows it begins a run
        subst hd
        rw [isRuns_cons_sep hc, Bool.and_eq_true, ih, Spaced.cons_iff, Spaced.cons_iff,
          List.getLast?_cons_cons]
        cases cs with
        | nil => simp
        | cons e es =>
          rw [List.getLast?_cons_cons]
          constructor
          · rintro ⟨hp, hne, hfirst, hlast, hspaced⟩
            exact ⟨List.cons_ne_nil _ _, hhead, hlast, .inl hp, fun h ↦ absurd h hc, .inr rfl,
              fun _ ↦ hfirst, hspaced⟩
          · rintro ⟨-, -, hlast, hp, -, -, hfirst, hspaced⟩
            exact ⟨hp.resolve_right hc, List.cons_ne_nil _ _, hfirst rfl, hlast, hspaced⟩
      · rw [isRuns_cons_cons hc hd, Bool.and_eq_true, ih' d, Spaced.cons_iff (c := c),
          List.getLast?_cons_cons]
        constructor
        · rintro ⟨hp, -, hfirst, hlast, hspaced⟩
          exact ⟨List.cons_ne_nil _ _, hhead, hlast, .inl hp, fun _ ↦ hfirst, hspaced⟩
        · rintro ⟨-, -, hlast, hp, -, hspaced⟩
          exact ⟨hp.resolve_right hc, List.cons_ne_nil _ _, fun h ↦ hd (Option.some.inj h), hlast,
            hspaced⟩

/-! ## Stripping -/

/-- The list without the separators at its ends. -/
def strip (sep : α) (cs : List α) : List α :=
  (cs.dropWhile (· == sep)).rdropWhile (· == sep)

theorem strip_prefix : strip sep cs <+: cs.dropWhile (· == sep) := List.rdropWhile_prefix _ _

theorem strip_within : strip sep cs <:+: cs :=
  strip_prefix.isInfix.trans (List.dropWhile_suffix _).isInfix

theorem head?_strip (cs : List α) : (strip sep cs).head? ≠ some sep := by
  intro hhead
  -- the head is that of what is left at the other end
  obtain ⟨rest, hrest⟩ : strip sep cs <+: cs.dropWhile (· == sep) := strip_prefix
  have hfirst := List.head?_dropWhile_not (· == sep) cs
  rw [← hrest, List.head?_append, hhead] at hfirst
  simp at hfirst

theorem getLast?_strip (cs : List α) : (strip sep cs).getLast? ≠ some sep := by
  intro hlast
  have hne : strip sep cs ≠ [] := by
    rintro hnil
    rw [hnil, List.getLast?_nil] at hlast
    exact absurd hlast (Option.some_ne_none sep).symm
  have hlast' : ¬((strip sep cs).getLast hne == sep) = true := List.rdropWhile_last_not _ _ hne
  rw [List.getLast?_eq_some_getLast hne] at hlast
  exact hlast' (beq_iff_eq.mpr (Option.some.inj hlast))

theorem strip_eq_self (hhead : cs.head? ≠ some sep) (hlast : cs.getLast? ≠ some sep) :
    strip sep cs = cs := by
  have hdrop : cs.dropWhile (· == sep) = cs := by
    refine List.dropWhile_eq_self_iff.mpr fun hlength hfirst ↦ hhead ?_
    rw [List.head?_eq_getElem?, List.getElem?_eq_getElem hlength, beq_iff_eq.mp hfirst]
  rw [strip, hdrop]
  refine List.rdropWhile_eq_self_iff.mpr fun hne hfirst ↦ hlast ?_
  rw [List.getLast?_eq_some_getLast hne, beq_iff_eq.mp hfirst]

theorem strip_concat_sep (hne : cs ≠ []) (hhead : cs.head? ≠ some sep)
    (hlast : cs.getLast? ≠ some sep) : strip sep (cs ++ [sep]) = cs := by
  obtain ⟨c, cs, rfl⟩ := List.exists_cons_of_ne_nil hne
  have hc : ¬(c == sep) = true := fun h ↦ hhead (congrArg some (beq_iff_eq.mp h))
  have hdrop : (c :: cs ++ [sep]).dropWhile (· == sep) = c :: cs ++ [sep] :=
    List.dropWhile_cons_of_neg hc
  have hself := strip_eq_self hhead hlast
  rw [strip, List.dropWhile_cons_of_neg (p := (· == sep)) hc] at hself
  rw [strip, hdrop, List.rdropWhile_concat_pos (· == sep) _ _ (beq_self_eq_true sep), hself]

theorem isRuns_strip (hsep : p sep = false) (h : Spaced sep p cs) (hne : strip sep cs ≠ []) :
    isRuns sep p (strip sep cs) = true :=
  (isRuns_iff hsep).mpr ⟨hne, head?_strip cs, getLast?_strip cs, h.of_part strip_within⟩

end Separated
