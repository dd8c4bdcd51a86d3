import Mathlib.Data.List.SplitBy

/-!
# Linear histories

The states that can be undone and redone, around the present one. A step is recorded by
`LinearHistory.commit`, which forgets what could be redone and, beyond the limit, the oldest state.
Going back and forth moves along one line: `redo` takes back what `undo` did (`redo_undo_iterate`),
and `k` times `undo` leads to the `k`-th state of the past (`present_undo_iterate`).

Steps are often made of runs of smaller ones, the maximal runs of `List.splitBy`; the last run is
the one that grows (`splitBy_concat`).
-/

/-- A line of states, of which no more than `limit` are not the present one. -/
structure LinearHistory (α : Type*) (limit : ℕ) where
  /-- What can be undone, the latest first. -/
  past : List α
  present : α
  /-- What can be redone, the next first. -/
  future : List α
  bounded : past.length + future.length ≤ limit

namespace LinearHistory

variable {α : Type*} {limit : ℕ}

/-- Nothing has happened. -/
def init (limit : ℕ) (a : α) : LinearHistory α limit := ⟨[], a, [], Nat.zero_le _⟩

/-- A step to `a`. -/
def commit (h : LinearHistory α limit) (a : α) : LinearHistory α limit where
  past := (h.present :: h.past).take limit
  present := a
  future := []
  bounded := List.length_take_le _ _

/-- The last step goes on to `a`. -/
def amend (h : LinearHistory α limit) (a : α) : LinearHistory α limit where
  past := h.past
  present := a
  future := []
  bounded := (Nat.le_add_right _ _).trans h.bounded

/-- Nothing can be redone any more. -/
def forget (h : LinearHistory α limit) : LinearHistory α limit := h.amend h.present

def undo (h : LinearHistory α limit) : LinearHistory α limit :=
  match h with
  | ⟨[], _, _, _⟩ => h
  | ⟨a :: past, b, future, bounded⟩ =>
    ⟨past, a, b :: future, by rw [List.length_cons] at bounded ⊢; omega⟩

def redo (h : LinearHistory α limit) : LinearHistory α limit :=
  match h with
  | ⟨_, _, [], _⟩ => h
  | ⟨past, b, a :: future, bounded⟩ =>
    ⟨b :: past, a, future, by rw [List.length_cons] at bounded ⊢; omega⟩

variable {h : LinearHistory α limit} {a b : α}

theorem length_past_le (h : LinearHistory α limit) : h.past.length ≤ limit :=
  (Nat.le_add_right _ _).trans h.bounded

@[simp] theorem future_commit (h : LinearHistory α limit) (a : α) : (h.commit a).future = [] := rfl

@[simp] theorem present_commit (h : LinearHistory α limit) (a : α) : (h.commit a).present = a := rfl

/-- A step that goes on is one step. -/
@[simp] theorem amend_commit (h : LinearHistory α limit) (a b : α) :
    (h.commit a).amend b = h.commit b := rfl

theorem redo_undo (hpast : h.past ≠ []) : h.undo.redo = h := by
  obtain ⟨past, a, future, hbounded⟩ := h
  match past with
  | [] => exact absurd rfl hpast
  | b :: past => rfl

theorem past_undo (h : LinearHistory α limit) : h.undo.past = h.past.tail := by
  obtain ⟨_ | ⟨a, past⟩, b, future, hbounded⟩ := h <;> rfl

theorem undo_of_nil (hpast : h.past = []) : h.undo = h := by
  obtain ⟨past, b, future, hbounded⟩ := h
  obtain rfl : past = [] := hpast
  rfl

theorem redo_of_nil (hfuture : h.future = []) : h.redo = h := by
  obtain ⟨past, b, future, hbounded⟩ := h
  obtain rfl : future = [] := hfuture
  rfl

theorem undo_eq {past : List α} (hpast : h.past = a :: past) :
    h.undo.past = past ∧ h.undo.present = a ∧ h.undo.future = h.present :: h.future := by
  obtain ⟨past', b, future, hbounded⟩ := h
  obtain rfl : past' = a :: past := hpast
  exact ⟨rfl, rfl, rfl⟩

theorem redo_eq {future : List α} (hfuture : h.future = a :: future) :
    h.redo.past = h.present :: h.past ∧ h.redo.present = a ∧ h.redo.future = future := by
  obtain ⟨past, b, future', hbounded⟩ := h
  obtain rfl : future' = a :: future := hfuture
  exact ⟨rfl, rfl, rfl⟩

theorem past_undo_iterate (h : LinearHistory α limit) (k : ℕ) :
    (undo^[k] h).past = h.past.drop k := by
  induction k with
  | zero => rfl
  | succ k ih => rw [Function.iterate_succ_apply', past_undo, ih, List.tail_drop]

/-- **`k` times `undo` leads to the `k`-th state of the past.** -/
theorem present_undo_iterate {k : ℕ} (hk : k ≤ h.past.length) :
    some (undo^[k] h).present = (h.present :: h.past)[k]? := by
  induction k with
  | zero => rfl
  | succ k ih =>
    have hlt : k < h.past.length := hk
    have hpast := past_undo_iterate h k
    rw [Function.iterate_succ_apply', List.getElem?_cons_succ]
    rw [List.drop_eq_getElem_cons hlt] at hpast
    rw [(undo_eq hpast).2.1, List.getElem?_eq_getElem hlt]

/-- **`redo` takes back what `undo` did.** -/
theorem redo_undo_iterate {j k : ℕ} (hj : j ≤ k) (hk : k ≤ h.past.length) :
    redo^[j] (undo^[k] h) = undo^[k - j] h := by
  induction j generalizing k with
  | zero => rfl
  | succ j ih =>
    obtain ⟨k, rfl⟩ := Nat.exists_eq_add_of_le' (Nat.one_le_of_lt hj)
    have hpast : (undo^[k] h).past ≠ [] := by
      rw [past_undo_iterate, Ne, List.drop_eq_nil_iff]
      omega
    rw [Function.iterate_succ_apply, Function.iterate_succ_apply' undo, redo_undo hpast,
      ih (by omega) (by omega), Nat.add_sub_add_right]

end LinearHistory

/-! ## Maximal runs -/

/-- Where the last element is related to what is added, the last run grows. -/
theorem splitBy_concat {α : Type*} {r : α → α → Bool} {l : List α} {x a : α}
    (hlast : l.getLast? = some x) (hr : r x a) : ∃ runs run, l.splitBy r = runs ++ [run] ∧
      run.getLast? = some x ∧ (l ++ [a]).splitBy r = runs ++ [run ++ [a]] := by
  have hl : l ≠ [] := by
    rintro rfl
    simp at hlast
  obtain ⟨runs, run, hsplit⟩ :=
    (List.eq_nil_or_concat (l.splitBy r)).resolve_left (List.splitBy_ne_nil.mpr hl)
  rw [List.concat_eq_append] at hsplit
  obtain ⟨hflat, hnil, hchain, hbreaks⟩ := List.splitBy_eq_iff.mp hsplit
  have hrun : run ≠ [] := fun h ↦ hnil (by simp [h])
  have hx : run.getLast? = some x := by
    rw [← hlast, hflat, List.flatten_append, List.flatten_singleton, List.getLast?_append,
      List.getLast?_eq_some_getLast hrun, Option.some_or]
  refine ⟨runs, run, hsplit, hx, List.splitBy_eq_iff.mpr ⟨?_, ?_, ?_, ?_⟩⟩
  · rw [hflat]
    simp
  · simpa [hrun] using hnil
  · intro m hm
    rcases List.mem_append.mp hm with hm | hm
    · exact hchain m (List.mem_append_left _ hm)
    · obtain rfl := List.mem_singleton.mp hm
      refine List.isChain_append.mpr
        ⟨hchain run (by simp), List.isChain_singleton a, fun y hy z hz ↦ ?_⟩
      obtain rfl := Option.some.inj (hx.symm.trans hy)
      obtain rfl : a = z := by simpa using hz
      exact hr
  · rw [List.isChain_append] at hbreaks ⊢
    refine ⟨hbreaks.1, List.isChain_singleton _, fun m hm m' hm' ↦ ?_⟩
    obtain ⟨hm₀, hrun₀, hbreak⟩ := hbreaks.2.2 m hm run (by simp)
    obtain rfl : run ++ [a] = m' := by simpa using hm'
    exact ⟨hm₀, by simp, by rwa [List.head_append_of_ne_nil hrun]⟩
