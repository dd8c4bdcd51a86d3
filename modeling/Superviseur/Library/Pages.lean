import Mathlib.Data.List.Sort
import Mathlib.Order.Lattice

/-!
# Pages of a query

`ORDER BY` gives the rows of a query in an order that the keys leave open: rows of equal keys come
in any order, and in another one the next time. `LIMIT` and `OFFSET` cut a page out of it, so that
each page of a list comes from an order of its own.

The pages put together are the rows, each once, whatever these orders are, if no two rows have the
same key (`walk_eq`), and only then (`exists_walk_not_mem`).
-/

namespace Pages

variable {α κ : Type*} [LinearOrder κ] (key : α → κ)

/-- A result of `ORDER BY key`. -/
structure Ordered (rows result : List α) : Prop where
  perm : result.Perm rows
  sorted : result.Pairwise fun a b ↦ key a ≤ key b

/-- `LIMIT limit OFFSET offset`. -/
def page (limit offset : ℕ) (result : List α) : List α := (result.drop offset).take limit

/-- The first pages, each cut out of the result of its own query. -/
def walk (limit : ℕ) (results : ℕ → List α) (count : ℕ) : List α :=
  (List.range count).flatMap fun k ↦ page limit (k * limit) (results k)

/-- The rows by their keys, those of equal keys as they stand. -/
def sort (rows : List α) : List α := rows.mergeSort fun a b ↦ decide (key a ≤ key b)

variable {key} {rows result other : List α} {limit : ℕ}

theorem ordered_sort : Ordered key rows (sort key rows) := by
  refine ⟨List.mergeSort_perm _ _, ?_⟩
  refine (List.pairwise_mergeSort ?_ ?_ rows).imp fun h ↦ of_decide_eq_true h
  · intro a b c hab hbc
    exact decide_eq_true ((of_decide_eq_true hab).trans (of_decide_eq_true hbc))
  · intro a b
    rw [Bool.or_eq_true, decide_eq_true_iff, decide_eq_true_iff]
    exact le_total _ _

/-- What is left of an order by a condition is an order of what the condition leaves. -/
theorem Ordered.filter (h : Ordered key rows result) (p : α → Bool) :
    Ordered key (rows.filter p) (result.filter p) :=
  ⟨h.perm.filter p, h.sorted.filter p⟩

theorem flatMap_page (result : List α) (count : ℕ) :
    ((List.range count).flatMap fun k ↦ page limit (k * limit) result) =
      result.take (count * limit) := by
  induction count with
  | zero => rw [Nat.zero_mul, List.take_zero]; rfl
  | succ count ih =>
    rw [List.range_succ, List.flatMap_append, ih, List.flatMap_singleton, page, Nat.succ_mul,
      List.take_add]

theorem Ordered.unique (hkey : ∀ a ∈ rows, ∀ b ∈ rows, key a = key b → a = b)
    (h : Ordered key rows result) (h' : Ordered key rows other) : result = other := by
  refine (h.perm.trans h'.perm.symm).eq_of_pairwise ?_ h.sorted h'.sorted
  intro a b ha hb hab hba
  exact hkey a (h.perm.mem_iff.mp ha) b (h'.perm.mem_iff.mp hb) (le_antisymm hab hba)

/-- Where no two rows have the same key, the pages put together are the rows in their order. -/
theorem walk_eq (hkey : ∀ a ∈ rows, ∀ b ∈ rows, key a = key b → a = b) {results : ℕ → List α}
    (h : ∀ k, Ordered key rows (results k)) {count : ℕ} (hcount : rows.length ≤ count * limit)
    (hresult : Ordered key rows result) : walk limit results count = result := by
  have hresults : ∀ k, results k = result := fun k ↦ (h k).unique hkey hresult
  have hlength : result.length ≤ count * limit := hresult.perm.length_eq ▸ hcount
  rw [walk]
  simp only [hresults]
  rw [flatMap_page, List.take_of_length_le hlength]

theorem mem_walk_one {results : ℕ → List α} {count : ℕ} {a : α} :
    a ∈ walk 1 results count ↔ ∃ k < count, (results k)[k]? = some a := by
  rw [walk, List.mem_flatMap]
  refine exists_congr fun k ↦ ?_
  rw [List.mem_range, page, Nat.mul_one, List.take_one, List.head?_drop, Option.mem_toList]

theorem exists_ordered {a b : α} (hb : b ∈ rows) (ha : a ∈ rows) (hab : a ≠ b)
    (hkey : key a = key b) : ∃ low high, Ordered key rows (low ++ a :: b :: high) ∧
      Ordered key rows (low ++ b :: a :: high) := by
  obtain ⟨before, after, rfl⟩ := List.append_of_mem ha
  have hb' : b ∈ before ++ after := by
    rcases List.mem_append.mp hb with h | h
    · exact List.mem_append_left _ h
    · exact List.mem_append_right _ ((List.mem_cons.mp h).resolve_left hab.symm)
  obtain ⟨left, right, hrest⟩ := List.append_of_mem hb'
  have hrows : (a :: b :: (left ++ right)).Perm (before ++ a :: after) := by
    refine (List.Perm.cons a ?_).trans List.perm_middle.symm
    rw [hrest]
    exact List.perm_middle.symm
  generalize left ++ right = rest at hrows
  let low := sort key (rest.filter fun x ↦ decide (key x < key a))
  let high := sort key (rest.filter fun x ↦ !decide (key x < key a))
  have hlow : ∀ x ∈ low, key x < key a := fun x hx ↦
    of_decide_eq_true (List.mem_filter.mp (ordered_sort.perm.mem_iff.mp hx)).2
  have hhigh : ∀ x ∈ high, key a ≤ key x := by
    intro x hx
    have h := (List.mem_filter.mp (ordered_sort.perm.mem_iff.mp hx)).2
    rw [Bool.not_eq_true', decide_eq_false_iff_not, not_lt] at h
    exact h
  have hperm : (low ++ high).Perm rest :=
    (ordered_sort.perm.append ordered_sort.perm).trans (List.filter_append_perm _ _)
  -- Both are of the key of `a`: either of them may come first.
  have hordered : ∀ c d, key c = key a → key d = key a → (c :: d :: rest).Perm (a :: b :: rest) →
      Ordered key (before ++ a :: after) (low ++ c :: d :: high) := by
    intro c d hc hd hcd
    refine ⟨?_, List.pairwise_append.mpr ⟨ordered_sort.sorted, ?_, ?_⟩⟩
    · refine List.Perm.trans ?_ (hcd.trans hrows)
      refine List.perm_middle.trans (List.Perm.cons c ?_)
      exact List.perm_middle.trans (List.Perm.cons d hperm)
    · refine List.pairwise_cons.mpr ⟨?_, List.pairwise_cons.mpr ⟨?_, ordered_sort.sorted⟩⟩
      · intro x hx
        rcases List.mem_cons.mp hx with rfl | hx
        · exact (hc.trans hd.symm).le
        · exact hc.le.trans (hhigh x hx)
      · exact fun x hx ↦ hd.le.trans (hhigh x hx)
    · intro x hx y hy
      refine (hlow x hx).le.trans ?_
      rcases List.mem_cons.mp hy with rfl | hy
      · exact hc.ge
      rcases List.mem_cons.mp hy with rfl | hy
      · exact hd.ge
      · exact hhigh y hy
  exact ⟨low, high, hordered a b rfl hkey.symm (List.Perm.refl _),
    hordered b a hkey.symm rfl (List.Perm.swap _ _ _)⟩

/-- Two rows of the same key: one of them may be on none of the pages. -/
theorem exists_walk_not_mem {a b : α} (hb : b ∈ rows) (ha : a ∈ rows) (hab : a ≠ b)
    (hkey : key a = key b) (hrows : rows.Nodup) : ∃ results : ℕ → List α,
      (∀ k, Ordered key rows (results k)) ∧ ∀ count, b ∉ walk 1 results count := by
  obtain ⟨low, high, hfirst, hsecond⟩ := exists_ordered hb ha hab hkey
  refine ⟨fun k ↦ if k = low.length + 1 then low ++ b :: a :: high else low ++ a :: b :: high,
    fun k ↦ ?_, fun count hmem ↦ ?_⟩
  · dsimp only
    split
    · exact hsecond
    · exact hfirst
  obtain ⟨k, -, hk⟩ := mem_walk_one.mp hmem
  split at hk
  · rename_i heq
    rw [heq, List.getElem?_append_right (Nat.le_add_right _ _),
      Nat.add_sub_cancel_left] at hk
    exact hab (Option.some.inj hk)
  · rename_i hne
    have hat : (low ++ a :: b :: high)[low.length + 1]? = some b := by
      rw [List.getElem?_append_right (Nat.le_add_right _ _),
      Nat.add_sub_cancel_left]
      rfl
    have hnodup : (low ++ a :: b :: high).Nodup := hfirst.perm.nodup_iff.mpr hrows
    have hlt := (List.getElem?_eq_some_iff.mp hk).1
    exact hne ((List.getElem?_inj hlt hnodup).mp (hk.trans hat.symm))

end Pages
