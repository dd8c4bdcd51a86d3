import Mathlib.Data.List.Sort
import Mathlib.Order.Defs.LinearOrder

/-!
# The first rows of a list

A list whose elements are ranked by a key is shown by its first `k` elements in the order of the
keys. When an element is replaced, the first rows of the new list are often those of the old first
rows, updated in the same way: the rows that were cut are not needed. `first_update_iff` says when.
They are needed only if an element that was shown leaves, while others were cut, and what comes
instead does not rank before the first of these.
-/

namespace Leading

variable {α κ : Type*} [LinearOrder κ] (key : α → κ)

/-- The elements in the order of their keys. -/
def sorted (l : List α) : List α := l.insertionSort fun a b ↦ key a ≤ key b

/-- The first `k` of them. -/
def first (k : ℕ) (l : List α) : List α := (sorted key l).take k

variable {key} {k : ℕ} {l l' m t rest : List α} {a x : α} {p : α → Bool}

instance total_key : Std.Total fun a b ↦ key a ≤ key b := ⟨fun a b ↦ le_total (key a) (key b)⟩

instance isTrans_key : IsTrans α fun a b ↦ key a ≤ key b := ⟨fun _ _ _ ↦ le_trans⟩

/-! ## Sorted lists -/

theorem sorted_perm (key : α → κ) (l : List α) : (sorted key l).Perm l :=
  List.perm_insertionSort _ l

theorem mem_sorted : a ∈ sorted key l ↔ a ∈ l := (sorted_perm key l).mem_iff

theorem pairwise_sorted (h : (l.map key).Nodup) :
    (sorted key l).Pairwise fun a b ↦ key a < key b := by
  have hle : (sorted key l).Pairwise fun a b ↦ key a ≤ key b := List.pairwise_insertionSort _ l
  have hne : (sorted key l).Pairwise fun a b ↦ key a ≠ key b :=
    List.pairwise_map.mp (((sorted_perm key l).map key).nodup_iff.mpr h)
  exact (hle.and hne).imp fun h ↦ lt_of_le_of_ne h.1 h.2

/-- **A strictly ordered list is the only one with its elements.** -/
theorem sorted_eq (ht : t.Pairwise fun a b ↦ key a < key b) (hperm : t.Perm l) :
    sorted key l = t := by
  have hnodup : (l.map key).Nodup := by
    rw [← (hperm.map key).nodup_iff]
    exact List.pairwise_map.mpr (ht.imp fun h ↦ h.ne)
  have hasymm : ∀ a b, a ∈ sorted key l → b ∈ t → key a < key b → key b < key a → a = b :=
    fun a b _ _ hab hba ↦ absurd hba hab.asymm
  exact List.Perm.eq_of_pairwise hasymm (pairwise_sorted hnodup) ht
    ((sorted_perm key l).trans hperm.symm)

theorem sorted_congr (h : (l.map key).Nodup) (hperm : l.Perm l') :
    sorted key l' = sorted key l :=
  sorted_eq (pairwise_sorted h) ((sorted_perm key l).trans hperm)

theorem sorted_filter (h : (l.map key).Nodup) (p : α → Bool) :
    sorted key (l.filter p) = (sorted key l).filter p :=
  sorted_eq ((pairwise_sorted h).filter p) ((sorted_perm key l).filter p)

theorem sorted_concat (h : ((l ++ [x]).map key).Nodup) :
    sorted key (l ++ [x]) = (sorted key l).orderedInsert (fun a b ↦ key a ≤ key b) x := by
  have hperm : (x :: l).Perm (l ++ [x]) := (List.perm_append_singleton x l).symm
  have hnodup : ((x :: l).map key).Nodup := ((hperm.map key).nodup_iff).mpr h
  exact sorted_congr hnodup hperm

/-! ## First rows -/

theorem first_of_length_le (h : l.length ≤ k) : first key k l = sorted key l :=
  List.take_of_length_le (by rwa [(sorted_perm key l).length_eq])

theorem length_first (key : α → κ) (k : ℕ) (l : List α) :
    (first key k l).length = min k l.length := by
  rw [first, List.length_take, (sorted_perm key l).length_eq]

theorem length_first_le (key : α → κ) (k : ℕ) (l : List α) : (first key k l).length ≤ k := by
  rw [length_first]
  exact min_le_left _ _

theorem mem_of_mem_first (h : a ∈ first key k l) : a ∈ l :=
  mem_sorted.mp (List.mem_of_mem_take h)

theorem pairwise_first (h : (l.map key).Nodup) (k : ℕ) :
    (first key k l).Pairwise fun a b ↦ key a < key b :=
  (pairwise_sorted h).sublist (List.take_sublist k _)

theorem first_congr (h : (l.map key).Nodup) (hperm : l.Perm l') :
    first key k l' = first key k l := by
  rw [first, first, sorted_congr h hperm]

theorem sorted_first (h : (l.map key).Nodup) (k : ℕ) :
    sorted key (first key k l) = first key k l :=
  sorted_eq (pairwise_first h k) (List.Perm.refl _)

/-- **The first rows are known by what they leave**: everything left ranks after them. -/
theorem first_eq (ht : t.Pairwise fun a b ↦ key a < key b) (hrest : (rest.map key).Nodup)
    (hperm : (t ++ rest).Perm l) (hbefore : ∀ a ∈ t, ∀ b ∈ rest, key a < key b)
    (hlength : t.length = k ∨ rest = [] ∧ t.length ≤ k) : first key k l = t := by
  have hsorted : sorted key l = t ++ sorted key rest := by
    refine sorted_eq ?_ (((sorted_perm key rest).append_left t).trans hperm)
    refine List.pairwise_append.mpr ⟨ht, pairwise_sorted hrest, fun a ha b hb ↦ ?_⟩
    exact hbefore a ha b (mem_sorted.mp hb)
  rw [first, hsorted]
  rcases hlength with hlength | ⟨rfl, hlength⟩
  · exact List.take_left' hlength
  · rw [show sorted key ([] : List α) = [] from rfl, List.append_nil]
    exact List.take_of_length_le hlength

theorem before_of_notMem_first (h : (l.map key).Nodup) {b : α} (ha : a ∈ first key k l)
    (hb : b ∈ l) (hcut : b ∉ first key k l) : key a < key b := by
  have hpairwise := pairwise_sorted h
  rw [← List.take_append_drop k (sorted key l)] at hpairwise
  refine (List.pairwise_append.mp hpairwise).2.2 a ha b ?_
  have hmem : b ∈ (sorted key l).take k ++ (sorted key l).drop k := by
    rw [List.take_append_drop]
    exact mem_sorted.mpr hb
  exact (List.mem_append.mp hmem).resolve_left hcut

theorem before_of_getElem? {c : α} (h : (l.map key).Nodup) (ha : a ∈ first key k l)
    (hc : (sorted key l)[k]? = some c) : key a < key c := by
  have hpairwise := pairwise_sorted h
  rw [← List.take_append_drop k (sorted key l)] at hpairwise
  refine (List.pairwise_append.mp hpairwise).2.2 a ha c ?_
  refine List.mem_of_getElem? (i := 0) ?_
  rw [List.getElem?_drop, Nat.add_zero, hc]

/-- The place of an element is the number of those that rank before it. -/
theorem countP_before {s : List α} (h : (l.map key).Nodup) (hsplit : sorted key l = s ++ a :: t) :
    l.countP (fun b ↦ key b < key a) = s.length := by
  have hpairwise := pairwise_sorted h
  rw [hsplit] at hpairwise
  obtain ⟨-, ht, hs⟩ := List.pairwise_append.mp hpairwise
  have hbefore : s.countP (fun b ↦ decide (key b < key a)) = s.length :=
    List.countP_eq_length.mpr fun b hb ↦ decide_eq_true (hs b hb a List.mem_cons_self)
  have hafter : (a :: t).countP (fun b ↦ decide (key b < key a)) = 0 := by
    refine List.countP_eq_zero.mpr fun b hb hlt ↦ ?_
    rcases List.mem_cons.mp hb with rfl | hb
    · exact lt_irrefl _ (of_decide_eq_true hlt)
    · exact lt_asymm (List.rel_of_pairwise_cons ht hb) (of_decide_eq_true hlt)
  rw [← (sorted_perm key l).countP_eq, hsplit, List.countP_append, hbefore, hafter, Nat.add_zero]

/-- **An element is among the first rows** if and only if fewer than `k` rank before it. -/
theorem mem_first_iff (h : (l.map key).Nodup) :
    a ∈ first key k l ↔ a ∈ l ∧ l.countP (fun b ↦ key b < key a) < k := by
  by_cases ha : a ∈ l
  · obtain ⟨s, t, hsplit⟩ := List.append_of_mem ((mem_sorted : a ∈ sorted key l ↔ a ∈ l).mpr ha)
    have hnodup : (s ++ a :: t).Nodup := by
      rw [← hsplit]
      exact ((sorted_perm key l).nodup_iff).mpr (List.Nodup.of_map key h)
    have hnotMem : a ∉ s := fun hmem ↦
      (List.nodup_append.mp hnodup).2.2 a hmem a List.mem_cons_self rfl
    rw [countP_before h hsplit, first, hsplit, List.take_append]
    constructor
    · intro hmem
      rcases List.mem_append.mp hmem with hmem | hmem
      · exact absurd (List.mem_of_mem_take hmem) hnotMem
      · refine ⟨ha, ?_⟩
        by_contra hk
        rw [Nat.sub_eq_zero_of_le (not_lt.mp hk), List.take_zero] at hmem
        exact List.not_mem_nil hmem
    · rintro ⟨-, hk⟩
      refine List.mem_append_right _ ?_
      obtain ⟨n, hn⟩ := Nat.exists_eq_succ_of_ne_zero (Nat.sub_pos_of_lt hk).ne'
      rw [hn, List.take_succ_cons]
      exact List.mem_cons_self
  · exact iff_of_false (fun hmem ↦ ha (mem_of_mem_first hmem)) fun h ↦ ha h.1

/-- **A selection of rows, sorted, is the first rows** if and only if it leaves none that ranks
before one it takes. -/
theorem sorted_eq_first_iff (h : (l.map key).Nodup) (hperm : (t ++ rest).Perm l)
    (hlength : t.length = min k l.length) :
    sorted key t = first key k l ↔ ∀ a ∈ t, ∀ b ∈ rest, key a < key b := by
  have hnodup : ((t ++ rest).map key).Nodup := ((hperm.map key).nodup_iff).mpr h
  rw [List.map_append, List.nodup_append] at hnodup
  constructor
  · intro heq a ha b hb
    have hmem : ∀ c, c ∈ first key k l ↔ c ∈ t := fun c ↦ by rw [← heq, mem_sorted]
    refine before_of_notMem_first h ((hmem a).mpr ha)
      (hperm.mem_iff.mp (List.mem_append_right t hb)) fun hshown ↦ ?_
    exact hnodup.2.2 _ (List.mem_map_of_mem ((hmem b).mp hshown)) _ (List.mem_map_of_mem hb) rfl
  · intro hbefore
    refine (first_eq (pairwise_sorted hnodup.1) hnodup.2.1
      (((sorted_perm key t).append_right rest).trans hperm)
      (fun a ha ↦ hbefore a (mem_sorted.mp ha)) ?_).symm
    rw [(sorted_perm key t).length_eq]
    have htotal := hperm.length_eq
    rw [List.length_append] at htotal
    rcases Nat.lt_or_ge k l.length with hk | hk
    · exact .inl (by omega)
    · exact .inr ⟨List.eq_nil_of_length_eq_zero (by omega), by omega⟩

/-! ## Updates -/

theorem take_orderedInsert (r : α → α → Prop) [DecidableRel r] (x : α) (l : List α) (k : ℕ) :
    ((l.take k).orderedInsert r x).take k = (l.orderedInsert r x).take k := by
  induction l generalizing k with
  | nil => rw [List.take_nil]
  | cons b l ih =>
    cases k with
    | zero => rw [List.take_zero, List.take_zero]
    | succ k =>
      rw [List.take_succ_cons, List.orderedInsert_cons, List.orderedInsert_cons]
      by_cases hr : r x b
      · rw [if_pos hr, if_pos hr, List.take_succ_cons, List.take_succ_cons]
        congr 1
        rw [← List.take_succ_cons, List.take_take, min_eq_left (Nat.le_succ k)]
      · rw [if_neg hr, if_neg hr, List.take_succ_cons, List.take_succ_cons, ih]

theorem orderedInsert_append_cons (r : α → α → Prop) [DecidableRel r] {x c : α} (h : r x c)
    (m l : List α) : (m ++ c :: l).orderedInsert r x = m.orderedInsert r x ++ c :: l := by
  induction m with
  | nil => rw [List.nil_append, List.orderedInsert_cons_of_le r l h]; rfl
  | cons b m ih =>
    rw [List.cons_append, List.orderedInsert_cons, List.orderedInsert_cons]
    by_cases hr : r x b
    · rw [if_pos hr, if_pos hr]; rfl
    · rw [if_neg hr, if_neg hr, ih]; rfl

theorem orderedInsert_append_of_not (r : α → α → Prop) [DecidableRel r] {x : α} (l : List α)
    (h : ∀ a ∈ m, ¬ r x a) : (m ++ l).orderedInsert r x = m ++ l.orderedInsert r x := by
  induction m with
  | nil => rfl
  | cons b m ih =>
    rw [List.cons_append, List.orderedInsert_of_not_le r _ (h b List.mem_cons_self),
      ih fun a ha ↦ h a (List.mem_cons_of_mem b ha), List.cons_append]

theorem length_filter_of_one (hl : l.Nodup) (ha : a ∈ l) (hpa : p a = false)
    (hone : ∀ b ∈ l, p b = false → a = b) : (l.filter p).length + 1 = l.length := by
  obtain ⟨s, t, rfl⟩ := List.append_of_mem ha
  have hne := (List.nodup_middle.mp hl).notMem
  have hkept : ∀ b ∈ s ++ t, p b = true := by
    intro b hb
    by_contra hpb
    have heq := hone b (by simp only [List.mem_append, List.mem_cons] at hb ⊢; tauto)
      (by simpa using hpb)
    exact hne (heq ▸ hb)
  have hfilter := List.filter_eq_self.mpr hkept
  rw [List.filter_append] at hfilter
  rw [List.filter_append, List.filter_cons_of_neg (by simp [hpa]), hfilter, List.length_append,
    List.length_append, List.length_cons]
  omega

section Update

omit [LinearOrder κ] in
theorem nodup_concat (h : (l.map key).Nodup) (hx : ∀ a ∈ l, key a ≠ key x) :
    ((l ++ [x]).map key).Nodup := by
  rw [List.map_append, List.nodup_append]
  refine ⟨h, List.nodup_singleton _, fun i hi j hj ↦ ?_⟩
  obtain ⟨a, ha, rfl⟩ := List.mem_map.mp hi
  rw [List.map_singleton, List.mem_singleton] at hj
  rw [hj]
  exact hx a ha

variable (h : (l.map key).Nodup)
include h

theorem first_first_concat (hx : ∀ a ∈ l, key a ≠ key x) (k : ℕ) :
    first key k (first key k l ++ [x]) = first key k (l ++ [x]) := by
  have hfirst : ((first key k l).map key).Nodup :=
    List.pairwise_map.mpr ((pairwise_first h k).imp fun h ↦ h.ne)
  rw [first, sorted_concat (nodup_concat hfirst fun a ha ↦ hx a (mem_of_mem_first ha)),
    sorted_first h, first, take_orderedInsert, first, sorted_concat (nodup_concat h hx)]

theorem first_filter (hp : ∀ a ∈ first key k l, p a = true) :
    first key k (l.filter p) = first key k l := by
  have hsplit : sorted key (l.filter p) = first key k l ++ ((sorted key l).drop k).filter p := by
    have hshown : ((sorted key l).take k).filter p = first key k l := List.filter_eq_self.mpr hp
    rw [sorted_filter h, ← hshown, ← List.filter_append, List.take_append_drop]
  rw [first, hsplit]
  rcases Nat.lt_or_ge k l.length with hk | hk
  · exact List.take_left' (by rw [length_first]; omega)
  · rw [List.drop_eq_nil_of_le (by rwa [(sorted_perm key l).length_eq]), List.filter_nil,
      List.append_nil]
    exact List.take_of_length_le (by rw [length_first]; omega)

omit h in
/-- Where one row is missing of the first `k`, one that comes fills the place if and only if it
ranks before the next row. -/
theorem first_concat_iff {c : α} {rows : List α} (h : (l.map key).Nodup)
    (hsorted : sorted key l = m ++ c :: rows) (hm : m.length + 1 = k) (new : Option α)
    (hx : ∀ x ∈ new, ∀ a ∈ l, key a ≠ key x) :
    first key k (m ++ new.toList) = first key k (l ++ new.toList) ↔
      ∃ x ∈ new, key x < key c := by
  have hstrict := pairwise_sorted h
  rw [hsorted] at hstrict
  obtain ⟨hrows, -, hc⟩ := List.pairwise_append.mp hstrict
  cases new with
  | none =>
    rw [Option.toList_none, List.append_nil, List.append_nil, first_of_length_le (by omega),
      sorted_eq hrows (List.Perm.refl _), first, hsorted]
    refine iff_of_false (fun heq ↦ ?_) (by simp)
    have hlength := congrArg List.length heq
    rw [List.length_take, List.length_append, List.length_cons] at hlength
    omega
  | some x =>
    have hne : ∀ a ∈ m ++ c :: rows, key a ≠ key x := fun a ha ↦
      hx x rfl a (mem_sorted.mp (hsorted ▸ ha))
    have hnodup : ((m ++ [x]).map key).Nodup :=
      nodup_concat (List.pairwise_map.mpr (hrows.imp fun h ↦ h.ne)) fun a ha ↦
        hne a (List.mem_append_left _ ha)
    have hlength : (m ++ [x]).length = k := by
      rw [List.length_append, List.length_singleton, hm]
    rw [Option.toList_some, first_of_length_le hlength.le, sorted_concat hnodup,
      sorted_eq hrows (List.Perm.refl _), first, sorted_concat (nodup_concat h (hx x rfl)), hsorted]
    rcases lt_or_gt_of_ne (hne c (by simp)) with hlt | hlt
    · -- the next row takes the place
      refine iff_of_false (fun heq ↦ ?_) (by simpa using hlt.le)
      have hbefore : ∀ a ∈ m ++ [c], ¬ key x ≤ key a := by
        intro a ha
        rcases List.mem_append.mp ha with ha | ha
        · exact ((hc a ha c List.mem_cons_self).trans hlt).not_ge
        · rw [List.mem_singleton.mp ha]
          exact hlt.not_ge
      rw [List.append_cons, orderedInsert_append_of_not _ _ hbefore,
        List.take_left' (by rw [List.length_append, List.length_singleton, hm])] at heq
      have hin : c ∈ m.orderedInsert (fun a b ↦ key a ≤ key b) x := by
        rw [heq]
        exact List.mem_append_right m (List.mem_singleton_self c)
      rcases (List.mem_orderedInsert _).mp hin with rfl | hin
      · exact lt_irrefl _ hlt
      · exact lt_irrefl _ (hc c hin c List.mem_cons_self)
    · refine iff_of_true ?_ ⟨x, rfl, hlt⟩
      rw [orderedInsert_append_cons (fun a b ↦ key a ≤ key b) hlt.le, List.take_left']
      rw [List.orderedInsert_length, hm]

/-- **Updating the first rows.** The first rows of a list where an element leaves, and perhaps
another comes, are those of the first rows so updated, unless one of them leaves, others were cut,
and nothing comes that ranks before the first of these. -/
theorem first_update_iff (hone : ∀ a ∈ l, ∀ b ∈ l, p a = false → p b = false → a = b)
    (new : Option α) (hx : ∀ x ∈ new, ∀ a ∈ l, p a = true → key a ≠ key x) (k : ℕ) :
    first key k ((first key k l).filter p ++ new.toList) = first key k (l.filter p ++ new.toList) ↔
      ∀ c, (sorted key l)[k]? = some c → (∃ a ∈ first key k l, p a = false) →
        ∃ x ∈ new, key x < key c := by
  have hfilter : ((l.filter p).map key).Nodup := h.sublist (List.filter_sublist.map key)
  have hnew : ∀ x ∈ new, ∀ a ∈ l.filter p, key a ≠ key x := fun x hmem a ha ↦
    hx x hmem a (List.mem_of_mem_filter ha) (List.of_mem_filter ha)
  by_cases hgone : ∃ a ∈ first key k l, p a = false
  swap
  · -- what is shown stays
    have hp : ∀ a ∈ first key k l, p a = true := fun a ha ↦ by
      simpa using fun hpa ↦ hgone ⟨a, ha, hpa⟩
    refine iff_of_true ?_ fun _ _ h ↦ absurd h hgone
    rw [List.filter_eq_self.mpr hp, ← first_filter h hp]
    cases new with
    | none =>
      rw [Option.toList_none, List.append_nil, List.append_nil,
        first_of_length_le (length_first_le key k _), sorted_first hfilter]
    | some x => exact first_first_concat hfilter (hnew x rfl) k
  obtain ⟨a, ha, hpa⟩ := hgone
  have hsplit : sorted key l = first key k l ++ (sorted key l).drop k :=
    (List.take_append_drop k _).symm
  cases hrows : (sorted key l).drop k with
  | nil =>
    -- everything is shown
    have hlength : (sorted key l).length ≤ k := List.drop_eq_nil_iff.mp hrows
    rw [List.getElem?_eq_none hlength]
    refine iff_of_true ?_ fun _ h ↦ absurd h (by simp)
    have hperm : ((first key k l).filter p).Perm (l.filter p) := by
      rw [first_of_length_le (by rwa [(sorted_perm key l).length_eq] at hlength)]
      exact (sorted_perm key l).filter p
    refine first_congr ?_ (hperm.append_right new.toList).symm
    cases new with
    | none => rwa [Option.toList_none, List.append_nil]
    | some x => exact nodup_concat hfilter (hnew x rfl)
  | cons c rows =>
    rw [hrows] at hsplit
    have hnodup : (first key k l ++ c :: rows).Nodup := by
      rw [← hsplit]
      exact ((sorted_perm key l).nodup_iff).mpr (List.Nodup.of_map key h)
    have hdisjoint := (List.nodup_append.mp hnodup).2.2
    have hlength : (first key k l).length = k := by
      rw [first, List.length_take]
      have hlength := congrArg List.length hrows
      rw [List.length_drop, List.length_cons] at hlength
      omega
    -- no other element leaves
    have hkept : ∀ b ∈ c :: rows, p b = true := by
      intro b hb
      by_contra hpb
      have hmem : b ∈ l := mem_sorted.mp (hsplit ▸ List.mem_append_right _ hb)
      have heq := hone a (mem_of_mem_first ha) b hmem hpa (by simpa using hpb)
      exact hdisjoint a ha b hb heq
    have hsorted : sorted key (l.filter p) = (first key k l).filter p ++ c :: rows := by
      rw [sorted_filter h, hsplit, List.filter_append, List.filter_eq_self.mpr hkept]
    have hcount : ((first key k l).filter p).length + 1 = k := by
      rw [length_filter_of_one (List.nodup_append.mp hnodup).1 ha hpa fun b hb ↦
        hone a (mem_of_mem_first ha) b (mem_of_mem_first hb) hpa, hlength]
    have hcut : (sorted key l)[k]? = some c := by
      rw [hsplit, List.getElem?_append_right (by omega), hlength]
      simp
    rw [first_concat_iff hfilter hsorted hcount new hnew, hcut]
    exact ⟨fun h c' hc' _ ↦ by rwa [← Option.some.inj hc'], fun h ↦ h c rfl ⟨a, ha, hpa⟩⟩

end Update

end Leading
