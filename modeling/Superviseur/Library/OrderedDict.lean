import Mathlib.Data.List.Nodup

/-!
# Dictionaries in insertion order

A dictionary keeps its entries in the order in which their keys came; a key that is there already
keeps its place when its value changes.
-/

/-- A dictionary: its entries, in order, one for each key. -/
structure OrderedDict (κ α : Type*) where
  entries : List (κ × α)
  nodup : (entries.map Prod.fst).Nodup

namespace OrderedDict

variable {κ α : Type*}

def empty : OrderedDict κ α := ⟨[], List.nodup_nil⟩

/-- The entries that satisfy `p`. -/
def filter (p : κ × α → Bool) (d : OrderedDict κ α) : OrderedDict κ α :=
  ⟨d.entries.filter p, d.nodup.sublist (List.filter_sublist.map _)⟩

variable [DecidableEq κ]

def get? (d : OrderedDict κ α) (key : κ) : Option α :=
  (d.entries.find? fun e ↦ e.1 = key).map Prod.snd

/-- `d[key] = value`. -/
def insert (d : OrderedDict κ α) (key : κ) (value : α) : OrderedDict κ α :=
  if h : key ∈ d.entries.map Prod.fst then
    { entries := d.entries.map fun e ↦ if e.1 = key then (key, value) else e
      nodup := by
        have hkeys : (d.entries.map fun e ↦ if e.1 = key then (key, value) else e).map Prod.fst
            = d.entries.map Prod.fst := by
          rw [List.map_map]
          refine List.map_congr_left fun e _ ↦ ?_
          rw [Function.comp_apply]
          split
          · rename_i he
            exact he.symm
          · rfl
        rw [hkeys]
        exact d.nodup }
  else
    { entries := d.entries ++ [(key, value)]
      nodup := by
        rw [List.map_append, List.nodup_append]
        refine ⟨d.nodup, List.nodup_singleton _, ?_⟩
        intro k hk k' hk' heq
        rw [List.map_singleton, List.mem_singleton] at hk'
        subst hk'
        exact h (heq ▸ hk) }

/-- `del d[key]`, where there is such a key. -/
def erase (d : OrderedDict κ α) (key : κ) : OrderedDict κ α := d.filter fun e ↦ e.1 ≠ key

variable {d : OrderedDict κ α} {key other : κ} {value : α} {p : κ × α → Bool}

@[simp] theorem get?_empty (key : κ) : (empty : OrderedDict κ α).get? key = none := rfl

theorem mem_entries_iff : (key, value) ∈ d.entries ↔ d.get? key = some value := by
  rw [get?, Option.map_eq_some_iff]
  constructor
  · intro h
    cases hfind : d.entries.find? fun e ↦ e.1 = key with
    | none => exact absurd (decide_eq_true rfl) (List.find?_eq_none.mp hfind _ h)
    | some e =>
      have hkey : e.1 = key := by simpa using List.find?_some hfind
      have heq := List.inj_on_of_nodup_map d.nodup (List.mem_of_find?_eq_some hfind) h hkey
      exact ⟨e, rfl, by rw [heq]⟩
  · rintro ⟨e, hfind, rfl⟩
    have hkey : e.1 = key := by simpa using List.find?_some hfind
    rw [← hkey]
    exact List.mem_of_find?_eq_some hfind

theorem get?_eq_none_iff : d.get? key = none ↔ key ∉ d.entries.map Prod.fst := by
  rw [get?, Option.map_eq_none_iff, List.find?_eq_none, List.mem_map]
  constructor
  · rintro h ⟨e, he, rfl⟩
    exact h e he (decide_eq_true rfl)
  · exact fun h e he hkey ↦ h ⟨e, he, of_decide_eq_true hkey⟩

theorem mem_entries_insert {e : κ × α} : e ∈ (d.insert key value).entries ↔
    e = (key, value) ∨ e ∈ d.entries ∧ e.1 ≠ key := by
  unfold insert
  split
  · rename_i h
    obtain ⟨e₀, he₀, hkey₀⟩ := List.mem_map.mp h
    rw [List.mem_map]
    constructor
    · rintro ⟨e', he', rfl⟩
      split
      · exact .inl rfl
      · exact .inr ⟨he', ‹_›⟩
    · rintro (rfl | ⟨he, hne⟩)
      · exact ⟨e₀, he₀, if_pos hkey₀⟩
      · exact ⟨e, he, if_neg hne⟩
  · rename_i h
    rw [List.mem_append, List.mem_singleton, or_comm]
    refine or_congr_right (iff_self_and.mpr fun he hkey ↦ h ?_)
    exact hkey ▸ List.mem_map_of_mem he

@[simp] theorem get?_insert_self : (d.insert key value).get? key = some value :=
  mem_entries_iff.mp (mem_entries_insert.mpr (.inl rfl))

theorem get?_insert_of_ne (h : other ≠ key) : (d.insert key value).get? other = d.get? other := by
  refine Option.ext fun v ↦ ?_
  rw [← mem_entries_iff, ← mem_entries_iff, mem_entries_insert]
  simp [h]

theorem get?_filter : (d.filter p).get? key = (d.get? key).filter fun value ↦ p (key, value) := by
  refine Option.ext fun v ↦ ?_
  rw [← mem_entries_iff, Option.filter_eq_some_iff, ← mem_entries_iff, filter, List.mem_filter]

@[simp] theorem get?_erase_self : (d.erase key).get? key = none := by
  rw [erase, get?_filter]
  simp

theorem get?_erase_of_ne (h : other ≠ key) : (d.erase key).get? other = d.get? other := by
  rw [erase, get?_filter]
  cases d.get? other <;> simp [h]

theorem filter_entries_eq (d : OrderedDict κ α) (key : κ) :
    d.entries.filter (fun e ↦ e.1 = key) = (d.get? key).toList.map fun value ↦ (key, value) := by
  obtain ⟨entries, hnodup⟩ := d
  rw [get?]
  dsimp only
  induction entries with
  | nil => rfl
  | cons e entries ih =>
    rw [List.map_cons, List.nodup_cons] at hnodup
    by_cases hkey : e.1 = key
    · have hrest : entries.filter (fun e ↦ e.1 = key) = [] := by
        refine List.filter_eq_nil_iff.mpr fun e' he' hkey' ↦ hnodup.1 ?_
        rw [hkey, ← of_decide_eq_true hkey']
        exact List.mem_map_of_mem he'
      rw [List.filter_cons_of_pos (by simpa using hkey), hrest,
        List.find?_cons_of_pos (by simpa using hkey), ← hkey]
      rfl
    · rw [List.filter_cons_of_neg (by simpa using hkey), ih hnodup.2,
        List.find?_cons_of_neg (by simpa using hkey)]

/-! ## Comprehensions -/

/-- `{key: value for …}`. -/
def ofList (es : List (κ × α)) : OrderedDict κ α := es.foldl (fun d e ↦ d.insert e.1 e.2) empty

theorem entries_insert_of_notMem (h : key ∉ d.entries.map Prod.fst) :
    (d.insert key value).entries = d.entries ++ [(key, value)] := by
  rw [insert, dif_neg h]

theorem entries_foldl_insert {es : List (κ × α)} (h : ((d.entries ++ es).map Prod.fst).Nodup) :
    (es.foldl (fun d e ↦ d.insert e.1 e.2) d).entries = d.entries ++ es := by
  induction es generalizing d with
  | nil => rw [List.append_nil]; rfl
  | cons e es ih =>
    have hnew : e.1 ∉ d.entries.map Prod.fst := by
      rw [List.map_append, List.nodup_append] at h
      intro hmem
      exact h.2.2 e.1 hmem e.1 (List.mem_map_of_mem List.mem_cons_self) rfl
    have hentries := (entries_insert_of_notMem hnew : (d.insert e.1 e.2).entries = _)
    rw [List.foldl_cons, ih, hentries, List.append_assoc]
    · rfl
    · rw [hentries, List.append_assoc]
      exact h

theorem entries_ofList {es : List (κ × α)} (h : (es.map Prod.fst).Nodup) :
    (ofList es).entries = es :=
  entries_foldl_insert h

/-! ## Counting -/

/-- `d[key] = d.get(key, 0) + 1`. -/
def tally (d : OrderedDict κ ℕ) (key : κ) : OrderedDict κ ℕ :=
  d.insert key ((d.get? key).getD 0 + 1)

theorem get?_foldl_tally {keys : List κ} {counts : OrderedDict κ ℕ} :
    (keys.foldl tally counts).get? key =
      if key ∈ keys then some ((counts.get? key).getD 0 + keys.count key) else counts.get? key := by
  induction keys generalizing counts with
  | nil => rfl
  | cons k keys ih =>
    rw [List.foldl_cons, ih, tally]
    by_cases hk : key = k
    · subst hk
      rw [get?_insert_self, if_pos List.mem_cons_self, List.count_cons_self, Option.getD_some]
      split
      · rw [Nat.add_right_comm, Nat.add_assoc]
      · rename_i hmem
        rw [List.count_eq_zero_of_not_mem hmem]
    · rw [get?_insert_of_ne hk, List.count_cons_of_ne (Ne.symm hk)]
      simp [hk]

theorem mem_entries_foldl_tally {keys : List κ} {n : ℕ} :
    (key, n) ∈ (keys.foldl tally empty).entries ↔ key ∈ keys ∧ n = keys.count key := by
  rw [mem_entries_iff, get?_foldl_tally, get?_empty, Option.getD_none, Nat.zero_add]
  split
  · rename_i hmem
    rw [Option.some.injEq, eq_comm, and_iff_right hmem]
  · rename_i hmem
    simp [hmem]

theorem mem_entries_foldl_tally_filterMap {β : Type*} {f : β → Option κ} {xs : List β} {n : ℕ} :
    (key, n) ∈ ((xs.filterMap f).foldl tally empty).entries ↔
      (∃ x ∈ xs, f x = some key) ∧ n = (xs.filter fun x ↦ f x = some key).length := by
  rw [mem_entries_foldl_tally, List.mem_filterMap, List.count_filterMap,
    List.countP_eq_length_filter]
  simp only [beq_eq_decide]

end OrderedDict
