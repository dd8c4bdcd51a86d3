import Mathlib.Data.List.Nodup

/-!
# Groups by key, and slices

A map from keys to lists that keeps its keys in the order in which they came, as the maps of
ECMAScript do; and a list cut into slices of a fixed size, the last one being shorter.
-/

/-- The groups, by key, in the order of the keys. -/
abbrev Groups (κ α : Type) := List (κ × List α)

namespace Groups

variable {κ α : Type} [DecidableEq κ]

def keys (m : Groups κ α) : List κ := m.map Prod.fst

/-- The group of a key, empty where there is none. -/
def get (m : Groups κ α) (key : κ) : List α := ((m.find? fun e ↦ e.1 = key).map Prod.snd).getD []

/-- The group of a key changes; a new key comes last. -/
def update (m : Groups κ α) (key : κ) (f : List α → List α) : Groups κ α :=
  if key ∈ m.keys then m.map fun e ↦ if e.1 = key then (key, f e.2) else e
  else m ++ [(key, f [])]

variable {m : Groups κ α} {key other : κ} {f : List α → List α}

theorem keys_update :
    (m.update key f).keys = if key ∈ m.keys then m.keys else m.keys ++ [key] := by
  rw [update]
  split
  · rw [keys, keys, List.map_map]
    refine List.map_congr_left fun e _ ↦ ?_
    rw [Function.comp_apply]
    split
    · rename_i h
      exact h.symm
    · rfl
  · rw [keys, List.map_append]
    rfl

theorem mem_keys_update : other ∈ (m.update key f).keys ↔ other = key ∨ other ∈ m.keys := by
  rw [keys_update]
  split
  · rename_i h
    constructor
    · exact .inr
    · rintro (rfl | hother)
      · exact h
      · exact hother
  · rw [List.mem_append, List.mem_singleton, or_comm]

theorem find?_of_not_mem (h : key ∉ m.keys) : (m.find? fun e ↦ e.1 = key) = none := by
  refine List.find?_eq_none.mpr fun e he hkey ↦ h ?_
  exact List.mem_map.mpr ⟨e, he, of_decide_eq_true hkey⟩

theorem find?_of_mem (h : key ∈ m.keys) :
    ∃ group, (m.find? fun e ↦ e.1 = key) = some (key, group) := by
  obtain ⟨e, he, hkey⟩ := List.mem_map.mp h
  obtain ⟨found, hfound⟩ : ∃ found, (m.find? fun e ↦ e.1 = key) = some found :=
    Option.isSome_iff_exists.mp (List.find?_isSome.mpr ⟨e, he, decide_eq_true hkey⟩)
  obtain rfl : found.1 = key := of_decide_eq_true
    (List.find?_some (p := fun e : κ × List α ↦ decide (e.1 = key)) hfound)
  exact ⟨found.2, hfound⟩

theorem get_of_not_mem (h : key ∉ m.keys) : m.get key = [] := by
  rw [get, find?_of_not_mem h]
  rfl

theorem find?_map_group (other : κ) :
    ((m.map fun e ↦ if e.1 = key then (key, f e.2) else e).find? fun e ↦ e.1 = other) =
      (m.find? fun e ↦ e.1 = other).map fun e ↦ if e.1 = key then (key, f e.2) else e := by
  rw [List.find?_map]
  refine congrArg (Option.map _) (congrArg (List.find? · m) (funext fun e ↦ ?_))
  rw [Function.comp_apply]
  split
  · rename_i h
    rw [h]
  · rfl

theorem get_update_self : (m.update key f).get key = f (m.get key) := by
  rw [update]
  split
  · rename_i h
    obtain ⟨group, hgroup⟩ := find?_of_mem h
    rw [get, get, find?_map_group, hgroup, Option.map_some, if_pos rfl]
    rfl
  · rename_i h
    rw [get_of_not_mem h, get, List.find?_append, find?_of_not_mem h]
    simp

theorem get_update_of_ne (h : other ≠ key) : (m.update key f).get other = m.get other := by
  rw [update]
  split
  · by_cases hother : other ∈ m.keys
    · obtain ⟨group, hgroup⟩ := find?_of_mem hother
      rw [get, get, find?_map_group, hgroup, Option.map_some, if_neg h]
    · rw [get, get, find?_map_group, find?_of_not_mem hother]
      rfl
  · simp [get, List.find?_append, Ne.symm h]

theorem mem_keys_of_mem_get {x : α} (h : x ∈ m.get key) : key ∈ m.keys := by
  by_contra hkey
  rw [get_of_not_mem hkey] at h
  nomatch h

theorem nodup_keys_update (h : m.keys.Nodup) : (m.update key f).keys.Nodup := by
  rw [keys_update]
  split
  · exact h
  · rename_i hkey
    exact List.nodup_append.mpr ⟨h, List.nodup_singleton key,
      fun a ha b hb hab ↦ hkey (List.mem_singleton.mp hb ▸ hab ▸ ha)⟩

variable {points : List κ} {x : α}

theorem mem_keys_foldl_update :
    key ∈ (points.foldl (fun m p ↦ m.update p f) m).keys ↔ key ∈ points ∨ key ∈ m.keys := by
  induction points generalizing m with
  | nil => simp
  | cons p points ih =>
    rw [List.foldl_cons, ih, mem_keys_update, List.mem_cons, or_left_comm, or_assoc]

theorem nodup_keys_foldl_update (h : m.keys.Nodup) :
    (points.foldl (fun m p ↦ m.update p f) m).keys.Nodup := by
  induction points generalizing m with
  | nil => exact h
  | cons p points ih => exact ih (nodup_keys_update h)

theorem keys_foldl_update (hpoints : points.Nodup) (hnew : ∀ p ∈ points, p ∉ m.keys) :
    (points.foldl (fun m p ↦ m.update p f) m).keys = m.keys ++ points := by
  induction points generalizing m with
  | nil => exact (List.append_nil _).symm
  | cons p points ih =>
    obtain ⟨hp, hpoints⟩ := List.nodup_cons.mp hpoints
    rw [List.foldl_cons, ih hpoints, keys_update, if_neg (hnew p (List.mem_cons_self ..)),
      List.append_assoc, List.singleton_append]
    intro q hq hkeys
    rcases mem_keys_update.mp hkeys with rfl | hkeys
    · exact hp hq
    · exact hnew q (List.mem_cons_of_mem _ hq) hkeys

/-- Where one element is added to the groups of some keys, what a group has it had, or has been
added. -/
theorem mem_of_mem_get_foldl_update {x y : α} {points : List κ}
    (h : x ∈ (points.foldl (fun m p ↦ m.update p (· ++ [y])) m).get key) :
    x ∈ m.get key ∨ x = y ∧ key ∈ points := by
  induction points generalizing m with
  | nil => exact .inl h
  | cons p points ih =>
    rcases ih h with hmem | ⟨hx, hkey⟩
    · by_cases hp : key = p
      · subst hp
        rw [get_update_self] at hmem
        rcases List.mem_append.mp hmem with hmem | hmem
        · exact .inl hmem
        · exact .inr ⟨List.mem_singleton.mp hmem, List.mem_cons_self ..⟩
      · rw [get_update_of_ne hp] at hmem
        exact .inl hmem
    · exact .inr ⟨hx, List.mem_cons_of_mem _ hkey⟩

theorem mem_get_foldl_update_of_mem (hf : ∀ group, x ∈ group → x ∈ f group)
    (h : x ∈ m.get key) : x ∈ (points.foldl (fun m p ↦ m.update p f) m).get key := by
  induction points generalizing m with
  | nil => exact h
  | cons p points ih =>
    refine ih ?_
    by_cases hp : key = p
    · subst hp
      rw [get_update_self]
      exact hf _ h
    · rw [get_update_of_ne hp]
      exact h

/-- A change that adds an element to each group adds it to those of its keys. -/
theorem mem_get_foldl_update (hf : ∀ group, x ∈ f group) (h : key ∈ points) :
    x ∈ (points.foldl (fun m p ↦ m.update p f) m).get key := by
  induction points generalizing m with
  | nil => nomatch h
  | cons p points ih =>
    rw [List.foldl_cons]
    rcases List.mem_cons.mp h with rfl | h
    · refine mem_get_foldl_update_of_mem (fun group _ ↦ hf group) ?_
      rw [get_update_self]
      exact hf _
    · exact ih h

/-! ### A list by keys -/

/-- An element whose key is among the names is in the part of this name only. -/
theorem flatMap_filter_cons_perm {key : α → Option κ} {names : List κ} {k : κ} {x : α}
    {xs : List α} (hnames : names.Nodup) (hk : k ∈ names) (hx : key x = some k) :
    (names.flatMap fun k ↦ (x :: xs).filter (key · = some k)).Perm
      (x :: names.flatMap fun k ↦ xs.filter (key · = some k)) := by
  have hother : ∀ k', k' ≠ k →
      (x :: xs).filter (key · = some k') = xs.filter (key · = some k') := by
    intro k' hk'
    refine List.filter_cons_of_neg ?_
    rw [hx, decide_eq_true_eq]
    exact fun heq ↦ hk' (Option.some.inj heq).symm
  obtain ⟨before, after, rfl, hbefore⟩ := List.eq_append_cons_of_mem hk
  obtain ⟨-, hafter, -⟩ := List.nodup_append.mp hnames
  have hafter := (List.nodup_cons.mp hafter).1
  have hparts : ∀ names : List κ, k ∉ names →
      (names.flatMap fun k ↦ (x :: xs).filter (key · = some k)) =
        names.flatMap fun k ↦ xs.filter (key · = some k) := by
    intro names hk'
    exact List.flatMap_congr fun k' hmem ↦ hother k' fun heq ↦ hk' (heq ▸ hmem)
  rw [List.flatMap_append, List.flatMap_append, List.flatMap_cons, List.flatMap_cons,
    hparts before hbefore, hparts after hafter,
    List.filter_cons_of_pos (p := fun x ↦ decide (key x = some k)) (decide_eq_true hx)]
  exact List.perm_middle

/-- **A list is made of the elements without key and of those of each key.** -/
theorem filter_append_flatMap_perm {key : α → Option κ} {names : List κ} {xs : List α}
    (hnames : names.Nodup) (hkeys : ∀ x ∈ xs, ∀ k, key x = some k → k ∈ names) :
    (xs.filter (key · = none) ++ names.flatMap fun k ↦ xs.filter (key · = some k)).Perm xs := by
  induction xs with
  | nil => simp
  | cons x xs ih =>
    obtain ⟨hx, hkeys⟩ := List.forall_mem_cons.mp hkeys
    have ih := ih hkeys
    rcases hkey : key x with _ | k
    · have hparts : (names.flatMap fun k ↦ (x :: xs).filter (key · = some k)) =
          names.flatMap fun k ↦ xs.filter (key · = some k) :=
        List.flatMap_congr fun k _ ↦ List.filter_cons_of_neg (by simp [hkey])
      rw [hparts, List.filter_cons_of_pos (by simp [hkey]), List.cons_append]
      exact ih.cons x
    · rw [List.filter_cons_of_neg (by simp [hkey])]
      exact ((flatMap_filter_cons_perm hnames (hx k hkey) hkey).append_left _).trans
        (List.perm_middle.trans (ih.cons x))

end Groups

/-- The slices of a list, of `size` elements each but for the last one; `current` is the one
begun. -/
def slices {α : Type} (size : ℕ) : (current : List α) → List α → List (List α)
  | current, [] => if current.isEmpty then [] else [current]
  | current, x :: xs =>
    if current.length + 1 < size then slices size (current ++ [x]) xs
    else (current ++ [x]) :: slices size [] xs

section

variable {α β : Type} {size : ℕ} {current xs : List α}

theorem flatten_slices : (slices size current xs).flatten = current ++ xs := by
  induction xs generalizing current with
  | nil => cases current <;> simp [slices]
  | cons x xs ih =>
    rw [slices]
    split
    · rw [ih, List.append_assoc, List.singleton_append]
    · rw [List.flatten_cons, ih, List.nil_append, List.append_assoc, List.singleton_append]

theorem slices_map (f : α → β) :
    slices size (current.map f) (xs.map f) = (slices size current xs).map (List.map f) := by
  induction xs generalizing current with
  | nil => cases current <;> rfl
  | cons x xs ih =>
    have hcurrent : current.map f ++ [f x] = (current ++ [x]).map f := by
      rw [List.map_append, List.map_singleton]
    rw [List.map_cons, slices, slices, List.length_map, hcurrent, ih]
    split
    · rfl
    · rw [List.map_cons, ← ih, List.map_nil]

theorem slices_append {ys : List α} (hne : xs ≠ []) (hlength : current.length + xs.length = size) :
    slices size current (xs ++ ys) = (current ++ xs) :: slices size [] ys := by
  induction xs generalizing current with
  | nil => exact absurd rfl hne
  | cons x xs ih =>
    rw [List.length_cons] at hlength
    rw [List.cons_append, slices]
    by_cases hxs : xs = []
    · subst hxs
      rw [if_neg (by rw [← hlength]; exact Nat.lt_irrefl _), List.nil_append]
    · have hpos := List.length_pos_of_ne_nil hxs
      rw [if_pos (by omega), ih hxs, List.append_assoc, List.singleton_append]
      rw [List.length_append, List.length_singleton]
      omega

theorem slices_of_length_lt (hne : current ++ xs ≠ [])
    (hlength : current.length + xs.length < size) : slices size current xs = [current ++ xs] := by
  induction xs generalizing current with
  | nil =>
    rw [List.append_nil] at hne ⊢
    rw [slices, List.isEmpty_eq_false_iff.mpr hne]
    rfl
  | cons x xs ih =>
    rw [List.length_cons] at hlength
    rw [slices, if_pos (by omega), ih (by simp), List.append_assoc, List.singleton_append]
    rw [List.length_append, List.length_singleton]
    omega

end
