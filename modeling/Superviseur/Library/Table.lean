import Mathlib.Data.List.AList
import Mathlib.Data.Fintype.EquivFin

/-!
# Tables

A table is a finite map from its primary key to its rows. Beside the operations of `AList`, a
statement may look for a row by a condition, change all the rows, and insert rows under new keys.
-/

/-- A finite map from keys to rows. -/
abbrev Table (α β : Type*) := AList fun _ : α ↦ β

namespace Table

variable {α β : Type*} {t : Table α β} {a : α} {p : β → Bool} {e : Σ _ : α, β}

/-- A row that satisfies a condition, with its key. -/
def find (t : Table α β) (p : β → Bool) : Option (Σ _ : α, β) := t.entries.find? fun e ↦ p e.2

/-- All the rows change, the keys do not. -/
def mapRows (t : Table α β) (f : β → β) : Table α β where
  entries := t.entries.map fun e ↦ ⟨e.1, f e.2⟩
  nodupKeys := by
    have hkeys : (t.entries.map fun e ↦ (⟨e.1, f e.2⟩ : Σ _ : α, β)).keys = t.entries.keys := by
      rw [List.keys, List.map_map]
      rfl
    rw [List.NodupKeys, hkeys]
    exact t.nodupKeys

theorem of_find (h : t.find p = some e) : p e.2 = true :=
  List.find?_some (p := fun e : Σ _ : α, β ↦ p e.2) h

variable [DecidableEq α]

@[simp] theorem lookup_mapRows (f : β → β) : (t.mapRows f).lookup a = (t.lookup a).map f :=
  List.dlookup_map₂ (f := fun _ ↦ f) a

theorem mem_of_lookup {b : β} (h : t.lookup a = some b) : a ∈ t :=
  AList.lookup_isSome.mp (Option.isSome_iff_exists.mpr ⟨b, h⟩)

theorem lookup_of_find (h : t.find p = some e) : t.lookup e.1 = some e.2 :=
  AList.mem_lookup_iff.mpr (List.mem_of_find?_eq_some h)

theorem exists_fresh [Infinite α] (t : Table α β) (n : ℕ) :
    ∃ ids : List α, ids.length = n ∧ ids.Nodup ∧ ∀ id ∈ ids, id ∉ t := by
  induction n with
  | zero => exact ⟨[], rfl, .nil, nofun⟩
  | succ n ih =>
    obtain ⟨ids, hlength, hnodup, hnew⟩ := ih
    obtain ⟨id, hid⟩ := Infinite.exists_notMem_finset (t.keys ++ ids).toFinset
    rw [List.mem_toFinset, List.mem_append, not_or] at hid
    refine ⟨id :: ids, by rw [List.length_cons, hlength], List.nodup_cons.mpr ⟨hid.2, hnodup⟩, ?_⟩
    intro id' hmem
    rcases List.mem_cons.mp hmem with rfl | hmem
    · exact fun h ↦ hid.1 (AList.mem_keys.mp h)
    · exact hnew id' hmem

end Table
