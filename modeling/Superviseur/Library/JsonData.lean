import Mathlib.Algebra.Order.Field.Rat
import Mathlib.Data.List.Basic

/-!
# JSON data of ECMAScript

The values `JSON.parse` returns, whose numbers are all of one kind, and the properties of objects
and arrays by their names. An object has its properties in the order in which they came; an item of
an array that is missing is `null`, as `JSON.stringify` writes it, and what an array has beside its
items is not written at all.

A length that an array is given as anything but a number is refused here.
-/

/-- A decoded JSON value. -/
inductive JsonData where
  | null
  | bool (b : Bool)
  | number (x : ℚ)
  | str (s : String)
  | arr (items : List JsonData)
  | obj (fields : List (String × JsonData))

namespace JsonData

/-! ## Equality -/

mutual

def decEq : (x y : JsonData) → Decidable (x = y)
  | null, null => .isTrue rfl
  | bool b, bool c => decidable_of_iff (b = c) (by simp)
  | number p, number q => decidable_of_iff (p = q) (by simp)
  | str s, str t => decidable_of_iff (s = t) (by simp)
  | arr xs, arr ys =>
    have := decEqItems xs ys
    decidable_of_iff (xs = ys) (by simp)
  | obj xs, obj ys =>
    have := decEqFields xs ys
    decidable_of_iff (xs = ys) (by simp)
  | null, bool _ | null, number _ | null, str _ | null, arr _ | null, obj _
  | bool _, null | bool _, number _ | bool _, str _ | bool _, arr _ | bool _, obj _
  | number _, null | number _, bool _ | number _, str _ | number _, arr _ | number _, obj _
  | str _, null | str _, bool _ | str _, number _ | str _, arr _ | str _, obj _
  | arr _, null | arr _, bool _ | arr _, number _ | arr _, str _ | arr _, obj _
  | obj _, null | obj _, bool _ | obj _, number _ | obj _, str _ | obj _, arr _ =>
    .isFalse (by simp)

def decEqItems : (xs ys : List JsonData) → Decidable (xs = ys)
  | [], [] => .isTrue rfl
  | x :: xs, y :: ys =>
    have := decEq x y
    have := decEqItems xs ys
    decidable_of_iff (x = y ∧ xs = ys) (by simp)
  | [], _ :: _ | _ :: _, [] => .isFalse (by simp)

def decEqFields : (xs ys : List (String × JsonData)) → Decidable (xs = ys)
  | [], [] => .isTrue rfl
  | (key, x) :: xs, (key', y) :: ys =>
    have := decEq x y
    have := decEqFields xs ys
    decidable_of_iff (key = key' ∧ x = y ∧ xs = ys) (by simp [and_assoc])
  | [], _ :: _ | _ :: _, [] => .isFalse (by simp)

end

instance : DecidableEq JsonData := decEq

/-! ## Properties -/

/-- `fields[key] = value`, on an object: a property that is there keeps its place. -/
def setField (fields : List (String × JsonData)) (key : String) (value : JsonData) :
    List (String × JsonData) :=
  if (fields.lookup key).isSome then
    fields.map fun field ↦ if field.1 = key then (key, value) else field
  else fields ++ [(key, value)]

/-- `delete fields[key]`, on an object. -/
def eraseField (fields : List (String × JsonData)) (key : String) : List (String × JsonData) :=
  fields.filter fun field ↦ field.1 ≠ key

/-- The index that a property of an array is the text of. -/
def indexOf (key : String) : Option ℕ := key.toNat?.filter fun n ↦ toString n = key

/-- Whether a value has properties of its own: `typeof x === 'object' && x !== null`. -/
def isObject : JsonData → Bool
  | arr _ | obj _ => true
  | null | bool _ | number _ | str _ => false

/-- `x[key]`, where `x` has that property. -/
def member (x : JsonData) (key : String) : Option JsonData :=
  match x with
  | obj fields => fields.lookup key
  | arr items => (indexOf key).bind (items[·]?)
  | null | bool _ | number _ | str _ => none

/-- The items of an array that is given a length. -/
def resize (items : List JsonData) (n : ℕ) : List JsonData :=
  items.take n ++ List.replicate (n - items.length) null

/-- `x[key] = value`; `none` where it raises. -/
def assign (x : JsonData) (key : String) (value : JsonData) : Option JsonData :=
  match x with
  | obj fields => some (obj (setField fields key value))
  | arr items =>
    match indexOf key with
    | some n => some (arr ((resize items (max items.length (n + 1))).set n value))
    | none =>
      if key ≠ "length" then some x
      else
        match value with
        | number q =>
          if q.den = 1 ∧ 0 ≤ q ∧ q < 2 ^ 32 then some (arr (resize items q.num.toNat)) else none
        | _ => none
  | null | bool _ | number _ | str _ => some x

/-- `delete x[key]`; `none` where it raises. -/
def delete (x : JsonData) (key : String) : Option JsonData :=
  match x with
  | obj fields => some (obj (eraseField fields key))
  | arr items =>
    match indexOf key with
    | some n => some (arr (items.set n null))
    | none => if key ≠ "length" then some x else none
  | null | bool _ | number _ | str _ => some x

/-! ## What an assignment leaves -/

theorem lookup_map_ne {fields : List (String × JsonData)} {key key' : String} {value : JsonData}
    (hne : key' ≠ key) :
    (fields.map fun field ↦ if field.1 = key then (key, value) else field).lookup key'
      = fields.lookup key' := by
  induction fields with
  | nil => rfl
  | cons field fields ih =>
    obtain ⟨k, x⟩ := field
    rw [List.map_cons]
    by_cases hk : k = key
    · rw [if_pos hk, List.lookup_cons, List.lookup_cons, ih, hk, beq_false_of_ne hne]
    · rw [if_neg hk, List.lookup_cons, List.lookup_cons, ih]

/-- The other properties are as they were. -/
@[simp] theorem lookup_setField {fields : List (String × JsonData)} {key key' : String}
    (hne : key' ≠ key) (value : JsonData) :
    (setField fields key value).lookup key' = fields.lookup key' := by
  rw [setField]
  split
  · exact lookup_map_ne hne
  · rw [List.lookup_append, List.lookup_cons, beq_false_of_ne hne, List.lookup_nil, Option.or_none]

theorem lookup_setField_self (fields : List (String × JsonData)) (key : String)
    (value : JsonData) : (setField fields key value).lookup key = some value := by
  rw [setField]
  split
  · rename_i h
    induction fields with
    | nil => simp at h
    | cons field fields ih =>
      obtain ⟨k, x⟩ := field
      by_cases hk : k = key
      · simp [hk]
      · rw [List.lookup_cons, beq_false_of_ne (Ne.symm hk)] at h
        rw [List.map_cons, if_neg hk, List.lookup_cons, beq_false_of_ne (Ne.symm hk)]
        exact ih h
  · rename_i h
    rw [List.lookup_append, Option.not_isSome_iff_eq_none.mp h]
    simp

theorem lookup_eraseField {fields : List (String × JsonData)} {key key' : String}
    (hne : key' ≠ key) : (eraseField fields key).lookup key' = fields.lookup key' := by
  induction fields with
  | nil => rfl
  | cons field fields ih =>
    obtain ⟨k, x⟩ := field
    rw [eraseField] at ih ⊢
    by_cases hk : k = key
    · rw [List.filter_cons_of_neg (by simpa using hk), ih, List.lookup_cons, hk,
        beq_false_of_ne hne]
    · rw [List.filter_cons_of_pos (by simpa using hk), List.lookup_cons, List.lookup_cons, ih]

theorem lookup_eraseField_self (fields : List (String × JsonData)) (key : String) :
    (eraseField fields key).lookup key = none := by
  rw [List.lookup_eq_none_iff]
  intro field hfield
  have hne : field.1 ≠ key := of_decide_eq_true (List.mem_filter.mp hfield).2
  exact bne_iff_ne.mpr hne.symm

end JsonData
