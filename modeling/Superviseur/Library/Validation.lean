import Mathlib.Data.List.Forall2

/-!
# Validation

A validation gives a value, or all the errors found. Independent validations are put together by
the operations of an applicative functor, which collect the errors of both sides; a validation that
needs the value of another (`andThen`) is made only if that one succeeds.

The lemmas say when a combination succeeds, and with what: a proof about accepted inputs never sees
the errors.
-/

/-- A value, or the errors found. -/
inductive Validation (ε α : Type*) where
  | valid (a : α)
  | invalid (errors : List ε)

namespace Validation

universe u

variable {ε : Type*} {α β : Type u}

def map (f : α → β) : Validation ε α → Validation ε β
  | valid a => valid (f a)
  | invalid errors => invalid errors

/-- Both sides are validated, whatever comes of the first. -/
def seq : Validation ε (α → β) → Validation ε α → Validation ε β
  | valid f, valid a => valid (f a)
  | valid _, invalid errors => invalid errors
  | invalid errors, valid _ => invalid errors
  | invalid errors, invalid errors' => invalid (errors ++ errors')

instance : Applicative (Validation ε) where
  pure := valid
  map := map
  seq f x := seq f (x ())

/-- What depends on a value is validated once the value is. -/
def andThen (x : Validation ε α) (f : α → Validation ε β) : Validation ε β :=
  match x with
  | valid a => f a
  | invalid errors => invalid errors

/-- The errors are those of a part: `f` says where it stands. -/
def mapErrors (f : ε → ε) : Validation ε α → Validation ε α
  | valid a => valid a
  | invalid errors => invalid (errors.map f)

/-- The value, if `p` finds no error in it. -/
def check (p : α → Option ε) (a : α) : Validation ε α :=
  match p a with
  | none => valid a
  | some error => invalid [error]

/-- Each element of a list, with its position. -/
def allFrom (f : ℕ → α → Validation ε β) : ℕ → List α → Validation ε (List β)
  | _, [] => valid []
  | i, a :: as => List.cons <$> f i a <*> allFrom f (i + 1) as

def all (f : ℕ → α → Validation ε β) (as : List α) : Validation ε (List β) := allFrom f 0 as

/-! ## Success -/

variable {x : Validation ε α} {f : α → β} {a : α} {b : β}

theorem valid_inj {a' : α} : (valid a : Validation ε α) = valid a' ↔ a = a' :=
  ⟨fun h ↦ Validation.valid.inj h, congrArg valid⟩

@[simp] theorem map_eq_valid_iff : f <$> x = valid b ↔ ∃ a, x = valid a ∧ f a = b := by
  cases x with
  | valid a => exact ⟨fun h ↦ ⟨a, rfl, valid_inj.mp h⟩, fun ⟨_, h, hb⟩ ↦ valid_inj.mp h ▸ hb ▸ rfl⟩
  | invalid errors => exact ⟨nofun, fun ⟨_, h, _⟩ ↦ nomatch h⟩

@[simp] theorem seq_eq_valid_iff {g : Validation ε (α → β)} :
    g <*> x = valid b ↔ ∃ f a, g = valid f ∧ x = valid a ∧ f a = b := by
  cases g with
  | valid f =>
    cases x with
    | valid a =>
      constructor
      · exact fun h ↦ ⟨f, a, rfl, rfl, valid_inj.mp h⟩
      · rintro ⟨f', a', hf, ha, rfl⟩
        rw [← valid_inj.mp hf, ← valid_inj.mp ha]
        rfl
    | invalid errors => exact ⟨nofun, fun ⟨_, _, _, h, _⟩ ↦ nomatch h⟩
  | invalid errors =>
    cases x with
    | valid a => exact ⟨nofun, fun ⟨_, _, h, _⟩ ↦ nomatch h⟩
    | invalid errors' => exact ⟨nofun, fun ⟨_, _, h, _⟩ ↦ nomatch h⟩

@[simp] theorem seqLeft_eq_valid_iff {y : Validation ε β} :
    x <* y = valid a ↔ x = valid a ∧ ∃ b, y = valid b := by
  have hseq : x <* y = Function.const β <$> x <*> y := rfl
  rw [hseq, seq_eq_valid_iff]
  constructor
  · rintro ⟨f, b, hf, hy, rfl⟩
    obtain ⟨a, hx, rfl⟩ := map_eq_valid_iff.mp hf
    exact ⟨hx, b, hy⟩
  · rintro ⟨hx, b, hy⟩
    exact ⟨_, b, map_eq_valid_iff.mpr ⟨a, hx, rfl⟩, hy, rfl⟩

@[simp] theorem andThen_eq_valid_iff {g : α → Validation ε β} :
    x.andThen g = valid b ↔ ∃ a, x = valid a ∧ g a = valid b := by
  cases x with
  | valid a => exact ⟨fun h ↦ ⟨a, rfl, h⟩, fun ⟨_, h, hg⟩ ↦ valid_inj.mp h ▸ hg⟩
  | invalid errors => exact ⟨nofun, fun ⟨_, h, _⟩ ↦ nomatch h⟩

@[simp] theorem mapErrors_eq_valid_iff {g : ε → ε} : x.mapErrors g = valid a ↔ x = valid a := by
  cases x with
  | valid a => rfl
  | invalid errors => exact ⟨nofun, nofun⟩

@[simp] theorem check_eq_valid_iff {p : α → Option ε} {a' : α} :
    check p a = valid a' ↔ p a = none ∧ a = a' := by
  rw [check]
  cases p a with
  | none => simp
  | some error => simp

theorem allFrom_eq_valid_iff {g : ℕ → α → Validation ε β} {i : ℕ} {as : List α} {bs : List β} :
    allFrom g i as = valid bs ↔
      as.length = bs.length ∧ ∀ j (ha : j < as.length) (hb : j < bs.length),
        g (i + j) (as.get ⟨j, ha⟩) = valid (bs.get ⟨j, hb⟩) := by
  induction as generalizing i bs with
  | nil =>
    rw [allFrom, valid_inj]
    constructor
    · rintro rfl
      exact ⟨rfl, fun j hj ↦ absurd hj (Nat.not_lt_zero j)⟩
    · exact fun h ↦ (List.eq_nil_of_length_eq_zero h.1.symm).symm
  | cons a as ih =>
    rw [allFrom]
    simp only [seq_eq_valid_iff, map_eq_valid_iff, ih]
    constructor
    · rintro ⟨_, bs', ⟨b, hb, rfl⟩, ⟨hlength, hrest⟩, rfl⟩
      refine ⟨congrArg (· + 1) hlength, fun j hja hjb ↦ ?_⟩
      cases j with
      | zero => exact hb
      | succ j =>
        have hnext := hrest j (Nat.lt_of_succ_lt_succ hja) (Nat.lt_of_succ_lt_succ hjb)
        rwa [Nat.add_right_comm] at hnext
    · rintro ⟨hlength, hall⟩
      cases bs with
      | nil => cases hlength
      | cons b bs =>
        refine ⟨_, bs, ⟨b, hall 0 (Nat.succ_pos _) (Nat.succ_pos _), rfl⟩,
          ⟨Nat.succ.inj hlength, fun j hja hjb ↦ ?_⟩, rfl⟩
        have hnext := hall (j + 1) (Nat.succ_lt_succ hja) (Nat.succ_lt_succ hjb)
        rwa [Nat.add_right_comm i 1 j]

theorem mem_of_all {g : ℕ → α → Validation ε β} {as : List α} {bs : List β}
    (h : all g as = valid bs) (hb : b ∈ bs) : ∃ i, ∃ a ∈ as, g i a = valid b := by
  obtain ⟨hlength, hall⟩ := allFrom_eq_valid_iff.mp h
  obtain ⟨⟨j, hj⟩, rfl⟩ := List.mem_iff_get.mp hb
  exact ⟨_, _, List.get_mem _ ⟨j, hlength ▸ hj⟩, hall j (hlength ▸ hj) hj⟩

/-- A list whose elements are all accepted, each as the value it was written from. -/
theorem all_map {g : ℕ → α → Validation ε β} {write : β → α} {bs : List β}
    (h : ∀ i, ∀ b ∈ bs, g i (write b) = valid b) : all g (bs.map write) = valid bs := by
  refine allFrom_eq_valid_iff.mpr ⟨List.length_map .., fun j ha hb ↦ ?_⟩
  simpa using h _ _ (List.getElem_mem hb)

end Validation
