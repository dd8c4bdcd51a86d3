import Superviseur.Library.Validation

/-!
# Validations that may raise

A validation may also stop on an exception, which is none of the errors it collects. Combinations go
on after an error, to find the others, and never after an exception.

`Settles x v P` says that an attempt `x` is the validation `v` exactly under the condition `P`, and
raises otherwise. There is one rule for each combination: the condition of a validation is put
together as the validation is.
-/

/-- A validation, or the exception it stops on. -/
inductive Attempt (χ ε α : Type*) where
  | settled (v : Validation ε α)
  | raised (e : χ)

namespace Attempt

universe u

variable {χ ε : Type*} {α β : Type u}

def map (f : α → β) : Attempt χ ε α → Attempt χ ε β
  | settled v => settled (f <$> v)
  | raised e => raised e

/-- The second side is tried unless the first raises. -/
def seq : Attempt χ ε (α → β) → Attempt χ ε α → Attempt χ ε β
  | settled v, settled w => settled (v <*> w)
  | settled _, raised e => raised e
  | raised e, _ => raised e

instance : Applicative (Attempt χ ε) where
  pure a := settled (.valid a)
  map := map
  seq f x := seq f (x ())

/-- What depends on a value is tried once the value is valid. -/
def andThen (x : Attempt χ ε α) (f : α → Attempt χ ε β) : Attempt χ ε β :=
  match x with
  | settled (.valid a) => f a
  | settled (.invalid errors) => settled (.invalid errors)
  | raised e => raised e

/-- What is tried next, whatever the first one finds. -/
def before (x : Attempt χ ε α) (y : Attempt χ ε β) : Attempt χ ε β :=
  match x with
  | settled _ => y
  | raised e => raised e

def mapErrors (f : ε → ε) : Attempt χ ε α → Attempt χ ε α
  | settled v => settled (v.mapErrors f)
  | raised e => raised e

/-- The value, if `p` neither raises nor finds an error in it. -/
def check (p : α → Except χ (Option ε)) (a : α) : Attempt χ ε α :=
  match p a with
  | .ok none => settled (.valid a)
  | .ok (some error) => settled (.invalid [error])
  | .error e => raised e

/-- Each element of a list, with its position. -/
def allFrom (f : ℕ → α → Attempt χ ε β) : ℕ → List α → Attempt χ ε (List β)
  | _, [] => settled (.valid [])
  | i, a :: as => List.cons <$> f i a <*> allFrom f (i + 1) as

def all (f : ℕ → α → Attempt χ ε β) (as : List α) : Attempt χ ε (List β) := allFrom f 0 as

/-! ## What settles -/

/-- The attempt is the validation `v` under the condition `P`, and raises otherwise. -/
structure Settles (x : Attempt χ ε α) (v : Validation ε α) (P : Prop) : Prop where
  settled : P → x = .settled v
  raised : ¬ P → ∃ e, x = .raised e

namespace Settles

variable {x : Attempt χ ε α} {v : Validation ε α} {P Q : Prop}

theorem of_eq (hx : x = .settled v) (hP : P) : Settles x v P :=
  ⟨fun _ ↦ hx, fun h ↦ absurd hP h⟩

theorem congr (h : Settles x v P) (hP : P ↔ Q) : Settles x v Q :=
  ⟨fun hQ ↦ h.settled (hP.mpr hQ), fun hQ ↦ h.raised fun p ↦ hQ (hP.mp p)⟩

theorem exists_settled_iff (h : Settles x v P) : (∃ w, x = .settled w) ↔ P := by
  constructor
  · rintro ⟨w, hw⟩
    by_contra hP
    obtain ⟨e, he⟩ := h.raised hP
    nomatch hw.symm.trans he
  · exact fun hP ↦ ⟨v, h.settled hP⟩

theorem map (h : Settles x v P) (f : α → β) : Settles (f <$> x) (f <$> v) P := by
  constructor
  · intro hP
    rw [h.settled hP]
    rfl
  · intro hP
    obtain ⟨e, rfl⟩ := h.raised hP
    exact ⟨e, rfl⟩

theorem seq {g : Attempt χ ε (α → β)} {w : Validation ε (α → β)} (hg : Settles g w P)
    (hx : Settles x v Q) : Settles (g <*> x) (w <*> v) (P ∧ Q) := by
  constructor
  · rintro ⟨hP, hQ⟩
    rw [hg.settled hP, hx.settled hQ]
    rfl
  · intro h
    by_cases hP : P
    · obtain ⟨e, rfl⟩ := hx.raised fun hQ ↦ h ⟨hP, hQ⟩
      rw [hg.settled hP]
      exact ⟨e, rfl⟩
    · obtain ⟨e, rfl⟩ := hg.raised hP
      exact ⟨e, rfl⟩

theorem seqLeft {y : Attempt χ ε β} {w : Validation ε β} (hx : Settles x v P)
    (hy : Settles y w Q) : Settles (x <* y) (v <* w) (P ∧ Q) :=
  (hx.map (Function.const β)).seq hy

theorem andThen {f : α → Attempt χ ε β} {g : α → Validation ε β} {R : α → Prop}
    (hx : Settles x v P) (hf : ∀ a, Settles (f a) (g a) (R a)) :
    Settles (x.andThen f) (v.andThen g) (P ∧ ∀ a, v = .valid a → R a) := by
  constructor
  · rintro ⟨hP, hR⟩
    rw [hx.settled hP]
    match v with
    | .valid a => exact (hf a).settled (hR a rfl)
    | .invalid errors => rfl
  · intro h
    by_cases hP : P
    · obtain ⟨a, rfl, hR⟩ : ∃ a, v = .valid a ∧ ¬ R a := by
        by_contra hnone
        exact h ⟨hP, fun a ha ↦ by_contra fun hR ↦ hnone ⟨a, ha, hR⟩⟩
      rw [hx.settled hP]
      exact (hf a).raised hR
    · obtain ⟨e, rfl⟩ := hx.raised hP
      exact ⟨e, rfl⟩

theorem before {y : Attempt χ ε β} {w : Validation ε β} (hx : Settles x v P)
    (hy : Settles y w Q) : Settles (x.before y) w (P ∧ Q) := by
  constructor
  · rintro ⟨hP, hQ⟩
    rw [hx.settled hP]
    exact hy.settled hQ
  · intro h
    by_cases hP : P
    · rw [hx.settled hP]
      exact hy.raised fun hQ ↦ h ⟨hP, hQ⟩
    · obtain ⟨e, rfl⟩ := hx.raised hP
      exact ⟨e, rfl⟩

theorem mapErrors (h : Settles x v P) (f : ε → ε) : Settles (x.mapErrors f) (v.mapErrors f) P := by
  constructor
  · intro hP
    rw [h.settled hP]
    rfl
  · intro hP
    obtain ⟨e, rfl⟩ := h.raised hP
    exact ⟨e, rfl⟩

theorem check {p : α → Except χ (Option ε)} {q : α → Option ε} {a : α}
    (hp : P → p a = .ok (q a)) (hraised : ¬ P → ∃ e, p a = .error e) :
    Settles (Attempt.check p a) (Validation.check q a) P := by
  constructor
  · intro hP
    rw [Attempt.check, Validation.check, hp hP]
    cases q a with
    | none => rfl
    | some error => rfl
  · intro hP
    obtain ⟨e, he⟩ := hraised hP
    rw [Attempt.check, he]
    exact ⟨e, rfl⟩

theorem allFrom {f : ℕ → α → Attempt χ ε β} {g : ℕ → α → Validation ε β} {R : α → Prop}
    (h : ∀ i a, Settles (f i a) (g i a) (R a)) (i : ℕ) (as : List α) :
    Settles (Attempt.allFrom f i as) (Validation.allFrom g i as) (∀ a ∈ as, R a) := by
  induction as generalizing i with
  | nil => exact .of_eq rfl (by simp)
  | cons a as ih => exact (((h i a).map List.cons).seq (ih (i + 1))).congr (by simp)

theorem all {f : ℕ → α → Attempt χ ε β} {g : ℕ → α → Validation ε β} {R : α → Prop}
    (h : ∀ i a, Settles (f i a) (g i a) (R a)) (as : List α) :
    Settles (Attempt.all f as) (Validation.all g as) (∀ a ∈ as, R a) := allFrom h 0 as

end Settles

end Attempt
