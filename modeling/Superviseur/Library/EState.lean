import Mathlib.Init

/-!
# Evaluating programs with exceptions that keep the state

`EStateM ε σ` is the monad of a language whose statements change the state in place and may raise:
an exception leaves the state as it is at that point. The lemmas below run such a program one
statement at a time on a given state; as a simp set they compute it.
-/

namespace EState

variable {ε σ α β : Type}

@[simp] theorem bind_apply (x : EStateM ε σ α) (f : α → EStateM ε σ β) (s : σ) :
    (x >>= f) s = match x s with
      | .ok a s' => f a s'
      | .error e s' => .error e s' := rfl

@[simp] theorem map_apply (f : α → β) (x : EStateM ε σ α) (s : σ) :
    (f <$> x) s = match x s with
      | .ok a s' => .ok (f a) s'
      | .error e s' => .error e s' := rfl

@[simp] theorem pure_apply (a : α) (s : σ) : (pure a : EStateM ε σ α) s = .ok a s := rfl

@[simp] theorem get_apply (s : σ) : (get : EStateM ε σ σ) s = .ok s s := rfl

@[simp] theorem modify_apply (f : σ → σ) (s : σ) :
    (modify f : EStateM ε σ PUnit) s = .ok ⟨⟩ (f s) := rfl

@[simp] theorem throw_apply (e : ε) (s : σ) : (throw e : EStateM ε σ α) s = .error e s := rfl

/-- What an exception left of the state, the handler finds. -/
@[simp] theorem tryCatch_apply (x : EStateM ε σ α) (handle : ε → EStateM ε σ α) (s : σ) :
    (tryCatch x handle : EStateM ε σ α) s = match x s with
      | .ok a s' => .ok a s'
      | .error e s' => handle e s' := by
  change EStateM.tryCatch x handle s = _
  delta EStateM.tryCatch
  cases x s <;> rfl

/-- A call that does not look at the state and may raise. -/
def call : Except ε α → EStateM ε σ α
  | .ok a => pure a
  | .error e => throw e

@[simp] theorem call_ok (a : α) (s : σ) : (call (.ok a) : EStateM ε σ α) s = .ok a s := rfl

@[simp] theorem call_error (e : ε) (s : σ) :
    (call (.error e) : EStateM ε σ α) s = .error e s := rfl

/-- What a program returns or raises, whatever the state it leaves. -/
def outcome (x : EStateM ε σ α) (s : σ) : Except ε α :=
  match x s with
  | .ok a _ => .ok a
  | .error e _ => .error e

/-- The state a program leaves, whether it returns or raises. -/
def after (x : EStateM ε σ α) (s : σ) : σ :=
  match x s with
  | .ok _ s' => s'
  | .error _ s' => s'

end EState
