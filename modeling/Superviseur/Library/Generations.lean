import Mathlib.Data.Nat.Notation
import Mathlib.Logic.Function.Basic

/-!
# Generations of an object

A component keeps an object that it now and then replaces by a new one. A task that obtained the
object before it was replaced goes on with the old one: what it changes there, nobody who obtains
the object later sees. The objects are numbered in the order in which they became the current one.
-/

structure Generations (α : Type*) where
  /-- The number of the current object. -/
  current : ℕ
  object : ℕ → α

namespace Generations

variable {α : Type*}

/-- A first object. -/
def init (a : α) : Generations α := ⟨0, fun _ ↦ a⟩

/-- The current object. -/
def get (g : Generations α) : α := g.object g.current

/-- Object `i` changes, whether it is the current one or not. -/
def modify (g : Generations α) (i : ℕ) (f : α → α) : Generations α :=
  { g with object := Function.update g.object i (f (g.object i)) }

/-- A new object becomes the current one. -/
def replace (g : Generations α) (a : α) : Generations α :=
  ⟨g.current + 1, Function.update g.object (g.current + 1) a⟩

variable (g : Generations α) (i : ℕ) (f : α → α) (a : α)

@[simp] theorem get_init : (init a).get = a := rfl

@[simp] theorem current_modify : (g.modify i f).current = g.current := rfl

@[simp] theorem object_modify_self : (g.modify i f).object i = f (g.object i) :=
  Function.update_self ..

theorem object_modify_of_ne {j : ℕ} (h : j ≠ i) : (g.modify i f).object j = g.object j :=
  Function.update_of_ne h ..

@[simp] theorem get_modify_current : (g.modify g.current f).get = f g.get :=
  Function.update_self ..

/-- A change of an object that was replaced is lost for the current one. -/
theorem get_modify_of_ne (h : i ≠ g.current) : (g.modify i f).get = g.get :=
  g.object_modify_of_ne i f (Ne.symm h)

@[simp] theorem current_replace : (g.replace a).current = g.current + 1 := rfl

@[simp] theorem get_replace : (g.replace a).get = a := Function.update_self ..

theorem object_replace_of_le {j : ℕ} (h : j ≤ g.current) :
    (g.replace a).object j = g.object j :=
  Function.update_of_ne (Nat.ne_of_lt (Nat.lt_succ_of_le h)) ..

end Generations
