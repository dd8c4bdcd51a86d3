import Mathlib.Data.List.Basic

/-!
# Latches

A latch reads a list of inputs. Some of them set it; once set it stays so as long as each input
keeps it. Whether it is set after a list depends on the inputs since the last one that set it
(`run_eq_true_iff`), and a latch that is set and then is not has read an input that does neither
(`exists_of_run_eq_false`).
-/

namespace Latch

variable {α : Type*} (sets keeps : α → Bool)

/-- The latch after one input. -/
def next (held : Bool) (x : α) : Bool := sets x || (held && keeps x)

/-- The latch after a list of inputs. -/
def run (held : Bool) (xs : List α) : Bool := xs.foldl (next sets keeps) held

variable {sets keeps} {held : Bool} {x : α} {xs ys : List α}

theorem run_cons : run sets keeps held (x :: xs) = run sets keeps (next sets keeps held x) xs :=
  rfl

theorem run_append :
    run sets keeps held (xs ++ ys) = run sets keeps (run sets keeps held xs) ys := by
  rw [run, List.foldl_append]
  rfl

theorem next_eq_true_iff :
    next sets keeps held x = true ↔ sets x = true ∨ held = true ∧ keeps x = true := by
  rw [next, Bool.or_eq_true, Bool.and_eq_true]

/-- **A latch is set** exactly where it was at the beginning and every input has kept it, or some
input has set it and those that follow have kept it. -/
theorem run_eq_true_iff :
    run sets keeps held xs = true ↔ (held = true ∧ ∀ x ∈ xs, keeps x = true) ∨
      ∃ before x after, xs = before ++ x :: after ∧ sets x = true ∧
        ∀ y ∈ after, keeps y = true := by
  induction xs generalizing held with
  | nil =>
    constructor
    · exact fun h ↦ .inl ⟨h, fun _ hx ↦ absurd hx List.not_mem_nil⟩
    · rintro (⟨h, -⟩ | ⟨before, x, after, hxs, -⟩)
      · exact h
      · exact absurd hxs (by simp)
  | cons x xs ih =>
    rw [run_cons, ih, next_eq_true_iff]
    constructor
    · rintro (⟨hset | ⟨hheld, hkept⟩, hall⟩ | ⟨before, y, after, rfl, hset, hall⟩)
      · exact .inr ⟨[], x, xs, rfl, hset, hall⟩
      · exact .inl ⟨hheld, List.forall_mem_cons.mpr ⟨hkept, hall⟩⟩
      · exact .inr ⟨x :: before, y, after, rfl, hset, hall⟩
    · rintro (⟨hheld, hall⟩ | ⟨before, y, after, hxs, hset, hall⟩)
      · obtain ⟨hkept, hall⟩ := List.forall_mem_cons.mp hall
        exact .inl ⟨.inr ⟨hheld, hkept⟩, hall⟩
      · -- the input that has set it is the first one, or a later one
        rcases List.cons_eq_append_iff.mp hxs with ⟨rfl, hcons⟩ | ⟨rest, rfl, rfl⟩
        · obtain ⟨rfl, rfl⟩ := List.cons.inj hcons
          exact .inl ⟨.inl hset, hall⟩
        · exact .inr ⟨rest, y, after, rfl, hset, hall⟩

/-- A latch that was set and is not any more has read an input that neither sets nor keeps it. -/
theorem exists_of_run_eq_false (h : run sets keeps true xs = false) :
    ∃ x ∈ xs, sets x = false ∧ keeps x = false := by
  induction xs with
  | nil => cases h
  | cons x xs ih =>
    rw [run_cons] at h
    by_cases hnext : next sets keeps true x = true
    · rw [hnext] at h
      obtain ⟨y, hy, hboth⟩ := ih h
      exact ⟨y, List.mem_cons_of_mem x hy, hboth⟩
    · rw [next_eq_true_iff, not_or] at hnext
      obtain ⟨hset, hkept⟩ := hnext
      exact ⟨x, List.mem_cons_self, by simpa using hset, by simpa using hkept⟩

end Latch
