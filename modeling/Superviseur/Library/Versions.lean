import Mathlib.Data.List.Basic

/-!
# Versions and messages in flight

A log keeps the versions of several things, each under its key, the oldest first. `back` counts the
versions of one thing from the latest. Versions are also announced by messages; when those of one
thing are delivered in order, the messages in flight are its last versions, so that the message that
comes next is as many versions back as there are messages behind it.
-/

namespace Versions

variable {α κ : Type*} [DecidableEq κ] (key : α → κ)

/-- The versions of one thing. -/
def ofKey (log : List α) (k : κ) : List α := log.filter fun a ↦ key a = k

/-- Its version `n` changes before the latest. -/
def back (log : List α) (k : κ) (n : ℕ) : Option α := (ofKey key log k).reverse[n]?

/-- The messages in flight of each thing are its last versions. -/
def Announced (log inFlight : List α) : Prop := ∀ k, ofKey key inFlight k <:+ ofKey key log k

variable {key} {log inFlight before after : List α} {a : α} {k : κ} {n : ℕ}

theorem ofKey_append (log new : List α) (k : κ) :
    ofKey key (log ++ new) k = ofKey key log k ++ ofKey key new k :=
  List.filter_append ..

theorem ofKey_cons_self (a : α) (log : List α) :
    ofKey key (a :: log) (key a) = a :: ofKey key log (key a) :=
  List.filter_cons_of_pos (decide_eq_true rfl)

theorem ofKey_cons_of_ne (h : key a ≠ k) (log : List α) :
    ofKey key (a :: log) k = ofKey key log k :=
  List.filter_cons_of_neg (by simpa using h)

theorem ofKey_singleton_self (a : α) : ofKey key [a] (key a) = [a] := ofKey_cons_self a []

theorem ofKey_singleton_of_ne (h : key a ≠ k) : ofKey key [a] k = [] := ofKey_cons_of_ne h []

theorem back_append (log new : List α) (k : κ) (n : ℕ) :
    back key (log ++ new) k ((ofKey key new k).length + n) = back key log k n := by
  rw [back, ofKey_append, List.reverse_append, List.getElem?_append_right (by simp), back,
    List.length_reverse, Nat.add_sub_cancel_left]

theorem back_concat_self (log : List α) (a : α) : back key (log ++ [a]) (key a) 0 = some a := by
  rw [back, ofKey_append, ofKey_singleton_self, List.reverse_append]
  rfl

namespace Announced

theorem nil (log : List α) : Announced key log [] := fun _ ↦ List.nil_suffix

theorem concat (h : Announced key log inFlight) (a : α) :
    Announced key (log ++ [a]) (inFlight ++ [a]) := by
  intro k
  obtain ⟨older, hk⟩ := h k
  exact ⟨older, by rw [ofKey_append, ofKey_append, ← List.append_assoc, hk]⟩

/-- **The message that comes next** is the version that all the messages behind it follow. -/
theorem back_next (h : Announced key log (before ++ a :: after))
    (hfirst : ∀ b ∈ before, key b ≠ key a) :
    back key log (key a) (ofKey key (before ++ after) (key a)).length = some a := by
  have hbefore : ofKey key before (key a) = [] := by
    refine List.filter_eq_nil_iff.mpr fun b hb ↦ ?_
    simpa using hfirst b hb
  obtain ⟨older, hk⟩ := h (key a)
  rw [ofKey_append, ofKey_cons_self, hbefore, List.nil_append] at hk
  rw [back, ← hk, ofKey_append, hbefore, List.nil_append, List.reverse_append, List.reverse_cons,
    List.append_assoc, List.getElem?_append_right (by simp)]
  simp

theorem ofKey_deliver_self (hfirst : ∀ b ∈ before, key b ≠ key a) :
    ofKey key (before ++ a :: after) (key a) = a :: ofKey key (before ++ after) (key a) := by
  have hbefore : ofKey key before (key a) = [] := by
    refine List.filter_eq_nil_iff.mpr fun b hb ↦ ?_
    simpa using hfirst b hb
  rw [ofKey_append, ofKey_append, hbefore, List.nil_append, List.nil_append, ofKey_cons_self]

theorem ofKey_deliver_of_ne (h : key a ≠ k) :
    ofKey key (before ++ a :: after) k = ofKey key (before ++ after) k := by
  rw [ofKey_append, ofKey_append, ofKey_cons_of_ne h]

theorem deliver (h : Announced key log (before ++ a :: after))
    (hfirst : ∀ b ∈ before, key b ≠ key a) : Announced key log (before ++ after) := by
  intro k
  by_cases hk : key a = k
  · subst hk
    have hsuffix := h (key a)
    rw [ofKey_deliver_self hfirst] at hsuffix
    exact (List.suffix_cons _ _).trans hsuffix
  · have hsuffix := h k
    rwa [ofKey_deliver_of_ne hk] at hsuffix

end Announced

end Versions
