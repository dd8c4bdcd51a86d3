import Mathlib.Computability.Language

/-!
# Grammars with repetitions

A grammar gives each of its symbols a rule: terminals and symbols one after the other, one of
several, or repeated any number of times. `Derives` says which lists derive from a rule.

A meaning of the symbols, as languages, makes a language of every rule. If the language of each
symbol's rule is within the meaning of the symbol, then what derives from a rule is in its language
(`Derives.mem_lang`): this is the induction on derivations.
-/

namespace Ebnf

open Computability

/-- The right side of a rule, for symbols in `σ` and terminals in `τ`. -/
inductive Rule (σ τ : Type) where
  | terminal (t : τ)
  | symbol (s : σ)
  | seq (first second : Rule σ τ)
  | alt (first second : Rule σ τ)
  | star (repeated : Rule σ τ)

variable {σ τ : Type}

/-- `first | next | …`. -/
def Rule.oneOf (first : Rule σ τ) : List (Rule σ τ) → Rule σ τ
  | [] => first
  | next :: others => .alt first (oneOf next others)

/-- The list derives from the rule, each symbol being read as its own rule. -/
inductive Derives (rule : σ → Rule σ τ) : Rule σ τ → List τ → Prop
  | terminal {t} : Derives rule (.terminal t) [t]
  | symbol {s ts} : Derives rule (rule s) ts → Derives rule (.symbol s) ts
  | seq {first second ts ts'} : Derives rule first ts → Derives rule second ts' →
      Derives rule (.seq first second) (ts ++ ts')
  | left {first second ts} : Derives rule first ts → Derives rule (.alt first second) ts
  | right {first second ts} : Derives rule second ts → Derives rule (.alt first second) ts
  | nil {repeated} : Derives rule (.star repeated) []
  | more {repeated ts ts'} : Derives rule (.star repeated) ts → Derives rule repeated ts' →
      Derives rule (.star repeated) (ts ++ ts')

variable {rule : σ → Rule σ τ} {first e : Rule σ τ} {others : List (Rule σ τ)} {ts : List τ}

theorem Derives.oneOf (h : Derives rule e ts) (he : e ∈ first :: others) :
    Derives rule (.oneOf first others) ts := by
  induction others generalizing first with
  | nil =>
    obtain rfl := List.mem_singleton.mp he
    exact h
  | cons next others ih =>
    rcases List.mem_cons.mp he with rfl | he
    · exact .left h
    · exact .right (ih he)

/-! ## Languages -/

/-- The language of a rule, for a meaning of the symbols. -/
def Rule.lang (meaning : σ → Language τ) : Rule σ τ → Language τ
  | terminal t => ({[t]} : Set (List τ))
  | symbol s => meaning s
  | seq first second => first.lang meaning * second.lang meaning
  | alt first second => first.lang meaning + second.lang meaning
  | star repeated => (repeated.lang meaning)∗

variable {meaning : σ → Language τ}

theorem mem_lang_oneOf (h : ts ∈ (Rule.oneOf first others).lang meaning) :
    ∃ e ∈ first :: others, ts ∈ e.lang meaning := by
  induction others generalizing first with
  | nil => exact ⟨first, List.mem_singleton_self _, h⟩
  | cons next others ih =>
    rcases h with h | h
    · exact ⟨first, List.mem_cons_self, h⟩
    · obtain ⟨e, he, hts⟩ := ih h
      exact ⟨e, List.mem_cons_of_mem _ he, hts⟩

/-- **The induction on derivations**: languages that are closed under the rules hold what derives
from them. -/
theorem Derives.mem_lang (hclosed : ∀ s, ∀ ts ∈ (rule s).lang meaning, ts ∈ meaning s)
    (h : Derives rule e ts) : ts ∈ e.lang meaning := by
  induction h with
  | terminal => exact Set.mem_singleton _
  | symbol _ ih => exact hclosed _ _ ih
  | seq _ _ ihfirst ihsecond => exact Language.append_mem_mul ihfirst ihsecond
  | left _ ih => exact Set.mem_union_left _ ih
  | right _ ih => exact Set.mem_union_right _ ih
  | nil => exact Language.nil_mem_kstar _
  | @more repeated _ _ _ _ ihstar ih =>
    have hle : (repeated.lang meaning)∗ * repeated.lang meaning ≤ (repeated.lang meaning)∗ :=
      kstar_mul_le_kstar
    exact hle (Language.append_mem_mul ihstar ih)

/-- A language that holds the first operands, and goes on with what is repeated, holds all of it. -/
theorem mem_of_mem_lang_seq_star {l : Language τ} {repeated : Rule σ τ}
    (hfirst : ∀ ts ∈ first.lang meaning, ts ∈ l) (hmore : ∀ ts ∈ l * repeated.lang meaning, ts ∈ l)
    (h : ts ∈ (Rule.seq first (.star repeated)).lang meaning) : ts ∈ l := by
  have hle : first.lang meaning * (repeated.lang meaning)∗ ≤ l :=
    calc first.lang meaning * (repeated.lang meaning)∗
        ≤ l * (repeated.lang meaning)∗ := mul_le_mul_left hfirst _
      _ ≤ l := mul_kstar_le_self hmore
  exact hle h

end Ebnf
