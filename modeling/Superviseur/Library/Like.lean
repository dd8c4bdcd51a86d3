import Mathlib.Data.List.Infix

/-!
# `LIKE`

A pattern of SQL stands for texts: `%` for any text, `_` for any character, every other character
for itself, and so does the one that follows the escape character of the pattern.

A text whose special characters are escaped stands for itself only: followed by `%`, for the texts
that begin with it, and between two `%`, for those that contain it.
-/

namespace Like

/-- What a pattern is made of. -/
inductive Token where
  | char (c : Char)
  /-- `_`. -/
  | any
  /-- `%`. -/
  | text
  deriving DecidableEq, Repr

/-- The tokens of a pattern, the character before it being the escape character or not; `none` where
the pattern ends with that one, which raises. -/
def tokens (esc : Char) : (escaped : Bool) → List Char → Option (List Token)
  | false, [] => some []
  | true, [] => none
  | true, c :: pattern => (tokens esc false pattern).map (.char c :: ·)
  | false, c :: pattern =>
    if c = esc then tokens esc true pattern
    else (tokens esc false pattern).map
      ((if c = '%' then .text else if c = '_' then .any else .char c) :: ·)

/-- The text is one that the tokens stand for. -/
def accepts : List Token → List Char → Bool
  | [], cs => cs.isEmpty
  | .text :: ts, cs => cs.tails.any (accepts ts)
  | .char _ :: _, [] | .any :: _, [] => false
  | .char c :: ts, d :: cs => c == d && accepts ts cs
  | .any :: ts, _ :: cs => accepts ts cs

/-- `cs LIKE pattern ESCAPE esc`; `none` where it raises. -/
def like (esc : Char) (pattern cs : List Char) : Option Bool :=
  (tokens esc false pattern).map fun ts ↦ accepts ts cs

/-- A text with its special characters escaped. -/
def autoescape (esc : Char) (cs : List Char) : List Char :=
  cs.flatMap fun c ↦ if c = esc ∨ c = '%' ∨ c = '_' then [esc, c] else [c]

variable {esc : Char} {cs xs : List Char} {ts : List Token}

theorem tokens_autoescape (pattern : List Char) :
    tokens esc false (autoescape esc cs ++ pattern) =
      (tokens esc false pattern).map (cs.map .char ++ ·) := by
  induction cs with
  | nil => exact Option.map_id'.symm
  | cons c cs ih =>
    rw [autoescape, List.flatMap_cons, ← autoescape, List.append_assoc]
    by_cases hc : c = esc ∨ c = '%' ∨ c = '_'
    · rw [if_pos hc, List.cons_append, List.singleton_append, tokens, if_pos rfl, tokens, ih,
        Option.map_map]
      rfl
    · obtain ⟨hesc, htext, hany⟩ := not_or.mp hc |>.imp_right not_or.mp
      rw [if_neg hc, List.singleton_append, tokens, if_neg hesc, if_neg htext, if_neg hany, ih,
        Option.map_map]
      rfl

theorem accepts_chars : accepts (cs.map .char ++ ts) xs = true ↔
    ∃ rest, xs = cs ++ rest ∧ accepts ts rest = true := by
  induction cs generalizing xs with
  | nil => exact ⟨fun h ↦ ⟨xs, rfl, h⟩, fun ⟨_, hxs, h⟩ ↦ hxs ▸ h⟩
  | cons c cs ih =>
    cases xs with
    | nil =>
      constructor
      · exact fun h ↦ Bool.noConfusion h
      · rintro ⟨rest, hxs, -⟩
        exact absurd hxs (by simp)
    | cons x xs =>
      rw [List.map_cons, List.cons_append, accepts, Bool.and_eq_true, beq_iff_eq, ih]
      constructor
      · rintro ⟨rfl, rest, rfl, h⟩
        exact ⟨rest, rfl, h⟩
      · rintro ⟨rest, hxs, h⟩
        obtain ⟨rfl, rfl⟩ := List.cons.inj hxs
        exact ⟨rfl, rest, rfl, h⟩

theorem accepts_text : accepts (.text :: ts) xs = true ↔
    ∃ rest, rest <:+ xs ∧ accepts ts rest = true := by
  rw [accepts, List.any_eq_true]
  exact exists_congr fun rest ↦ and_congr_left' (List.mem_tails _ _)

@[simp] theorem accepts_text_nil : accepts [.text] xs = true :=
  accepts_text.mpr ⟨[], List.nil_suffix, rfl⟩

theorem tokens_percent (h : esc ≠ '%') (pattern : List Char) :
    tokens esc false ('%' :: pattern) = (tokens esc false pattern).map (.text :: ·) := by
  rw [tokens, if_neg h.symm, if_pos rfl]

/-- `LIKE` with an escaped text and `%`: the texts that begin with it. -/
theorem like_startswith (h : esc ≠ '%') :
    like esc (autoescape esc cs ++ ['%']) xs = some (cs.isPrefixOf xs) := by
  rw [like, tokens_autoescape, tokens_percent h]
  simp only [tokens, Option.map_some, Option.some.injEq]
  rw [Bool.eq_iff_iff, accepts_chars, List.isPrefixOf_iff_prefix]
  constructor
  · rintro ⟨rest, rfl, -⟩
    exact List.prefix_append _ _
  · rintro ⟨rest, rfl⟩
    exact ⟨rest, rfl, accepts_text_nil⟩

/-- `LIKE` with an escaped text between two `%`: the texts that contain it. -/
theorem like_contains (h : esc ≠ '%') :
    like esc ('%' :: (autoescape esc cs ++ ['%'])) xs = some (decide (cs <:+: xs)) := by
  rw [like, tokens_percent h, tokens_autoescape, tokens_percent h]
  simp only [tokens, Option.map_some, Option.some.injEq]
  rw [Bool.eq_iff_iff, accepts_text, decide_eq_true_iff]
  constructor
  · rintro ⟨rest, ⟨before, rfl⟩, haccepts⟩
    obtain ⟨after, rfl, -⟩ := accepts_chars.mp haccepts
    exact ⟨before, after, List.append_assoc _ _ _⟩
  · rintro ⟨before, after, rfl⟩
    refine ⟨cs ++ after, ⟨before, (List.append_assoc _ _ _).symm⟩, accepts_chars.mpr ?_⟩
    exact ⟨after, rfl, accepts_text_nil⟩

/-- Folding the characters commutes with escaping, where it neither changes a special character nor
makes one. -/
theorem map_autoescape {fold : Char → Char}
    (h : ∀ c, (c = esc ∨ c = '%' ∨ c = '_') ∨ (fold c = esc ∨ fold c = '%' ∨ fold c = '_') →
      fold c = c) : (autoescape esc cs).map fold = autoescape esc (cs.map fold) := by
  rw [autoescape, autoescape, List.map_flatMap, List.flatMap_map]
  refine List.flatMap_congr fun c _ ↦ ?_
  by_cases hc : c = esc ∨ c = '%' ∨ c = '_'
  · rw [h c (.inl hc), if_pos hc, List.map_cons, List.map_singleton, h c (.inl hc),
      h esc (.inl (.inl rfl))]
  · have hfold : ¬(fold c = esc ∨ fold c = '%' ∨ fold c = '_') := fun hfold ↦
      hc (h c (.inr hfold) ▸ hfold)
    rw [if_neg hc, if_neg hfold, List.map_singleton]

end Like
