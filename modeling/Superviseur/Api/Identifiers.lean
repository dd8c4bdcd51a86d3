import Superviseur.Api.DocumentSchema
import Superviseur.Api.SynopticStore
import Superviseur.Library.Separated

/-!
# The languages of the identifiers

The identifiers of a document are checked by expressions anchored at both ends. In Python `$` also
matches before a line break that ends the text, so each check takes a text of its language followed
by one line break as well; in ECMAScript it does not, and the viewer shows no image whose text ends
with one.
-/

namespace Superviseur

/-! ## The languages -/

/-- `[a-z0-9]`. -/
def isSlugChar (c : Char) : Bool := isLower c || isDigit c

/-- One to 64 letters, digits, underscores and hyphens. -/
def IsIdText (cs : List Char) : Prop :=
  1 ≤ cs.length ∧ cs.length ≤ 64 ∧
    ∀ c ∈ cs, ('A' ≤ c ∧ c ≤ 'Z') ∨ ('a' ≤ c ∧ c ≤ 'z') ∨ ('0' ≤ c ∧ c ≤ '9') ∨ c = '_' ∨ c = '-'

/-- Non-empty runs of lowercase letters and digits, separated by single hyphens. -/
def IsHyphenated (cs : List Char) : Prop :=
  ∃ runs : List (List Char), runs ≠ [] ∧
    (∀ run ∈ runs, run ≠ [] ∧ ∀ c ∈ run, ('a' ≤ c ∧ c ≤ 'z') ∨ ('0' ≤ c ∧ c ≤ '9')) ∧
    cs = ['-'].intercalate runs

/-- `synoptic:` and a slug. -/
def IsTargetText (cs : List Char) : Prop :=
  ∃ slug, IsHyphenated slug ∧ cs = "synoptic:".toList ++ slug

/-- `DATA_IMAGE.test` of the viewer: what follows the type is in base 64, to the end. -/
def showsDataImage (text : String) : Bool :=
  ["png", "jpeg", "svg+xml", "webp"].any fun kind ↦
    match ("data:image/" ++ kind ++ ";base64,").toList.isPrefixOf? text.toList with
    | some data =>
      !data.isEmpty &&
        data.all fun c ↦ isLower c || isUpper c || isDigit c || c == '+' || c == '/' || c == '='
    | none => false

/-- The checks of a text accept what their languages have, and no image the viewer does not show. -/
structure ChecksExactly (text : String) : Prop where
  id : Schema.Widget.checkId text = .ok () ↔ IsIdText text.toList
  slug : isValidSlug text = true ↔ text.toList.length ≤ 64 ∧ IsHyphenated text.toList
  target : Schema.Link.checkTarget text = .ok () ↔ IsTargetText text.toList
  image : isDataImage text = true → showsDataImage text = true

/-- A character of base 64. -/
def isBase64 (c : Char) : Bool :=
  isLower c || isUpper c || isDigit c || c == '+' || c == '/' || c == '='

/-- A data URL whose data satisfies `size`. -/
def IsImageText (size : List Char → Bool) (cs : List Char) : Prop :=
  ∃ kind ∈ ["png", "jpeg", "svg+xml", "webp"],
    ∃ data, cs = ("data:image/" ++ kind ++ ";base64,").toList ++ data ∧
      (!data.isEmpty && data.all isBase64 && size data) = true

/-- Data within the limit. -/
def withinImageLimit (data : List Char) : Bool := data.length * 3 / 4 ≤ maxImageBytes

/-- One line break, and before it a text of one of the languages. -/
def EndsWithLineBreak (text : String) : Prop :=
  ∃ start, text.toList = start ++ ['\n'] ∧
    (IsIdText start ∨ start.length < 64 ∧ IsHyphenated start ∨ IsTargetText start ∨
      IsImageText withinImageLimit start)

variable {text : String} {cs start : List Char}

/-! ## Before a line break -/

theorem dropLineBreak_append (start : List Char) : dropLineBreak (start ++ ['\n']) = start := by
  rw [dropLineBreak, if_pos List.getLast?_concat, List.dropLast_concat]

theorem dropLineBreak_of_ne (h : cs.getLast? ≠ some '\n') : dropLineBreak cs = cs := if_neg h

theorem exists_concat_iff {P : List Char → Prop} :
    (∃ start', start ++ ['\n'] = start' ++ ['\n'] ∧ P start') ↔ P start := by
  constructor
  · rintro ⟨start', heq, h⟩
    rwa [List.append_cancel_right heq]
  · exact fun h ↦ ⟨start, rfl, h⟩

/-- A language none of whose texts ends with a line break is checked exactly, but for its texts
followed by one. -/
theorem iff_dropLineBreak {P : List Char → Prop} (hP : ∀ start, ¬P (start ++ ['\n']))
    (cs : List Char) :
    (P (dropLineBreak cs) ↔ P cs) ↔ ¬∃ start, cs = start ++ ['\n'] ∧ P start := by
  by_cases hlast : cs.getLast? = some '\n'
  · rw [← List.dropLast_append_getLast? _ hlast, dropLineBreak_append, exists_concat_iff,
      iff_false_right (hP _)]
  · rw [dropLineBreak_of_ne hlast]
    refine iff_of_true Iff.rfl ?_
    rintro ⟨start, rfl, -⟩
    exact hlast List.getLast?_concat

theorem not_isIdText_append (start : List Char) : ¬IsIdText (start ++ ['\n']) := by
  rintro ⟨-, -, hchars⟩
  exact absurd (hchars '\n' (List.mem_append_right _ (List.mem_singleton_self _))) (by decide)

theorem isId_iff : isId text = true ↔ IsIdText (dropLineBreak text.toList) := by
  rw [isId, Bool.and_eq_true, Bool.and_eq_true, decide_eq_true_iff, decide_eq_true_iff, and_assoc,
    IsIdText, List.all_eq_true]
  refine and_congr_right fun _ ↦ and_congr_right fun _ ↦ forall₂_congr fun c _ ↦ ?_
  simp [isLower, isUpper, isDigit]
  tauto

/-! ## Slugs and targets -/

theorem isSlug_iff : isSlug cs = true ↔ IsHyphenated cs := by
  refine (Separated.isRuns_iff_intercalate (p := isSlugChar) (by decide)).trans ?_
  have hchar : ∀ c : Char, isSlugChar c = true ↔ ('a' ≤ c ∧ c ≤ 'z') ∨ ('0' ≤ c ∧ c ≤ '9') := by
    intro c
    simp [isSlugChar, isLower, isDigit]
  simp only [hchar, IsHyphenated]

theorem chars_of_isSlug (h : isSlug cs = true) : ∀ c ∈ cs, isSlugChar c = true ∨ c = '-' :=
  ((Separated.isRuns_iff (by decide)).mp h).2.2.2.chars

theorem not_isSlug_append (start : List Char) : ¬isSlug (start ++ ['\n']) = true := fun h ↦
  absurd (chars_of_isSlug h '\n' (List.mem_append_right _ (List.mem_singleton_self _))) (by decide)

theorem exists_append_dropLineBreak {head : List Char} {Q : List Char → Prop}
    (hhead : head.getLast? ≠ some '\n') :
    (∃ rest, cs = head ++ rest ∧ Q (dropLineBreak rest)) ↔
      ∃ rest, dropLineBreak cs = head ++ rest ∧ Q rest := by
  constructor
  · rintro ⟨rest, rfl, hQ⟩
    refine ⟨dropLineBreak rest, ?_, hQ⟩
    rcases List.eq_nil_or_concat rest with rfl | ⟨start, c, rfl⟩
    · rw [List.append_nil, dropLineBreak_of_ne hhead]
      exact (List.append_nil head).symm
    · rw [List.concat_eq_append, ← List.append_assoc, dropLineBreak, dropLineBreak,
        List.getLast?_concat, List.getLast?_concat, List.dropLast_concat, List.dropLast_concat]
      split
      · rfl
      · rw [List.append_assoc]
  · rintro ⟨rest, hdrop, hQ⟩
    by_cases hlast : cs.getLast? = some '\n'
    · refine ⟨rest ++ ['\n'], ?_, by rwa [dropLineBreak_append]⟩
      rw [dropLineBreak, if_pos hlast] at hdrop
      rw [← List.append_assoc, ← hdrop, List.dropLast_append_getLast? _ hlast]
    · rw [dropLineBreak_of_ne hlast] at hdrop
      refine ⟨rest, hdrop, ?_⟩
      rwa [dropLineBreak_of_ne]
      intro hrest
      rw [hdrop, List.getLast?_append, hrest] at hlast
      exact hlast rfl

theorem iff_of_isPrefixOf? {head : List Char} {f : List Char → Bool} {b : Bool}
    (hnone : head.isPrefixOf? cs = none → b = false)
    (hsome : ∀ rest, head.isPrefixOf? cs = some rest → b = f rest) :
    b = true ↔ ∃ rest, cs = head ++ rest ∧ f rest = true := by
  have hrest : ∀ rest, cs = head ++ rest ↔ head.isPrefixOf? cs = some rest :=
    fun rest ↦ eq_comm.trans List.isPrefixOf?_eq_some_iff_append_eq.symm
  simp only [hrest]
  cases hcs : head.isPrefixOf? cs with
  | none => simp [hnone hcs]
  | some rest => simp [hsome rest hcs]

theorem isTarget_iff : isTarget text = true ↔ IsTargetText (dropLineBreak text.toList) := by
  have hhead : "synoptic:".toList.getLast? ≠ some '\n' := by decide
  calc isTarget text = true
      ↔ ∃ rest, text.toList = "synoptic:".toList ++ rest ∧ isSlug (dropLineBreak rest) = true :=
        iff_of_isPrefixOf? (fun h ↦ by rw [isTarget, h]) fun rest h ↦ by rw [isTarget, h]
    _ ↔ ∃ rest, dropLineBreak text.toList = "synoptic:".toList ++ rest ∧ isSlug rest = true :=
        exists_append_dropLineBreak (Q := fun rest ↦ isSlug rest = true) hhead
    _ ↔ IsTargetText (dropLineBreak text.toList) :=
        exists_congr fun rest ↦ and_comm.trans (and_congr_left fun _ ↦ isSlug_iff)

theorem not_isTargetText_append (start : List Char) : ¬IsTargetText (start ++ ['\n']) := by
  rintro ⟨slug, hslug, heq⟩
  rcases List.eq_nil_or_concat slug with rfl | ⟨rest, c, rfl⟩
  · rw [List.append_nil] at heq
    have hlast := congrArg List.getLast? heq
    rw [List.getLast?_concat] at hlast
    exact absurd hlast (by decide)
  · rw [List.concat_eq_append, ← List.append_assoc] at heq
    obtain rfl : '\n' = c := (List.append_singleton_inj.mp heq).2
    rw [← isSlug_iff, List.concat_eq_append] at hslug
    exact not_isSlug_append rest hslug

/-! ## Images -/

theorem isDataImage_iff : isDataImage text = true ↔
    IsImageText withinImageLimit (dropLineBreak text.toList) := by
  rw [isDataImage, List.any_eq_true]
  refine exists_congr fun kind ↦ and_congr_right fun _ ↦ ?_
  have hhead : ("data:image/" ++ kind ++ ";base64,").toList.getLast? ≠ some '\n' := by
    have hlast : ";base64,".toList.getLast? = some ',' := by decide
    rw [String.toList_append, List.getLast?_append, hlast, Option.some_or]
    decide
  refine Iff.trans ?_ (exists_append_dropLineBreak
    (Q := fun data ↦ (!data.isEmpty && data.all isBase64 && withinImageLimit data) = true) hhead)
  refine iff_of_isPrefixOf? (fun h ↦ by rw [h]) fun rest h ↦ ?_
  rw [h]
  rfl

theorem showsDataImage_iff : showsDataImage text = true ↔
    IsImageText (fun _ ↦ true) text.toList := by
  rw [showsDataImage, List.any_eq_true]
  refine exists_congr fun kind ↦ and_congr_right fun _ ↦ ?_
  simp only [Bool.and_true]
  refine iff_of_isPrefixOf? (fun h ↦ by rw [h]) fun rest h ↦ ?_
  rw [h]
  rfl

theorem IsImageText.weaken {size : List Char → Bool} (h : IsImageText size cs) :
    IsImageText (fun _ ↦ true) cs := by
  obtain ⟨kind, hkind, data, heq, hdata⟩ := h
  refine ⟨kind, hkind, data, heq, ?_⟩
  rw [Bool.and_true]
  exact (Bool.and_eq_true_iff.mp hdata).1

theorem not_isImageText_append {size : List Char → Bool} (start : List Char) :
    ¬IsImageText size (start ++ ['\n']) := by
  rintro ⟨kind, hkind, data, heq, hdata⟩
  obtain ⟨hdata, -⟩ := Bool.and_eq_true_iff.mp hdata
  obtain ⟨hne, hall⟩ := Bool.and_eq_true_iff.mp hdata
  rcases List.eq_nil_or_concat data with rfl | ⟨rest, c, rfl⟩
  · exact absurd hne (by decide)
  · rw [List.concat_eq_append, ← List.append_assoc] at heq
    obtain rfl : '\n' = c := (List.append_singleton_inj.mp heq).2
    have hline := List.all_eq_true.mp hall '\n' (by rw [List.concat_eq_append]; simp)
    exact absurd hline (by decide)

/-! ## The checks and the languages -/

theorem checkId_iff : Schema.Widget.checkId text = .ok () ↔
    IsIdText (dropLineBreak text.toList) := by
  rw [← isId_iff, Schema.Widget.checkId]
  split <;> simp [*]

theorem checkTarget_iff : Schema.Link.checkTarget text = .ok () ↔
    IsTargetText (dropLineBreak text.toList) := by
  rw [← isTarget_iff, Schema.Link.checkTarget]
  split <;> simp [*]

theorem isValidSlug_exact_iff :
    (isValidSlug text = true ↔ text.toList.length ≤ 64 ∧ IsHyphenated text.toList) ↔
      ¬∃ start, text.toList = start ++ ['\n'] ∧ start.length < 64 ∧ IsHyphenated start := by
  rw [isValidSlug, Bool.and_eq_true, decide_eq_true_iff, and_comm, isSlug_iff]
  by_cases hlength : text.toList.length ≤ 64
  · rw [and_iff_right hlength, and_iff_right hlength,
      iff_dropLineBreak (P := IsHyphenated) fun start ↦ isSlug_iff.not.mp (not_isSlug_append start)]
    refine not_congr (exists_congr fun start ↦ and_congr_right fun heq ↦ ?_)
    rw [heq, List.length_append, List.length_singleton] at hlength
    exact (and_iff_right hlength).symm
  · refine iff_of_true (by simp only [hlength, false_and]) ?_
    rintro ⟨start, heq, hlt, -⟩
    rw [heq, List.length_append, List.length_singleton] at hlength
    exact hlength hlt

theorem image_exact_iff : (isDataImage text = true → showsDataImage text = true) ↔
    ¬∃ start, text.toList = start ++ ['\n'] ∧ IsImageText withinImageLimit start := by
  rw [isDataImage_iff, showsDataImage_iff]
  by_cases hlast : text.toList.getLast? = some '\n'
  · rw [← List.dropLast_append_getLast? _ hlast, dropLineBreak_append, exists_concat_iff,
      imp_false.symm]
    exact imp_congr_right fun _ ↦ iff_false_intro (not_isImageText_append _)
  · rw [dropLineBreak_of_ne hlast]
    refine iff_of_true IsImageText.weaken ?_
    rintro ⟨start, heq, -⟩
    rw [heq] at hlast
    exact hlast List.getLast?_concat

/-- **The checks are those of their languages, but for a line break at the end.** -/
theorem checksExactly_iff (text : String) : ChecksExactly text ↔ ¬EndsWithLineBreak text := by
  have hid := iff_dropLineBreak not_isIdText_append text.toList
  have htarget := iff_dropLineBreak not_isTargetText_append text.toList
  rw [← checkId_iff] at hid
  rw [← checkTarget_iff] at htarget
  constructor
  · rintro ⟨h₁, h₂, h₃, h₄⟩ ⟨start, heq, h | h | h | h⟩
    · exact hid.mp h₁ ⟨start, heq, h⟩
    · exact isValidSlug_exact_iff.mp h₂ ⟨start, heq, h⟩
    · exact htarget.mp h₃ ⟨start, heq, h⟩
    · exact image_exact_iff.mp h₄ ⟨start, heq, h⟩
  · intro h
    exact ⟨hid.mpr fun ⟨start, heq, hs⟩ ↦ h ⟨start, heq, .inl hs⟩,
      isValidSlug_exact_iff.mpr fun ⟨start, heq, hs⟩ ↦ h ⟨start, heq, .inr (.inl hs)⟩,
      htarget.mpr fun ⟨start, heq, hs⟩ ↦ h ⟨start, heq, .inr (.inr (.inl hs))⟩,
      image_exact_iff.mpr fun ⟨start, heq, hs⟩ ↦ h ⟨start, heq, .inr (.inr (.inr hs))⟩⟩

/-- An identifier and a line break are taken for an identifier. -/
theorem not_checksExactly_line : ¬∀ text : String, ChecksExactly text := by
  intro h
  have haccepted : Schema.Widget.checkId "pompe-1\n" = .ok () := rfl
  exact not_isIdText_append "pompe-1".toList ((h "pompe-1\n").id.mp haccepted)

end Superviseur
