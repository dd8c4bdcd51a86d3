import Superviseur.Api.Identifiers
import Mathlib.Data.Set.Finite.Basic

/-!
# Slugs derived from names

A synoptic that is given no slug gets one from its name. `slugify` cuts and strips, and what it
gives is a slug; where that one is taken, the search cuts again and adds a number, and nothing
checks the result. The cut may leave a hyphen at the end, and the number may grow too long.
-/

namespace Superviseur

open ReadCommitted

/-! ## What `slugify` gives -/

theorem isSlugChar_hyphen : isSlugChar '-' = false := rfl

theorem hyphenate_cons (within : Bool) (c : Char) (cs : List Char) :
    hyphenate within (c :: cs) =
      if isSlugChar c then c :: hyphenate false cs
      else if within then hyphenate true cs else '-' :: hyphenate true cs := rfl

theorem isRuns_eq_isSlug (cs : List Char) : Separated.isRuns '-' isSlugChar cs = isSlug cs := rfl

theorem spaced_hyphenate (within : Bool) (cs : List Char) :
    Separated.Spaced '-' isSlugChar (hyphenate within cs) ∧
      (within = true → (hyphenate within cs).head? ≠ some '-') := by
  induction cs generalizing within with
  | nil => exact ⟨.nil, fun _ ↦ (Option.some_ne_none '-').symm⟩
  | cons c cs ih =>
    by_cases hc : isSlugChar c = true
    · have hne : c ≠ '-' := by
        rintro rfl
        exact absurd hc (by decide)
      rw [hyphenate_cons, if_pos hc]
      refine ⟨Separated.Spaced.cons_iff.mpr ⟨.inl hc, fun h ↦ absurd h hne, (ih false).1⟩, ?_⟩
      exact fun _ h ↦ hne (Option.some.inj h)
    · rw [hyphenate_cons, if_neg hc]
      obtain ⟨hspaced, hhead⟩ := ih true
      cases within with
      | true => exact ⟨hspaced, hhead⟩
      | false =>
        refine ⟨Separated.Spaced.cons_iff.mpr ⟨.inr rfl, fun _ ↦ hhead rfl, hspaced⟩, ?_⟩
        exact fun h ↦ absurd h (by decide)

theorem isSlug_slugify (ascii : String → List Char) (name : String) :
    isSlug (slugify ascii name).toList = true ∧ (slugify ascii name).toList.length ≤ 64 := by
  rw [slugify]
  generalize hslug : stripHyphens ((stripHyphens (hyphenate false
    ((ascii name).map Char.toLower))).take 64) = slug
  have hspaced : Separated.Spaced '-' isSlugChar ((stripHyphens (hyphenate false
      ((ascii name).map Char.toLower))).take 64) :=
    ((spaced_hyphenate false _).1.of_part Separated.strip_within).of_part
      (List.take_prefix _ _).isInfix
  split
  · exact ⟨rfl, by decide⟩
  · rename_i hne
    rw [String.toList_ofList]
    have hne' : slug ≠ [] := fun h ↦ hne (List.isEmpty_iff.mpr h)
    subst hslug
    refine ⟨Separated.isRuns_strip isSlugChar_hyphen hspaced hne', ?_⟩
    exact (Separated.strip_within.length_le).trans (List.length_take_le _ _)

/-- A text that ends with no line break is a valid slug if it is a slug, and not too long. -/
theorem isValidSlug_iff {text : String} (hlast : text.toList.getLast? ≠ some '\n') :
    isValidSlug text = true ↔ isSlug text.toList = true ∧ text.toList.length ≤ 64 := by
  rw [isValidSlug, dropLineBreak_of_ne hlast, Bool.and_eq_true, decide_eq_true_iff]

theorem last_ne_of_isSlug {cs : List Char} (h : isSlug cs = true) : cs.getLast? ≠ some '\n' := by
  intro hlast
  rw [← List.dropLast_append_getLast? _ hlast] at h
  exact not_isSlug_append _ h

/-! ## Numbered slugs -/

/-- The cut of a slug to which a number is added. -/
def cutSlug (base : String) : List Char := base.toList.take 60

theorem toList_numberedSlug (base : String) (n : ℕ) :
    (numberedSlug base n).toList = cutSlug base ++ '-' :: n.repr.toList := by
  have htext : numberedSlug base n = String.ofList (cutSlug base) ++ "-" ++ n.repr := rfl
  rw [htext, String.toList_append, String.toList_append, String.toList_ofList]
  exact List.append_assoc _ ['-'] _

theorem isSlugChar_of_mem_repr {n : ℕ} {c : Char} (h : c ∈ n.repr.toList) :
    isSlugChar c = true := by
  rw [Nat.toList_repr] at h
  have hdigit := Nat.isDigit_of_mem_toDigits (by decide) (by decide) h
  rw [Char.isDigit, Bool.and_eq_true] at hdigit
  rw [isSlugChar, isDigit, Bool.or_eq_true, Bool.and_eq_true]
  exact .inr hdigit

theorem repr_ne_nil (n : ℕ) : n.repr.toList ≠ [] := by
  rw [Nat.toList_repr]
  exact Nat.toDigits_ne_nil

theorem getLast?_numberedSlug (base : String) (n : ℕ) :
    ∃ c, (numberedSlug base n).toList.getLast? = some c ∧ isSlugChar c = true := by
  refine ⟨n.repr.toList.getLast (repr_ne_nil n), ?_,
    isSlugChar_of_mem_repr (List.getLast_mem (repr_ne_nil n))⟩
  rw [toList_numberedSlug, List.getLast?_append, List.getLast?_cons_of_ne_nil (repr_ne_nil n),
    List.getLast?_eq_some_getLast (repr_ne_nil n), Option.some_or]

theorem numberedSlug_injective (base : String) : Function.Injective (numberedSlug base) := by
  intro n m h
  have hlist := congrArg String.toList h
  rw [toList_numberedSlug, toList_numberedSlug] at hlist
  have hdigits := List.append_cancel_left hlist
  rw [List.cons.injEq, Nat.toList_repr, Nat.toList_repr] at hdigits
  rw [← Nat.ofDigitChars_ten_toDigits (n := n), hdigits.2, Nat.ofDigitChars_ten_toDigits]

/-- A number is added to a slug in vain where the cut ends with a hyphen. -/
theorem isSlug_numberedSlug {base : String} (hbase : isSlug base.toList = true) (n : ℕ) :
    isSlug (numberedSlug base n).toList = true ↔ (cutSlug base).getLast? ≠ some '-' := by
  obtain ⟨hne, hhead, -, hspaced⟩ := (Separated.isRuns_iff isSlugChar_hyphen).mp hbase
  have hcut : Separated.Spaced '-' isSlugChar (cutSlug base) :=
    hspaced.of_part (List.take_prefix _ _).isInfix
  have hdigits : Separated.Spaced '-' isSlugChar ('-' :: n.repr.toList) := by
    refine Separated.Spaced.cons_iff.mpr ⟨.inr rfl, fun _ hfirst ↦ ?_,
      .of_forall isSlugChar_hyphen fun c hc ↦ isSlugChar_of_mem_repr hc⟩
    exact absurd (isSlugChar_of_mem_repr (List.mem_of_head? hfirst)) (by decide)
  obtain ⟨c, hlast, hc⟩ := getLast?_numberedSlug base n
  rw [← isRuns_eq_isSlug, Separated.isRuns_iff isSlugChar_hyphen, hlast, toList_numberedSlug,
    Separated.Spaced.append_iff]
  constructor
  · rintro ⟨-, -, -, -, -, hmeet⟩ hcutlast
    exact hmeet ⟨hcutlast, rfl⟩
  · intro hcutlast
    refine ⟨by simp, ?_, fun h ↦ ?_, hcut, hdigits, fun h ↦ hcutlast h.1⟩
    · -- the cut of a slug begins as the slug does
      obtain ⟨first, rest, hlist⟩ := List.exists_cons_of_ne_nil hne
      rw [hlist] at hhead
      rw [cutSlug, hlist, List.take_succ_cons]
      exact hhead
    · obtain rfl := Option.some.inj h
      exact absurd hc (by decide)

theorem isValidSlug_numberedSlug {base : String} (hbase : isSlug base.toList = true) (n : ℕ) :
    isValidSlug (numberedSlug base n) = true ↔
      (cutSlug base).getLast? ≠ some '-' ∧ (numberedSlug base n).toList.length ≤ 64 := by
  rw [isValidSlug_iff, isSlug_numberedSlug hbase]
  obtain ⟨c, hlast, hc⟩ := getLast?_numberedSlug base n
  intro hline
  obtain rfl := Option.some.inj (hlast.symm.trans hline)
  exact absurd hc (by decide)

theorem length_numberedSlug_mono (base : String) {n m : ℕ} (h : n ≤ m) :
    (numberedSlug base n).toList.length ≤ (numberedSlug base m).toList.length := by
  have hdigits : n.repr.toList.length ≤ m.repr.toList.length := by
    rw [Nat.toList_repr, Nat.toList_repr]
    refine (Nat.length_toDigits_le_iff (by decide) Nat.length_toDigits_pos).mpr ?_
    exact h.trans_lt
      ((Nat.length_toDigits_le_iff (by decide) Nat.length_toDigits_pos).mp (Nat.le_refl _))
  rw [toList_numberedSlug, toList_numberedSlug, List.length_append, List.length_append,
    List.length_cons, List.length_cons]
  omega

/-! ## The search -/

namespace SynopticStore

variable {ascii : String → List Char} {doc : SynopticDoc} {id user : Uuid} {s : SynopticStore}
  {base slug : String}

/-- The slug the search tries with a number; the first one is the slug itself. -/
def trySlug (base : String) (suffix : ℕ) : String :=
  if suffix ≤ 1 then base else numberedSlug base suffix

theorem alone_freeSlug {k : String → Program} {n m suffix : ℕ} (hsuffix : 1 ≤ suffix)
    (hle : suffix ≤ m) (hn : m < suffix + n)
    (htaken : ∀ j, suffix ≤ j → j < m → s.hasSlug (trySlug base j) = true)
    (hfree : s.hasSlug (trySlug base m) = false) :
    (freeSlug base k n (trySlug base suffix) suffix).alone schema [] s =
      (k (trySlug base m)).alone schema [] s := by
  induction n generalizing suffix with
  | zero => omega
  | succ n ih =>
    rw [freeSlug, Prog.alone, Schema.run_nil]
    rcases hle.eq_or_lt with rfl | hlt
    · rw [hfree, if_neg Bool.false_ne_true]
    · rw [if_pos (htaken suffix (Nat.le_refl _) hlt)]
      have hnext : numberedSlug base (suffix + 1) = trySlug base (suffix + 1) :=
        (if_neg (by omega)).symm
      rw [hnext]
      exact ih (by omega) hlt (by omega) fun j hj ↦ htaken j (by omega)

/-- There is a slug that no synoptic has: the numbers are all different. -/
theorem exists_hasSlug_eq_false (s : SynopticStore) (base : String) :
    ∃ n, 1 ≤ n ∧ s.hasSlug (trySlug base n) = false := by
  by_contra hall
  have htaken : ∀ n, numberedSlug base (n + 2) ∈
      {slug | slug ∈ s.db.synoptics.map SynopticRow.slug} := by
    intro n
    have hslug : s.hasSlug (numberedSlug base (n + 2)) = true := by
      by_contra hfree
      refine hall ⟨n + 2, by omega, ?_⟩
      rw [trySlug, if_neg (by omega)]
      exact Bool.not_eq_true _ ▸ hfree
    obtain ⟨row, hrow, heq⟩ := List.any_eq_true.mp hslug
    exact List.mem_map.mpr ⟨row, hrow, of_decide_eq_true heq⟩
  have hinjective : Function.Injective fun n ↦ numberedSlug base (n + 2) :=
    (numberedSlug_injective base).comp (add_left_injective 2)
  exact Set.infinite_of_injective_forall_mem hinjective htaken (List.finite_toSet _)

theorem alone_insertSynoptic {row : SynopticRow} (hid : row.id ∉ s.ids)
    (hversions : s.db.versionsOf row.id = []) (hslug : s.hasSlug row.slug = false) :
    ∃ version, ((insertSynoptic row doc user).alone schema [] s).2 = .created row version := by
  have hinsert : schema.allowed (.insertSynoptic row) s = true := by
    refine List.all_eq_true.mpr fun row' hrow' ↦ ?_
    have hid' : row'.id ≠ row.id := fun h ↦ hid (List.mem_map.mpr ⟨row', hrow', h⟩)
    have hslug' : row'.slug ≠ row.slug := by
      intro h
      rw [hasSlug, List.any_eq_false] at hslug
      exact hslug row' hrow' (decide_eq_true h)
    simp [hid', hslug']
  have hversion : ∀ version content, schema.allowed
      (.edit (.insertVersion ⟨row.id, version, content, some user⟩))
      (schema.apply (.insertSynoptic row) s) = true := by
    intro version content
    have hfound : (({ s.db with synoptics := s.db.synoptics ++ [row] } :
        SynopticDb).synoptic? row.id).isSome = true := by
      rw [SynopticDb.synoptic?, List.find?_isSome]
      exact ⟨row, List.mem_append_right _ (List.mem_singleton_self _), decide_eq_true rfl⟩
    have hnone : s.db.hasVersion row.id version = false := by
      rw [SynopticDb.hasVersion, List.any_eq_false]
      intro other hother heq
      obtain ⟨hsame, -⟩ := Bool.and_eq_true_iff.mp heq
      exact List.filter_eq_nil_iff.mp hversions other hother hsame
    exact Bool.and_eq_true_iff.mpr ⟨hfound, by rw [Bool.not_eq_true']; exact hnone⟩
  rw [insertSynoptic, Prog.alone, Schema.run_nil, if_pos hinsert, insertVersion, Prog.alone,
    Prog.alone, List.nil_append, Schema.run_cons, Schema.run_nil, if_pos (hversion _ _)]
  exact ⟨_, rfl⟩

/-! ## The creation -/

/-- A creation with no other at the same time ends with the slug, once the search is long enough. -/
def Creates (ascii : String → List Char) (doc : SynopticDoc) (id user : Uuid) (s : SynopticStore)
    (slug : String) : Prop :=
  ∃ enough, ∀ attempts ≥ enough, ∃ version,
    ((createSynoptic ascii none doc id user attempts).alone schema [] s).2 =
      .created ⟨id, doc.name, slug⟩ version

/-- The slug is free, and synoptics and links may have it. -/
structure Usable (s : SynopticStore) (slug : String) : Prop where
  free : s.hasSlug slug = false
  valid : isValidSlug slug = true
  target : isTarget ("synoptic:" ++ slug) = true

/-- The name gives a slug that is free; or its cut ends with no hyphen, and one of the numbers that
leave at most 64 characters is free. -/
def Derivable (s : SynopticStore) (base : String) : Prop :=
  s.hasSlug base = false ∨
    ((cutSlug base).getLast? ≠ some '-' ∧ ∃ n ≥ 2, (numberedSlug base n).toList.length ≤ 64 ∧
      s.hasSlug (numberedSlug base n) = false)

theorem isTarget_of_isSlug (h : isSlug slug.toList = true) :
    isTarget ("synoptic:" ++ slug) = true := by
  rw [isTarget_iff, String.toList_append, dropLineBreak_of_ne]
  · exact ⟨slug.toList, isSlug_iff.mp h, rfl⟩
  · obtain ⟨hne, -⟩ := (Separated.isRuns_iff isSlugChar_hyphen).mp h
    rw [List.getLast?_append_of_ne_nil _ hne]
    exact last_ne_of_isSlug h

theorem exists_creates (ascii : String → List Char) (doc : SynopticDoc) (user : Uuid)
    (hid : id ∉ s.ids) (hversions : s.db.versionsOf id = []) :
    ∃ n, 1 ≤ n ∧ s.hasSlug (trySlug (slugify ascii doc.name) n) = false ∧
      (∀ j, 1 ≤ j → j < n → s.hasSlug (trySlug (slugify ascii doc.name) j) = true) ∧
      Creates ascii doc id user s (trySlug (slugify ascii doc.name) n) := by
  have hexists := exists_hasSlug_eq_false s (slugify ascii doc.name)
  obtain ⟨hpos, hfree⟩ := Nat.find_spec hexists
  have htaken : ∀ j, 1 ≤ j → j < Nat.find hexists →
      s.hasSlug (trySlug (slugify ascii doc.name) j) = true := by
    intro j hj hlt
    by_contra hnot
    exact Nat.find_min hexists hlt ⟨hj, Bool.not_eq_true _ ▸ hnot⟩
  refine ⟨Nat.find hexists, hpos, hfree, htaken, Nat.find hexists, fun attempts hattempts ↦ ?_⟩
  obtain ⟨hslug, hlength⟩ := isSlug_slugify ascii doc.name
  have hvalid : isValidSlug (slugify ascii doc.name) = true :=
    (isValidSlug_iff (last_ne_of_isSlug hslug)).mpr ⟨hslug, hlength⟩
  have hsearch : (createSynoptic ascii none doc id user attempts).alone schema [] s =
      (insertSynoptic ⟨id, doc.name, trySlug (slugify ascii doc.name) (Nat.find hexists)⟩ doc
        user).alone schema [] s := by
    rw [createSynoptic, if_pos hvalid]
    exact alone_freeSlug (k := fun slug ↦ insertSynoptic ⟨id, doc.name, slug⟩ doc user)
      (Nat.le_refl 1) hpos (by omega) htaken hfree
  rw [hsearch]
  exact alone_insertSynoptic hid hversions hfree

/-- What a creation ends with does not depend on the bound of the search. -/
theorem Creates.unique {slug' : String} (h : Creates ascii doc id user s slug)
    (h' : Creates ascii doc id user s slug') : slug = slug' := by
  obtain ⟨enough, h⟩ := h
  obtain ⟨enough', h'⟩ := h'
  obtain ⟨version, h⟩ := h (max enough enough') (le_max_left _ _)
  obtain ⟨version', h'⟩ := h' (max enough enough') (le_max_right _ _)
  rw [h, Outcome.created.injEq, SynopticRow.mk.injEq] at h'
  exact h'.1.2.2

/-- The first free slug is usable where one of those that are short enough is free. -/
theorem usable_of_first {n : ℕ} (hbase : isSlug base.toList = true)
    (hlength : base.toList.length ≤ 64) (hpos : 1 ≤ n) (hfree : s.hasSlug (trySlug base n) = false)
    (htaken : ∀ j, 1 ≤ j → j < n → s.hasSlug (trySlug base j) = true) :
    Usable s (trySlug base n) ↔ Derivable s base := by
  rcases hpos.eq_or_lt with rfl | hlt
  · -- the slug of the name itself
    have hvalid : isValidSlug base = true :=
      (isValidSlug_iff (last_ne_of_isSlug hbase)).mpr ⟨hbase, hlength⟩
    exact iff_of_true ⟨hfree, hvalid, isTarget_of_isSlug hbase⟩ (.inl hfree)
  · have hbaseTaken : s.hasSlug base = true := htaken 1 (Nat.le_refl 1) hlt
    have htry : ∀ j, 2 ≤ j → trySlug base j = numberedSlug base j := fun j hj ↦ if_neg (by omega)
    rw [htry n hlt] at hfree ⊢
    constructor
    · intro h
      obtain ⟨hcut, hshort⟩ := (isValidSlug_numberedSlug hbase n).mp h.valid
      exact .inr ⟨hcut, n, hlt, hshort, hfree⟩
    · rintro (hbaseFree | ⟨hcut, m, hm, hshort, hfree'⟩)
      · rw [hbaseFree] at hbaseTaken
        exact absurd hbaseTaken Bool.false_ne_true
      · -- the search ends at the latest with this number
        have hle : n ≤ m := by
          by_contra hgt
          have hm' := htaken m (by omega) (by omega)
          rw [htry m hm, hfree'] at hm'
          exact Bool.false_ne_true hm'
        have hslug := (isSlug_numberedSlug hbase n).mpr hcut
        exact ⟨hfree, (isValidSlug_numberedSlug hbase n).mpr
          ⟨hcut, (length_numberedSlug_mono base hle).trans hshort⟩, isTarget_of_isSlug hslug⟩

theorem usable_iff_derivable (hid : id ∉ s.ids) (hversions : s.db.versionsOf id = []) :
    (∃ slug, Creates ascii doc id user s slug ∧ Usable s slug) ↔
      Derivable s (slugify ascii doc.name) := by
  obtain ⟨hslug, hlength⟩ := isSlug_slugify ascii doc.name
  obtain ⟨n, hpos, hfree, htaken, hcreates⟩ :=
    exists_creates ascii doc user hid hversions
  rw [← usable_of_first hslug hlength hpos hfree htaken]
  constructor
  · rintro ⟨slug, hslug, husable⟩
    rwa [hcreates.unique hslug]
  · exact fun h ↦ ⟨_, hcreates, h⟩

/-- **A creation without a slug ends with a free one, which is usable exactly where the name allows
it**: where its own slug is free, or else where the cut of it ends with no hyphen and a number that
leaves at most 64 characters is free. -/
theorem usable_iff (ascii : String → List Char) (doc : SynopticDoc) (id user : Uuid)
    (s : SynopticStore) (hid : id ∉ s.ids) (hversions : s.db.versionsOf id = []) :
    (∃ slug, Creates ascii doc id user s slug ∧ s.hasSlug slug = false) ∧
      ((∃ slug, Creates ascii doc id user s slug ∧ Usable s slug) ↔
        Derivable s (slugify ascii doc.name)) := by
  obtain ⟨n, -, hfree, -, hcreates⟩ :=
    exists_creates ascii doc user hid hversions
  exact ⟨⟨_, hcreates, hfree⟩, usable_iff_derivable hid hversions⟩

/-- The ASCII characters of a name. -/
def plainAscii (name : String) : List Char := name.toList.filter fun c ↦ c.toNat < 0x80

/-- A store with one synoptic. -/
def storeOf (slug : String) : SynopticStore := ⟨⟨[⟨1, slug, slug⟩], [], []⟩, [1]⟩

theorem usable_iff_cta : ∃ slug, Creates plainAscii ⟨"CTA 1", .null, 0⟩ 2 9 (storeOf "cta-1") slug ∧
    Usable (storeOf "cta-1") slug := by
  refine (usable_iff plainAscii ⟨"CTA 1", .null, 0⟩ 2 9 (storeOf "cta-1") (by decide)
    rfl).2.mpr (.inr ⟨by decide, 2, Nat.le_refl 2, by decide, by decide⟩)

/-- A name whose slug has a hyphen where the cut ends. -/
def longName : String := String.ofList (List.replicate 59 'a') ++ " b"

def longSlug : String := String.ofList (List.replicate 59 'a') ++ "-b"

theorem slugify_longName : slugify plainAscii longName = longSlug := by
  rfl

theorem not_derivable_longSlug : ¬Derivable (storeOf longSlug) longSlug := by
  rintro (hfree | ⟨hcut, -⟩)
  · exact absurd hfree (by simp [storeOf, hasSlug])
  · exact hcut rfl

/-- A second synoptic of that name gets a slug with two hyphens in a row. -/
theorem not_usable_longName : ¬∀ (ascii : String → List Char) (doc : SynopticDoc) (id user : Uuid)
    (s : SynopticStore), id ∉ s.ids → s.db.versionsOf id = [] →
      ∃ slug, Creates ascii doc id user s slug ∧ Usable s slug := by
  intro h
  have husable := h plainAscii ⟨longName, .null, 0⟩ 2 9 (storeOf longSlug) (by decide) rfl
  rw [usable_iff_derivable (by decide) rfl, slugify_longName] at husable
  exact not_derivable_longSlug husable

end SynopticStore

end Superviseur
