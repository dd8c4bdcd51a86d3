import Superviseur.Library.Unicode
import Mathlib.Data.List.TakeWhile
import Mathlib.Tactic.IntervalCases

/-!
# UUIDs as texts

`uuid.UUID(text)` of Python reads more than the canonical form: it drops `urn:` and `uuid:`
wherever they stand, the braces at the ends and all hyphens, and gives what is left, if it has 32
characters, to `int(·, 16)`; this in turn takes blanks at the ends, a sign, a prefix `0x`, single
underscores between digits, and the decimal digits of every script. `str(u)` writes the canonical
form only: 32 hexadecimal digits, in lower case, in groups of 8, 4, 4, 4 and 12.
-/

namespace UuidText

open Unicode

/-! ## Reading -/

/-- `text.replace(pattern, "")`; `skip` characters of an occurrence are still to be dropped. -/
def removeAll (pattern : List Char) : (skip : ℕ) → List Char → List Char
  | _, [] => []
  | skip + 1, _ :: cs => removeAll pattern skip cs
  | 0, c :: cs =>
    if pattern.isPrefixOf (c :: cs) then removeAll pattern (pattern.length - 1) cs
    else c :: removeAll pattern 0 cs

/-- `text.strip(chars)`. -/
def strip (chars : List Char) (cs : List Char) : List Char :=
  ((cs.dropWhile chars.contains).reverse.dropWhile chars.contains).reverse

/-- The value of a hexadecimal digit. -/
def hexValue (c : Char) : Option ℕ :=
  if isAsciiDigit c then some (c.toNat - 0x30)
  else if 0x61 ≤ c.toNat && c.toNat ≤ 0x66 then some (c.toNat - 0x57)
  else if 0x41 ≤ c.toNat && c.toNat ≤ 0x46 then some (c.toNat - 0x37)
  else none

/-- A character as `int` sees it: outside of ASCII, decimal digits and blanks only are kept. -/
def toAscii (c : Char) : Char :=
  if c.toNat < 127 then c
  else if isPySpace c then ' '
  else match decimal c with
    | some d => Char.ofNat (0x30 + d)
    | none => '?'

/-- Underscores stand between two digits; `previous` is the character before. -/
def separated (previous : Char) : List Char → Bool
  | [] => previous ≠ '_'
  | c :: cs => !(previous == '_' && c == '_') && separated c cs

/-- The digits of a hexadecimal number, up to the blanks that end the text. -/
def readDigits (cs : List Char) : Option ℕ :=
  let isDigit := fun c ↦ c == '_' || (hexValue c).isSome
  let digits := cs.takeWhile isDigit
  if separated '_' digits && (cs.dropWhile isDigit).all isAsciiSpace then
    some ((digits.filterMap hexValue).foldl (fun n d ↦ 16 * n + d) 0)
  else none

/-- Without the sign of a number. -/
def dropSign : List Char → List Char
  | '+' :: cs => cs
  | cs => cs

/-- Without the prefix of a hexadecimal number, which an underscore may follow. -/
def dropPrefix : List Char → List Char
  | '0' :: 'x' :: '_' :: cs | '0' :: 'X' :: '_' :: cs => cs
  | '0' :: 'x' :: cs | '0' :: 'X' :: cs => cs
  | cs => cs

/-- `int(text, 16)`, for a text without a hyphen. -/
def readHex (cs : List Char) : Option ℕ :=
  readDigits (dropPrefix (dropSign ((cs.map toAscii).dropWhile isAsciiSpace)))

/-- `uuid.UUID(text)`. -/
def read (text : String) : Option ℕ :=
  let hex := removeAll "uuid:".toList 0 (removeAll "urn:".toList 0 text.toList)
  let hex := (strip ['{', '}'] hex).filter (· ≠ '-')
  if hex.length = 32 then readHex hex else none

/-! ## Writing -/

/-- The digit of a value below 16. -/
def hexChar (d : ℕ) : Char := if d < 10 then Char.ofNat (0x30 + d) else Char.ofNat (0x57 + d)

/-- The last `n` hexadecimal digits of a number. -/
def hexDigits : ℕ → ℕ → List Char
  | 0, _ => []
  | n + 1, u => hexDigits n (u / 16) ++ [hexChar (u % 16)]

/-- The characters of `str(u)`. -/
def chars (u : ℕ) : List Char :=
  let hex := hexDigits 32 u
  hex.take 8 ++ '-' :: (hex.drop 8).take 4 ++ '-' :: (hex.drop 12).take 4 ++
    '-' :: (hex.drop 16).take 4 ++ '-' :: hex.drop 20

/-- `str(u)`. -/
def write (u : ℕ) : String := String.ofList (chars u)

/-! ## What is written is read -/

/-- A character of the canonical form, but for the hyphens. -/
def IsHex (c : Char) : Prop := ∃ d < 16, c = hexChar d

theorem hexValue_hexChar {d : ℕ} (h : d < 16) : hexValue (hexChar d) = some d := by
  interval_cases d <;> rfl

theorem isHex_of_mem {n u : ℕ} {c : Char} (h : c ∈ hexDigits n u) : IsHex c := by
  induction n generalizing u with
  | zero => nomatch h
  | succ n ih =>
    rcases List.mem_append.mp h with h | h
    · exact ih h
    · exact ⟨u % 16, Nat.mod_lt _ (by decide), List.mem_singleton.mp h⟩

@[simp] theorem length_hexDigits (n u : ℕ) : (hexDigits n u).length = n := by
  induction n generalizing u with
  | zero => rfl
  | succ n ih => rw [hexDigits, List.length_append, ih, List.length_singleton]

theorem foldl_hexDigits {n u : ℕ} (h : u < 16 ^ n) :
    ((hexDigits n u).filterMap hexValue).foldl (fun n d ↦ 16 * n + d) 0 = u := by
  induction n generalizing u with
  | zero =>
    rw [pow_zero, Nat.lt_one_iff] at h
    rw [h]
    rfl
  | succ n ih =>
    have hdiv : u / 16 < 16 ^ n := by
      rw [Nat.div_lt_iff_lt_mul (by decide), ← pow_succ]
      exact h
    have hlast : [hexChar (u % 16)].filterMap hexValue = [u % 16] := by
      rw [List.filterMap_cons, hexValue_hexChar (Nat.mod_lt _ (by decide))]
      rfl
    rw [hexDigits, List.filterMap_append, List.foldl_append, ih hdiv, hlast, List.foldl_cons,
      List.foldl_nil]
    exact Nat.div_add_mod u 16

theorem IsHex.isSome_hexValue {c : Char} (h : IsHex c) : (hexValue c).isSome = true := by
  obtain ⟨d, hd, rfl⟩ := h
  rw [hexValue_hexChar hd]
  rfl

theorem IsHex.toAscii {c : Char} (h : IsHex c) : toAscii c = c := by
  obtain ⟨d, hd, rfl⟩ := h
  interval_cases d <;> rfl

theorem IsHex.not_isAsciiSpace {c : Char} (h : IsHex c) : isAsciiSpace c = false := by
  obtain ⟨d, hd, rfl⟩ := h
  interval_cases d <;> rfl

/-- A hexadecimal digit is none of the other characters a text may have. -/
theorem IsHex.ne {c other : Char} (h : IsHex c) (hother : hexValue other = none) : c ≠ other := by
  rintro rfl
  have hsome := h.isSome_hexValue
  rw [hother] at hsome
  nomatch hsome

theorem removeAll_of_not_mem {p : Char} {ps cs : List Char} (h : ∀ c ∈ cs, c ≠ p) :
    removeAll (p :: ps) 0 cs = cs := by
  induction cs with
  | nil => rfl
  | cons c cs ih =>
    have hhead : (p :: ps).isPrefixOf (c :: cs) = false := by
      rw [List.isPrefixOf, beq_eq_false_iff_ne.mpr (h c (List.mem_cons_self ..)).symm,
        Bool.false_and]
    rw [removeAll, if_neg (by rw [hhead]; exact Bool.false_ne_true),
      ih fun c hc ↦ h c (List.mem_cons_of_mem _ hc)]

theorem dropWhile_of_not {p : Char → Bool} {cs : List Char} (h : ∀ c ∈ cs, p c = false) :
    cs.dropWhile p = cs := by
  cases cs with
  | nil => rfl
  | cons c cs => rw [List.dropWhile_cons_of_neg (by rw [h c (List.mem_cons_self ..)]; decide)]

theorem strip_of_not_mem {braces cs : List Char} (h : ∀ c ∈ cs, braces.contains c = false) :
    strip braces cs = cs := by
  rw [strip, dropWhile_of_not h, dropWhile_of_not fun c hc ↦ h c (List.mem_reverse.mp hc),
    List.reverse_reverse]

theorem separated_of_not_mem {previous : Char} {cs : List Char} (hcs : previous ≠ '_' ∨ cs ≠ [])
    (h : ∀ c ∈ cs, c ≠ '_') : separated previous cs = true := by
  induction cs generalizing previous with
  | nil => simpa [separated] using hcs
  | cons c cs ih =>
    have hc : c ≠ '_' := h c (List.mem_cons_self ..)
    rw [separated, beq_eq_false_iff_ne.mpr hc, Bool.and_false,
      ih (.inl hc) fun c hc ↦ h c (List.mem_cons_of_mem _ hc)]
    rfl

theorem readDigits_of_isHex {cs : List Char} (hcs : cs ≠ []) (h : ∀ c ∈ cs, IsHex c) :
    readDigits cs = some ((cs.filterMap hexValue).foldl (fun n d ↦ 16 * n + d) 0) := by
  have hdigit : ∀ c ∈ cs, (c == '_' || (hexValue c).isSome) = true := fun c hc ↦ by
    rw [(h c hc).isSome_hexValue, Bool.or_true]
  rw [readDigits, List.takeWhile_eq_self_iff.mpr hdigit, List.dropWhile_eq_nil_iff.mpr hdigit,
    separated_of_not_mem (.inr hcs) fun c hc ↦ (h c hc).ne rfl]
  rfl

theorem readHex_of_isHex {cs : List Char} (hcs : cs ≠ []) (h : ∀ c ∈ cs, IsHex c) :
    readHex cs = some ((cs.filterMap hexValue).foldl (fun n d ↦ 16 * n + d) 0) := by
  have hnone : ∀ c ∈ cs, hexValue c ≠ none := fun c hc hnone ↦ (h c hc).ne hnone rfl
  have hmap : cs.map toAscii = cs := by
    conv_rhs => rw [← List.map_id' cs]
    exact List.map_congr_left fun c hc ↦ (h c hc).toAscii
  have hsign : dropSign cs = cs := by
    rw [dropSign.eq_def]
    split
    · exact absurd rfl (hnone '+' (List.mem_cons_self ..))
    · rfl
  have hhead : dropPrefix cs = cs := by
    rw [dropPrefix.eq_def]
    split
    · exact absurd rfl (hnone 'x' (by simp))
    · exact absurd rfl (hnone 'X' (by simp))
    · exact absurd rfl (hnone 'x' (by simp))
    · exact absurd rfl (hnone 'X' (by simp))
    · rfl
  rw [readHex, hmap, dropWhile_of_not fun c hc ↦ (h c hc).not_isAsciiSpace, hsign, hhead]
  exact readDigits_of_isHex hcs h

theorem take_drop_append_drop (l : List Char) (n m : ℕ) :
    (l.drop n).take m ++ l.drop (n + m) = l.drop n := by
  rw [← List.drop_drop, List.take_append_drop]

/-- The hyphens are the only characters of the canonical form that are no digits. -/
theorem filter_chars (u : ℕ) : (chars u).filter (· ≠ '-') = hexDigits 32 u := by
  have hpart : ∀ part, part ⊆ hexDigits 32 u → part.filter (· ≠ '-') = part := by
    intro part hpart
    refine List.filter_eq_self.mpr fun c hc ↦ decide_eq_true ?_
    exact (isHex_of_mem (hpart hc)).ne rfl
  have htake : ∀ n m, (((hexDigits 32 u).drop n).take m).filter (· ≠ '-') =
      ((hexDigits 32 u).drop n).take m := fun n m ↦
    hpart _ fun c hc ↦ List.mem_of_mem_drop (List.mem_of_mem_take hc)
  have hdash : ∀ cs : List Char, ('-' :: cs).filter (· ≠ '-') = cs.filter (· ≠ '-') := fun _ ↦ rfl
  calc (chars u).filter (· ≠ '-')
      = (hexDigits 32 u).take 8 ++ (((hexDigits 32 u).drop 8).take 4 ++
          (((hexDigits 32 u).drop 12).take 4 ++ (((hexDigits 32 u).drop 16).take 4 ++
            (hexDigits 32 u).drop 20))) := by
        simp only [chars, List.append_assoc, List.cons_append, List.filter_append, hdash, htake,
          hpart _ (List.take_subset 8 _), hpart _ (List.drop_subset 20 _)]
    _ = hexDigits 32 u := by
        rw [take_drop_append_drop _ 16 4, take_drop_append_drop _ 12 4, take_drop_append_drop _ 8 4,
          List.take_append_drop]

theorem isHex_or_eq_of_mem {u : ℕ} {c : Char} (h : c ∈ chars u) : IsHex c ∨ c = '-' := by
  by_cases hc : c = '-'
  · exact .inr hc
  · refine .inl (isHex_of_mem (n := 32) (u := u) ?_)
    rw [← filter_chars]
    exact List.mem_filter.mpr ⟨h, decide_eq_true hc⟩

/-- **What `str` writes, `uuid.UUID` reads.** -/
theorem read_write {u : ℕ} (h : u < 2 ^ 128) : read (write u) = some u := by
  have hne : ∀ c ∈ chars u, ∀ other, hexValue other = none → other ≠ '-' → c ≠ other := by
    intro c hc other hnone hdash
    rcases isHex_or_eq_of_mem hc with hhex | rfl
    · exact hhex.ne hnone
    · exact hdash.symm
  have hmem : ∀ c ∈ hexDigits 32 u, IsHex c := fun c ↦ isHex_of_mem
  have hurn : removeAll "urn:".toList 0 (chars u) = chars u :=
    removeAll_of_not_mem fun c hc ↦ hne c hc 'u' rfl (by decide)
  have huuid : removeAll "uuid:".toList 0 (chars u) = chars u :=
    removeAll_of_not_mem fun c hc ↦ hne c hc 'u' rfl (by decide)
  have hstrip : strip ['{', '}'] (chars u) = chars u := by
    refine strip_of_not_mem fun c hc ↦ ?_
    simp [hne c hc '{' rfl (by decide), hne c hc '}' rfl (by decide)]
  have hdigits : hexDigits 32 u ≠ [] := by
    refine List.ne_nil_of_length_pos ?_
    rw [length_hexDigits]
    decide
  rw [read, write, String.toList_ofList (l := chars u), hurn, huuid, hstrip, filter_chars,
    length_hexDigits, if_pos rfl, readHex_of_isHex hdigits hmem, foldl_hexDigits]
  exact h.trans_eq (by norm_num)

/-- An uppercase form is read as the identifier it names, which is written otherwise. -/
example :
    read "AAAAAAAA-0000-0000-0000-000000000001" = some 0xaaaaaaaa000000000000000000000001 := by
  decide

/-! ## What is read -/

theorem hexValue_lt {c : Char} {d : ℕ} (h : hexValue c = some d) : d < 16 := by
  rw [hexValue] at h
  split at h
  · rename_i hdigit
    have hle : c.toNat ≤ 0x39 := by
      rw [isAsciiDigit.eq_def, Bool.and_eq_true, decide_eq_true_iff, decide_eq_true_iff] at hdigit
      exact hdigit.2
    obtain rfl := Option.some.inj h
    omega
  split at h
  · rename_i hlower
    obtain rfl := Option.some.inj h
    simp at hlower
    omega
  split at h
  · rename_i hupper
    obtain rfl := Option.some.inj h
    simp at hupper
    omega
  · nomatch h

theorem foldl_lt {ds : List ℕ} (h : ∀ d ∈ ds, d < 16) (n : ℕ) :
    ds.foldl (fun n d ↦ 16 * n + d) n < (n + 1) * 16 ^ ds.length := by
  induction ds generalizing n with
  | nil => simp
  | cons d ds ih =>
    obtain ⟨hd, hds⟩ := List.forall_mem_cons.mp h
    refine (ih hds (16 * n + d)).trans_le ?_
    rw [List.length_cons, pow_succ', ← mul_assoc]
    exact Nat.mul_le_mul_right _ (by omega)

theorem length_dropSign_le (cs : List Char) : (dropSign cs).length ≤ cs.length := by
  unfold dropSign
  split
  · exact Nat.le_succ _
  · exact le_rfl

theorem length_dropPrefix_le (cs : List Char) : (dropPrefix cs).length ≤ cs.length := by
  unfold dropPrefix
  split
  · exact Nat.le_add_right _ 3
  · exact Nat.le_add_right _ 3
  · exact Nat.le_add_right _ 2
  · exact Nat.le_add_right _ 2
  · exact le_rfl

theorem read_lt {text : String} {u : ℕ} (h : read text = some u) : u < 2 ^ 128 := by
  rw [read] at h
  split at h
  case isFalse => nomatch h
  rename_i hlength
  generalize (strip ['{', '}'] (removeAll "uuid:".toList 0
    (removeAll "urn:".toList 0 text.toList))).filter (· ≠ '-') = hex at h hlength
  rw [readHex, readDigits] at h
  split at h
  case isFalse => nomatch h
  obtain rfl := Option.some.inj h
  have hdigits : ∀ cs : List Char, cs.length ≤ 32 →
      (cs.filterMap hexValue).foldl (fun n d ↦ 16 * n + d) 0 < 2 ^ 128 := by
    intro cs hcs
    refine (foldl_lt (fun d hd ↦ ?_) 0).trans_le ?_
    · obtain ⟨c, -, hc⟩ := List.mem_filterMap.mp hd
      exact hexValue_lt hc
    · rw [Nat.zero_add, Nat.one_mul]
      exact (Nat.pow_le_pow_right (by decide) ((List.length_filterMap_le _ _).trans hcs)).trans
        (by norm_num)
  refine hdigits _ ((List.takeWhile_sublist _).length_le.trans ?_)
  refine (length_dropPrefix_le _).trans ((length_dropSign_le _).trans ?_)
  refine (List.dropWhile_suffix _).length_le.trans ?_
  rw [List.length_map, hlength]

end UuidText
