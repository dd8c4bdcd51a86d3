import Superviseur.Library.UuidText

/-!
# Components of an address

`encodeURIComponent` writes a text with the characters an address may have: it escapes every other
one, byte after byte of its UTF-8 form. `decodeURIComponent` reads it back.
-/

namespace UriComponent

/-- What is not escaped. -/
def isUnescaped (c : Char) : Bool :=
  c.isAlphanum || ['-', '_', '.', '!', '~', '*', '\x27', '(', ')'].contains c

def hexDigit (n : ℕ) : Char := if n < 10 then Char.ofNat (0x30 + n) else Char.ofNat (0x37 + n)

def escape (b : UInt8) : List Char := ['%', hexDigit (b.toNat / 16), hexDigit (b.toNat % 16)]

def encodeChar (c : Char) : List Char :=
  if isUnescaped c then [c] else (String.utf8EncodeChar c).flatMap escape

/-- `encodeURIComponent`. -/
def encode (s : String) : String := String.ofList (s.toList.flatMap encodeChar)

/-- The bytes of a text, the escaped ones read. -/
def unescape : List Char → Option (List UInt8)
  | [] => some []
  | '%' :: high :: low :: cs => do
    let high ← UuidText.hexValue high
    let low ← UuidText.hexValue low
    let bytes ← unescape cs
    return UInt8.ofNat (16 * high + low) :: bytes
  | c :: cs =>
    if c = '%' then none else (unescape cs).map fun bytes ↦ String.utf8EncodeChar c ++ bytes

/-- `decodeURIComponent`; `none` where it raises. -/
def decode (s : String) : Option String := do
  let bytes ← unescape s.toList
  let cs ← bytes.toByteArray.utf8Decode?
  return String.ofList cs.toList

/-! ## Reading what is written -/

theorem hexValue_hexDigit {n : ℕ} (h : n < 16) : UuidText.hexValue (hexDigit n) = some n := by
  interval_cases n <;> decide

theorem unescape_escape_append (b : UInt8) (cs : List Char) :
    unescape (escape b ++ cs) = (unescape cs).map (b :: ·) := by
  have hb : b.toNat < 256 := b.toNat_lt
  rw [escape, List.cons_append, List.cons_append, List.cons_append, List.nil_append, unescape,
    hexValue_hexDigit (by omega), hexValue_hexDigit (by omega)]
  have hbyte : UInt8.ofNat (16 * (b.toNat / 16) + b.toNat % 16) = b := by
    rw [Nat.div_add_mod, UInt8.ofNat_toNat]
  cases unescape cs with
  | none => rfl
  | some bytes => exact congrArg (fun b' ↦ some (b' :: bytes)) hbyte

theorem unescape_flatMap_escape_append (bytes : List UInt8) (cs : List Char) :
    unescape (bytes.flatMap escape ++ cs) = (unescape cs).map (bytes ++ ·) := by
  induction bytes with
  | nil => simp
  | cons b bytes ih =>
    rw [List.flatMap_cons, List.append_assoc, unescape_escape_append, ih, Option.map_map]
    rfl

theorem ne_percent_of_isUnescaped {c : Char} (h : isUnescaped c = true) : c ≠ '%' := by
  rintro rfl
  exact absurd h (by decide)

theorem unescape_encodeChar_append (c : Char) (cs : List Char) :
    unescape (encodeChar c ++ cs) = (unescape cs).map (String.utf8EncodeChar c ++ ·) := by
  rw [encodeChar]
  split
  · rename_i hc
    have hne := ne_percent_of_isUnescaped hc
    rw [List.singleton_append, unescape, if_neg hne]
    exact fun _ _ _ h _ ↦ hne h
  · exact unescape_flatMap_escape_append _ cs

theorem unescape_flatMap_encodeChar (cs : List Char) :
    unescape (cs.flatMap encodeChar) = some (cs.flatMap String.utf8EncodeChar) := by
  induction cs with
  | nil => rfl
  | cons c cs ih =>
    rw [List.flatMap_cons, unescape_encodeChar_append, ih, List.flatMap_cons]
    rfl

/-- **What is encoded is read back.** -/
theorem decode_encode (s : String) : decode (encode s) = some s := by
  have hbytes : (s.toList.flatMap String.utf8EncodeChar).toByteArray.utf8Decode? =
      some s.toList.toArray := List.utf8Decode?_utf8Encode
  rw [decode, encode, String.toList_ofList, unescape_flatMap_encodeChar]
  change (s.toList.flatMap String.utf8EncodeChar).toByteArray.utf8Decode?.bind _ = _
  rw [hbytes]
  exact congrArg some s.ofList_toList

/-! ## What is written -/

theorem isUnescaped_or_eq_of_mem_encodeChar {c d : Char} (h : d ∈ encodeChar c) :
    isUnescaped d = true ∨ d = '%' := by
  rw [encodeChar] at h
  split at h
  · rename_i hc
    rw [List.mem_singleton.mp h]
    exact .inl hc
  · obtain ⟨b, -, hd⟩ := List.mem_flatMap.mp h
    have hb : b.toNat < 256 := b.toNat_lt
    have hdigit : ∀ n < 16, isUnescaped (hexDigit n) = true := by decide
    simp only [escape, List.mem_cons, List.not_mem_nil, or_false] at hd
    rcases hd with rfl | rfl | rfl
    · exact .inr rfl
    · exact .inl (hdigit _ (by omega))
    · exact .inl (hdigit _ (by omega))

theorem isUnescaped_or_eq_of_mem_encode {s : String} {d : Char} (h : d ∈ (encode s).toList) :
    isUnescaped d = true ∨ d = '%' := by
  rw [encode, String.toList_ofList] at h
  obtain ⟨c, -, hd⟩ := List.mem_flatMap.mp h
  exact isUnescaped_or_eq_of_mem_encodeChar hd

theorem encode_ne_empty {s : String} (h : s ≠ "") : encode s ≠ "" := by
  intro hempty
  have hdecode := decode_encode s
  rw [hempty] at hdecode
  exact h (Option.some.inj (hdecode.symm.trans (by decide)))

end UriComponent
