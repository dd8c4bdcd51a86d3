import Superviseur.Library.Json
import Superviseur.Library.OrderedDict
import Superviseur.Library.UuidText

/-!
# The texts of JSON

What `json.dumps` writes of a value, in ASCII, and how `json.loads` reads a text. The reader takes
more than what is written: blanks between the tokens, escapes that nothing asks for, and objects
that have a key twice, of which the last value is kept.

The texts of the numbers that are no integers are left to `FloatTexts`. Texts are lists of
characters; a text that only stands for lone surrogates is not read at all.
-/

namespace Json

/-- The texts of the finite numbers, outside of the integers. -/
structure FloatTexts where
  /-- `repr(x)`. -/
  repr : ℚ → List Char
  /-- `float(text)`. -/
  read : List Char → PyFloat

/-! ## Writing -/

/-- `\u` and four hexadecimal digits. -/
def unitText (unit : ℕ) : List Char := '\\' :: 'u' :: UuidText.hexDigits 4 unit

/-- `ESCAPE_ASCII`. -/
def escape (c : Char) : List Char :=
  if c = '\\' then ['\\', '\\']
  else if c = '\x22' then ['\\', '\x22']
  else if c = '\x08' then ['\\', 'b']
  else if c = '\x0c' then ['\\', 'f']
  else if c = '\n' then ['\\', 'n']
  else if c = '\r' then ['\\', 'r']
  else if c = '\t' then ['\\', 't']
  else if ' ' ≤ c ∧ c ≤ '~' then [c]
  else if c.toNat < 0x10000 then unitText c.toNat
  else unitText (0xd800 + (c.toNat - 0x10000) / 0x400) ++
    unitText (0xdc00 + (c.toNat - 0x10000) % 0x400)

/-- `py_encode_basestring_ascii`. -/
def quote (s : String) : List Char := '\x22' :: s.toList.flatMap escape ++ ['\x22']

def intText (n : ℤ) : List Char :=
  if n < 0 then '-' :: Nat.toDigits 10 n.natAbs else Nat.toDigits 10 n.natAbs

/-- `floatstr`. -/
def floatText (texts : FloatTexts) : PyFloat → List Char
  | .nan => "NaN".toList
  | .num ⊥ => "-Infinity".toList
  | .num (some ⊤) => "Infinity".toList
  | .num (some (some q)) => texts.repr q

section

variable (texts : FloatTexts)

mutual

/-- `json.dumps`. -/
def dumps : Json → List Char
  | .null => "null".toList
  | .bool b => (if b then "true" else "false").toList
  | .int n => intText n
  | .float x => floatText texts x
  | .str s => quote s
  | .arr items => '[' :: dumpsItems items ++ [']']
  | .obj fields => '{' :: dumpsFields fields ++ ['}']

/-- The items, with what separates them. -/
def dumpsItems : List Json → List Char
  | [] => []
  | [x] => dumps x
  | x :: items => dumps x ++ ',' :: ' ' :: dumpsItems items

/-- The fields, with what separates them. -/
def dumpsFields : List (String × Json) → List Char
  | [] => []
  | [(key, x)] => quote key ++ ':' :: ' ' :: dumps x
  | (key, x) :: fields => quote key ++ ':' :: ' ' :: dumps x ++ ',' :: ' ' :: dumpsFields fields

end

end

/-! ## Reading -/

/-- `_decode_uXXXX`. -/
def readUnit : List Char → Option (ℕ × List Char)
  | a :: b :: c :: d :: rest => do
    let a ← UuidText.hexValue a
    let b ← UuidText.hexValue b
    let c ← UuidText.hexValue c
    let d ← UuidText.hexValue d
    some (((a * 16 + b) * 16 + c) * 16 + d, rest)
  | _ => none

/-- `BACKSLASH`. -/
def unescaped : Char → Option Char
  | '\x22' => some '\x22'
  | '\\' => some '\\'
  | '/' => some '/'
  | 'b' => some '\x08'
  | 'f' => some '\x0c'
  | 'n' => some '\n'
  | 'r' => some '\r'
  | 't' => some '\t'
  | _ => none

/-- The second of a pair of surrogates. -/
def readLow : List Char → Option (ℕ × List Char)
  | '\\' :: 'u' :: rest => (readUnit rest).filter fun low ↦ 0xdc00 ≤ low.1 ∧ low.1 ≤ 0xdfff
  | _ => none

/-- The character of a unit, which may be the first of a pair of surrogates. -/
def readUnits (unit : ℕ) (rest : List Char) : Option (Char × List Char) :=
  if 0xd800 ≤ unit ∧ unit ≤ 0xdbff then
    (readLow rest).map fun low ↦
      (Char.ofNat (0x10000 + (unit - 0xd800) * 0x400 + (low.1 - 0xdc00)), low.2)
  else if 0xdc00 ≤ unit ∧ unit ≤ 0xdfff then none
  else some (Char.ofNat unit, rest)

/-- The character of an escape, after the backslash. -/
def readEscape : List Char → Option (Char × List Char)
  | [] => none
  | c :: rest =>
    if c = 'u' then (readUnit rest).bind fun unit ↦ readUnits unit.1 unit.2
    else (unescaped c).map (·, rest)

/-- `py_scanstring`, after the opening quote; each round takes a character at least. -/
def readString : (rounds : ℕ) → List Char → Option (List Char × List Char)
  | 0, _ | _, [] => none
  | rounds + 1, c :: rest =>
    if c = '\x22' then some ([], rest)
    else if c = '\\' then
      (readEscape rest).bind fun escaped ↦
        (readString rounds escaped.2).map fun read ↦ (escaped.1 :: read.1, read.2)
    else if c < ' ' then none
    else (readString rounds rest).map fun read ↦ (c :: read.1, read.2)

/-- A text in quotes. -/
def readQuoted : List Char → Option (String × List Char)
  | '\x22' :: rest => (readString rest.length rest).map fun read ↦ (String.ofList read.1, read.2)
  | _ => none

def readSign : List Char → List Char × List Char
  | '-' :: rest => (['-'], rest)
  | rest => ([], rest)

/-- `(?:0|[1-9]\d*)`. -/
def readInteger : List Char → Option (List Char × List Char)
  | '0' :: rest => some (['0'], rest)
  | cs =>
    if cs.takeWhile Char.isDigit = [] then none
    else some (cs.takeWhile Char.isDigit, cs.dropWhile Char.isDigit)

/-- `(\.\d+)?`. -/
def readFraction : List Char → List Char × List Char
  | '.' :: cs =>
    if cs.takeWhile Char.isDigit = [] then ([], '.' :: cs)
    else ('.' :: cs.takeWhile Char.isDigit, cs.dropWhile Char.isDigit)
  | cs => ([], cs)

/-- `([eE][-+]?\d+)?`. -/
def readExponent : List Char → List Char × List Char
  | [] => ([], [])
  | e :: cs =>
    let sign := cs.take (if cs.head? = some '-' ∨ cs.head? = some '+' then 1 else 0)
    let digits := cs.drop sign.length
    if (e = 'e' ∨ e = 'E') ∧ digits.takeWhile Char.isDigit ≠ [] then
      (e :: sign ++ digits.takeWhile Char.isDigit, digits.dropWhile Char.isDigit)
    else ([], e :: cs)

/-- `int(text)`, the digits apart from the sign. -/
def intOf (sign digits : List Char) : ℤ :=
  if sign = [] then Nat.ofDigitChars 10 digits 0 else -(Nat.ofDigitChars 10 digits 0 : ℤ)

/-- The constants, and their values. -/
def literals : List (List Char × Json) :=
  [("null".toList, .null), ("true".toList, .bool true), ("false".toList, .bool false),
    ("NaN".toList, .float .nan), ("Infinity".toList, .float .inf),
    ("-Infinity".toList, .float .negInf)]

def readLiteral (cs : List Char) : Option (Json × List Char) :=
  literals.findSome? fun literal ↦
    if literal.1.isPrefixOf cs then some (literal.2, cs.drop literal.1.length) else none

/-- `WHITESPACE`. -/
def skipBlanks (cs : List Char) : List Char :=
  cs.dropWhile fun c ↦ c = ' ' ∨ c = '\t' ∨ c = '\n' ∨ c = '\r'

section

variable (texts : FloatTexts)

/-- `match_number`. -/
def readNumber (cs : List Char) : Option (Json × List Char) :=
  (readInteger (readSign cs).2).map fun integer ↦
    let fraction := readFraction integer.2
    let exponent := readExponent fraction.2
    let sign := (readSign cs).1
    if fraction.1 ++ exponent.1 = [] then (.int (intOf sign integer.1), exponent.2)
    else (.float (texts.read (sign ++ integer.1 ++ fraction.1 ++ exponent.1)), exponent.2)

mutual

/-- `scan_once`. -/
def scanOnce : (fuel : ℕ) → List Char → Option (Json × List Char)
  | 0, _ => none
  | fuel + 1, cs =>
    match cs with
    | '\x22' :: _ => (readQuoted cs).map fun read ↦ (.str read.1, read.2)
    | '{' :: cs =>
      match skipBlanks cs with
      | '}' :: cs => some (.obj [], cs)
      | cs => (scanFields fuel cs).map fun read ↦ (.obj (OrderedDict.ofList read.1).entries, read.2)
    | '[' :: cs =>
      match skipBlanks cs with
      | ']' :: cs => some (.arr [], cs)
      | cs => (scanItems fuel cs).map fun read ↦ (.arr read.1, read.2)
    | cs => (readLiteral cs).or (readNumber texts cs)

/-- `JSONArray`, from its first item. -/
def scanItems : (fuel : ℕ) → List Char → Option (List Json × List Char)
  | 0, _ => none
  | fuel + 1, cs =>
    (scanOnce fuel cs).bind fun item ↦
      match skipBlanks item.2 with
      | ']' :: cs => some ([item.1], cs)
      | ',' :: cs => (scanItems fuel (skipBlanks cs)).map fun read ↦ (item.1 :: read.1, read.2)
      | _ => none

/-- `JSONObject`, from its first key. -/
def scanFields : (fuel : ℕ) → List Char → Option (List (String × Json) × List Char)
  | 0, _ => none
  | fuel + 1, cs =>
    (readQuoted cs).bind fun key ↦
      match skipBlanks key.2 with
      | ':' :: cs =>
        (scanOnce fuel (skipBlanks cs)).bind fun value ↦
          match skipBlanks value.2 with
          | '}' :: cs => some ([(key.1, value.1)], cs)
          | ',' :: cs => (scanFields fuel (skipBlanks cs)).map fun read ↦
            ((key.1, value.1) :: read.1, read.2)
          | _ => none
      | _ => none

end

/-- `json.loads`; `none` where it raises. -/
def loads (cs : List Char) : Option Json :=
  (scanOnce texts (2 * cs.length + 2) (skipBlanks cs)).bind fun read ↦
    if skipBlanks read.2 = [] then some read.1 else none

end

/-! ## Numbers -/

/-- The text after a number does not go on with it. -/
def Ends (rest : List Char) : Prop :=
  ∀ c ∈ rest.head?, c.isDigit = false ∧ c ≠ '.' ∧ c ≠ 'e' ∧ c ≠ 'E'

/-- A text of digits, without leading zeros. -/
def IsInteger (cs : List Char) : Prop :=
  cs = ['0'] ∨ cs ≠ [] ∧ (∀ c ∈ cs, c.isDigit = true) ∧ cs.head? ≠ some '0'

/-- A point and digits. -/
def IsFraction (cs : List Char) : Prop :=
  ∃ digits, digits ≠ [] ∧ (∀ c ∈ digits, c.isDigit = true) ∧ cs = '.' :: digits

/-- An `e` and digits, with or without a sign. -/
def IsExponent (cs : List Char) : Prop :=
  ∃ sign digits, (sign = [] ∨ sign = ['-'] ∨ sign = ['+']) ∧ digits ≠ [] ∧
    (∀ c ∈ digits, c.isDigit = true) ∧ cs = 'e' :: sign ++ digits

/-- A number is written with a fraction or an exponent, and read as it is. -/
structure FloatTexts.Writes (texts : FloatTexts) (q : ℚ) : Prop where
  shape : ∃ sign integer fraction exponent, (sign = [] ∨ sign = ['-']) ∧ IsInteger integer ∧
    (fraction = [] ∨ IsFraction fraction) ∧ (exponent = [] ∨ IsExponent exponent) ∧
    fraction ++ exponent ≠ [] ∧ texts.repr q = sign ++ integer ++ fraction ++ exponent
  read : texts.read (texts.repr q) = .fin q

variable {texts : FloatTexts} {cs rest : List Char}

theorem takeWhile_digits (hcs : ∀ c ∈ cs, c.isDigit = true)
    (hrest : ∀ c ∈ rest.head?, c.isDigit = false) :
    (cs ++ rest).takeWhile Char.isDigit = cs ∧ (cs ++ rest).dropWhile Char.isDigit = rest := by
  rw [List.takeWhile_append_of_pos hcs, List.dropWhile_append_of_pos hcs]
  cases rest with
  | nil => exact ⟨by simp, rfl⟩
  | cons c rest =>
    have hc : ¬c.isDigit = true := by simp [hrest c rfl]
    rw [List.takeWhile_cons_of_neg hc, List.dropWhile_cons_of_neg hc, List.append_nil]
    exact ⟨rfl, rfl⟩

theorem readInteger_append (hcs : IsInteger cs) (hrest : ∀ c ∈ rest.head?, c.isDigit = false) :
    readInteger (cs ++ rest) = some (cs, rest) := by
  rcases hcs with rfl | ⟨hne, hdigits, hzero⟩
  · rfl
  · obtain ⟨htake, hdrop⟩ := takeWhile_digits hdigits hrest
    obtain ⟨c, cs, rfl⟩ := List.exists_cons_of_ne_nil hne
    rw [List.cons_append] at htake hdrop ⊢
    rw [readInteger, htake, hdrop, if_neg hne]
    rintro rest' hcons
    exact hzero (congrArg some (List.cons.inj hcons).1)

theorem readFraction_of_ne (h : ∀ c ∈ cs.head?, c ≠ '.') : readFraction cs = ([], cs) := by
  rw [readFraction]
  rintro rest rfl
  exact h '.' rfl rfl

theorem readFraction_append (hcs : cs = [] ∨ IsFraction cs)
    (hrest : ∀ c ∈ rest.head?, c.isDigit = false ∧ c ≠ '.') :
    readFraction (cs ++ rest) = (cs, rest) := by
  rcases hcs with rfl | ⟨digits, hne, hdigits, rfl⟩
  · exact readFraction_of_ne fun c hc ↦ (hrest c hc).2
  · obtain ⟨htake, hdrop⟩ := takeWhile_digits hdigits fun c hc ↦ (hrest c hc).1
    rw [List.cons_append, readFraction, htake, hdrop, if_neg hne]

theorem readExponent_append (hcs : cs = [] ∨ IsExponent cs) (hrest : Ends rest) :
    readExponent (cs ++ rest) = (cs, rest) := by
  rcases hcs with rfl | ⟨sign, digits, hsign, hne, hdigits, rfl⟩
  · cases rest with
    | nil => rfl
    | cons c rest =>
      have hc : ¬(c = 'e' ∨ c = 'E') := not_or.mpr (hrest c rfl).2.2
      rw [List.nil_append, readExponent]
      exact if_neg fun h ↦ hc h.1
  · obtain ⟨htake, hdrop⟩ := takeWhile_digits hdigits fun c hc ↦ (hrest c hc).1
    obtain ⟨d, digits, rfl⟩ := List.exists_cons_of_ne_nil hne
    have hd : d.isDigit = true := hdigits d List.mem_cons_self
    have hsigns : ¬((d :: digits ++ rest).head? = some '-' ∨
        (d :: digits ++ rest).head? = some '+') := by
      rintro (h | h)
      · rw [Option.some.inj h] at hd
        exact absurd hd (by decide)
      · rw [Option.some.inj h] at hd
        exact absurd hd (by decide)
    rcases hsign with rfl | rfl | rfl
    · rw [List.singleton_append, List.cons_append, readExponent, if_neg hsigns]
      simp only [List.take_zero, List.length_nil, List.drop_zero, htake, hdrop]
      simp
    · simp only [List.cons_append, List.nil_append, readExponent, List.head?_cons, true_or, if_true,
        List.take_succ_cons, List.take_zero, List.length_singleton, List.drop_succ_cons,
        List.drop_zero]
      rw [List.cons_append] at htake hdrop
      rw [htake, hdrop]
      simp
    · simp only [List.cons_append, List.nil_append, readExponent, List.head?_cons, or_true, if_true,
        List.take_succ_cons, List.take_zero, List.length_singleton, List.drop_succ_cons,
        List.drop_zero]
      rw [List.cons_append] at htake hdrop
      rw [htake, hdrop]
      simp

theorem isInteger_toDigits (n : ℕ) : IsInteger (Nat.toDigits 10 n) := by
  rcases Nat.eq_zero_or_pos n with rfl | hn
  · exact .inl (Nat.toDigits_zero 10)
  · refine .inr ⟨Nat.toDigits_ne_nil, fun c hc ↦
      Nat.isDigit_of_mem_toDigits (by decide) (by decide) hc, ?_⟩
    induction n using Nat.strong_induction_on with
    | h n ih =>
      rcases Nat.lt_or_ge n 10 with hlt | hge
      · rw [Nat.toDigits_of_lt_base hlt]
        interval_cases n <;> decide
      · rw [Nat.toDigits_of_base_le (by decide) hge, List.head?_append_of_ne_nil _
          Nat.toDigits_ne_nil]
        exact ih (n / 10) (by omega) (by omega)

theorem IsInteger.exists_cons (h : IsInteger cs) :
    ∃ d digits, cs = d :: digits ∧ d.isDigit = true := by
  rcases h with rfl | ⟨hne, hdigits, -⟩
  · exact ⟨'0', [], rfl, rfl⟩
  · obtain ⟨d, digits, rfl⟩ := List.exists_cons_of_ne_nil hne
    exact ⟨d, digits, rfl, hdigits d List.mem_cons_self⟩

theorem ne_digit {c d : Char} (hd : d.isDigit = true) (hc : c.isDigit = false) : c ≠ d := by
  rintro rfl
  rw [hd] at hc
  exact Bool.noConfusion hc

theorem readLiteral_number {sign integer : List Char} (hsign : sign = [] ∨ sign = ['-'])
    (hinteger : IsInteger integer) : readLiteral (sign ++ integer ++ rest) = none := by
  obtain ⟨d, digits, rfl, hd⟩ := hinteger.exists_cons
  rcases hsign with rfl | rfl
  · simp [readLiteral, literals, ne_digit (c := 'n') hd rfl, ne_digit (c := 't') hd rfl,
      ne_digit (c := 'f') hd rfl, ne_digit (c := 'N') hd rfl, ne_digit (c := 'I') hd rfl,
      ne_digit (c := '-') hd rfl]
  · simp [readLiteral, literals, ne_digit (c := 'I') hd rfl]

theorem readSign_append {sign integer : List Char} (hsign : sign = [] ∨ sign = ['-'])
    (hinteger : IsInteger integer) : readSign (sign ++ (integer ++ rest)) =
      (sign, integer ++ rest) := by
  rcases hsign with rfl | rfl
  · obtain ⟨d, digits, rfl, hd⟩ := hinteger.exists_cons
    rw [List.nil_append, List.cons_append, readSign]
    rintro rest' h
    exact ne_digit hd rfl (List.cons.inj h).1.symm
  · rfl

theorem IsExponent.head {c : Char} (h : IsExponent cs) (hc : c ∈ (cs ++ rest).head?) : c = 'e' := by
  obtain ⟨sign, digits, -, -, -, rfl⟩ := h
  exact (Option.some.inj hc).symm

theorem readNumber_append (texts : FloatTexts) {sign integer fraction exponent : List Char}
    (hsign : sign = [] ∨ sign = ['-']) (hinteger : IsInteger integer)
    (hfraction : fraction = [] ∨ IsFraction fraction)
    (hexponent : exponent = [] ∨ IsExponent exponent) (hrest : Ends rest) :
    readNumber texts (sign ++ (integer ++ (fraction ++ (exponent ++ rest)))) =
      some (if fraction ++ exponent = [] then .int (intOf sign integer)
        else .float (texts.read (sign ++ integer ++ fraction ++ exponent)), rest) := by
  have hafter : ∀ c ∈ (exponent ++ rest).head?, c.isDigit = false ∧ c ≠ '.' := by
    intro c hc
    rcases hexponent with rfl | hexponent
    · exact ⟨(hrest c hc).1, (hrest c hc).2.1⟩
    · obtain rfl := hexponent.head hc
      decide
  have hdigits : ∀ c ∈ (fraction ++ (exponent ++ rest)).head?, c.isDigit = false := by
    intro c hc
    rcases hfraction with rfl | ⟨digits, -, -, rfl⟩
    · exact (hafter c hc).1
    · obtain rfl := Option.some.inj hc
      rfl
  rw [readNumber, readSign_append hsign hinteger, readInteger_append hinteger hdigits,
    Option.map_some]
  dsimp only
  rw [readFraction_append hfraction hafter]
  dsimp only
  rw [readExponent_append hexponent hrest]
  split <;> rfl

theorem intOf_toDigits (n : ℕ) : intOf [] (Nat.toDigits 10 n) = n := by
  rw [intOf, if_pos rfl, Nat.ofDigitChars_ten_toDigits]

theorem intOf_neg_toDigits (n : ℕ) : intOf ['-'] (Nat.toDigits 10 n) = -n := by
  rw [intOf, if_neg (by decide), Nat.ofDigitChars_ten_toDigits]

/-- The first character of a text that is no number tells its type. -/
def Scalar (cs : List Char) : Prop :=
  ∀ c ∈ cs.head?, c ≠ '\x22' ∧ c ≠ '{' ∧ c ≠ '['

theorem scanOnce_of_scalar (fuel : ℕ) (h : Scalar cs) :
    scanOnce texts (fuel + 1) cs = (readLiteral cs).or (readNumber texts cs) := by
  rw [scanOnce]
  · rintro rest rfl
    exact (h _ rfl).1 rfl
  · rintro rest rfl
    exact (h _ rfl).2.1 rfl
  · rintro rest rfl
    exact (h _ rfl).2.2 rfl

theorem scalar_number {sign integer : List Char} (hsign : sign = [] ∨ sign = ['-'])
    (hinteger : IsInteger integer) : Scalar (sign ++ (integer ++ rest)) := by
  intro c hc
  rcases hsign with rfl | rfl
  · obtain ⟨d, digits, rfl, hd⟩ := hinteger.exists_cons
    obtain rfl := Option.some.inj hc
    exact ⟨(ne_digit hd rfl).symm, (ne_digit hd rfl).symm, (ne_digit hd rfl).symm⟩
  · obtain rfl := Option.some.inj hc
    decide

theorem exists_intText (n : ℤ) : ∃ sign, (sign = [] ∨ sign = ['-']) ∧
    intText n = sign ++ Nat.toDigits 10 n.natAbs ∧ intOf sign (Nat.toDigits 10 n.natAbs) = n := by
  rcases lt_or_ge n 0 with hn | hn
  · refine ⟨['-'], .inr rfl, by rw [intText, if_pos hn]; rfl, ?_⟩
    rw [intOf_neg_toDigits]
    omega
  · refine ⟨[], .inl rfl, by rw [intText, if_neg hn.not_gt]; rfl, ?_⟩
    rw [intOf_toDigits]
    omega

theorem scanOnce_int (fuel : ℕ) (n : ℤ) (hrest : Ends rest) :
    scanOnce texts (fuel + 1) (intText n ++ rest) = some (.int n, rest) := by
  obtain ⟨sign, hsign, htext, hvalue⟩ := exists_intText n
  have hinteger := isInteger_toDigits n.natAbs
  have hread := readNumber_append texts hsign hinteger (.inl rfl) (.inl rfl) hrest
  rw [htext, List.append_assoc, scanOnce_of_scalar fuel (scalar_number hsign hinteger),
    ← List.append_assoc, readLiteral_number hsign hinteger, Option.none_or, List.append_assoc]
  rw [List.nil_append, List.nil_append, if_pos (List.append_nil []), hvalue] at hread
  exact hread

theorem scanOnce_repr (fuel : ℕ) {q : ℚ} (h : texts.Writes q) (hrest : Ends rest) :
    scanOnce texts (fuel + 1) (texts.repr q ++ rest) = some (.float (.fin q), rest) := by
  obtain ⟨sign, integer, fraction, exponent, hsign, hinteger, hfraction, hexponent, hne, hrepr⟩ :=
    h.shape
  have hread := readNumber_append texts hsign hinteger hfraction hexponent hrest
  have hvalue := h.read
  rw [hrepr] at hvalue ⊢
  rw [if_neg hne, hvalue] at hread
  have htext : sign ++ integer ++ fraction ++ exponent ++ rest =
      sign ++ (integer ++ (fraction ++ (exponent ++ rest))) := by
    simp only [List.append_assoc]
  rw [htext, scanOnce_of_scalar fuel (scalar_number hsign hinteger), ← List.append_assoc sign,
    readLiteral_number hsign hinteger, Option.none_or, List.append_assoc]
  exact hread

theorem scanOnce_float (fuel : ℕ) {x : PyFloat} (h : ∀ q, x = .fin q → texts.Writes q)
    (hrest : Ends rest) :
    scanOnce texts (fuel + 1) (floatText texts x ++ rest) = some (.float x, rest) := by
  match x, h with
  | .nan, _ => rfl
  | .num ⊥, _ => rfl
  | .num (some ⊤), _ => rfl
  | .num (some (some q)), h => exact scanOnce_repr fuel (h q rfl) hrest

/-! ## Texts in quotes -/

theorem readUnit_hexDigits {unit : ℕ} (h : unit < 0x10000) (rest : List Char) :
    readUnit (UuidText.hexDigits 4 unit ++ rest) = some (unit, rest) := by
  have hdigit : ∀ n, UuidText.hexValue (UuidText.hexChar (n % 16)) = some (n % 16) :=
    fun n ↦ UuidText.hexValue_hexChar (Nat.mod_lt n (by decide))
  simp only [UuidText.hexDigits, List.nil_append, List.cons_append, readUnit, hdigit,
    Option.bind_eq_bind, Option.bind_some]
  congr 2
  omega

theorem readUnits_of_valid {unit : ℕ} (h : unit < 0xd800 ∨ 0xdfff < unit) :
    readUnits unit rest = some (Char.ofNat unit, rest) := by
  rw [readUnits, if_neg (by omega), if_neg (by omega)]

theorem readLow_unitText {low : ℕ} (h : 0xdc00 ≤ low ∧ low ≤ 0xdfff) :
    readLow (unitText low ++ rest) = some (low, rest) := by
  rw [unitText, List.cons_append, List.cons_append, readLow, readUnit_hexDigits (by omega)]
  exact if_pos (decide_eq_true h)

theorem readUnits_pair {n : ℕ} (h : n < 0x100000) :
    readUnits (0xd800 + n / 0x400) (unitText (0xdc00 + n % 0x400) ++ rest) =
      some (Char.ofNat (0x10000 + n), rest) := by
  have hcode : 0x10000 + (0xd800 + n / 0x400 - 0xd800) * 0x400 + (0xdc00 + n % 0x400 - 0xdc00) =
      0x10000 + n := by
    omega
  rw [readUnits, if_pos (by omega), readLow_unitText (by omega), Option.map_some, hcode]

theorem readEscape_unitText {unit : ℕ} (h : unit < 0x10000) (rest : List Char) :
    readEscape ('u' :: UuidText.hexDigits 4 unit ++ rest) = readUnits unit rest := by
  rw [List.cons_append, readEscape, if_pos rfl, readUnit_hexDigits h, Option.bind_some]

theorem readString_escape (rounds : ℕ) (c : Char) :
    readString (rounds + 1) (escape c ++ rest) =
      (readString rounds rest).map fun read ↦ (c :: read.1, read.2) := by
  have hshort : ∀ e, unescaped e = some c → e ≠ 'u' → readString (rounds + 1) ('\\' :: e :: rest) =
      (readString rounds rest).map fun read ↦ (c :: read.1, read.2) := by
    intro e he hu
    rw [readString, if_neg (by decide), if_pos rfl, readEscape, if_neg hu, he, Option.map_some,
      Option.bind_some]
  have hunit : ∀ unit more, unit < 0x10000 → readUnits unit more = some (c, rest) →
      readString (rounds + 1) (unitText unit ++ more) =
        (readString rounds rest).map fun read ↦ (c :: read.1, read.2) := by
    intro unit more hlt hread
    rw [unitText, List.cons_append, readString, if_neg (by decide), if_pos rfl,
      readEscape_unitText hlt, hread, Option.bind_some]
  rw [escape]
  split_ifs with h1 h2 h3 h4 h5 h6 h7 h8 h9
  · exact hshort _ (by rw [h1]; rfl) (by decide)
  · exact hshort _ (by rw [h2]; rfl) (by decide)
  · exact hshort _ (by rw [h3]; rfl) (by decide)
  · exact hshort _ (by rw [h4]; rfl) (by decide)
  · exact hshort _ (by rw [h5]; rfl) (by decide)
  · exact hshort _ (by rw [h6]; rfl) (by decide)
  · exact hshort _ (by rw [h7]; rfl) (by decide)
  · rw [List.singleton_append, readString, if_neg h2, if_neg h1, if_neg (Char.not_lt.mpr h8.1)]
  · refine hunit _ _ h9 ?_
    have hvalid : c.toNat < 0xd800 ∨ 0xdfff < c.toNat ∧ c.toNat < 0x110000 := c.valid
    rw [readUnits_of_valid (by omega), Char.ofNat_toNat]
  · have hvalid : c.toNat < 0xd800 ∨ 0xdfff < c.toNat ∧ c.toNat < 0x110000 := c.valid
    rw [List.append_assoc]
    refine hunit _ _ (by omega) ?_
    rw [readUnits_pair (by omega), Nat.add_sub_cancel' (not_lt.mp h9), Char.ofNat_toNat]

theorem readString_append {rounds : ℕ} (s : List Char) (h : s.length < rounds) :
    readString rounds (s.flatMap escape ++ '\x22' :: rest) = some (s, rest) := by
  induction s generalizing rounds with
  | nil =>
    obtain ⟨rounds, rfl⟩ := Nat.exists_eq_succ_of_ne_zero (Nat.ne_of_gt h)
    rfl
  | cons c s ih =>
    obtain ⟨rounds, rfl⟩ := Nat.exists_eq_succ_of_ne_zero (Nat.ne_of_gt (Nat.zero_lt_of_lt h))
    rw [List.flatMap_cons, List.append_assoc, readString_escape,
      ih (Nat.lt_of_succ_lt_succ h), Option.map_some]

theorem one_le_length_escape (c : Char) : 1 ≤ (escape c).length := by
  rw [escape]
  split_ifs <;> simp [unitText]

theorem length_le_flatMap_escape (s : List Char) : s.length ≤ (s.flatMap escape).length := by
  induction s with
  | nil => exact Nat.zero_le _
  | cons c s ih =>
    rw [List.flatMap_cons, List.length_append, List.length_cons]
    have hc := one_le_length_escape c
    omega

theorem readQuoted_quote (s : String) (rest : List Char) :
    readQuoted (quote s ++ rest) = some (s, rest) := by
  have hlength : s.toList.length < (s.toList.flatMap escape ++ '\x22' :: rest).length := by
    have hle := length_le_flatMap_escape s.toList
    rw [List.length_append, List.length_cons]
    omega
  have htext : quote s ++ rest = '\x22' :: (s.toList.flatMap escape ++ '\x22' :: rest) := by
    rw [quote, List.cons_append, List.cons_append, List.append_assoc, List.singleton_append]
  rw [htext, readQuoted, readString_append s.toList hlength, Option.map_some, String.ofList_toList]

/-! ## Values -/

section

variable (texts : FloatTexts)

mutual

/-- The numbers of a value are written and read as they are, and its objects have each key once. -/
def Written : Json → Prop
  | .float x => ∀ q, x = .fin q → texts.Writes q
  | .arr items => ItemsWritten items
  | .obj fields => (fields.map Prod.fst).Nodup ∧ FieldsWritten fields
  | _ => True

def ItemsWritten : List Json → Prop
  | [] => True
  | x :: items => Written x ∧ ItemsWritten items

def FieldsWritten : List (String × Json) → Prop
  | [] => True
  | (_, x) :: fields => Written x ∧ FieldsWritten fields

end

end

/-- A text that begins with a token of a value. -/
def Starts (cs : List Char) : Prop :=
  ∃ c rest, cs = c :: rest ∧ ¬(c = ' ' ∨ c = '\t' ∨ c = '\n' ∨ c = '\r') ∧ c ≠ ']' ∧ c ≠ '}'

theorem Starts.append (h : Starts cs) (rest : List Char) : Starts (cs ++ rest) := by
  obtain ⟨c, more, rfl, hc⟩ := h
  exact ⟨c, more ++ rest, rfl, hc⟩

theorem skipBlanks_of_starts (h : Starts cs) : skipBlanks cs = cs := by
  obtain ⟨c, rest, rfl, hc, -⟩ := h
  exact List.dropWhile_cons_of_neg (by simpa using hc)

theorem skipBlanks_blank (cs : List Char) : skipBlanks (' ' :: cs) = skipBlanks cs := rfl

theorem starts_number {sign integer : List Char} (hsign : sign = [] ∨ sign = ['-'])
    (hinteger : IsInteger integer) : Starts (sign ++ integer) := by
  rcases hsign with rfl | rfl
  · obtain ⟨d, digits, rfl, hd⟩ := hinteger.exists_cons
    refine ⟨d, digits, rfl, ?_, (ne_digit hd rfl).symm, (ne_digit hd rfl).symm⟩
    rintro (rfl | rfl | rfl | rfl) <;> exact absurd hd (by decide)
  · exact ⟨'-', integer, rfl, by decide, by decide, by decide⟩

theorem starts_quote (s : String) : Starts (quote s) :=
  ⟨'\x22', s.toList.flatMap escape ++ ['\x22'], rfl, by decide, by decide, by decide⟩

theorem starts_floatText {x : PyFloat} (h : ∀ q, x = .fin q → texts.Writes q) :
    Starts (floatText texts x) := by
  match x, h with
  | .nan, _ => exact ⟨'N', "aN".toList, rfl, by decide, by decide, by decide⟩
  | .num ⊥, _ => exact ⟨'-', "Infinity".toList, rfl, by decide, by decide, by decide⟩
  | .num (some ⊤), _ => exact ⟨'I', "nfinity".toList, rfl, by decide, by decide, by decide⟩
  | .num (some (some q)), h =>
    obtain ⟨sign, integer, fraction, exponent, hsign, hinteger, -, -, -, hrepr⟩ := (h q rfl).shape
    change Starts (texts.repr q)
    rw [hrepr, List.append_assoc]
    exact (starts_number hsign hinteger).append _

theorem starts_dumps {x : Json} (h : Written texts x) : Starts (dumps texts x) := by
  cases x with
  | null => exact ⟨'n', "ull".toList, rfl, by decide, by decide, by decide⟩
  | bool b =>
    cases b with
    | true => exact ⟨'t', "rue".toList, rfl, by decide, by decide, by decide⟩
    | false => exact ⟨'f', "alse".toList, rfl, by decide, by decide, by decide⟩
  | int n =>
    obtain ⟨sign, hsign, htext, -⟩ := exists_intText n
    rw [dumps, htext]
    exact starts_number hsign (isInteger_toDigits n.natAbs)
  | float x =>
    rw [Written] at h
    rw [dumps]
    exact starts_floatText h
  | str s => exact starts_quote s
  | arr items => exact ⟨'[', dumpsItems texts items ++ [']'], rfl, by decide, by decide, by decide⟩
  | obj fields =>
    exact ⟨'{', dumpsFields texts fields ++ ['}'], rfl, by decide, by decide, by decide⟩

theorem scanOnce_bracket (fuel : ℕ) (h : Starts cs) : scanOnce texts (fuel + 1) ('[' :: cs) =
    (scanItems texts fuel cs).map fun read ↦ (.arr read.1, read.2) := by
  rw [scanOnce, skipBlanks_of_starts h]
  obtain ⟨c, rest, rfl, -, hc, -⟩ := h
  split
  · next heq => exact absurd (List.cons.inj heq).1 hc
  · rfl

theorem scanOnce_brace (fuel : ℕ) (h : Starts cs) : scanOnce texts (fuel + 1) ('{' :: cs) =
    (scanFields texts fuel cs).map fun read ↦
      (.obj (OrderedDict.ofList read.1).entries, read.2) := by
  rw [scanOnce, skipBlanks_of_starts h]
  obtain ⟨c, rest, rfl, -, -, hc⟩ := h
  split
  · next heq => exact absurd (List.cons.inj heq).1 hc
  · rfl

theorem dumpsItems_cons_cons (x y : Json) (items : List Json) :
    dumpsItems texts (x :: y :: items) =
      dumps texts x ++ ',' :: ' ' :: dumpsItems texts (y :: items) := rfl

theorem dumpsFields_cons_cons (key : String) (x : Json) (field : String × Json)
    (fields : List (String × Json)) :
    dumpsFields texts ((key, x) :: field :: fields) =
      quote key ++ ':' :: ' ' :: dumps texts x ++
        ',' :: ' ' :: dumpsFields texts (field :: fields) := rfl

theorem starts_dumpsItems {items : List Json} (hne : items ≠ []) (h : ItemsWritten texts items) :
    Starts (dumpsItems texts items) := by
  match items, h with
  | [], _ => exact absurd rfl hne
  | [x], h => exact starts_dumps h.1
  | x :: y :: items, h => exact (starts_dumps h.1).append _

theorem starts_dumpsFields (texts : FloatTexts) {fields : List (String × Json)}
    (hne : fields ≠ []) : Starts (dumpsFields texts fields) := by
  match fields with
  | [] => exact absurd rfl hne
  | [(key, x)] => exact (starts_quote key).append _
  | (key, x) :: field :: fields =>
    rw [dumpsFields_cons_cons, List.append_assoc]
    exact (starts_quote key).append _

theorem ends_comma (rest : List Char) : Ends (',' :: rest) := by
  intro c hc
  obtain rfl := Option.some.inj hc
  decide

theorem ends_bracket (rest : List Char) : Ends (']' :: rest) := by
  intro c hc
  obtain rfl := Option.some.inj hc
  decide

theorem ends_brace (rest : List Char) : Ends ('}' :: rest) := by
  intro c hc
  obtain rfl := Option.some.inj hc
  decide

mutual

theorem scanOnce_dumps (x : Json) (h : Written texts x) (rest : List Char) (hrest : Ends rest)
    (fuel : ℕ) (hfuel : 2 * (dumps texts x).length < fuel) :
    scanOnce texts fuel (dumps texts x ++ rest) = some (x, rest) := by
  obtain ⟨fuel, rfl⟩ := Nat.exists_eq_succ_of_ne_zero (Nat.ne_of_gt (Nat.zero_lt_of_lt hfuel))
  match x, h with
  | .null, _ => rfl
  | .bool true, _ => rfl
  | .bool false, _ => rfl
  | .int n, _ => exact scanOnce_int fuel n hrest
  | .float x, h =>
    rw [Written] at h
    rw [dumps]
    exact scanOnce_float fuel h hrest
  | .str s, _ =>
    have hread := readQuoted_quote s rest
    rw [dumps, quote, List.cons_append, List.cons_append, scanOnce]
    rw [quote, List.cons_append, List.cons_append] at hread
    rw [hread]
    rfl
  | .arr [], _ => rfl
  | .arr (x :: items), h =>
    rw [dumps] at hfuel
    simp only [List.length_append, List.length_cons, List.length_nil] at hfuel
    have hitems := scanItems_dumpsItems (x :: items) (List.cons_ne_nil _ _) h rest fuel (by omega)
    have hstarts := (starts_dumpsItems (List.cons_ne_nil x items) h).append (']' :: rest)
    rw [dumps, List.append_assoc, List.cons_append, List.singleton_append,
      scanOnce_bracket fuel hstarts, hitems]
    rfl
  | .obj [], _ => rfl
  | .obj (field :: fields), h =>
    rw [dumps] at hfuel
    simp only [List.length_append, List.length_cons, List.length_nil] at hfuel
    have hfields := scanFields_dumpsFields (field :: fields) (List.cons_ne_nil _ _) h.2 rest fuel
      (by omega)
    have hstarts := (starts_dumpsFields texts (List.cons_ne_nil field fields)).append ('}' :: rest)
    rw [dumps, List.append_assoc, List.cons_append, List.singleton_append,
      scanOnce_brace fuel hstarts, hfields, Option.map_some, OrderedDict.entries_ofList h.1]

theorem scanItems_dumpsItems (items : List Json) (hne : items ≠ []) (h : ItemsWritten texts items)
    (rest : List Char) (fuel : ℕ) (hfuel : 2 * (dumpsItems texts items).length + 1 < fuel) :
    scanItems texts fuel (dumpsItems texts items ++ ']' :: rest) = some (items, rest) := by
  obtain ⟨fuel, rfl⟩ := Nat.exists_eq_succ_of_ne_zero (Nat.ne_of_gt (Nat.zero_lt_of_lt hfuel))
  match items, h with
  | [], _ => exact absurd rfl hne
  | [x], h =>
    have hx := scanOnce_dumps x h.1 (']' :: rest) (ends_bracket rest) fuel
      (by rw [dumpsItems] at hfuel; omega)
    rw [dumpsItems, scanItems, hx]
    rfl
  | x :: y :: items, h =>
    rw [dumpsItems_cons_cons] at hfuel
    simp only [List.length_append, List.length_cons] at hfuel
    have hx := scanOnce_dumps x h.1 (',' :: ' ' :: dumpsItems texts (y :: items) ++ ']' :: rest)
      (ends_comma _) fuel (by omega)
    have hitems := scanItems_dumpsItems (y :: items) (List.cons_ne_nil _ _) h.2 rest fuel (by omega)
    have hstarts := (starts_dumpsItems (List.cons_ne_nil y items) h.2).append (']' :: rest)
    rw [dumpsItems_cons_cons, List.append_assoc, scanItems, hx, Option.bind_some]
    change ((scanItems texts fuel (skipBlanks (' ' :: (dumpsItems texts (y :: items) ++
      ']' :: rest)))).map _) = _
    rw [skipBlanks_blank, skipBlanks_of_starts hstarts, hitems]
    rfl

theorem scanFields_dumpsFields (fields : List (String × Json)) (hne : fields ≠ [])
    (h : FieldsWritten texts fields) (rest : List Char) (fuel : ℕ)
    (hfuel : 2 * (dumpsFields texts fields).length + 1 < fuel) :
    scanFields texts fuel (dumpsFields texts fields ++ '}' :: rest) = some (fields, rest) := by
  obtain ⟨fuel, rfl⟩ := Nat.exists_eq_succ_of_ne_zero (Nat.ne_of_gt (Nat.zero_lt_of_lt hfuel))
  match fields, h with
  | [], _ => exact absurd rfl hne
  | [(key, x)], h =>
    rw [dumpsFields] at hfuel
    simp only [List.length_append, List.length_cons] at hfuel
    have hx := scanOnce_dumps x h.1 ('}' :: rest) (ends_brace rest) fuel (by omega)
    have hstarts := (starts_dumps h.1).append ('}' :: rest)
    rw [dumpsFields, List.append_assoc, scanFields, readQuoted_quote, Option.bind_some]
    change ((scanOnce texts fuel (skipBlanks (' ' :: (dumps texts x ++ '}' :: rest)))).bind _) = _
    rw [skipBlanks_blank, skipBlanks_of_starts hstarts, hx]
    rfl
  | (key, x) :: field :: fields, h =>
    rw [dumpsFields_cons_cons] at hfuel
    simp only [List.length_append, List.length_cons] at hfuel
    have hx := scanOnce_dumps x h.1
      (',' :: ' ' :: dumpsFields texts (field :: fields) ++ '}' :: rest) (ends_comma _) fuel
      (by omega)
    have hfields := scanFields_dumpsFields (field :: fields) (List.cons_ne_nil _ _) h.2 rest fuel
      (by omega)
    have hstarts := (starts_dumps h.1).append
      (',' :: ' ' :: dumpsFields texts (field :: fields) ++ '}' :: rest)
    have hnext := (starts_dumpsFields texts (List.cons_ne_nil field fields)).append ('}' :: rest)
    rw [dumpsFields_cons_cons, List.append_assoc, List.append_assoc, scanFields, readQuoted_quote,
      Option.bind_some]
    change ((scanOnce texts fuel (skipBlanks (' ' :: (dumps texts x ++
      (',' :: ' ' :: dumpsFields texts (field :: fields) ++ '}' :: rest))))).bind _) = _
    rw [skipBlanks_blank, skipBlanks_of_starts hstarts, hx, Option.bind_some]
    change ((scanFields texts fuel (skipBlanks (' ' :: (dumpsFields texts (field :: fields) ++
      '}' :: rest)))).map _) = _
    rw [skipBlanks_blank, skipBlanks_of_starts hnext, hfields]
    rfl

end

/-- **What `json.dumps` writes, `json.loads` reads.** -/
theorem loads_dumps {x : Json} (h : Written texts x) : loads texts (dumps texts x) = some x := by
  have hskip : skipBlanks (dumps texts x) = dumps texts x := skipBlanks_of_starts (starts_dumps h)
  have hread := scanOnce_dumps x h [] (fun _ hc ↦ by simp at hc) (2 * (dumps texts x).length + 2)
    (by omega)
  rw [List.append_nil] at hread
  rw [loads, hskip, hread, Option.bind_some]
  rfl

end Json
