import Superviseur.Front.ExpressionTrees
import Superviseur.Front.Style

/-!
# Expressions as they are written

A tree of the language is written with the brackets that the precedences and the association to the
left ask for, or with more; its operators as symbols or as words; its texts between either quote;
its pieces with blanks or without, as long as none is read with what comes after it.

**Whatever the way it is written, a tree is compiled to itself**, so that the text evaluates to the
value of the tree.
-/

namespace Superviseur.Expressions

open RuleExpr Precedence

/-! ## Pieces -/

/-- The text of a number. -/
structure Numeral where
  whole : List Char
  decimals : List Char
  whole_ne_nil : whole ≠ []
  whole_digits : ∀ c ∈ whole, Unicode.isAsciiDigit c = true
  decimals_digits : ∀ c ∈ decimals, Unicode.isAsciiDigit c = true

def Numeral.text (n : Numeral) : List Char :=
  if n.decimals = [] then n.whole else n.whole ++ '.' :: n.decimals

/-- A text between quotes: it has neither the quote nor a line break. -/
structure Quoted where
  quote : Char
  body : List Char
  quote_isQuote : isQuote quote = true
  body_ne : ∀ c ∈ body, c ≠ quote ∧ c ≠ '\n'

/-- A literal or an identifier. -/
inductive Name where
  | true
  | false
  | null
  | value
  | status

def Name.text : Name → List Char
  | true => "true".toList
  | false => "false".toList
  | null => "null".toList
  | value => "value".toList
  | status => "status".toList

/-- An operator that may be written as a word. -/
inductive WordOperator where
  | and
  | or
  | not

def WordOperator.text : WordOperator → List Char
  | and => "and".toList
  | or => "or".toList
  | not => "not".toList

def WordOperator.operator : WordOperator → Operator
  | and => .and
  | or => .or
  | not => .not

/-- A token as it is written. -/
inductive Piece where
  | number (n : Numeral)
  | string (q : Quoted)
  | name (w : Name)
  | wordOperator (w : WordOperator)
  | symbol (o : Operator)

namespace Piece

def token : Piece → Token
  | number n => .number n.text
  | string q => .string q.body
  | name w => .word w.text
  | wordOperator w => .op w.operator
  | symbol o => .op o

def text : Piece → List Char
  | number n => n.text
  | string q => q.quote :: (q.body ++ [q.quote])
  | name w => w.text
  | wordOperator w => w.text
  | symbol o => o.text

/-- The characters that would be read with the piece, right after it. -/
def goesOn : Piece → Char → Bool
  | number _, c => Unicode.isAsciiDigit c || c = '.'
  | string _, _ => false
  | name _, c | wordOperator _, c => isWordPart c
  | symbol o, c => decide (o ∈ [Operator.not, .lt, .gt]) && c = '='

end Piece

/-- A text made of the pieces, with any blanks before, between and after them; what comes right
after a piece is not read with it. -/
inductive Layout : List Piece → List Char → Prop
  | nil {blanks} : (∀ c ∈ blanks, Unicode.isJsSpace c = true) → Layout [] blanks
  | cons {blanks piece pieces rest} : (∀ c ∈ blanks, Unicode.isJsSpace c = true) →
      (∀ c ∈ rest.head?, piece.goesOn c = false) → Layout pieces rest →
      Layout (piece :: pieces) (blanks ++ (piece.text ++ rest))

variable {n i : ℕ} {cs rest blanks : List Char} {pieces : List Piece}

/-- The pieces, a blank before each. -/
def spaced (pieces : List Piece) : List Char := pieces.flatMap fun piece ↦ ' ' :: piece.text

theorem Piece.goesOn_blank (piece : Piece) : piece.goesOn ' ' = false := by
  cases piece with
  | number n | string q | name w | wordOperator w => rfl
  | symbol o => exact Bool.and_false _

theorem layout_spaced (pieces : List Piece) : Layout pieces (spaced pieces) := by
  induction pieces with
  | nil => exact .nil (List.forall_mem_nil _)
  | cons piece pieces ih =>
    have hblank : ∀ c ∈ [' '], Unicode.isJsSpace c = true := List.all_eq_true.mp (by decide)
    refine .cons hblank (fun c hc ↦ ?_) ih
    -- What comes after the piece is nothing, or the blank of the next one.
    rcases pieces with - | ⟨next, pieces⟩
    · nomatch hc
    · obtain rfl := Option.some.inj hc
      exact piece.goesOn_blank

/-! ## The lexer -/

theorem span_append {p : Char → Bool} (hcs : ∀ c ∈ cs, p c = true)
    (hrest : ∀ c ∈ rest.head?, p c = false) :
    (cs ++ rest).takeWhile p = cs ∧ (cs ++ rest).dropWhile p = rest := by
  have hstop : rest.takeWhile p = [] ∧ rest.dropWhile p = rest := by
    rcases rest with - | ⟨c, rest⟩
    · exact ⟨rfl, rfl⟩
    · have hc : ¬ p c = true := Bool.eq_false_iff.mp (hrest c rfl)
      exact ⟨List.takeWhile_cons_of_neg hc, List.dropWhile_cons_of_neg hc⟩
  rw [List.takeWhile_append_of_pos hcs, List.dropWhile_append_of_pos hcs, hstop.1, hstop.2,
    List.append_nil]
  exact ⟨rfl, rfl⟩

theorem matchNumber_numeral (number : Numeral)
    (h : ∀ c ∈ rest.head?, (Piece.number number).goesOn c = false) :
    matchNumber Unicode.isAsciiDigit (number.text ++ rest) = some (number.text, rest) := by
  have hrest : ∀ c ∈ rest.head?, Unicode.isAsciiDigit c = false ∧ c ≠ '.' := by
    intro c hc
    simpa [Piece.goesOn] using h c hc
  rw [Numeral.text]
  split
  · obtain ⟨htake, hdrop⟩ := span_append number.whole_digits fun c hc ↦ (hrest c hc).1
    rw [matchNumber, htake, hdrop, if_neg number.whole_ne_nil]
    split
    · exact absurd rfl (hrest '.' rfl).2
    · rfl
  · rename_i hdecimals
    rw [List.append_assoc, List.cons_append]
    have hpoint : ∀ c ∈ ('.' :: (number.decimals ++ rest)).head?,
        Unicode.isAsciiDigit c = false := by
      rintro c ⟨⟩
      rfl
    obtain ⟨htake, hdrop⟩ := span_append number.whole_digits hpoint
    obtain ⟨htake', hdrop'⟩ := span_append number.decimals_digits fun c hc ↦ (hrest c hc).1
    rw [matchNumber, htake, hdrop, if_neg number.whole_ne_nil]
    change (if (number.decimals ++ rest).takeWhile Unicode.isAsciiDigit = [] then _ else _) = _
    rw [htake', hdrop', if_neg hdecimals]

theorem matchNumber_of_not_digit {c : Char} (h : Unicode.isAsciiDigit c = false) :
    matchNumber Unicode.isAsciiDigit (c :: cs) = none := by
  rw [matchNumber, List.takeWhile_cons_of_neg (Bool.eq_false_iff.mp h)]
  rfl

theorem indexOf_quoted (q : Quoted) :
    indexOf q.quote (q.body ++ q.quote :: rest) = some (q.body, rest) := by
  have hstop : ∀ c ∈ (q.quote :: rest).head?, decide (c ≠ q.quote) = false := by
    rintro c ⟨⟩
    exact decide_eq_false (fun h ↦ h rfl)
  obtain ⟨htake, hdrop⟩ := span_append (p := (· ≠ q.quote))
    (fun c hc ↦ decide_eq_true (q.body_ne c hc).1) hstop
  rw [indexOf, htake, hdrop]

theorem matchWord_append {c : Char} (hc : isWordStart c = true)
    (hcs : ∀ c ∈ cs, isWordPart c = true) (hrest : ∀ c ∈ rest.head?, isWordPart c = false) :
    matchWord (c :: cs ++ rest) = some (c :: cs, rest) := by
  obtain ⟨htake, hdrop⟩ := span_append hcs hrest
  rw [List.cons_append, matchWord, if_pos hc, htake, hdrop]

theorem matchOperator_append (o : Operator)
    (h : ∀ c ∈ rest.head?, (Piece.symbol o).goesOn c = false) :
    matchOperator (o.text ++ rest) = some (o, rest) := by
  have hrest : o ∈ [Operator.not, .lt, .gt] → ∀ c ∈ rest.head?, c ≠ '=' := by
    intro ho c hc
    simpa [Piece.goesOn, ho] using h c hc
  cases o with
  | not | lt | gt =>
    have hrest := hrest (by decide)
    rcases rest with - | ⟨c, rest⟩
    · rfl
    · have hc : ('=' == c) = false := beq_eq_false_iff_ne.mpr (Ne.symm (hrest c rfl))
      simp [matchOperator, operators, Operator.text, List.isPrefixOf?, hc]
  | and | or | eq | ne | le | ge | add | sub | mul | div | mod | opening | closing => rfl

theorem not_blank_of_isAsciiDigit {c : Char} (h : Unicode.isAsciiDigit c = true) :
    Unicode.isJsSpace c = false := by
  refine Bool.eq_false_iff.mpr fun hblank ↦ ?_
  have hdigit : Unicode.isAsciiDigit c = false := jsLexicon.digit_of_blank hblank
  rw [h] at hdigit
  nomatch hdigit

theorem not_digit_of_isWordStart {c : Char} (h : isWordStart c = true) :
    Unicode.isAsciiDigit c = false := by
  simp only [isWordStart, Unicode.inRanges, List.any_cons, List.any_nil, Bool.or_eq_true,
    Bool.and_eq_true, decide_eq_true_eq, Bool.false_eq_true, or_false] at h
  simp only [Unicode.isAsciiDigit, Bool.and_eq_false_iff, decide_eq_false_iff_not]
  omega

theorem Numeral.exists_text_cons (number : Numeral) :
    ∃ c cs, number.text = c :: cs ∧ Unicode.isAsciiDigit c = true := by
  obtain ⟨c, whole, hwhole⟩ := List.exists_cons_of_ne_nil number.whole_ne_nil
  have hc := number.whole_digits c (hwhole ▸ List.mem_cons_self)
  rw [Numeral.text, hwhole]
  split
  · exact ⟨c, _, rfl, hc⟩
  · exact ⟨c, _, rfl, hc⟩

theorem exists_operator_text_cons (o : Operator) : ∃ c cs, o.text = c :: cs ∧
    Unicode.isJsSpace c = false ∧ Unicode.isAsciiDigit c = false ∧ isQuote c = false ∧
      isWordStart c = false := by
  cases o <;> exact ⟨_, _, rfl, rfl, rfl, rfl, rfl⟩

theorem tokenizeFrom_word {c : Char} {token : Token} (hc : isWordStart c = true)
    (hcs : ∀ c ∈ cs, isWordPart c = true) (hrest : ∀ c ∈ rest.head?, isWordPart c = false)
    (htoken : wordToken (c :: cs) = .ok token) :
    ∃ j, tokenizeFrom (n + 1) i (c :: cs ++ rest) = (do
      let tokens ← tokenizeFrom n j rest
      return token :: tokens) := by
  have hpart : isWordPart c = true := by rw [isWordPart, hc, Bool.true_or]
  obtain ⟨hprintable, hquote⟩ := isPrintable_of_isWordPart hpart
  have hblank : Unicode.isJsSpace c = false := jsLexicon.blank_of_isPrintable hprintable
  refine ⟨i + (c :: cs).length, ?_⟩
  rw [List.cons_append, tokenizeFrom, hblank, hquote,
    matchNumber_of_not_digit (not_digit_of_isWordStart hc), ← List.cons_append,
    matchWord_append hc hcs hrest]
  simp only [Bool.false_eq_true, if_false, htoken]
  rfl

/-- **A piece is read as its token**, whatever comes after that is not read with it. -/
theorem tokenizeFrom_text (piece : Piece) (h : ∀ c ∈ rest.head?, piece.goesOn c = false) :
    ∃ j, tokenizeFrom (n + 1) i (piece.text ++ rest) = (do
      let tokens ← tokenizeFrom n j rest
      return piece.token :: tokens) := by
  cases piece with
  | number number =>
    have hmatch := matchNumber_numeral number h
    obtain ⟨c, cs, htext, hc⟩ := number.exists_text_cons
    rw [htext] at hmatch
    rw [Piece.text, Piece.token, htext, List.cons_append, tokenizeFrom,
      not_blank_of_isAsciiDigit hc, ← List.cons_append, hmatch]
    exact ⟨_, rfl⟩
  | string q =>
    obtain ⟨hprintable, hdigit⟩ := isPrintable_of_isQuote q.quote_isQuote
    have hblank : Unicode.isJsSpace q.quote = false := jsLexicon.blank_of_isPrintable hprintable
    have hbody : '\n' ∉ q.body := fun hmem ↦ (q.body_ne _ hmem).2 rfl
    rw [Piece.text, List.cons_append, List.append_assoc, List.singleton_append, tokenizeFrom,
      hblank, matchNumber_of_not_digit hdigit, q.quote_isQuote, indexOf_quoted]
    simp only [Bool.false_eq_true, if_false, if_true, if_neg hbody]
    exact ⟨_, rfl⟩
  | name w =>
    cases w <;> exact tokenizeFrom_word rfl (List.all_eq_true.mp (by decide)) h rfl
  | wordOperator w =>
    cases w <;> exact tokenizeFrom_word rfl (List.all_eq_true.mp (by decide)) h rfl
  | symbol o =>
    have hmatch := matchOperator_append o h
    obtain ⟨c, cs, htext, hblank, hdigit, hquote, hword⟩ := exists_operator_text_cons o
    rw [htext, List.cons_append] at hmatch
    rw [Piece.text, Piece.token, htext, List.cons_append, tokenizeFrom, hblank, hquote,
      matchNumber_of_not_digit hdigit, matchWord, hword, hmatch]
    exact ⟨_, rfl⟩

theorem Piece.text_ne_nil (piece : Piece) : piece.text ≠ [] := by
  cases piece with
  | number number =>
    obtain ⟨c, cs, htext, -⟩ := number.exists_text_cons
    rw [Piece.text, htext]
    exact List.cons_ne_nil _ _
  | string q => exact List.cons_ne_nil _ _
  | name w => cases w <;> exact List.cons_ne_nil _ _
  | wordOperator w => cases w <;> exact List.cons_ne_nil _ _
  | symbol o => cases o <;> exact List.cons_ne_nil _ _

theorem tokenizeFrom_blanks (hblanks : ∀ c ∈ blanks, Unicode.isJsSpace c = true)
    (hn : (blanks ++ cs).length ≤ n) : ∃ m j, cs.length ≤ m ∧
      tokenizeFrom n i (blanks ++ cs) = tokenizeFrom m j cs := by
  induction blanks generalizing n i with
  | nil => exact ⟨n, i, hn, rfl⟩
  | cons c blanks ih =>
    obtain ⟨hc, hblanks⟩ := List.forall_mem_cons.mp hblanks
    rw [List.cons_append, List.length_cons] at hn
    obtain ⟨n, rfl⟩ := Nat.exists_eq_add_of_le' (Nat.one_le_of_lt hn)
    rw [List.cons_append, tokenizeFrom, if_pos hc]
    exact ih hblanks (by omega)

theorem tokenizeFrom_layout (h : Layout pieces cs) (hn : cs.length ≤ n) :
    tokenizeFrom n i cs = .ok (pieces.map Piece.token) := by
  induction h generalizing n i with
  | @nil blanks hblanks =>
    rw [← List.append_nil blanks] at hn ⊢
    obtain ⟨m, j, -, htokens⟩ := tokenizeFrom_blanks (i := i) hblanks hn
    rw [htokens]
    cases m <;> rfl
  | @cons blanks piece pieces rest hblanks hgoesOn _ ih =>
    obtain ⟨m, j, hm, htokens⟩ := tokenizeFrom_blanks (i := i) hblanks hn
    have hlength := List.length_pos_of_ne_nil piece.text_ne_nil
    rw [List.length_append] at hm
    obtain ⟨m, rfl⟩ : ∃ k, m = k + 1 := Nat.exists_eq_add_of_le' (by omega)
    obtain ⟨j', hpiece⟩ := tokenizeFrom_text (n := m) (i := j) piece hgoesOn
    rw [htokens, hpiece, ih (by omega)]
    rfl

/-- **A text that is made of pieces is read as their tokens.** -/
theorem tokenize_layout (h : Layout pieces cs) : tokenize cs = .ok (pieces.map Piece.token) :=
  tokenizeFrom_layout h (Nat.le_refl _)

/-! ## Trees -/

/-- `!` and `-`, before their operand. -/
inductive UnaryOperator where
  | not
  | neg

/-- The operators between two operands. -/
inductive BinaryOperator where
  | or
  | and
  | eq
  | ne
  | le
  | ge
  | lt
  | gt
  | add
  | sub
  | mul
  | div
  | mod

def UnaryOperator.operator : UnaryOperator → Operator
  | not => .not
  | neg => .sub

def BinaryOperator.operator : BinaryOperator → Operator
  | or => .or
  | and => .and
  | eq => .eq
  | ne => .ne
  | le => .le
  | ge => .ge
  | lt => .lt
  | gt => .gt
  | add => .add
  | sub => .sub
  | mul => .mul
  | div => .div
  | mod => .mod

/-- The precedence of an operator: its rule in the grammar, `or` being the rule 0. -/
def UnaryOperator.level : UnaryOperator → ℕ
  | not => 2
  | neg => 6

/-- The precedence of an operator. -/
def BinaryOperator.level : BinaryOperator → ℕ
  | or => 0
  | and => 1
  | eq | ne | le | ge | lt | gt => 3
  | add | sub => 4
  | mul | div | mod => 5

/-- A syntax tree of the language. -/
inductive Tree where
  | number (n : Numeral)
  | string (q : Quoted)
  | name (w : Name)
  | unary (o : UnaryOperator) (operand : Tree)
  | binary (o : BinaryOperator) (left right : Tree)

/-- The value of a name. -/
def Name.eval (vars : ExprVars) : Name → ExprValue
  | true => .bool Bool.true
  | false => .bool Bool.false
  | null => .null
  | value => match vars.value with
    | some x => .number x
    | none => .null
  | status => .text vars.status.toList

/-- The value of `!x` and of `-x`. -/
def UnaryOperator.eval : UnaryOperator → ExprValue → ExprValue
  | not, x => .bool !x.truthy
  | neg, .number x => .number x.neg
  | neg, _ => .null

namespace Tree

/-- The value of a tree. -/
def eval (vars : ExprVars) : Tree → ExprValue
  | number n => .number (toNumber n.text)
  | string q => .text q.body
  | name w => w.eval vars
  | unary o operand => o.eval (operand.eval vars)
  | binary o left right => binaryValue o.operator (left.eval vars) (right.eval vars)

/-- The tree, as the compiler makes it. -/
def node : Tree → Node
  | number n => .literal (.number (toNumber n.text))
  | string q => .literal (.text q.body)
  | name w => wordNode w.text
  | unary o operand => .unary o.operator operand.node
  | binary o left right => .binary o.operator left.node right.node

theorem run_node (vars : ExprVars) (tree : Tree) : tree.node.run vars = tree.eval vars := by
  induction tree with
  | number n => rfl
  | string q => rfl
  | name w => cases w <;> rfl
  | unary o operand ih =>
    rw [node, Node.run, ih, eval]
    cases o with
    | not => rfl
    | neg => cases operand.eval vars <;> rfl
  | binary o left right ihleft ihright => rw [node, Node.run, ihleft, ihright, eval]

/-- The pieces of a tree where an expression of level `k` stands: a tree whose operator is looser is
between brackets, and so is the right operand of an operator of the same level. Others may be. -/
inductive Renders : ℕ → Tree → List Piece → Prop
  | number {k n} : Renders k (.number n) [.number n]
  | string {k q q'} : q'.body = q.body → Renders k (.string q) [.string q']
  | name {k w} : Renders k (.name w) [.name w]
  | unary {k o operand piece pieces} : k ≤ o.level → piece.token = .op o.operator →
      Renders o.level operand pieces → Renders k (.unary o operand) (piece :: pieces)
  | binary {k o left right piece pieces pieces'} : k ≤ o.level → Renders o.level left pieces →
      piece.token = .op o.operator → Renders (o.level + 1) right pieces' →
      Renders k (.binary o left right) (pieces ++ piece :: pieces')
  | brackets {k tree pieces} : Renders 0 tree pieces →
      Renders k tree (.symbol .opening :: (pieces ++ [.symbol .closing]))

/-- A text of the tree. -/
def IsText (tree : Tree) (text : String) : Prop :=
  ∃ pieces, Renders 0 tree pieces ∧ Layout pieces text.toList

/-- Pieces between brackets, where they do not stand free. -/
def enclose (free : Bool) (pieces : List Piece) : List Piece :=
  if free then pieces else .symbol .opening :: (pieces ++ [.symbol .closing])

/-- The pieces of a tree at level `k`, with as few brackets as may be. -/
def print : ℕ → Tree → List Piece
  | _, number n => [.number n]
  | _, string q => [.string q]
  | _, name w => [.name w]
  | k, unary o operand => enclose (k ≤ o.level) (.symbol o.operator :: operand.print o.level)
  | k, binary o left right => enclose (k ≤ o.level)
      (left.print o.level ++ .symbol o.operator :: right.print (o.level + 1))

theorem renders_enclose {k m : ℕ} {tree : Tree} {pieces : List Piece}
    (h : ∀ k ≤ m, Renders k tree pieces) : Renders k tree (enclose (k ≤ m) pieces) := by
  rw [enclose]
  split
  · exact h k (of_decide_eq_true ‹_›)
  · exact .brackets (h 0 (Nat.zero_le _))

theorem renders_print (k : ℕ) (tree : Tree) : Renders k tree (tree.print k) := by
  induction tree generalizing k with
  | number n => exact .number
  | string q => exact .string rfl
  | name w => exact .name
  | unary o operand ih => exact renders_enclose fun k hk ↦ .unary hk rfl (ih _)
  | binary o left right ihleft ihright =>
    exact renders_enclose fun k hk ↦ .binary hk (ihleft _) rfl (ihright _)

end Tree

theorem UnaryOperator.levels (o : UnaryOperator) : grammar.levels.drop o.level =
    .pre [o.operator] :: grammar.levels.drop (o.level + 1) := by
  cases o <;> rfl

theorem BinaryOperator.levels (o : BinaryOperator) : ∃ operators, o.operator ∈ operators ∧
    grammar.levels.drop o.level = .chain operators :: grammar.levels.drop (o.level + 1) := by
  cases o <;> exact ⟨_, by decide, rfl⟩

theorem Builds.loosen {level : Level Operator} {levels : List (Level Operator)} {ts : List Token}
    {node : Node} (h : Builds levels ts node) : Builds (level :: levels) ts node := by
  cases level with
  | chain operators => exact .one h
  | pre operators => exact .bare h

theorem Builds.drop {k m : ℕ} {levels : List (Level Operator)} {ts : List Token} {node : Node}
    (h : Builds (levels.drop m) ts node) (hk : k ≤ m) : Builds (levels.drop k) ts node := by
  induction hk with
  | refl => exact h
  | @step m _ ih =>
    refine ih ?_
    by_cases hm : m < levels.length
    · rw [List.drop_eq_getElem_cons hm]
      exact h.loosen
    · rw [List.drop_of_length_le (by omega)] at h ⊢
      exact h

theorem builds_leaf {k : ℕ} {token : Token} {node : Node} (h : token.leaf = some node) :
    Builds (grammar.levels.drop k) [token] node := by
  have hbuilds : Builds (grammar.levels.drop (max k 7)) [token] node := by
    rw [List.drop_of_length_le (Nat.le_max_right k 7)]
    exact .leaf h
  exact hbuilds.drop (Nat.le_max_left k 7)

theorem Tree.Renders.builds {k : ℕ} {tree : Tree} (h : tree.Renders k pieces) :
    Builds (grammar.levels.drop k) (pieces.map Piece.token) tree.node := by
  induction h with
  | number => exact builds_leaf rfl
  | string hbody =>
    refine builds_leaf ?_
    rw [Piece.token, Token.leaf, hbody]
    rfl
  | name => exact builds_leaf rfl
  | @unary k o operand piece pieces hk hpiece _ ih =>
    rw [o.levels] at ih
    have hbuilds : Builds (grammar.levels.drop o.level) ((piece :: pieces).map Piece.token)
        (Tree.unary o operand).node := by
      rw [List.map_cons, hpiece, o.levels]
      exact .pre (List.mem_singleton_self _) ih
    exact hbuilds.drop hk
  | @binary k o left right piece pieces pieces' hk _ hpiece _ ihleft ihright =>
    obtain ⟨operators, ho, hlevels⟩ := o.levels
    rw [hlevels] at ihleft
    have hbuilds : Builds (grammar.levels.drop o.level)
        ((pieces ++ piece :: pieces').map Piece.token) (Tree.binary o left right).node := by
      rw [List.map_append, List.map_cons, hpiece, hlevels]
      exact .more ihleft ho ihright
    exact hbuilds.drop hk
  | @brackets k tree pieces _ ih =>
    have hbuilds : Builds (grammar.levels.drop (max k 7))
        ((Piece.symbol .opening :: (pieces ++ [.symbol .closing])).map Piece.token) tree.node := by
      rw [List.drop_of_length_le (Nat.le_max_right k 7), List.map_cons, List.map_append]
      exact .group ih
    exact hbuilds.drop (Nat.le_max_left k 7)

theorem Tree.isText_print (tree : Tree) :
    tree.IsText (String.ofList (spaced (tree.print 0))) := by
  refine ⟨_, tree.renders_print 0, ?_⟩
  rw [String.toList_ofList]
  exact layout_spaced _

/-- **A text of a tree is compiled to this tree, and evaluates to its value**, however its operators
are spelled. -/
theorem compile_isText (tree : Tree) (text : String) (h : tree.IsText text) :
    compile text = .ok tree.node ∧ ∀ vars, tree.node.run vars = tree.eval vars := by
  obtain ⟨pieces, hpieces, hlayout⟩ := h
  refine ⟨?_, fun vars ↦ tree.run_node vars⟩
  rw [compile, tokenize_layout hlayout]
  exact hpieces.builds.parse

/-- The number 2. -/
def two : Numeral :=
  ⟨['2'], [], List.cons_ne_nil _ _, List.all_eq_true.mp (by decide), List.forall_mem_nil _⟩

/-- `!(value > 2) || status`. -/
def outOfRange : Tree :=
  .binary .or (.unary .not (.binary .gt (.name .value) (.number two))) (.name .status)

theorem isText_outOfRange : outOfRange.IsText "not(value>2) || status" := by
  refine ⟨[.wordOperator .not, .symbol .opening, .name .value, .symbol .gt, .number two,
    .symbol .closing, .symbol .or, .name .status], ?_, ?_⟩
  · have hgt : Tree.Renders 0 (.binary .gt (.name .value) (.number two))
        ([.name .value] ++ .symbol .gt :: [.number two]) :=
      .binary (Nat.zero_le _) .name rfl .number
    have hnot : Tree.Renders 0 (.unary .not (.binary .gt (.name .value) (.number two)))
        (.wordOperator .not :: .symbol .opening :: ([.name .value, .symbol .gt, .number two] ++
          [.symbol .closing])) := .unary (Nat.zero_le _) rfl (.brackets hgt)
    have hor : Tree.Renders 0 outOfRange ((.wordOperator .not :: .symbol .opening ::
        ([.name .value, .symbol .gt, .number two] ++ [.symbol .closing])) ++
          .symbol .or :: [.name .status]) := .binary (Nat.zero_le _) hnot rfl .name
    exact hor
  · have hblank : ∀ c ∈ [' '], Unicode.isJsSpace c = true := List.all_eq_true.mp (by decide)
    have htext : "not(value>2) || status".toList = [] ++ ("not".toList ++ ([] ++ (['('] ++
        ([] ++ ("value".toList ++ ([] ++ (['>'] ++ ([] ++ (['2'] ++ ([] ++ ([')'] ++
          ([' '] ++ (['|', '|'] ++ ([' '] ++ ("status".toList ++ []))))))))))))))) := rfl
    rw [htext]
    have hnone := List.forall_mem_nil fun c ↦ Unicode.isJsSpace c = true
    refine .cons hnone ?_ (.cons hnone ?_ (.cons hnone ?_ (.cons hnone ?_ (.cons hnone ?_
      (.cons hnone ?_ (.cons hblank ?_ (.cons hblank ?_ (.nil hnone))))))))
    all_goals rintro c ⟨⟩
    all_goals rfl

/-- The text `not(value>2) || status`. -/
theorem compile_isText_outOfRange :
    compile "not(value>2) || status" = .ok outOfRange.node ∧
      ∀ vars, outOfRange.node.run vars = outOfRange.eval vars :=
  compile_isText outOfRange "not(value>2) || status" isText_outOfRange

end Superviseur.Expressions
