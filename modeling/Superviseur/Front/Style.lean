import Superviseur.Api.DocumentSchema
import Superviseur.Front.Expressions
import Superviseur.Library.OrderedDict

/-!
# The style of widgets

A rule whose expression is true adds its style to that of the widget. `applyStyle` writes a style on
an element, each property under its own name and as a variable, leaving out the values that
`isSafeCssValue` refuses: it refuses every text that the server does (`safe_of_isSafeCssValue`).

A text written in a property keeps its origin: the document, or the program.
-/

namespace Superviseur

namespace Expressions

open RuleExpr

/-- `ExprVars`. -/
structure ExprVars where
  value : Option PyFloat
  status : String

namespace ExprValue

/-- `truthy`. -/
def truthy : ExprValue → Bool
  | number x => decide (x ≠ .fin 0)
  | text s => !s.isEmpty
  | bool b => b
  | null => false

/-- `left === right`. -/
def same : ExprValue → ExprValue → Bool
  | number x, number y => x.le y && y.le x
  | text s, text t => decide (s = t)
  | bool b, bool c => b == c
  | null, null => true
  | _, _ => false

/-- A result that is no finite number is `null`. -/
def ofResult (x : PyFloat) : ExprValue := if x.isFinite then number x else null

end ExprValue

/-- An operation on two numbers, which are finite. -/
def arithmetic (op : Operator) (p q : ℚ) : ExprValue :=
  match op with
  | .add => .ofResult (.round (p + q))
  | .sub => .ofResult (.round (p - q))
  | .mul => .ofResult (.round (p * q))
  | .div => if q = 0 then .null else .ofResult (.round (p / q))
  | _ => if q = 0 then .null else .ofResult (.fin (p - q * PyFloat.truncRat (p / q)))

/-- An operation on a finite number and an infinite one: it has a finite result when it divides. -/
def infiniteDivisor (op : Operator) (p : ℚ) : ExprValue :=
  match op with
  | .div => .number (.fin 0)
  | .mod => .number (.fin p)
  | _ => .null

/-- `binary`, on the values of both sides. -/
def binaryValue (op : Operator) (left right : ExprValue) : ExprValue :=
  match op with
  | .and => .bool (left.truthy && right.truthy)
  | .or => .bool (left.truthy || right.truthy)
  | .eq => .bool (left.same right)
  | .ne => .bool !(left.same right)
  | .lt => match left, right with
    | .number x, .number y => .bool (x.lt y)
    | _, _ => .bool false
  | .le => match left, right with
    | .number x, .number y => .bool (x.le y)
    | _, _ => .bool false
  | .gt => match left, right with
    | .number x, .number y => .bool (y.lt x)
    | _, _ => .bool false
  | .ge => match left, right with
    | .number x, .number y => .bool (y.le x)
    | _, _ => .bool false
  | _ => match left, right with
    | .number (.num (some (some p))), .number (.num (some (some q))) => arithmetic op p q
    | .number (.num (some (some p))), .number (.num _) => infiniteDivisor op p
    | _, _ => .null

/-- `run`. -/
def Node.run (vars : ExprVars) : Node → ExprValue
  | .literal value => value
  | .variable name =>
    if name = "value".toList then match vars.value with
      | some x => .number x
      | none => .null
    else .text vars.status.toList
  | .unary op operand =>
    let value := operand.run vars
    if op = .not then .bool !value.truthy
    else match value with
      | .number x => .number x.neg
      | _ => .null
  | .binary op left right => binaryValue op (left.run vars) (right.run vars)

/-- `test`. -/
def Node.test (tree : Node) (vars : ExprVars) : Bool := (tree.run vars).truthy

end Expressions

namespace Style

open Schema (lowered includes unsafeTokens unsafeChars)
open Expressions (Node ExprVars units)

/-- `isSafeCssValue`. -/
def isSafeCssValue : Json → Bool
  | .int n => (PyFloat.round n).isFinite
  | .float x => x.isFinite
  | .str s =>
    units s.toList ≤ 100 && !(unsafeTokens.any fun token ↦ includes token (lowered s.toList)) &&
      !(unsafeChars.any fun char ↦ s.toList.contains char)
  | .null | .bool _ | .arr _ | .obj _ => false

/-- `PX_KEYS`. -/
def pxKeys : List String := ["fontSize", "strokeWidth", "borderRadius"]

/-- `DIRECT_KEYS`. -/
def directKeys : List String :=
  ["color", "background", "opacity", "fontSize", "fontWeight", "textAlign", "borderColor",
    "borderRadius"]

def kebab (key : String) : String :=
  String.ofList (key.toList.flatMap fun c ↦ if isUpper c then ['-', c.toLower] else [c])

/-! ## What is written on elements -/

/-- A value, with its origin. -/
inductive CssText where
  /-- A text of the document, as it is. -/
  | document (text : String)
  /-- `url("…")`, around a text of the document. -/
  | image (url : String)
  /-- A number, with its unit. -/
  | number (x : PyFloat) (unit : String)
  /-- A text of the program. -/
  | program (text : String)

inductive StyleOp where
  | set (property : String) (text : CssText)
  | remove (property : String)

/-- `StyleMap`. -/
abbrev StyleMap := OrderedDict String Json

/-- `Object.assign(style, other)`. -/
def assign (style : StyleMap) (other : Dict) : StyleMap :=
  other.foldl (fun style e ↦ style.insert e.1 e.2) style

/-- `{ ...style }`. -/
def StyleMap.of (style : Dict) : StyleMap := assign .empty style

/-- The text of a value that is safe: a text, or a number. -/
def cssText (key : String) : Json → CssText
  | .str s => .document s
  | .int n => .number (.round n) (if key ∈ pxKeys then "px" else "")
  | .float x => .number x (if key ∈ pxKeys then "px" else "")
  | .null | .bool _ | .arr _ | .obj _ => .program ""

/-- The properties a key stands for: its variable, and its own. -/
def properties (key : String) : List String :=
  ("--w-" ++ kebab key) :: if key ∈ directKeys then [kebab key] else []

/-- `applyStyle`. -/
def applyStyle (style previous : StyleMap) : List StyleOp :=
  ((previous.entries.filter fun e ↦ (style.get? e.1).isNone).flatMap fun e ↦
      (properties e.1).map .remove) ++
    (style.entries.filter fun e ↦ isSafeCssValue e.2).flatMap fun e ↦
      (properties e.1).map fun property ↦ .set property (cssText e.1 e.2)

/-! ## Rules -/

structure CompiledRule where
  tree : Node
  style : Dict

/-- `compileRules`: a rule that is no expression is left out. -/
def compileRules (rules : List Schema.Rule) : List CompiledRule :=
  rules.filterMap fun rule ↦
    match Expressions.compile rule.when with
    | .ok tree => some ⟨tree, rule.style⟩
    | .error _ => none

/-- `resolveStyle`. -/
def resolveStyle (base : Dict) (rules : List CompiledRule) (vars : ExprVars) : StyleMap :=
  rules.foldl (fun style rule ↦ if rule.tree.test vars then assign style rule.style else style)
    (.of base)

/-! ## Both checks -/

theorem length_le_units (cs : List Char) : cs.length ≤ units cs := by
  induction cs with
  | nil => exact Nat.le_refl 0
  | cons c cs ih =>
    rw [units, List.map_cons, List.sum_cons, List.length_cons]
    rw [units] at ih
    split <;> omega

/-- **Mirror.** A text the viewer takes for safe is one the server takes for safe. -/
theorem safe_of_isSafeCssValue {s : String} (h : isSafeCssValue (.str s) = true) :
    Schema.isSafeCssValue (.str s) = true := by
  simp only [isSafeCssValue, Schema.isSafeCssValue, Bool.and_eq_true, decide_eq_true_eq] at h ⊢
  exact ⟨⟨(length_le_units _).trans h.1.1, h.1.2⟩, h.2⟩

end Style

end Superviseur
