import Superviseur.Front.Page
import Superviseur.Library.LastWrite

/-!
# What the style of a widget remembers

Each time a widget is refreshed, its style is computed from its last value alone, and written over
the one before: a property that the style before had and this one has not is removed. A value that
is refused is not written, but its property counts as one that the style has, so what another value
had put there stays.

The look of a widget depends on its last value alone if and only if no value can leave something
that the style of another one refuses to write over (`dependsOnLast_iff`).

The keys of a style are those that the server takes: the prototype of objects, where `in` looks too,
has none of them.
-/

namespace Superviseur.Style

open Schema (Widget)

variable {V : Type}

/-- The inline style of an element. -/
abbrev Look (V : Type) := String → Option V

def CssText.isEmpty : CssText → Bool
  | document text | program text => text.isEmpty
  | image _ | number _ _ => false

/-- What is left of a style: the base, and the other styles that have been applied. -/
def dropped (style previous : StyleMap) : List String :=
  (previous.entries.filter fun e ↦ (style.get? e.1).isNone).flatMap fun e ↦ properties e.1

/-- What a style writes. -/
def written (style : StyleMap) : List StyleOp :=
  (style.entries.filter fun e ↦ isSafeCssValue e.2).flatMap fun e ↦
    (properties e.1).map fun property ↦ .set property (cssText e.1 e.2)

theorem applyStyle_eq (style previous : StyleMap) :
    applyStyle style previous = (dropped style previous).map .remove ++ written style := by
  rw [applyStyle, dropped, written, List.map_flatMap]

section

variable (parse : String → CssText → Option V)

/-- What a write does to a property: `setProperty` with an empty text removes it, and does nothing
where the text is no value of the property, which `parse` tells. -/
def StyleOp.effect (property : String) : StyleOp → Option (Option V)
  | set p text =>
    if p ≠ property then none
    else if text.isEmpty then some none
    else (parse property text).map some
  | remove p => if p = property then some none else none

/-- A look, after writes. -/
def Look.apply (look : Look V) (ops : List StyleOp) : Look V := fun property ↦
  LastWrite.after (StyleOp.effect parse property) ops (look property)

/-- A widget on a page, and the look of its root. -/
structure Shown (V : Type) where
  shell : Shell
  look : Look V

namespace Shown

def new (w : Widget) : Shown V :=
  ⟨(Shell.new w).1, Look.apply parse (fun _ ↦ none) ((Shell.new w).2.map StyleWrite.op)⟩

def refresh (s : Shown V) (sample : Option PyFloat × String) : Shown V :=
  let (shell, writes) := s.shell.refresh sample.1 sample.2
  ⟨shell, s.look.apply parse (writes.map StyleWrite.op)⟩

def run (w : Widget) (samples : List (Option PyFloat × String)) : Shown V :=
  samples.foldl (refresh parse) (new parse w)

end Shown

/-- Two sequences with the same last value give the same look. -/
def DependsOnLast (w : Widget) : Prop :=
  ∀ samples last, (Shown.run parse w (samples ++ [last])).look = (Shown.run parse w [last]).look

/-- What a style gives a property: its last value that is accepted, or nothing for an empty
text. -/
def gives (style : StyleMap) (property : String) : Option (Option V) :=
  LastWrite.last (StyleOp.effect parse property) (written style)

/-- What a property holds when the base of a widget is written. -/
def baseLook (w : Widget) : Look V := fun property ↦ (gives parse (.of w.style) property).getD none

end

/-- The style of a widget for a value. -/
def styleOf (w : Widget) (sample : Option PyFloat × String) : StyleMap :=
  resolveStyle w.style (compileRules w.rules) ⟨sample.1, sample.2⟩

variable {parse : String → CssText → Option V} {w : Widget} {style previous : StyleMap}
  {property key : String}

/-! ## What is written on one property -/

theorem last_dropped : LastWrite.last (StyleOp.effect parse property)
    ((dropped style previous).map .remove) =
      if property ∈ dropped style previous then some none else none := by
  have heffect : ∀ op ∈ (dropped style previous).map StyleOp.remove,
      op.effect parse property = none ∨ op.effect parse property = some none := by
    intro op hop
    obtain ⟨p, -, rfl⟩ := List.mem_map.mp hop
    rw [StyleOp.effect]
    split
    · exact .inr rfl
    · exact .inl rfl
  split
  · rename_i hmem
    exact LastWrite.last_eq_some heffect
      ⟨.remove property, List.mem_map_of_mem hmem, if_pos rfl⟩
  · rename_i hmem
    refine LastWrite.last_eq_none_iff.mpr fun op hop ↦ ?_
    obtain ⟨p, hp, rfl⟩ := List.mem_map.mp hop
    rw [StyleOp.effect, if_neg]
    rintro rfl
    exact hmem hp

/-- **One style over another**: a property holds what the new style gives; otherwise it is removed,
if a key of the old style is gone, or left. -/
theorem apply_applyStyle (look : Look V) (style previous : StyleMap) (property : String) :
    look.apply parse (applyStyle style previous) property = (gives parse style property).getD
      (if property ∈ dropped style previous then none else look property) := by
  rw [Look.apply, LastWrite.after_eq, applyStyle_eq, LastWrite.last_append, last_dropped, gives]
  cases LastWrite.last (StyleOp.effect parse property) (written style) with
  | some value => rfl
  | none => split <;> rfl

theorem map_op_onRoot (w : Widget) (ops : List StyleOp) :
    (Shell.onRoot w ops).map StyleWrite.op = ops := by
  rw [Shell.onRoot, List.map_map]
  exact List.map_id ops

/-! ## The keys of a style -/

theorem isSome_get?_assign {other : Dict} (h : (style.get? key).isSome) :
    ((assign style other).get? key).isSome := by
  induction other generalizing style with
  | nil => exact h
  | cons e other ih =>
    refine ih ?_
    by_cases hkey : key = e.1
    · subst hkey
      rw [OrderedDict.get?_insert_self]
      rfl
    · rwa [OrderedDict.get?_insert_of_ne hkey]

theorem isSome_get?_resolveStyle {base : Dict} (rules : List CompiledRule)
    (vars : Expressions.ExprVars) (h : ((StyleMap.of base).get? key).isSome) :
    ((resolveStyle base rules vars).get? key).isSome := by
  rw [resolveStyle]
  generalize StyleMap.of base = style at h
  induction rules generalizing style with
  | nil => exact h
  | cons rule rules ih =>
    rw [List.foldl_cons]
    refine ih _ ?_
    split
    · exact isSome_get?_assign h
    · exact h

theorem dropped_base (w : Widget) (sample : Option PyFloat × String) :
    dropped (styleOf w sample) (.of w.style) = [] := by
  rw [dropped, List.filter_eq_nil_iff.mpr fun e he ↦ ?_]
  · rfl
  · have hbase : ((StyleMap.of w.style).get? e.1).isSome := by
      rw [OrderedDict.mem_entries_iff.mp he]
      rfl
    have hsome : ((styleOf w sample).get? e.1).isSome := isSome_get?_resolveStyle _ _ hbase
    rw [Option.isNone_iff_eq_none]
    exact Option.isSome_iff_ne_none.mp hsome

/-! ## Refreshes -/

/-- What a refresh leaves of the look before it. -/
def remains (parse : String → CssText → Option V) (w : Widget)
    (previous next : Option PyFloat × String) : Look V := fun property ↦
  if property ∈ dropped (styleOf w next) (styleOf w previous) then none
  else (gives parse (styleOf w previous) property).getD (baseLook parse w property)

/-- A value that another one follows leaves nothing where the style of the other one gives nothing:
the property then holds what the base gives. -/
def LeavesNothing (parse : String → CssText → Option V) (w : Widget) : Prop :=
  ∀ previous next property, gives parse (styleOf w next) property = none →
    remains parse w previous next property = baseLook parse w property

theorem look_new (w : Widget) : (Shown.new parse w).look = baseLook parse w := by
  funext property
  rw [Shown.new, Shell.new]
  dsimp only
  rw [map_op_onRoot, apply_applyStyle]
  rfl

theorem look_run_single (w : Widget) (last : Option PyFloat × String) (property : String) :
    (Shown.run parse w [last]).look property =
      (gives parse (styleOf w last) property).getD (baseLook parse w property) := by
  change ((Shown.new parse w).look.apply parse (List.map _ (Shell.onRoot _ _))) property = _
  rw [map_op_onRoot, apply_applyStyle, look_new]
  change (gives parse (styleOf w last) property).getD
    (if property ∈ dropped (styleOf w last) (.of w.style) then none else _) = _
  rw [dropped_base, if_neg List.not_mem_nil]

/-- The shell keeps its widget and its rules, and has applied the style of the last value. -/
theorem shell_run (parse : String → CssText → Option V) (w : Widget)
    (samples : List (Option PyFloat × String)) (last : Option PyFloat × String) :
    (Shown.run parse w (samples ++ [last])).shell = ⟨w, compileRules w.rules, styleOf w last⟩ := by
  have hshell : ∀ samples, (Shown.run parse w samples).shell.widget = w ∧
      (Shown.run parse w samples).shell.rules = compileRules w.rules := by
    intro samples
    induction samples using List.reverseRecOn with
    | nil => exact ⟨rfl, rfl⟩
    | append_singleton samples sample ih =>
      rw [Shown.run, List.foldl_append]
      exact ih
  obtain ⟨hwidget, hrules⟩ := hshell samples
  rw [Shown.run, List.foldl_append]
  change Shell.mk (Shown.run parse w samples).shell.widget (Shown.run parse w samples).shell.rules
    (resolveStyle (Shown.run parse w samples).shell.widget.style
      (Shown.run parse w samples).shell.rules ⟨last.1, last.2⟩) = _
  rw [hwidget, hrules]
  rfl

theorem look_run_concat (w : Widget) (samples : List (Option PyFloat × String))
    (previous next : Option PyFloat × String) (property : String) :
    (Shown.run parse w (samples ++ [previous] ++ [next])).look property =
      (gives parse (styleOf w next) property).getD
        (if property ∈ dropped (styleOf w next) (styleOf w previous) then none
          else (Shown.run parse w (samples ++ [previous])).look property) := by
  have hshell := shell_run parse w samples previous
  rw [Shown.run, List.foldl_append]
  change (Shown.refresh parse (Shown.run parse w (samples ++ [previous])) next).look property = _
  rw [Shown.refresh, hshell, Shell.refresh]
  dsimp only
  rw [map_op_onRoot, apply_applyStyle]
  rfl

/-- **When the look of a widget depends on its last value alone**: no value leaves anything where
the style of the next one gives nothing. -/
theorem dependsOnLast_iff (parse : String → CssText → Option V) (w : Widget) :
    DependsOnLast parse w ↔ LeavesNothing parse w := by
  constructor
  · intro h previous next property hnone
    have hlook := congrFun (h [previous] next) property
    rw [← List.nil_append [previous], look_run_concat, List.nil_append, look_run_single,
      look_run_single, hnone] at hlook
    exact hlook
  · intro h samples last
    induction samples using List.reverseRecOn generalizing last with
    | nil => rfl
    | append_singleton samples previous ih =>
      funext property
      rw [look_run_concat, ih previous, look_run_single, look_run_single]
      cases hgives : gives parse (styleOf w last) property with
      | some value => rfl
      | none => exact h previous last property hgives

/-! ## Styles without refused values -/

theorem exists_key_of_gives (h : gives parse style property ≠ none) :
    ∃ e ∈ style.entries, property ∈ properties e.1 := by
  by_contra hnone
  refine h (LastWrite.last_eq_none_iff.mpr fun op hop ↦ ?_)
  obtain ⟨e, he, hop⟩ := List.mem_flatMap.mp hop
  obtain ⟨p, hp, rfl⟩ := List.mem_map.mp hop
  rw [StyleOp.effect, if_pos]
  rintro rfl
  exact hnone ⟨e, List.mem_of_mem_filter he, hp⟩

/-- Every value of a style is safe, and a value of its properties. -/
def Accepted (parse : String → CssText → Option V) (style : StyleMap) : Prop :=
  ∀ e ∈ style.entries, isSafeCssValue e.2 = true ∧
    ∀ property ∈ properties e.1,
      (cssText e.1 e.2).isEmpty = true ∨ (parse property (cssText e.1 e.2)).isSome

theorem gives_ne_none (h : Accepted parse style) {e : String × Json} (he : e ∈ style.entries)
    (hproperty : property ∈ properties e.1) : gives parse style property ≠ none := by
  obtain ⟨hsafe, hparse⟩ := h e he
  intro hnone
  have hop : StyleOp.set property (cssText e.1 e.2) ∈ written style :=
    List.mem_flatMap.mpr ⟨e, List.mem_filter.mpr ⟨he, hsafe⟩, List.mem_map_of_mem hproperty⟩
  have heffect := LastWrite.last_eq_none_iff.mp hnone _ hop
  rw [StyleOp.effect, if_neg (not_not.mpr rfl)] at heffect
  split at heffect
  · exact Option.some_ne_none _ heffect
  · rename_i hempty
    have hsome := (hparse property hproperty).resolve_left hempty
    rw [Option.map_eq_none_iff.mp heffect] at hsome
    exact Bool.false_ne_true hsome

/-- **Where no value is refused, nothing is left.** -/
theorem leavesNothing_of_accepted (h : ∀ sample, Accepted parse (styleOf w sample)) :
    LeavesNothing parse w := by
  intro previous next property hnone
  -- the property has no key in the style of the next value, and none in the base
  have hnokey : ∀ e ∈ (styleOf w next).entries, property ∉ properties e.1 :=
    fun e he hproperty ↦ gives_ne_none (h next) he hproperty hnone
  have hgone : ∀ {style : StyleMap} {e : String × Json}, e ∈ style.entries →
      property ∈ properties e.1 → property ∈ dropped (styleOf w next) style := by
    intro style e he hproperty
    refine List.mem_flatMap.mpr ⟨e, List.mem_filter.mpr ⟨he, ?_⟩, hproperty⟩
    rw [Option.isNone_iff_eq_none, OrderedDict.get?_eq_none_iff]
    intro hkey
    obtain ⟨e', he', heq⟩ := List.mem_map.mp hkey
    exact hnokey e' he' (heq ▸ hproperty)
  have hbase : baseLook parse w property = none := by
    rw [baseLook]
    by_contra hsome
    have hgives : gives parse (.of w.style) property ≠ none := fun hnone ↦ by
      rw [hnone] at hsome
      exact hsome rfl
    obtain ⟨e, he, hproperty⟩ := exists_key_of_gives hgives
    have hdropped := hgone he hproperty
    rw [dropped_base] at hdropped
    exact List.not_mem_nil hdropped
  rw [remains, hbase]
  split
  · rfl
  · rename_i hkept
    have hgives : gives parse (styleOf w previous) property = none := by
      by_contra hsome
      obtain ⟨e, he, hproperty⟩ := exists_key_of_gives hsome
      exact hkept (hgone he hproperty)
    rw [hgives]
    rfl

/-! ## An alarm colour that stays -/

/-- A value whose colour is refused, and red when it is not zero. -/
def refusedBase : Widget where
  id := "w1"
  type := "value"
  bind := []
  extra := []
  x := .fin 0
  y := .fin 0
  w := .fin 160
  h := .fin 56
  style := [("color", .str "url(x)")]
  rules := [⟨"value", [("color", .str "red")]⟩]

/-- A page that takes every text as it is. -/
def textOf : CssText → String
  | .document text | .program text => text
  | .image url => url
  | .number _ unit => unit

/-- **The red of a value stays after the value is zero.** -/
theorem not_dependsOnLast : ¬∀ (parse : String → CssText → Option String) (w : Widget),
    DependsOnLast parse w := by
  intro h
  have hlook := congrFun (h (fun _ text ↦ some (textOf text)) refusedBase
    [(some (.fin 1), "ok")] (some (.fin 0), "ok")) "color"
  exact absurd hlook (by decide +kernel)

end Superviseur.Style
