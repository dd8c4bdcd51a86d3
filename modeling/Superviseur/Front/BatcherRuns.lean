import Mathlib.Algebra.Order.Group.Abs
import Mathlib.Tactic.Linarith
import Superviseur.Front.Batcher

/-!
# What the batcher delivers

Three invariants, kept by every step: a timer is armed as long as samples wait and no flush is in
progress (`Armed`); the flushes that deliver to one widget are `minIntervalMs` apart, by the clock
as they have read it (`Spaced`); and for each widget and each point, the samples delivered, the one
in hand and the one that waits are, in this order, some of those pushed, up to the last one
(`Kept`).

The loop of a flush keeps each of them from one widget to the next, by one rule for the loop
(`renderFrom_rule`). A batcher that is destroyed while it delivers goes on with its snapshot, so
nothing is said here of the deliveries that come after.
-/

namespace Superviseur.UpdateBatcher

variable {S : Type} {options : BatcherOptions S} {b : UpdateBatcher S} {w : String} {r : ℕ}
  {rest : List (String × ℕ)}

/-! ## The steps of a flush -/

theorem plan_eq (options : BatcherOptions S) (b : UpdateBatcher S) : ∃ cancel armed timers,
    b.plan options = { b with cancel := cancel, armed := armed, timers := timers } := by
  rw [plan]
  split
  · exact ⟨b.cancel, b.armed, b.timers, rfl⟩
  · exact ⟨_, _, _, rfl⟩

/-- The turn of a widget comes. -/
def turn (b : UpdateBatcher S) (now : ℚ) (w : String) : UpdateBatcher S :=
  { b with
    pending := b.pending.erase w
    lastRender := b.lastRender.insert w now }

/-- **Loop rule.** `I` holds between two turns, with the widgets that are left, and `J` in the turn
of a widget, before its first sample. -/
theorem renderFrom_rule {now : ℚ} {I : UpdateBatcher S → List (String × ℕ) → Prop}
    {J : UpdateBatcher S → String → ℕ → List (String × ℕ) → Prop} {Q : UpdateBatcher S → Prop}
    (hend : ∀ {b}, I b [] → Q ({ b with flushing := none }.plan options))
    (hskip : ∀ {b w r rest}, I b ((w, r) :: rest) → I b rest)
    (hturn : ∀ {b w r rest}, I b ((w, r) :: rest) → b.tooRecent options now w = false →
      J (b.turn now w) w r rest)
    (hempty : ∀ {b w r rest}, J b w r rest → (b.maps r).entries = [] → I b rest)
    (hdeliver : ∀ {b w r rest e}, J b w r rest → (b.maps r).entries[0]? = some e →
      Q (b.deliver ⟨now, w, r, 1, rest⟩ e.2))
    (h : I b rest) : Q (renderFrom options now b rest) := by
  induction rest generalizing b with
  | nil => exact hend h
  | cons e rest ih =>
    obtain ⟨w, r⟩ := e
    rw [renderFrom]
    split
    · exact ih (hskip h)
    · rename_i hrecent
      have hJ := hturn h (Bool.eq_false_iff.mpr hrecent)
      dsimp only
      split
      · rename_i hentries
        exact ih (hempty hJ hentries)
      · rename_i e es hentries
        exact hdeliver hJ (congrArg (fun entries ↦ entries[0]?) hentries)

/-! ## Timers -/

/-- Whatever is in progress, the timers are those the batcher knows of; a batcher that is destroyed
has none, and nothing waits. -/
structure Timed (b : UpdateBatcher S) : Prop where
  timers : b.timers.map Prod.fst = b.cancel.toList
  destroyed : b.destroyed = true → b.cancel = none ∧ b.pending.entries = []

/-- Between two steps, a timer is armed if samples wait and no flush is in progress. -/
structure Armed (b : UpdateBatcher S) : Prop extends Timed b where
  armed : b.flushing = none → b.pending.entries ≠ [] → b.cancel ≠ none

theorem Timed.plan (h : b.Timed) : (b.plan options).Armed := by
  rw [UpdateBatcher.plan]
  split
  · rename_i hor
    exact ⟨h, fun _ hne ↦ hor.resolve_right hne⟩
  · rename_i hnot
    rw [not_or, not_not] at hnot
    obtain ⟨hcancel, hne⟩ := hnot
    have htimers := h.timers
    rw [hcancel, Option.toList_none, List.map_eq_nil_iff] at htimers
    exact
      { timers := by rw [htimers]; rfl
        destroyed := fun hdestroyed ↦ absurd (h.destroyed hdestroyed).2 hne
        armed := fun _ _ ↦ Option.some_ne_none _ }

theorem erase_entries_eq_nil {d : OrderedDict String ℕ} (h : d.entries = []) :
    (d.erase w).entries = [] := by
  have herase : (d.erase w).entries = d.entries.filter fun e ↦ e.1 ≠ w := rfl
  rw [herase, h, List.filter_nil]

theorem Timed.renderFrom {now : ℚ} (h : b.Timed) :
    (UpdateBatcher.renderFrom options now b rest).Armed := by
  refine renderFrom_rule (I := fun b _ ↦ b.Timed) (J := fun b _ _ _ ↦ b.Timed) ?_ ?_ ?_ ?_ ?_ h
  · exact fun h ↦ Timed.plan { h with }
  · exact fun h ↦ h
  · intro b w r rest h _
    exact ⟨h.timers, fun hdestroyed ↦ (h.destroyed hdestroyed).imp_right erase_entries_eq_nil⟩
  · exact fun h _ ↦ h
  · exact fun h _ ↦ ⟨{ h with }, fun hnone ↦ absurd hnone (Option.some_ne_none _)⟩

theorem Armed.step (h : b.Armed) (label : BatcherLabel S) : (b.step options label).Armed := by
  cases label with
  | push w sample =>
    rw [UpdateBatcher.step, UpdateBatcher.push]
    dsimp only
    split
    · exact { h with }
    · rename_i hnot
      refine Timed.plan ?_
      rw [mapOf]
      dsimp only
      split <;> exact ⟨h.timers, fun hdestroyed ↦ absurd hdestroyed hnot⟩
  | destroy =>
    have htimers : (b.timers.filter fun timer ↦ some timer.1 ≠ b.cancel) = [] := by
      refine List.filter_eq_nil_iff.mpr fun timer htimer ↦ ?_
      have hid := List.mem_map_of_mem (f := Prod.fst) htimer
      rw [h.timers, Option.mem_toList] at hid
      simp [Option.mem_def.mp hid]
    exact
      { timers := by rw [UpdateBatcher.step, UpdateBatcher.destroy, htimers]; rfl
        destroyed := fun _ ↦ ⟨rfl, rfl⟩
        armed := fun _ hne ↦ absurd rfl hne }
  | tick now => exact { h with }
  | fires timer =>
    rw [UpdateBatcher.step]
    split
    · rename_i hfires
      have htimers : (b.timers.filter fun t ↦ t.1 ≠ timer) = [] := by
        refine List.filter_eq_nil_iff.mpr fun t ht ↦ ?_
        have hid := List.mem_map_of_mem (f := Prod.fst) ht
        have hfired := hfires.2
        rw [h.timers, Option.mem_toList] at hid hfired
        simp [Option.some.inj (hid.symm.trans hfired)]
      have htimed : Timed { b with
          timers := b.timers.filter fun t ↦ t.1 ≠ timer
          cancel := none } :=
        ⟨by rw [htimers]; rfl, fun hdestroyed ↦ ⟨rfl, (h.destroyed hdestroyed).2⟩⟩
      rw [UpdateBatcher.flush]
      dsimp only
      split
      · rename_i hdestroyed
        exact ⟨htimed, fun _ hne ↦ absurd (h.destroyed hdestroyed).2 hne⟩
      · exact Timed.renderFrom { htimed with }
    · exact h
  | returns =>
    rw [UpdateBatcher.step]
    split
    · rw [UpdateBatcher.resume]
      split
      · exact ⟨{ h.toTimed with }, fun hnone ↦ absurd hnone (Option.some_ne_none _)⟩
      · exact h.toTimed.renderFrom
    · exact h

/-! ## Flushes that deliver to one widget -/

/-- No widget was rendered after `now`, and two flushes that have delivered to one widget are apart
from each other. -/
structure Rendered (options : BatcherOptions S) (b : UpdateBatcher S) (now : ℚ) : Prop where
  le : ∀ {w last}, b.lastRender.get? w = some last → last ≤ now
  past : ∀ d ∈ b.delivered, ∃ last, b.lastRender.get? d.widget = some last ∧ d.now ≤ last
  apart : ∀ d ∈ b.delivered, ∀ d' ∈ b.delivered, d.widget = d'.widget → d.flush ≠ d'.flush →
    options.minIntervalMs ≤ |d.now - d'.now|

/-- The last flush delivers to a widget: those before it are apart from it. -/
structure Due (options : BatcherOptions S) (b : UpdateBatcher S) (now : ℚ) (w : String) : Prop where
  rendered : Rendered options b now
  le : now ≤ b.clock
  last : b.lastRender.get? w = some now
  before : ∀ d ∈ b.delivered, d.widget = w → d.flush ≠ b.flushes →
    options.minIntervalMs ≤ now - d.now

structure Spaced (options : BatcherOptions S) (b : UpdateBatcher S) : Prop where
  idle : b.flushing = none → Rendered options b b.clock
  due : ∀ f, b.flushing = some f → Due options b f.now f.widget

theorem Rendered.mono {now now' : ℚ} (h : Rendered options b now) (hle : now ≤ now') :
    Rendered options b now' :=
  { h with le := fun hlast ↦ (h.le hlast).trans hle }

theorem Rendered.turn {now : ℚ} (h : Rendered options b now) (hle : now ≤ b.clock)
    (hrecent : b.tooRecent options now w = false) : Due options (b.turn now w) now w := by
  have hlast : (b.turn now w).lastRender.get? w = some now := OrderedDict.get?_insert_self
  have hother {w' : String} (hne : w' ≠ w) :
      (b.turn now w).lastRender.get? w' = b.lastRender.get? w' := OrderedDict.get?_insert_of_ne hne
  refine ⟨⟨fun {w' last} hw' ↦ ?_, fun d hd ↦ ?_, h.apart⟩, hle, hlast, fun d hd hw _ ↦ ?_⟩
  · by_cases hne : w' = w
    · subst hne
      rw [hlast, Option.some.injEq] at hw'
      exact hw'.ge
    · rw [hother hne] at hw'
      exact h.le hw'
  · obtain ⟨last, hold, hd'⟩ := h.past d hd
    by_cases hne : d.widget = w
    · exact ⟨now, by rw [hne, hlast], hd'.trans (h.le hold)⟩
    · exact ⟨last, by rw [hother hne, hold], hd'⟩
  · obtain ⟨last, hold, hd'⟩ := h.past d hd
    rw [hw] at hold
    rw [tooRecent, hold] at hrecent
    have hapart : options.minIntervalMs ≤ now - last := not_lt.mp (of_decide_eq_false hrecent)
    linarith

theorem Due.deliver {f : Flush} {sample : S} (h : Due options b f.now f.widget) :
    Spaced options (b.deliver f sample) := by
  refine ⟨fun hnone ↦ absurd hnone (Option.some_ne_none _), fun f' hf' ↦ ?_⟩
  obtain rfl := Option.some.inj hf'
  have happend {d : Delivery S} (hd : d ∈ (b.deliver f sample).delivered) :
      d ∈ b.delivered ∨ d = ⟨f.widget, sample, b.flushes, f.now, b.clock⟩ :=
    (List.mem_append.mp hd).imp_right List.mem_singleton.mp
  refine ⟨⟨h.rendered.le, fun d hd ↦ ?_, fun d hd d' hd' hw hne ↦ ?_⟩, h.le, h.last,
    fun d hd hw hne ↦ ?_⟩
  · rcases happend hd with hd | rfl
    · exact h.rendered.past d hd
    · exact ⟨f.now, h.last, le_rfl⟩
  · rcases happend hd with hd | rfl <;> rcases happend hd' with hd' | rfl
    · exact h.rendered.apart d hd d' hd' hw hne
    · rw [abs_sub_comm]
      exact (h.before d hd hw hne).trans (le_abs_self _)
    · exact (h.before d' hd' hw.symm hne.symm).trans (le_abs_self _)
    · exact absurd rfl hne
  · rcases happend hd with hd | rfl
    · exact h.before d hd hw hne
    · exact absurd rfl hne

theorem Rendered.plan (h : Rendered options b b.clock) (hnone : b.flushing = none) :
    Spaced options (b.plan options) := by
  obtain ⟨cancel, armed, timers, hplan⟩ := plan_eq options b
  rw [hplan]
  exact ⟨fun _ ↦ { h with }, fun f hf ↦ absurd (hnone.symm.trans hf) (by simp)⟩

theorem Rendered.renderFrom {now : ℚ} (h : Rendered options b now) (hle : now ≤ b.clock) :
    Spaced options (UpdateBatcher.renderFrom options now b rest) := by
  refine renderFrom_rule (I := fun b _ ↦ Rendered options b now ∧ now ≤ b.clock)
    (J := fun b w _ _ ↦ Due options b now w) ?_ ?_ ?_ ?_ ?_ ⟨h, hle⟩
  · exact fun ⟨h, hle⟩ ↦ Rendered.plan { h.mono hle with } rfl
  · exact fun h ↦ h
  · exact fun ⟨h, hle⟩ hrecent ↦ h.turn hle hrecent
  · exact fun h _ ↦ ⟨h.rendered, h.le⟩
  · exact fun h _ ↦ h.deliver

theorem Spaced.of_eq {b' : UpdateBatcher S} (h : Spaced options b)
    (hrender : b'.lastRender = b.lastRender) (hdelivered : b'.delivered = b.delivered)
    (hclock : b.clock ≤ b'.clock) (hflushing : b'.flushing = b.flushing)
    (hflushes : b'.flushes = b.flushes) : Spaced options b' := by
  have hrendered {now : ℚ} (h : Rendered options b now) : Rendered options b' now := by
    constructor
    · rw [hrender]
      exact h.le
    · rw [hrender, hdelivered]
      exact h.past
    · rw [hdelivered]
      exact h.apart
  constructor
  · rw [hflushing]
    exact fun hnone ↦ (hrendered (h.idle hnone)).mono hclock
  · intro f hf
    rw [hflushing] at hf
    obtain ⟨hr, hle, hlast, hbefore⟩ := h.due f hf
    refine ⟨hrendered hr, hle.trans hclock, by rw [hrender, hlast], ?_⟩
    rw [hdelivered, hflushes]
    exact hbefore

theorem Spaced.step (h : Spaced options b) (label : BatcherLabel S) :
    Spaced options (b.step options label) := by
  cases label with
  | push w sample =>
    rw [UpdateBatcher.step, UpdateBatcher.push]
    dsimp only
    split
    · exact h.of_eq rfl rfl le_rfl rfl rfl
    · obtain ⟨cancel, armed, timers, hplan⟩ := plan_eq options _
      rw [hplan, mapOf]
      dsimp only
      split <;> exact h.of_eq rfl rfl le_rfl rfl rfl
  | destroy => exact h.of_eq rfl rfl le_rfl rfl rfl
  | tick now => exact h.of_eq rfl rfl (le_max_left _ _) rfl rfl
  | fires timer =>
    rw [UpdateBatcher.step]
    split
    · rename_i hfires
      have hidle := h.idle (Option.isNone_iff_eq_none.mp hfires.1)
      rw [UpdateBatcher.flush]
      dsimp only
      split
      · exact h.of_eq rfl rfl le_rfl rfl rfl
      · exact Rendered.renderFrom { hidle with } le_rfl
    · exact h
  | returns =>
    rw [UpdateBatcher.step]
    split
    · rename_i f hf
      have hdue := h.due f hf
      rw [UpdateBatcher.resume]
      split
      · exact Due.deliver (f := { f with next := f.next + 1 }) { hdue with }
      · exact hdue.rendered.renderFrom hdue.le
    · exact h

/-! ## Samples -/

/-- The samples delivered to a widget for a point, in order. -/
def deliveredTo (options : BatcherOptions S) (b : UpdateBatcher S) (w p : String) : List S :=
  (b.delivered.filter fun d ↦ d.widget = w ∧ options.point d.sample = p).map Delivery.sample

/-- The samples pushed to a widget for a point, in order. -/
def pushedTo (options : BatcherOptions S) (b : UpdateBatcher S) (w p : String) : List S :=
  (b.pushed.filter fun e ↦ e.1 = w ∧ options.point e.2 = p).map Prod.snd

/-- The map whose samples are to be delivered to a widget: `pending` has it, or the snapshot of a
flush in which the batcher was destroyed. -/
def held (b : UpdateBatcher S) (rest : List (String × ℕ)) (w : String) : Option ℕ :=
  (b.pending.get? w).or ((rest.find? fun e ↦ e.1 = w).map Prod.snd)

/-- The sample of a point that waits for a widget, if there is one. -/
def waiting (b : UpdateBatcher S) (rest : List (String × ℕ)) (w p : String) : List S :=
  ((b.held rest w).bind fun r ↦ (b.maps r).get? p).toList

/-- What is left of a map, for each point, while its widget is delivered to. -/
def inHand (b : UpdateBatcher S) (widget : String) (r next : ℕ) (w p : String) : List S :=
  if widget = w then
    (((b.maps r).entries.drop next).filter fun e ↦ e.1 = p).map Prod.snd
  else []

/-- Nothing is in hand. -/
def emptyHand (_ _ : String) : List S := []

/-- The maps that wait, and where the samples are: for each widget and each point, those delivered,
the one in hand and the one that waits are some of those pushed, up to the last one. -/
structure Kept (options : BatcherOptions S) (b : UpdateBatcher S) (hand : String → String → List S)
    (rest : List (String × ℕ)) : Prop where
  injective : ∀ {w w' r}, b.pending.get? w = some r → b.pending.get? w' = some r → w = w'
  fresh : ∀ {w r}, b.pending.get? w = some r → r < b.created
  points : ∀ {r p s}, (b.maps r).get? p = some s → options.point s = p
  nodup : (rest.map Prod.fst).Nodup
  old : ∀ e ∈ rest, e.2 < b.created
  /-- The snapshot has the maps of `pending`. -/
  shared : b.destroyed = false → ∀ e ∈ rest, b.pending.get? e.1 = some e.2
  cleared : b.destroyed = true → b.pending.entries = []
  sublist : ∀ w p, (b.deliveredTo options w p ++ (hand w p ++ b.waiting rest w p)).Sublist
    (b.pushedTo options w p)
  last : b.destroyed = false → ∀ w p,
    (b.deliveredTo options w p ++ (hand w p ++ b.waiting rest w p)).getLast? =
      (b.pushedTo options w p).getLast?

/-- In a flush, a map is in hand that no push can reach. -/
structure Handed (options : BatcherOptions S) (b : UpdateBatcher S) (widget : String) (r next : ℕ)
    (rest : List (String × ℕ)) : Prop where
  kept : Kept options b (b.inHand widget r next) rest
  old : r < b.created
  alone : ∀ w, b.pending.get? w ≠ some r

/-- Between two steps. -/
structure Whole (options : BatcherOptions S) (b : UpdateBatcher S) : Prop where
  idle : b.flushing = none → Kept options b emptyHand []
  handed : ∀ f, b.flushing = some f → Handed options b f.widget f.samples f.next f.rest

variable {hand hand' : String → String → List S} {p : String} {next : ℕ}

theorem get?_eq_none_of_entries {d : OrderedDict String ℕ} (h : d.entries = []) (w : String) :
    d.get? w = none := by
  rw [OrderedDict.get?, h]
  rfl

theorem held_eq (hshared : ∀ e ∈ rest, b.pending.get? e.1 = some e.2) (w : String) :
    b.held rest w = b.pending.get? w := by
  rw [held]
  cases hpending : b.pending.get? w with
  | some r => rfl
  | none =>
    rw [Option.none_or, Option.map_eq_none_iff, List.find?_eq_none]
    intro e he hw
    have hmap := hshared e he
    rw [of_decide_eq_true hw, hpending] at hmap
    exact absurd hmap (by simp)

/-! ### A flush -/

theorem inHand_of_none (widget : String) (h : (b.maps r).entries[next]? = none) :
    b.inHand widget r next = emptyHand := by
  funext w p
  rw [inHand, List.drop_eq_nil_of_le (List.getElem?_eq_none_iff.mp h)]
  exact ite_self _

theorem inHand_of_some {widget : String} {e : String × S}
    (hpoints : ∀ {r p s}, (b.maps r).get? p = some s → options.point s = p)
    (h : (b.maps r).entries[next]? = some e) (w p : String) :
    b.inHand widget r next w p =
      (if widget = w ∧ options.point e.2 = p then [e.2] else []) ++
        b.inHand widget r (next + 1) w p := by
  obtain ⟨hlt, hget⟩ := List.getElem?_eq_some_iff.mp h
  have hpoint : options.point e.2 = e.1 :=
    hpoints (OrderedDict.mem_entries_iff.mp (List.mem_of_getElem? h))
  rw [inHand, inHand, List.drop_eq_getElem_cons hlt, hget, hpoint]
  by_cases hw : widget = w
  · by_cases hp : e.1 = p <;> simp [hw, hp]
  · simp [hw]

theorem Kept.deliver {f : Flush} {sample : S} (h : Kept options b hand rest)
    (hhand : ∀ w p, hand w p =
      (if f.widget = w ∧ options.point sample = p then [sample] else []) ++ hand' w p) :
    Kept options (b.deliver f sample) hand' rest := by
  have hline (w p : String) : (b.deliver f sample).deliveredTo options w p ++
      (hand' w p ++ b.waiting rest w p) =
      b.deliveredTo options w p ++ (hand w p ++ b.waiting rest w p) := by
    rw [deliveredTo, UpdateBatcher.deliver, List.filter_append, List.map_append, hhand,
      ← deliveredTo, List.append_assoc, List.append_assoc]
    refine congrArg _ (congrArg (· ++ _) ?_)
    by_cases hd : f.widget = w ∧ options.point sample = p <;> simp [hd]
  exact
    { h with
      sublist := fun w p ↦ (hline w p).symm ▸ h.sublist w p
      last := fun hlive w p ↦ (hline w p).symm ▸ h.last hlive w p }

theorem find?_eq_none_of_nodup (h : (((w, r) :: rest).map Prod.fst).Nodup) :
    (rest.find? fun e ↦ e.1 = w) = none := by
  rw [List.map_cons, List.nodup_cons] at h
  refine List.find?_eq_none.mpr fun e he hw ↦ h.1 ?_
  have hmem := List.mem_map_of_mem (f := Prod.fst) he
  rwa [of_decide_eq_true hw] at hmem

theorem Kept.held_head (h : Kept options b hand ((w, r) :: rest)) :
    b.held ((w, r) :: rest) w = some r := by
  cases hlive : b.destroyed with
  | false => rw [held_eq (h.shared hlive), h.shared hlive _ (List.mem_cons_self ..)]
  | true =>
    have hfind : (((w, r) :: rest).find? fun e ↦ e.1 = w) = some (w, r) :=
      List.find?_cons_of_pos (by simp)
    rw [held, get?_eq_none_of_entries (h.cleared hlive), Option.none_or, hfind]
    rfl

theorem held_cons_of_ne {w' : String} (hne : w' ≠ w) :
    b.held ((w, r) :: rest) w' = b.held rest w' := by
  rw [held, held, List.find?_cons_of_neg (by simpa using hne.symm)]

/-- A widget that was rendered too recently is passed over: its samples wait on, unless the batcher
is destroyed. -/
theorem Kept.skip (h : Kept options b emptyHand ((w, r) :: rest)) :
    Kept options b emptyHand rest := by
  have hwaiting (w' p : String) :
      (b.waiting rest w' p).Sublist (b.waiting ((w, r) :: rest) w' p) := by
    by_cases hne : w' = w
    · subst hne
      cases hpending : b.pending.get? w' with
      | some r' => rw [waiting, waiting, held, held, hpending, Option.some_or, Option.some_or]
      | none =>
        rw [waiting, held, hpending, Option.none_or, find?_eq_none_of_nodup h.nodup]
        exact List.nil_sublist _
    · rw [waiting, waiting, held_cons_of_ne hne]
  exact
    { h with
      nodup := (List.nodup_cons.mp h.nodup).2
      old := fun e he ↦ h.old e (List.mem_cons_of_mem _ he)
      shared := fun hlive e he ↦ h.shared hlive e (List.mem_cons_of_mem _ he)
      sublist := fun w' p ↦
        (((hwaiting w' p).append_left _).append_left _).trans (h.sublist w' p)
      last := by
        intro hlive w' p
        have hlast := h.last hlive w' p
        rw [waiting, held_eq (h.shared hlive)] at hlast
        rw [waiting, held_eq fun e he ↦ h.shared hlive e (List.mem_cons_of_mem _ he)]
        exact hlast }

theorem Kept.turn {now : ℚ} (h : Kept options b emptyHand ((w, r) :: rest)) :
    Handed options (b.turn now w) w r 0 rest := by
  have hget {w' : String} (hne : w' ≠ w) :
      (b.turn now w).pending.get? w' = b.pending.get? w' := OrderedDict.get?_erase_of_ne hne
  have hself : (b.turn now w).pending.get? w = none := OrderedDict.get?_erase_self
  have hsub {w' : String} {r' : ℕ} (hr : (b.turn now w).pending.get? w' = some r') :
      w' ≠ w ∧ b.pending.get? w' = some r' := by
    by_cases hne : w' = w
    · rw [hne, hself] at hr
      exact absurd hr (by simp)
    · exact ⟨hne, (hget hne).symm.trans hr⟩
  have hline (w' p : String) : (b.turn now w).inHand w r 0 w' p ++
      (b.turn now w).waiting rest w' p = b.waiting ((w, r) :: rest) w' p := by
    by_cases hne : w' = w
    · -- What waited is in hand, and nothing waits any more.
      subst hne
      have hheld : (b.turn now w').held rest w' = none := by
        rw [held, hself, Option.none_or, find?_eq_none_of_nodup h.nodup]
        rfl
      rw [waiting, waiting, hheld, h.held_head, inHand, if_pos rfl, List.drop_zero,
        OrderedDict.filter_entries_eq, List.map_map]
      exact (List.append_nil _).trans (List.map_id _)
    · have hheld : (b.turn now w).held rest w' = b.held ((w, r) :: rest) w' := by
        rw [held_cons_of_ne hne, held, hget hne, held]
      rw [waiting, waiting, hheld, inHand, if_neg (Ne.symm hne)]
      rfl
  have hmem : ∀ e ∈ rest, e.1 ≠ w := by
    intro e he hw
    have hmem := List.mem_map_of_mem (f := Prod.fst) he
    rw [hw] at hmem
    exact (List.nodup_cons.mp h.nodup).1 hmem
  refine ⟨⟨?_, ?_, h.points, (List.nodup_cons.mp h.nodup).2, ?_, ?_, ?_, ?_, ?_⟩, ?_, ?_⟩
  · exact fun hw hw' ↦ h.injective (hsub hw).2 (hsub hw').2
  · exact fun hw ↦ h.fresh (hsub hw).2
  · exact fun e he ↦ h.old e (List.mem_cons_of_mem _ he)
  · intro hlive e he
    rw [hget (hmem e he)]
    exact h.shared hlive e (List.mem_cons_of_mem _ he)
  · exact fun hdestroyed ↦ erase_entries_eq_nil (h.cleared hdestroyed)
  · intro w' p
    rw [hline]
    exact h.sublist w' p
  · intro hlive w' p
    rw [hline]
    exact h.last hlive w' p
  · exact h.old (w, r) (List.mem_cons_self ..)
  · intro w' hw'
    obtain ⟨hne, hr⟩ := hsub hw'
    cases hlive : b.destroyed with
    | false => exact hne (h.injective hr (h.shared hlive _ (List.mem_cons_self ..)))
    | true =>
      rw [get?_eq_none_of_entries (h.cleared hlive)] at hr
      exact absurd hr (by simp)

theorem Handed.deliver {now : ℚ} {e : String × S} {f : Flush} (h : Handed options b w r next rest)
    (he : (b.maps r).entries[next]? = some e) (hf : f = ⟨now, w, r, next + 1, rest⟩) :
    Whole options (b.deliver f e.2) := by
  subst hf
  refine ⟨fun hnone ↦ absurd hnone (Option.some_ne_none _), fun f hf ↦ ?_⟩
  obtain rfl := Option.some.inj hf
  exact ⟨h.kept.deliver (inHand_of_some h.kept.points he), h.old, h.alone⟩

theorem Handed.done (h : Handed options b w r next rest)
    (hnone : (b.maps r).entries[next]? = none) : Kept options b emptyHand rest :=
  inHand_of_none w hnone ▸ h.kept

theorem Kept.renderFrom {now : ℚ} (h : Kept options b emptyHand rest) :
    Whole options (UpdateBatcher.renderFrom options now b rest) := by
  refine renderFrom_rule (I := fun b rest ↦ Kept options b emptyHand rest)
    (J := fun b w r rest ↦ Handed options b w r 0 rest) ?_ ?_ ?_ ?_ ?_ h
  · intro b h
    obtain ⟨cancel, armed, timers, hplan⟩ := plan_eq options { b with flushing := none }
    rw [hplan]
    exact ⟨fun _ ↦ { h with }, fun f hf ↦ absurd hf (by simp)⟩
  · exact fun h ↦ h.skip
  · exact fun h _ ↦ h.turn
  · exact fun h hentries ↦ h.done (by rw [hentries]; rfl)
  · exact fun h he ↦ h.deliver he rfl

theorem Kept.snapshot (h : Kept options b emptyHand []) (hlive : b.destroyed = false) :
    Kept options b emptyHand b.pending.entries := by
  have hshared : ∀ e ∈ b.pending.entries, b.pending.get? e.1 = some e.2 :=
    fun e he ↦ OrderedDict.mem_entries_iff.mp he
  have hwaiting (w p : String) : b.waiting b.pending.entries w p = b.waiting [] w p := by
    rw [waiting, waiting, held_eq hshared, held_eq (h.shared hlive)]
  exact
    { h with
      nodup := b.pending.nodup
      old := fun e he ↦ h.fresh (hshared e he)
      shared := fun _ ↦ hshared
      sublist := by
        intro w p
        rw [hwaiting]
        exact h.sublist w p
      last := by
        intro hlive w p
        rw [hwaiting]
        exact h.last hlive w p }

/-! ### A call between two deliveries -/

theorem Kept.destroy (h : Kept options b hand rest) : Kept options b.destroy hand rest := by
  have hnone (w : String) : b.destroy.pending.get? w = none := rfl
  have hwaiting (w p : String) : (b.destroy.waiting rest w p).Sublist (b.waiting rest w p) := by
    rw [waiting, waiting, held, hnone, Option.none_or]
    cases hfind : rest.find? fun e ↦ e.1 = w with
    | none => exact List.nil_sublist _
    | some e =>
      have hw : e.1 = w := by simpa using List.find?_some hfind
      have hheld : b.held rest w = some e.2 := by
        cases hlive : b.destroyed with
        | false =>
          rw [held_eq (h.shared hlive), ← hw, h.shared hlive e (List.mem_of_find?_eq_some hfind)]
        | true =>
          rw [held, get?_eq_none_of_entries (h.cleared hlive), hfind]
          rfl
      rw [hheld]
      exact List.Sublist.refl _
  exact
    { injective := fun hw ↦ absurd ((hnone _).symm.trans hw) (by simp)
      fresh := fun hw ↦ absurd ((hnone _).symm.trans hw) (by simp)
      points := h.points
      nodup := h.nodup
      old := h.old
      shared := fun hlive ↦ absurd hlive (by simp [UpdateBatcher.destroy])
      cleared := fun _ ↦ rfl
      sublist := fun w p ↦ (((hwaiting w p).append_left _).append_left _).trans (h.sublist w p)
      last := fun hlive ↦ absurd hlive (by simp [UpdateBatcher.destroy]) }

/-- A map out of reach is left as it is, and stays out of reach. -/
structure Spares (b b' : UpdateBatcher S) : Prop where
  created : b.created ≤ b'.created
  maps : ∀ r < b.created, (∀ w, b.pending.get? w ≠ some r) → b'.maps r = b.maps r
  alone : ∀ r < b.created, (∀ w, b.pending.get? w ≠ some r) → ∀ w, b'.pending.get? w ≠ some r

section Push

variable {s : S}

theorem Kept.mapOf (h : Kept options b hand rest) (hlive : b.destroyed = false) (w : String) :
    Kept options (b.mapOf w).1 hand rest ∧ Spares b (b.mapOf w).1 ∧
      (b.mapOf w).1.pending.get? w = some (b.mapOf w).2 := by
  rw [UpdateBatcher.mapOf]
  cases hw : b.pending.get? w with
  | some r => exact ⟨h, ⟨le_rfl, fun _ _ _ ↦ rfl, fun _ _ halone ↦ halone⟩, hw⟩
  | none =>
    dsimp only
    have hself : (b.pending.insert w b.created).get? w = some b.created :=
      OrderedDict.get?_insert_self
    have hget {w' : String} (hne : w' ≠ w) :
        (b.pending.insert w b.created).get? w' = b.pending.get? w' :=
      OrderedDict.get?_insert_of_ne hne
    have hmaps {r : ℕ} (hr : r < b.created) :
        Function.update b.maps b.created .empty r = b.maps r := Function.update_of_ne hr.ne _ _
    have hsub {w' : String} {r : ℕ} (hr : (b.pending.insert w b.created).get? w' = some r) :
        w' = w ∧ r = b.created ∨ w' ≠ w ∧ b.pending.get? w' = some r := by
      by_cases hne : w' = w
      · subst hne
        exact .inl ⟨rfl, (Option.some.inj (hself.symm.trans hr)).symm⟩
      · exact .inr ⟨hne, (hget hne).symm.trans hr⟩
    -- the widgets that are left to hand have a map already
    have hshared : ∀ e ∈ rest, (b.pending.insert w b.created).get? e.1 = some e.2 := by
      intro e he
      have hmap := h.shared hlive e he
      rw [hget, hmap]
      rintro rfl
      rw [hw] at hmap
      exact absurd hmap (by simp)
    -- the new map is empty: what waits for each point is the same
    have hwaiting (w' p : String) : waiting { b with
        pending := b.pending.insert w b.created
        maps := Function.update b.maps b.created .empty
        created := b.created + 1 } rest w' p = b.waiting rest w' p := by
      rw [waiting, waiting, held_eq hshared, held_eq (h.shared hlive)]
      by_cases hne : w' = w
      · subst hne
        rw [hself, hw, Option.bind_some]
        dsimp only
        rw [Function.update_self]
        rfl
      · rw [hget hne]
        cases hr : b.pending.get? w' with
        | none => rfl
        | some r =>
          rw [Option.bind_some, Option.bind_some]
          dsimp only
          rw [hmaps (h.fresh hr)]
    refine ⟨?_, ⟨Nat.le_succ _, fun r hr _ ↦ hmaps hr, fun r hr halone w' hw' ↦ ?_⟩, hself⟩
    · exact
        { injective := by
            intro w₁ w₂ r h₁ h₂
            rcases hsub h₁ with ⟨rfl, rfl⟩ | ⟨-, h₁'⟩ <;> rcases hsub h₂ with ⟨rfl, hr⟩ | ⟨-, h₂'⟩
            · rfl
            · exact absurd (h.fresh h₂') (lt_irrefl _)
            · exact absurd (hr ▸ h.fresh h₁') (lt_irrefl _)
            · exact h.injective h₁' h₂'
          fresh := by
            intro w' r hr
            rcases hsub hr with ⟨-, rfl⟩ | ⟨-, hr⟩
            · exact Nat.lt_succ_self _
            · exact Nat.lt_succ_of_lt (h.fresh hr)
          points := by
            intro r p s hs
            dsimp only at hs
            by_cases hr : r = b.created
            · rw [hr, Function.update_self] at hs
              exact absurd hs (by simp)
            · rw [Function.update_of_ne hr] at hs
              exact h.points hs
          nodup := h.nodup
          old := fun e he ↦ Nat.lt_succ_of_lt (h.old e he)
          shared := fun _ ↦ hshared
          cleared := fun hdestroyed ↦ absurd (hlive.symm.trans hdestroyed) (by simp)
          sublist := by
            intro w' p
            rw [hwaiting]
            exact h.sublist w' p
          last := by
            intro _ w' p
            rw [hwaiting]
            exact h.last hlive w' p }
    · rcases hsub hw' with ⟨-, rfl⟩ | ⟨-, hw'⟩
      · exact absurd hr (lt_irrefl _)
      · exact halone w' hw'

/-- The latest sample of a point waits, and the one it replaces is lost. -/
theorem Kept.store (h : Kept options b hand rest) (hlive : b.destroyed = false)
    (hw : b.pending.get? w = some r) : Kept options { b with
      pushed := b.pushed ++ [(w, s)]
      maps := Function.update b.maps r ((b.maps r).insert (options.point s) s) } hand rest := by
  have hpushed (w' p : String) : pushedTo options { b with
      pushed := b.pushed ++ [(w, s)]
      maps := Function.update b.maps r ((b.maps r).insert (options.point s) s) } w' p =
      b.pushedTo options w' p ++ if w = w' ∧ options.point s = p then [s] else [] := by
    rw [pushedTo, List.filter_append, List.map_append, ← pushedTo]
    by_cases hs : w = w' ∧ options.point s = p <;> simp [hs]
  have hwaiting (w' p : String) : waiting { b with
      pushed := b.pushed ++ [(w, s)]
      maps := Function.update b.maps r ((b.maps r).insert (options.point s) s) } rest w' p =
      if w = w' ∧ options.point s = p then [s] else b.waiting rest w' p := by
    have hheld := held_eq (h.shared hlive) w'
    rw [held] at hheld
    rw [waiting, waiting, held, held]
    dsimp only
    rw [hheld]
    by_cases hne : w = w'
    · subst hne
      rw [hw, Option.bind_some, Option.bind_some, Function.update_self]
      by_cases hp : options.point s = p
      · subst hp
        rw [OrderedDict.get?_insert_self, if_pos ⟨rfl, rfl⟩]
        rfl
      · rw [OrderedDict.get?_insert_of_ne (Ne.symm hp), if_neg fun hs ↦ hp hs.2]
    · rw [if_neg fun hs ↦ hne hs.1]
      cases hr : b.pending.get? w' with
      | none => rfl
      | some r' =>
        -- Another widget has another map.
        have hr' : r' ≠ r := fun heq ↦ hne (h.injective hw (heq ▸ hr))
        rw [Option.bind_some, Option.bind_some, Function.update_of_ne hr']
  have hbegun (w' p : String) : (b.deliveredTo options w' p ++ hand w' p).Sublist
      (b.pushedTo options w' p) := by
    refine List.Sublist.trans ?_ (h.sublist w' p)
    rw [← List.append_assoc]
    exact List.sublist_append_left _ _
  exact
    { injective := h.injective
      fresh := h.fresh
      points := by
        intro r' p s' hs'
        dsimp only at hs'
        by_cases hr : r' = r
        · rw [hr, Function.update_self] at hs'
          by_cases hp : p = options.point s
          · subst hp
            rw [OrderedDict.get?_insert_self, Option.some.injEq] at hs'
            rw [hs']
          · rw [OrderedDict.get?_insert_of_ne hp] at hs'
            exact h.points hs'
        · rw [Function.update_of_ne hr] at hs'
          exact h.points hs'
      nodup := h.nodup
      old := h.old
      shared := h.shared
      cleared := h.cleared
      sublist := by
        intro w' p
        rw [hpushed, hwaiting]
        split
        · rw [← List.append_assoc]
          exact (hbegun w' p).append (List.Sublist.refl [s])
        · rw [List.append_nil]
          exact h.sublist w' p
      last := by
        intro _ w' p
        rw [hpushed, hwaiting]
        split
        · rw [← List.append_assoc, List.getLast?_concat]
          exact List.getLast?_concat.symm
        · rw [List.append_nil]
          exact h.last hlive w' p }

theorem Kept.ignore (h : Kept options b hand rest) (hdestroyed : b.destroyed = true) (w : String)
    (s : S) : Kept options { b with pushed := b.pushed ++ [(w, s)] } hand rest :=
  { h with
    sublist := by
      intro w' p
      refine (h.sublist w' p).trans ?_
      rw [pushedTo, pushedTo, List.filter_append, List.map_append]
      exact List.sublist_append_left _ _
    last := fun hlive ↦ absurd (hdestroyed.symm.trans hlive) (by simp) }

theorem mapOf_pushed (b : UpdateBatcher S) (w : String) (pushed : List (String × S)) :
    mapOf { b with pushed := pushed } w =
      ({ (b.mapOf w).1 with pushed := pushed }, (b.mapOf w).2) := by
  rw [mapOf, mapOf]
  dsimp only
  split <;> rfl

theorem Kept.push (h : Kept options b hand rest) (w : String) (s : S) :
    Kept options (b.push options w s) hand rest ∧ Spares b (b.push options w s) := by
  rw [UpdateBatcher.push]
  dsimp only
  split
  · rename_i hdestroyed
    exact ⟨h.ignore hdestroyed w s, ⟨le_rfl, fun _ _ _ ↦ rfl, fun _ _ halone ↦ halone⟩⟩
  · rename_i hlive
    rw [Bool.not_eq_true] at hlive
    obtain ⟨hkept, hspares, hw⟩ := h.mapOf hlive w
    have hdestroyed : (b.mapOf w).1.destroyed = false := by
      rw [UpdateBatcher.mapOf]
      split <;> exact hlive
    have hpushed : (b.mapOf w).1.pushed = b.pushed := by
      rw [UpdateBatcher.mapOf]
      split <;> rfl
    rw [mapOf_pushed, ← hpushed]
    obtain ⟨cancel, armed, timers, hplan⟩ := plan_eq options _
    rw [hplan]
    refine ⟨{ hkept.store hdestroyed hw (s := s) with }, hspares.created, fun r hr halone ↦ ?_,
      hspares.alone⟩
    have hne : r ≠ (b.mapOf w).2 := fun heq ↦ hspares.alone r hr halone w (heq ▸ hw)
    exact (Function.update_of_ne hne _ _).trans (hspares.maps r hr halone)

theorem flushing_push (options : BatcherOptions S) (b : UpdateBatcher S) (w : String) (s : S) :
    (b.push options w s).flushing = b.flushing := by
  rw [UpdateBatcher.push]
  dsimp only
  split
  · rfl
  · obtain ⟨cancel, armed, timers, hplan⟩ := plan_eq options _
    rw [hplan, mapOf]
    dsimp only
    split <;> rfl

theorem Handed.push {widget : String} (h : Handed options b widget r next rest) (w : String)
    (s : S) : Handed options (b.push options w s) widget r next rest := by
  obtain ⟨hkept, hspares⟩ := h.kept.push w s
  have hhand : (b.push options w s).inHand widget r next = b.inHand widget r next := by
    funext w' p
    rw [inHand, inHand, hspares.maps r h.old h.alone]
  exact ⟨hhand ▸ hkept, h.old.trans_le hspares.created, hspares.alone r h.old h.alone⟩

end Push

theorem Whole.step (h : Whole options b) (label : BatcherLabel S) :
    Whole options (b.step options label) := by
  cases label with
  | push w s =>
    have hflushing := flushing_push options b w s
    refine ⟨fun hnone ↦ ?_, fun f hf ↦ ?_⟩
    · exact ((h.idle (hflushing.symm.trans hnone)).push w s).1
    · exact (h.handed f (hflushing.symm.trans hf)).push w s
  | destroy =>
    refine ⟨fun hnone ↦ (h.idle hnone).destroy, fun f hf ↦ ?_⟩
    obtain ⟨hkept, hold, -⟩ := h.handed f hf
    exact ⟨hkept.destroy, hold, fun w hw ↦ absurd hw (by simp [UpdateBatcher.step,
      UpdateBatcher.destroy])⟩
  | tick now =>
    refine ⟨fun hnone ↦ { h.idle hnone with }, fun f hf ↦ ?_⟩
    obtain ⟨hkept, hold, halone⟩ := h.handed f hf
    exact ⟨{ hkept with }, hold, halone⟩
  | fires timer =>
    rw [UpdateBatcher.step]
    split
    · rename_i hfires
      have hidle := h.idle (Option.isNone_iff_eq_none.mp hfires.1)
      rw [UpdateBatcher.flush]
      dsimp only
      split
      · refine ⟨fun _ ↦ { hidle with }, fun f hf ↦ ?_⟩
        have hnone := Option.isNone_iff_eq_none.mp hfires.1
        -- no flush is under way
        exact absurd (hnone.symm.trans hf) (by simp)
      · rename_i hlive
        have hsnapshot := hidle.snapshot (Bool.not_eq_true _ ▸ hlive)
        exact Kept.renderFrom { hsnapshot with }
    · exact h
  | returns =>
    rw [UpdateBatcher.step]
    split
    · rename_i f hf
      have hhanded := h.handed f hf
      rw [UpdateBatcher.resume]
      split
      · rename_i e he
        exact hhanded.deliver (f := { f with next := f.next + 1 }) he rfl
      · rename_i hnone
        exact (hhanded.done hnone).renderFrom
    · exact h

/-! ## Runs -/

/-- A batcher on which nothing has happened. -/
def new (clock : ℚ) : UpdateBatcher S := { clock := clock }

theorem armed_new (clock : ℚ) : (new clock : UpdateBatcher S).Armed where
  timers := rfl
  destroyed := fun h ↦ absurd h (by simp [new])
  armed := fun _ hne ↦ absurd rfl hne

theorem spaced_new (options : BatcherOptions S) (clock : ℚ) : Spaced options (new clock) where
  idle := fun _ ↦ ⟨fun h ↦ absurd h (by simp [new]), fun d hd ↦ absurd hd List.not_mem_nil,
    fun d hd ↦ absurd hd List.not_mem_nil⟩
  due := fun f hf ↦ absurd hf (by simp [new])

theorem whole_new (options : BatcherOptions S) (clock : ℚ) : Whole options (new clock) where
  idle := fun _ ↦
    { injective := fun h ↦ absurd h (by simp [new])
      fresh := fun h ↦ absurd h (by simp [new])
      points := fun h ↦ absurd h (by simp [new])
      nodup := List.nodup_nil
      old := fun e he ↦ absurd he List.not_mem_nil
      shared := fun _ e he ↦ absurd he List.not_mem_nil
      cleared := fun _ ↦ rfl
      sublist := fun w p ↦ List.nil_sublist _
      last := fun _ w p ↦ rfl }
  handed := fun f hf ↦ absurd hf (by simp [new])

theorem run_induction (options : BatcherOptions S) {P : UpdateBatcher S → Prop}
    (hstep : ∀ {b}, P b → ∀ label, P (b.step options label)) (h : P b)
    (labels : List (BatcherLabel S)) : P (b.run options labels) := by
  rw [run]
  induction labels generalizing b with
  | nil => exact h
  | cons label labels ih => exact ih (hstep h label)

/-- A batcher that was destroyed outside of a flush. -/
def Dead (delivered : List (Delivery S)) (b : UpdateBatcher S) : Prop :=
  b.destroyed = true ∧ b.flushing = none ∧ b.delivered = delivered

theorem Dead.step {delivered : List (Delivery S)} (h : Dead delivered b)
    (label : BatcherLabel S) : Dead delivered (b.step options label) := by
  obtain ⟨hdestroyed, hnone, hdelivered⟩ := h
  cases label with
  | push w s =>
    rw [UpdateBatcher.step, UpdateBatcher.push]
    dsimp only
    rw [if_pos hdestroyed]
    exact ⟨hdestroyed, hnone, hdelivered⟩
  | destroy => exact ⟨rfl, hnone, hdelivered⟩
  | tick now => exact ⟨hdestroyed, hnone, hdelivered⟩
  | fires timer =>
    rw [UpdateBatcher.step]
    split
    · rw [UpdateBatcher.flush]
      dsimp only
      rw [if_pos hdestroyed]
      exact ⟨hdestroyed, hnone, hdelivered⟩
    · exact ⟨hdestroyed, hnone, hdelivered⟩
  | returns =>
    rw [UpdateBatcher.step, hnone]
    exact ⟨hdestroyed, hnone, hdelivered⟩

/-- **What the batcher delivers**, whatever is pushed, when the timers fire, and however the clock
moves on. While samples wait and no flush is in progress exactly one timer is armed; two flushes
that deliver to one widget are `minIntervalMs` apart, by the clock as they have read it; after
`destroy`, outside of a flush, nothing is delivered; each sample is delivered once at most, in the
order of the pushes; and once no timer is left, and no flush is in progress, the last sample
delivered to a widget for a point is the last one pushed, unless the batcher is destroyed. -/
theorem batched (options : BatcherOptions S) (clock : ℚ) (labels : List (BatcherLabel S)) :
    let b := (new clock).run options labels
    (b.pending.entries ≠ [] → b.destroyed = false → b.flushing = none → b.timers.length = 1) ∧
      (∀ d ∈ b.delivered, ∀ d' ∈ b.delivered, d.widget = d'.widget → d.flush ≠ d'.flush →
        options.minIntervalMs ≤ |d.now - d'.now|) ∧
      (b.flushing = none → ∀ later, (b.destroy.run options later).delivered = b.delivered) ∧
      (∀ w p, (b.deliveredTo options w p).Sublist (b.pushedTo options w p)) ∧
      (b.timers = [] → b.destroyed = false → b.flushing = none → ∀ w p,
        (b.deliveredTo options w p).getLast? = (b.pushedTo options w p).getLast?) := by
  have harmed := run_induction options Armed.step (armed_new clock) labels
  have hspaced := run_induction options Spaced.step (spaced_new options clock) labels
  have hwhole := run_induction options Whole.step (whole_new options clock) labels
  generalize (new clock).run options labels = b at harmed hspaced hwhole
  refine ⟨fun hne hlive hnone ↦ ?_, ?_, fun hnone later ↦ ?_, fun w p ↦ ?_,
    fun htimers hlive hnone w p ↦ ?_⟩
  · -- the timer armed is the one that can be cancelled
    obtain ⟨timer, htimer⟩ := Option.ne_none_iff_exists'.mp (harmed.armed hnone hne)
    have hlength := congrArg List.length harmed.timers
    rw [List.length_map, htimer] at hlength
    exact hlength
  · cases hflushing : b.flushing with
    | none => exact (hspaced.idle hflushing).apart
    | some f => exact (hspaced.due f hflushing).rendered.apart
  · have hdead : Dead b.delivered b.destroy := ⟨rfl, hnone, rfl⟩
    exact (run_induction options Dead.step hdead later).2.2
  · have hsublist : ∃ hand rest, Kept options b hand rest := by
      cases hflushing : b.flushing with
      | none => exact ⟨_, _, hwhole.idle hflushing⟩
      | some f => exact ⟨_, _, (hwhole.handed f hflushing).kept⟩
    obtain ⟨hand, rest, hkept⟩ := hsublist
    exact (List.sublist_append_left _ _).trans (hkept.sublist w p)
  · -- without a timer nothing waits
    have hcancel : b.cancel = none := by
      have htoList := harmed.timers
      rw [htimers] at htoList
      exact Option.toList_eq_nil_iff.mp htoList.symm
    have hpending : b.pending.entries = [] := by
      by_contra hne
      exact harmed.armed hnone hne hcancel
    have hwaiting : b.waiting [] w p = [] := by
      rw [waiting, held, get?_eq_none_of_entries hpending]
      rfl
    have hlast := (hwhole.idle hnone).last hlive w p
    rw [hwaiting] at hlast
    exact (congrArg List.getLast? (List.append_nil _)).symm.trans hlast

/-- Readings, as samples. -/
def readings : BatcherOptions (String × ℕ) := ⟨Prod.fst, 100⟩

/-- A batcher that is destroyed while it delivers still delivers to the widgets that come after; one
that is destroyed while a sample waits has no timer left, and has lost the sample; and where the
calls of `deliver` take time, two of them for one widget may follow each other more closely than
their flushes. -/
theorem not_batched :
    (¬ ∀ labels later : List (BatcherLabel (String × ℕ)),
      (((new 0).run readings labels).destroy.run readings later).delivered =
        ((new 0).run readings labels).delivered) ∧
    (¬ ∀ labels, ((new 0).run readings labels).timers = [] → ∀ w p,
      (((new 0).run readings labels).deliveredTo readings w p).getLast? =
        (((new 0).run readings labels).pushedTo readings w p).getLast?) ∧
    ¬ ∀ labels, ∀ d ∈ ((new 0).run readings labels).delivered,
      ∀ d' ∈ ((new 0).run readings labels).delivered, d.widget = d'.widget → d.flush ≠ d'.flush →
        readings.minIntervalMs ≤ |d.clock - d'.clock| := by
  refine ⟨fun h ↦ ?_, fun h ↦ ?_, fun h ↦ ?_⟩
  · have hlength := congrArg List.length
      (h [.push "w1" ("p", 1), .push "w2" ("p", 1), .fires 0] [.returns])
    exact absurd hlength (by decide)
  · have hlast := h [.push "w1" ("p", 1), .destroy] (by decide) "w1" "p"
    exact absurd hlast (by decide)
  · exact absurd (h [.push "w1" ("p", 1), .push "w2" ("p", 1), .fires 0, .tick 60, .returns,
      .returns, .push "w2" ("p", 2), .tick 100, .fires 1]) (by decide +kernel)

/-- A sample pushed during a delivery reaches the flush in progress, in its place, if its widget is
still to come. -/
example : ((new 0).run readings [.push "w1" ("p", 1), .push "w2" ("p", 1), .fires 0,
    .push "w2" ("p", 2), .returns, .returns]).delivered.map (fun d ↦ (d.widget, d.sample.2)) =
      [("w1", 1), ("w2", 2)] := by
  decide

end Superviseur.UpdateBatcher
