import Superviseur.Collector.Acceptance

/-!
# Write bounds on what is sent

The writer compares the value of the command with the bounds of the point; the driver then encodes
it, and sends another number: one or zero for a binary, the integer part for a multi-state. The
bounds hold on the number sent exactly when the encoding keeps the value inside them, and when the
comparisons meant something in the first place: all of them are false on NaN.
-/

namespace Superviseur

namespace Writer

variable {env : WriterEnv} {command : Dict} {request : Request} {target : WriteTarget}
  {x : PyFloat} {q : ℚ}

/-! ## The number sent -/

/-- The number the controller is sent for a value, by type of object. -/
def sentNumber (objectType : String) (x : PyFloat) : Option PyFloat :=
  if isBinary objectType then some (if x.truthy then .fin 1 else .fin 0)
  else if isMultistate objectType then x.toInt.map fun n : ℤ ↦ .fin n
  else some x

theorem number_of_write (reply : PointRef → Payload → ℤ → Reply) (point : PointRef) (x : PyFloat)
    (priority : ℤ) :
    (BacnetDriver.write reply point (some x) priority).1.bind Payload.number =
      sentNumber point.objectType x := by
  unfold BacnetDriver.write BacnetDriver.encode sentNumber
  by_cases hb : isBinary point.objectType
  · rcases ht : x.truthy <;> simp [hb, ht, Payload.number]
  by_cases hm : isMultistate point.objectType
  · rcases hn : x.toInt with - | n <;> simp [hb, hm, hn, Payload.number]
  · simp [hb, hm, Payload.number]

theorem number_of_release (reply : PointRef → Payload → ℤ → Reply) (point : PointRef)
    (priority : ℤ) :
    (BacnetDriver.write reply point none priority).1.bind Payload.number = none := rfl

/-! ## Bounds on it -/

/-- `write_min <= n` and `n <= write_max`, for the bounds that are set. -/
def WithinBounds (target : WriteTarget) (n : PyFloat) : Prop :=
  (∀ m ∈ target.writeMin, m.le n = true) ∧ ∀ m ∈ target.writeMax, n.le m = true

/-- No bound is NaN. -/
def NumericBounds (target : WriteTarget) : Prop :=
  (∀ m ∈ target.writeMin, m ≠ .nan) ∧ ∀ m ∈ target.writeMax, m ≠ .nan

theorem WithinBounds.numeric {n : PyFloat} (h : WithinBounds target n) : NumericBounds target := by
  refine ⟨fun m hm hnan ↦ ?_, fun m hm hnan ↦ ?_⟩
  · simpa [hnan] using h.1 m hm
  · simpa [hnan] using h.2 m hm

/-- The checks decide the bounds of a number, if the bounds are numbers too. -/
theorem InBounds.within (h : InBounds target x) (hx : x ≠ .nan) (hb : NumericBounds target) :
    WithinBounds target x :=
  ⟨fun m hm ↦ (PyFloat.not_lt_iff_le hx (hb.1 m hm)).mp (h.1 m hm),
    fun m hm ↦ (PyFloat.not_lt_iff_le (hb.2 m hm) hx).mp (h.2 m hm)⟩

theorem fin_ne_nan : PyFloat.fin q ≠ .nan := nofun

/-- The encoding keeps a value that passed the checks inside the bounds.

* A binary is sent as one unless the value is zero, so one has to lie inside the bounds.
* A multi-state loses the fractional part: a non-negative value moves down, so the lower bound has
  to be met by its floor, and a negative one moves up. Nothing is sent for NaN and the infinities.
* Any other object is sent the value itself, which a bound does not stop if it is NaN.

A bound that is NaN stops nothing either. -/
def Transmissible (target : WriteTarget) (x : PyFloat) : Prop :=
  if isBinary target.ref.objectType then
    if x = .fin 0 then NumericBounds target else WithinBounds target (.fin 1)
  else if isMultistate target.ref.objectType then
    ∀ q, x = .fin q → NumericBounds target ∧
      (0 ≤ q → ∀ m ∈ target.writeMin, m.le (.fin ⌊q⌋) = true) ∧
      (q < 0 → ∀ m ∈ target.writeMax, PyFloat.le (.fin ⌈q⌉) m = true)
  else NumericBounds target ∧ (x = .nan → target.writeMin = none ∧ target.writeMax = none)

theorem transmissible_binary (hb : isBinary target.ref.objectType = true) (h : InBounds target x) :
    (∀ n ∈ sentNumber target.ref.objectType x, WithinBounds target n) ↔ Transmissible target x := by
  unfold sentNumber Transmissible
  by_cases hx : x = .fin 0
  · subst hx
    have hsent : PyFloat.truthy (.fin 0) = false := by simp [PyFloat.truthy]
    simp only [hb, hsent, if_true, Bool.false_eq_true, if_false, Option.mem_some_iff, forall_eq']
    exact ⟨WithinBounds.numeric, h.within fin_ne_nan⟩
  · have hsent : x.truthy = true := by simp [PyFloat.truthy, hx]
    simp [hb, hsent, hx]

/-- Truncation moves a non-negative number down, and a negative one up. -/
theorem withinBounds_trunc_iff (h : InBounds target (.fin q)) :
    WithinBounds target (.fin (PyFloat.truncRat q)) ↔
      NumericBounds target ∧ (0 ≤ q → ∀ m ∈ target.writeMin, m.le (.fin ⌊q⌋) = true) ∧
        (q < 0 → ∀ m ∈ target.writeMax, PyFloat.le (.fin ⌈q⌉) m = true) := by
  unfold PyFloat.truncRat
  constructor
  · intro hw
    refine ⟨hw.numeric, fun hq ↦ ?_, fun hq ↦ ?_⟩
    · rw [if_pos hq] at hw
      exact hw.1
    · rw [if_neg (not_le.mpr hq)] at hw
      exact hw.2
  · rintro ⟨hnum, hlow, hhigh⟩
    have hwithin := h.within fin_ne_nan hnum
    by_cases hq : 0 ≤ q
    · have hfloor : PyFloat.le (.fin ⌊q⌋) (.fin q) = true :=
        (PyFloat.le_fin _ _).mpr (Int.floor_le q)
      rw [if_pos hq]
      exact ⟨hlow hq, fun m hm ↦ PyFloat.le_trans hfloor (hwithin.2 m hm)⟩
    · have hceil : PyFloat.le (.fin q) (.fin ⌈q⌉) = true := (PyFloat.le_fin _ _).mpr (Int.le_ceil q)
      rw [if_neg hq]
      exact ⟨fun m hm ↦ PyFloat.le_trans (hwithin.1 m hm) hceil, hhigh (not_le.mp hq)⟩

theorem transmissible_multistate (hb : isBinary target.ref.objectType = false)
    (hm : isMultistate target.ref.objectType = true) (h : InBounds target x) :
    (∀ n ∈ sentNumber target.ref.objectType x, WithinBounds target n) ↔ Transmissible target x := by
  unfold sentNumber Transmissible
  simp only [hb, hm, Bool.false_eq_true, if_false, if_true]
  constructor
  · rintro hw q rfl
    exact (withinBounds_trunc_iff h).mp (hw _ rfl)
  · intro ht n hn
    obtain ⟨k, hk, rfl⟩ := Option.map_eq_some_iff.mp hn
    obtain ⟨q, rfl, rfl⟩ := PyFloat.toInt_eq_some_iff.mp hk
    exact (withinBounds_trunc_iff h).mpr (ht q rfl)

theorem transmissible_other (hb : isBinary target.ref.objectType = false)
    (hm : isMultistate target.ref.objectType = false) (h : InBounds target x) :
    (∀ n ∈ sentNumber target.ref.objectType x, WithinBounds target n) ↔ Transmissible target x := by
  unfold sentNumber Transmissible
  simp only [hb, hm, Bool.false_eq_true, if_false, Option.mem_some_iff, forall_eq']
  constructor
  · intro hw
    refine ⟨hw.numeric, ?_⟩
    rintro rfl
    -- no bound is met by NaN, so none is set
    refine ⟨Option.eq_none_iff_forall_not_mem.mpr fun m hmin ↦ ?_,
      Option.eq_none_iff_forall_not_mem.mpr fun m hmax ↦ ?_⟩
    · simpa using hw.1 m hmin
    · simpa using hw.2 m hmax
  · rintro ⟨hnum, hnan⟩
    by_cases hx : x = .nan
    · obtain ⟨hmin, hmax⟩ := hnan hx
      simp [WithinBounds, hmin, hmax]
    · exact h.within hx hnum

/-- On a value that passed the checks, the number sent is within the bounds exactly when the value
is transmissible. -/
theorem sentNumber_within_iff (h : InBounds target x) :
    (∀ n ∈ sentNumber target.ref.objectType x, WithinBounds target n) ↔ Transmissible target x := by
  rcases hb : isBinary target.ref.objectType with - | -
  · rcases hm : isMultistate target.ref.objectType with - | -
    · exact transmissible_other hb hm h
    · exact transmissible_multistate hb hm h
  · exact transmissible_binary hb h

/-! ## The bounds of a command -/

/-- The writer over the BACnet driver, on a network that answers by `reply`. -/
def overBacnet (env : WriterEnv) (reply : PointRef → Payload → ℤ → Reply) : WriterEnv :=
  { env with write := BacnetDriver.write reply }

/-- What the bounds of a point promise about a command: every number sent is within them, and a
command that does not reach the driver is refused. -/
structure BoundsKept (env : WriterEnv) (command : Dict) : Prop where
  sent : ∀ request target, readRequest env.texts command = .ok request →
    env.getWriteTarget request.pointId = .ok (some target) →
    ∀ call ∈ (EState.after (execute env command) .empty).calls,
      ∀ n ∈ call.sent.bind Payload.number, WithinBounds target n
  otherwise : (EState.after (execute env command) .empty).calls = [] →
    ∀ result w, execute env command .empty = .ok result w → result.ok = false

/-- **The bounds hold on what is sent exactly for transmissible values.** A command keeps the bounds
of its point if and only if it is refused, or carries no value, or carries one that the encoding
keeps inside them. -/
theorem write_bounds_kept_iff (env : WriterEnv) (reply : PointRef → Payload → ℤ → Reply)
    (command : Dict) :
    BoundsKept (overBacnet env reply) command ↔
      ∀ request target, Accepted (overBacnet env reply) command request target →
        ∀ x ∈ request.value, Transmissible target x := by
  constructor
  · intro hkept request target hacc x hx
    have hcall : driverCall (overBacnet env reply) request target ∈
        (EState.after (execute (overBacnet env reply) command) .empty).calls := by
      rw [calls_of_accepted hacc]
      exact List.mem_append_right _ (List.mem_singleton_self _)
    refine (sentNumber_within_iff (hacc.allowed.bounds x hx)).mp fun n hn ↦ ?_
    refine hkept.sent request target hacc.read hacc.found _ hcall n ?_
    rw [← number_of_write reply target.ref x request.priority, ← Option.mem_def.mp hx] at hn
    exact hn
  · intro htrans
    refine ⟨fun request target hread hfound call hcall n hn ↦ ?_, fun hcalls result w hrun ↦ ?_⟩
    · rcases accepted_or_not (overBacnet env reply) command with ⟨request', target', hacc⟩ | hnot
      · obtain rfl : request' = request := Except.ok.inj (hacc.read.symm.trans hread)
        obtain rfl : target' = target :=
          Option.some.inj (Except.ok.inj (hacc.found.symm.trans hfound))
        rw [calls_of_accepted hacc, WriterState.empty, List.nil_append, List.mem_singleton] at hcall
        subst hcall
        rcases hx : request'.value with - | x
        · rw [driverCall, hx] at hn
          rw [overBacnet, number_of_release] at hn
          simp at hn
        · refine (sentNumber_within_iff (hacc.allowed.bounds x hx)).mpr (htrans _ _ hacc x hx) n ?_
          rw [← number_of_write reply target'.ref x request'.priority, ← hx]
          exact hn
      · rw [(execute_of_not_accepted hnot .empty).1] at hcall
        simp [WriterState.empty] at hcall
    · rcases accepted_or_not (overBacnet env reply) command with ⟨request, target, hacc⟩ | hnot
      · rw [calls_of_accepted hacc] at hcalls
        simp [WriterState.empty] at hcalls
      · exact (execute_of_not_accepted hnot .empty).2 result w hrun

/-- NaN crosses no bound, so it is sent to a setpoint bounded to 0..100. -/
theorem nan_sent_past_bounds : ¬ BoundsKept setpointEnv (writeCommand .nan) := by
  intro hkept
  have hin : InBounds setpoint .nan := ⟨fun m _ ↦ PyFloat.nan_lt m, fun m _ ↦ PyFloat.lt_nan m⟩
  have hacc := accepted_writeCommand .nan hin setpointEnv.write setpointEnv.addAudit
  have hsent := hkept.sent _ _ hacc.read hacc.found (driverCall setpointEnv _ _)
    (by rw [calls_of_accepted hacc]; exact List.mem_singleton_self _) .nan rfl
  exact absurd (hsent.1 _ rfl) (by decide)

end Writer

end Superviseur
