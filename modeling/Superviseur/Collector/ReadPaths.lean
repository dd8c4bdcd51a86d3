import Mathlib.Data.Finset.Insert
import Superviseur.Collector.Cov
import Superviseur.Collector.Normalizer
import Superviseur.Library.EState
import Superviseur.Library.Groups
import Superviseur.Library.OrderedDict

/-!
# Reading the points of a device

`BacnetDriver.read` asks a device for the present values and the status flags of its points, all in
one request where the device supports ReadPropertyMultiple, else property by property. A device
that refuses the one request is remembered, and read property by property in the same call. What
the BACnet stack answers is a parameter; where it answers from the same device, both ways give the
same readings.
-/

namespace Superviseur

/-- An object of a device: its type and its number. -/
abbrev ObjectKey := String × ℤ

/-- `f"{object_type},{number}"`. -/
def objectText (key : ObjectKey) : String := key.1 ++ "," ++ toString key.2

/-- The error a device reports for a property. -/
structure ErrorType where
  errorClass : String
  errorCode : String
  deriving DecidableEq

/-- `ErrorRejectAbortNack`: the answers to a request that are no acknowledgement. -/
inductive Nack where
  | error (error : ErrorType)
  | reject (reason : String)
  /-- The stack itself aborts an exchange that gets no answer, with the reason `no-response`. -/
  | abort (reason : String)

/-- How an exchange ends without a value. -/
inductive Unanswered where
  /-- The deadline of the exchange has passed. -/
  | timeout
  | nack (nack : Nack)

/-- One result of ReadPropertyMultiple. -/
structure PropertyResult where
  objid : ObjectKey
  prop : String
  index : Option ℕ
  value : Except ErrorType Raw

/-- The two services of the BACnet stack, by the address of the device and the texts of the
objects. -/
structure Stack where
  readProperty : (address objid prop : String) → Except Unanswered Raw
  readPropertyMultiple : (address : String) → (parameters : List (String × List String)) →
    Except Unanswered (List PropertyResult)

/-- `_convert_error`. -/
def convertError : Nack → DriverError
  | .error _ => .requestRejected "error"
  | .reject _ => .requestRejected "reject"
  | .abort reason =>
    if reason = "no-response" then .deviceUnreachable else .requestRejected "abort"

/-- `_call`: what the exchange gives, or the exception of the driver. -/
def exchange {α : Type} : Except Unanswered α → Except DriverError α
  | .ok a => .ok a
  | .error .timeout => .error .deviceUnreachable
  | .error (.nack nack) => .error (convertError nack)

/-- The properties found, by object. -/
abbrev FoundProps := OrderedDict ObjectKey (OrderedDict String Raw)

namespace FoundProps

/-- `found.setdefault(key, {})[prop] = value`. -/
def put (found : FoundProps) (key : ObjectKey) (prop : String) (value : Raw) : FoundProps :=
  found.insert key (((found.get? key).getD .empty).insert prop value)

/-- `found[key][prop]`, where there is such a property. -/
def value? (found : FoundProps) (key : ObjectKey) (prop : String) : Option Raw :=
  (found.get? key).bind fun props ↦ props.get? prop

end FoundProps

/-- `_LIVE_PROPS`. -/
def liveProps : List String := ["present-value", "status-flags"]

/-- What ends a `read`. -/
inductive ReadError where
  | driver (exc : DriverError)
  | overflow
  deriving DecidableEq

namespace BacnetDriver

/-- The properties a request asks for, object by object. -/
def requested (wanted : OrderedDict ObjectKey (List String)) : List (ObjectKey × String) :=
  wanted.entries.flatMap fun e ↦ e.2.map fun prop ↦ (e.1, prop)

/-- The dictionary `_read_multiple` makes of the results; an error is a property the object does not
have. -/
def collect : List PropertyResult → FoundProps → FoundProps
  | [], found => found
  | result :: results, found =>
    match result.value with
    | .error _ => collect results found
    | .ok value => collect results (found.put result.objid result.prop value)

/-- `_read_multiple`. -/
def readMultiple (stack : Stack) (address : String) (wanted : OrderedDict ObjectKey (List String)) :
    Except DriverError FoundProps :=
  let parameters := wanted.entries.map fun e ↦ (objectText e.1, e.2)
  (exchange (stack.readPropertyMultiple address parameters)).map fun results ↦
    collect results .empty

/-- The loops of `_read_each`, from the properties found so far. -/
def readFrom (stack : Stack) (address : String) :
    List (ObjectKey × String) → FoundProps → Except DriverError FoundProps
  | [], found => .ok found
  | (key, prop) :: rest, found =>
    match exchange (stack.readProperty address (objectText key) prop) with
    | .ok value => readFrom stack address rest (found.put key prop value)
    -- Absent or refused: on to the next property.
    | .error (.requestRejected _) => readFrom stack address rest found
    | .error exc => .error exc

/-- `_read_each`. -/
def readEach (stack : Stack) (address : String) (wanted : OrderedDict ObjectKey (List String)) :
    Except DriverError FoundProps :=
  readFrom stack address (requested wanted) .empty

/-- `_read_many`; the state is `_rpm_unsupported`. -/
def readMany (stack : Stack) (device : ℤ) (address : String)
    (wanted : OrderedDict ObjectKey (List String)) : EStateM DriverError (Finset ℤ) FoundProps := do
  if device ∈ (← get) then
    EState.call (readEach stack address wanted)
  else
    match readMultiple stack address wanted with
    | .ok found => pure found
    | .error (.requestRejected kind) =>
      if kind ≠ "reject" ∧ kind ≠ "abort" then
        throw (.requestRejected kind)
      else
        modify (insert device)
        EState.call (readEach stack address wanted)
    | .error exc => throw exc

/-- The points by device, in the order in which the devices come. -/
def byDevice (points : List PointRef) : Groups ℤ PointRef :=
  points.foldl (fun m point ↦ m.update point.deviceInstance (· ++ [point])) []

/-- The live properties of the objects of the points. -/
def wanted (refs : List PointRef) : OrderedDict ObjectKey (List String) :=
  refs.foldl (fun d ref ↦ d.insert (ref.objectType, ref.objectInstance) liveProps) .empty

/-- The reading of a point; `none` where `float` raises. -/
def reading (env : TextNumbers) (now : Instant) (found : FoundProps) (ref : PointRef) :
    Option Reading :=
  match found.value? (ref.objectType, ref.objectInstance) "present-value" with
  | none => some { pointId := ref.pointId, ts := now, value := none, status := .fault }
  | some raw =>
    buildReading env ref.pointId raw
      (flags (found.value? (ref.objectType, ref.objectInstance) "status-flags")) now

/-- `read`, device by device; `clock` shows when the properties of a device have been read. -/
def readDevices (env : TextNumbers) (stack : Stack) (clock : ℤ → Instant) :
    Groups ℤ PointRef → EStateM ReadError (Finset ℤ) (List Reading)
  | [] => pure []
  -- There is no device without a point.
  | (_, []) :: rest => readDevices env stack clock rest
  | (device, first :: others) :: rest => do
    let refs := first :: others
    let found ← (readMany stack device first.address (wanted refs)).adaptExcept .driver
    match refs.mapM (reading env (clock device) found) with
    | none => throw .overflow
    | some readings =>
      let later ← readDevices env stack clock rest
      pure (readings ++ later)

/-- `read`. -/
def read (env : TextNumbers) (stack : Stack) (clock : ℤ → Instant) (points : List PointRef) :
    EStateM ReadError (Finset ℤ) (List Reading) :=
  readDevices env stack clock (byDevice points)

end BacnetDriver

/-! ## The device behind the answers -/

/-- What a device holds: a value or an error for each property of each object. -/
abbrev Device := ObjectKey → String → Except ErrorType Raw

/-- The answers that refuse a request; the abort of an exchange without an answer does not. -/
def Nack.Refusal : Nack → Prop
  | error _ => False
  | reject _ => True
  | abort reason => reason ≠ "no-response"

/-- The stack answers a request for many properties from the device: one result for each property,
in some order, or a refusal of the request. -/
def AnswersMultiple (stack : Stack) (device : Device) (address : String)
    (wanted : OrderedDict ObjectKey (List String)) : Prop :=
  (∃ results,
    stack.readPropertyMultiple address (wanted.entries.map fun e ↦ (objectText e.1, e.2)) =
      .ok results ∧
    results.Perm ((BacnetDriver.requested wanted).map fun asked ↦
      ⟨asked.1, asked.2, none, device asked.1 asked.2⟩)) ∨
  ∃ nack,
    stack.readPropertyMultiple address (wanted.entries.map fun e ↦ (objectText e.1, e.2)) =
      .error (.nack nack) ∧ nack.Refusal

namespace FoundProps

variable {device : Device} {found : FoundProps} {key other : ObjectKey} {prop name : String}
  {value : Raw} {asked : List (ObjectKey × String)}

theorem value?_put : (found.put key prop value).value? other name =
    if other = key ∧ name = prop then some value else found.value? other name := by
  rw [value?, put]
  by_cases hkey : other = key
  · subst hkey
    rw [OrderedDict.get?_insert_self, Option.bind_some]
    by_cases hprop : name = prop
    · subst hprop
      rw [OrderedDict.get?_insert_self, if_pos ⟨rfl, rfl⟩]
    · rw [OrderedDict.get?_insert_of_ne hprop, if_neg fun h ↦ hprop h.2, value?]
      cases found.get? other <;> rfl
  · rw [OrderedDict.get?_insert_of_ne hkey, if_neg fun h ↦ hkey h.1, value?]

/-- The dictionary has what the device holds of the properties asked for, and nothing else. -/
def Holds (found : FoundProps) (device : Device) (asked : List (ObjectKey × String)) : Prop :=
  ∀ key prop,
    found.value? key prop = if (key, prop) ∈ asked then (device key prop).toOption else none

theorem holds_empty : Holds .empty device [] := by
  intro key prop
  rw [if_neg List.not_mem_nil]
  rfl

theorem Holds.congr {others : List (ObjectKey × String)} (h : found.Holds device asked)
    (hsame : ∀ a, a ∈ others ↔ a ∈ asked) : found.Holds device others := by
  intro key prop
  rw [h, if_congr (hsame _) rfl rfl]

theorem Holds.put (h : found.Holds device asked) (hvalue : device key prop = .ok value) :
    (found.put key prop value).Holds device (asked ++ [(key, prop)]) := by
  intro other name
  rw [value?_put]
  split
  · rename_i heq
    obtain ⟨rfl, rfl⟩ := heq
    rw [if_pos (List.mem_append_right _ (List.mem_singleton_self _)), hvalue]
    rfl
  · rename_i hne
    rw [h other name]
    refine if_congr ?_ rfl rfl
    rw [List.mem_append, List.mem_singleton, Prod.mk.injEq, or_iff_left hne]

/-- One more property asked for, with an error: there is nothing to keep. -/
theorem Holds.skip {error : ErrorType} (h : found.Holds device asked)
    (herror : device key prop = .error error) : found.Holds device (asked ++ [(key, prop)]) := by
  intro other name
  rw [h other name]
  by_cases heq : (other, name) = (key, prop)
  · obtain ⟨rfl, rfl⟩ := Prod.mk.injEq .. ▸ heq
    rw [if_pos (List.mem_append_right _ (List.mem_singleton_self _)), herror]
    exact ite_self _
  · refine if_congr ?_ rfl rfl
    rw [List.mem_append, List.mem_singleton, or_iff_left heq]

end FoundProps

namespace BacnetDriver

variable {env : TextNumbers} {stack : Stack} {network : String → Device} {device : Device}
  {unsupported : Finset ℤ} {points refs : List PointRef} {address : String} {found : FoundProps}
  {asked : List (ObjectKey × String)}

/-! ## Both ways find the same -/

/-- Results that come from the device are collected as it holds them. -/
theorem holds_collect {results : List PropertyResult}
    (hresults : ∀ result ∈ results, result.value = device result.objid result.prop)
    (h : found.Holds device asked) :
    (collect results found).Holds device
      (asked ++ results.map fun result ↦ (result.objid, result.prop)) := by
  induction results generalizing found asked with
  | nil =>
    rw [List.map_nil, List.append_nil]
    exact h
  | cons result results ih =>
    obtain ⟨hresult, hresults⟩ := List.forall_mem_cons.mp hresults
    rw [List.map_cons, List.append_cons, collect]
    cases hvalue : result.value with
    | error error => exact ih hresults (h.skip (hresult.symm.trans hvalue))
    | ok value => exact ih hresults (h.put (hresult.symm.trans hvalue))

theorem holds_readFrom {requests : List (ObjectKey × String)}
    (hstack : ∀ key prop, stack.readProperty address (objectText key) prop =
      (device key prop).mapError fun error ↦ .nack (.error error))
    (h : found.Holds device asked) :
    ∃ found', readFrom stack address requests found = .ok found' ∧
      found'.Holds device (asked ++ requests) := by
  induction requests generalizing found asked with
  | nil =>
    rw [List.append_nil]
    exact ⟨found, rfl, h⟩
  | cons request requests ih =>
    obtain ⟨key, prop⟩ := request
    rw [List.append_cons, readFrom, hstack]
    cases hvalue : device key prop with
    | error error => exact ih (h.skip hvalue)
    | ok value => exact ih (h.put hvalue)

/-- Where ReadPropertyMultiple is answered, it finds the same; else it is refused. -/
theorem readMultiple_cases {wanted : OrderedDict ObjectKey (List String)}
    (hanswers : AnswersMultiple stack device address wanted) :
    (∃ found, readMultiple stack address wanted = .ok found ∧
      found.Holds device (requested wanted)) ∨
    ∃ kind, (kind = "reject" ∨ kind = "abort") ∧
      readMultiple stack address wanted = .error (.requestRejected kind) := by
  rcases hanswers with ⟨results, hanswer, hperm⟩ | ⟨nack, hanswer, hrefusal⟩
  · refine .inl ⟨collect results .empty, by rw [readMultiple, hanswer]; rfl, ?_⟩
    have hresults : ∀ result ∈ results, result.value = device result.objid result.prop := by
      intro result hresult
      obtain ⟨asked, -, rfl⟩ := List.mem_map.mp (hperm.mem_iff.mp hresult)
      rfl
    refine (holds_collect hresults FoundProps.holds_empty).congr fun a ↦ ?_
    rw [List.nil_append, (hperm.map _).mem_iff, List.map_map]
    simp
  · refine .inr ?_
    cases nack with
    | error error => exact hrefusal.elim
    | reject reason => exact ⟨"reject", .inl rfl, by rw [readMultiple, hanswer]; rfl⟩
    | abort reason =>
      refine ⟨"abort", .inr rfl, ?_⟩
      rw [readMultiple, hanswer, exchange, convertError, if_neg hrefusal]
      rfl

theorem holds_readMany {number : ℤ} {wanted : OrderedDict ObjectKey (List String)}
    (hstack : ∀ key prop, stack.readProperty address (objectText key) prop =
      (device key prop).mapError fun error ↦ .nack (.error error))
    (state : Finset ℤ)
    (hanswers : number ∉ state → AnswersMultiple stack device address wanted) :
    ∃ found state', readMany stack number address wanted state = .ok found state' ∧
      found.Holds device (requested wanted) ∧ state ⊆ state' := by
  obtain ⟨each, heach, hholds⟩ : ∃ found, readEach stack address wanted = .ok found ∧
      found.Holds device (requested wanted) := holds_readFrom hstack FoundProps.holds_empty
  by_cases hknown : number ∈ state
  · exact ⟨each, state, by simp [readMany, hknown, heach], hholds, Finset.Subset.refl _⟩
  · rcases readMultiple_cases (hanswers hknown) with
      ⟨found, hfound, hholds'⟩ | ⟨kind, hkind, hrefused⟩
    · exact ⟨found, state, by simp [readMany, hknown, hfound], hholds', Finset.Subset.refl _⟩
    · -- The device is remembered, and read again in the same call.
      refine ⟨each, insert number state, ?_, hholds, Finset.subset_insert _ _⟩
      have hfallback : ¬(kind ≠ "reject" ∧ kind ≠ "abort") := by
        rw [not_and_or, not_not, not_not]
        exact hkind
      simp [readMany, hknown, hrefused, hfallback, heach]

/-! ## The readings of the points -/

theorem mem_requested {wanted : OrderedDict ObjectKey (List String)} {key : ObjectKey}
    {prop : String} {props : List String} (h : wanted.get? key = some props)
    (hprop : prop ∈ props) : (key, prop) ∈ requested wanted :=
  List.mem_flatMap.mpr ⟨(key, props), OrderedDict.mem_entries_iff.mpr h,
    List.mem_map_of_mem hprop⟩

/-- What the other services see of a reading, besides its instant. -/
def seen (reading : Reading) : Uuid × Option PyFloat × PointStatus :=
  (reading.pointId, reading.value, reading.status)

/-- What a point of a device is read as; `none` where `float` raises. -/
def expected (env : TextNumbers) (device : Device) (ref : PointRef) :
    Option (Uuid × Option PyFloat × PointStatus) :=
  let key := (ref.objectType, ref.objectInstance)
  match device key "present-value" with
  | .error _ => some (ref.pointId, none, .fault)
  | .ok raw => (normalizePresentValue env raw).map fun value ↦
      (ref.pointId, value, normalizeStatus (flags (device key "status-flags").toOption))

/-- The points in the order in which they are read, each with the address its device is read at. -/
def located : Groups ℤ PointRef → List (String × PointRef)
  | [] => []
  | (_, []) :: rest => located rest
  | (_, first :: others) :: rest =>
    (first :: others).map (fun ref ↦ (first.address, ref)) ++ located rest

/-- What a reading says of the point it is of. -/
structure Shows (env : TextNumbers) (device : Device) (ref : PointRef)
    (value : Option PyFloat) (status : PointStatus) : Prop where
  /-- Without its present value, a point is in fault. -/
  missing : ∀ error,
    device (ref.objectType, ref.objectInstance) "present-value" = .error error →
      value = none ∧ status = .fault
  present : ∀ raw, device (ref.objectType, ref.objectInstance) "present-value" = .ok raw →
    normalizePresentValue env raw = some value ∧
      ∀ bits, device (ref.objectType, ref.objectInstance) "status-flags" = .ok bits →
        status = normalizeStatus (flags (some bits))
  /-- Without its status flags, it is not. -/
  noFlags : ∀ raw error,
    device (ref.objectType, ref.objectInstance) "present-value" = .ok raw →
    device (ref.objectType, ref.objectInstance) "status-flags" = .error error → status = .ok

/-- A language in which no text is a number. -/
def plainTexts : TextNumbers where
  lower text := text
  texts := ⟨fun _ ↦ .error "", fun _ ↦ .error "", fun _ ↦ .error "", fun _ ↦ "", fun _ ↦ ""⟩

end BacnetDriver

end Superviseur
