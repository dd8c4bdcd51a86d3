import Superviseur.Collector.Discovery
import Superviseur.Collector.ReadPaths

/-!
# The inventory of a device

`BacnetDriver.describe` asks a device for the list of its objects, whole or, where the device cannot
segment its answer, entry by entry; it keeps those of the types that are imported, and asks for
their properties in batches, by the same two ways as the readings (`_read_many`).

Neither the way the list is read, nor the size of the batches, nor the way the properties are read
makes a difference: the inventory is what the device says of each object it lists, in that order
(`describe_eq`).
-/

namespace Superviseur

/-- `IMPORTED_TYPES`. -/
def importedTypes : List String :=
  ["analog-input", "analog-output", "analog-value", "binary-input", "binary-output",
    "binary-value", "multi-state-input", "multi-state-output", "multi-state-value"]

/-- `_UNITS`. -/
def unitLabels : List (String × String) :=
  [("degrees-celsius", "°C"), ("degrees-fahrenheit", "°F"), ("kelvin", "K"), ("percent", "%"),
    ("percent-relative-humidity", "%HR"), ("watts", "W"), ("kilowatts", "kW"),
    ("megawatts", "MW"), ("watt-hours", "Wh"), ("kilowatt-hours", "kWh"), ("kilojoules", "kJ"),
    ("megajoules", "MJ"), ("pascals", "Pa"), ("kilopascals", "kPa"), ("hectopascals", "hPa"),
    ("bars", "bar"), ("volts", "V"), ("amperes", "A"), ("milliamperes", "mA"), ("hertz", "Hz"),
    ("kilovolt-amperes", "kVA"), ("kilovolt-amperes-reactive", "kvar"),
    ("cubic-meters-per-hour", "m³/h"), ("cubic-meters-per-second", "m³/s"),
    ("liters-per-second", "L/s"), ("liters", "L"), ("cubic-meters", "m³"), ("meters", "m"),
    ("kilograms", "kg"), ("revolutions-per-minute", "tr/min"), ("parts-per-million", "ppm"),
    ("seconds", "s"), ("minutes", "min"), ("hours", "h"), ("degrees-angular", "°"),
    ("lux", "lx"), ("ohms", "ohm")]

/-- `unit_label`. -/
def unitLabel (name : String) : Option String :=
  if name = "" ∨ name = "no-units" then none else some ((unitLabels.lookup name).getD name)

/-- `is_writable`. -/
def isWritable (objectType : String) : Bool :=
  "-output".toList.isSuffixOf objectType.toList || "-value".toList.isSuffixOf objectType.toList

/-- `_discovery_props`. -/
def discoveryProps (objectType : String) : List String :=
  if "analog".toList.isPrefixOf objectType.toList then
    ["object-name", "description", "units", "present-value", "status-flags"]
  else if isMultistate objectType then
    ["object-name", "description", "state-text", "present-value", "status-flags"]
  else ["object-name", "description", "present-value", "status-flags"]

/-- What the language computes of a decoded value that is no number. -/
structure RawTexts where
  /-- `str(raw)`. -/
  str : Raw → String
  /-- `bool(raw)`. -/
  truthy : Raw → Bool
  /-- `[str(s) for s in raw]`. -/
  items : Raw → List String

/-- The property `object-list` of the devices, by their address and the text of the device
object. -/
structure ObjectLists where
  whole : (address objid : String) → Except Unanswered (List ObjectKey)
  /-- Its entry 0. -/
  count : (address objid : String) → Except Unanswered ℤ
  entry : (address objid : String) → (index : ℕ) → Except Unanswered ObjectKey

/-- What ends a `describe`. -/
inductive DescribeError where
  | driver (exc : DriverError)
  /-- `float`, of an integer that is too large. -/
  | overflow
  /-- `range`, with a step of zero. -/
  | noStep
  deriving DecidableEq

namespace BacnetDriver

/-- `_object_list`. -/
def objectList (lists : ObjectLists) (device : ℤ) (address : String) :
    Except DriverError (List ObjectKey) :=
  let objid := objectText ("device", device)
  match exchange (lists.whole address objid) with
  | .ok keys => .ok keys
  -- The device does not segment its answers: entry by entry.
  | .error (.requestRejected _) => do
    let count ← exchange (lists.count address objid)
    (List.range count.toNat).mapM fun index ↦ exchange (lists.entry address objid (index + 1))
  | .error exc => .error exc

/-- `_chunks`. -/
def chunks {α : Type} (items : List α) (size : ℤ) : Option (List (List α)) :=
  if size = 0 then none
  else if size < 0 then some []
  else some (slices size.toNat [] items)

/-- The properties asked for, for the objects of a batch. -/
def request (chunk : List ObjectKey) : OrderedDict ObjectKey (List String) :=
  chunk.foldl (fun d key ↦ d.insert key (discoveryProps key.1)) .empty

/-- The object of a key, by the properties found; `none` where `float` raises. -/
def objectInfo (env : TextNumbers) (texts : RawTexts) (key : ObjectKey)
    (found : String → Option Raw) : Option ObjectInfo :=
  (normalizePresentValue env ((found "present-value").getD .null)).map fun value ↦
    { objectType := key.1
      objectInstance := key.2
      name := ((found "object-name").map texts.str).getD (objectText key)
      description := ((found "description").filter texts.truthy).map texts.str
      unit := (found "units").bind fun raw ↦ unitLabel (texts.str raw)
      writable := isWritable key.1
      stateText := ((found "state-text").filter texts.truthy).map texts.items
      value
      status := normalizeStatus (flags (found "status-flags")) }

/-- The batches of `describe`, one after the other. -/
def describeChunks (env : TextNumbers) (texts : RawTexts) (stack : Stack) (device : ℤ)
    (address : String) :
    List (List ObjectKey) → EStateM DescribeError (Finset ℤ) (List ObjectInfo)
  | [] => pure []
  | chunk :: rest => do
    let found ← (readMany stack device address (request chunk)).adaptExcept .driver
    match chunk.mapM fun key ↦ objectInfo env texts key (found.value? key) with
    | none => throw .overflow
    | some infos =>
      let later ← describeChunks env texts stack device address rest
      pure (infos ++ later)

/-- `key[0] in IMPORTED_TYPES`. -/
def isImported (key : ObjectKey) : Bool := key.1 ∈ importedTypes

/-- `describe`. -/
def describe (env : TextNumbers) (texts : RawTexts) (stack : Stack) (lists : ObjectLists)
    (batchSize : ℤ) (device : ℤ) (address : String) :
    EStateM DescribeError (Finset ℤ) (List ObjectInfo) := do
  let keys ← EState.call ((objectList lists device address).mapError .driver)
  match chunks (keys.filter isImported) batchSize with
  | none => throw .noStep
  | some batches => describeChunks env texts stack device address batches

/-! ## The list of the objects -/

/-- The stack gives the list of the device, whole or, where it is refused, entry by entry. -/
def AnswersList (lists : ObjectLists) (address objid : String) (objects : List ObjectKey) : Prop :=
  lists.whole address objid = .ok objects ∨
    (∃ nack, lists.whole address objid = .error (.nack nack) ∧
      convertError nack ≠ .deviceUnreachable) ∧
    lists.count address objid = .ok objects.length ∧
    ∀ index key, objects[index]? = some key → lists.entry address objid (index + 1) = .ok key

theorem exists_rejected {nack : Nack} (h : convertError nack ≠ .deviceUnreachable) :
    ∃ kind, convertError nack = .requestRejected kind := by
  cases nack with
  | error error => exact ⟨_, rfl⟩
  | reject reason => exact ⟨_, rfl⟩
  | abort reason =>
    rw [convertError] at h ⊢
    split at h
    · exact absurd rfl h
    · next hreason => exact ⟨"abort", if_neg hreason⟩

theorem mapM_range' {α ε : Type} {f : ℕ → Except ε α} {xs : List α} (start : ℕ)
    (h : ∀ index x, xs[index]? = some x → f (start + index) = .ok x) :
    (List.range' start xs.length).mapM f = .ok xs := by
  induction xs generalizing start with
  | nil => rfl
  | cons x xs ih =>
    have hx : f start = .ok x := h 0 x rfl
    have hxs := ih (start + 1) fun index y hy ↦ by
      have hentry := h (index + 1) y hy
      rwa [show start + 1 + index = start + (index + 1) by omega]
    rw [List.length_cons, List.range'_succ, List.mapM_cons, hx, hxs]
    rfl

theorem objectList_eq {lists : ObjectLists} {device : ℤ} {address : String}
    {objects : List ObjectKey}
    (h : AnswersList lists address (objectText ("device", device)) objects) :
    objectList lists device address = .ok objects := by
  rcases h with hwhole | ⟨⟨nack, hwhole, hnack⟩, hcount, hentry⟩
  · rw [objectList, hwhole]
    rfl
  · obtain ⟨kind, hkind⟩ := exists_rejected hnack
    have hentries : (List.range' 0 objects.length).mapM (fun index ↦
        exchange (lists.entry address (objectText ("device", device)) (index + 1))) =
        .ok objects := by
      refine mapM_range' 0 fun index key hkey ↦ ?_
      rw [Nat.zero_add, hentry index key hkey]
      rfl
    have hwhole' : exchange (lists.whole address (objectText ("device", device))) =
        .error (.requestRejected kind) := by
      rw [hwhole, exchange, hkind]
    have hcount' : exchange (lists.count address (objectText ("device", device))) =
        .ok (objects.length : ℤ) := by
      rw [hcount, exchange]
    rw [objectList, hwhole']
    dsimp only
    rw [hcount']
    change (List.range objects.length).mapM _ = _
    rw [List.range_eq_range']
    exact hentries

/-! ## The batches -/

variable {env : TextNumbers} {texts : RawTexts} {stack : Stack} {device : Device} {number : ℤ}
  {address : String} {unsupported : Finset ℤ} {chunk : List ObjectKey} {key : ObjectKey}

theorem get?_request (h : key ∈ chunk) :
    (request chunk).get? key = some (discoveryProps key.1) := by
  have hstep : ∀ (chunk : List ObjectKey) (d : OrderedDict ObjectKey (List String)),
      key ∈ chunk ∨ d.get? key = some (discoveryProps key.1) →
      (chunk.foldl (fun d key ↦ d.insert key (discoveryProps key.1)) d).get? key =
        some (discoveryProps key.1) := by
    intro chunk
    induction chunk with
    | nil => exact fun d h ↦ h.resolve_left List.not_mem_nil
    | cons other chunk ih =>
      intro d h
      refine ih _ ?_
      by_cases heq : key = other
      · exact .inr (by rw [heq, OrderedDict.get?_insert_self])
      · rw [OrderedDict.get?_insert_of_ne heq]
        exact h.imp_left fun h ↦ (List.mem_cons.mp h).resolve_left heq
  exact hstep chunk .empty (.inl h)

theorem eq_of_get?_request {props : List String} (h : (request chunk).get? key = some props) :
    props = discoveryProps key.1 := by
  have hstep : ∀ (chunk : List ObjectKey) (d : OrderedDict ObjectKey (List String)),
      (∀ props, d.get? key = some props → props = discoveryProps key.1) →
      ∀ props, (chunk.foldl (fun d key ↦ d.insert key (discoveryProps key.1)) d).get? key =
        some props → props = discoveryProps key.1 := by
    intro chunk
    induction chunk with
    | nil => exact fun d h ↦ h
    | cons other chunk ih =>
      intro d h
      refine ih _ fun props hprops ↦ ?_
      by_cases heq : key = other
      · subst heq
        rw [OrderedDict.get?_insert_self] at hprops
        exact (Option.some.inj hprops).symm
      · rw [OrderedDict.get?_insert_of_ne heq] at hprops
        exact h props hprops
  exact hstep chunk .empty (fun props hprops ↦ by simp at hprops) props h

theorem mem_requested_request (h : key ∈ chunk) (prop : String) :
    (key, prop) ∈ requested (request chunk) ↔ prop ∈ discoveryProps key.1 := by
  constructor
  · intro hmem
    obtain ⟨⟨key', props⟩, hentry, hmem⟩ := List.mem_flatMap.mp hmem
    obtain ⟨prop', hprop, heq⟩ := List.mem_map.mp hmem
    obtain ⟨rfl, rfl⟩ := Prod.mk.inj heq
    exact eq_of_get?_request (OrderedDict.mem_entries_iff.mp hentry) ▸ hprop
  · exact mem_requested (get?_request h)

/-- What a device says of one of its objects; `none` where `float` raises. -/
def expectedInfo (env : TextNumbers) (texts : RawTexts) (device : Device) (key : ObjectKey) :
    Option ObjectInfo :=
  objectInfo env texts key fun prop ↦
    if prop ∈ discoveryProps key.1 then (device key prop).toOption else none

theorem objectInfo_eq {found : FoundProps} (hkey : key ∈ chunk)
    (h : found.Holds device (requested (request chunk))) :
    objectInfo env texts key (found.value? key) = expectedInfo env texts device key := by
  have hfound : found.value? key = fun prop ↦
      if prop ∈ discoveryProps key.1 then (device key prop).toOption else none := by
    funext prop
    rw [h key prop]
    exact if_congr (mem_requested_request hkey prop) rfl rfl
  rw [hfound, expectedInfo]

/-- The stack answers for the properties of a device, one by one and, batch by batch, all at once
where the device is not known not to. -/
structure Describes (stack : Stack) (device : Device) (number : ℤ) (address : String)
    (unsupported : Finset ℤ) (batches : List (List ObjectKey)) : Prop where
  readProperty : ∀ key prop, stack.readProperty address (objectText key) prop =
    (device key prop).mapError fun error ↦ .nack (.error error)
  readPropertyMultiple : number ∉ unsupported → ∀ chunk ∈ batches,
    AnswersMultiple stack device address (request chunk)

theorem mapM_congr {α β : Type} {f g : α → Option β} {xs : List α} (h : ∀ x ∈ xs, f x = g x) :
    xs.mapM f = xs.mapM g := by
  induction xs with
  | nil => rfl
  | cons x xs ih =>
    obtain ⟨hx, hxs⟩ := List.forall_mem_cons.mp h
    rw [List.mapM_cons, List.mapM_cons, hx, ih hxs]

theorem outcome_describeChunks (env : TextNumbers) (texts : RawTexts)
    {batches : List (List ObjectKey)}
    (h : Describes stack device number address unsupported batches) {state : Finset ℤ}
    (hstate : unsupported ⊆ state) :
    EState.outcome (describeChunks env texts stack number address batches) state =
      (batches.flatten.mapM (expectedInfo env texts device)).elim (.error .overflow) .ok := by
  induction batches generalizing state with
  | nil => rfl
  | cons chunk batches ih =>
    have hrest : Describes stack device number address unsupported batches :=
      ⟨h.readProperty, fun hnumber chunk hchunk ↦
        h.readPropertyMultiple hnumber chunk (List.mem_cons_of_mem _ hchunk)⟩
    -- Devices are only added to those without ReadPropertyMultiple.
    obtain ⟨found, state', hfound, hholds, hstate'⟩ :=
      holds_readMany h.readProperty state fun hknown ↦
        h.readPropertyMultiple (fun hmem ↦ hknown (hstate hmem)) chunk List.mem_cons_self
    have hinfos : chunk.mapM (fun key ↦ objectInfo env texts key (found.value? key)) =
        chunk.mapM (expectedInfo env texts device) :=
      mapM_congr fun key hkey ↦ objectInfo_eq hkey hholds
    rw [EState.outcome, describeChunks, EState.bind_apply, EStateM.adaptExcept, hfound]
    dsimp only
    rw [hinfos, List.flatten_cons, List.mapM_append]
    cases chunk.mapM (expectedInfo env texts device) with
    | none => rfl
    | some infos =>
      have hlater := ih hrest (hstate.trans hstate')
      rw [EState.outcome] at hlater
      dsimp only
      rw [EState.bind_apply]
      cases hrun : describeChunks env texts stack number address batches state' with
      | error exc state'' =>
        rw [hrun] at hlater
        cases hspec : batches.flatten.mapM (expectedInfo env texts device) with
        | none =>
          rw [hspec] at hlater
          exact hlater
        | some infos' =>
          rw [hspec] at hlater
          exact absurd hlater (by simp)
      | ok later state'' =>
        rw [hrun] at hlater
        cases hspec : batches.flatten.mapM (expectedInfo env texts device) with
        | none =>
          rw [hspec] at hlater
          exact absurd hlater (by simp)
        | some infos' =>
          rw [hspec] at hlater
          obtain rfl := Except.ok.inj hlater
          rfl

/-- **The inventory is what the device says of itself.** Whether the list of its objects is read
whole or entry by entry, whatever the size of the batches, and whether ReadPropertyMultiple is
answered, known not to be, or refused on the way, `describe` gives what the device holds for each
object it lists that is of a type to import, in the order of the list, or raises where one of their
values has no binary64 number. -/
theorem describe_eq (env : TextNumbers) (texts : RawTexts) {lists : ObjectLists} {batchSize : ℤ}
    {objects : List ObjectKey} (hsize : 0 < batchSize)
    (hlist : AnswersList lists address (objectText ("device", number)) objects)
    (hdescribes : Describes stack device number address unsupported
      (slices batchSize.toNat [] (objects.filter isImported))) :
    EState.outcome (describe env texts stack lists batchSize number address) unsupported =
      ((objects.filter isImported).mapM (expectedInfo env texts device)).elim
        (.error .overflow) .ok := by
  have hrun := outcome_describeChunks env texts hdescribes
    (Finset.Subset.refl unsupported)
  rw [flatten_slices, List.nil_append] at hrun
  have hchunks : chunks (objects.filter isImported) batchSize =
      some (slices batchSize.toNat [] (objects.filter isImported)) := by
    rw [chunks, if_neg hsize.ne', if_neg (not_lt.mpr hsize.le)]
  rw [← hrun, EState.outcome, EState.outcome, describe, objectList_eq hlist, EState.bind_apply]
  simp only [Except.mapError, EState.call_ok, hchunks]

/-- A controller that lists itself among two of its objects. -/
def listedObjects : List ObjectKey := [("analog-input", 1), ("device", 7), ("analog-input", 3)]

/-- It does not segment its answers. -/
def shortAnswers : ObjectLists where
  whole _ _ := .error (.nack (.abort "segmentation-not-supported"))
  count _ _ := .ok 3
  entry _ _ index := .ok ((listedObjects[index - 1]?).getD ("device", 7))

/-- The first of the objects is a temperature; the other has an empty description, no unit and no
value. -/
def sensor (objid prop : String) : Except ErrorType Raw :=
  match objid, prop with
  | "analog-input,1", "object-name" => .ok (.other "AI-1" fun _ ↦ none)
  | "analog-input,1", "description" => .ok (.other "Air soufflé" fun _ ↦ none)
  | "analog-input,1", "units" => .ok (.other "degrees-celsius" fun _ ↦ none)
  | "analog-input,1", "present-value" => .ok (.float (.fin 21))
  | "analog-input,1", "status-flags" => .ok (.other "" fun index ↦ [0, 0, 0, 1][index]?)
  | "analog-input,3", "object-name" => .ok (.other "AI-3" fun _ ↦ none)
  | "analog-input,3", "description" => .ok (.other "" fun _ ↦ none)
  | "analog-input,3", "units" => .ok (.other "no-units" fun _ ↦ none)
  | _, _ => .error ⟨"property", "unknown-property"⟩

/-- A stack in front of it, without ReadPropertyMultiple. -/
def sensorStack : Stack where
  readProperty _ objid prop := (sensor objid prop).mapError fun error ↦ .nack (.error error)
  readPropertyMultiple _ _ := .error (.nack (.reject "unrecognized-service"))

/-- The texts of the values, the floating ones where they are whole. -/
def rawTexts : RawTexts where
  str
    | .null => "None"
    | .bool b => if b then "True" else "False"
    | .int n => toString n
    | .float x =>
      if x = .inf then "inf"
      else if x = .negInf then "-inf"
      else (x.toInt.map fun n ↦ toString n ++ ".0").getD "nan"
    | .other text _ => text
  truthy
    | .null => false
    | .bool b => b
    | .int n => n ≠ 0
    | .float x => x.truthy
    | .other text _ => text ≠ ""
  items
    | .other text _ => text.toList.map Char.toString
    | _ => []

theorem describe_eq_shortAnswers :
    EState.outcome (describe plainTexts rawTexts sensorStack shortAnswers 1 7 "10.0.0.7") ∅ =
      .ok [⟨"analog-input", 1, "AI-1", some "Air soufflé", some "°C", false, none,
          some (.fin 21), .outOfService⟩,
        ⟨"analog-input", 3, "AI-3", none, none, false, none, none, .ok⟩] := by
  have hlist : AnswersList shortAnswers "10.0.0.7" (objectText ("device", 7)) listedObjects := by
    refine .inr ⟨⟨_, rfl, by decide⟩, rfl, fun index key hkey ↦ ?_⟩
    change Except.ok ((listedObjects[index + 1 - 1]?).getD ("device", 7)) = _
    rw [Nat.add_sub_cancel, hkey]
    rfl
  have hdescribes : Describes sensorStack (fun key ↦ sensor (objectText key)) 7 "10.0.0.7"
      ∅ (slices (1 : ℤ).toNat [] (listedObjects.filter isImported)) :=
    ⟨fun _ _ ↦ rfl, fun _ _ _ ↦ .inr ⟨.reject "unrecognized-service", rfl, trivial⟩⟩
  rw [describe_eq plainTexts rawTexts (by decide) hlist hdescribes]
  rfl

end BacnetDriver

end Superviseur
