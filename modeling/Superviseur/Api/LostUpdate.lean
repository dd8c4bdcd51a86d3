import Superviseur.Api.Synoptics
import Mathlib.Data.List.Nodup

/-!
# Two editors of one synoptic

A save names the version it is based on, and is refused if another one has become the latest. The
check and the number of the new version come from two queries. A version committed between the two
escapes the check: the save is then numbered after it and hides it. Where the two queries agree, a
version is saved at most once on any base, and directly after it.
-/

namespace Superviseur

open ReadCommitted

variable {s t : SynopticDb} {ws ws' : List SynopticWrite} {id : Uuid} {row : VersionRow}

/-! ## What is inserted -/

/-- The versions a list of writes inserts. -/
def insertedRows (ws : List SynopticWrite) : List VersionRow :=
  ws.filterMap fun
    | .insertVersion row => some row
    | _ => none

theorem mem_insertedRows : row ∈ insertedRows ws ↔ .insertVersion row ∈ ws := by
  rw [insertedRows, List.mem_filterMap]
  constructor
  · rintro ⟨w, hw, hrow⟩
    cases w <;> simp at hrow
    subst hrow
    exact hw
  · exact fun h ↦ ⟨_, h, rfl⟩

theorem insertedRows_append : insertedRows (ws ++ ws') = insertedRows ws ++ insertedRows ws' :=
  List.filterMap_append

theorem versions_run : (synopticSchema.run ws s).versions = s.versions ++ insertedRows ws := by
  induction ws generalizing s with
  | nil => simp [insertedRows]
  | cons w ws ih =>
    rw [Schema.run_cons, ih]
    cases w <;> simp [synopticSchema, SynopticWrite.apply, insertedRows]

theorem ids_run (ws : List SynopticWrite) (s : SynopticDb) :
    (synopticSchema.run ws s).synoptics.map SynopticRow.id = s.synoptics.map SynopticRow.id := by
  induction ws generalizing s with
  | nil => rfl
  | cons w ws ih =>
    rw [Schema.run_cons, ih]
    cases w with
    | rename id name =>
      simp only [synopticSchema, SynopticWrite.apply, List.map_map]
      refine List.map_congr_left fun row _ ↦ ?_
      by_cases hrow : row.id = id <;> simp [hrow]
    | insertVersion row => rfl
    | audit row => rfl

theorem hasVersion_iff {v : ℕ} :
    s.hasVersion id v = true ↔ ∃ row ∈ s.versions, row.synopticId = id ∧ row.version = v := by
  simp [SynopticDb.hasVersion]

theorem stable_not_hasVersion {G : SynopticDb → List SynopticWrite → SynopticOutcome → Prop}
    (hrow : .insertVersion row ∈ ws) :
    Stable synopticSchema G ws fun s ↦ s.hasVersion row.synopticId row.version = false := by
  intro s ws' r hs hcompatible _
  rw [← Bool.not_eq_true, hasVersion_iff, versions_run] at *
  rintro ⟨row', hmem, hid, hversion⟩
  rcases List.mem_append.mp hmem with hmem | hmem
  · exact hs ⟨row', hmem, hid, hversion⟩
  · have := hcompatible _ hrow _ (mem_insertedRows.mp hmem)
    simp [synopticSchema, SynopticWrite.conflicts, hid, hversion] at this

/-! ## The outcomes -/

/-- A save that was committed. -/
structure Save where
  synoptic : Uuid
  base : Option ℕ
  version : ℕ
  deriving DecidableEq

/-- The saves among the outcomes. -/
def saves (log : List SynopticOutcome) : List Save :=
  log.filterMap fun
    | .saved _ base row => some ⟨row.synopticId, base, row.version⟩
    | _ => none

/-- No editor's work is hidden by another who started from the same version. -/
structure NoLostUpdate (s : SynopticDb) (log : List SynopticOutcome) : Prop where
  /-- Among the saves on one base, at most one is committed. -/
  once : ∀ id b, (saves log).countP (fun save ↦ save.synoptic = id ∧ save.base = some b) ≤ 1
  /-- No version stands between a save and its base. -/
  adjacent : ∀ save ∈ saves log, ∀ b, save.base = some b →
    ∀ row ∈ s.versions, row.synopticId = save.synoptic →
      ¬ (b < row.version ∧ row.version < save.version)

/-- What a commit does: it inserts one version, under a free number, directly after the base if the
request has one. -/
def Adds (s : SynopticDb) (ws : List SynopticWrite) (r : SynopticOutcome) : Prop :=
  ∃ row, insertedRows ws = [row] ∧ s.hasVersion row.synopticId row.version = false ∧
    match r with
    | .saved _ base row' => row' = row ∧ ∀ b, base = some b → row.version = b + 1
    | .restored _ _ row' => row' = row
    | _ => False

/-- Every synoptic was created with a version. -/
def Created (s : SynopticDb) : Prop :=
  ∀ synoptic ∈ s.synoptics, ∃ row ∈ s.versions, row.synopticId = synoptic.id

/-- The query that numbers a save made on a base returns the version that its check has read. -/
def unchanged : Conditions SynopticQuery SynopticDb SynopticOutcome where
  read
    | .maxVersion id base latest, s => base ≠ none → s.maxVersion id = latest
    | _, _ => True
  commit _ _ := True

instance (query : SynopticQuery) (s : SynopticDb) : Decidable (unchanged.read query s) :=
  match query with
  | .maxVersion id base latest =>
    inferInstanceAs (Decidable (base ≠ none → s.maxVersion id = latest))
  | .byId | .latest | .version | .refresh => .isTrue trivial

instance (r : SynopticOutcome) (s : SynopticDb) : Decidable (unchanged.commit r s) :=
  .isTrue trivial

/-! ## One request -/

theorem stable_versions {G : SynopticDb → List SynopticWrite → SynopticOutcome → Prop} :
    Stable synopticSchema G ws fun s ↦ ∃ row ∈ s.versions, row.synopticId = id := by
  rintro s ws' r ⟨row, hrow, hid⟩ _ _
  exact ⟨row, by rw [versions_run]; exact List.mem_append_left _ hrow, hid⟩

theorem Created.run (h : Created s) : Created (synopticSchema.run ws s) := by
  intro synoptic hsynoptic
  have hid : synoptic.id ∈ s.synoptics.map SynopticRow.id := by
    rw [← ids_run ws s]
    exact List.mem_map_of_mem hsynoptic
  obtain ⟨old, hold, hsame⟩ := List.mem_map.mp hid
  obtain ⟨row, hrow, hrowid⟩ := h old hold
  exact ⟨row, by rw [versions_run]; exact List.mem_append_left _ hrow, hrowid.trans hsame⟩

/-- The end of a request: its version is inserted, and the commit adds it. -/
theorem valid_insert {audit : SynopticAudit} {r refused : SynopticOutcome}
    (hws : insertedRows ws = [])
    (hr : ∀ t ws', insertedRows ws' = [row] → t.hasVersion row.synopticId row.version = false →
      Adds t ws' r) :
    Valid synopticSchema unchanged Adds
      (.write (.insertVersion row)
        (.read .refresh fun _ ↦ .write (.audit audit) (.commit r) .failed) refused) ws s := by
  refine valid_write stable_true trivial fun t _ hallowed ↦ ?_
  have hfree : t.hasVersion row.synopticId row.version = false := by
    rw [← Bool.not_eq_true, hasVersion_iff]
    have hversions : (synopticSchema.run ws t).versions = t.versions := by
      rw [versions_run, hws, List.append_nil]
    rw [← hversions, ← hasVersion_iff, Bool.not_eq_true]
    simpa [synopticSchema, SynopticWrite.allowed] using (Bool.and_eq_true_iff.mp hallowed).2
  have hmem : .insertVersion row ∈ ws ++ [.insertVersion row] := by simp
  refine valid_read (stable_not_hasVersion hmem) hfree fun t hfree _ ↦ ?_
  refine valid_write (stable_not_hasVersion hmem) hfree fun t hfree _ ↦ ?_
  refine valid_commit (stable_not_hasVersion (by simp)) hfree fun t hfree _ ↦ ?_
  refine hr t _ ?_ hfree
  rw [insertedRows_append, insertedRows_append, hws]
  rfl

theorem valid_assignName {synoptic : SynopticRow} {name : String} {k : SynopticProg}
    (h : ∀ ws t, insertedRows ws = [] → Valid synopticSchema unchanged Adds k ws t) :
    Valid synopticSchema unchanged Adds (assignName synoptic name k) [] s := by
  unfold assignName
  by_cases hname : synoptic.name = name
  · rw [if_pos hname]
    exact h [] s rfl
  · rw [if_neg hname]
    exact valid_write stable_true trivial fun t _ _ ↦ h _ t rfl

theorem exists_version_of_synoptic? (hs : Created s) {synoptic : SynopticRow}
    (h : s.synoptic? id = some synoptic) : ∃ row ∈ s.versions, row.synopticId = id := by
  have hid : synoptic.id = id := by simpa using List.find?_some h
  obtain ⟨row, hrow, hrowid⟩ := hs synoptic (List.mem_of_find?_eq_some h)
  exact ⟨row, hrow, hrowid.trans hid⟩

/-- A save that passes its check has the version it is based on as the latest. -/
theorem latest_eq_base {base : Option ℕ} (hs : ∃ row ∈ s.versions, row.synopticId = id)
    (h : obsoleteBase base (s.latest id) = none) :
    ∀ b, base = some b → (s.latest id).map VersionRow.version = some b := by
  rintro b rfl
  rcases hlatest : s.latest id with - | l
  · obtain ⟨row, hrow, hid⟩ := hs
    have hempty := List.argmax_eq_none.mp hlatest
    have : row ∈ s.versionsOf id := List.mem_filter.mpr ⟨hrow, decide_eq_true hid⟩
    rw [hempty] at this
    exact absurd this List.not_mem_nil
  · by_cases hb : l.version = b
    · simp [hb]
    · simp [obsoleteBase, hlatest, hb] at h

theorem valid_saveSynoptic {doc : SynopticDoc} {base : Option ℕ} {user : Uuid} (hs : Created s) :
    Valid synopticSchema unchanged Adds (saveSynoptic id doc base user) [] s := by
  refine valid_read (fun t ws' r ht _ _ ↦ Created.run ht) hs fun t ht _ ↦ ?_
  simp only [Schema.run_nil]
  rcases hsynoptic : t.synoptic? id with - | synoptic
  · trivial
  refine valid_read stable_versions (exists_version_of_synoptic? ht hsynoptic) fun t ht _ ↦ ?_
  simp only [Schema.run_nil]
  rcases hbase : obsoleteBase base (t.latest id) with - | v
  · have hlatest := latest_eq_base ht hbase
    refine valid_assignName fun ws u hws ↦ ?_
    refine valid_read stable_true trivial fun u _ hunchanged ↦ ?_
    refine valid_insert hws fun v ws' hws' hfree ↦ ⟨_, hws', hfree, rfl, fun b hb ↦ ?_⟩
    have hmax := hunchanged (by rw [hb]; exact Option.some_ne_none b)
    simp only [hmax, hlatest b hb, Option.getD_some]
  · trivial

theorem valid_restoreVersion {validate : Json → Except SynopticOutcome SynopticDoc} {version : ℕ}
    {user : Uuid} :
    Valid synopticSchema unchanged Adds (restoreVersion validate id version user) [] s := by
  refine valid_read stable_true trivial fun t _ _ ↦ ?_
  simp only [Schema.run_nil]
  rcases t.synoptic? id with - | synoptic
  · trivial
  refine valid_read stable_true trivial fun t _ _ ↦ ?_
  simp only [Schema.run_nil]
  rcases t.version? id version with - | old
  · trivial
  rcases hdoc : validate old.content with outcome | doc
  · simp only [hdoc]
    trivial
  simp only [hdoc]
  refine valid_assignName fun ws u hws ↦ ?_
  refine valid_read stable_true trivial fun u _ _ ↦ ?_
  exact valid_insert hws fun v ws' hws' hfree ↦ ⟨_, hws', hfree, rfl⟩

/-! ## Runs -/

/-- What the outcomes say of the versions, in a run whose commits add. -/
structure Kept (s : SynopticDb) (log : List SynopticOutcome) : Prop where
  created : Created s
  stored : ∀ save ∈ saves log, s.hasVersion save.synoptic save.version = true
  nodup : ((saves log).map fun save ↦ (save.synoptic, save.version)).Nodup
  successor : ∀ save ∈ saves log, ∀ b, save.base = some b → save.version = b + 1

theorem hasVersion_run {v : ℕ} (h : s.hasVersion id v = true) :
    (synopticSchema.run ws s).hasVersion id v = true := by
  obtain ⟨row, hrow, hkey⟩ := hasVersion_iff.mp h
  exact hasVersion_iff.mpr ⟨row, by rw [versions_run]; exact List.mem_append_left _ hrow, hkey⟩

theorem saves_append (log log' : List SynopticOutcome) :
    saves (log ++ log') = saves log ++ saves log' :=
  List.filterMap_append

theorem Kept.commit {log : List SynopticOutcome} {r : SynopticOutcome} (h : Kept s log)
    (hadds : Adds s ws r) : Kept (synopticSchema.run ws s) (log ++ [r]) := by
  obtain ⟨row, hrows, hfree, hr⟩ := hadds
  -- the version that is added is stored
  have hnew : (synopticSchema.run ws s).hasVersion row.synopticId row.version = true := by
    refine hasVersion_iff.mpr ⟨row, ?_, rfl, rfl⟩
    rw [versions_run, hrows]
    exact List.mem_append_right _ (List.mem_singleton_self row)
  rcases r with ⟨code, detail⟩ | _ | ⟨loaded, base, row'⟩ | ⟨loaded, version, row'⟩
  · exact hr.elim
  · exact hr.elim
  · obtain ⟨rfl, hbase⟩ := hr
    have hsaves : saves (log ++ [.saved loaded base row']) =
        saves log ++ [⟨row'.synopticId, base, row'.version⟩] := saves_append log _
    refine ⟨h.created.run, ?_, ?_, ?_⟩
    · rw [hsaves]
      intro save hsave
      rcases List.mem_append.mp hsave with hsave | hsave
      · exact hasVersion_run (h.stored save hsave)
      · rw [List.mem_singleton.mp hsave]
        exact hnew
    · rw [hsaves, List.map_append, List.nodup_append]
      refine ⟨h.nodup, List.nodup_singleton _, ?_⟩
      -- a save that was logged before has a version that is stored, this one was free
      rintro key hkey key' hkey' rfl
      obtain ⟨save, hsave, rfl⟩ := List.mem_map.mp hkey
      have hstored := h.stored save hsave
      simp only [List.map_cons, List.map_nil, List.mem_singleton, Prod.mk.injEq] at hkey'
      rw [hkey'.1, hkey'.2, hfree] at hstored
      exact Bool.false_ne_true hstored
    · rw [hsaves]
      intro save hsave b hb
      rcases List.mem_append.mp hsave with hsave | hsave
      · exact h.successor save hsave b hb
      · rw [List.mem_singleton.mp hsave] at hb ⊢
        exact hbase b hb
  · have hsaves : saves (log ++ [.restored loaded version row']) = saves log := by
      rw [saves_append]
      exact List.append_nil _
    refine ⟨h.created.run, ?_, ?_, ?_⟩
    · rw [hsaves]
      exact fun save hsave ↦ hasVersion_run (h.stored save hsave)
    · rw [hsaves]
      exact h.nodup
    · rw [hsaves]
      exact h.successor

theorem Kept.noLostUpdate {log : List SynopticOutcome} (h : Kept s log) : NoLostUpdate s log where
  once id b := by
    -- two saves on the same base would have the same number
    calc (saves log).countP (fun save ↦ save.synoptic = id ∧ save.base = some b)
        ≤ (saves log).countP (fun save ↦ (save.synoptic, save.version) = (id, b + 1)) := by
          refine List.countP_mono_left fun save hsave hmatch ↦ ?_
          obtain ⟨hid, hb⟩ := of_decide_eq_true hmatch
          exact decide_eq_true (Prod.ext hid (h.successor save hsave b hb))
      _ = ((saves log).map fun save ↦ (save.synoptic, save.version)).count (id, b + 1) := by
          rw [List.count, List.countP_map]
          exact List.countP_congr fun save _ ↦ by simp
      _ ≤ 1 := List.nodup_iff_count_le_one.mp h.nodup _
  adjacent save hsave b hb row _ _ := by
    rw [h.successor save hsave b hb]
    omega

/-- **No lost update**, in every run in which the query that numbers a save made on a base returns
the version its check has read. -/
theorem base_saved_once {ι : Type} [DecidableEq ι]
    (validate : Json → Except SynopticOutcome SynopticDoc) {y : System ι _ _ _ _}
    {ls : List (Label ι SynopticRequest)} (hs : Created s)
    (hrun : System.Run synopticSchema (SynopticRequest.program validate) unchanged (System.idle s)
      ls y) :
    NoLostUpdate y.db y.log := by
  have hkept : Kept y.db y.log := by
    refine System.Run.invariant (G := Adds) Kept ?_ ?_ ?_ hrun
    · rintro (⟨id, doc, base, user⟩ | ⟨id, version, user⟩) t log hkept
      · exact valid_saveSynoptic hkept.created
      · exact valid_restoreVersion
    · exact fun t log ws r hkept hadds ↦ hkept.commit hadds
    · exact ⟨hs, by simp [saves], by simp [saves], by simp [saves]⟩
  exact hkept.noLostUpdate

/-! ## Two saves on version 1 -/

def pumpRoom : SynopticDb where
  synoptics := [⟨1, "Chaufferie", "chaufferie"⟩]
  versions := [⟨1, 1, .obj [], some 9⟩]
  audits := []

/-- A save of the synoptic under its name, based on version 1. -/
def saveFrom1 (user : Uuid) : SynopticRequest := .save 1 ⟨"Chaufferie", .obj [], 0⟩ (some 1) user

/-- Every restored version is valid. -/
def validateAll (content : Json) : Except SynopticOutcome SynopticDoc :=
  .ok ⟨"Chaufferie", content, 0⟩

theorem created_pumpRoom : Created pumpRoom := by
  simp [Created, pumpRoom]

/-- Both ask for the highest version before one is committed; the other is then refused. -/
def refusedOnce : List (Label ℕ SynopticRequest) :=
  [.start 1 (saveFrom1 10), .start 2 (saveFrom1 20)] ++ List.replicate 3 (.advance 1) ++
    List.replicate 3 (.advance 2) ++ List.replicate 4 (.advance 1) ++ [.advance 2]

theorem base_saved_once_refused :
    ∃ y, System.Run synopticSchema (SynopticRequest.program validateAll) unchanged
        (System.idle pumpRoom) refusedOnce y ∧ saves y.log = [⟨1, some 1, 2⟩] ∧
        NoLostUpdate y.db y.log := by
  have hsaves : ((Trace.exec (fun x l ↦ if System.Meets synopticSchema unchanged x l then
      System.next synopticSchema (SynopticRequest.program validateAll) x l else none)
      (System.idle pumpRoom) refusedOnce).map fun y ↦ saves y.log) = some [⟨1, some 1, 2⟩] := by
    decide
  obtain ⟨y, hy, hsaves⟩ := Option.map_eq_some_iff.mp hsaves
  have hrun : System.Run synopticSchema (SynopticRequest.program validateAll) unchanged
      (System.idle pumpRoom) refusedOnce y := .of_exec_checked hy
  exact ⟨y, hrun, hsaves, base_saved_once validateAll created_pumpRoom hrun⟩

/-- Both read version 1, then one is committed before the other asks for the highest version. -/
def overlapping : List (Label ℕ SynopticRequest) :=
  [.start 1 (saveFrom1 10), .start 2 (saveFrom1 20)] ++ List.replicate 2 (.advance 1) ++
    List.replicate 2 (.advance 2) ++ List.replicate 5 (.advance 1) ++ List.replicate 5 (.advance 2)

/-- Two saves made on version 1 are committed, as versions 2 and 3. -/
theorem both_saved : ¬ ∀ (ls : List (Label ℕ SynopticRequest))
    (y : System ℕ SynopticQuery SynopticDb SynopticWrite SynopticOutcome),
    System.Run synopticSchema (SynopticRequest.program validateAll) .none (System.idle pumpRoom)
      ls y → NoLostUpdate y.db y.log := by
  intro hnone
  have hsaves : ((Trace.exec (System.next synopticSchema (SynopticRequest.program validateAll))
      (System.idle pumpRoom) overlapping).map fun y ↦ saves y.log) =
      some [⟨1, some 1, 2⟩, ⟨1, some 1, 3⟩] := by decide
  obtain ⟨y, hy, hsaves⟩ := Option.map_eq_some_iff.mp hsaves
  have honce := (hnone overlapping y (.of_exec (fun l _ x ↦ System.meets_none _ x l) hy)).once 1 1
  rw [hsaves] at honce
  exact absurd honce (by decide)

end Superviseur
