import Superviseur.Api.LostUpdate
import Superviseur.Api.SynopticStore

/-!
# The versions of a synoptic

Creations, saves, restores and deletions may overlap in any way. The versions of a synoptic are
nevertheless numbered from 1 on without a gap, and what a version contains never changes: the number
of a new version is one more than the highest at some moment, and by the time it is inserted either
no other version has been committed, or its number is taken and the request fails.
-/

namespace Superviseur

namespace SynopticStore

open ReadCommitted

variable {s t u : SynopticStore} {id : Uuid} {row : VersionRow} {ws : List Write} {r : Outcome}

/-- The synoptics are there with their versions, which are numbered from 1 on. -/
structure Intact (s : SynopticStore) : Prop where
  /-- In the order in which they were inserted. -/
  numbered : ∀ id, (s.db.versionsOf id).map VersionRow.version =
    List.range' 1 (s.db.versionsOf id).length
  created : ∀ id ∈ s.ids, s.db.versionsOf id ≠ []
  owned : ∀ row ∈ s.db.versions, row.synopticId ∈ s.ids
  issued : s.ids ⊆ s.issued

/-- What a commit does to the synoptics and their versions. -/
inductive Change (s t : SynopticStore) : Prop where
  | create (row : VersionRow) (hnew : row.synopticId ∉ s.issued) (hversion : row.version = 1)
      (hids : t.ids = s.ids ++ [row.synopticId])
      (hissued : t.issued = s.issued ++ [row.synopticId])
      (hversions : t.db.versions = s.db.versions ++ [row])
  | add (row : VersionRow) (hid : row.synopticId ∈ s.ids)
      (hversion : row.version = (s.db.versionsOf row.synopticId).length + 1)
      (hids : t.ids = s.ids) (hissued : t.issued = s.issued)
      (hversions : t.db.versions = s.db.versions ++ [row])
  | delete (id : Uuid) (hids : t.ids = s.ids.filter fun id' ↦ id' ≠ id)
      (hissued : t.issued = s.issued)
      (hversions : t.db.versions = s.db.versions.filter fun row ↦ row.synopticId ≠ id)

/-! ## The versions of one synoptic -/

theorem versionsOf_append (h : t.db.versions = s.db.versions ++ [row]) (id : Uuid) :
    t.db.versionsOf id = s.db.versionsOf id ++ if row.synopticId = id then [row] else [] := by
  rw [SynopticDb.versionsOf, h, List.filter_append, List.filter_singleton]
  by_cases hid : row.synopticId = id <;> simp [SynopticDb.versionsOf, hid]

theorem versionsOf_append_of_ne (h : t.db.versions = s.db.versions ++ [row])
    (hid : row.synopticId ≠ id) : t.db.versionsOf id = s.db.versionsOf id := by
  rw [versionsOf_append h, if_neg hid, List.append_nil]

theorem versionsOf_filter {id' : Uuid}
    (h : t.db.versions = s.db.versions.filter fun row ↦ row.synopticId ≠ id') (hid : id ≠ id') :
    t.db.versionsOf id = s.db.versionsOf id := by
  rw [SynopticDb.versionsOf, h, List.filter_filter]
  refine List.filter_congr fun row _ ↦ ?_
  by_cases hrow : row.synopticId = id <;> simp [hrow, hid]

theorem versionsOf_filter_self
    (h : t.db.versions = s.db.versions.filter fun row ↦ row.synopticId ≠ id) :
    t.db.versionsOf id = [] := by
  rw [SynopticDb.versionsOf, h, List.filter_filter, List.filter_eq_nil_iff]
  simp

theorem Intact.versionsOf_eq_nil (hs : Intact s) (hid : id ∉ s.ids) : s.db.versionsOf id = [] := by
  rw [SynopticDb.versionsOf, List.filter_eq_nil_iff]
  intro row hrow h
  exact hid (of_decide_eq_true h ▸ hs.owned row hrow)

theorem Intact.maxVersion (hs : Intact s) (id : Uuid) :
    (s.db.maxVersion id).getD 0 = (s.db.versionsOf id).length := by
  rw [SynopticDb.maxVersion, hs.numbered id]
  generalize (s.db.versionsOf id).length = n
  cases n with
  | zero => rfl
  | succ n =>
    have hmax : (List.range' 1 (n + 1)).max? = some (n + 1) := by
      rw [List.max?_eq_some_iff]
      refine ⟨by simp, fun v hv ↦ ?_⟩
      have := (List.mem_range'_1.mp hv).2
      omega
    rw [hmax, Option.getD_some]

theorem Intact.hasVersion (hs : Intact s) {v : ℕ} :
    s.db.hasVersion id v = true ↔ 1 ≤ v ∧ v ≤ (s.db.versionsOf id).length := by
  have hmem : s.db.hasVersion id v = true ↔ v ∈ (s.db.versionsOf id).map VersionRow.version := by
    rw [hasVersion_iff, List.mem_map]
    constructor
    · rintro ⟨row, hrow, hid, hversion⟩
      exact ⟨row, List.mem_filter.mpr ⟨hrow, decide_eq_true hid⟩, hversion⟩
    · rintro ⟨row, hrow, hversion⟩
      obtain ⟨hrow, hid⟩ := List.mem_filter.mp hrow
      exact ⟨row, hrow, of_decide_eq_true hid, hversion⟩
  rw [hmem, hs.numbered id, List.mem_range'_1]
  omega

/-! ## What one commit preserves -/

theorem numbered_append
    (hs : ∀ id, (s.db.versionsOf id).map VersionRow.version =
      List.range' 1 (s.db.versionsOf id).length)
    (hversions : t.db.versions = s.db.versions ++ [row])
    (hversion : row.version = (s.db.versionsOf row.synopticId).length + 1) (id : Uuid) :
    (t.db.versionsOf id).map VersionRow.version =
      List.range' 1 (t.db.versionsOf id).length := by
  by_cases hid : row.synopticId = id
  · rw [versionsOf_append hversions, if_pos hid, List.map_append, hs id, List.length_append,
      List.length_singleton, List.range'_concat]
    simp [hversion, hid, Nat.add_comm]
  · rw [versionsOf_append_of_ne hversions hid]
    exact hs id

/-- **Step lemma.** -/
theorem Intact.change (hs : Intact s) (h : Change s t) : Intact t := by
  rcases h with ⟨row, hnew, hversion, hids, hissued, hversions⟩ |
    ⟨row, hid, hversion, hids, hissued, hversions⟩ | ⟨id, hids, hissued, hversions⟩
  · -- a new synoptic: its first version follows none
    have hempty := hs.versionsOf_eq_nil fun h ↦ hnew (hs.issued h)
    refine ⟨numbered_append hs.numbered hversions (by rw [hversion, hempty]; rfl), ?_, ?_, ?_⟩
    · intro id hid
      rw [versionsOf_append hversions]
      rw [hids, List.mem_append, List.mem_singleton] at hid
      rcases hid with hid | rfl
      · simp [hs.created id hid]
      · simp
    · intro row' hrow'
      rw [hids, List.mem_append, List.mem_singleton]
      rw [hversions, List.mem_append, List.mem_singleton] at hrow'
      rcases hrow' with hrow' | rfl
      · exact .inl (hs.owned row' hrow')
      · exact .inr rfl
    · rw [hids, hissued]
      exact List.append_subset.mpr ⟨fun id h ↦ List.mem_append_left _ (hs.issued h),
        List.subset_append_right ..⟩
  · -- a version is added to a synoptic that is there
    refine ⟨numbered_append hs.numbered hversions hversion, ?_, ?_, ?_⟩
    · intro id hid
      rw [versionsOf_append hversions]
      simp [hs.created id (hids ▸ hid)]
    · intro row' hrow'
      rw [hids]
      rw [hversions, List.mem_append, List.mem_singleton] at hrow'
      rcases hrow' with hrow' | rfl
      · exact hs.owned row' hrow'
      · exact hid
    · rw [hids, hissued]
      exact hs.issued
  · -- a synoptic is deleted with its versions
    refine ⟨fun id' ↦ ?_, ?_, ?_, ?_⟩
    · by_cases hid : id' = id
      · rw [hid, versionsOf_filter_self hversions]
        rfl
      · rw [versionsOf_filter hversions hid]
        exact hs.numbered id'
    · intro id' hid'
      obtain ⟨hmem, hne⟩ := List.mem_filter.mp (hids ▸ hid')
      rw [versionsOf_filter hversions (of_decide_eq_true hne)]
      exact hs.created id' hmem
    · intro row hrow
      obtain ⟨hrow, hne⟩ := List.mem_filter.mp (hversions ▸ hrow)
      rw [hids]
      exact List.mem_filter.mpr ⟨hs.owned row hrow, hne⟩
    · rw [hids, hissued]
      exact fun id' h ↦ hs.issued (List.mem_filter.mp h).1

/-- The synoptics of `s` that are still there in `t` have kept their versions. -/
def Extends (s t : SynopticStore) : Prop :=
  s.issued ⊆ t.issued ∧
    ∀ id ∈ s.issued, id ∈ t.ids → id ∈ s.ids ∧ s.db.versionsOf id <+: t.db.versionsOf id

theorem Extends.refl (s : SynopticStore) : Extends s s :=
  ⟨List.Subset.refl _, fun _ _ h ↦ ⟨h, List.prefix_refl _⟩⟩

theorem Extends.trans (h : Extends s t) (h' : Extends t u) : Extends s u := by
  refine ⟨List.Subset.trans h.1 h'.1, fun id hid hmem ↦ ?_⟩
  obtain ⟨hmem, hprefix'⟩ := h'.2 id (h.1 hid) hmem
  obtain ⟨hmem, hprefix⟩ := h.2 id hid hmem
  exact ⟨hmem, hprefix.trans hprefix'⟩

theorem Change.extends (h : Change s t) : Extends s t := by
  rcases h with ⟨row, hnew, hversion, hids, hissued, hversions⟩ |
    ⟨row, hid, hversion, hids, hissued, hversions⟩ | ⟨id, hids, hissued, hversions⟩
  · refine ⟨hissued ▸ List.subset_append_left .., fun id hid hmem ↦ ?_⟩
    have hne : row.synopticId ≠ id := fun h ↦ hnew (h ▸ hid)
    refine ⟨?_, (versionsOf_append_of_ne hversions hne).symm ▸ List.prefix_refl _⟩
    simpa [hids, hne.symm] using hmem
  · refine ⟨hissued ▸ List.Subset.refl _, fun id _ hmem ↦ ⟨hids ▸ hmem, ?_⟩⟩
    rw [versionsOf_append hversions]
    exact List.prefix_append ..
  · refine ⟨hissued ▸ List.Subset.refl _, fun id' _ hmem ↦ ?_⟩
    obtain ⟨hmem, hne⟩ := List.mem_filter.mp (hids ▸ hmem)
    exact ⟨hmem, (versionsOf_filter hversions (of_decide_eq_true hne)).symm ▸ List.prefix_refl _⟩

/-! ## Names -/

/-- A row of `synoptic` after the writes. -/
def renamed (ws : List SynopticWrite) (synoptic : SynopticRow) : SynopticRow :=
  ws.foldl (fun synoptic w ↦
    match w with
    | .rename id name => if synoptic.id = id then { synoptic with name := name } else synoptic
    | _ => synoptic) synoptic

theorem synoptics_run (ws : List SynopticWrite) (s : SynopticDb) :
    (synopticSchema.run ws s).synoptics = s.synoptics.map (renamed ws) := by
  induction ws generalizing s with
  | nil => exact (List.map_id _).symm
  | cons w ws ih =>
    rw [Schema.run_cons, ih]
    cases w with
    | rename id name =>
      simp only [synopticSchema, SynopticWrite.apply, List.map_map]
      rfl
    | insertVersion row => rfl
    | audit row => rfl

theorem id_renamed (ws : List SynopticWrite) (synoptic : SynopticRow) :
    (renamed ws synoptic).id = synoptic.id := by
  induction ws generalizing synoptic with
  | nil => rfl
  | cons w ws ih =>
    refine (ih _).trans ?_
    cases w with
    | rename id name => by_cases h : synoptic.id = id <;> simp [h]
    | insertVersion row => rfl
    | audit row => rfl

theorem renamed_of_not_mem {ws : List SynopticWrite} {synoptic : SynopticRow}
    (h : ∀ name, .rename synoptic.id name ∉ ws) : renamed ws synoptic = synoptic := by
  induction ws with
  | nil => rfl
  | cons w ws ih =>
    have hws : renamed ws synoptic = synoptic :=
      ih fun name hmem ↦ h name (List.mem_cons_of_mem _ hmem)
    cases w with
    | rename id name =>
      have hid : synoptic.id ≠ id := fun heq ↦ h name (heq ▸ List.mem_cons_self)
      simpa [renamed, hid] using hws
    | insertVersion row => exact hws
    | audit row => exact hws

theorem mem_synoptics_of_run {ws : List SynopticWrite} {s : SynopticDb} {synoptic : SynopticRow}
    (h : ∀ name, .rename synoptic.id name ∉ ws)
    (hmem : synoptic ∈ (synopticSchema.run ws s).synoptics) : synoptic ∈ s.synoptics := by
  rw [synoptics_run] at hmem
  obtain ⟨old, hold, rfl⟩ := List.mem_map.mp hmem
  rw [id_renamed] at h
  rw [renamed_of_not_mem h]
  exact hold

/-- What `assignName` writes. -/
def nameWrites (synoptic : SynopticRow) (name : String) : List SynopticWrite :=
  if synoptic.name = name then [] else [.rename synoptic.id name]

theorem eq_of_mem_nameWrites {synoptic : SynopticRow} {name : String} {w : SynopticWrite}
    (h : w ∈ nameWrites synoptic name) : w = .rename synoptic.id name := by
  rw [nameWrites] at h
  split at h
  · exact absurd h List.not_mem_nil
  · exact List.mem_singleton.mp h

theorem insertedRows_nameWrites (synoptic : SynopticRow) (name : String) :
    insertedRows (nameWrites synoptic name) = [] := by
  rw [insertedRows, List.filterMap_eq_nil_iff]
  intro w hw
  rw [eq_of_mem_nameWrites hw]

/-- After the `UPDATE`, if there is one, the synoptic has the name that is inside the version. -/
theorem namedBy_nameWrites {s : SynopticDb} {loaded : SynopticRow} {name : String}
    (hid : loaded.id = row.synopticId) (hname : row.name = .str name)
    (hloaded : s.NameAsLoaded loaded row) (ws : List SynopticWrite)
    (hws : ∀ id name, .rename id name ∉ ws) :
    (synopticSchema.run (nameWrites loaded name ++ ws) s).NamedBy row := by
  rw [Schema.run_append]
  intro synoptic hmem hsame
  have hmem := mem_synoptics_of_run (hws synoptic.id) hmem
  rw [hname]
  refine decide_eq_true ?_
  by_cases hkept : loaded.name = name
  · -- the name is not written: it has to be the one that was loaded
    rw [nameWrites, if_pos hkept, Schema.run_nil] at hmem
    have htext : row.name.isText loaded.name = true := by
      rw [hname, hkept]
      exact decide_eq_true rfl
    exact (hkept.symm.trans (hloaded htext synoptic hmem hsame).symm)
  · rw [nameWrites, if_neg hkept] at hmem
    obtain ⟨old, -, rfl⟩ := List.mem_map.mp hmem
    by_cases hold : old.id = loaded.id
    · rw [if_pos hold]
    · rw [if_neg hold] at hsame
      exact absurd (hsame.trans hid.symm) hold

/-! ## Transactions -/

/-- The outcome is that of a save or a restore, of a synoptic as it was loaded. -/
inductive Stores (loaded : SynopticRow) (row : VersionRow) : SynopticOutcome → Prop where
  | saved (base : Option ℕ) : Stores loaded row (.saved loaded base row)
  | restored (version : ℕ) : Stores loaded row (.restored loaded version row)

/-- What is assumed: `uuid4` never gives an identifier twice and, where `N` asks for it, a name that
a request keeps is still the one it has loaded when it is committed. -/
structure Assumes (N : Prop) (C : Conditions Query SynopticStore Outcome) : Prop where
  fresh : ∀ synoptic row s, C.commit (.created synoptic row) s → synoptic.id ∉ s.issued
  loaded : N → ∀ loaded row r s, Stores loaded row r → C.commit (.edited r) s →
    s.db.NameAsLoaded loaded row

/-- What a transaction has written when it commits, with which outcome. -/
inductive Commits (N : Prop) (s : SynopticStore) : List Write → Outcome → Prop where
  | create (synoptic : SynopticRow) (row : VersionRow) (audit : SynopticAudit)
      (hnew : synoptic.id ∉ s.issued) (hid : row.synopticId = synoptic.id)
      (hversion : row.version = 1) (hname : N → row.name.isText synoptic.name = true) :
      Commits N s [.insertSynoptic synoptic, .edit (.insertVersion row), .edit (.audit audit)]
        (.created synoptic row)
  | edit (ws : List SynopticWrite) (row : VersionRow) (r : SynopticOutcome)
      (hrows : insertedRows ws = [row]) (hrenames : ∀ id name, .rename id name ∈ ws →
        id = row.synopticId)
      (hid : row.synopticId ∈ s.ids)
      (hversion : row.version = (s.db.versionsOf row.synopticId).length + 1)
      (hname : N → (synopticSchema.run ws s.db).NamedBy row)
      (hr : (Outcome.edited r).isError = false) : Commits N s (ws.map .edit) (.edited r)
  | delete (synoptic : SynopticRow) (audit : SynopticAudit) :
      Commits N s [.edit (.audit audit), .deleteVersions synoptic.id, .deleteSynoptic synoptic]
        (.deleted synoptic.id)

variable {N : Prop} {C : Conditions Query SynopticStore Outcome}

theorem Commits.isError (h : Commits N s ws r) : r.isError = false := by
  rcases h with ⟨synoptic, row, audit, hnew, hid, hversion, hname⟩ |
    ⟨ws, row, r, hrows, hrenames, hid, hversion, hname, hr⟩ | ⟨synoptic, audit⟩
  · rfl
  · exact hr
  · rfl

/-- The writes of a save or a restore leave the rest of the store as it is. -/
theorem run_edit (ws : List SynopticWrite) (s : SynopticStore) :
    schema.run (ws.map .edit) s = { s with db := synopticSchema.run ws s.db } := by
  induction ws generalizing s with
  | nil => rfl
  | cons w ws ih =>
    rw [List.map_cons, Schema.run_cons, ih]
    rfl

theorem ids_edit (ws : List SynopticWrite) (s : SynopticStore) :
    (schema.run (ws.map .edit) s).ids = s.ids := by
  rw [run_edit]
  exact ids_run ws s.db

theorem versions_edit {ws : List SynopticWrite} (hrows : insertedRows ws = [row])
    (s : SynopticStore) : (schema.run (ws.map .edit) s).db.versions = s.db.versions ++ [row] := by
  rw [run_edit, ← hrows]
  exact versions_run

theorem ids_create (synoptic : SynopticRow) (row : VersionRow) (audit : SynopticAudit) :
    (schema.run [.insertSynoptic synoptic, .edit (.insertVersion row),
        .edit (.audit audit)] s).ids = s.ids ++ [synoptic.id] := List.map_append

theorem ids_delete (synoptic : SynopticRow) (audit : SynopticAudit) :
    (schema.run [.edit (.audit audit), .deleteVersions synoptic.id,
        .deleteSynoptic synoptic] s).ids =
      s.ids.filter fun id ↦ id ≠ synoptic.id := by
  change (s.db.synoptics.filter _).map SynopticRow.id = (s.db.synoptics.map SynopticRow.id).filter _
  rw [List.filter_map]
  rfl

theorem versions_delete (synoptic : SynopticRow) (audit : SynopticAudit) :
    (schema.run [.edit (.audit audit), .deleteVersions synoptic.id,
        .deleteSynoptic synoptic] s).db.versions =
      s.db.versions.filter fun row ↦ row.synopticId ≠ synoptic.id := by
  change (s.db.versions.filter _).filter _ = _
  rw [List.filter_filter]
  simp

theorem Commits.change (h : Commits N s ws r) : Change s (schema.run ws s) := by
  rcases h with ⟨synoptic, row, audit, hnew, hid, hversion, hname⟩ |
    ⟨ws, row, r, hrows, hrenames, hid, hversion, hname, hr⟩ | ⟨synoptic, audit⟩
  · refine .create row (hid ▸ hnew) hversion ?_ ?_ rfl
    · rw [hid]
      exact ids_create synoptic row audit
    · rw [hid]
      rfl
  · refine .add row hid hversion (ids_edit ws s) ?_ (versions_edit hrows s)
    rw [run_edit]
  · exact .delete synoptic.id (ids_delete synoptic audit) rfl (versions_delete synoptic audit)

/-- What no commit of another transaction invalidates: the synoptic is known. -/
theorem stable_known :
    Stable schema (Commits N) ws fun s ↦ Intact s ∧ id ∈ s.issued := by
  rintro s ws' r ⟨hs, hid⟩ _ h
  exact ⟨hs.change h.change, h.change.extends.1 hid⟩

theorem stable_intact : Stable schema (Commits N) ws Intact :=
  fun _ _ _ hs _ h ↦ hs.change h.change

/-- Once asked for, the highest number is not exceeded by less than there is. -/
theorem stable_le {m : ℕ} :
    Stable schema (Commits N) ws fun s ↦ Intact s ∧ id ∈ s.issued ∧
      (id ∈ s.ids → m ≤ (s.db.versionsOf id).length) := by
  rintro s ws' r ⟨hs, hid, hm⟩ _ h
  refine ⟨hs.change h.change, h.change.extends.1 hid, fun hmem ↦ ?_⟩
  obtain ⟨hmem, hprefix⟩ := h.change.extends.2 id hid hmem
  exact (hm hmem).trans hprefix.length_le

/-- The synoptic of a version that another transaction holds is there, with the same versions. -/
theorem Commits.untouched (h : Commits N s ws r) (hs : Intact s) (hid : row.synopticId ∈ s.ids)
    (hversion : row.version = (s.db.versionsOf row.synopticId).length + 1)
    (hfree : ∀ w ∈ ws, schema.conflicts (.edit (.insertVersion row)) w = false) :
    row.synopticId ∈ (schema.run ws s).ids ∧
      (schema.run ws s).db.versionsOf row.synopticId = s.db.versionsOf row.synopticId := by
  rcases h with ⟨synoptic, row', audit, hnew, hid', hversion', hname⟩ |
    ⟨ws, row', r, hrows, hrenames, hid', hversion', hname, hr⟩ | ⟨synoptic, audit⟩
  · have hne : synoptic.id ≠ row.synopticId := fun h ↦ hnew (h ▸ hs.issued hid)
    have hversions : (schema.run [.insertSynoptic synoptic, .edit (.insertVersion row'),
        .edit (.audit audit)] s).db.versions = s.db.versions ++ [row'] := rfl
    rw [ids_create, versionsOf_append_of_ne hversions (hid' ▸ hne)]
    exact ⟨List.mem_append_left _ hid, rfl⟩
  · have hmem : .edit (.insertVersion row') ∈ ws.map Write.edit := by
      refine List.mem_map_of_mem (mem_insertedRows.mp ?_)
      rw [hrows]
      exact List.mem_singleton_self row'
    have hne : row'.synopticId ≠ row.synopticId := by
      intro h
      have hsame : row'.version = row.version := by rw [hversion', hversion, h]
      have := hfree _ hmem
      simp [schema, Write.conflicts, SynopticWrite.conflicts, h, hsame] at this
    rw [ids_edit, versionsOf_append_of_ne (versions_edit hrows s) hne]
    exact ⟨hid, rfl⟩
  · have hne : row.synopticId ≠ synoptic.id := by
      have := hfree (.deleteSynoptic synoptic) (by simp)
      simpa [schema, Write.conflicts, SynopticWrite.concerns] using this
    rw [ids_delete, versionsOf_filter (versions_delete synoptic audit) hne]
    exact ⟨List.mem_filter.mpr ⟨hid, decide_eq_true hne⟩, rfl⟩

/-- What a transaction that holds a version relies on. -/
structure Holds (row : VersionRow) (s : SynopticStore) : Prop where
  intact : Intact s
  mem : row.synopticId ∈ s.ids
  next : row.version = (s.db.versionsOf row.synopticId).length + 1

/-- The others cannot add a version under its number, or delete the synoptic. -/
theorem stable_holds {ws : List Write} (hrow : .edit (.insertVersion row) ∈ ws) :
    Stable schema (Commits N) ws (Holds row) := by
  intro s ws' r hs hcompatible h
  obtain ⟨hmem, hversions⟩ := h.untouched hs.intact hs.mem hs.next (hcompatible _ hrow)
  exact ⟨hs.intact.change h.change, hmem, hversions ▸ hs.next⟩

theorem next_of_allowed {ws : List SynopticWrite} {m : ℕ} (hws : insertedRows ws = [])
    (hs : Intact s) (hm : id ∈ s.ids → m ≤ (s.db.versionsOf id).length) (hid : row.synopticId = id)
    (hversion : row.version = m + 1)
    (hallowed : schema.allowed (.edit (.insertVersion row)) (schema.run (ws.map .edit) s) = true) :
    row.synopticId ∈ s.ids ∧ row.version = (s.db.versionsOf row.synopticId).length + 1 := by
  subst hid
  obtain ⟨hfound, hfree⟩ := Bool.and_eq_true_iff.mp hallowed
  rw [run_edit] at hfound hfree
  have hmem : row.synopticId ∈ s.ids := by
    obtain ⟨synoptic, hsynoptic⟩ := Option.isSome_iff_exists.mp hfound
    have hid : synoptic.id = row.synopticId := by simpa using List.find?_some hsynoptic
    rw [ids, ← ids_run ws s.db, ← hid]
    exact List.mem_map_of_mem (List.mem_of_find?_eq_some hsynoptic)
  refine ⟨hmem, ?_⟩
  have hversions : (synopticSchema.run ws s.db).versions = s.db.versions := by
    rw [versions_run, hws, List.append_nil]
  have hfree : ¬ s.db.hasVersion row.synopticId row.version = true := by
    rw [hasVersion_iff, ← hversions, ← hasVersion_iff]
    simpa using hfree
  rw [hs.hasVersion] at hfree
  have := hm hmem
  omega

/-- A save or a restore whose version is inserted adds the next version. -/
theorem valid_added {loaded : SynopticRow} {name : String} {audit : SynopticAudit}
    {r : SynopticOutcome} (hC : Assumes N C) (hid : loaded.id = row.synopticId)
    (hname : N → row.name = .str name) (hs : Holds row s) (hr : Stores loaded row r) :
    Valid schema C (Commits N)
      (.read (.edit .refresh) fun _ ↦
        .write (.edit (.audit audit)) (.commit (.edited r)) (.edited .failed))
      ((nameWrites loaded name).map .edit ++ [.edit (.insertVersion row)]) s := by
  refine valid_read (stable_holds (by simp)) hs fun t ht _ ↦ ?_
  refine valid_write (stable_holds (by simp)) ht fun t ht _ ↦ ?_
  refine valid_commit (stable_holds (by simp)) ht fun t ht hcommit ↦ ?_
  have hrows : insertedRows (nameWrites loaded name ++ [.insertVersion row, .audit audit]) =
      [row] := by
    rw [insertedRows_append, insertedRows_nameWrites]
    rfl
  have hrest : ∀ id name, SynopticWrite.rename id name ∉ [.insertVersion row, .audit audit] := by
    simp
  have hrenames : ∀ id name',
      .rename id name' ∈ nameWrites loaded name ++ [.insertVersion row, .audit audit] →
        id = row.synopticId := by
    intro id name' hmem
    rcases List.mem_append.mp hmem with hmem | hmem
    · rw [← hid]
      exact (SynopticWrite.rename.inj (eq_of_mem_nameWrites hmem)).1
    · exact absurd hmem (hrest id name')
  have hnamed : N → (synopticSchema.run
      (nameWrites loaded name ++ [.insertVersion row, .audit audit]) t.db).NamedBy row :=
    fun hN ↦ namedBy_nameWrites hid (hname hN) (hC.loaded hN _ _ _ _ hr hcommit) _ hrest
  have herror : (Outcome.edited r).isError = false := by
    cases hr <;> rfl
  have hcommits := Commits.edit _ row r hrows hrenames ht.mem ht.next hnamed herror
  rw [List.map_append] at hcommits
  rw [List.append_assoc]
  exact hcommits

/-- From the query for the highest number on, a save or a restore that is not refused adds the next
version. -/
theorem valid_insertVersion {query : Query} {loaded : SynopticRow} {doc : SynopticDoc}
    {user : Uuid} {audit : VersionRow → SynopticAudit} {r : VersionRow → SynopticOutcome}
    {refused : Outcome} (hC : Assumes N C) (hid : loaded.id = id) (hdoc : N → doc.Named)
    (hs : Intact s ∧ id ∈ s.issued) (hr : ∀ row, Stores loaded row (r row)) :
    Valid schema C (Commits N)
      (insertVersion query id doc user (fun row ↦
        .write (.edit (.audit (audit row))) (.commit (.edited (r row))) (.edited .failed)) refused)
      ((nameWrites loaded doc.name).map .edit) s := by
  refine valid_read stable_known hs fun t ht _ ↦ ?_
  have hmax : ((schema.run ((nameWrites loaded doc.name).map .edit) t).db.maxVersion id).getD 0 =
      (t.db.versionsOf id).length := by
    rw [← ht.1.maxVersion, SynopticDb.maxVersion, SynopticDb.versionsOf, run_edit, versions_run,
      insertedRows_nameWrites, List.append_nil]
    rfl
  rw [hmax]
  refine valid_write (stable_le (m := (t.db.versionsOf id).length)) ⟨ht.1, ht.2, fun _ ↦ le_rfl⟩
    fun t ht hallowed ↦ ?_
  obtain ⟨hmem, hversion⟩ :=
    next_of_allowed (insertedRows_nameWrites ..) ht.1 ht.2.2 rfl rfl hallowed
  exact valid_added hC hid (fun hN ↦ hdoc hN _ rfl) ⟨ht.1, hmem, hversion⟩ (hr _)

theorem mem_issued_of_synoptic? (hs : Intact s) {synoptic : SynopticRow}
    (h : s.db.synoptic? id = some synoptic) : synoptic.id = id ∧ id ∈ s.issued := by
  have hid : synoptic.id = id := by simpa using List.find?_some h
  exact ⟨hid, hs.issued (hid ▸ List.mem_map_of_mem (List.mem_of_find?_eq_some h))⟩

theorem valid_assignName {synoptic : SynopticRow} {name : String} {k : SynopticProg}
    (hs : Intact s ∧ id ∈ s.issued)
    (h : ∀ t, Intact t ∧ id ∈ t.issued →
      Valid schema C (Commits N) (inStore k) ((nameWrites synoptic name).map .edit) t) :
    Valid schema C (Commits N) (inStore (assignName synoptic name k)) [] s := by
  rw [nameWrites] at h
  unfold assignName
  by_cases hname : synoptic.name = name
  · rw [if_pos hname] at h ⊢
    exact h s hs
  · rw [if_neg hname] at h ⊢
    exact valid_write stable_known hs fun t ht _ ↦ h t ht

theorem valid_saveSynoptic {doc : SynopticDoc} {base : Option ℕ} {user : Uuid} (hC : Assumes N C)
    (hdoc : N → doc.Named) (hs : Intact s) :
    Valid schema C (Commits N) (inStore (saveSynoptic id doc base user)) [] s := by
  refine valid_read stable_intact hs fun t ht _ ↦ ?_
  simp only [Schema.run_nil]
  rcases hsynoptic : t.db.synoptic? id with - | synoptic
  · trivial
  obtain ⟨hsame, hid⟩ := mem_issued_of_synoptic? ht hsynoptic
  refine valid_read stable_known ⟨ht, hid⟩ fun t ht _ ↦ ?_
  simp only [Schema.run_nil]
  rcases obsoleteBase base (t.db.latest id) with - | v
  · refine valid_assignName ht fun u hu ↦ ?_
    rw [inStore_addVersion]
    exact valid_insertVersion (r := SynopticOutcome.saved synoptic base) hC hsame hdoc hu
      fun _ ↦ .saved base
  · trivial

theorem valid_restoreVersion {validate : Json → Except SynopticOutcome SynopticDoc} {version : ℕ}
    {user : Uuid} (hC : Assumes N C)
    (hdocs : N → ∀ content doc, validate content = .ok doc → doc.Named) (hs : Intact s) :
    Valid schema C (Commits N) (inStore (restoreVersion validate id version user)) [] s := by
  refine valid_read stable_intact hs fun t ht _ ↦ ?_
  simp only [Schema.run_nil]
  rcases hsynoptic : t.db.synoptic? id with - | synoptic
  · trivial
  obtain ⟨hsame, hid⟩ := mem_issued_of_synoptic? ht hsynoptic
  refine valid_read stable_known ⟨ht, hid⟩ fun t ht _ ↦ ?_
  simp only [Schema.run_nil]
  rcases t.db.version? id version with - | old
  · trivial
  rcases hdoc : validate old.content with outcome | doc
  · simp only [hdoc]
    trivial
  simp only [hdoc]
  refine valid_assignName ht fun u hu ↦ ?_
  rw [inStore_addVersion]
  exact valid_insertVersion (r := SynopticOutcome.restored synoptic version) hC hsame
    (fun hN ↦ hdocs hN _ doc hdoc) hu fun _ ↦ .restored version

/-- A synoptic is created with its first version, if its identifier is new. -/
theorem valid_created {synoptic : SynopticRow} {audit : SynopticAudit} {refused : Outcome}
    (hC : Assumes N C) (hid : row.synopticId = synoptic.id)
    (hname : N → row.name.isText synoptic.name = true)
    (hs : synoptic.id ∉ s.issued → row.version = 1) :
    Valid schema C (Commits N)
      (.write (.edit (.insertVersion row)) (.read (.edit .refresh) fun _ ↦
        .write (.edit (.audit audit)) (.commit (.created synoptic row)) (.edited .failed)) refused)
      [.insertSynoptic synoptic] s := by
  have hstable : ∀ ws, Stable schema (Commits N) ws fun s ↦ synoptic.id ∉ s.issued →
      row.version = 1 :=
    fun ws s ws' r hs _ h hnew ↦ hs fun hid ↦ hnew (h.change.extends.1 hid)
  refine valid_write (hstable _) hs fun t ht _ ↦ ?_
  refine valid_read (hstable _) ht fun t ht _ ↦ ?_
  refine valid_write (hstable _) ht fun t ht _ ↦ ?_
  refine valid_commit (hstable _) ht fun t ht hcommit ↦ ?_
  have hnew := hC.fresh _ _ _ hcommit
  exact .create synoptic row audit hnew hid (ht hnew) hname

theorem valid_insertSynoptic {slug : String} {doc : SynopticDoc} {user : Uuid} (hC : Assumes N C)
    (hdoc : N → doc.Named) (hs : Intact s) :
    Valid schema C (Commits N) (insertSynoptic ⟨id, doc.name, slug⟩ doc user) [] s := by
  refine valid_write stable_intact hs fun t ht _ ↦ ?_
  refine valid_read stable_intact ht fun t ht _ ↦ ?_
  have hmax : ((schema.run [.insertSynoptic ⟨id, doc.name, slug⟩] t).db.maxVersion id).getD 0 =
      (t.db.versionsOf id).length := ht.maxVersion id
  refine valid_created hC rfl (fun hN ↦ ?_) fun hnew ↦ ?_
  · rw [hdoc hN _ rfl]
    exact decide_eq_true rfl
  -- an identifier that is new has no version
  rw [List.nil_append, hmax, ht.versionsOf_eq_nil fun h ↦ hnew (ht.issued h)]
  rfl

theorem valid_freeSlug {base : String} {k : String → Program} (hs : Intact s)
    (hk : ∀ slug t, Intact t → Valid schema C (Commits N) (k slug) [] t) (n : ℕ) (slug : String)
    (suffix : ℕ) : Valid schema C (Commits N) (freeSlug base k n slug suffix) [] s := by
  induction n generalizing s slug suffix with
  | zero => trivial
  | succ n ih =>
    refine valid_read stable_intact hs fun t ht _ ↦ ?_
    rw [Schema.run_nil]
    by_cases hslug : t.hasSlug slug = true
    · rw [if_pos hslug]
      exact ih ht _ _
    · rw [if_neg hslug]
      exact hk slug t ht

theorem valid_createSynoptic {ascii : String → List Char} {given : Option String}
    {doc : SynopticDoc} {user : Uuid} {attempts : ℕ} (hC : Assumes N C)
    (hdoc : N → doc.Named) (hs : Intact s) :
    Valid schema C (Commits N) (createSynoptic ascii given doc id user attempts) [] s := by
  have hinsert : ∀ slug t, Intact t →
      Valid schema C (Commits N) (insertSynoptic ⟨id, doc.name, slug⟩ doc user) [] t :=
    fun _ _ ht ↦ valid_insertSynoptic hC hdoc ht
  rcases given with - | slug
  · simp only [createSynoptic]
    generalize slugify ascii doc.name = slug
    by_cases hvalid : isValidSlug slug = true
    · simp only [hvalid, if_true]
      exact valid_freeSlug hs hinsert _ _ _
    · simp only [hvalid]
      trivial
  · simp only [createSynoptic]
    generalize (if slug.isEmpty = true then slugify ascii doc.name else slug) = slug
    by_cases hvalid : isValidSlug slug = true
    · simp only [hvalid, if_true]
      exact hinsert slug s hs
    · simp only [hvalid]
      trivial

theorem valid_deleteSynoptic {user : Uuid} :
    Valid schema C (Commits N) (deleteSynoptic id user) [] s := by
  refine valid_read stable_true trivial fun t _ _ ↦ ?_
  simp only [Schema.run_nil]
  rcases hsynoptic : t.db.synoptic? id with - | synoptic
  · trivial
  obtain rfl : synoptic.id = id := by simpa using List.find?_some hsynoptic
  refine valid_read stable_true trivial fun t _ _ ↦ ?_
  refine valid_write stable_true trivial fun t _ _ ↦ ?_
  refine valid_write stable_true trivial fun t _ _ ↦ ?_
  refine valid_write stable_true trivial fun t _ _ ↦ ?_
  exact valid_commit stable_true trivial fun t _ _ ↦ .delete synoptic _

theorem valid_program {validate : Json → Except SynopticOutcome SynopticDoc}
    {ascii : String → List Char} (request : Request) (hC : Assumes N C)
    (hdocs : N → request.Named validate) (hs : Intact s) :
    Valid schema C (Commits N) (request.program validate ascii) [] s := by
  rcases request with ⟨given, doc, id, user, attempts⟩ | request | ⟨id, user⟩
  · exact valid_createSynoptic hC hdocs hs
  · rcases request with ⟨id, doc, base, user⟩ | ⟨id, version, user⟩
    · exact valid_saveSynoptic hC hdocs hs
    · exact valid_restoreVersion hC hdocs hs
  · exact valid_deleteSynoptic

/-! ## Runs -/

theorem assumes_freshIds : Assumes False freshIds := ⟨fun _ _ _ h ↦ h, False.elim⟩

section

variable {ι : Type} [DecidableEq ι] {validate : Json → Except SynopticOutcome SynopticDoc}
  {ascii : String → List Char} {x y : System ι Query SynopticStore Write Outcome}
  {ls : List (Label ι Request)}

theorem sound_run (hx : System.Sound schema freshIds (Commits False) x ∧ Intact x.db)
    (hrun : System.Run schema (Request.program validate ascii) freshIds x ls y) :
    System.Sound schema freshIds (Commits False) y ∧ Intact y.db :=
  System.Run.sound (fun t _ ↦ Intact t)
    (fun request _ _ ht ↦ valid_program request assumes_freshIds False.elim ht)
    (fun _ _ _ _ ht h ↦ ht.change h.change) hx hrun

theorem extends_run (hx : System.Sound schema freshIds (Commits False) x ∧ Intact x.db)
    (hrun : System.Run schema (Request.program validate ascii) freshIds x ls y) :
    Extends x.db y.db :=
  System.Run.relate (fun t _ ↦ Intact t)
    (fun request _ _ ht ↦ valid_program request assumes_freshIds False.elim ht)
    (fun _ _ _ _ ht h ↦ ht.change h.change) Extends Extends.refl Extends.trans
    (fun _ _ _ _ _ h ↦ h.change.extends) hx hrun

/-- **The history of the versions.** In every run, the versions of each synoptic are numbered from 1
on, those there were at any moment are still the same, and a step changes the database only by
committing a request that does not end in an error. -/
theorem versions_kept (validate : Json → Except SynopticOutcome SynopticDoc)
    (ascii : String → List Char) (hs : Intact s) {ls' : List (Label ι Request)}
    (hx : System.Run schema (Request.program validate ascii) freshIds (System.idle s) ls x)
    (hy : System.Run schema (Request.program validate ascii) freshIds x ls' y) :
    (∀ id ∈ y.db.ids, ∃ n ≥ 1,
      (y.db.db.versionsOf id).map VersionRow.version = List.range' 1 n) ∧
    (∀ id ∈ y.db.ids, x.db.db.versionsOf id <+: y.db.db.versionsOf id) ∧
    ∀ l z, Trace.Stepping (System.next schema (Request.program validate ascii))
        (System.Meets schema freshIds) y l z →
      z.db = y.db ∧ z.log = y.log ∨ ∃ r, r.isError = false ∧ z.log = y.log ++ [r] := by
  have hx := sound_run ⟨System.sound_idle s, hs⟩ hx
  have hextends := extends_run hx hy
  have hy := sound_run hx hy
  refine ⟨fun id hid ↦ ?_, fun id hid ↦ ?_, fun l z hz ↦ ?_⟩
  · exact ⟨_, List.length_pos_iff.mpr (hy.2.created id hid), hy.2.numbered id⟩
  · by_cases hissued : id ∈ x.db.issued
    · exact (hextends.2 id hissued hid).2
    · rw [hx.2.versionsOf_eq_nil fun h ↦ hissued (hx.2.issued h)]
      exact List.nil_prefix
  · obtain ⟨-, hsame | ⟨ws, r, h, -, hlog⟩⟩ :=
      hy.1.next (fun request ↦ valid_program request assumes_freshIds False.elim hy.2) hz.1 hz.2
    · exact .inl hsame
    · exact .inr ⟨r, h.isError, hlog⟩

end

/-! ## Two synoptics of one name -/

def noSynoptic : SynopticStore := ⟨⟨[], [], []⟩, []⟩

theorem intact_noSynoptic : Intact noSynoptic := by
  refine ⟨fun id ↦ rfl, ?_, ?_, ?_⟩ <;> simp [noSynoptic, ids]

/-- Every restored version is valid. -/
def acceptStored (content : Json) : Except SynopticOutcome SynopticDoc :=
  .ok ⟨"Chaufferie", content, 0⟩

/-- A synoptic is created, and then a second one, whose slug is derived from the same name. -/
def creations : List (Label ℕ Request) :=
  [.start 0 (.create none ⟨"Chaufferie", .obj [], 0⟩ 1 9 3)] ++ List.replicate 7 (.advance 0) ++
    [.start 0 (.create none ⟨"Chaufferie", .obj [], 0⟩ 2 9 3)] ++ List.replicate 8 (.advance 0)

def saveSecond (base : Option ℕ) : Request := .edit (.save 2 ⟨"Chaufferie", .null, 0⟩ base 9)

/-- Of two saves that overlap, the second is refused, and the first synoptic is then deleted while
version 1 of the second one is restored. -/
def changes : List (Label ℕ Request) :=
  List.flatten [
    [.start 1 (saveSecond (some 1)), .start 2 (saveSecond none)],
    List.replicate 3 (.advance 1), List.replicate 3 (.advance 2), List.replicate 4 (.advance 1),
    [.advance 2, .start 3 (.delete 1 9), .start 4 (.edit (.restore 2 1 9))],
    List.replicate 3 (.advance 3), List.replicate 3 (.advance 4),
    List.replicate 3 (.advance 3), List.replicate 4 (.advance 4)]

theorem versions_kept_changes :
    ∃ x y, System.Run schema (Request.program acceptStored String.toList) freshIds
        (System.idle noSynoptic) creations x ∧
      System.Run schema (Request.program acceptStored String.toList) freshIds x changes y ∧
      x.db.ids = [1, 2] ∧ y.db.ids = [2] ∧
      y.db.db.versions.map (fun row ↦ (row.synopticId, row.version)) = [(2, 1), (2, 2), (2, 3)] ∧
      ∀ id ∈ y.db.ids, x.db.db.versionsOf id <+: y.db.db.versionsOf id := by
  have hends : ((Trace.exec (fun x l ↦ if System.Meets schema freshIds x l then
      System.next schema (Request.program acceptStored String.toList) x l else none)
      (System.idle noSynoptic) creations).bind fun x ↦
      (Trace.exec (fun x l ↦ if System.Meets schema freshIds x l then
        System.next schema (Request.program acceptStored String.toList) x l else none)
        x changes).map fun y ↦ (x.db.ids, y.db.ids,
          y.db.db.versions.map fun row ↦ (row.synopticId, row.version))) =
      some ([1, 2], [2], [(2, 1), (2, 2), (2, 3)]) := by decide
  obtain ⟨x, hx, hends⟩ := Option.bind_eq_some_iff.mp hends
  obtain ⟨y, hy, hends⟩ := Option.map_eq_some_iff.mp hends
  simp only [Prod.mk.injEq] at hends
  obtain ⟨hids, hids', hversions⟩ := hends
  have hx : System.Run schema (Request.program acceptStored String.toList) freshIds
      (System.idle noSynoptic) creations x := .of_exec_checked hx
  have hy : System.Run schema (Request.program acceptStored String.toList) freshIds
      x changes y := .of_exec_checked hy
  exact ⟨x, y, hx, hy, hids, hids', hversions,
    (versions_kept acceptStored String.toList intact_noSynoptic hx hy).2.1⟩

end SynopticStore

end Superviseur
