import Superviseur.Api.Validated
import Superviseur.Api.VersionHistory

/-!
# The name in the list of synoptics

A synoptic is listed under a name of its own, which a save or a restore sets to the one in the
document. The ORM emits no `UPDATE` where the document keeps the name that was loaded: if another
request commits another name in the meantime, that name stays, and the new version has the old one
inside. Where none does, every synoptic is listed under the name in its latest version.
-/

namespace Superviseur

namespace SynopticStore

open ReadCommitted

variable {s t : SynopticStore} {id : Uuid} {row : VersionRow} {ws : List Write} {r : Outcome}

/-- Each synoptic has the name inside its latest version. -/
def Listed (s : SynopticStore) : Prop :=
  ∀ synoptic ∈ s.db.synoptics, ∀ row, s.db.latest synoptic.id = some row →
    row.name = .str synoptic.name

/-- Where a save or a restore keeps the name it has loaded, this is still the name of the synoptic
when it is committed; `uuid4` never gives an identifier twice. -/
def nameKept : Conditions Query SynopticStore Outcome where
  read _ _ := True
  commit
    | .edited (.saved loaded _ row), s | .edited (.restored loaded _ row), s =>
      s.db.NameAsLoaded loaded row
    | .edited (.refused _ _), _ | .edited .failed, _ => True
    | .created synoptic _, s => synoptic.id ∉ s.issued
    | .deleted _, _ => True

instance (query : Query) (s : SynopticStore) : Decidable (nameKept.read query s) :=
  .isTrue trivial

instance (r : Outcome) (s : SynopticStore) : Decidable (nameKept.commit r s) :=
  match r with
  | .edited (.saved loaded _ row) | .edited (.restored loaded _ row) =>
    inferInstanceAs (Decidable (s.db.NameAsLoaded loaded row))
  | .created synoptic _ => inferInstanceAs (Decidable (synoptic.id ∉ s.issued))
  | .edited (.refused _ _) | .edited .failed | .deleted _ => .isTrue trivial

theorem assumes_nameKept : Assumes True nameKept where
  fresh _ _ _ h := h
  loaded _ loaded row r s hr h := by
    cases hr <;> exact h

/-! ## The latest version -/

theorem Intact.version_le (hs : Intact s) (hrow : row ∈ s.db.versionsOf id) :
    row.version ≤ (s.db.versionsOf id).length := by
  have hmem : row.version ∈ (s.db.versionsOf id).map VersionRow.version :=
    List.mem_map_of_mem hrow
  rw [hs.numbered id, List.mem_range'_1] at hmem
  omega

theorem Intact.latest_append (hs : Intact s) (hversions : t.db.versions = s.db.versions ++ [row])
    (hversion : row.version = (s.db.versionsOf row.synopticId).length + 1) :
    t.db.latest row.synopticId = some row := by
  rw [SynopticDb.latest, versionsOf_append hversions, if_pos rfl, List.argmax_concat]
  rcases hlatest : (s.db.versionsOf row.synopticId).argmax VersionRow.version with - | last
  · rfl
  · have := hs.version_le (List.argmax_mem hlatest)
    simp only [show last.version < row.version by omega, if_true]

theorem latest_congr (h : t.db.versionsOf id = s.db.versionsOf id) :
    t.db.latest id = s.db.latest id := congrArg _ h

theorem eq_str_of_isText {x : Json} {text : String} (h : x.isText text = true) : x = .str text := by
  cases x with
  | str s => rw [of_decide_eq_true h]
  | null | bool b | int n | float x | arr items | obj fields => nomatch h

/-- **Step lemma.** -/
theorem Listed.commit (hl : Listed s) (hs : Intact s) (h : Commits True s ws r) :
    Listed (schema.run ws s) := by
  intro synoptic hmem latest hlatest
  rcases h with ⟨created, row, audit, hnew, hid, hversion, hname⟩ |
    ⟨ws, row, r, hrows, hrenames, hid, hversion, hname, hr⟩ | ⟨deleted, audit⟩
  · have hversions : (schema.run [.insertSynoptic created, .edit (.insertVersion row),
        .edit (.audit audit)] s).db.versions = s.db.versions ++ [row] := rfl
    rcases List.mem_append.mp (show synoptic ∈ s.db.synoptics ++ [created] from hmem) with
      hmem | hmem
    · have hne : row.synopticId ≠ synoptic.id := fun h ↦
        hnew (hid ▸ h ▸ hs.issued (List.mem_map_of_mem hmem))
      rw [latest_congr (versionsOf_append_of_ne hversions hne)] at hlatest
      exact hl synoptic hmem latest hlatest
    · obtain rfl := List.mem_singleton.mp hmem
      have hempty := hs.versionsOf_eq_nil fun h ↦ hnew (hs.issued h)
      have hrow := hs.latest_append hversions (by rw [hid, hempty]; exact hversion)
      rw [← hid, hrow] at hlatest
      rw [← Option.some.inj hlatest]
      exact eq_str_of_isText (hname trivial)
  · by_cases hsame : synoptic.id = row.synopticId
    · rw [hsame, hs.latest_append (versions_edit hrows s) hversion] at hlatest
      rw [run_edit] at hmem
      rw [← Option.some.inj hlatest]
      exact eq_str_of_isText (hname trivial synoptic hmem hsame)
    · rw [latest_congr (versionsOf_append_of_ne (versions_edit hrows s) (Ne.symm hsame))] at hlatest
      rw [run_edit] at hmem
      have hold := mem_synoptics_of_run (fun name h ↦ hsame (hrenames _ name h)) hmem
      exact hl synoptic hold latest hlatest
  · obtain ⟨hmem, hne⟩ := List.mem_filter.mp hmem
    rw [latest_congr (versionsOf_filter (versions_delete deleted audit) (of_decide_eq_true hne))]
      at hlatest
    exact hl synoptic hmem latest hlatest

theorem valid_document {N : Prop} {C : Conditions Query SynopticStore Outcome}
    (env : RequestEnv) (request : DocumentRequest) (hC : Assumes N C) (hs : Intact s) :
    Valid schema C (Commits N) (request.program env) [] s := by
  rcases request.program_eq env with ⟨outcome, h⟩ | ⟨request', hnamed, h⟩
  · rw [h]
    trivial
  · rw [h]
    exact valid_program request' hC (fun _ ↦ hnamed) hs

/-- **Each synoptic is listed under the name in its latest version**, in every run in which no other
name is committed between the moment a request loads the one it keeps and its own commit. -/
theorem listed_while_kept {ι : Type} [DecidableEq ι] (env : RequestEnv) (hs : Intact s)
    (hl : Listed s) {x : System ι Query SynopticStore Write Outcome}
    {ls : List (Label ι DocumentRequest)}
    (hrun : System.Run schema (DocumentRequest.program env) nameKept (System.idle s) ls x) :
    Listed x.db := by
  refine (System.Run.invariant (G := Commits True)
      (fun t _ ↦ Intact t ∧ Listed t) ?_ ?_ ⟨hs, hl⟩ hrun).2
  · exact fun request t _ ht ↦ valid_document env request assumes_nameKept ht.1
  · exact fun t _ ws r ht h ↦ ⟨ht.1.change h.change, ht.2.commit ht.1 h⟩

/-! ## A name that is kept, and one that is not -/

theorem listed_noSynoptic : Listed noSynoptic := fun _ h ↦ absurd h List.not_mem_nil

/-- A document that only has a name. -/
def titled (name : String) : Dict := [("name", .str name)]

def createTitled (name : String) : List (Label ℕ DocumentRequest) :=
  .start 0 (.create none (titled name) 1 9 1) :: List.replicate 7 (.advance 0)

/-- The name changes, and then a save keeps it. -/
def oneAfterTheOther : List (Label ℕ DocumentRequest) :=
  List.flatten [createTitled "A",
    .start 1 (.save 1 (titled "B") none 9) :: List.replicate 8 (.advance 1),
    .start 2 (.save 1 (titled "B") none 9) :: List.replicate 7 (.advance 2)]

theorem listed_while_kept_renamed :
    ∃ x, System.Run schema (DocumentRequest.program plainEnv) nameKept (System.idle noSynoptic)
        oneAfterTheOther x ∧
      x.db.db.versions.map VersionRow.version = [1, 2, 3] ∧ Listed x.db := by
  have hends : ((Trace.exec (fun x l ↦ if System.Meets schema nameKept x l then
      System.next schema (DocumentRequest.program plainEnv) x l else none)
      (System.idle noSynoptic) oneAfterTheOther).map fun x ↦
        x.db.db.versions.map VersionRow.version) = some [1, 2, 3] := by decide
  obtain ⟨x, hx, hends⟩ := Option.map_eq_some_iff.mp hends
  have hrun : System.Run schema (DocumentRequest.program plainEnv) nameKept
      (System.idle noSynoptic) oneAfterTheOther x := .of_exec_checked hx
  exact ⟨x, hrun, hends, listed_while_kept plainEnv intact_noSynoptic listed_noSynoptic hrun⟩

/-- A save that keeps the name starts before another one changes it, and commits after. -/
def keptTooLate : List (Label ℕ DocumentRequest) :=
  List.flatten [createTitled "A",
    .start 2 (.save 1 (titled "A") none 9) :: List.replicate 2 (.advance 2),
    .start 1 (.save 1 (titled "B") none 9) :: List.replicate 8 (.advance 1),
    List.replicate 5 (.advance 2)]

/-- The synoptic is listed as `B`, and its latest version is called `A`. -/
theorem not_listed :
    ¬ ∀ (s : SynopticStore) (ls : List (Label ℕ DocumentRequest))
      (x : System ℕ Query SynopticStore Write Outcome), Intact s → Listed s →
      System.Run schema (DocumentRequest.program plainEnv) freshIds (System.idle s) ls x →
      Listed x.db := by
  intro hall
  have hends : ((Trace.exec (fun x l ↦ if System.Meets schema freshIds x l then
      System.next schema (DocumentRequest.program plainEnv) x l else none)
      (System.idle noSynoptic) keptTooLate).map fun x ↦
        (x.db.db.synoptics.map fun synoptic ↦ (synoptic.id, synoptic.name),
          (x.db.db.latest 1).map fun row ↦ row.name.isText "A")) =
      some ([(1, "B")], some true) := by decide
  obtain ⟨x, hx, hends⟩ := Option.map_eq_some_iff.mp hends
  obtain ⟨hsynoptics, hlatest⟩ := Prod.mk.inj hends
  obtain ⟨row, hrow, hname⟩ := Option.map_eq_some_iff.mp hlatest
  have hmem : (1, "B") ∈ x.db.db.synoptics.map fun synoptic ↦ (synoptic.id, synoptic.name) :=
    hsynoptics ▸ List.mem_singleton_self _
  obtain ⟨synoptic, hmem, hsynoptic⟩ := List.mem_map.mp hmem
  obtain ⟨hid, hb⟩ := Prod.mk.inj hsynoptic
  have hlisted := hall noSynoptic keptTooLate x intact_noSynoptic listed_noSynoptic
    (.of_exec_checked hx) synoptic hmem row (hid ▸ hrow)
  rw [hlisted, hb] at hname
  exact absurd hname (by decide)

end SynopticStore

end Superviseur
