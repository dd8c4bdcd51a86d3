import Superviseur.Library.Trace
import Mathlib.Logic.Function.Basic

/-!
# Transactions under READ COMMITTED

Any number of transactions run against one store, one statement at a time. A statement sees what is
committed at that moment and the transaction's own writes, nothing else. A write waits while another
transaction holds a write it conflicts with (the same row, the same unique key), and is refused when
a constraint forbids it; then its transaction is rolled back. A commit applies the writes at once.

A transaction is proved correct on its own, against what the others may commit in the meantime:
`Valid C G p ws s` says that `p`, holding the writes `ws` over the committed state `s`, commits only
in a way `G` allows, as long as the others do too. `Run.invariant` puts transactions proved in
this way together, for every interleaving. The conditions `C` are assumptions on what some of the
statements meet.
-/

namespace ReadCommitted

/-- How a store takes writes. -/
structure Schema (σ ω : Type*) where
  apply : ω → σ → σ
  /-- Two writes that two transactions cannot both hold. -/
  conflicts : ω → ω → Bool
  conflicts_comm : ∀ w w', conflicts w w' = conflicts w' w
  /-- The write meets the constraints. -/
  allowed : ω → σ → Bool

/-- What is left of a transaction. -/
inductive Prog (δ σ ω ρ : Type*) where
  /-- A query, and what follows given the state it sees. -/
  | read (l : δ) (k : σ → Prog δ σ ω ρ)
  /-- A write, what follows it, and the outcome if it is refused. -/
  | write (w : ω) (k : Prog δ σ ω ρ) (refused : ρ)
  | commit (r : ρ)
  | rollback (r : ρ)

/-- The committed state, what is left of the transactions, their writes, and the outcomes of those
committed. -/
structure System (ι δ σ ω ρ : Type*) where
  db : σ
  programs : ι → Option (Prog δ σ ω ρ)
  /-- Writes not committed, in order, with their transactions. -/
  pending : List (ι × ω)
  log : List ρ

inductive Label (ι κ : Type*) where
  /-- Transaction `i` begins, for the request `q`. -/
  | start (i : ι) (q : κ)
  /-- Transaction `i` executes its next statement. -/
  | advance (i : ι)
  /-- Transaction `i` is lost: its connection fails, or it is the victim of a deadlock. -/
  | abort (i : ι)

variable {ι κ δ σ ω ρ : Type*}

/-- The transaction in a larger store, of which it sees and writes a part. -/
def Prog.map {δ' σ' ω' ρ' : Type*} (query : δ → δ') (part : σ' → σ) (write : ω → ω')
    (outcome : ρ → ρ') : Prog δ σ ω ρ → Prog δ' σ' ω' ρ'
  | .read l k => .read (query l) fun s ↦ (k (part s)).map query part write outcome
  | .write w k refused => .write (write w) (k.map query part write outcome) (outcome refused)
  | .commit r => .commit (outcome r)
  | .rollback r => .rollback (outcome r)

/-- Several writes, one after the other. -/
def Schema.run (S : Schema σ ω) (ws : List ω) (s : σ) : σ := ws.foldl (fun s w ↦ S.apply w s) s

@[simp] theorem Schema.run_nil (S : Schema σ ω) (s : σ) : S.run [] s = s := rfl

@[simp] theorem Schema.run_cons (S : Schema σ ω) (w : ω) (ws : List ω) (s : σ) :
    S.run (w :: ws) s = S.run ws (S.apply w s) := rfl

theorem Schema.run_append (S : Schema σ ω) (ws ws' : List ω) (s : σ) :
    S.run (ws ++ ws') s = S.run ws' (S.run ws s) := List.foldl_append ..

/-- Two transactions can hold these writes together. -/
def Schema.Compatible (S : Schema σ ω) (ws ws' : List ω) : Prop :=
  ∀ w ∈ ws, ∀ w' ∈ ws', S.conflicts w w' = false

/-! ## Steps -/

namespace System

variable [DecidableEq ι] {x : System ι δ σ ω ρ} {i j : ι}

/-- The writes a transaction holds. -/
def pendingOf (x : System ι δ σ ω ρ) (i : ι) : List ω :=
  (x.pending.filter fun a ↦ a.1 = i).map Prod.snd

/-- What transaction `i` sees. -/
def view (S : Schema σ ω) (x : System ι δ σ ω ρ) (i : ι) : σ := S.run (x.pendingOf i) x.db

/-- Transaction `i` goes on with `p`. -/
def resume (x : System ι δ σ ω ρ) (i : ι) (p : Prog δ σ ω ρ) : System ι δ σ ω ρ :=
  { x with programs := Function.update x.programs i (some p) }

/-- Transaction `i` is over, and holds nothing. -/
def finish (x : System ι δ σ ω ρ) (i : ι) : System ι δ σ ω ρ :=
  { x with
    programs := Function.update x.programs i none
    pending := x.pending.filter fun a ↦ a.1 ≠ i }

/-- One step, where it is possible: a write that has to wait is not. -/
def next (S : Schema σ ω) (program : κ → Prog δ σ ω ρ) (x : System ι δ σ ω ρ) :
    Label ι κ → Option (System ι δ σ ω ρ)
  | .start i q =>
    match x.programs i with
    | none => some (x.resume i (program q))
    | some _ => none
  | .advance i =>
    match x.programs i with
    | none => none
    | some (.read _ k) => some (x.resume i (k (x.view S i)))
    | some (.write w k _) =>
      if x.pending.all fun a ↦ a.1 = i || !S.conflicts w a.2 then
        if S.allowed w (x.view S i) then
          some { x.resume i k with pending := x.pending ++ [(i, w)] }
        else some (x.finish i)
      else none
    | some (.commit r) => some { x.finish i with db := x.view S i, log := x.log ++ [r] }
    | some (.rollback _) => some (x.finish i)
  | .abort i => some (x.finish i)

/-- No transaction yet. -/
def idle (s : σ) : System ι δ σ ω ρ := ⟨s, fun _ ↦ none, [], []⟩

end System

/-! ## Transactions on their own -/

/-- Assumptions: on what a query meets, its own transaction's writes included, and on the committed
state a commit meets. -/
structure Conditions (δ σ ρ : Type*) where
  read : δ → σ → Prop
  commit : ρ → σ → Prop

/-- The next statement of `p` meets the assumptions, seeing `view` over the committed `db`. -/
def Conditions.Holds (C : Conditions δ σ ρ) (p : Option (Prog δ σ ω ρ)) (view db : σ) : Prop :=
  match p with
  | some (.read l _) => C.read l view
  | some (.commit r) => C.commit r db
  | _ => True

instance {C : Conditions δ σ ρ} [∀ l s, Decidable (C.read l s)] [∀ r s, Decidable (C.commit r s)]
    (p : Option (Prog δ σ ω ρ)) (view db : σ) : Decidable (C.Holds p view db) :=
  match p with
  | some (.read l _) => inferInstanceAs (Decidable (C.read l view))
  | some (.commit r) => inferInstanceAs (Decidable (C.commit r db))
  | some (.write _ _ _) | some (.rollback _) => .isTrue trivial
  | none => .isTrue trivial

/-- No assumption. -/
def Conditions.none : Conditions δ σ ρ where
  read _ _ := True
  commit _ _ := True

section

variable (S : Schema σ ω) (C : Conditions δ σ ρ) (G : σ → List ω → ρ → Prop)

/-- Another transaction commits, within `G`, while this one holds `ws`. -/
def Foreign (ws : List ω) (s s' : σ) : Prop :=
  ∃ ws' r, S.Compatible ws ws' ∧ G s ws' r ∧ s' = S.run ws' s

/-- What the others may have done to the committed state meanwhile. -/
abbrev Rely (ws : List ω) : σ → σ → Prop := Relation.ReflTransGen (Foreign S G ws)

/-- What is left of the transaction commits only within `G`. -/
def Valid : Prog δ σ ω ρ → List ω → σ → Prop
  | .read l k, ws, s => ∀ s', Rely S G ws s s' → C.read l (S.run ws s') →
      Valid (k (S.run ws s')) ws s'
  | .write w k _, ws, s => ∀ s', Rely S G ws s s' → S.allowed w (S.run ws s') = true →
      Valid k (ws ++ [w]) s'
  | .commit r, ws, s => ∀ s', Rely S G ws s s' → C.commit r s' → G s' ws r
  | .rollback _, _, _ => True

end

section

variable {S : Schema σ ω} {C : Conditions δ σ ρ} {G : σ → List ω → ρ → Prop}
  {p : Prog δ σ ω ρ} {ws : List ω} {s s' : σ}

theorem Valid.mono (h : Valid S C G p ws s) (hrely : Rely S G ws s s') : Valid S C G p ws s' := by
  cases p with
  | read l k => exact fun t ht ↦ h t (hrely.trans ht)
  | write w k r => exact fun t ht ↦ h t (hrely.trans ht)
  | commit r => exact fun t ht ↦ h t (hrely.trans ht)
  | rollback r => trivial

/-- An assertion that no commit of another transaction invalidates. -/
def Stable (S : Schema σ ω) (G : σ → List ω → ρ → Prop) (ws : List ω) (P : σ → Prop) : Prop :=
  ∀ s ws' r, P s → S.Compatible ws ws' → G s ws' r → P (S.run ws' s)

theorem stable_true : Stable S G ws fun _ ↦ True := fun _ _ _ _ _ _ ↦ trivial

theorem Stable.rely {P : σ → Prop} (h : Stable S G ws P) (hrely : Rely S G ws s s') :
    P s → P s' := by
  induction hrely with
  | refl => exact id
  | tail _ hstep ih =>
    rintro hs
    obtain ⟨ws', r, hcompatible, hG, rfl⟩ := hstep
    exact h _ ws' r (ih hs) hcompatible hG

/-! The rules of the statements: an assertion has to be stable while the statement is waited for. -/

theorem valid_read {l : δ} {k : σ → Prog δ σ ω ρ} {P : σ → Prop} (hstable : Stable S G ws P)
    (hs : P s) (h : ∀ t, P t → C.read l (S.run ws t) → Valid S C G (k (S.run ws t)) ws t) :
    Valid S C G (.read l k) ws s := fun t ht hC ↦ h t (hstable.rely ht hs) hC

theorem valid_write {w : ω} {refused : ρ} {P : σ → Prop} (hstable : Stable S G ws P) (hs : P s)
    (h : ∀ t, P t → S.allowed w (S.run ws t) = true → Valid S C G p (ws ++ [w]) t) :
    Valid S C G (.write w p refused) ws s := fun t ht hw ↦ h t (hstable.rely ht hs) hw

theorem valid_commit {r : ρ} {P : σ → Prop} (hstable : Stable S G ws P) (hs : P s)
    (h : ∀ t, P t → C.commit r t → G t ws r) : Valid S C G (.commit r) ws s :=
  fun t ht hC ↦ h t (hstable.rely ht hs) hC

end

/-! ## All of them together -/

namespace System

variable [DecidableEq ι] {S : Schema σ ω} {C : Conditions δ σ ρ} {G : σ → List ω → ρ → Prop}
  {program : κ → Prog δ σ ω ρ} {x y : System ι δ σ ω ρ} {i j : ι} {l : Label ι κ}

/-- The step meets the conditions. -/
def Meets (S : Schema σ ω) (C : Conditions δ σ ρ) (x : System ι δ σ ω ρ) : Label ι κ → Prop
  | .advance i => C.Holds (x.programs i) (x.view S i) x.db
  | _ => True

instance [∀ l s, Decidable (C.read l s)] [∀ r s, Decidable (C.commit r s)]
    (x : System ι δ σ ω ρ) (l : Label ι κ) : Decidable (Meets S C x l) :=
  match l with
  | .start _ _ => .isTrue trivial
  | .advance _ => inferInstanceAs (Decidable (C.Holds _ _ _))
  | .abort _ => .isTrue trivial

theorem meets_none (S : Schema σ ω) (x : System ι δ σ ω ρ) (l : Label ι κ) :
    Meets S .none x l := by
  rcases l with ⟨i, q⟩ | ⟨i⟩ | ⟨i⟩
  · trivial
  · simp only [Meets, Conditions.Holds]
    split <;> trivial
  · trivial

/-- Every transaction under way is valid, and no two hold conflicting writes. -/
structure Sound (S : Schema σ ω) (C : Conditions δ σ ρ) (G : σ → List ω → ρ → Prop)
    (x : System ι δ σ ω ρ) : Prop where
  valid : ∀ i p, x.programs i = some p → Valid S C G p (x.pendingOf i) x.db
  compatible : ∀ a ∈ x.pending, ∀ b ∈ x.pending, a.1 ≠ b.1 → S.conflicts a.2 b.2 = false
  /-- Only a transaction under way holds writes. -/
  owned : ∀ a ∈ x.pending, x.programs a.1 ≠ none

theorem sound_idle (s : σ) : Sound S C G (idle s : System ι δ σ ω ρ) where
  valid _ _ h := nomatch h
  compatible _ h := absurd h List.not_mem_nil
  owned _ h := absurd h List.not_mem_nil

theorem mem_pendingOf {w : ω} : w ∈ x.pendingOf i ↔ (i, w) ∈ x.pending := by
  rw [pendingOf, List.mem_map]
  constructor
  · rintro ⟨⟨j, w'⟩, hmem, rfl⟩
    obtain ⟨hmem, hj⟩ := List.mem_filter.mp hmem
    rw [← of_decide_eq_true hj]
    exact hmem
  · exact fun h ↦ ⟨(i, w), List.mem_filter.mpr ⟨h, decide_eq_true rfl⟩, rfl⟩

theorem pendingOf_finish_of_ne (h : j ≠ i) : (x.finish i).pendingOf j = x.pendingOf j := by
  simp only [pendingOf, finish, List.filter_filter]
  congr 1
  refine List.filter_congr fun a _ ↦ ?_
  by_cases ha : a.1 = j
  · simp [ha, h]
  · simp [ha]

theorem Sound.pendingOf_eq_nil (hx : Sound S C G x) (h : x.programs i = none) :
    x.pendingOf i = [] := by
  rw [List.eq_nil_iff_forall_not_mem]
  exact fun w hw ↦ hx.owned _ (mem_pendingOf.mp hw) h

/-- What one transaction holds is compatible with what another holds. -/
theorem Sound.compatible_pendingOf (hx : Sound S C G x) (h : j ≠ i) :
    S.Compatible (x.pendingOf j) (x.pendingOf i) :=
  fun _ hw _ hw' ↦ hx.compatible _ (mem_pendingOf.mp hw) _ (mem_pendingOf.mp hw') h

theorem Sound.resume (hx : Sound S C G x) {p : Prog δ σ ω ρ}
    (hp : Valid S C G p (x.pendingOf i) x.db) : Sound S C G (x.resume i p) where
  valid j q hq := by
    by_cases hj : j = i
    · subst hj
      obtain rfl : p = q := by simpa [System.resume] using hq
      exact hp
    · exact hx.valid j q (by simpa [System.resume, hj] using hq)
  compatible := hx.compatible
  owned a ha := by
    by_cases hj : a.1 = i
    · simp [System.resume, hj]
    · simpa [System.resume, hj] using hx.owned a ha

theorem Sound.finish (hx : Sound S C G x) (i : ι) : Sound S C G (x.finish i) where
  valid j q hq := by
    by_cases hj : j = i
    · simp [System.finish, hj] at hq
    · rw [pendingOf_finish_of_ne hj]
      exact hx.valid j q (by simpa [System.finish, hj] using hq)
  compatible a ha b hb :=
    hx.compatible a (List.mem_filter.mp ha).1 b (List.mem_filter.mp hb).1
  owned a ha := by
    obtain ⟨ha, hne⟩ := List.mem_filter.mp ha
    have hne : a.1 ≠ i := of_decide_eq_true hne
    simpa [System.finish, hne] using hx.owned a ha

/-- A write is added to those of its transaction, the others holding none that conflicts. -/
theorem Sound.hold (hx : Sound S C G x) {p : Prog δ σ ω ρ} {w : ω}
    (hfree : ∀ a ∈ x.pending, a.1 ≠ i → S.conflicts w a.2 = false)
    (hp : Valid S C G p (x.pendingOf i ++ [w]) x.db) :
    Sound S C G { x.resume i p with pending := x.pending ++ [(i, w)] } where
  valid j q hq := by
    by_cases hj : j = i
    · subst hj
      obtain rfl : p = q := by simpa [System.resume] using hq
      simpa [pendingOf, System.resume] using hp
    · have hold : x.programs j = some q := by simpa [System.resume, hj] using hq
      have hij : i ≠ j := Ne.symm hj
      simpa [pendingOf, System.resume, hij] using hx.valid j q hold
  compatible a ha b hb hne := by
    rcases List.mem_append.mp ha with ha | ha <;> rcases List.mem_append.mp hb with hb | hb
    · exact hx.compatible a ha b hb hne
    · obtain rfl := List.mem_singleton.mp hb
      rw [S.conflicts_comm]
      exact hfree a ha hne
    · obtain rfl := List.mem_singleton.mp ha
      exact hfree b hb hne.symm
    · obtain rfl := List.mem_singleton.mp ha
      obtain rfl := List.mem_singleton.mp hb
      exact absurd rfl hne
  owned a ha := by
    rcases List.mem_append.mp ha with ha | ha
    · by_cases hj : a.1 = i
      · simp [System.resume, hj]
      · simpa [System.resume, hj] using hx.owned a ha
    · obtain rfl := List.mem_singleton.mp ha
      simp [System.resume]

theorem Sound.commit (hx : Sound S C G x) {r : ρ} (hG : G x.db (x.pendingOf i) r) :
    Sound S C G { x.finish i with db := x.view S i, log := x.log ++ [r] } where
  valid j q hq := by
    by_cases hj : j = i
    · simp [System.finish, hj] at hq
    · have hold : x.programs j = some q := by simpa [System.finish, hj] using hq
      have hforeign : Foreign S G (x.pendingOf j) x.db (x.view S i) :=
        ⟨x.pendingOf i, r, hx.compatible_pendingOf hj, hG, rfl⟩
      have hsame : ({ x.finish i with db := x.view S i, log := x.log ++ [r] } :
          System ι δ σ ω ρ).pendingOf j = x.pendingOf j := pendingOf_finish_of_ne hj
      rw [hsame]
      exact (hx.valid j q hold).mono (.single hforeign)
  compatible := (hx.finish i).compatible
  owned := (hx.finish i).owned

/-- **Step lemma.** A step keeps the transactions sound, and changes the committed state only by a
commit within `G`. -/
theorem Sound.next (hx : Sound S C G x) (hstart : ∀ q, Valid S C G (program q) [] x.db)
    (hmeets : Meets S C x l) (h : next S program x l = some y) :
    Sound S C G y ∧ ((y.db = x.db ∧ y.log = x.log) ∨
      ∃ ws r, G x.db ws r ∧ y.db = S.run ws x.db ∧ y.log = x.log ++ [r]) := by
  rcases l with ⟨i, q⟩ | ⟨i⟩ | ⟨i⟩
  · simp only [System.next] at h
    split at h
    · rename_i hnone
      obtain rfl := Option.some.inj h
      refine ⟨hx.resume ?_, .inl ⟨rfl, rfl⟩⟩
      rw [hx.pendingOf_eq_nil hnone]
      exact hstart q
    · simp at h
  · rcases hp : x.programs i with - | p
    · simp [System.next, hp] at h
    have hvalid := hx.valid i p hp
    simp only [System.next, hp] at h
    simp only [Meets, hp, Conditions.Holds] at hmeets
    cases p with
    | read l k =>
      obtain rfl := Option.some.inj h
      exact ⟨hx.resume (hvalid x.db .refl hmeets), .inl ⟨rfl, rfl⟩⟩
    | write w k r =>
      simp only at h
      split at h
      · rename_i hfree
        split at h
        · rename_i hallowed
          obtain rfl := Option.some.inj h
          refine ⟨hx.hold (fun a ha hne ↦ ?_) (hvalid x.db .refl hallowed), .inl ⟨rfl, rfl⟩⟩
          simpa [hne] using List.all_eq_true.mp hfree a ha
        · obtain rfl := Option.some.inj h
          exact ⟨hx.finish i, .inl ⟨rfl, rfl⟩⟩
      · simp at h
    | commit r =>
      have hG := hvalid x.db .refl hmeets
      obtain rfl := Option.some.inj h
      exact ⟨hx.commit hG, .inr ⟨x.pendingOf i, r, hG, rfl, rfl⟩⟩
    | rollback r =>
      obtain rfl := Option.some.inj h
      exact ⟨hx.finish i, .inl ⟨rfl, rfl⟩⟩
  · obtain rfl := Option.some.inj h
    exact ⟨hx.finish i, .inl ⟨rfl, rfl⟩⟩

/-- A run of the transactions of `program`, its steps meeting the conditions. -/
abbrev Run (S : Schema σ ω) (program : κ → Prog δ σ ω ρ) (C : Conditions δ σ ρ) :
    System ι δ σ ω ρ → List (Label ι κ) → System ι δ σ ω ρ → Prop :=
  Trace.Path (Trace.Stepping (next S program) (Meets S C))

section

variable (I : σ → List ρ → Prop) (hstart : ∀ q s log, I s log → Valid S C G (program q) [] s)
  (hcommit : ∀ s log ws r, I s log → G s ws r → I (S.run ws s) (log ++ [r]))

include hstart hcommit

theorem Sound.keeps (h : Trace.Stepping (System.next S program) (Meets S C) x l y)
    (hx : Sound S C G x ∧ I x.db x.log) : Sound S C G y ∧ I y.db y.log := by
  obtain ⟨hx, hI⟩ := hx
  obtain ⟨hmeets, hnext⟩ := h
  obtain ⟨hy, ⟨hdb, hlog⟩ | ⟨ws, r, hG, hdb, hlog⟩⟩ :=
    hx.next (fun q ↦ hstart q _ _ hI) hmeets hnext
  · exact ⟨hy, by rw [hdb, hlog]; exact hI⟩
  · exact ⟨hy, by rw [hdb, hlog]; exact hcommit _ _ _ _ hI hG⟩

theorem Run.sound (hx : Sound S C G x ∧ I x.db x.log) {ls : List (Label ι κ)}
    (hrun : Run S program C x ls y) : Sound S C G y ∧ I y.db y.log :=
  Trace.Path.invariant (fun x ↦ Sound S C G x ∧ I x.db x.log)
    (fun hx h ↦ Sound.keeps I hstart hcommit h hx) hrun hx

/-- **Soundness.** What every commit within `G` preserves, of the committed state and of the
outcomes, holds throughout every run of transactions that are valid where it holds. -/
theorem Run.invariant {s : σ} (hs : I s []) {ls : List (Label ι κ)}
    (hrun : Run S program C (idle s) ls y) : I y.db y.log :=
  (Run.sound I hstart hcommit ⟨sound_idle s, hs⟩ hrun).2

/-- A reflexive and transitive relation that every commit within `G` respects relates the committed
states of a run. -/
theorem Run.relate (Q : σ → σ → Prop) (hrefl : ∀ s, Q s s)
    (htrans : ∀ {s t u}, Q s t → Q t u → Q s u)
    (hQ : ∀ s log ws r, I s log → G s ws r → Q s (S.run ws s))
    (hx : Sound S C G x ∧ I x.db x.log) {ls : List (Label ι κ)} (hrun : Run S program C x ls y) :
    Q x.db y.db := by
  refine Trace.Path.relate (fun x ↦ Sound S C G x ∧ I x.db x.log) (fun x y ↦ Q x.db y.db)
    (fun x ↦ hrefl x.db) htrans (fun {x l y} hx h ↦ ⟨Sound.keeps I hstart hcommit h hx, ?_⟩) hrun hx
  obtain ⟨-, ⟨hdb, -⟩ | ⟨ws, r, hG, hdb, -⟩⟩ := hx.1.next (fun q ↦ hstart q _ _ hx.2) h.1 h.2
  · exact hdb ▸ hrefl x.db
  · exact hdb ▸ hQ _ _ ws r hx.2 hG

end

end System

/-! ## A transaction that is alone -/

/-- The committed state and the outcome of a transaction that runs to its end with no other; `ws`
are the writes it holds. -/
def Prog.alone (S : Schema σ ω) : Prog δ σ ω ρ → List ω → σ → σ × ρ
  | .read _ k, ws, s => (k (S.run ws s)).alone S ws s
  | .write w k refused, ws, s =>
    if S.allowed w (S.run ws s) then k.alone S (ws ++ [w]) s else (s, refused)
  | .commit r, ws, s => (S.run ws s, r)
  | .rollback r, _, s => (s, r)

end ReadCommitted
