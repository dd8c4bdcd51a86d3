import Superviseur.Front.EditorSave

/-!
# An editor in conflict with itself

Two saves in flight carry the same record. Of two creations the server makes two synoptics, and of
two saves from one version it refuses the second, although nobody else writes. Both are met in one
way: the server decides on a request that does not know of a save it has already made
(`peaceful_iff`).

The record of the editor, and that of every request, is the one of the server as of the answers that
had come: no further behind than that (`AsOf`).
-/

namespace Superviseur.Editor

variable {D S : Type} [DecidableEq S] {json : JsonText D S} {s : Editing D S}

/-- No more than one creation is answered with success, and no save is refused for its version. -/
def Peaceful (s : Editing D S) : Prop := s.created ≤ 1 ∧ s.conflicts = 0

/-- All that the server has made for this editor had been answered when the request on which it
decides was sent. -/
def UpToDate (s : Editing D S) : SaveLabel D → Prop
  | .decides i => ∀ request, s.requests[i]? = some (request, .sent) → request.known = s.accepted
  | _ => True

/-! ## The synoptic of the editor -/

/-- What is known of the synoptic of the editor after `n` answers, `m` saves having been made: the
latest record, or a version that is behind it. -/
structure AsOf (n m : ℕ) (known latest : Option SavedRecord) : Prop where
  le : n ≤ m
  current : n = m → known = latest
  behind : n < m → ∀ r, known = some r → ∃ l, latest = some l ∧ l.id = r.id ∧ r.version < l.version

theorem AsOf.next {n m : ℕ} {known latest : Option SavedRecord} {l : SavedRecord}
    (h : AsOf n m known latest)
    (hl : ∀ r, latest = some r → l.id = r.id ∧ r.version < l.version) :
    AsOf n (m + 1) known (some l) where
  le := Nat.le_succ_of_le h.le
  current := fun heq ↦ absurd heq (by have := h.le; omega)
  behind := by
    intro _ r hr
    refine ⟨l, rfl, ?_⟩
    rcases Nat.eq_or_lt_of_le h.le with heq | hlt
    · exact hl r ((h.current heq).symm.trans hr)
    · obtain ⟨l', hl', hid, hversion⟩ := h.behind hlt r hr
      obtain ⟨hid', hversion'⟩ := hl l' hl'
      exact ⟨hid'.trans hid, hversion.trans hversion'⟩

/-- As long as every request was up to date: the record `latest` is the one of the server, and the
editor and its requests know it as of the answers that had come. -/
structure Sequential (latest : Option SavedRecord) (s : Editing D S) : Prop where
  peaceful : Peaceful s
  /-- The version that the server has. -/
  version : ∀ r, latest = some r → s.versions[r.id]? = some r.version
  record : AsOf s.received s.accepted s.record latest
  sent : ∀ (i : ℕ) (request : SaveRequest D), s.requests[i]? = some (request, .sent) →
    AsOf request.known s.accepted request.basis latest ∧ request.known ≤ s.received
  /-- One answer at most is on its way, that to the last save made. -/
  stored : ∀ (i : ℕ) (request : SaveRequest D) (r : SavedRecord),
    s.requests[i]? = some (request, .stored r) → s.accepted = s.received + 1 ∧ latest = some r ∧
      ∀ (j : ℕ) (request' : SaveRequest D) (r' : SavedRecord),
        s.requests[j]? = some (request', .stored r') → j = i
  /-- Where saves were made but no creation, there was a record from the start. -/
  created : s.created = 0 → s.accepted = 0 ∨ s.record ≠ none ∧
    ∀ (i : ℕ) (request : SaveRequest D), s.requests[i]? = some (request, .sent) →
      request.basis ≠ none
  none_created : latest = none → s.created = 0

omit [DecidableEq S] in
theorem sequential_new (json : JsonText D S) (doc : D) {record : Option SavedRecord}
    {versions : List ℕ} (hopen : ∀ r, record = some r → versions[r.id]? = some r.version) :
    Sequential record (Editing.new json doc record versions) where
  peaceful := ⟨Nat.zero_le 1, rfl⟩
  version := hopen
  record := ⟨le_rfl, fun _ ↦ rfl, fun h ↦ absurd h (lt_irrefl 0)⟩
  sent := by simp [Editing.new]
  stored := by simp [Editing.new]
  created := fun _ ↦ .inl rfl
  none_created := fun _ ↦ rfl

/-! ## One request moves on -/

variable {latest : Option SavedRecord} {i j : ℕ} {request request' : SaveRequest D}
  {stage stage' : SaveStage}

omit [DecidableEq S] in
/-- A request found after another has moved on was there, unless it is that one. -/
theorem getElem?_comes (h : (s.comes i request stage).requests[j]? = some (request', stage')) :
    j ≠ i ∧ s.requests[j]? = some (request', stage') ∨ j = i ∧ stage' = stage := by
  rw [Editing.comes, List.getElem?_set] at h
  by_cases hij : i = j
  · rw [if_pos hij] at h
    split at h
    · exact .inr ⟨hij.symm, ((Prod.mk.inj (Option.some.inj h)).2).symm⟩
    · exact absurd h (by simp)
  · rw [if_neg hij] at h
    exact .inl ⟨Ne.symm hij, h⟩

namespace Sequential

omit [DecidableEq S] in
theorem sent_comes (hstage : stage ≠ .sent)
    (hj : (s.comes i request stage).requests[j]? = some (request', .sent)) :
    s.requests[j]? = some (request', .sent) := by
  rcases getElem?_comes hj with ⟨_, hj⟩ | ⟨_, heq⟩
  · exact hj
  · exact absurd heq.symm hstage

omit [DecidableEq S] in
theorem save (h : Sequential latest s) : Sequential latest s.save := by
  rw [Editing.save]
  split
  · exact h
  have hget : ∀ {j : ℕ} {request' : SaveRequest D} {stage' : SaveStage},
      (s.requests ++ [(⟨s.history.doc, s.record, s.received⟩, .sent)])[j]? =
          some (request', stage') →
        s.requests[j]? = some (request', stage') ∨
          request' = ⟨s.history.doc, s.record, s.received⟩ ∧ stage' = .sent := by
    intro j request' stage' hj
    rw [List.getElem?_append] at hj
    split at hj
    · exact .inl hj
    · exact .inr (Prod.mk.inj (List.mem_singleton.mp (List.mem_of_getElem? hj)))
  exact
    { h with
      sent := by
        intro j request' hj
        rcases hget hj with hj | ⟨rfl, _⟩
        · exact h.sent j request' hj
        · exact ⟨h.record, le_rfl⟩
      stored := by
        intro j request' r hj
        rcases hget hj with hj | ⟨_, heq⟩
        · obtain ⟨haccepted, hlatest, hunique⟩ := h.stored j request' r hj
          refine ⟨haccepted, hlatest, fun k request'' r' hk ↦ ?_⟩
          rcases hget hk with hk | ⟨_, heq⟩
          · exact hunique k request'' r' hk
          · exact absurd heq (by simp)
        · exact absurd heq (by simp)
      created := by
        intro hzero
        refine (h.created hzero).imp_right fun hopen ↦ ⟨hopen.1, fun j request' hj ↦ ?_⟩
        rcases hget hj with hj | ⟨rfl, _⟩
        · exact hopen.2 j request' hj
        · exact hopen.1 }

omit [DecidableEq S] in
theorem ends (h : Sequential latest s) : Sequential latest (s.comes i request .done) :=
  { h with
    sent := fun j request' hj ↦ h.sent j request' (sent_comes (by decide) hj)
    stored := by
      intro j request' r hj
      rcases getElem?_comes hj with ⟨_, hj⟩ | ⟨_, heq⟩
      · obtain ⟨haccepted, hlatest, hunique⟩ := h.stored j request' r hj
        refine ⟨haccepted, hlatest, fun k request'' r' hk ↦ ?_⟩
        rcases getElem?_comes hk with ⟨_, hk⟩ | ⟨_, heq⟩
        · exact hunique k request'' r' hk
        · exact absurd heq (by simp)
      · exact absurd heq (by simp)
    created := fun hzero ↦ (h.created hzero).imp_right fun ⟨hrecord, hsent⟩ ↦
      ⟨hrecord, fun j request' hj ↦ hsent j request' (sent_comes (by decide) hj)⟩ }

omit [DecidableEq S] in
/-- The answer to the last save: the editor knows what the server has. -/
theorem answered {r : SavedRecord} (h : Sequential latest s)
    (hi : s.requests[i]? = some (request, .stored r)) (json : JsonText D S) :
    Sequential latest { s.comes i request .done with
      record := some r
      history := s.history.markSaved json
      acknowledged := some request.doc
      received := s.received + 1 } := by
  obtain ⟨haccepted, hlatest, hunique⟩ := h.stored i request r hi
  exact
    { peaceful := h.peaceful
      version := h.version
      record := by
        refine ⟨haccepted.ge, fun _ ↦ hlatest.symm, fun hlt ↦ ?_⟩
        exact absurd (haccepted ▸ hlt) (lt_irrefl _)
      sent := by
        intro j request' hj
        obtain ⟨hasOf, hknown⟩ := h.sent j request' (sent_comes (by decide) hj)
        exact ⟨hasOf, Nat.le_succ_of_le hknown⟩
      stored := by
        intro j request' r' hj
        rcases getElem?_comes hj with ⟨hne, hj⟩ | ⟨_, heq⟩
        · exact absurd (hunique j request' r' hj) hne
        · exact absurd heq (by simp)
      created := by
        intro hzero
        refine .inr ⟨by simp, fun j request' hj ↦ ?_⟩
        rcases h.created hzero with hnone | ⟨_, hsent⟩
        · exact absurd (haccepted.symm.trans hnone) (Nat.succ_ne_zero _)
        · exact hsent j request' (sent_comes (by decide) hj)
      none_created := h.none_created }

omit [DecidableEq S] in
/-- A request that is up to date was sent when every answer had come, on the latest record. -/
theorem upToDate (h : Sequential latest s) (hi : s.requests[i]? = some (request, .sent))
    (hknown : request.known = s.accepted) : s.received = s.accepted ∧ request.basis = latest := by
  obtain ⟨hasOf, hle⟩ := h.sent i request hi
  have := h.record.le
  exact ⟨by omega, hasOf.current hknown⟩

omit [DecidableEq S] in
/-- The server makes a save: what is known is as it was, and the latest record is a new one. -/
theorem accepts {l : SavedRecord} {versions : List ℕ} {created : ℕ} (h : Sequential latest s)
    (hreceived : s.received = s.accepted)
    (hl : ∀ r, latest = some r → l.id = r.id ∧ r.version < l.version)
    (hversion : versions[l.id]? = some l.version) (hpeaceful : created ≤ 1)
    (hcreated : created = 0 → s.record ≠ none ∧
      ∀ (j : ℕ) (request' : SaveRequest D), s.requests[j]? = some (request', .sent) →
        request'.basis ≠ none) :
    Sequential (some l) { s.comes i request (.stored l) with
      versions := versions
      created := created
      accepted := s.accepted + 1 } where
  peaceful := ⟨hpeaceful, h.peaceful.2⟩
  version := by
    intro r hr
    obtain rfl := Option.some.inj hr
    exact hversion
  record := h.record.next hl
  sent := by
    intro j request' hj
    obtain ⟨hasOf, hknown⟩ := h.sent j request' (sent_comes (by simp) hj)
    exact ⟨hasOf.next hl, hknown⟩
  stored := by
    -- Before this one, no answer was on its way.
    have hnone : ∀ (j : ℕ) (request' : SaveRequest D) (r' : SavedRecord),
        s.requests[j]? ≠ some (request', .stored r') := by
      intro j request' r' hj
      have := (h.stored j request' r' hj).1
      omega
    intro j request' r' hj
    rcases getElem?_comes hj with ⟨_, hj⟩ | ⟨rfl, heq⟩
    · exact absurd hj (hnone j request' r')
    · obtain rfl := SaveStage.stored.inj heq
      refine ⟨congrArg (· + 1) hreceived.symm, rfl, fun k request'' r'' hk ↦ ?_⟩
      rcases getElem?_comes hk with ⟨_, hk⟩ | ⟨heq, _⟩
      · exact absurd hk (hnone k request'' r'')
      · exact heq
  created := by
    intro hzero
    obtain ⟨hrecord, hsent⟩ := hcreated hzero
    exact .inr ⟨hrecord, fun j request' hj ↦ hsent j request' (sent_comes (by simp) hj)⟩
  none_created := by simp

omit [DecidableEq S] in
/-- **What the server's decision keeps**, on a request that is up to date. -/
theorem decides (h : Sequential latest s) (hupToDate : UpToDate s (.decides i)) :
    ∃ latest', Sequential latest' (s.decides i) := by
  rw [Editing.decides]
  split
  case h_2 => exact ⟨latest, h⟩
  case h_1 request hi =>
    obtain ⟨hreceived, hbasis⟩ := h.upToDate hi (hupToDate request hi)
    split
    case h_1 hnone =>
      have hlatest : latest = none := hbasis.symm.trans hnone
      have hzero := h.none_created hlatest
      refine ⟨_, h.accepts hreceived ?_ ?_ (by omega) (by simp)⟩
      · simp [hlatest]
      · exact List.getElem?_concat_length
    case h_2 r hr =>
      have hlatest : latest = some r := hbasis.symm.trans hr
      have hversion := h.version r hlatest
      rw [if_pos hversion]
      refine ⟨_, h.accepts hreceived ?_ ?_ h.peaceful.1 ?_⟩
      · intro r' hr'
        obtain rfl := Option.some.inj (hlatest.symm.trans hr')
        exact ⟨rfl, Nat.lt_succ_self _⟩
      · exact List.getElem?_set_self (List.getElem?_eq_some_iff.mp hversion).1
      · intro hzero
        rcases h.created hzero with hnone | hcreated
        · -- Nothing has been saved yet: all the requests carry the record of the start.
          have hrecord := h.record.current hreceived
          refine ⟨by rw [hrecord, hlatest]; simp, fun j request' hj ↦ ?_⟩
          obtain ⟨hasOf, _⟩ := h.sent j request' hj
          rw [hasOf.current (by have := hasOf.le; omega), hlatest]
          simp
        · exact hcreated

omit [DecidableEq S] in
/-- A request that does not know of a save is a second creation, or a conflict. -/
theorem not_peaceful (h : Sequential latest s) (hstale : ¬ UpToDate s (.decides i)) :
    ¬ Peaceful (s.decides i) := by
  rw [UpToDate] at hstale
  push Not at hstale
  obtain ⟨request, hi, hne⟩ := hstale
  obtain ⟨hasOf, _⟩ := h.sent i request hi
  have hlt : request.known < s.accepted := lt_of_le_of_ne hasOf.le hne
  rw [Editing.decides, hi]
  dsimp only
  cases hbasis : request.basis with
  | none =>
    have hcreated : s.created ≠ 0 := by
      intro hzero
      rcases h.created hzero with hnone | ⟨_, hsent⟩
      · omega
      · exact hsent i request hi hbasis
    rintro ⟨hle, _⟩
    have hle' : s.created + 1 ≤ 1 := hle
    omega
  | some r =>
    obtain ⟨l, hl, hid, hversion⟩ := hasOf.behind hlt r hbasis
    have hserver := h.version l hl
    rw [hid] at hserver
    have hconflict : s.versions[r.id]? ≠ some r.version := by
      rw [hserver]
      intro heq
      have := Option.some.inj heq
      omega
    dsimp only
    rw [if_neg hconflict]
    exact fun hpeaceful ↦ Nat.succ_ne_zero _ hpeaceful.2

theorem step {label : SaveLabel D} (h : Sequential latest s) (hupToDate : UpToDate s label) :
    ∃ latest', Sequential latest' (s.step json label) := by
  cases label with
  | edit call => exact ⟨latest, { h with }⟩
  | pause paused => exact ⟨latest, { h with }⟩
  | save => exact ⟨latest, h.save⟩
  | decides i => exact h.decides hupToDate
  | fails i =>
    refine ⟨latest, ?_⟩
    rw [Editing.step, Editing.fails]
    split
    · exact h.ends
    · exact h
  | receives i =>
    refine ⟨latest, ?_⟩
    rw [Editing.step, Editing.receives]
    split
    · exact h.answered ‹_› json
    · exact h
  | loses i =>
    refine ⟨latest, ?_⟩
    rw [Editing.step, Editing.loses]
    split
    · exact h.ends
    · exact h

end Sequential

/-- **One creation at most is answered with success and no save is refused for its version, in any
state reached, if and only if every request on which the server decides knows of all the saves that
it has made.** -/
theorem peaceful_iff (json : JsonText D S) (doc : D) {record : Option SavedRecord}
    {versions : List ℕ} (hopen : ∀ r, record = some r → versions[r.id]? = some r.version)
    (labels : List (SaveLabel D)) :
    (∀ past, past <+: labels → Peaceful ((Editing.new json doc record versions).run json past)) ↔
      ∀ past label, past ++ [label] <+: labels →
        UpToDate ((Editing.new json doc record versions).run json past) label := by
  refine Trace.forall_prefix_iff (I := fun s ↦ ∃ latest, Sequential latest s) ?_ ?_ ?_
    ⟨record, sequential_new json doc hopen⟩ labels
  · exact fun ⟨latest, h⟩ ↦ h.peaceful
  · exact fun ⟨latest, h⟩ hupToDate ↦ h.step hupToDate
  · intro s label ⟨latest, h⟩ hstale
    cases label with
    | decides i => exact h.not_peaceful hstale
    | edit _ | pause _ | save | fails _ | receives _ | loses _ => exact absurd trivial hstale

/-- An editor that opens version 3 and saves twice, the second time once the first is answered. -/
theorem peaceful_iff_twice :
    let editor : Editing Bool String := .new boolText false (some ⟨0, 3⟩) [3]
    let labels : List (SaveLabel Bool) :=
      [.save, .decides 0, .receives 0, .save, .decides 1, .receives 1]
    (editor.run boolText labels).versions = [5] ∧
      ((∀ past, past <+: labels → Peaceful (editor.run boolText past)) ↔
        ∀ past label, past ++ [label] <+: labels → UpToDate (editor.run boolText past) label) :=
  ⟨by decide, peaceful_iff boolText false (by simp) _⟩

/-- The key is pressed twice on a new document: two synoptics are created. -/
theorem not_peaceful_run :
    ¬ ∀ (labels past : List (SaveLabel Bool)), past <+: labels →
      Peaceful ((Editing.new boolText false none []).run boolText past) := by
  intro h
  have hcreated := (h [.save, .save, .decides 0, .decides 1] _ List.prefix_rfl).1
  exact absurd hcreated (by decide)

/-- On a synoptic that exists, the second save is refused. -/
example : ((Editing.new boolText false (some ⟨0, 3⟩) [3]).run boolText
    [.save, .save, .decides 0, .decides 1]).conflicts = 1 := by
  decide

end Superviseur.Editor
