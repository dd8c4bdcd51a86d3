import Superviseur.Alarms.Messages
import Superviseur.Library.Trace
import Mathlib.Data.List.Chain

/-!
# The life of an alarm, as it is published

An alarm seen from outside is the sequence of the messages about it. `Link` is one message: it takes
the alarm from its stored state, `none` before it is stored, to the next. A `Walk` is a path of such
messages. This is the diagram of the machine with `normal` and `pending` gone, since nothing is
stored there, and with one more edge: the alarm of a rule that is no longer loaded is closed from
whichever state it is in.
-/

namespace Superviseur

/-- `Link s m s'`: message `m` takes an alarm from the stored state `s` to `s'`. -/
inductive Link : Option AlarmState → AlarmMessage → Option AlarmState → Prop
  | raised {info : AlarmInfo} (hstate : info.state = .activeUnacked) :
      Link none ⟨.raised, .full info⟩ (some .activeUnacked)
  | edge {s s' : AlarmState} {kind : TransitionKind} {info : AlarmInfo} (hs : s.isOpen = true)
      (h : Edge s kind s') (hstate : info.state = s') : Link (some s) ⟨kind, .full info⟩ (some s')
  | orphan {s : AlarmState} {id : Uuid} (hs : s.isOpen = true) :
      Link (some s) ⟨.normal, .orphan id .normal⟩ (some .normal)

/-- The messages `ms` lead an alarm from `s` to `s'`. -/
abbrev Walk : Option AlarmState → List AlarmMessage → Option AlarmState → Prop := Trace.Path Link

namespace Link

variable {s s' : Option AlarmState} {m : AlarmMessage}

theorem state_eq (h : Link s m s') : s' = some m.state := by
  rcases h with hstate | ⟨_, _, hstate⟩ | _
  · exact congrArg some hstate.symm
  · exact congrArg some hstate.symm
  · rfl

theorem ne (h : Link s m s') : s ≠ some m.state := by
  rw [← h.state_eq]
  rcases h with _ | ⟨_, hedge, _⟩ | hs
  · exact fun h ↦ nomatch h
  · exact fun h ↦ hedge.ne (Option.some.inj h)
  · rintro ⟨⟩
    exact absurd hs (by decide)

theorem ne_normal (h : Link s m s') : s ≠ some .normal := by
  rcases h with _ | ⟨hs, _, _⟩ | hs
  · exact fun h ↦ nomatch h
  · rintro ⟨⟩
    exact absurd hs (by decide)
  · rintro ⟨⟩
    exact absurd hs (by decide)

/-- The acknowledgement is behind an alarm in this state. -/
def Acknowledged (s : Option AlarmState) : Prop := s = some .activeAcked ∨ s = some .normal

theorem acknowledged_of_acked (h : Link s m s') (hm : m.transition = .acked) :
    ¬ Acknowledged s ∧ Acknowledged s' := by
  rcases h with _ | ⟨_, hedge, _⟩ | _
  · cases hm
  · cases hedge <;> simp_all [Acknowledged]
  · cases hm

theorem acknowledged (h : Link s m s') (hs : Acknowledged s) : Acknowledged s' := by
  rcases h with _ | ⟨_, hedge, _⟩ | _
  · simp [Acknowledged] at hs
  · cases hedge <;> simp_all [Acknowledged]
  · exact .inr rfl

end Link

namespace Walk

variable {s s' : Option AlarmState} {m : AlarmMessage} {ms : List AlarmMessage}

theorem head_raised (h : Walk none (m :: ms) s') :
    m.transition = .raised ∧ m.state = .activeUnacked := by
  rcases h with _ | ⟨hlink, -⟩
  rcases hlink with hstate | _ | _
  exact ⟨rfl, hstate⟩

theorem isChain (h : Walk s ms s') : (s :: ms.map fun m ↦ some m.state).IsChain (· ≠ ·) := by
  induction h with
  | nil s => exact .singleton s
  | @cons s t u m ms hlink _ ih =>
    rw [List.map_cons, List.isChain_cons_cons]
    refine ⟨hlink.ne, ?_⟩
    rwa [← hlink.state_eq]

theorem eq_nil_of_normal (h : Walk (some .normal) ms s') : ms = [] := by
  rcases h with _ | ⟨hlink, -⟩
  · rfl
  · exact absurd rfl hlink.ne_normal

theorem nothing_after_normal {pre post : List AlarmMessage} (h : Walk s (pre ++ m :: post) s')
    (hm : m.state = .normal) : post = [] := by
  obtain ⟨t, -, hrest⟩ := Trace.Path.of_append h
  rcases hrest with _ | ⟨hlink, hpost⟩
  rw [hlink.state_eq, hm] at hpost
  exact eq_nil_of_normal hpost

/-- At most one message is an acknowledgement, and none once it is behind. -/
theorem countP_acked_le (h : Walk s ms s') :
    (Link.Acknowledged s → ms.countP (fun m ↦ m.transition = .acked) = 0) ∧
      ms.countP (fun m ↦ m.transition = .acked) ≤ 1 := by
  induction h with
  | nil s => exact ⟨fun _ ↦ rfl, Nat.zero_le _⟩
  | @cons s t u m ms hlink _ ih =>
    by_cases hm : m.transition = .acked
    · obtain ⟨hnot, hacked⟩ := hlink.acknowledged_of_acked hm
      refine ⟨fun hs ↦ absurd hs hnot, ?_⟩
      rw [List.countP_cons_of_pos (by simpa using hm), ih.1 hacked]
    · rw [List.countP_cons_of_neg (by simpa using hm)]
      exact ⟨fun hs ↦ ih.1 (hlink.acknowledged hs), ih.2⟩

end Walk

end Superviseur
