import Superviseur.Alarms.AntiFlood
import Superviseur.Api.AlarmRules

/-!
# Who receives a notification

The channels of a rule designate recipients: an address, the default addresses, or a webhook. The
routing goes through the channels one by one, so that a recipient is sent a notification as many
times as it is designated. It is sent it once, whatever the channels, exactly where these are
distinct and the default addresses overlap neither each other nor the others
(`sentOnce_iff_distinct`).
-/

namespace Superviseur

namespace Notifier

/-- A submission adds the notification once to what each recipient its channels designate has
received or waits for, and nothing to that of the others. -/
def SentOnce (cfg : Config) (now : Instant) (notification : Notification) (s : Notifier) : Prop :=
  ∀ key, queuedFor key (s.submit cfg now notification)
      ++ pendingFor key (s.submit cfg now notification)
    = queuedFor key s ++ pendingFor key s
      ++ if key ∈ recipients cfg notification then [notification] else []

/-- The channel is `email`, without an address. -/
def isBare (channel : String) : Bool :=
  decide ((partition channel).1 = "email" ∧ (partition channel).2 = "")

/-- The channel names its recipient. -/
def names (channel : String) : Bool := decide ((partition channel).2 ≠ "")

/-- No two channels designate the same recipient, and no channel designates one twice. -/
structure Distinct (defaults channels : List String) : Prop where
  named : (channels.filter names).Nodup
  bare : defaults ≠ [] → (channels.filter isBare).length ≤ 1
  defaults : channels.filter isBare ≠ [] →
    defaults.Nodup ∧ ∀ address ∈ defaults, "email:" ++ address ∉ channels.filter names

/-! ## Channels and recipients -/

section Channels

variable {cfg : Config} {channel : String}

theorem targets_of_bare (h : isBare channel = true) :
    targets cfg channel = cfg.defaultEmail.map fun address ↦ ("email", address) :=
  if_pos (of_decide_eq_true h)

theorem targets_of_names (h : names channel = true) :
    targets cfg channel = [partition channel] := by
  have htarget : (partition channel).2 ≠ "" := of_decide_eq_true h
  have hnot : ¬ ((partition channel).1 = "email" ∧ (partition channel).2 = "") :=
    fun hboth ↦ htarget hboth.2
  exact (if_neg hnot).trans (if_pos htarget)

theorem targets_of_neither (hbare : isBare channel = false) (hnames : names channel = false) :
    targets cfg channel = [] := by
  have htarget : ¬ (partition channel).2 ≠ "" := of_decide_eq_false hnames
  exact (if_neg (of_decide_eq_false hbare)).trans (if_neg htarget)

theorem isBare_of_names (h : names channel = true) : isBare channel = false :=
  decide_eq_false fun hboth ↦ of_decide_eq_true h hboth.2

theorem eq_of_names (h : names channel = true) :
    channel = (partition channel).1 ++ ":" ++ (partition channel).2 := by
  have htarget : (partition channel).2 ≠ "" := of_decide_eq_true h
  have hrest : channel.toList.dropWhile (· ≠ ':')
      = ':' :: (channel.toList.dropWhile (· ≠ ':')).drop 1 := by
    cases hdrop : channel.toList.dropWhile (· ≠ ':') with
    | nil =>
      refine absurd ?_ htarget
      rw [partition, hdrop]
      rfl
    | cons c rest =>
      have hc := List.head?_dropWhile_not (fun c ↦ decide (c ≠ ':')) channel.toList
      rw [hdrop] at hc
      have hcolon : c = ':' := by simpa using hc
      rw [hcolon]
      rfl
  have hsplit := List.takeWhile_append_dropWhile (p := fun c ↦ decide (c ≠ ':'))
    (l := channel.toList)
  rw [hrest] at hsplit
  apply String.toList_inj.mp
  refine hsplit.symm.trans ?_
  simp only [String.toList_append, partition, String.toList_ofList, List.append_assoc]
  rfl

theorem partition_email (address : String) :
    partition ("email:" ++ address) = ("email", address) := by
  have htake : ("email:" ++ address).toList = "email".toList ++ ':' :: address.toList := by
    rw [String.toList_append]
    rfl
  have hletters : ∀ c ∈ "email".toList, decide (c ≠ ':') = true :=
    List.all_eq_true.mp (by decide)
  rw [partition, htake, List.takeWhile_append_of_pos hletters,
    List.dropWhile_append_of_pos hletters, List.takeWhile_cons_of_neg (by decide),
    List.dropWhile_cons_of_neg (by decide), List.append_nil,
    List.drop_one, List.tail_cons, String.ofList_toList, String.ofList_toList]

theorem partition_inj {channel' : String} (h : names channel = true) (h' : names channel' = true)
    (heq : partition channel = partition channel') : channel = channel' := by
  rw [eq_of_names h, eq_of_names h', heq]

theorem count_recipients (cfg : Config) (channels : List String) (key : Recipient) :
    (channels.flatMap (targets cfg)).count key
      = ((channels.filter names).map partition).count key
        + (channels.filter isBare).length
          * (cfg.defaultEmail.map fun address ↦ ("email", address)).count key := by
  induction channels with
  | nil => simp
  | cons channel channels ih =>
    rw [List.flatMap_cons, List.count_append, ih]
    cases hnames : names channel with
    | true =>
      rw [targets_of_names hnames, List.filter_cons_of_pos hnames,
        List.filter_cons_of_neg (by rw [isBare_of_names hnames]; decide), List.map_cons,
        List.count_cons, List.count_cons, List.count_nil]
      omega
    | false =>
      rw [List.filter_cons_of_neg (by rw [hnames]; decide)]
      cases hbare : isBare channel with
      | true =>
        rw [targets_of_bare hbare, List.filter_cons_of_pos hbare, List.length_cons]
        ring
      | false =>
        rw [targets_of_neither hbare hnames, List.filter_cons_of_neg (by rw [hbare]; decide),
          List.count_nil, Nat.zero_add]

end Channels

/-! ## The main result -/

section Once

variable {cfg : Config} {channels : List String}

theorem nodup_named (h : ∀ key, ((channels.filter names).map partition).count key ≤ 1) :
    (channels.filter names).Nodup := by
  have hmap := List.nodup_iff_count_le_one.mpr h
  exact hmap.of_map partition

/-- **No recipient is designated twice** exactly where the channels and the default addresses are
distinct. -/
theorem nodup_recipients_iff :
    (channels.flatMap (targets cfg)).Nodup ↔ Distinct cfg.defaultEmail channels := by
  have hinj : Function.Injective fun address : String ↦ ("email", address) :=
    fun _ _ heq ↦ (Prod.mk.inj heq).2
  rw [List.nodup_iff_count_le_one]
  simp only [count_recipients]
  constructor
  · intro h
    refine ⟨nodup_named fun key ↦ ?_, fun hdefaults ↦ ?_,
      fun hbare ↦ ⟨?_, fun address haddress ↦ ?_⟩⟩
    · exact (Nat.le_add_right _ _).trans (h key)
    · -- each bare channel designates the first default address
      obtain ⟨address, haddress⟩ := List.exists_mem_of_ne_nil _ hdefaults
      have hcount := List.count_pos_iff.mpr
        (List.mem_map_of_mem (f := fun a ↦ ("email", a)) haddress)
      have hle := (Nat.le_add_left _ _).trans (h ("email", address))
      exact (Nat.le_mul_of_pos_right _ hcount).trans hle
    · have hpos : 0 < (channels.filter isBare).length := List.length_pos_iff.mpr hbare
      have hmap : (cfg.defaultEmail.map fun address ↦ ("email", address)).Nodup :=
        List.nodup_iff_count_le_one.mpr fun key ↦
          (Nat.le_mul_of_pos_left _ hpos).trans ((Nat.le_add_left _ _).trans (h key))
      exact hmap.of_map _
    · intro hnamed
      have hpos : 0 < (channels.filter isBare).length := List.length_pos_iff.mpr hbare
      have hcount := List.count_pos_iff.mpr
        (List.mem_map_of_mem (f := fun a ↦ ("email", a)) haddress)
      have hcount' : 0 < ((channels.filter names).map partition).count ("email", address) := by
        rw [List.count_pos_iff, ← partition_email]
        exact List.mem_map_of_mem hnamed
      have hprod := Nat.mul_pos hpos hcount
      have hle := h ("email", address)
      omega
  · rintro ⟨hnamed, hbare, hdefaults⟩ key
    have hfirst : ((channels.filter names).map partition).count key ≤ 1 := by
      refine List.nodup_iff_count_le_one.mp (List.Nodup.map_on ?_ hnamed) key
      intro c hc c' hc' heq
      exact partition_inj (List.mem_filter.mp hc).2 (List.mem_filter.mp hc').2 heq
    by_cases hzero : (channels.filter isBare).length
        * (cfg.defaultEmail.map fun address ↦ ("email", address)).count key = 0
    · rw [hzero]
      exact hfirst
    · -- the recipient is a default address, designated by the only bare channel
      rw [Nat.mul_eq_zero, not_or, ← Ne, ← Nat.pos_iff_ne_zero, ← Ne,
        ← Nat.pos_iff_ne_zero] at hzero
      obtain ⟨hpos, hcount⟩ := hzero
      obtain ⟨address, haddress, rfl⟩ := List.mem_map.mp (List.count_pos_iff.mp hcount)
      obtain ⟨hnodup, hdisjoint⟩ := hdefaults (List.length_pos_iff.mp hpos)
      have hone := hbare (List.ne_nil_of_mem haddress)
      have hsecond := List.nodup_iff_count_le_one.mp (hnodup.map hinj) ("email", address)
      have hnone : ((channels.filter names).map partition).count ("email", address) = 0 := by
        rw [List.count_eq_zero]
        intro hmem
        obtain ⟨channel, hchannel, heq⟩ := List.mem_map.mp hmem
        have hnames := (List.mem_filter.mp hchannel).2
        have htext := eq_of_names hnames
        rw [heq] at htext
        exact hdisjoint address haddress (htext ▸ hchannel)
      rw [hnone, Nat.zero_add]
      exact Nat.mul_le_mul hone hsecond

/-- A submission adds the notification as many times as the recipient is designated. -/
theorem added_submit (cfg : Config) (now : Instant) (notification : Notification) (s : Notifier)
    (key : Recipient) :
    queuedFor key (s.submit cfg now notification) ++ pendingFor key (s.submit cfg now notification)
      = queuedFor key s ++ pendingFor key s
        ++ List.replicate ((recipients cfg notification).count key) notification := by
  rw [submit, conserved_foldl, List.filter_eq, List.map_replicate]

theorem sentOnce_iff_nodup (cfg : Config) (now : Instant) (notification : Notification)
    (s : Notifier) :
    SentOnce cfg now notification s ↔ (recipients cfg notification).Nodup := by
  rw [List.nodup_iff_count_le_one]
  refine forall_congr' fun key ↦ ?_
  rw [added_submit, List.append_cancel_left_eq]
  constructor
  · intro h
    have hlength := congrArg List.length h
    rw [List.length_replicate] at hlength
    exact hlength.trans_le (by split <;> simp)
  · intro h
    by_cases hkey : key ∈ recipients cfg notification
    · have hone : (recipients cfg notification).count key = 1 :=
        le_antisymm h (List.count_pos_iff.mpr hkey)
      rw [if_pos hkey, hone, List.replicate_one]
    · rw [if_neg hkey, List.count_eq_zero.mpr hkey, List.replicate_zero]

/-- **A notification is sent once to each recipient**, and to no other, exactly where the channels
and the default addresses are distinct. -/
theorem sentOnce_iff_distinct (cfg : Config) (now : Instant) (notification : Notification)
    (s : Notifier) :
    SentOnce cfg now notification s ↔ Distinct cfg.defaultEmail notification.channels := by
  rw [sentOnce_iff_nodup]
  exact nodup_recipients_iff

end Once

/-- The default addresses, and one of them again. -/
theorem not_sentOnce : ¬ ∀ (env : AlarmRules.ChannelEnv) (cfg : Config) (now : Instant)
    (notification : Notification) (s : Notifier),
    AlarmRules.countError notification.channels = none →
    AlarmRules.checkChannels env notification.channels = .ok () →
    SentOnce cfg now notification s := by
  intro h
  have hsent := h ⟨fun _ ↦ false, id⟩ ⟨["ops@x.fr"], 20, 60⟩ 0
    { recap with channels := ["email", "email:ops@x.fr"] } .empty rfl (by decide)
  exact absurd ((sentOnce_iff_nodup _ _ _ _).mp hsent) (by decide)

end Notifier

end Superviseur
