import Mathlib.Data.Nat.Notation
import Mathlib.Data.List.TakeWhile
import Mathlib.Order.Basic
import Mathlib.Algebra.Order.Ring.Int

/-!
# Lockout

A login is locked for some time once `max_failures` attempts have failed within a window. A request
reads the lock, then the account, verifies the password, and counts the failure last. The lock and
the count of failures live in Redis, each under a key of its own that expires.

The requests for one login interleave at their waits: here each is the stage it waits at, and a run
takes the waits in any order. All passwords are wrong, so that every verification is followed by the
count. The lock is read as the time that remains, so it has expired once that time rounds to zero.

The count starts over when its window expires, and requests that overlap may verify before any of
them is counted. What the lock does bound is the verifications by requests that ran alone: between
two expiries there are at most `max_failures` of them (`verified_alone_le`).
-/

namespace Superviseur.Lockout

/-- The failure key of the login, while it is there: the count, and whether an expiry is set. -/
structure Failures where
  count : ℕ
  expires : Bool
  deriving DecidableEq, Repr

/-- What a request waits for. -/
inductive Stage
  /-- The time that remains of the lock (`locked_for`). -/
  | checking
  /-- The row of the account. -/
  | selecting
  /-- `incr`, in `record_failure`. -/
  | counting
  /-- `expire`, after the first failure. -/
  | expiring (count : ℕ)
  /-- `set` of the lock key. -/
  | locking
  /-- `delete` of the failure key. -/
  | deleting
  /-- Nothing more of Redis. -/
  | done
  deriving DecidableEq, Repr

namespace Stage

/-- Between its check of the lock and the end of its count. -/
def inFlight : Stage → Bool
  | checking | done => false
  | selecting | counting | expiring _ | locking | deleting => true

end Stage

inductive Event
  /-- A password was verified against the account, by a request that was alone or not. -/
  | verified (alone : Bool)
  | lockExpired
  | windowExpired
  deriving DecidableEq, Repr

namespace Event

def isVerified : Event → Bool
  | verified _ => true
  | lockExpired | windowExpired => false

def isVerifiedAlone : Event → Bool
  | verified alone => alone
  | lockExpired | windowExpired => false

def isExpiry : Event → Bool
  | verified _ => false
  | lockExpired | windowExpired => true

end Event

/-- Redis and the requests for one login. -/
structure Logins where
  /-- The failure key. -/
  fail : Option Failures := none
  /-- Whether time remains on the lock key. -/
  lock : Bool := false
  requests : List Stage := []
  /-- The request that was alone in flight at its check of the lock, until another passes it. -/
  alone : Option ℕ := none
  /-- What has happened, the latest first. -/
  log : List Event := []
  deriving DecidableEq, Repr

inductive Label
  | arrives
  /-- Redis answers the command that request `i` waits for. -/
  | answered (i : ℕ)
  /-- The database answers request `i`; `found` when there is an account and it is active. -/
  | selected (i : ℕ) (found : Bool)
  | lockExpires
  | windowExpires
  deriving DecidableEq, Repr

/-- `incr`: the key keeps its expiry, and has none when it is created. -/
def incr : Option Failures → Failures
  | none => { count := 1, expires := false }
  | some fail => { fail with count := fail.count + 1 }

theorem count_incr (fail : Option Failures) :
    (incr fail).count = (fail.map Failures.count).getD 0 + 1 := by
  cases fail <;> rfl

/-- `record_failure`, from the comparison of the count on. -/
def compared (maxFailures : ℤ) (count : ℕ) : Stage :=
  if count < maxFailures then .done else .locking

/-- `record_failure`, once `incr` has answered. -/
def counted (maxFailures : ℤ) (count : ℕ) : Stage :=
  if count = 1 then .expiring count else compared maxFailures count

namespace Logins

def count (s : Logins) : ℕ := (s.fail.map Failures.count).getD 0

/-- Request `i` moves on to wait for something else. -/
def goes (s : Logins) (i : ℕ) (stage : Stage) : Logins :=
  { s with requests := s.requests.set i stage }

/-- `login` resumed by an answer of Redis. -/
def answered (maxFailures : ℤ) (s : Logins) (i : ℕ) : Logins :=
  match s.requests[i]? with
  | some .checking =>
    -- A request that finds the lock burns a verification, which is against no account.
    if s.lock then s.goes i .done
    else { s.goes i .selecting with
      alone := if s.requests.any Stage.inFlight then none else some i }
  | some .counting =>
    let fail := incr s.fail
    { s.goes i (counted maxFailures fail.count) with fail := some fail }
  | some (.expiring count) =>
    -- `expire` does nothing when another request has deleted the key.
    { s.goes i (compared maxFailures count) with
      fail := s.fail.map fun fail ↦ { fail with expires := true } }
  | some .locking => { s.goes i .deleting with lock := true }
  | some .deleting => { s.goes i .done with fail := none }
  | some .selecting | some .done | none => s

/-- `login` resumed by the database. The verification does not wait, and the failure is counted
whether there is an account or not. -/
def selected (s : Logins) (i : ℕ) (found : Bool) : Logins :=
  match s.requests[i]? with
  | some .selecting =>
    { s.goes i .counting with
      log := if found then .verified (s.alone = some i) :: s.log else s.log }
  | _ => s

def step (maxFailures : ℤ) (s : Logins) : Label → Logins
  | .arrives => { s with requests := s.requests ++ [.checking] }
  | .answered i => s.answered maxFailures i
  | .selected i found => s.selected i found
  | .lockExpires =>
    if s.lock then { s with lock := false, log := .lockExpired :: s.log } else s
  | .windowExpires =>
    match s.fail with
    | some { expires := true, .. } => { s with fail := none, log := .windowExpired :: s.log }
    | some { expires := false, .. } | none => s

def run (maxFailures : ℤ) (s : Logins) (labels : List Label) : Logins :=
  labels.foldl (step maxFailures) s

end Logins

/-! ## Stages -/

variable {maxFailures : ℤ} {s : Logins} {i j count : ℕ} {r r' : Stage}

namespace Stage

/-- On its way to lock the login and to delete the failure key. -/
def locks (maxFailures : ℤ) : Stage → Bool
  | expiring count => maxFailures ≤ count
  | locking | deleting => true
  | checking | selecting | counting | done => false

theorem inFlight_of_locks (h : r.locks maxFailures) : r.inFlight := by
  cases r with
  | checking | selecting | counting | done => exact absurd h (by simp [locks])
  | expiring count | locking | deleting => rfl

end Stage

theorem locks_compared (h : maxFailures ≤ count) :
    (compared maxFailures count).locks maxFailures := by
  rw [compared, if_neg (not_lt.mpr h)]
  rfl

theorem locks_counted (h : maxFailures ≤ count) :
    (counted maxFailures count).locks maxFailures := by
  rw [counted]
  split
  · exact decide_eq_true h
  · exact locks_compared h

theorem compared_ne (maxFailures : ℤ) (count : ℕ) :
    compared maxFailures count ≠ .counting ∧ compared maxFailures count ≠ .deleting ∧
      compared maxFailures count ≠ .selecting := by
  rw [compared]
  split <;> decide

theorem counted_ne (maxFailures : ℤ) (count : ℕ) :
    counted maxFailures count ≠ .counting ∧ counted maxFailures count ≠ .deleting ∧
      counted maxFailures count ≠ .selecting := by
  rw [counted]
  split
  · simp
  · exact compared_ne maxFailures count

/-! ## One request moves on -/

/-- The number of requests that are about to be counted. -/
def Logins.counting (s : Logins) : ℕ := s.requests.count .counting

/-- Of the two counts of a stage, before and after, each request but the one that moves is in
both. -/
theorem count_set (h : s.requests[i]? = some r) (r' stage : Stage) :
    (s.requests.set i r').count stage + (if r = stage then 1 else 0)
      = s.requests.count stage + if r' = stage then 1 else 0 := by
  obtain ⟨hi, rfl⟩ := List.getElem?_eq_some_iff.mp h
  have hmem : s.requests[i] = stage → 0 < s.requests.count stage := by
    intro heq
    exact List.count_pos_iff.mpr (heq ▸ List.getElem_mem hi)
  rw [List.count, List.countP_set hi, ← List.count]
  simp only [beq_iff_eq]
  split
  · have := hmem ‹_›
    omega
  · omega

theorem counting_goes (h : s.requests[i]? = some r) (r' : Stage) :
    (s.goes i r').counting + (if r = .counting then 1 else 0)
      = s.counting + if r' = .counting then 1 else 0 :=
  count_set h r' .counting

theorem mem_goes (h : r ∈ (s.goes i r').requests) : r ∈ s.requests ∨ r = r' :=
  List.mem_or_eq_of_mem_set h

theorem mem_goes_of_ne {w : Stage} (h : s.requests[i]? = some r) (hw : w ∈ s.requests)
    (hne : w ≠ r) : w ∈ (s.goes i r').requests := by
  obtain ⟨j, hj⟩ := List.mem_iff_getElem?.mp hw
  have hij : i ≠ j := by
    rintro rfl
    exact hne (Option.some.inj (hj.symm.trans h))
  exact List.mem_of_getElem? ((List.getElem?_set_ne hij).trans hj)

theorem mem_goes_self (h : s.requests[i]? = some r) : r' ∈ (s.goes i r').requests :=
  List.mem_set (List.getElem?_eq_some_iff.mp h).1 r'

/-! ## Between two expiries -/

/-- The verifications by requests that were alone since the last expiry. -/
def sinceExpiry (log : List Event) : ℕ :=
  (log.takeWhile fun e ↦ !e.isExpiry).countP Event.isVerifiedAlone

theorem sinceExpiry_cons {e : Event} {log : List Event} (h : e.isExpiry = false) :
    sinceExpiry (e :: log) = sinceExpiry log + if e.isVerifiedAlone then 1 else 0 := by
  rw [sinceExpiry, List.takeWhile_cons_of_pos (by simp [h]), List.countP_cons, sinceExpiry]

theorem sinceExpiry_expiry {e : Event} {log : List Event} (h : e.isExpiry) :
    sinceExpiry (e :: log) = 0 := by
  rw [sinceExpiry, List.takeWhile_cons_of_neg (by simp [h]), List.countP_nil]

theorem countP_le_sinceExpiry {seg log : List Event} (h : seg <+: log)
    (hseg : ∀ e ∈ seg, e.isExpiry = false) :
    seg.countP Event.isVerifiedAlone ≤ sinceExpiry log := by
  induction seg generalizing log with
  | nil => exact Nat.zero_le _
  | cons e seg ih =>
    obtain ⟨rest, rfl⟩ := h
    have hrest := ih (List.prefix_append seg rest) fun e' he' ↦ hseg e' (List.mem_cons_of_mem _ he')
    have he : e.isExpiry = false := hseg e List.mem_cons_self
    rw [List.countP_cons, List.cons_append, sinceExpiry_cons he]
    omega

/-- No more than `n` verifications by requests that were alone, between any two expiries. -/
def Bounded (n : ℤ) (log : List Event) : Prop :=
  ∀ seg, seg <:+: log → (∀ e ∈ seg, e.isExpiry = false) → seg.countP Event.isVerifiedAlone ≤ n

theorem Bounded.sinceExpiry_le {n : ℤ} {log : List Event} (h : Bounded n log) :
    sinceExpiry log ≤ n := by
  refine h _ (List.takeWhile_prefix _).isInfix fun e he ↦ ?_
  simpa using List.mem_takeWhile_imp (p := fun e : Event ↦ !e.isExpiry) he

theorem Bounded.cons {n : ℤ} {log : List Event} {e : Event} (h : Bounded n log)
    (hn : sinceExpiry (e :: log) ≤ n) : Bounded n (e :: log) := by
  intro seg hseg hexp
  rcases List.infix_cons_iff.mp hseg with hprefix | hinfix
  · have hle := countP_le_sinceExpiry hprefix hexp
    omega
  · exact h seg hinfix hexp

/-! ## The invariant -/

/-- A request that is alone and still verifies has found no lock, and no other is in flight. -/
def Alone (s : Logins) : Prop :=
  ∀ k, s.alone = some k → s.requests[k]? = some .selecting →
    s.lock = false ∧ ∀ j r, s.requests[j]? = some r → r.inFlight → j = k

/-- What holds of the two keys and of the requests at every moment. -/
structure Valid (maxFailures : ℤ) (s : Logins) : Prop where
  /-- Unless the login is locked, each verification is counted or about to be. -/
  counted : s.lock = false → sinceExpiry s.log ≤ s.count + s.counting
  /-- Whoever has reached the maximum is on its way to lock. -/
  reached : ∀ fail, s.fail = some fail → maxFailures ≤ fail.count →
    ∃ r ∈ s.requests, r.locks maxFailures
  /-- A request deletes the count after it has locked the login. -/
  deleting : .deleting ∈ s.requests → s.lock = false → sinceExpiry s.log = 0
  alone : Alone s
  bounded : Bounded (max 1 maxFailures) s.log

theorem Alone.ne_selecting {t : Logins} {k : ℕ} (h : Alone s) (hi : s.requests[i]? = some r)
    (hr : r.inFlight) (hr' : r' ≠ .selecting) (hrequests : t.requests = (s.goes i r').requests)
    (halone : t.alone = s.alone) (hk : t.alone = some k) : t.requests[k]? ≠ some .selecting := by
  intro hsel
  rw [hrequests] at hsel
  rw [halone] at hk
  by_cases hik : i = k
  · subst hik
    rw [Logins.goes, List.getElem?_set_self (List.getElem?_eq_some_iff.mp hi).1] at hsel
    exact hr' (Option.some.inj hsel)
  · rw [Logins.goes, List.getElem?_set_ne hik] at hsel
    exact hik ((h k hk hsel).2 i r hi hr)

theorem Alone.goes {t : Logins} (h : Alone s) (hi : s.requests[i]? = some r)
    (hr : r.inFlight) (hr' : r' ≠ .selecting) (hrequests : t.requests = (s.goes i r').requests)
    (halone : t.alone = s.alone) : Alone t :=
  fun _ hk hsel ↦ absurd hsel (h.ne_selecting hi hr hr' hrequests halone hk)

theorem valid_init : Valid maxFailures {} where
  counted := by simp [sinceExpiry]
  reached := by simp
  deleting := by simp
  alone := by simp [Alone]
  bounded := by
    intro seg hseg _
    obtain rfl := List.infix_nil.mp hseg
    exact le_max_of_le_left (by simp)

/-! ## One step -/

theorem reached_goes (hi : s.requests[i]? = some r)
    (hr : r.locks maxFailures → r'.locks maxFailures)
    (h : ∃ w ∈ s.requests, w.locks maxFailures) :
    ∃ w ∈ (s.goes i r').requests, w.locks maxFailures := by
  obtain ⟨w, hw, hlocks⟩ := h
  by_cases hwr : w = r
  · exact ⟨r', mem_goes_self hi, hr (hwr ▸ hlocks)⟩
  · exact ⟨w, mem_goes_of_ne hi hw hwr, hlocks⟩

theorem deleting_goes (hr' : r' ≠ .deleting) (h : .deleting ∈ (s.goes i r').requests) :
    .deleting ∈ s.requests :=
  (mem_goes h).resolve_right hr'.symm

theorem getElem?_arrives (h : (s.requests ++ [.checking])[j]? = some r) :
    s.requests[j]? = some r ∨ r = .checking := by
  rw [List.getElem?_append] at h
  split at h
  · exact .inl h
  · exact .inr (List.mem_singleton.mp (List.mem_of_getElem? h))

variable (hv : Valid maxFailures s)
include hv

theorem Valid.refused (hi : s.requests[i]? = some .checking) (hlock : s.lock) :
    Valid maxFailures (s.goes i .done) where
  counted := by
    intro h
    exact absurd (hlock.symm.trans h) (by decide)
  reached := fun fail hfail hle ↦
    reached_goes hi (by simp [Stage.locks]) (hv.reached fail hfail hle)
  deleting := by
    intro _ h
    exact absurd (hlock.symm.trans h) (by decide)
  alone := by
    intro k hk hsel
    have hik : i ≠ k := by
      rintro rfl
      rw [Logins.goes, List.getElem?_set_self (List.getElem?_eq_some_iff.mp hi).1] at hsel
      simp at hsel
    rw [Logins.goes, List.getElem?_set_ne hik] at hsel
    exact absurd (hlock.symm.trans (hv.alone k hk hsel).1) (by decide)
  bounded := hv.bounded

/-- The check is passed. The request is alone if no other is in flight, and no other is alone any
more. -/
theorem Valid.passed (hi : s.requests[i]? = some .checking) (hlock : s.lock = false) :
    Valid maxFailures { s.goes i .selecting with
      alone := if s.requests.any Stage.inFlight then none else some i } where
  counted := by
    intro _
    have hcounting := counting_goes hi .selecting
    have hle := hv.counted hlock
    simp only [reduceCtorEq, if_false, add_zero] at hcounting
    change sinceExpiry s.log ≤ s.count + (s.goes i .selecting).counting
    omega
  reached := fun fail hfail hle ↦
    reached_goes hi (by simp [Stage.locks]) (hv.reached fail hfail hle)
  deleting := fun h ↦ hv.deleting (deleting_goes (by decide) h)
  alone := by
    intro k hk _
    dsimp only at hk
    split at hk
    · nomatch hk
    · obtain rfl := Option.some.inj hk
      refine ⟨hlock, fun j r hj hr ↦ ?_⟩
      by_contra hne
      rw [Logins.goes, List.getElem?_set_ne (Ne.symm hne)] at hj
      exact ‹¬ _› (List.any_eq_true.mpr ⟨r, List.mem_of_getElem? hj, hr⟩)
  bounded := hv.bounded

theorem Valid.eq_selecting (hi : s.requests[i]? = some .selecting) (halone : s.alone = some i)
    (hr : r ∈ s.requests) (hflight : r.inFlight) : r = .selecting := by
  obtain ⟨j, hj⟩ := List.mem_iff_getElem?.mp hr
  obtain rfl := (hv.alone i halone hi).2 j r hj hflight
  exact Option.some.inj (hj.symm.trans hi)

/-- Nobody is about to count, so every verification is counted, and the maximum is not reached. -/
theorem Valid.lt_of_alone (hi : s.requests[i]? = some .selecting) (halone : s.alone = some i) :
    (sinceExpiry s.log : ℤ) < max 1 maxFailures := by
  have hzero : s.counting = 0 := by
    refine List.count_eq_zero.mpr fun h ↦ ?_
    exact absurd (hv.eq_selecting hi halone h rfl) (by decide)
  have hle := hv.counted (hv.alone i halone hi).1
  rw [hzero, Logins.count] at hle
  cases hfail : s.fail with
  | none =>
    rw [hfail] at hle
    exact lt_max_of_lt_left (by simp at hle; omega)
  | some fail =>
    have hlt : (fail.count : ℤ) < maxFailures := by
      by_contra hge
      obtain ⟨r, hr, hlocks⟩ := hv.reached fail hfail (not_lt.mp hge)
      rw [hv.eq_selecting hi halone hr (Stage.inFlight_of_locks hlocks)] at hlocks
      exact absurd hlocks (by simp [Stage.locks])
    rw [hfail] at hle
    exact lt_max_of_lt_right (by simp at hle; omega)

/-- The password is verified, or burnt: the verification is about to be counted. -/
theorem Valid.selected (hi : s.requests[i]? = some .selecting) (found : Bool) :
    Valid maxFailures { s.goes i .counting with
      log := if found then .verified (s.alone = some i) :: s.log else s.log } := by
  set log := if found then .verified (s.alone = some i) :: s.log else s.log with hlog
  -- Either nothing is added to the count, or the request was alone.
  have hcases : sinceExpiry log = sinceExpiry s.log ∨
      s.alone = some i ∧ sinceExpiry log = sinceExpiry s.log + 1 := by
    rw [hlog]
    split
    · rw [sinceExpiry_cons rfl]
      by_cases halone : s.alone = some i
      · exact .inr ⟨halone, by simp [Event.isVerifiedAlone, halone]⟩
      · exact .inl (by simp [Event.isVerifiedAlone, halone])
    · exact .inl rfl
  have hbound : (sinceExpiry log : ℤ) ≤ max 1 maxFailures := by
    rcases hcases with heq | ⟨halone, heq⟩
    · rw [heq]
      exact hv.bounded.sinceExpiry_le
    · have hlt := hv.lt_of_alone hi halone
      omega
  constructor
  case counted =>
    intro hlock
    have hcounting := counting_goes hi .counting
    have hle := hv.counted hlock
    simp only [reduceCtorEq, if_false, if_true, add_zero] at hcounting
    change sinceExpiry log ≤ s.count + (s.goes i .counting).counting
    rcases hcases with heq | ⟨_, heq⟩ <;> omega
  case reached =>
    exact fun fail hfail hle ↦ reached_goes hi (by simp [Stage.locks]) (hv.reached fail hfail hle)
  case deleting =>
    intro h hlock
    have hmem := deleting_goes (by decide) h
    rcases hcases with heq | ⟨halone, _⟩
    · exact heq.trans (hv.deleting hmem hlock)
    · exact absurd (hv.eq_selecting hi halone hmem rfl) (by decide)
  case alone => exact hv.alone.goes hi rfl (by decide) rfl rfl
  case bounded =>
    change Bounded _ log
    rw [hlog] at hbound ⊢
    split
    · rw [if_pos ‹_›] at hbound
      exact hv.bounded.cons hbound
    · exact hv.bounded

theorem Valid.counts (hi : s.requests[i]? = some .counting) :
    Valid maxFailures { s.goes i (Lockout.counted maxFailures (incr s.fail).count) with
      fail := some (incr s.fail) } := by
  obtain ⟨hcounting, hdeleting, hselecting⟩ := counted_ne maxFailures (incr s.fail).count
  constructor
  case counted =>
    intro hlock
    have hgoes := counting_goes hi (Lockout.counted maxFailures (incr s.fail).count)
    have hle := hv.counted hlock
    have hincr := count_incr s.fail
    rw [if_pos rfl, if_neg hcounting] at hgoes
    change sinceExpiry s.log ≤ (incr s.fail).count + (s.goes i _).counting
    rw [Logins.count] at hle
    omega
  case reached =>
    intro fail hfail hle
    obtain rfl := Option.some.inj hfail
    exact ⟨_, mem_goes_self hi, locks_counted hle⟩
  case deleting => exact fun h ↦ hv.deleting (deleting_goes hdeleting h)
  case alone => exact hv.alone.goes hi rfl hselecting rfl rfl
  case bounded => exact hv.bounded

theorem Valid.expires (hi : s.requests[i]? = some (.expiring count)) :
    Valid maxFailures { s.goes i (compared maxFailures count) with
      fail := s.fail.map fun fail ↦ { fail with expires := true } } := by
  obtain ⟨hcounting, hdeleting, hselecting⟩ := compared_ne maxFailures count
  constructor
  case counted =>
    intro hlock
    have hgoes := counting_goes hi (compared maxFailures count)
    have hle := hv.counted hlock
    rw [if_neg (by simp), if_neg hcounting] at hgoes
    rw [Logins.count] at hle ⊢
    change sinceExpiry s.log ≤ _ + (s.goes i _).counting
    rw [Option.map_map]
    exact hle.trans_eq (congrArg _ hgoes.symm)
  case reached =>
    intro fail hfail hle
    obtain ⟨fail', hfail', rfl⟩ := Option.map_eq_some_iff.mp hfail
    refine reached_goes hi (fun h ↦ locks_compared ?_) (hv.reached fail' hfail' hle)
    exact of_decide_eq_true h
  case deleting => exact fun h ↦ hv.deleting (deleting_goes hdeleting h)
  case alone => exact hv.alone.goes hi rfl hselecting rfl rfl
  case bounded => exact hv.bounded

theorem Valid.locks (hi : s.requests[i]? = some .locking) :
    Valid maxFailures { s.goes i .deleting with lock := true } where
  counted := fun h ↦ absurd h (by simp)
  reached := fun fail hfail hle ↦ reached_goes hi (fun _ ↦ rfl) (hv.reached fail hfail hle)
  deleting := fun _ h ↦ absurd h (by simp)
  alone := hv.alone.goes hi rfl (by decide) rfl rfl
  bounded := hv.bounded

/-- The count starts over. If the login is not locked, its lock has expired since it was set, and
nothing has been verified by a request that was alone. -/
theorem Valid.deletes (hi : s.requests[i]? = some .deleting) :
    Valid maxFailures { s.goes i .done with fail := none } where
  counted := fun h ↦ (hv.deleting (List.mem_of_getElem? hi) h).trans_le (Nat.zero_le _)
  reached := by simp
  deleting := fun h ↦ hv.deleting (deleting_goes (by decide) h)
  alone := hv.alone.goes hi rfl (by decide) rfl rfl
  bounded := hv.bounded

theorem Valid.arrives :
    Valid maxFailures { s with requests := s.requests ++ [.checking] } where
  counted := by
    intro h
    have hcounting : Logins.counting { s with requests := s.requests ++ [.checking] }
        = s.counting := by simp [Logins.counting]
    rw [hcounting]
    exact hv.counted h
  reached := by
    intro fail hfail hle
    obtain ⟨r, hr, hlocks⟩ := hv.reached fail hfail hle
    exact ⟨r, List.mem_append_left _ hr, hlocks⟩
  deleting := fun h ↦ hv.deleting (by simpa using h)
  alone := by
    intro k hk hsel
    obtain ⟨hlock, hothers⟩ := hv.alone k hk ((getElem?_arrives hsel).resolve_right (by decide))
    refine ⟨hlock, fun j r hj hr ↦ hothers j r ((getElem?_arrives hj).resolve_right ?_) hr⟩
    rintro rfl
    exact absurd hr (by decide)
  bounded := hv.bounded

theorem Valid.lockExpires :
    Valid maxFailures { s with lock := false, log := .lockExpired :: s.log } where
  counted := by
    intro _
    rw [sinceExpiry_expiry rfl]
    exact Nat.zero_le _
  reached := hv.reached
  deleting := fun _ _ ↦ sinceExpiry_expiry rfl
  alone := fun k hk hsel ↦ ⟨rfl, (hv.alone k hk hsel).2⟩
  bounded := hv.bounded.cons (by rw [sinceExpiry_expiry rfl]; exact le_max_of_le_left (by simp))

theorem Valid.windowExpires :
    Valid maxFailures { s with fail := none, log := .windowExpired :: s.log } where
  counted := by
    intro _
    rw [sinceExpiry_expiry rfl]
    exact Nat.zero_le _
  reached := by simp
  deleting := fun _ _ ↦ sinceExpiry_expiry rfl
  alone := hv.alone
  bounded := hv.bounded.cons (by rw [sinceExpiry_expiry rfl]; exact le_max_of_le_left (by simp))

/-! ## Runs -/

theorem Valid.answered (i : ℕ) : Valid maxFailures (s.answered maxFailures i) := by
  rw [Logins.answered]
  split
  case h_1 hi =>
    split
    · exact hv.refused hi ‹_›
    · exact hv.passed hi (Bool.not_eq_true _ ▸ ‹_›)
  case h_2 hi => exact hv.counts hi
  case h_3 hi => exact hv.expires hi
  case h_4 hi => exact hv.locks hi
  case h_5 hi => exact hv.deletes hi
  all_goals exact hv

theorem Valid.step (label : Label) : Valid maxFailures (s.step maxFailures label) := by
  cases label with
  | arrives => exact hv.arrives
  | answered i => exact hv.answered i
  | selected i found =>
    rw [Logins.step, Logins.selected]
    split
    · exact hv.selected ‹_› found
    · exact hv
  | lockExpires =>
    rw [Logins.step]
    split
    · exact hv.lockExpires
    · exact hv
  | windowExpires =>
    rw [Logins.step]
    split
    · exact hv.windowExpires
    all_goals exact hv

theorem Valid.run (labels : List Label) : Valid maxFailures (s.run maxFailures labels) := by
  induction labels generalizing s with
  | nil => exact hv
  | cons label labels ih => exact ih (hv.step label)

omit hv

/-- **Between two expiries, of the lock or of the window, or from the start, no more than
`max_failures` passwords are verified by requests that ran alone**, and one if that is less. -/
theorem verified_alone_le (maxFailures : ℤ) (labels : List Label) (seg : List Event)
    (hseg : seg <:+: (Logins.run maxFailures {} labels).log)
    (hexp : ∀ e ∈ seg, e.isExpiry = false) :
    (seg.countP Event.isVerifiedAlone : ℤ) ≤ max 1 maxFailures :=
  (valid_init.run labels).bounded seg hseg hexp

/-- One attempt from its arrival to its count, with no other in flight. -/
def attempt (i : ℕ) : List Label :=
  [.arrives, .answered i, .selected i true, .answered i, .answered i, .answered i, .answered i]

theorem verified_alone_le_locked :
    let log := (Logins.run 5 {} ((List.range 7).flatMap attempt)).log
    log.countP Event.isVerifiedAlone = 5 ∧ (log.countP Event.isVerifiedAlone : ℤ) ≤ max 1 5 :=
  ⟨by decide +kernel, verified_alone_le 5 _ _ List.infix_rfl (by decide +kernel)⟩

/-- With five failures allowed, four attempts, the end of the window, and four attempts: no lock has
been set, and eight passwords have been verified. -/
theorem not_verified_le :
    ¬ ∀ (labels : List Label) (seg : List Event), seg <:+: (Logins.run 5 {} labels).log →
      Event.lockExpired ∉ seg → (seg.countP Event.isVerified : ℤ) ≤ 5 := by
  intro h
  have hle := h (List.flatMap attempt [0, 1, 2, 3] ++ .windowExpires ::
    List.flatMap attempt [4, 5, 6, 7]) _ List.infix_rfl (by decide +kernel)
  exact absurd hle (by decide +kernel)

/-- Requests that overlap are all past the check before the first of them is counted. -/
example :
    let overlapping := List.replicate 8 Label.arrives ++ (List.range 8).map .answered ++
      (List.range 8).map (.selected · true)
    (Logins.run 5 {} overlapping).log = List.replicate 8 (.verified false) := by
  decide

end Superviseur.Lockout
