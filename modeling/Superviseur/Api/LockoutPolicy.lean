import Mathlib.Algebra.Order.Ring.Rat
import Mathlib.Data.List.DropRight
import Superviseur.Library.EState
import Superviseur.Library.Trace
import Superviseur.Library.Unicode

/-!
# The lockout policy

`max_failures` failures in `window_s` seconds are to lock a login. `LoginGuard.record_failure`
counts the failures of a login in a key of Redis, whose expiry only the first one sets, and locks
the login when the count reaches the maximum. A command of Redis may raise: what was done before it
stays. A window is a half-open interval: what expires at a time is gone at that time.

The count knows one window, which the failure that creates the key opens. **The policy holds in the
runs in which every failure that opens a window sets its expiry, and opens it when the failures
recorded before are older than a window** (`obeys_of_meets`). Otherwise failures of less than a
window are forgotten, or older ones are remembered.
-/

namespace Superviseur.LoginGuard

/-- What an exception of Redis is for `record_failure`. -/
inductive RedisError where
  | raised

inductive Command where
  | incr
  | expire
  | set
  | delete
  deriving DecidableEq

/-- A failure key: its count, and when it expires. -/
structure Counter where
  count : ℕ
  expiry : Option ℚ

/-- The failure keys and the lock keys, with the end of each lock. -/
structure Redis where
  counters : String → Option Counter := fun _ ↦ none
  locks : String → Option ℚ := fun _ ↦ none
  /-- The commands done for the call, the latest first. -/
  done : List Command := []

/-- `LoginGuard`. -/
structure Guard where
  /-- `str.lower`. -/
  lower : List Char → List Char
  maxFailures : ℤ
  windowS : ℤ
  lockS : ℤ

/-- A call of `record_failure`: when, for which login as it is spelled, and the commands that raise
if they are sent. -/
structure Call where
  time : ℚ
  login : String
  raises : Command → Bool := fun _ ↦ false

/-- `login.strip().lower()`. -/
def Guard.normal (guard : Guard) (login : String) : String :=
  String.ofList (guard.lower
    ((login.toList.dropWhile Unicode.isPySpace).rdropWhile Unicode.isPySpace))

/-- `_fail_key`. -/
def Guard.failKey (guard : Guard) (login : String) : String := "auth.fail." ++ guard.normal login

/-- `_lock_key`. -/
def Guard.lockKey (guard : Guard) (login : String) : String := "auth.lock." ++ guard.normal login

/-- What a key holds at some time. -/
def live (now : ℚ) (counter : Option Counter) : Option Counter :=
  counter.filter fun counter ↦ match counter.expiry with
    | some expiry => now < expiry
    | none => true

/-- What `incr` makes of a key: it keeps its expiry, and has none when it is created. -/
def incremented : Option Counter → Counter
  | some counter => { counter with count := counter.count + 1 }
  | none => ⟨1, none⟩

/-! ## `record_failure` -/

/-- A command of Redis, if it does not raise. -/
def send (call : Call) (command : Command) (effect : Redis → Redis) :
    EStateM RedisError Redis PUnit :=
  if call.raises command then throw .raised
  else modify fun redis ↦ { effect redis with done := command :: redis.done }

def Redis.setCounter (redis : Redis) (key : String) (counter : Option Counter) : Redis :=
  { redis with counters := Function.update redis.counters key counter }

def Redis.setLock (redis : Redis) (key : String) (until_ : ℚ) : Redis :=
  { redis with locks := Function.update redis.locks key (some until_) }

/-- `await redis.incr(key)`. -/
def incr (call : Call) (key : String) : EStateM RedisError Redis ℕ := do
  let counter := incremented (live call.time ((← get).counters key))
  send call .incr fun redis ↦ redis.setCounter key (some counter)
  return counter.count

/-- `await redis.expire(key, seconds)`. -/
def expire (call : Call) (key : String) (seconds : ℤ) : EStateM RedisError Redis PUnit :=
  send call .expire fun redis ↦ redis.setCounter key
    ((live call.time (redis.counters key)).map fun counter ↦
      { counter with expiry := some (call.time + seconds) })

/-- `record_failure`: the first failure sets the expiry of the key. -/
def openWindow (guard : Guard) (call : Call) (count : ℕ) : EStateM RedisError Redis PUnit :=
  if count = 1 then expire call (guard.failKey call.login) guard.windowS else pure ⟨⟩

/-- `record_failure`, from the comparison of the count on. -/
def lockIfReached (guard : Guard) (call : Call) (count : ℕ) : EStateM RedisError Redis ℤ :=
  if count < guard.maxFailures then return 0
  else do
    send call .set fun redis ↦ redis.setLock (guard.lockKey call.login) (call.time + guard.lockS)
    send call .delete fun redis ↦ redis.setCounter (guard.failKey call.login) none
    return guard.lockS

/-- The body of `record_failure`. -/
def recordFailureBody (guard : Guard) (call : Call) : EStateM RedisError Redis ℤ := do
  let count ← incr call (guard.failKey call.login)
  openWindow guard call count
  lockIfReached guard call count

/-- `record_failure`: any exception is logged, and the failure is said not to lock. -/
def recordFailure (guard : Guard) (call : Call) : EStateM RedisError Redis ℤ :=
  tryCatch (recordFailureBody guard call) fun _ ↦ return 0

/-! ## Runs -/

/-- What a call did: whether no command raised, and whether the lock was set. -/
structure Record where
  time : ℚ
  recorded : Bool
  locked : Bool

/-- Redis and the calls so far, the latest first. -/
structure History where
  redis : Redis := {}
  records : List Record := []

/-- What a call leaves. -/
def after (guard : Guard) (redis : Redis) (call : Call) : Redis :=
  EState.after (recordFailure guard call) { redis with done := [] }

/-- Whether none of the commands of a call raises. -/
def recorded (guard : Guard) (redis : Redis) (call : Call) : Bool :=
  (EState.outcome (recordFailureBody guard call) { redis with done := [] }).isOk

def History.step (guard : Guard) (h : History) (call : Call) : History where
  redis := after guard h.redis call
  records :=
    { time := call.time
      recorded := recorded guard h.redis call
      locked := .set ∈ (after guard h.redis call).done } :: h.records

def run (guard : Guard) (calls : List Call) : History := calls.foldl (History.step guard) {}

/-- The calls since the lock was last set. -/
def sinceLock (records : List Record) : List Record := records.takeWhile fun r ↦ !r.locked

/-- The failures, of these, of less than a window before. -/
def recent (guard : Guard) (now : ℚ) (records : List Record) : List Record :=
  records.filter fun r ↦ now < r.time + guard.windowS

/-- With the failure that is being recorded, the failures recorded without error since the lock was
last set are `max_failures` in a window. -/
def Due (guard : Guard) (now : ℚ) (records : List Record) : Prop :=
  guard.maxFailures ≤ 1 + (recent guard now (sinceLock records)).countP (·.recorded)

/-- With the failure that is being recorded, there were `max_failures` failures in a window. -/
def Enough (guard : Guard) (now : ℚ) (records : List Record) : Prop :=
  guard.maxFailures ≤ 1 + (recent guard now records).length

/-- The policy, for a call: it locks the login for `lock_s` if it has to, and only if it may. -/
structure Obeys (guard : Guard) (h : History) (call : Call) : Prop where
  locks : recorded guard h.redis call = true → Due guard call.time h.records →
    .set ∈ (after guard h.redis call).done ∧
      (after guard h.redis call).locks (guard.lockKey call.login) = some (call.time + guard.lockS)
  only : .set ∈ (after guard h.redis call).done → Enough guard call.time h.records

/-- A failure that creates the key of the count sets its expiry, and the failures recorded since the
lock was last set are then older than a window. -/
def Meets (guard : Guard) (h : History) (call : Call) : Prop :=
  call.raises .incr = false →
    live call.time (h.redis.counters (guard.failKey call.login)) = none →
      call.raises .expire = false ∧
        ∀ r ∈ sinceLock h.records, r.recorded = true → r.time + guard.windowS ≤ call.time

/-! ## What a call does -/

variable {guard : Guard} {redis : Redis} {call : Call} {h : History} {now t : ℚ}

/-- The count that the call finds, this failure included. -/
def found (guard : Guard) (redis : Redis) (call : Call) : Counter :=
  incremented (live call.time (redis.counters (guard.failKey call.login)))

/-- Redis, once the failure is counted. -/
def counted (guard : Guard) (redis : Redis) (call : Call) : Redis :=
  { redis.setCounter (guard.failKey call.login) (some (found guard redis call)) with
    done := [.incr] }

/-- This count, with its expiry. -/
def opened (guard : Guard) (redis : Redis) (call : Call) : Counter :=
  if (found guard redis call).count = 1 then
    { found guard redis call with expiry := some (call.time + guard.windowS) }
  else found guard redis call

theorem after_eq : after guard redis call =
    EState.after (recordFailureBody guard call) { redis with done := [] } := by
  rw [after, EState.after, EState.after, recordFailure, EState.tryCatch_apply]
  cases recordFailureBody guard call { redis with done := [] } <;> rfl

theorem live_found : live call.time (some (found guard redis call)) =
    some (found guard redis call) := by
  rw [found]
  rcases hlive : live call.time (redis.counters (guard.failKey call.login)) with _ | counter
  · rfl
  · obtain ⟨-, hlive⟩ := Option.filter_eq_some_iff.mp hlive
    exact Option.filter_some_pos hlive

/-- What a call leaves of the key of the count, and of the lock. -/
inductive Leaves (guard : Guard) (redis : Redis) (call : Call) : Prop
  | refused (hincr : call.raises .incr = true) (hrecorded : recorded guard redis call = false)
      (hset : .set ∉ (after guard redis call).done)
      (hcounter : (after guard redis call).counters = redis.counters)
  | unopened (hincr : call.raises .incr = false) (hfirst : (found guard redis call).count = 1)
      (hexpire : call.raises .expire = true) (hrecorded : recorded guard redis call = false)
      (hset : .set ∉ (after guard redis call).done)
      (hcounter : (after guard redis call).counters (guard.failKey call.login)
        = some (found guard redis call))
  | counted (hincr : call.raises .incr = false)
      (hlt : (found guard redis call).count < guard.maxFailures)
      (hset : .set ∉ (after guard redis call).done)
      (hcounter : (after guard redis call).counters (guard.failKey call.login)
        = some (opened guard redis call))
  | unlocked (hincr : call.raises .incr = false) (hrecorded : recorded guard redis call = false)
      (hset : .set ∉ (after guard redis call).done)
      (hcounter : (after guard redis call).counters (guard.failKey call.login)
        = some (opened guard redis call))
  | locked (hincr : call.raises .incr = false)
      (hle : guard.maxFailures ≤ (found guard redis call).count)
      (hset : .set ∈ (after guard redis call).done)
      (hlock : (after guard redis call).locks (guard.lockKey call.login)
        = some (call.time + guard.lockS))
      (hcounter : (after guard redis call).counters (guard.failKey call.login) = none ∨
        (after guard redis call).counters (guard.failKey call.login)
          = some (opened guard redis call))

theorem incr_apply (hincr : call.raises .incr = false) {key : String} :
    incr call key redis = .ok (incremented (live call.time (redis.counters key))).count
      { redis.setCounter key (some (incremented (live call.time (redis.counters key)))) with
        done := .incr :: redis.done } := by
  simp [incr, send, hincr]

/-- Once the failure is counted, the window is opened if the failure is the first. -/
theorem exists_opened (hexpire : (found guard redis call).count = 1 → call.raises .expire = false) :
    ∃ s : Redis, s.counters (guard.failKey call.login) = some (opened guard redis call) ∧
      .set ∉ s.done ∧ openWindow guard call (found guard redis call).count
        (counted guard redis call) = .ok ⟨⟩ s := by
  rw [openWindow]
  by_cases hfirst : (found guard redis call).count = 1
  · rw [if_pos hfirst, expire, send, hexpire hfirst]
    refine ⟨_, ?_, ?_, rfl⟩
    · simp [counted, Redis.setCounter, live_found, opened, hfirst]
    · simp [counted]
  · rw [if_neg hfirst]
    refine ⟨_, ?_, ?_, rfl⟩
    · simp [counted, Redis.setCounter, opened, hfirst]
    · simp [counted]

theorem body_apply (hincr : call.raises .incr = false) :
    recordFailureBody guard call { redis with done := [] } =
      (openWindow guard call (found guard redis call).count >>= fun _ ↦
        lockIfReached guard call (found guard redis call).count) (counted guard redis call) := by
  rw [recordFailureBody, EState.bind_apply, incr_apply hincr]
  rfl

theorem leaves (guard : Guard) (redis : Redis) (call : Call) : Leaves guard redis call := by
  have hafter := @after_eq guard redis call
  have hrecorded : recorded guard redis call =
    (EState.outcome (recordFailureBody guard call) { redis with done := [] }).isOk := rfl
  rw [EState.after] at hafter
  rw [EState.outcome] at hrecorded
  cases hincr : call.raises .incr with
  | true =>
    have hbody : recordFailureBody guard call { redis with done := [] } =
        .error .raised { redis with done := [] } := by
      simp [recordFailureBody, incr, send, hincr]
    rw [hbody] at hafter hrecorded
    exact .refused hincr hrecorded (hafter ▸ List.not_mem_nil) (hafter ▸ rfl)
  | false =>
    rw [body_apply hincr, EState.bind_apply] at hafter hrecorded
    by_cases hexpire : (found guard redis call).count = 1 → call.raises .expire = false
    · obtain ⟨s, hcounter, hset, hopen⟩ := exists_opened hexpire
      rw [hopen] at hafter hrecorded
      dsimp only at hafter hrecorded
      by_cases hlt : (found guard redis call).count < guard.maxFailures
      · rw [lockIfReached, if_pos hlt] at hafter
        exact .counted hincr hlt (hafter ▸ hset) (hafter ▸ hcounter)
      · rw [lockIfReached, if_neg hlt, EState.bind_apply] at hafter hrecorded
        cases hsets : call.raises .set with
        | true =>
          simp only [send, hsets, if_true, EState.throw_apply] at hafter hrecorded
          exact .unlocked hincr hrecorded (hafter ▸ hset) (hafter ▸ hcounter)
        | false =>
          simp only [send, hsets, Bool.false_eq_true, if_false, EState.modify_apply,
            EState.bind_apply] at hafter
          have hle := not_lt.mp hlt
          -- The lock is set, whether the key of the count can be deleted or not.
          cases hdelete : call.raises .delete with
          | true =>
            simp only [hdelete, if_true, EState.throw_apply] at hafter
            refine .locked hincr hle ?_ ?_ (.inr ?_)
            · simp [hafter]
            · simp [hafter, Redis.setLock]
            · simp [hafter, Redis.setLock, hcounter]
          | false =>
            simp only [hdelete, Bool.false_eq_true, if_false, EState.modify_apply,
              EState.pure_apply] at hafter
            refine .locked hincr hle ?_ ?_ (.inl ?_)
            · simp [hafter]
            · simp [hafter, Redis.setLock, Redis.setCounter]
            · simp [hafter, Redis.setLock, Redis.setCounter]
    · obtain ⟨hfirst, hraises⟩ := Classical.not_imp.mp hexpire
      have hraises : call.raises .expire = true := by simpa using hraises
      have hopen : openWindow guard call (found guard redis call).count
          (counted guard redis call) = .error .raised (counted guard redis call) := by
        rw [openWindow, if_pos hfirst, expire, send, if_pos hraises]
        rfl
      rw [hopen] at hafter hrecorded
      refine .unopened hincr hfirst hraises hrecorded ?_ ?_
      · simp [hafter, counted]
      · simp [hafter, counted, Redis.setCounter]

/-! ## Runs that meet the condition -/

/-- What the count of a window stands for: the failures recorded since the lock was last set that
are recent when the window opens are all in it, and its failures are since the window opened. -/
structure Counts (guard : Guard) (now : ℚ) (records : List Record) (counter : Counter)
    (opening : ℚ) : Prop where
  opening_le : opening ≤ now
  expiry : counter.expiry = some (opening + guard.windowS)
  pos : 0 < counter.count
  recorded_le : (recent guard opening (sinceLock records)).countP (·.recorded) ≤ counter.count
  le_length : counter.count ≤ (records.filter (opening ≤ ·.time)).length

structure Sound (guard : Guard) (key : String) (now : ℚ) (h : History) : Prop where
  past : ∀ r ∈ h.records, r.time ≤ now
  counts : ∀ counter, h.redis.counters key = some counter →
    ∃ opening, Counts guard now h.records counter opening

variable {key : String} {opening : ℚ} {records : List Record} {r : Record} {counter : Counter}

theorem recorded_cons_le (guard : Guard) (now : ℚ) (r : Record) (records : List Record) :
    (recent guard now (sinceLock (r :: records))).countP (·.recorded) ≤
      (recent guard now (sinceLock records)).countP (·.recorded) +
        if r.recorded then 1 else 0 := by
  rw [sinceLock, List.takeWhile_cons]
  split
  · rw [recent, List.filter_cons]
    split
    · rw [List.countP_cons]
      exact Nat.le_refl _
    · exact Nat.le_add_right _ _
  · exact Nat.zero_le _

/-- Without recorded failures of less than a window, there are none to count. -/
theorem recorded_eq_zero (h : ∀ r ∈ sinceLock records, r.recorded = true →
    r.time + guard.windowS ≤ now) :
    (recent guard now (sinceLock records)).countP (·.recorded) = 0 := by
  rw [List.countP_eq_zero]
  intro r hr hrecorded
  obtain ⟨hmem, hrecent⟩ := List.mem_filter.mp hr
  exact absurd (of_decide_eq_true hrecent) (not_lt.mpr (h r hmem hrecorded))

theorem live_eq_some (h : live now (redis.counters key) = some counter) :
    redis.counters key = some counter ∧ ∀ expiry, counter.expiry = some expiry → now < expiry := by
  obtain ⟨hcounter, hlive⟩ := Option.filter_eq_some_iff.mp h
  refine ⟨hcounter, fun expiry hexpiry ↦ ?_⟩
  rw [hexpiry] at hlive
  exact of_decide_eq_true hlive

theorem found_of_none
    (hlive : live call.time (redis.counters (guard.failKey call.login)) = none) :
    found guard redis call = ⟨1, none⟩ := by
  rw [found, hlive, incremented]

theorem found_of_some
    (hlive : live call.time (redis.counters (guard.failKey call.login)) = some counter) :
    found guard redis call = { counter with count := counter.count + 1 } := by
  rw [found, hlive, incremented]

/-- A failure that is counted is in the window that is open, or opens one. -/
theorem Sound.exists_counts (hs : Sound guard (guard.failKey call.login) now h)
    (hnow : now ≤ call.time) (hmeets : Meets guard h call) (hincr : call.raises .incr = false)
    (hr : r.time = call.time) :
    ∃ opening, Counts guard call.time (r :: h.records) (opened guard h.redis call) opening := by
  have hcons : ∀ opening, (recent guard opening (sinceLock (r :: h.records))).countP (·.recorded) ≤
      (recent guard opening (sinceLock h.records)).countP (·.recorded) + 1 := fun opening ↦
    (recorded_cons_le guard opening r h.records).trans (Nat.add_le_add_left (by split <;> omega) _)
  rcases hlive : live call.time (h.redis.counters (guard.failKey call.login)) with _ | counter
  · have hzero := recorded_eq_zero (hmeets hincr hlive).2
    have hopened : opened guard h.redis call = ⟨1, some (call.time + guard.windowS)⟩ := by
      rw [opened, found_of_none hlive, if_pos rfl]
    rw [hopened]
    refine ⟨call.time, le_rfl, rfl, Nat.one_pos, ?_, ?_⟩
    · exact (hcons call.time).trans (by rw [hzero])
    · rw [List.filter_cons_of_pos (p := fun r : Record ↦ call.time ≤ r.time)
        (decide_eq_true hr.ge), List.length_cons]
      exact Nat.le_add_left _ _
  · obtain ⟨hcounter, -⟩ := live_eq_some hlive
    obtain ⟨opening, hcounts⟩ := hs.counts counter hcounter
    have hopened : opened guard h.redis call = { counter with count := counter.count + 1 } := by
      have hfirst : counter.count + 1 ≠ 1 := by
        have hpos := hcounts.pos
        omega
      rw [opened, found_of_some hlive, if_neg hfirst]
    have hopening := hcounts.opening_le.trans hnow
    rw [hopened]
    refine ⟨opening, hopening, hcounts.expiry, Nat.succ_pos _, ?_, ?_⟩
    · exact (hcons opening).trans (Nat.add_le_add_right hcounts.recorded_le 1)
    · rw [List.filter_cons_of_pos (p := fun r : Record ↦ opening ≤ r.time)
        (decide_eq_true (hopening.trans hr.ge)), List.length_cons]
      exact Nat.add_le_add_right hcounts.le_length 1

/-- A failure that is counted is not the first of a key whose expiry it could not set. -/
theorem Sound.expires (hs : Sound guard (guard.failKey call.login) now h)
    (hmeets : Meets guard h call) (hincr : call.raises .incr = false)
    (hfirst : (found guard h.redis call).count = 1) : call.raises .expire = false := by
  rcases hlive : live call.time (h.redis.counters (guard.failKey call.login)) with _ | counter
  · exact (hmeets hincr hlive).1
  · obtain ⟨opening, hcounts⟩ := hs.counts counter (live_eq_some hlive).1
    have hpos := hcounts.pos
    rw [found_of_some hlive] at hfirst
    dsimp only at hfirst
    omega

theorem Sound.step (hs : Sound guard (guard.failKey call.login) now h) (hnow : now ≤ call.time)
    (hmeets : Meets guard h call) :
    Sound guard (guard.failKey call.login) call.time (h.step guard call) := by
  have hpast : ∀ r ∈ (h.step guard call).records, r.time ≤ call.time :=
    List.forall_mem_cons.mpr ⟨le_rfl, fun r hr ↦ (hs.past r hr).trans hnow⟩
  refine ⟨hpast, fun counter hcounter ↦ ?_⟩
  have hopened := fun hincr ↦ hs.exists_counts hnow hmeets hincr
    (r := ⟨call.time, recorded guard h.redis call, .set ∈ (after guard h.redis call).done⟩) rfl
  change (after guard h.redis call).counters (guard.failKey call.login) = some counter at hcounter
  cases leaves guard h.redis call with
  | refused hincr hrecorded hset hcounters =>
    rw [hcounters] at hcounter
    obtain ⟨opening, hcounts⟩ := hs.counts counter hcounter
    refine ⟨opening, hcounts.opening_le.trans hnow, hcounts.expiry, hcounts.pos, ?_, ?_⟩
    · refine Nat.le_trans (recorded_cons_le _ _ _ _) ?_
      rw [hrecorded]
      exact hcounts.recorded_le
    · exact hcounts.le_length.trans ((List.sublist_cons_self _ _).filter _).length_le
  | unopened hincr hfirst hexpire hrecorded hset hcounters =>
    rw [hs.expires hmeets hincr hfirst] at hexpire
    nomatch hexpire
  | counted hincr hlt hset hcounters =>
    rw [hcounters] at hcounter
    exact Option.some.inj hcounter ▸ hopened hincr
  | unlocked hincr hrecorded hset hcounters =>
    rw [hcounters] at hcounter
    exact Option.some.inj hcounter ▸ hopened hincr
  | locked hincr hle hset hlock hcounters =>
    rcases hcounters with hcounters | hcounters
    · rw [hcounters] at hcounter
      nomatch hcounter
    · rw [hcounters] at hcounter
      exact Option.some.inj hcounter ▸ hopened hincr

/-- **A call that meets the condition obeys the policy**, the count being what it stands for. -/
theorem Sound.obeys (hs : Sound guard (guard.failKey call.login) now h) (hnow : now ≤ call.time)
    (hmeets : Meets guard h call) : Obeys guard h call := by
  have hcount : call.raises .incr = false →
      (recent guard call.time (sinceLock h.records)).countP (·.recorded) + 1 ≤
          (found guard h.redis call).count ∧
        (found guard h.redis call).count ≤ 1 + (recent guard call.time h.records).length := by
    intro hincr
    rcases hlive : live call.time (h.redis.counters (guard.failKey call.login)) with _ | counter
    · rw [found_of_none hlive, recorded_eq_zero (hmeets hincr hlive).2]
      exact ⟨Nat.le_refl _, Nat.le_add_right _ _⟩
    · obtain ⟨hcounter, hexpiry⟩ := live_eq_some hlive
      obtain ⟨opening, hcounts⟩ := hs.counts counter hcounter
      have hopening := hcounts.opening_le.trans hnow
      have hend := hexpiry _ hcounts.expiry
      rw [found_of_some hlive]
      constructor
      · -- What is recent now was recent when the window opened.
        have hsub : (recent guard call.time (sinceLock h.records)).Sublist
            (recent guard opening (sinceLock h.records)) :=
          List.monotone_filter_right _ fun r hr ↦
            decide_eq_true (hopening.trans_lt (of_decide_eq_true hr))
        exact Nat.add_le_add_right ((hsub.countP_le).trans hcounts.recorded_le) 1
      · -- What is since the window opened is recent, as the window is still open.
        have hsub : (h.records.filter (opening ≤ ·.time)).Sublist
            (recent guard call.time h.records) :=
          List.monotone_filter_right _ fun r hr ↦
            decide_eq_true (hend.trans_le (add_le_add_left (of_decide_eq_true hr) _))
        have hle := hcounts.le_length.trans hsub.length_le
        dsimp only
        omega
  constructor
  · intro hrecorded hdue
    cases leaves guard h.redis call with
    | refused _ hrecorded' _ _ | unopened _ _ _ hrecorded' _ _ | unlocked _ hrecorded' _ _ =>
      rw [hrecorded'] at hrecorded
      nomatch hrecorded
    | counted hincr hlt _ _ =>
      have hle := (hcount hincr).1
      rw [Due] at hdue
      omega
    | locked _ _ hset hlock _ => exact ⟨hset, hlock⟩
  · intro hset
    cases leaves guard h.redis call with
    | refused _ _ hset' _ | unopened _ _ _ _ hset' _ | counted _ _ hset' _ | unlocked _ _ hset' _ =>
      exact absurd hset hset'
    | locked hincr hle _ _ _ =>
      have hcount := (hcount hincr).2
      rw [Enough]
      omega

/-- The clock does not go back. -/
def Clocked (calls : List Call) : Prop := (calls.map Call.time).Pairwise (· ≤ ·)

variable {calls pre : List Call} {login : String}

theorem run_concat (guard : Guard) (calls : List Call) (call : Call) :
    run guard (calls ++ [call]) = (run guard calls).step guard call := by
  rw [run, List.foldl_append, run, List.foldl_cons, List.foldl_nil]

theorem clocked_concat_iff :
    Clocked (calls ++ [call]) ↔ Clocked calls ∧ ∀ c ∈ calls, c.time ≤ call.time := by
  simp [Clocked, List.pairwise_append]

theorem failKey_eq (h : guard.normal call.login = login) :
    guard.failKey call.login = "auth.fail." ++ login := by
  rw [Guard.failKey, h]

theorem Sound.mono (hs : Sound guard key now h) (hle : now ≤ t) : Sound guard key t h where
  past r hr := (hs.past r hr).trans hle
  counts counter hcounter := by
    obtain ⟨opening, hcounts⟩ := hs.counts counter hcounter
    exact ⟨opening, { hcounts with opening_le := hcounts.opening_le.trans hle }⟩

theorem sound_run (hlogin : ∀ call ∈ calls, guard.normal call.login = login)
    (hclock : Clocked calls)
    (hmeets : ∀ pre call, pre ++ [call] <+: calls → Meets guard (run guard pre) call)
    (hlast : ∀ call ∈ calls, call.time ≤ t) :
    Sound guard ("auth.fail." ++ login) t (run guard calls) := by
  induction calls using List.reverseRecOn generalizing t with
  | nil => exact ⟨List.forall_mem_nil _, fun counter hcounter ↦ nomatch hcounter⟩
  | append_singleton calls call ih =>
    obtain ⟨hclock, hle⟩ := clocked_concat_iff.mp hclock
    obtain ⟨hlogin, hcall⟩ := List.forall_mem_append.mp hlogin
    have hkey := failKey_eq (hcall call (List.mem_singleton_self _))
    have hs := ih hlogin hclock
      (fun pre call hpre ↦ hmeets pre call (hpre.trans (List.prefix_append _ _))) hle
    rw [← hkey] at hs ⊢
    rw [run_concat]
    exact (hs.step le_rfl (hmeets calls call List.prefix_rfl)).mono (hlast call (by simp))

/-- **When the policy holds**: for failures of one login, however it is spelled, and a clock that
does not go back, if every failure that creates the key of the count sets its expiry, and creates it
when the failures recorded since the lock was last set are older than a window. -/
theorem obeys_of_meets (guard : Guard) (login : String) (calls : List Call)
    (hlogin : ∀ call ∈ calls, guard.normal call.login = login) (hclock : Clocked calls)
    (hmeets : ∀ pre call, pre ++ [call] <+: calls → Meets guard (run guard pre) call) :
    ∀ pre call, pre ++ [call] <+: calls → Obeys guard (run guard pre) call := by
  intro pre call hpre
  have hsub := hpre.subset
  have hclock' : Clocked (pre ++ [call]) :=
    List.Pairwise.sublist (hpre.sublist.map Call.time) hclock
  obtain ⟨hclock', hle⟩ := clocked_concat_iff.mp hclock'
  have hs := sound_run (fun c hc ↦ hlogin c (hsub (List.mem_append_left _ hc))) hclock'
    (fun pre' call' hpre' ↦ hmeets pre' call'
      (hpre'.trans ((List.prefix_append _ _).trans hpre))) hle
  rw [← failKey_eq (hlogin call (hsub (by simp)))] at hs
  exact hs.obeys le_rfl (hmeets pre call hpre)

instance (guard : Guard) (h : History) (call : Call) : Decidable (Meets guard h call) :=
  inferInstanceAs (Decidable (_ → _ → _ ∧ ∀ r ∈ sinceLock h.records, _ → _))

instance (guard : Guard) (now : ℚ) (records : List Record) : Decidable (Due guard now records) :=
  inferInstanceAs (Decidable (_ ≤ _))

instance (guard : Guard) (now : ℚ) (records : List Record) : Decidable (Enough guard now records) :=
  inferInstanceAs (Decidable (_ ≤ _))

instance (calls : List Call) : Decidable (Clocked calls) :=
  inferInstanceAs (Decidable (List.Pairwise _ _))

/-- Five failures in fifteen minutes lock for fifteen minutes; the letters are ASCII. -/
def fifteenMinutes : Guard where
  lower := List.map Char.toLower
  maxFailures := 5
  windowS := 900
  lockS := 900

/-- A failure, and five more fifteen minutes later. -/
def twoBursts : List Call :=
  [⟨0, "Hugo", fun _ ↦ false⟩, ⟨900, "HUGO", fun _ ↦ false⟩, ⟨910, "hugo", fun _ ↦ false⟩,
    ⟨920, " hugo", fun _ ↦ false⟩, ⟨930, "hUGO", fun _ ↦ false⟩, ⟨940, "hugo", fun _ ↦ false⟩]

theorem obeys_of_meets_twoBursts : Obeys fifteenMinutes
    (run fifteenMinutes twoBursts.dropLast) ⟨940, "hugo", fun _ ↦ false⟩ := by
  refine obeys_of_meets fifteenMinutes "hugo" twoBursts ?_ (by decide +kernel) ?_
    twoBursts.dropLast ⟨940, "hugo", fun _ ↦ false⟩ ⟨[], rfl⟩
  · intro call hcall
    simp only [twoBursts, List.mem_cons, List.not_mem_nil, or_false] at hcall
    rcases hcall with rfl | rfl | rfl | rfl | rfl | rfl <;> rfl
  · exact Trace.forall_concat_prefix_iff.mpr (by decide +kernel)

/-- Two runs for one login. Of failures at 0, 850, 860, 870, 910 and 920 seconds, the last five are
recorded within fifteen minutes and the last does not lock. Of failures at 0, 1000, 2000, 3000 and
4000 seconds, the first of which cannot set the expiry of the count, the last locks. -/
theorem not_obeys :
    (¬ ∀ (guard : Guard) (login : String) (calls : List Call),
      (∀ call ∈ calls, guard.normal call.login = login) → Clocked calls →
        ∀ pre call, pre ++ [call] <+: calls → recorded guard (run guard pre).redis call = true →
          Due guard call.time (run guard pre).records →
            .set ∈ (after guard (run guard pre).redis call).done) ∧
    (¬ ∀ (guard : Guard) (login : String) (calls : List Call),
      (∀ call ∈ calls, guard.normal call.login = login) → Clocked calls →
        ∀ pre call, pre ++ [call] <+: calls →
          .set ∈ (after guard (run guard pre).redis call).done →
            Enough guard call.time (run guard pre).records) := by
  have hlogin : ∀ calls : List Call, (calls.map Call.login).all (· = "hugo") = true →
      ∀ call ∈ calls, fifteenMinutes.normal call.login = "hugo" := by
    intro calls h call hcall
    have hname := List.all_eq_true.mp h call.login (List.mem_map_of_mem hcall)
    rw [of_decide_eq_true hname]
    rfl
  constructor
  · intro h
    have hset := h fifteenMinutes "hugo"
      ([0, 850, 860, 870, 910, 920].map (⟨·, "hugo", fun _ ↦ false⟩))
      (hlogin _ rfl) (by decide +kernel)
      ([0, 850, 860, 870, 910].map (⟨·, "hugo", fun _ ↦ false⟩)) ⟨920, "hugo", fun _ ↦ false⟩
      List.prefix_rfl (by decide +kernel) (by decide +kernel)
    exact absurd hset (by decide +kernel)
  · intro h
    have henough := h fifteenMinutes "hugo"
      (⟨0, "hugo", (· = .expire)⟩ :: [1000, 2000, 3000, 4000].map (⟨·, "hugo", fun _ ↦ false⟩))
      (hlogin _ rfl) (by decide +kernel)
      (⟨0, "hugo", (· = .expire)⟩ :: [1000, 2000, 3000].map (⟨·, "hugo", fun _ ↦ false⟩))
      ⟨4000, "hugo", fun _ ↦ false⟩ List.prefix_rfl (by decide +kernel)
    exact absurd henough (by decide +kernel)

end Superviseur.LoginGuard
