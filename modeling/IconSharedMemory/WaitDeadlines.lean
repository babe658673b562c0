import Mathlib.Algebra.Ring.Int.Defs
import IconSharedMemory.Futex

/-! # The time limit of a wait

A wait on a `BinaryFutex` hands the kernel an absolute time of `CLOCK_MONOTONIC`, or no time
limit.  `WaitUntil` computes it from a deadline of the steady clock; `WaitFor`, and the functions
of a `Lockstep` that take a timeout, compute the deadline first.  All of this is arithmetic on
signed 64-bit numbers of nanoseconds, in which an overflow has no result: `none`.

The wait never ends early, whatever the timeout, as long as nothing overflows
(`wait_never_early_iff`).  `WaitFor` treats the largest timeout as no time limit; a `Lockstep`
adds it to the current time, which overflows.
-/
namespace Intrinsic.WaitDeadlines

/-! ## Numbers of nanoseconds -/

/-- The largest number, which is that of `nanoseconds::max()` and of `Time::max()`. -/
def maxNs : Int := 2 ^ 63 - 1

def minNs : Int := -2 ^ 63

/-- The result of an operation on signed 64-bit numbers. -/
def checked (x : Int) : Option Int := if minNs ≤ x ∧ x ≤ maxNs then some x else none

theorem checked_of_le {x : Int} (hmin : minNs ≤ x) (hmax : x ≤ maxNs) : checked x = some x :=
  if_pos ⟨hmin, hmax⟩

theorem checked_of_not {x : Int} (h : ¬ (minNs ≤ x ∧ x ≤ maxNs)) : checked x = none := if_neg h

/-- Nanoseconds in a second. -/
def second : Int := 1000000000

structure Timespec where
  tvSec : Int
  tvNsec : Int
  deriving DecidableEq, Repr

def Timespec.toNs (ts : Timespec) : Int := ts.tvSec * second + ts.tvNsec

/-- `seconds(ts.tv_sec) + nanoseconds(ts.tv_nsec)` -/
def Timespec.duration (ts : Timespec) : Option Int := do
  let seconds ← checked (ts.tvSec * second)
  checked (seconds + ts.tvNsec)

/-- The fields of `deadline_ts`, where `duration_cast` truncates. -/
def timespecOf (deadlineDuration : Int) : Option Timespec := do
  let secs := deadlineDuration.tdiv second
  let seconds ← checked (secs * second)
  let ns ← checked (deadlineDuration - seconds)
  some ⟨max 0 secs, max 0 ns⟩

/-! ## Waits -/

/-- The readings of the clock in one `WaitUntil`: `Now()`, and what `clock_gettime` returns, which
may fail with the text for an error. -/
structure Clock where
  now : Int
  clockGettime : Except (List UInt8) Timespec

/-- `BinaryFutex::WaitUntil` up to the wait: the time limit, if there is one, or the error. -/
def waitUntil (deadline : Int) (clock : Clock) :
    Option (Except RealtimeStatus (Option Timespec)) :=
  if deadline = maxNs then some (.ok none)
  else do
    let duration ← checked (deadline - clock.now)
    match clock.clockGettime with
    | .error error =>
      some (.error (formatRealtimeStatus .internal
        (ascii "clock_gettime failed with error: " ++ error)))
    | .ok nowTs =>
      let nowDuration ← nowTs.duration
      let deadlineDuration ← checked (nowDuration + duration)
      let deadlineTs ← timespecOf deadlineDuration
      some (.ok (some deadlineTs))

/-- The time limits that are handed to the kernel. -/
def limits : Except RealtimeStatus (Option Timespec) → List (Option Timespec)
  | .ok limit => [limit]
  | .error _ => []

/-- `BinaryFutex::WaitFor`, called at `callTime`. -/
def waitFor (timeout : Int64) (callTime : Int) (clock : Clock) :
    Option (List (Option Timespec)) :=
  if timeout = Int64.maxValue then some [none]
  else do
    let deadline ← checked (callTime + timeout.toInt)
    (waitUntil deadline clock).map limits

/-- A `StartOperation...WithTimeout`, which waits on one futex. -/
def startOperationWithTimeout (timeout : Int64) (callTime : Int) (clock : Clock) :
    Option (List (Option Timespec)) := do
  let deadline ← checked (callTime + timeout.toInt)
  (waitUntil deadline clock).map limits

/-- `Lockstep::StartOperationAWithTimeout`, which waits on `b_finished_` -/
def startOperationAWithTimeout (timeout : Int64) (callTime : Int) (clock : Clock) :
    Option (List (Option Timespec)) :=
  startOperationWithTimeout timeout callTime clock

/-- `Lockstep::StartOperationBWithTimeout`, which waits on `a_finished_` -/
def startOperationBWithTimeout (timeout : Int64) (callTime : Int) (clock : Clock) :
    Option (List (Option Timespec)) :=
  startOperationWithTimeout timeout callTime clock

/-- `Lockstep::Reset`: the wait on `a_finished_`, and, if that takes the token, the wait on
`b_finished_`. -/
def reset (cancelled : Bool) (timeout : Int64) (callTime : Int) (first : Clock) (takesA : Bool)
    (next : Clock) : Option (List (Option Timespec)) :=
  if cancelled = false then some []
  else do
    let deadline ← checked (callTime + timeout.toInt)
    match ← waitUntil deadline first with
    | .error _ => some []
    | .ok limit =>
      if takesA = false then some [limit]
      else (waitUntil deadline next).map fun result => limit :: limits result

/-! ## What is expected of them -/

/-- The readings are those of one clock, which does not go backwards, since `callTime`. -/
structure Clock.Since (callTime : Int) (clock : Clock) : Prop where
  start : 0 ≤ callTime
  now : callTime ≤ clock.now ∧ clock.now ≤ maxNs
  clockGettime : ∀ ts, clock.clockGettime = .ok ts →
    0 ≤ ts.tvSec ∧ 0 ≤ ts.tvNsec ∧ ts.tvNsec < second ∧ clock.now ≤ ts.toNs ∧ ts.toNs ≤ maxNs

/-- The wait does not end early. -/
structure Late (timeout : Int64) (callTime : Int) (limit : Option Timespec) : Prop where
  unlimited : timeout = Int64.maxValue → limit = none
  late : ∀ ts, limit = some ts → 0 ≤ ts.tvNsec ∧ ts.tvNsec < second ∧
    callTime + max timeout.toInt 0 ≤ ts.toNs

/-- **There is no overflow, and no wait ends early.** -/
def NeverEarly (timeout : Int64) (callTime : Int) (result : Option (List (Option Timespec))) :
    Prop :=
  ∃ limits, result = some limits ∧ ∀ limit ∈ limits, Late timeout callTime limit

/-- **The condition**: the deadline is `Time::max()`; or neither the deadline nor its distance
from the current time overflows, and, if the clock can be read, neither does their sum.  A
timeout that is negative is made up for by the time between the two readings, or the clock has
only just started. -/
def InTime (timeout : Int64) (callTime : Int) (clock : Clock) : Prop :=
  callTime + timeout.toInt = maxNs ∨
    callTime + timeout.toInt ≤ maxNs ∧ minNs ≤ callTime + timeout.toInt - clock.now ∧
    ∀ ts, clock.clockGettime = .ok ts →
      callTime + timeout.toInt + (ts.toNs - clock.now) ≤ maxNs ∧
      (0 ≤ timeout.toInt ∨ clock.now ≤ ts.toNs + timeout.toInt ∨ callTime = 0)

/-! ## The arithmetic -/

/-- A reading of the clock is put together without an overflow. -/
theorem Timespec.duration_eq {ts : Timespec} (hsec : 0 ≤ ts.tvSec) (hnsec : 0 ≤ ts.tvNsec)
    (hmax : ts.toNs ≤ maxNs) : ts.duration = some ts.toNs := by
  have hseconds : 0 ≤ ts.tvSec * second := Int.mul_nonneg hsec (by decide)
  have hmin : minNs ≤ 0 := by decide
  unfold Timespec.toNs at hmax ⊢
  unfold Timespec.duration
  rw [checked_of_le (by omega) (by omega), Option.bind_eq_bind, Option.bind_some,
    checked_of_le (by omega) hmax]

/-- Division truncates, so the sign of a number is that of both of its parts. -/
theorem tdiv_second_parts (d : Int) :
    (0 ≤ d → 0 ≤ d.tdiv second ∧ 0 ≤ d - d.tdiv second * second ∧
      d - d.tdiv second * second < second) ∧
    (d < 0 → d.tdiv second ≤ 0 ∧ d - d.tdiv second * second ≤ 0 ∧
      -second < d - d.tdiv second * second) := by
  unfold second
  constructor
  · intro hd
    rw [Int.tdiv_eq_ediv_of_nonneg hd]
    omega
  · intro hd
    have hneg : d.tdiv 1000000000 = -((-d) / 1000000000) := by
      rw [← Int.tdiv_eq_ediv_of_nonneg (by omega), Int.neg_tdiv, Int.neg_neg]
    rw [hneg]
    omega

/-- **A number of nanoseconds is split into seconds and the rest.**  Before the start of the clock
both are zero. -/
theorem timespecOf_eq {d : Int} (hmin : minNs ≤ d) (hmax : d ≤ maxNs) :
    ∃ ts, timespecOf d = some ts ∧ 0 ≤ ts.tvNsec ∧ ts.tvNsec < second ∧ ts.toNs = max d 0 := by
  have hparts := tdiv_second_parts d
  unfold timespecOf Timespec.toNs
  generalize d.tdiv second = secs at hparts ⊢
  unfold second minNs maxNs at *
  dsimp only
  rw [checked_of_le (by unfold minNs; omega) (by unfold maxNs; omega), Option.bind_eq_bind,
    Option.bind_some, checked_of_le (by unfold minNs; omega) (by unfold maxNs; omega)]
  refine ⟨⟨max 0 secs, max 0 (d - secs * 1000000000)⟩, rfl, ?_⟩
  dsimp only
  omega

/-! ## A single wait -/

section Wait
variable {timeout : Int64} {callTime : Int} {clock : Clock}

/-- The distance to a deadline is too small at most. -/
theorem Clock.Since.sub_le {deadline : Int} (hclock : clock.Since callTime)
    (hmax : deadline ≤ maxNs) : deadline - clock.now ≤ maxNs := by
  have hstart := hclock.start
  have hlater := hclock.now.1
  omega

/-- What `WaitUntil` computes, if nothing overflows before the last sum. -/
theorem waitUntil_eq {deadline : Int} {ts : Timespec} (hclock : clock.Since callTime)
    (hts : clock.clockGettime = .ok ts) (hne : deadline ≠ maxNs) (hmax : deadline ≤ maxNs)
    (hmin : minNs ≤ deadline - clock.now) :
    waitUntil deadline clock =
      (checked (ts.toNs + (deadline - clock.now))).bind fun deadlineDuration =>
        (timespecOf deadlineDuration).bind fun deadlineTs => some (.ok (some deadlineTs)) := by
  obtain ⟨hsec, hnsec, -, -, hle⟩ := hclock.clockGettime ts hts
  unfold waitUntil
  rw [if_neg hne, checked_of_le hmin (hclock.sub_le hmax), hts]
  dsimp only [Option.bind_eq_bind, Option.bind_some]
  rw [Timespec.duration_eq hsec hnsec hle, Option.bind_some]

theorem waitUntil_error {deadline : Int} {error : List UInt8} (hclock : clock.Since callTime)
    (hts : clock.clockGettime = .error error) (hne : deadline ≠ maxNs) (hmax : deadline ≤ maxNs)
    (hmin : minNs ≤ deadline - clock.now) : ∃ st, waitUntil deadline clock = some (.error st) := by
  unfold waitUntil
  rw [if_neg hne, checked_of_le hmin (hclock.sub_le hmax), hts]
  exact ⟨_, rfl⟩

/-- **Under the condition** the wait does not end early, or the clock cannot be read. -/
theorem waitUntil_of_inTime (hclock : clock.Since callTime) (h : InTime timeout callTime clock) :
    (∃ limit, waitUntil (callTime + timeout.toInt) clock = some (.ok limit) ∧
      Late timeout callTime limit ∧
      (callTime + timeout.toInt = maxNs ∨ clock.clockGettime.isOk = true)) ∨
    ∃ error st, clock.clockGettime = .error error ∧
      waitUntil (callTime + timeout.toInt) clock = some (.error st) := by
  by_cases hunlimited : callTime + timeout.toInt = maxNs
  · exact .inl ⟨none, if_pos hunlimited, ⟨fun _ => rfl, nofun⟩, .inl hunlimited⟩
  · obtain ⟨hmax, hmin, hsum⟩ := h.resolve_left hunlimited
    cases hts : clock.clockGettime with
    | error error =>
      obtain ⟨st, hst⟩ := waitUntil_error hclock hts hunlimited hmax hmin
      exact .inr ⟨error, st, rfl, hst⟩
    | ok ts =>
      obtain ⟨hle, hlate⟩ := hsum ts hts
      have hstart := hclock.start
      obtain ⟨hsec, hnsec, -, hlater, -⟩ := hclock.clockGettime ts hts
      have hnow := hclock.now.1
      obtain ⟨limit, hlimit, hpos, hlt, hns⟩ := @timespecOf_eq
        (ts.toNs + (callTime + timeout.toInt - clock.now)) (by omega) (by omega)
      refine .inl ⟨some limit, ?_, ⟨?_, ?_⟩, .inr rfl⟩
      · rw [waitUntil_eq hclock hts hunlimited hmax hmin, checked_of_le (by omega) (by omega),
          Option.bind_some, hlimit, Option.bind_some]
      · -- the largest timeout overflows unless the clock has only just started
        rintro rfl
        have hmaxValue : Int64.maxValue.toInt = maxNs := rfl
        omega
      · rintro _ ⟨⟩
        refine ⟨hpos, hlt, ?_⟩
        omega

/-- **Otherwise** something overflows, or the wait ends early. -/
theorem waitUntil_of_not_inTime (hclock : clock.Since callTime)
    (hmax : callTime + timeout.toInt ≤ maxNs) (h : ¬ InTime timeout callTime clock) :
    waitUntil (callTime + timeout.toInt) clock = none ∨
    ∃ limit, waitUntil (callTime + timeout.toInt) clock = some (.ok limit) ∧
      ¬ Late timeout callTime limit := by
  obtain ⟨hunlimited, hrest⟩ := not_or.mp h
  by_cases hmin : minNs ≤ callTime + timeout.toInt - clock.now
  · obtain ⟨ts, hts, hnot⟩ : ∃ ts, clock.clockGettime = .ok ts ∧
        ¬ (callTime + timeout.toInt + (ts.toNs - clock.now) ≤ maxNs ∧
          (0 ≤ timeout.toInt ∨ clock.now ≤ ts.toNs + timeout.toInt ∨ callTime = 0)) := by
      by_contra hall
      exact hrest ⟨hmax, hmin, fun ts hts => not_not.mp fun hnot => hall ⟨ts, hts, hnot⟩⟩
    rw [waitUntil_eq hclock hts hunlimited hmax hmin]
    by_cases hle : callTime + timeout.toInt + (ts.toNs - clock.now) ≤ maxNs
    · have hstart := hclock.start
      obtain ⟨hsec, hnsec, -, hlater, -⟩ := hclock.clockGettime ts hts
      have hnow := hclock.now.1
      obtain ⟨limit, hlimit, -, -, hns⟩ := @timespecOf_eq
        (ts.toNs + (callTime + timeout.toInt - clock.now)) (by omega) (by omega)
      refine .inr ⟨some limit, ?_, fun hlate => ?_⟩
      · rw [checked_of_le (by omega) (by omega), Option.bind_some, hlimit, Option.bind_some]
      · obtain ⟨-, -, hlate⟩ := hlate.late limit rfl
        omega
    · have hover : ¬ (minNs ≤ ts.toNs + (callTime + timeout.toInt - clock.now) ∧
          ts.toNs + (callTime + timeout.toInt - clock.now) ≤ maxNs) := by omega
      rw [checked_of_not hover]
      exact .inl rfl
  · refine .inl ?_
    unfold waitUntil
    rw [if_neg hunlimited, checked_of_not fun hall => hmin hall.1]
    rfl

theorem InTime.deadline_le (h : InTime timeout callTime clock) :
    callTime + timeout.toInt ≤ maxNs :=
  h.elim Int.le_of_eq And.left

/-- The deadline of a timeout can only be too late. -/
theorem checked_deadline (hstart : 0 ≤ callTime) (hmax : callTime + timeout.toInt ≤ maxNs) :
    checked (callTime + timeout.toInt) = some (callTime + timeout.toInt) := by
  have hmin := timeout.le_toInt
  refine checked_of_le ?_ hmax
  unfold minNs
  omega

/-- **A wait never ends early if and only if the condition holds.** -/
theorem wait_neverEarly_iff (hclock : clock.Since callTime)
    (hmax : callTime + timeout.toInt ≤ maxNs) :
    NeverEarly timeout callTime ((waitUntil (callTime + timeout.toInt) clock).map limits) ↔
      InTime timeout callTime clock := by
  by_cases h : InTime timeout callTime clock
  · refine iff_of_true ?_ h
    rcases waitUntil_of_inTime hclock h with ⟨limit, hwait, hlate, -⟩ | ⟨error, st, -, hwait⟩
    · rw [hwait]
      exact ⟨[limit], rfl, List.forall_mem_singleton.mpr hlate⟩
    · rw [hwait]
      exact ⟨[], rfl, nofun⟩
  · refine iff_of_false ?_ h
    rintro ⟨limits, hlimits, hlate⟩
    rcases waitUntil_of_not_inTime hclock hmax h with hwait | ⟨limit, hwait, hearly⟩
    · rw [hwait] at hlimits
      cases hlimits
    · rw [hwait] at hlimits
      cases hlimits
      exact hearly (hlate limit List.mem_cons_self)

/-- Two waits, one after the other. -/
theorem neverEarly_cons_iff {limit : Option Timespec}
    {result : Option (Except RealtimeStatus (Option Timespec))} :
    NeverEarly timeout callTime (result.map fun r => limit :: limits r) ↔
      Late timeout callTime limit ∧ NeverEarly timeout callTime (result.map limits) := by
  cases result with
  | none =>
    refine iff_of_false ?_ ?_
    · rintro ⟨_, ⟨⟩, -⟩
    · rintro ⟨-, _, ⟨⟩, -⟩
  | some r =>
    constructor
    · rintro ⟨_, ⟨⟩, hlate⟩
      obtain ⟨hlimit, hrest⟩ := List.forall_mem_cons.mp hlate
      exact ⟨hlimit, limits r, rfl, hrest⟩
    · rintro ⟨hlimit, _, ⟨⟩, hrest⟩
      exact ⟨limit :: limits r, rfl, List.forall_mem_cons.mpr ⟨hlimit, hrest⟩⟩

theorem not_neverEarly_none : ¬ NeverEarly timeout callTime none := by
  rintro ⟨_, ⟨⟩, -⟩

theorem startOperation_neverEarly_iff (hclock : clock.Since callTime) :
    NeverEarly timeout callTime (startOperationWithTimeout timeout callTime clock) ↔
      InTime timeout callTime clock := by
  unfold startOperationWithTimeout
  by_cases hmax : callTime + timeout.toInt ≤ maxNs
  · rw [checked_deadline hclock.start hmax]
    exact wait_neverEarly_iff hclock hmax
  · rw [checked_of_not fun hall => hmax hall.2]
    exact iff_of_false not_neverEarly_none fun h => hmax h.deadline_le

theorem waitFor_neverEarly_iff (hclock : clock.Since callTime) :
    NeverEarly timeout callTime (waitFor timeout callTime clock) ↔
      timeout = Int64.maxValue ∨ InTime timeout callTime clock := by
  unfold waitFor
  by_cases hunlimited : timeout = Int64.maxValue
  · rw [if_pos hunlimited]
    exact iff_of_true ⟨[none], rfl, List.forall_mem_singleton.mpr ⟨fun _ => rfl, nofun⟩⟩
      (.inl hunlimited)
  · rw [if_neg hunlimited, or_iff_right hunlimited]
    exact startOperation_neverEarly_iff hclock

/-- The second wait of a reset matters if the first one takes the token. -/
theorem reset_neverEarly_iff {cancelled takesA : Bool} {first next : Clock}
    (hfirst : first.Since callTime) (hnext : next.Since callTime) :
    NeverEarly timeout callTime (reset cancelled timeout callTime first takesA next) ↔
      (cancelled = true → InTime timeout callTime first ∧
        (takesA = true → first.clockGettime.isOk = true → InTime timeout callTime next)) := by
  unfold reset
  cases cancelled with
  | false => exact iff_of_true ⟨[], rfl, nofun⟩ nofun
  | true =>
    rw [if_neg Bool.true_eq_false.mp, imp_iff_right rfl]
    by_cases hmax : callTime + timeout.toInt ≤ maxNs
    · rw [checked_deadline hfirst.start hmax]
      dsimp only [Option.bind_eq_bind, Option.bind_some]
      by_cases h : InTime timeout callTime first
      · rw [and_iff_right h]
        rcases waitUntil_of_inTime hfirst h with
          ⟨limit, hwait, hlate, hok⟩ | ⟨error, st, herror, hwait⟩
        · rw [hwait]
          cases takesA with
          | false => exact iff_of_true ⟨[limit], rfl, List.forall_mem_singleton.mpr hlate⟩ nofun
          | true =>
            rw [imp_iff_right rfl]
            refine neverEarly_cons_iff.trans ?_
            rw [and_iff_right hlate, wait_neverEarly_iff hnext hmax]
            -- without a time limit the clock is not read
            exact ⟨fun h' _ => h', fun h' => hok.elim .inl h'⟩
        · rw [hwait, herror]
          exact iff_of_true ⟨[], rfl, nofun⟩ nofun
      · refine iff_of_false ?_ fun hall => h hall.1
        rcases waitUntil_of_not_inTime hfirst hmax h with hwait | ⟨limit, hwait, hearly⟩
        · rw [hwait]
          exact not_neverEarly_none
        · rw [hwait]
          cases takesA with
          | false =>
            rintro ⟨_, ⟨⟩, hlate⟩
            exact hearly (hlate limit List.mem_cons_self)
          | true => exact fun hnever => hearly (neverEarly_cons_iff.mp hnever).1
    · rw [checked_of_not fun hall => hmax hall.2]
      exact iff_of_false not_neverEarly_none fun h => hmax h.1.deadline_le

/-- **Waits never end early, for any timeout and any readings of a clock that does not go
backwards, if and only if** none of the sums and differences overflows (`InTime`), or the timeout
of `WaitFor` is the largest one.  A timeout that is negative has to be made up for by the time
between two readings of the clock. -/
theorem wait_never_early_iff (timeout : Int64) {callTime : Int} {clock next : Clock}
    (hclock : clock.Since callTime) (hnext : next.Since callTime) (cancelled takesA : Bool) :
    (NeverEarly timeout callTime (waitFor timeout callTime clock) ↔
      timeout = Int64.maxValue ∨ InTime timeout callTime clock) ∧
    (NeverEarly timeout callTime (startOperationAWithTimeout timeout callTime clock) ↔
      InTime timeout callTime clock) ∧
    (NeverEarly timeout callTime (startOperationBWithTimeout timeout callTime clock) ↔
      InTime timeout callTime clock) ∧
    (NeverEarly timeout callTime (reset cancelled timeout callTime clock takesA next) ↔
      (cancelled = true → InTime timeout callTime clock ∧
        (takesA = true → clock.clockGettime.isOk = true → InTime timeout callTime next))) :=
  ⟨waitFor_neverEarly_iff hclock, startOperation_neverEarly_iff hclock,
    startOperation_neverEarly_iff hclock, reset_neverEarly_iff hclock hnext⟩

end Wait

/-- A timeout of a second, a second after the start of the clock, which is then read twice. -/
theorem wait_never_early_second :
    let clock : Clock := ⟨1000000005, .ok ⟨1, 9⟩⟩
    NeverEarly 1000000000 1000000000 (waitFor 1000000000 1000000000 clock) ∧
      NeverEarly 1000000000 1000000000 (startOperationAWithTimeout 1000000000 1000000000 clock) ∧
      NeverEarly 1000000000 1000000000
        (reset true 1000000000 1000000000 clock true clock) := by
  intro clock
  have hclock : clock.Since 1000000000 := by
    refine ⟨by decide, by decide, ?_⟩
    rintro ts ⟨⟩
    decide
  have hin : InTime 1000000000 1000000000 clock := by
    refine .inr ⟨by decide, by decide, ?_⟩
    rintro ts ⟨⟩
    decide
  obtain ⟨hfor, hstart, -, hreset⟩ := wait_never_early_iff 1000000000 hclock hclock true true
  exact ⟨hfor.mpr (.inr hin), hstart.mpr hin, hreset.mpr fun _ => ⟨hin, fun _ _ => hin⟩⟩

/-- **The largest timeout overflows** in every function of a `Lockstep`, though not in `WaitFor`;
one that is smaller by one overflows there too. -/
theorem largest_timeout_overflows :
    let clock : Clock := ⟨5, .ok ⟨0, 9⟩⟩
    waitFor Int64.maxValue 5 clock = some [none] ∧
      waitFor (Int64.maxValue - 1) 5 clock = none ∧
      startOperationAWithTimeout Int64.maxValue 5 clock = none ∧
      startOperationBWithTimeout Int64.maxValue 5 clock = none ∧
      reset true Int64.maxValue 5 clock true clock = none := by
  decide

end Intrinsic.WaitDeadlines
