import Mathlib.Data.List.Induction
import Mathlib.Data.List.TakeWhile
import Mathlib.Data.Rat.Cast.Order
import Mathlib.Tactic.Linarith

/-!
# The rate limiter

* `RateLimiter.allowed`, `RateLimiter.getEffectiveRate`: the limiter.
* `Call`, `RateLimiter.run`: calls one after another, each with what the clock shows in it.
* `Windows`: the decisions in the current and in the previous statistics window.
* `limits_and_reports`: in no second more calls are allowed than the limit, and the rate is the one
  of the windows while they hold fewer than `2 ^ 31` checks.

Source: `Sampling/RateLimiter.cs`
-/

namespace DdTrace.Sampling

/-- A second in ticks, `_interval`. -/
def interval : Int := 10000000

/-- The limiter, called by one thread at a time; times are ticks.
Source: `RateLimiter.cs`, its fields but `_refreshing` -/
structure RateLimiter where
  maxTracesPerInterval : Int32
  intervalQueue : List Int
  windowBegin : Int
  windowChecks : Int32
  windowAllowed : Int32
  previousWindowChecks : Int32
  previousWindowAllowed : Int32
  deriving DecidableEq, Repr

namespace RateLimiter

/-- Source: `RateLimiter.cs`, the constructor -/
def new (maxTracesPerInterval : Option Int32) (now : Int) : RateLimiter where
  maxTracesPerInterval := maxTracesPerInterval.getD 100
  intervalQueue := []
  windowBegin := now
  windowChecks := 0
  windowAllowed := 0
  previousWindowChecks := 0
  previousWindowAllowed := 0

/-- Begin a new statistics window after a second.
Source: `RateLimiter.cs`, `WaitForRefresh`, the block under `timeSinceWindowStart` -/
def shiftWindow (r : RateLimiter) (now : Int) : RateLimiter :=
  if now - r.windowBegin ≥ interval then
    { r with
      previousWindowAllowed := r.windowAllowed
      previousWindowChecks := r.windowChecks
      windowAllowed := 0
      windowChecks := 0
      windowBegin := now }
  else r

/-- Source: `RateLimiter.cs`, `WaitForRefresh` -/
def waitForRefresh (r : RateLimiter) (now : Int) : RateLimiter :=
  let r := r.shiftWindow now
  { r with intervalQueue := r.intervalQueue.dropWhile fun time => decide (now - time > interval) }

/-- A quotient, which is no number where the divisor is zero. -/
def quotient (a b : Int) : Option ℚ := if b = 0 then none else some ((a : ℚ) / (b : ℚ))

/-- Source: `RateLimiter.cs`, `GetEffectiveRate` -/
def getEffectiveRate (r : RateLimiter) : Option ℚ :=
  if r.maxTracesPerInterval = 0 then some 0
  else if r.maxTracesPerInterval < 0 then some 1
  else
    let totalChecksForLastTwoWindows := r.windowChecks + r.previousWindowChecks
    if totalChecksForLastTwoWindows = 0 then some 1
    else quotient (r.windowAllowed + r.previousWindowAllowed).toInt totalChecksForLastTwoWindows.toInt

/-- The answer and the limiter after it, where the clock shows one time in `WaitForRefresh` and
another one when the call is queued. The metric of the span is `getEffectiveRate` of the latter.
Source: `RateLimiter.cs`, `Allowed` -/
def allowed (r : RateLimiter) (now queued : Int) : Bool × RateLimiter :=
  if r.maxTracesPerInterval = 0 then (false, r)
  else if r.maxTracesPerInterval < 0 then (true, r)
  else
    let r := r.waitForRefresh now
    let r := { r with windowChecks := r.windowChecks + 1 }
    if (r.intervalQueue.length : Int) ≥ r.maxTracesPerInterval.toInt then (false, r)
    else
      (true, { r with
        intervalQueue := r.intervalQueue ++ [queued]
        windowAllowed := r.windowAllowed + 1 })

end RateLimiter

/-! ## Runs -/

/-- A call, which is made at some time between its two readings of the clock. -/
structure Call where
  now : Int
  time : Int
  queued : Int
  now_le_time : now ≤ time
  time_le_queued : time ≤ queued

/-- The clock never goes back from one call to a later one. -/
def NeverBack (calls : List Call) : Prop := calls.Pairwise fun c d => c.queued ≤ d.now

namespace RateLimiter

/-- The limiter after a call, with the calls and their answers so far. -/
def step (s : RateLimiter × List (Call × Bool)) (c : Call) : RateLimiter × List (Call × Bool) :=
  let (answer, r) := s.1.allowed c.now c.queued
  (r, s.2 ++ [(c, answer)])

/-- The limiter after calls one after another, and the calls with their answers. -/
def run (r : RateLimiter) (calls : List Call) : RateLimiter × List (Call × Bool) :=
  calls.foldl step (r, [])

theorem run_concat (r : RateLimiter) (calls : List Call) (c : Call) :
    r.run (calls ++ [c]) = step (r.run calls) c := by
  simp [run]

end RateLimiter

/-- The decisions of the current and of the previous statistics window, and when the current one
began. -/
structure Windows where
  begin : Int
  current : List Bool
  previous : List Bool

namespace Windows

/-- A call, which begins a new window a second after the last one began. -/
def step (w : Windows) (call : Call × Bool) : Windows :=
  if call.1.now - w.begin ≥ interval then
    { begin := call.1.now, current := [call.2], previous := w.current }
  else { w with current := w.current ++ [call.2] }

/-- The windows after calls with their answers. -/
def after (begin : Int) (calls : List (Call × Bool)) : Windows :=
  calls.foldl step { begin := begin, current := [], previous := [] }

/-- The calls that were checked. -/
def checked (w : Windows) : Nat := w.current.length + w.previous.length

/-- The calls that were allowed. -/
def allowed (w : Windows) : Nat := w.current.count true + w.previous.count true

/-- The share of the allowed calls, which is one where none was checked. -/
def rate (w : Windows) : ℚ := if w.checked = 0 then 1 else (w.allowed : ℚ) / (w.checked : ℚ)

end Windows

/-! ## The limit -/

/-- The calls that were allowed. -/
def admitted (calls : List (Call × Bool)) : List Call := (calls.filter Prod.snd).map Prod.fst

/-- The calls that were allowed in a second. -/
def admittedWithin (start : Int) (calls : List (Call × Bool)) : List Call :=
  (admitted calls).filter fun c => start ≤ c.time ∧ c.time ≤ start + interval

/-- The queue has the calls that were allowed, but for some that were queued more than a second
ago. -/
def Queued (r : RateLimiter) (calls : List (Call × Bool)) : Prop :=
  ∃ dropped kept : List Call, admitted calls = dropped ++ kept ∧
    r.intervalQueue = kept.map Call.queued ∧
    ∀ now, (∀ c ∈ calls, c.1.queued ≤ now) → ∀ d ∈ dropped, d.queued + interval < now

theorem admitted_concat (calls : List (Call × Bool)) (c : Call) (answer : Bool) :
    admitted (calls ++ [(c, answer)]) = admitted calls ++ if answer then [c] else [] := by
  cases answer <;> simp [admitted]

namespace RateLimiter

@[simp] theorem shiftWindow_max (r : RateLimiter) (now : Int) :
    (r.shiftWindow now).maxTracesPerInterval = r.maxTracesPerInterval := by
  unfold shiftWindow
  split <;> rfl

@[simp] theorem shiftWindow_intervalQueue (r : RateLimiter) (now : Int) :
    (r.shiftWindow now).intervalQueue = r.intervalQueue := by
  unfold shiftWindow
  split <;> rfl

/-- A positive limit is neither zero nor negative. -/
theorem limit_cases {r : RateLimiter} (hpos : 0 < r.maxTracesPerInterval.toInt) :
    r.maxTracesPerInterval ≠ 0 ∧ ¬ r.maxTracesPerInterval < 0 := by
  constructor
  · intro h
    rw [h] at hpos
    exact absurd hpos (by decide)
  · rw [Int32.lt_iff_toInt_lt, Int32.toInt_zero]
    omega

/-- What a call of a limiter with a positive limit does. -/
theorem allowed_spec {r : RateLimiter} (hpos : 0 < r.maxTracesPerInterval.toInt)
    (now queued : Int) :
    let trimmed := r.intervalQueue.dropWhile fun time => decide (now - time > interval)
    let answer := decide ((trimmed.length : Int) < r.maxTracesPerInterval.toInt)
    let shifted := r.shiftWindow now
    r.allowed now queued = (answer, { shifted with
      intervalQueue := trimmed ++ if answer then [queued] else []
      windowChecks := shifted.windowChecks + 1
      windowAllowed := if answer then shifted.windowAllowed + 1 else shifted.windowAllowed }) := by
  intro trimmed answer shifted
  obtain ⟨hzero, hneg⟩ := limit_cases hpos
  unfold allowed
  rw [if_neg hzero, if_neg hneg]
  by_cases hfull : (trimmed.length : Int) ≥ r.maxTracesPerInterval.toInt
  · have hanswer : answer = false := decide_eq_false (not_lt.mpr hfull)
    simp [waitForRefresh, trimmed, shifted, hfull, hanswer]
  · have hanswer : answer = true := decide_eq_true (not_le.mp hfull)
    simp [waitForRefresh, trimmed, shifted, hfull, hanswer]

/-- A call is allowed where the queue is not full, and is queued then. -/
theorem allowed_queue {r : RateLimiter} (hpos : 0 < r.maxTracesPerInterval.toInt)
    (now queued : Int) :
    let trimmed := r.intervalQueue.dropWhile fun time => decide (now - time > interval)
    ((r.allowed now queued).1 = true ↔
        (trimmed.length : Int) < r.maxTracesPerInterval.toInt) ∧
      (r.allowed now queued).2.intervalQueue =
        trimmed ++ if (r.allowed now queued).1 then [queued] else [] := by
  simp [allowed_spec hpos]

/-- A call keeps the limit. -/
theorem step_max {s : RateLimiter × List (Call × Bool)}
    (hpos : 0 < s.1.maxTracesPerInterval.toInt) (c : Call) :
    (step s c).1.maxTracesPerInterval = s.1.maxTracesPerInterval := by
  simp [step, allowed_spec hpos]

/-- The limit stays the same. -/
theorem run_max {r : RateLimiter} (hpos : 0 < r.maxTracesPerInterval.toInt) (calls : List Call) :
    (r.run calls).1.maxTracesPerInterval = r.maxTracesPerInterval := by
  induction calls using List.reverseRecOn with
  | nil => rfl
  | append_singleton calls c ih =>
      rw [run_concat, step_max (by rw [ih]; exact hpos), ih]

/-- The calls of a run are those that were made. -/
theorem run_calls (r : RateLimiter) (calls : List Call) :
    (r.run calls).2.map Prod.fst = calls := by
  induction calls using List.reverseRecOn with
  | nil => rfl
  | append_singleton calls c ih => rw [run_concat, step, List.map_append, ih]; rfl

end RateLimiter

/-- A call keeps the queue: what is too old for it is too old for all later ones. -/
theorem Queued.step {s : RateLimiter × List (Call × Bool)} (h : Queued s.1 s.2)
    (hpos : 0 < s.1.maxTracesPerInterval.toInt) {c : Call}
    (hclock : ∀ d ∈ s.2, d.1.queued ≤ c.now) :
    Queued (RateLimiter.step s c).1 (RateLimiter.step s c).2 := by
  obtain ⟨dropped, kept, hadmitted, hqueue, hold⟩ := h
  let old : Call → Bool := fun d => decide (c.now - d.queued > interval)
  have htrimmed : s.1.intervalQueue.dropWhile (fun time => decide (c.now - time > interval)) =
      (kept.dropWhile old).map Call.queued := by
    rw [hqueue, List.dropWhile_map]
    rfl
  have hallowed := (RateLimiter.allowed_queue hpos c.now c.queued).2
  rw [htrimmed] at hallowed
  refine ⟨dropped ++ kept.takeWhile old, kept.dropWhile old ++
    (if (s.1.allowed c.now c.queued).1 then [c] else []), ?_, ?_, ?_⟩
  · rw [RateLimiter.step, admitted_concat, hadmitted, List.append_assoc, List.append_assoc,
      ← List.append_assoc (kept.takeWhile old), List.takeWhile_append_dropWhile]
  · rw [RateLimiter.step, hallowed, List.map_append]
    split <;> rfl
  · intro now hnow d hd
    have hcnow : c.queued ≤ now := hnow (c, _) (List.mem_append_right _ List.mem_cons_self)
    have hle : c.now ≤ now := (c.now_le_time.trans c.time_le_queued).trans hcnow
    rcases List.mem_append.mp hd with hd | hd
    · have hlt := hold c.now hclock d hd
      omega
    · have hlt : c.now - d.queued > interval := by simpa [old] using List.mem_takeWhile_imp hd
      omega

/-- What was allowed in a second that is not over yet is still queued. -/
theorem Queued.within_le {r : RateLimiter} {calls : List (Call × Bool)} (h : Queued r calls)
    {now start : Int} (hclock : ∀ d ∈ calls, d.1.queued ≤ now) (hstart : now ≤ start + interval) :
    (admittedWithin start calls).length ≤
      (r.intervalQueue.dropWhile fun time => decide (now - time > interval)).length := by
  obtain ⟨dropped, kept, hadmitted, hqueue, hold⟩ := h
  let old : Call → Bool := fun d => decide (now - d.queued > interval)
  have hnone : ∀ l : List Call, (∀ d ∈ l, now - d.queued > interval) →
      l.filter (fun c => start ≤ c.time ∧ c.time ≤ start + interval) = [] := by
    intro l hl
    refine List.filter_eq_nil_iff.mpr fun d hd => ?_
    have hlt := hl d hd
    have hle := d.time_le_queued
    simp only [decide_eq_true_eq]
    omega
  have hdropped := hnone dropped fun d hd => by
    have hlt := hold now hclock d hd
    omega
  have htaken := hnone (kept.takeWhile old) fun d hd => by
    simpa [old] using List.mem_takeWhile_imp hd
  rw [admittedWithin, hadmitted, List.filter_append, hdropped, List.nil_append,
    ← List.takeWhile_append_dropWhile (p := old) (l := kept), List.filter_append, htaken,
    List.nil_append, hqueue, List.dropWhile_map, List.length_map]
  exact List.length_filter_le _ _

/-- The queue after calls one after another. -/
theorem queued_run {r : RateLimiter} (hpos : 0 < r.maxTracesPerInterval.toInt)
    (hempty : r.intervalQueue = []) {calls : List Call} (hclock : NeverBack calls) :
    Queued (r.run calls).1 (r.run calls).2 := by
  induction calls using List.reverseRecOn with
  | nil => exact ⟨[], [], rfl, hempty, fun _ _ _ hd => by cases hd⟩
  | append_singleton calls c ih =>
      obtain ⟨hcalls, -, hlast⟩ := List.pairwise_append.mp hclock
      rw [RateLimiter.run_concat]
      refine (ih hcalls).step (by rw [RateLimiter.run_max hpos]; exact hpos) ?_
      intro d hd
      have hmem : d.1 ∈ calls := by
        rw [← RateLimiter.run_calls r calls]
        exact List.mem_map_of_mem hd
      exact hlast d.1 hmem c List.mem_cons_self

/-- In no second more calls are allowed than the limit. -/
theorem admittedWithin_le {r : RateLimiter} (hpos : 0 < r.maxTracesPerInterval.toInt)
    (hempty : r.intervalQueue = []) {calls : List Call} (hclock : NeverBack calls) (start : Int) :
    ((admittedWithin start (r.run calls).2).length : Int) ≤ r.maxTracesPerInterval.toInt := by
  induction calls using List.reverseRecOn with
  | nil => exact hpos.le
  | append_singleton calls c ih =>
      obtain ⟨hcalls, -, hlast⟩ := List.pairwise_append.mp hclock
      have hmax := RateLimiter.run_max hpos calls
      have hpos' : 0 < (r.run calls).1.maxTracesPerInterval.toInt := by rw [hmax]; exact hpos
      have hbefore := ih hcalls
      have hsplit : admittedWithin start (r.run (calls ++ [c])).2 =
          admittedWithin start (r.run calls).2 ++
            (if ((r.run calls).1.allowed c.now c.queued).1 then [c] else []).filter
              fun c => start ≤ c.time ∧ c.time ≤ start + interval := by
        rw [RateLimiter.run_concat, RateLimiter.step, admittedWithin, admitted_concat,
          List.filter_append]
        rfl
      rw [hsplit, List.length_append]
      by_cases hanswer : ((r.run calls).1.allowed c.now c.queued).1 = true
      · rw [if_pos hanswer]
        by_cases hwithin : start ≤ c.time ∧ c.time ≤ start + interval
        · -- What was allowed in the second is still queued, and the queue is not full.
          have hprevious : ∀ d ∈ (r.run calls).2, d.1.queued ≤ c.now := by
            intro d hd
            have hmem : d.1 ∈ calls := by
              rw [← RateLimiter.run_calls r calls]
              exact List.mem_map_of_mem hd
            exact hlast d.1 hmem c List.mem_cons_self
          have hnow : c.now ≤ start + interval := c.now_le_time.trans hwithin.2
          have hqueued := (queued_run hpos hempty hcalls).within_le hprevious hnow
          have hroom := (RateLimiter.allowed_queue hpos' c.now c.queued).1.mp hanswer
          rw [hmax] at hroom
          have hone : ([c].filter fun c => start ≤ c.time ∧ c.time ≤ start + interval).length ≤ 1 :=
            List.length_filter_le _ _
          omega
        · rw [List.filter_cons_of_neg (by simpa using hwithin), List.filter_nil]
          simpa using hbefore
      · rw [if_neg hanswer]
        simpa using hbefore

/-! ## The rate -/

/-- The counters are those of the windows, as integers of 32 bits. -/
structure Counted (r : RateLimiter) (w : Windows) : Prop where
  windowBegin : r.windowBegin = w.begin
  windowChecks : r.windowChecks = Int32.ofNat w.current.length
  windowAllowed : r.windowAllowed = Int32.ofNat (w.current.count true)
  previousWindowChecks : r.previousWindowChecks = Int32.ofNat w.previous.length
  previousWindowAllowed : r.previousWindowAllowed = Int32.ofNat (w.previous.count true)

/-- One more decision is one more check, and one more call that is allowed if it is. -/
theorem count_concat (l : List Bool) (answer : Bool) :
    Int32.ofNat (l ++ [answer]).length = Int32.ofNat l.length + 1 ∧
      Int32.ofNat ((l ++ [answer]).count true) =
        if answer then Int32.ofNat (l.count true) + 1 else Int32.ofNat (l.count true) := by
  cases answer <;> simp [Int32.ofNat_add]

/-- A call is counted in the window it belongs to. -/
theorem Counted.step {s : RateLimiter × List (Call × Bool)} {w : Windows} (h : Counted s.1 w)
    (hpos : 0 < s.1.maxTracesPerInterval.toInt) (c : Call) :
    Counted (RateLimiter.step s c).1 (w.step (c, (s.1.allowed c.now c.queued).1)) := by
  have hallowed := RateLimiter.allowed_spec hpos c.now c.queued
  rw [RateLimiter.step, hallowed]
  dsimp only
  obtain ⟨hbegin, hchecks, hcount, hpchecks, hpcount⟩ := h
  unfold Windows.step RateLimiter.shiftWindow
  rw [hbegin]
  split
  · -- The call begins a new window.
    obtain ⟨hlength, htrue⟩ := count_concat [] (decide
      (((s.1.intervalQueue.dropWhile fun time => decide (c.now - time > interval)).length : Int) <
        s.1.maxTracesPerInterval.toInt))
    exact ⟨rfl, hlength.symm, htrue.symm, hchecks, hcount⟩
  · obtain ⟨hlength, htrue⟩ := count_concat w.current (decide
      (((s.1.intervalQueue.dropWhile fun time => decide (c.now - time > interval)).length : Int) <
        s.1.maxTracesPerInterval.toInt))
    refine ⟨hbegin, ?_, ?_, hpchecks, hpcount⟩
    · rw [hlength, ← hchecks]
    · rw [htrue, ← hcount]

/-- The counters after calls one after another. -/
theorem counted_run (limit : Option Int32) (start : Int) (hpos : 0 < (limit.getD 100).toInt)
    (calls : List Call) :
    Counted ((RateLimiter.new limit start).run calls).1
      (Windows.after start ((RateLimiter.new limit start).run calls).2) := by
  induction calls using List.reverseRecOn with
  | nil => exact ⟨rfl, rfl, rfl, rfl, rfl⟩
  | append_singleton calls c ih =>
      have hmax := RateLimiter.run_max (r := RateLimiter.new limit start) hpos calls
      rw [RateLimiter.run_concat]
      have hstep := ih.step (by rw [hmax]; exact hpos) c
      simpa [Windows.after, RateLimiter.step] using hstep

theorem Windows.allowed_le_checked (w : Windows) : w.allowed ≤ w.checked :=
  Nat.add_le_add (List.count_le_length) (List.count_le_length)

/-- The rate of windows lies between zero and one. -/
theorem Windows.rate_range (w : Windows) : 0 ≤ w.rate ∧ w.rate ≤ 1 := by
  unfold rate
  split
  · exact ⟨zero_le_one, le_refl 1⟩
  · have hle : (w.allowed : ℚ) ≤ (w.checked : ℚ) := by exact_mod_cast w.allowed_le_checked
    have hchecked : (0 : ℚ) ≤ (w.checked : ℚ) := Nat.cast_nonneg _
    exact ⟨div_nonneg (Nat.cast_nonneg _) hchecked, div_le_one_of_le₀ hle hchecked⟩

/-- Counters that do not overflow tell the rate of the windows. -/
theorem Counted.getEffectiveRate {r : RateLimiter} {w : Windows} (h : Counted r w)
    (hpos : 0 < r.maxTracesPerInterval.toInt) (hchecked : w.checked < 2 ^ 31) :
    r.getEffectiveRate = some w.rate := by
  obtain ⟨hzero, hneg⟩ := RateLimiter.limit_cases hpos
  have hallowed : w.allowed < 2 ^ 31 := w.allowed_le_checked.trans_lt hchecked
  have htotal : r.windowChecks + r.previousWindowChecks = Int32.ofNat w.checked := by
    rw [h.windowChecks, h.previousWindowChecks, ← Int32.ofNat_add, Windows.checked]
  have hcount : r.windowAllowed + r.previousWindowAllowed = Int32.ofNat w.allowed := by
    rw [h.windowAllowed, h.previousWindowAllowed, ← Int32.ofNat_add, Windows.allowed]
  have hint : (Int32.ofNat w.checked).toInt = (w.checked : Int) := Int32.toInt_ofNat_of_lt hchecked
  have hnone : Int32.ofNat w.checked = 0 ↔ w.checked = 0 := by
    rw [← Int32.toInt_inj, hint, Int32.toInt_zero]
    exact Int.natCast_eq_zero
  unfold RateLimiter.getEffectiveRate Windows.rate
  rw [if_neg hzero, if_neg hneg, htotal, hcount]
  by_cases hchecks : w.checked = 0
  · rw [if_pos (hnone.mpr hchecks), if_pos hchecks]
  · rw [if_neg (fun h => hchecks (hnone.mp h)), if_neg hchecks, RateLimiter.quotient, hint,
      Int32.toInt_ofNat_of_lt hallowed, if_neg (by exact_mod_cast hchecks), Int.cast_natCast,
      Int.cast_natCast]

/-- In no second more calls are allowed than the limit, and after every call the rate is the one of
the statistics windows, as long as these hold fewer than `2 ^ 31` checks. -/
theorem limits_and_reports (limit : Option Int32) (start : Int)
    (hpos : 0 < (limit.getD 100).toInt) (calls : List Call) (hclock : NeverBack calls) :
    (∀ second : Int,
      ((admittedWithin second ((RateLimiter.new limit start).run calls).2).length : Int) ≤
        (limit.getD 100).toInt) ∧
    ∀ made, made <+: calls →
      (Windows.after start ((RateLimiter.new limit start).run made).2).checked < 2 ^ 31 →
      ((RateLimiter.new limit start).run made).1.getEffectiveRate =
          some (Windows.after start ((RateLimiter.new limit start).run made).2).rate ∧
        0 ≤ (Windows.after start ((RateLimiter.new limit start).run made).2).rate ∧
        (Windows.after start ((RateLimiter.new limit start).run made).2).rate ≤ 1 := by
  constructor
  · intro second
    exact admittedWithin_le (r := RateLimiter.new limit start) hpos rfl hclock second
  · intro made _ hchecked
    have hmax := RateLimiter.run_max (r := RateLimiter.new limit start) hpos made
    have hrate := (counted_run limit start hpos made).getEffectiveRate
      (by rw [hmax]; exact hpos) hchecked
    exact ⟨hrate, Windows.rate_range _⟩

/-- A call at the time zero. -/
def callAtZero : Call := ⟨0, 0, 0, le_refl 0, le_refl 0⟩

/-- Two calls at one time, of which one is allowed. -/
theorem limits_and_reports_two :
    ((admittedWithin 0 ((RateLimiter.new (some 1) 0).run [callAtZero, callAtZero]).2).length : Int) ≤ 1 :=
  (limits_and_reports (some 1) 0 (by decide) [callAtZero, callAtZero]
    (by simp [NeverBack, callAtZero])).1 0

/-! ## Too many checks -/

/-- A limiter with a limit of one in a second, after a call that is allowed and some that are
not. -/
theorem run_replicate (n : Nat) :
    ((RateLimiter.new (some 1) 0).run (List.replicate (n + 1) callAtZero)).1 =
      { maxTracesPerInterval := 1, intervalQueue := [0], windowBegin := 0,
        windowChecks := Int32.ofNat (n + 1), windowAllowed := 1,
        previousWindowChecks := 0, previousWindowAllowed := 0 } := by
  induction n with
  | zero => decide
  | succ n ih =>
      rw [List.replicate_succ', RateLimiter.run_concat, RateLimiter.step, ih]
      have hnext : Int32.ofNat (n + 1 + 1) = Int32.ofNat (n + 1) + 1 := Int32.ofNat_add (n + 1) 1
      rw [hnext]
      rfl

/-- A limiter that is called `2 ^ 31` times in a second reports a negative rate. -/
theorem negative_rate :
    ((RateLimiter.new (some 1) 0).run (List.replicate (2147483647 + 1) callAtZero)).1.getEffectiveRate =
      some (-1 / 2147483648) := by
  rw [run_replicate]
  have htotal : (Int32.ofNat (2147483647 + 1) + 0).toInt = -2147483648 := by decide
  have hcount : ((1 : Int32) + 0).toInt = 1 := by decide
  unfold RateLimiter.getEffectiveRate RateLimiter.quotient
  rw [if_neg (by decide), if_neg (by decide), if_neg (by decide), htotal, hcount]
  norm_num

end DdTrace.Sampling
