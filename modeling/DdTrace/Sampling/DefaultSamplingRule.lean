import DdTrace.Lib.Dictionaries
import DdTrace.Lib.Texts
import DdTrace.Sampling.RuleBasedSampler

/-!
# The default sampling rule

* `SampleRateKey.parse`: the keys of the agent.
* `DefaultSamplingRule.setDefaultSampleRates`, `DefaultSamplingRule.getSamplingRate`: the rates are
  put into a table, and looked up for a span.
* `AgentRates`: rates under keys as the agent writes them, and `getSamplingRate_agentRates_iff`,
  for which spans they are what is found.
* `Updates`: what an update has to do, and `updates_iff`, which updates do it.

Sources: `Sampling/DefaultSamplingRule.cs`; `Agent/Api.cs`, `SendTracesAsync`.
-/

namespace DdTrace.Sampling

open DdTrace.Lib DdTrace.Lib.Texts DdTrace.Tracing

/-- Source: `Metrics.cs`, `SamplingAgentDecision` -/
def Metrics.samplingAgentDecision : String := "_dd.agent_psr"

/-! ## The rule -/

/-- A key of the table. Source: `DefaultSamplingRule.cs`, `SampleRateKey` -/
structure SampleRateKey where
  service : Option String
  env : Option String
  deriving DecidableEq, Repr

/-- Source: `DefaultSamplingRule.cs`, `SampleRateKey.Parse` -/
def SampleRateKey.parse (key : String) : Option SampleRateKey :=
  match key.toList.splitOn ',' with
  | [service, env] =>
      match splitOnce service ':', splitOnce env ':' with
      | [_, service], [_, env] => some ⟨some (String.ofList service), some (String.ofList env)⟩
      | _, _ => none
  | _ => none

/-- The rule with its table. The rates are of a type of which the rule knows only which value is
one. Source: `DefaultSamplingRule.cs`, `_sampleRates` -/
structure DefaultSamplingRule (ρ : Type) where
  sampleRates : Dictionary SampleRateKey ρ := ∅

namespace DefaultSamplingRule

variable {ρ : Type} [One ρ] [DecidableEq ρ]

/-- The environment of a span, as the rule reads it. -/
def environment (span : Span) : Option String :=
  if span.tags.type.isCommonTags then span.tags.tagValues Tags.env
  else span.tags.getTag Tags.env

/-- The key of a span. -/
def spanKey (span : Span) : SampleRateKey := ⟨span.context.serviceName, environment span⟩

omit [DecidableEq ρ] in
/-- The rate for a span, and the tags of the span after the call.
Source: `DefaultSamplingRule.cs`, `GetSamplingRate` -/
def getSamplingRate (toDouble : ρ → Float) (rule : DefaultSamplingRule ρ) (span : Span) :
    ρ × TagsList :=
  if rule.sampleRates.entries.length = 0 then (1, span.tags)
  else
    match rule.sampleRates.lookup (spanKey span) with
    | some sampleRate =>
        (sampleRate, span.tags.setMetric Metrics.samplingAgentDecision (toDouble sampleRate))
    | none => (1, span.tags)

/-- The loop over the rates. -/
def addRates (rates : Dictionary SampleRateKey ρ) :
    List (String × ρ) → Option (Dictionary SampleRateKey ρ)
  | [] => some rates
  | (key, rate) :: sampleRates =>
      -- no point in adding default rates
      if rate = 1 then addRates rates sampleRates
      else
        match SampleRateKey.parse key with
        | none => addRates rates sampleRates
        | some key => (rates.add key rate).bind fun rates => addRates rates sampleRates

/-- The rule with new rates; `none` if `Add` throws.
Source: `DefaultSamplingRule.cs`, `SetDefaultSampleRates` -/
def setDefaultSampleRates (_ : DefaultSamplingRule ρ) (sampleRates : Option (List (String × ρ))) :
    Option (DefaultSamplingRule ρ) :=
  (addRates ∅ (sampleRates.getD [])).map DefaultSamplingRule.mk

/-- The rule after a response of the agent; what is thrown is logged.
Source: `Api.cs`, `SendTracesAsync` -/
def afterResponse (rule : DefaultSamplingRule ρ) (rateByService : Option (List (String × ρ))) :
    DefaultSamplingRule ρ :=
  (rule.setDefaultSampleRates rateByService).getD rule

/-- The rule as the sampler knows it. -/
def toSamplingRule (toDouble : ℚ → Float) (rule : DefaultSamplingRule ℚ) : SamplingRule :=
  defaultSamplingRule (rule.getSamplingRate toDouble)

/-! ## The table -/

/-- What is added for an entry. -/
def keptEntry (entry : String × ρ) : Option (SampleRateKey × ρ) :=
  if entry.2 = 1 then none else (SampleRateKey.parse entry.1).map fun key => (key, entry.2)

variable {entry : String × ρ} {key : SampleRateKey} {rate : ρ}

theorem keptEntry_eq_some_iff :
    keptEntry entry = some (key, rate) ↔
      entry.2 = rate ∧ rate ≠ 1 ∧ SampleRateKey.parse entry.1 = some key := by
  rw [keptEntry]
  split
  case isTrue hone =>
    refine iff_of_false (Option.some_ne_none _).symm ?_
    rintro ⟨hrate, hne, -⟩
    exact hne (hrate ▸ hone)
  case isFalse hne =>
    rw [Option.map_eq_some_iff]
    constructor
    · rintro ⟨key', hkey, heq⟩
      obtain ⟨rfl, rfl⟩ := Prod.mk.inj heq
      exact ⟨rfl, hne, hkey⟩
    · rintro ⟨rfl, -, hkey⟩
      exact ⟨key, hkey, rfl⟩

/-- The loop adds what is kept. -/
theorem addRates_eq (rates : Dictionary SampleRateKey ρ) (sampleRates : List (String × ρ)) :
    addRates rates sampleRates = rates.addAll (sampleRates.filterMap keptEntry) := by
  induction sampleRates generalizing rates with
  | nil => rfl
  | cons entry sampleRates ih =>
      obtain ⟨key, rate⟩ := entry
      rw [addRates]
      by_cases hone : rate = 1
      · have hkept : keptEntry (key, rate) = none := if_pos hone
        rw [if_pos hone, List.filterMap_cons_none hkept, ih]
      · rw [if_neg hone]
        cases hkey : SampleRateKey.parse key with
        | none =>
            have hkept : keptEntry (key, rate) = none := by
              rw [keptEntry, if_neg hone, hkey, Option.map_none]
            rw [List.filterMap_cons_none hkept]
            exact ih rates
        | some parsed =>
            have hkept : keptEntry (key, rate) = some (parsed, rate) := by
              rw [keptEntry, if_neg hone, hkey, Option.map_some]
            rw [List.filterMap_cons_some hkept, Dictionary.addAll]
            exact Option.bind_congr fun rates _ => ih rates

omit [One ρ] [DecidableEq ρ] in
/-- What the rule finds for a span. -/
theorem fst_getSamplingRate [One ρ] (toDouble : ρ → Float) (rule : DefaultSamplingRule ρ)
    (span : Span) : (rule.getSamplingRate toDouble span).1 =
      (rule.sampleRates.lookup (spanKey span)).getD 1 := by
  rw [getSamplingRate]
  split
  case isTrue hempty =>
    have hnot : spanKey span ∉ rule.sampleRates := by
      rw [AList.mem_keys, AList.keys, List.keys, List.length_eq_zero_iff.mp hempty]
      exact List.not_mem_nil
    rw [AList.lookup_eq_none.mpr hnot]
    rfl
  case isFalse =>
    cases rule.sampleRates.lookup (spanKey span) with
    | none => rfl
    | some rate => rfl

variable {toDouble : ρ → Float} {old rule : DefaultSamplingRule ρ}

/-- What the rule finds after an update. -/
theorem lookup_of_setDefaultSampleRates {sampleRates : List (String × ρ)}
    (h : old.setDefaultSampleRates (some sampleRates) = some rule) (key : SampleRateKey) :
    rule.sampleRates.lookup key = (sampleRates.filterMap keptEntry).lookup key := by
  obtain ⟨rates, hrates, rfl⟩ := Option.map_eq_some_iff.mp h
  rw [Option.getD_some, addRates_eq] at hrates
  exact Dictionary.lookup_addAll_empty hrates key

/-- An update succeeds exactly if no two entries that are kept have one key. -/
theorem isSome_setDefaultSampleRates_iff (old : DefaultSamplingRule ρ)
    {sampleRates : List (String × ρ)} :
    (old.setDefaultSampleRates (some sampleRates)).isSome ↔
      ((sampleRates.filterMap keptEntry).map Prod.fst).Nodup := by
  rw [setDefaultSampleRates, Option.isSome_map, Option.getD_some, addRates_eq,
    Dictionary.addAll_isSome_iff, and_iff_left_iff_imp]
  exact fun _ key _ => AList.notMem_empty key

end DefaultSamplingRule

/-! ## Keys as the agent writes them -/

/-- Source: `DefaultSamplingRule.cs`, the comment of `SampleRateKey.Parse` -/
def agentKey (service env : String) : String := "service:" ++ service ++ ",env:" ++ env

/-- A key with one comma, and a colon in each half, is parsed. -/
theorem SampleRateKey.parse_eq_some (first service second env : List Char) (hfirst : ',' ∉ first)
    (hservice : ',' ∉ service) (hsecond : ',' ∉ second) (henv : ',' ∉ env)
    (hcolon : ':' ∉ first) (hcolon' : ':' ∉ second) :
    SampleRateKey.parse (String.ofList (first ++ ':' :: service ++ ',' :: (second ++ ':' :: env))) =
      some ⟨some (String.ofList service), some (String.ofList env)⟩ := by
  have hbefore : ',' ∉ first ++ ':' :: service := by
    rw [List.mem_append, List.mem_cons]
    rintro (h | h | h)
    · exact hfirst h
    · cases h
    · exact hservice h
  have hafter : ',' ∉ second ++ ':' :: env := by
    rw [List.mem_append, List.mem_cons]
    rintro (h | h | h)
    · exact hsecond h
    · cases h
    · exact henv h
  rw [SampleRateKey.parse, String.toList_ofList, List.splitOn_append_cons_self_of_not_mem hbefore,
    List.splitOn_eq_singleton hafter]
  simp only [splitOnce_append_cons hcolon, splitOnce_append_cons hcolon']

theorem SampleRateKey.parse_agentKey {service env : String} (hservice : ',' ∉ service.toList)
    (henv : ',' ∉ env.toList) :
    SampleRateKey.parse (agentKey service env) = some ⟨some service, some env⟩ := by
  have hkey : agentKey service env = String.ofList
      ("service".toList ++ ':' :: service.toList ++ ',' :: ("env".toList ++ ':' :: env.toList)) := by
    apply String.toList_injective
    simp [agentKey]
  rw [hkey, SampleRateKey.parse_eq_some _ _ _ _ (by decide) hservice (by decide) henv (by decide)
    (by decide), String.ofList_toList, String.ofList_toList]

/-- Rates for pairs of a service and an environment in which there is no comma. -/
structure AgentRates (ρ : Type) where
  rates : Dictionary (String × String) ρ
  no_comma : ∀ p ∈ rates, ',' ∉ p.1.toList ∧ ',' ∉ p.2.toList

namespace AgentRates

variable {ρ : Type} [One ρ] [DecidableEq ρ] (agent : AgentRates ρ)

omit [One ρ] [DecidableEq ρ] in
/-- The rates, under the keys of the agent. -/
def rateByService : List (String × ρ) :=
  agent.rates.pairs.map fun e => (agentKey e.1.1 e.1.2, e.2)

omit [DecidableEq ρ] in
/-- The rate of the pair of a span: an absent environment counts as an empty one, and a pair that
is not in the set has the rate one. -/
def rateOf (span : Span) : ρ :=
  match span.context.serviceName with
  | none => 1
  | some service =>
      (agent.rates.lookup (service, (DefaultSamplingRule.environment span).getD "")).getD 1

variable {agent : AgentRates ρ}

omit [One ρ] [DecidableEq ρ] in
theorem mem_rateByService_iff {entry : String × ρ} :
    entry ∈ agent.rateByService ↔ ∃ service env, entry.1 = agentKey service env ∧
      agent.rates.lookup (service, env) = some entry.2 := by
  rw [rateByService, List.mem_map]
  constructor
  · rintro ⟨⟨⟨service, env⟩, rate⟩, hmem, rfl⟩
    exact ⟨service, env, rfl, Dictionary.mem_pairs_iff.mp hmem⟩
  · rintro ⟨service, env, hkey, hlookup⟩
    exact ⟨((service, env), entry.2), Dictionary.mem_pairs_iff.mpr hlookup,
      Prod.ext hkey.symm rfl⟩

omit [One ρ] [DecidableEq ρ] in
theorem parse_of_lookup {service env : String} {rate : ρ}
    (h : agent.rates.lookup (service, env) = some rate) :
    SampleRateKey.parse (agentKey service env) = some ⟨some service, some env⟩ := by
  have hmem : (service, env) ∈ agent.rates := AList.lookup_isSome.mp (h ▸ rfl)
  obtain ⟨hservice, henv⟩ := agent.no_comma _ hmem
  exact SampleRateKey.parse_agentKey hservice henv

omit [One ρ] [DecidableEq ρ] in
/-- Pairs without commas have different keys. -/
theorem nodup_map_fst_rateByService : (agent.rateByService.map Prod.fst).Nodup := by
  rw [rateByService, List.map_map]
  refine List.Nodup.map_on ?_ (List.Nodup.of_map Prod.fst agent.rates.nodup_map_fst_pairs)
  rintro ⟨⟨service, env⟩, rate⟩ hmem ⟨⟨service', env'⟩, rate'⟩ hmem' heq
  have hlookup := Dictionary.mem_pairs_iff.mp hmem
  have hlookup' := Dictionary.mem_pairs_iff.mp hmem'
  have hkey : agentKey service env = agentKey service' env' := heq
  have hparse := parse_of_lookup hlookup
  rw [hkey, parse_of_lookup hlookup'] at hparse
  obtain ⟨hservice, henv⟩ := SampleRateKey.mk.inj (Option.some.inj hparse)
  obtain rfl := Option.some.inj hservice
  obtain rfl := Option.some.inj henv
  obtain rfl := Option.some.inj (hlookup.symm.trans hlookup')
  rfl

/-- The entries that are kept are those whose rate is not one. -/
theorem mem_kept_iff {key : SampleRateKey} {rate : ρ} :
    (key, rate) ∈ agent.rateByService.filterMap DefaultSamplingRule.keptEntry ↔
      rate ≠ 1 ∧ ∃ service env, key = ⟨some service, some env⟩ ∧
        agent.rates.lookup (service, env) = some rate := by
  rw [List.mem_filterMap]
  constructor
  · rintro ⟨entry, hmem, hkept⟩
    obtain ⟨hrate, hne, hparse⟩ := DefaultSamplingRule.keptEntry_eq_some_iff.mp hkept
    obtain ⟨service, env, hkey, hlookup⟩ := mem_rateByService_iff.mp hmem
    rw [hkey, parse_of_lookup hlookup] at hparse
    exact ⟨hne, service, env, (Option.some.inj hparse).symm, hrate ▸ hlookup⟩
  · rintro ⟨hne, service, env, rfl, hlookup⟩
    refine ⟨(agentKey service env, rate), mem_rateByService_iff.mpr ⟨_, _, rfl, hlookup⟩, ?_⟩
    exact DefaultSamplingRule.keptEntry_eq_some_iff.mpr ⟨rfl, hne, parse_of_lookup hlookup⟩

theorem nodup_kept (agent : AgentRates ρ) :
    ((agent.rateByService.filterMap DefaultSamplingRule.keptEntry).map Prod.fst).Nodup := by
  rw [nodup_filterMap_iff nodup_map_fst_rateByService]
  intro a ha b hb key ra rb hkeptA hkeptB
  obtain ⟨-, -, hparseA⟩ := DefaultSamplingRule.keptEntry_eq_some_iff.mp hkeptA
  obtain ⟨-, -, hparseB⟩ := DefaultSamplingRule.keptEntry_eq_some_iff.mp hkeptB
  obtain ⟨service, env, hkeyA, hlookupA⟩ := mem_rateByService_iff.mp ha
  obtain ⟨service', env', hkeyB, hlookupB⟩ := mem_rateByService_iff.mp hb
  rw [hkeyA, parse_of_lookup hlookupA] at hparseA
  rw [hkeyB, parse_of_lookup hlookupB] at hparseB
  obtain ⟨hservice, henv⟩ := SampleRateKey.mk.inj (Option.some.inj (hparseA.trans hparseB.symm))
  rw [hkeyA, hkeyB, Option.some.inj hservice, Option.some.inj henv]

/-- What is found for a service and an environment. -/
theorem getD_lookup_kept (service env : String) :
    ((agent.rateByService.filterMap DefaultSamplingRule.keptEntry).lookup
      ⟨some service, some env⟩).getD 1 = (agent.rates.lookup (service, env)).getD 1 := by
  have hfound (rate : ρ) :
      (agent.rateByService.filterMap DefaultSamplingRule.keptEntry).lookup
          ⟨some service, some env⟩ = some rate ↔ _ :=
    (lookup_eq_some_iff_mem agent.nodup_kept).trans mem_kept_iff
  cases hkept : (agent.rateByService.filterMap DefaultSamplingRule.keptEntry).lookup
      ⟨some service, some env⟩ with
  | some rate =>
      obtain ⟨-, service', env', hkey, hlookup⟩ := (hfound rate).mp hkept
      obtain ⟨hservice, henv⟩ := SampleRateKey.mk.inj hkey
      rw [Option.some.inj hservice, Option.some.inj henv, hlookup]
  | none =>
      cases hlookup : agent.rates.lookup (service, env) with
      | none => rfl
      | some rate =>
          by_contra hne
          rw [(hfound rate).mpr ⟨fun hone => hne hone.symm, service, env, rfl, hlookup⟩] at hkept
          cases hkept

/-- A key without a service or an environment is not there. -/
theorem lookup_kept_of_none {key : SampleRateKey} (h : key.service = none ∨ key.env = none) :
    (agent.rateByService.filterMap DefaultSamplingRule.keptEntry).lookup key = none := by
  cases hkept : (agent.rateByService.filterMap DefaultSamplingRule.keptEntry).lookup key with
  | none => rfl
  | some rate =>
      obtain ⟨-, service, env, rfl, -⟩ := mem_kept_iff.mp (mem_of_lookup_eq_some hkept)
      rcases h with h | h
      · cases h
      · cases h

end AgentRates

namespace DefaultSamplingRule

variable {ρ : Type} [One ρ] [DecidableEq ρ]

/-- What the agent sends is always taken, and found by spans that have a service and an
environment. -/
theorem exists_rule_agentRates (toDouble : ρ → Float) (old : DefaultSamplingRule ρ)
    (agent : AgentRates ρ) :
    ∃ rule, old.setDefaultSampleRates (some agent.rateByService) = some rule ∧
      ∀ span, (rule.getSamplingRate toDouble span).1 =
        match span.context.serviceName, environment span with
        | some service, some env => (agent.rates.lookup (service, env)).getD 1
        | _, _ => 1 := by
  obtain ⟨rule, hrule⟩ :=
    Option.isSome_iff_exists.mp ((isSome_setDefaultSampleRates_iff old).mpr
      agent.nodup_kept)
  refine ⟨rule, hrule, fun span => ?_⟩
  rw [fst_getSamplingRate, lookup_of_setDefaultSampleRates hrule, spanKey]
  cases span.context.serviceName with
  | none =>
      rw [AgentRates.lookup_kept_of_none (Or.inl rfl)]
      rfl
  | some service =>
      cases environment span with
      | none =>
          rw [AgentRates.lookup_kept_of_none (Or.inr rfl)]
          rfl
      | some env => exact AgentRates.getD_lookup_kept service env

/-- **The rates of the agent reach the spans** they name, exactly if the span has an environment, or
its service was not given another rate than one for the empty environment. -/
theorem getSamplingRate_agentRates_iff (toDouble : ρ → Float) (old : DefaultSamplingRule ρ)
    (agent : AgentRates ρ) (span : Span) :
    ∃ rule, old.setDefaultSampleRates (some agent.rateByService) = some rule ∧
      ((rule.getSamplingRate toDouble span).1 = agent.rateOf span ↔
        (environment span = none → ∀ service, span.context.serviceName = some service →
          ∀ rate, agent.rates.lookup (service, "") = some rate → rate = 1)) := by
  obtain ⟨rule, hrule, hrate⟩ := exists_rule_agentRates toDouble old agent
  refine ⟨rule, hrule, ?_⟩
  rw [hrate, AgentRates.rateOf]
  cases span.context.serviceName with
  | none => exact iff_of_true rfl fun _ service h => by cases h
  | some service =>
      cases environment span with
      | some env => exact iff_of_true rfl fun h => by cases h
      | none =>
          simp only [Option.getD_none, forall_true_left, Option.some.injEq, forall_eq']
          cases agent.rates.lookup (service, "") with
          | none => exact iff_of_true rfl fun rate h => by cases h
          | some rate =>
              simp only [Option.getD_some, Option.some.injEq, forall_eq']
              exact eq_comm

/-- A rational rate as a `double`. -/
def rateToDouble (rate : ℚ) : Float := Float.ofInt rate.num / Float.ofNat rate.den

/-- One rate, for a service in the empty environment. -/
def helloRates : AgentRates ℚ where
  rates := AList.singleton ("hello", "") (1 / 2)
  no_comma := by
    intro p hp
    rw [AList.mem_keys, AList.keys_singleton, List.mem_singleton] at hp
    subst hp
    decide

/-- A span of the service, without an environment. -/
def helloSpan : Span where
  context := { traceId := 1, spanId := 1, serviceName := some "hello" }
  parent := none
  tags := { type := commonTags }
  operationName := none

/-- A span without an environment does not get the rate for the empty one. -/
theorem getSamplingRate_helloSpan :
    ∃ rule, setDefaultSampleRates {} (some helloRates.rateByService) = some rule ∧
      (rule.getSamplingRate rateToDouble helloSpan).1 = 1 ∧
      helloRates.rateOf helloSpan = 1 / 2 := by
  obtain ⟨rule, hrule, hrate⟩ := exists_rule_agentRates rateToDouble {} helloRates
  refine ⟨rule, hrule, hrate helloSpan, ?_⟩
  have hlookup : helloRates.rates.lookup ("hello", "") = some (1 / 2) := by
    rw [← Option.mem_def, AList.mem_lookup_iff]
    exact List.mem_singleton_self _
  show (helloRates.rates.lookup ("hello", "")).getD 1 = 1 / 2
  rw [hlookup, Option.getD_some]

/-! ## Any keys -/

/-- An update is done as it should be: it does not throw, a span whose service and environment are
those of a key that is parsed gets a rate that is given for such a key, every other span gets one,
and nothing depends on what was there before. -/
structure Updates (toDouble : ρ → Float) (old : DefaultSamplingRule ρ) (given : Dictionary String ρ)
    (rule : DefaultSamplingRule ρ) : Prop where
  returns : old.setDefaultSampleRates (some given.pairs) = some rule
  named : ∀ span key, key ∈ given → SampleRateKey.parse key = some (spanKey span) →
    ∃ key' rate, given.lookup key' = some rate ∧
      SampleRateKey.parse key' = some (spanKey span) ∧
      (rule.getSamplingRate toDouble span).1 = rate
  others : ∀ span, (∀ key ∈ given, SampleRateKey.parse key ≠ some (spanKey span)) →
    (rule.getSamplingRate toDouble span).1 = 1
  independent : ∀ other : DefaultSamplingRule ρ,
    other.setDefaultSampleRates (some given.pairs) = some rule

/-- The keys whose rate is not one, and which are parsed, are parsed as different keys. -/
def ParsedApart (given : Dictionary String ρ) : Prop :=
  ∀ a b key ra rb, given.lookup a = some ra → ra ≠ 1 → SampleRateKey.parse a = some key →
    given.lookup b = some rb → rb ≠ 1 → SampleRateKey.parse b = some key → a = b

variable {toDouble : ρ → Float} {old : DefaultSamplingRule ρ} {given : Dictionary String ρ}

theorem isSome_setDefaultSampleRates_pairs_iff (old : DefaultSamplingRule ρ) :
    (old.setDefaultSampleRates (some given.pairs)).isSome ↔ ParsedApart given := by
  rw [isSome_setDefaultSampleRates_iff, nodup_filterMap_iff given.nodup_map_fst_pairs]
  constructor
  · intro h a b key ra rb ha hne hparse hb hne' hparse'
    exact h (a, ra) (Dictionary.mem_pairs_iff.mpr ha) (b, rb) (Dictionary.mem_pairs_iff.mpr hb)
      key ra rb (keptEntry_eq_some_iff.mpr ⟨rfl, hne, hparse⟩)
      (keptEntry_eq_some_iff.mpr ⟨rfl, hne', hparse'⟩)
  · rintro h ⟨a, ra⟩ ha ⟨b, rb⟩ hb key ra' rb' hkeptA hkeptB
    obtain ⟨rfl, hne, hparse⟩ := keptEntry_eq_some_iff.mp hkeptA
    obtain ⟨rfl, hne', hparse'⟩ := keptEntry_eq_some_iff.mp hkeptB
    exact h a b key _ _ (Dictionary.mem_pairs_iff.mp ha) hne hparse
      (Dictionary.mem_pairs_iff.mp hb) hne' hparse'

/-- What is found is given for a key that is parsed as the one of the span. -/
theorem lookup_kept_eq_some {key : SampleRateKey} {rate : ρ}
    (h : (given.pairs.filterMap keptEntry).lookup key = some rate) :
    ∃ text, given.lookup text = some rate ∧ SampleRateKey.parse text = some key := by
  obtain ⟨⟨text, rate'⟩, hmem, hkept⟩ := List.mem_filterMap.mp (mem_of_lookup_eq_some h)
  obtain ⟨rfl, -, hparse⟩ := keptEntry_eq_some_iff.mp hkept
  exact ⟨text, Dictionary.mem_pairs_iff.mp hmem, hparse⟩

/-- If nothing is found, all rates given for keys that are parsed so are one. -/
theorem eq_one_of_lookup_kept_eq_none {key : SampleRateKey} {text : String} {rate : ρ}
    (h : (given.pairs.filterMap keptEntry).lookup key = none)
    (htext : given.lookup text = some rate) (hparse : SampleRateKey.parse text = some key) :
    rate = 1 := by
  by_contra hne
  have hkept : keptEntry (text, rate) = some (key, rate) :=
    keptEntry_eq_some_iff.mpr ⟨rfl, hne, hparse⟩
  have hmem : (key, rate) ∈ given.pairs.filterMap keptEntry :=
    List.mem_filterMap.mpr ⟨_, Dictionary.mem_pairs_iff.mpr htext, hkept⟩
  exact lookup_eq_none_iff_notMem.mp h (List.mem_map_of_mem hmem)

/-- **An update never fails midway**, exactly if the keys it adds are parsed as different keys. -/
theorem updates_iff (toDouble : ρ → Float) (old : DefaultSamplingRule ρ)
    (given : Dictionary String ρ) :
    (∃ rule, Updates toDouble old given rule) ↔ ParsedApart given := by
  constructor
  · rintro ⟨rule, h⟩
    have hsome := Option.isSome_iff_exists.mpr ⟨rule, h.returns⟩
    exact (isSome_setDefaultSampleRates_pairs_iff old).mp hsome
  · intro h
    obtain ⟨rule, hrule⟩ :=
      Option.isSome_iff_exists.mp ((isSome_setDefaultSampleRates_pairs_iff old).mpr h)
    refine ⟨rule, hrule, ?_, ?_, fun other => hrule⟩
    · intro span text htext hparse
      rw [fst_getSamplingRate, lookup_of_setDefaultSampleRates hrule]
      cases hfound : (given.pairs.filterMap keptEntry).lookup (spanKey span) with
      | some rate =>
          obtain ⟨text', htext', hparse'⟩ := lookup_kept_eq_some hfound
          exact ⟨text', rate, htext', hparse', rfl⟩
      | none =>
          obtain ⟨rate, hrate⟩ := Option.isSome_iff_exists.mp (AList.lookup_isSome.mpr htext)
          exact ⟨text, rate, hrate, hparse,
            (eq_one_of_lookup_kept_eq_none hfound hrate hparse).symm⟩
    · intro span hnone
      rw [fst_getSamplingRate, lookup_of_setDefaultSampleRates hrule]
      cases hfound : (given.pairs.filterMap keptEntry).lookup (spanKey span) with
      | none => rfl
      | some rate =>
          obtain ⟨text, htext, hparse⟩ := lookup_kept_eq_some hfound
          exact absurd hparse (hnone text (AList.lookup_isSome.mp (htext ▸ rfl)))

/-- An update that fails leaves the rates of the last one in force. -/
theorem afterResponse_of_not_parsedApart (h : ¬ParsedApart given) :
    old.afterResponse (some given.pairs) = old := by
  have hnone : old.setDefaultSampleRates (some given.pairs) = none := by
    rw [← Option.not_isSome_iff_eq_none, isSome_setDefaultSampleRates_pairs_iff]
    exact h
  rw [afterResponse, hnone, Option.getD_none]

/-- Two keys that are parsed as the same. -/
def sameParts : Dictionary String ℚ :=
  (AList.singleton "service:a,env:b" (1 / 2)).insert "x:a,y:b" (1 / 4)

/-- Two keys of the same parts stop the update. -/
theorem not_updates_sameParts :
    setDefaultSampleRates {} (some sameParts.pairs) = none ∧
      ¬∃ rule, Updates rateToDouble {} sameParts rule := by
  have happart : ¬ParsedApart sameParts := by
    intro h
    have hfirst : SampleRateKey.parse "service:a,env:b" = some ⟨some "a", some "b"⟩ :=
      SampleRateKey.parse_eq_some "service".toList "a".toList "env".toList "b".toList (by decide)
        (by decide) (by decide) (by decide) (by decide) (by decide)
    have hsecond : SampleRateKey.parse "x:a,y:b" = some ⟨some "a", some "b"⟩ :=
      SampleRateKey.parse_eq_some "x".toList "a".toList "y".toList "b".toList (by decide)
        (by decide) (by decide) (by decide) (by decide) (by decide)
    have hne : "service:a,env:b" ≠ "x:a,y:b" := by decide
    refine hne (h _ _ _ (1 / 2) (1 / 4) ?_ (by norm_num) hfirst ?_ (by norm_num) hsecond)
    · rw [sameParts, AList.lookup_insert_ne hne]
      rfl
    · rw [sameParts, AList.lookup_insert]
  have hnone : setDefaultSampleRates {} (some sameParts.pairs) = none := by
    rw [← Option.not_isSome_iff_eq_none, isSome_setDefaultSampleRates_pairs_iff]
    exact happart
  refine ⟨hnone, ?_⟩
  rintro ⟨rule, h⟩
  rw [h.returns] at hnone
  cases hnone

end DefaultSamplingRule

end DdTrace.Sampling
