import DdTrace.Tracing.Conservation

/-!
# The partial-flush threshold, from the configuration to the flush

* `TracerSettings.ofSource`: the two settings of the partial flush, as the constructor of
  `TracerSettings` sets them. A given positive number is tested and not stored: the field keeps
  its default value 0 (`partialFlushMinSpans_of_pos`).
* `HonoursThreshold`: in every run on a trace, a chunk that is written while spans are open has at
  least a given number of spans.
* `partialFlush_honoured_iff`: the traces of a tracer with these settings honour what was asked
  for exactly if that is no number above 1.

Sources: `Configuration/TracerSettings.cs`, the constructor and `PartialFlushMinSpans`;
`Configuration/IConfigurationSource.cs`; `TraceContext.cs`, `CloseSpan`.
-/

namespace DdTrace.Tracing

open DdTrace.Lib

/-! ## Settings -/

namespace ConfigurationKeys

def partialFlushEnabled : String := "DD_TRACE_PARTIAL_FLUSH_ENABLED"
def partialFlushMinSpans : String := "DD_TRACE_PARTIAL_FLUSH_MIN_SPANS"

end ConfigurationKeys

/-- A source of configuration values, by the two readers the settings of the partial flush use.
Source: `IConfigurationSource.cs` -/
structure IConfigurationSource where
  /-- `GetInt32`. -/
  getInt32 : String → Option Int
  /-- `GetBool`. -/
  getBool : String → Option Bool

/-- The settings of the partial flush.
Source: `TracerSettings.cs` -/
structure TracerSettings where
  /-- `PartialFlushEnabled`. -/
  partialFlushEnabled : Bool := false
  /-- `_partialFlushMinSpans`. -/
  partialFlushMinSpans : Int := 0
  deriving DecidableEq, Repr

/-- The settings read from a source.
Source: `TracerSettings.cs`, lines 204 to 213 -/
def TracerSettings.ofSource (source : IConfigurationSource) : TracerSettings :=
  let settings : TracerSettings :=
    { partialFlushEnabled := (source.getBool ConfigurationKeys.partialFlushEnabled).getD false }
  let partialFlushMinSpans := source.getInt32 ConfigurationKeys.partialFlushMinSpans
  if partialFlushMinSpans.getD 0 ≤ 0 then { settings with partialFlushMinSpans := 500 }
  else settings

/-- A tracer with the given settings of the partial flush. -/
def Tracer.withSettings (tracer : Tracer) (settings : TracerSettings) : Tracer :=
  { tracer with
    partialFlushEnabled := settings.partialFlushEnabled
    partialFlushMinSpans := settings.partialFlushMinSpans }

/-- Nothing, zero or a negative number stands for 500. -/
theorem partialFlushMinSpans_of_not_pos {source : IConfigurationSource}
    (h : (source.getInt32 ConfigurationKeys.partialFlushMinSpans).getD 0 ≤ 0) :
    (TracerSettings.ofSource source).partialFlushMinSpans = 500 := by
  unfold TracerSettings.ofSource
  simp only [if_pos h]

/-- A positive number leaves the field at its default value. -/
theorem partialFlushMinSpans_of_pos {source : IConfigurationSource}
    (h : 0 < (source.getInt32 ConfigurationKeys.partialFlushMinSpans).getD 0) :
    (TracerSettings.ofSource source).partialFlushMinSpans = 0 := by
  unfold TracerSettings.ofSource
  simp only [if_neg (not_le.mpr h)]

/-- The number of spans a chunk of an unfinished trace should have at least, for the number given:
that number if it is positive, else 500.
Source: `TracerSettings.cs`, the documentation of `PartialFlushMinSpans` and the fallback of the
constructor -/
def requiredSpans (given : Option Int) : Int := if 0 < given.getD 0 then given.getD 0 else 500

/-! ## What closing a span does, exactly -/

namespace TraceState

variable {tracer : Tracer} {s : TraceState} {span : SpanRef}

/-- The ledger that `CloseSpan` finds when it collects the span is that of its beginning. -/
theorem ledger_beforeCollect (s : TraceState) (span : SpanRef) :
    (if s.context.rootSpan = some span then s.publishSamplingPriority span else s).ledger =
      s.ledger := by
  split
  · exact ledger_publishSamplingPriority s span
  · rfl

/-- Closing a span of a trace whose partial flush is triggered writes all pending spans. -/
theorem collectSpan_flush (hwf : s.ledger.spans.WF s.ledger.heap)
    (hopen : s.ledger.openSpans - 1 ≠ 0) (henabled : tracer.partialFlushEnabled = true)
    (hmin : tracer.partialFlushMinSpans ≤ s.ledger.spans.count + 1) :
    ∃ u seg, s.collectSpan tracer span = some u ∧ u.written = s.written ++ [seg] ∧
      (seg.toList u.heap).length = s.ledger.spans.count + 1 := by
  obtain ⟨h, b, hadd, hwf', hcount, -, -⟩ := ArrayBuilder.add_spec hwf span
  have hadd' : s.context.spans.add s.heap span = some (h, b) := hadd
  have hopen' : s.context.openSpans - 1 ≠ 0 := hopen
  have hpos : b.getArray.count > 0 := by
    show b.count > 0
    omega
  have htrigger : shouldTriggerPartialFlush tracer b = true := by
    simp only [shouldTriggerPartialFlush, henabled, Bool.true_and, decide_eq_true_eq]
    omega
  have hlen : (b.getArray.toList (ArrayBuilder.ofCapacity h b.getArray.count).1).length =
      s.ledger.spans.count + 1 := by
    rw [ArraySegment.toList_ofCapacity fun r hr => hwf'.alive r hr, ← hcount,
      ← ArrayBuilder.length_contents hwf']
    rfl
  unfold collectSpan
  rw [hadd', Option.map_some]
  simp only [hopen', if_false, htrigger, if_true, write, hpos]
  exact ⟨_, b.getArray, rfl, rfl, hlen⟩

end TraceState

/-- A segment that is written when a span is collected has at least that span. -/
theorem CollectStep.length_pos {tracer : Tracer} {l l' : Ledger} {h : ArrayHeap SpanRef}
    {b : ArrayBuilder} (hstep : CollectStep tracer l h b l') (hwf : b.WF h) (hcount : 0 < b.count)
    {seg : ArraySegment} (hseg : l'.written = l.written ++ [seg]) :
    0 < (seg.toList l'.heap).length := by
  have hlen : (b.getArray.toList h).length = b.count := ArrayBuilder.length_contents hwf
  cases hstep with
  | complete _ =>
      obtain rfl : b.getArray = seg := by simpa using hseg
      show 0 < (b.getArray.toList h).length
      omega
  | partialFlush _ _ _ =>
      obtain rfl : b.getArray = seg := by simpa using hseg
      show 0 < (b.getArray.toList (ArrayBuilder.ofCapacity h b.count).1).length
      rw [ArraySegment.toList_ofCapacity fun r hr => hwf.alive r hr]
      omega
  | keep _ => simp at hseg

/-- Every segment that a call writes has a span. -/
theorem Call.length_pos_of_written {tracer : Tracer} {done : List Call} {c : Call}
    {s u : TraceState} (hs : Collected done s.ledger) (hu : c.exec tracer s = some u)
    {seg : ArraySegment} (hseg : u.written = s.written ++ [seg]) :
    0 < (seg.toList u.heap).length := by
  cases c with
  | addSpan span =>
      obtain rfl := Option.some.inj hu
      have hw : (s.addSpan tracer span).written = s.written :=
        congrArg Ledger.written (TraceState.ledger_addSpan tracer s span)
      rw [hw] at hseg
      simp at hseg
  | closeSpan span =>
      have hled := TraceState.ledger_beforeCollect s span
      have hwf := hs.wf
      rw [← hled] at hwf
      obtain ⟨h, b, u', hu', hwf', hcount, -, -, hstep⟩ := collectSpan_cases tracer hwf span
      obtain rfl : u' = u := Option.some.inj (hu'.symm.trans hu)
      rw [hled] at hstep hcount
      have hpos : 0 < b.count := by omega
      exact hstep.length_pos hwf' hpos hseg

/-! ## The threshold over whole runs -/

/-- In every run of calls on a new trace context, a chunk that is written while a span is added
and not closed has at least `required` spans. -/
def HonoursThreshold (tracer : Tracer) (required : Int) : Prop :=
  ∀ (heap : ArrayHeap SpanRef) (objects : SpanRef → Span) (allocated : Nat)
    (priority : Option SamplingPriority) (calls : List Call), Disciplined calls →
    ∀ pre c t u, pre ++ [c] <+: calls →
      runOps (Call.exec tracer) (TraceState.new heap objects allocated priority) pre = some t →
      runOps (Call.exec tracer) (TraceState.new heap objects allocated priority) (pre ++ [c]) =
        some u →
      (∃ span ∈ Call.added (pre ++ [c]), span ∉ Call.closed (pre ++ [c])) →
      ∀ seg, u.written = t.written ++ [seg] → required ≤ (seg.toList u.heap).length

/-- The threshold of the settings, and one span, are honoured. -/
theorem honoursThreshold_max (tracer : Tracer) :
    HonoursThreshold tracer (max tracer.partialFlushMinSpans 1) := by
  intro heap objects allocated priority calls hd pre c t u hpre ht hu hopen seg hseg
  have h₀ := collected_start heap objects allocated priority
  have hd' := hd.of_initial hpre
  obtain ⟨t', ht', htcol⟩ := runOps_collected tracer _ h₀ hd'.inv.1
  obtain rfl : t' = t := Option.some.inj (ht'.symm.trans ht)
  obtain ⟨u', hu', hucol, -, hmin⟩ := c.exec_spec tracer hd' htcol
  rw [runOps_concat, ht, Option.bind_some] at hu
  obtain rfl : u' = u := Option.some.inj (hu'.symm.trans hu)
  apply max_le
  · refine (hmin seg hseg fun hzero => ?_).2
    obtain ⟨span, hadded, hnot⟩ := hopen
    have hcount := hucol.count
    have hlen : (Call.added (pre ++ [c])).length = (Call.closed (pre ++ [c])).length := by
      have : u'.ledger.openSpans = 0 := hzero
      omega
    exact hnot (hd'.length_closed_le.2.mpr hlen span hadded)
  · have hpos := Call.length_pos_of_written htcol hu hseg
    omega

/-- The calls that add a root span and a child, and close the child. -/
def childFirst : List Call := [.addSpan 0, .addSpan 1, .closeSpan 1]

theorem disciplined_childFirst : Disciplined childFirst := by
  have h₁ : Disciplined [.addSpan 0] := Disciplined.start.addSpan (by decide)
  have h₂ : Disciplined [.addSpan 0, .addSpan 1] := h₁.addSpan (by decide)
  exact h₂.closeSpan (by decide) (by decide)

/-- With a threshold of at most one span, closing a child before its parent writes a chunk of one
span. -/
theorem childFirst_flush {tracer : Tracer} (henabled : tracer.partialFlushEnabled = true)
    (hmin : tracer.partialFlushMinSpans ≤ 1) :
    ∃ t u seg, runOps (Call.exec tracer) (TraceState.new [] (fun _ => plainSpan) 2 none)
        [.addSpan 0, .addSpan 1] = some t ∧
      runOps (Call.exec tracer) (TraceState.new [] (fun _ => plainSpan) 2 none) childFirst =
        some u ∧
      u.written = t.written ++ [seg] ∧ (seg.toList u.heap).length = 1 := by
  let t := ((TraceState.new [] (fun _ => plainSpan) 2 none).addSpan tracer 0).addSpan tracer 1
  have hled : t.ledger = ⟨[], {}, 2, []⟩ := by
    rw [TraceState.ledger_addSpan, TraceState.ledger_addSpan]
    rfl
  have hledger := TraceState.ledger_beforeCollect t 1
  rw [hled] at hledger
  have hwf : ArrayBuilder.WF ([] : ArrayHeap SpanRef) {} := ArrayBuilder.wf_default []
  obtain ⟨u, seg, hu, hwritten, hlen⟩ := @TraceState.collectSpan_flush tracer
    (if t.context.rootSpan = some 1 then t.publishSamplingPriority 1 else t) 1
    (by rw [hledger]; exact hwf) (by rw [hledger]; decide) henabled
    (by rw [hledger]; simpa using hmin)
  rw [hledger] at hlen
  refine ⟨t, u, seg, rfl, ?_, ?_, hlen⟩
  · show (t.closeSpan tracer 1).bind _ = some u
    rw [show t.closeSpan tracer 1 = some u from hu]
    rfl
  · rw [hwritten]
    have hw : (if t.context.rootSpan = some 1 then t.publishSamplingPriority 1 else t).written =
        t.written := (congrArg Ledger.written hledger).trans (congrArg Ledger.written hled).symm
    rw [hw]

/-- A threshold that is honoured stands for every lower one. -/
theorem HonoursThreshold.mono {tracer : Tracer} {required required' : Int}
    (h : HonoursThreshold tracer required) (hle : required' ≤ required) :
    HonoursThreshold tracer required' := by
  intro heap objects allocated priority calls hd pre c t u hpre ht hu hopen seg hseg
  exact hle.trans (h heap objects allocated priority calls hd pre c t u hpre ht hu hopen seg hseg)

/-- With a threshold of at most one span, no number above 1 is honoured. -/
theorem HonoursThreshold.le_one {tracer : Tracer} {required : Int}
    (h : HonoursThreshold tracer required) (henabled : tracer.partialFlushEnabled = true)
    (hmin : tracer.partialFlushMinSpans ≤ 1) : required ≤ 1 := by
  obtain ⟨t, u, seg, ht, hu, hwritten, hlen⟩ := childFirst_flush henabled hmin
  have hle := h [] (fun _ => plainSpan) 2 none childFirst disciplined_childFirst
    [.addSpan 0, .addSpan 1] (.closeSpan 1) t u List.prefix_rfl ht hu ⟨0, by decide, by decide⟩
    seg hwritten
  omega

/-- **The configured threshold is honoured exactly if it is no number above 1.** In the runs on a
trace of a tracer with the settings of a source that enables the partial flush, a chunk that is
written while spans are open has at least the number of spans that was asked for, 500 if that is
not positive or absent, if and only if no number above 1 was asked for. -/
theorem partialFlush_honoured_iff (tracer : Tracer) (source : IConfigurationSource)
    (henabled : source.getBool ConfigurationKeys.partialFlushEnabled = some true) :
    HonoursThreshold (tracer.withSettings (TracerSettings.ofSource source))
        (requiredSpans (source.getInt32 ConfigurationKeys.partialFlushMinSpans)) ↔
      ∀ n ∈ source.getInt32 ConfigurationKeys.partialFlushMinSpans, n ≤ 1 := by
  have hflag : (TracerSettings.ofSource source).partialFlushEnabled = true := by
    unfold TracerSettings.ofSource
    simp only [henabled]
    split <;> rfl
  constructor
  · intro h n hn
    by_contra hgt
    have hget : (source.getInt32 ConfigurationKeys.partialFlushMinSpans).getD 0 = n := by
      rw [Option.mem_def.mp hn, Option.getD_some]
    have hpos : 0 < (source.getInt32 ConfigurationKeys.partialFlushMinSpans).getD 0 := by omega
    have hmin : (TracerSettings.ofSource source).partialFlushMinSpans ≤ 1 := by
      rw [partialFlushMinSpans_of_pos hpos]
      omega
    have hle := h.le_one hflag hmin
    rw [requiredSpans, if_pos hpos, hget] at hle
    exact hgt hle
  · intro h
    apply (honoursThreshold_max _).mono
    unfold requiredSpans
    by_cases hpos : 0 < (source.getInt32 ConfigurationKeys.partialFlushMinSpans).getD 0
    · rw [if_pos hpos]
      cases hgiven : source.getInt32 ConfigurationKeys.partialFlushMinSpans with
      | none => simp
      | some n => exact (h n hgiven).trans (le_max_right _ _)
    · rw [if_neg hpos]
      have hmin := partialFlushMinSpans_of_not_pos (not_lt.mp hpos)
      exact hmin.symm.le.trans (le_max_left _ _)

/-- A source that enables the partial flush and gives `n` for the number of spans. -/
def flushSource (n : Option Int) : IConfigurationSource where
  getInt32 := fun key => if key = ConfigurationKeys.partialFlushMinSpans then n else none
  getBool := fun key => if key = ConfigurationKeys.partialFlushEnabled then some true else none

/-- A source that gives no number has its 500 spans honoured. -/
theorem partialFlush_honoured_absent :
    HonoursThreshold (flushingTracer.withSettings (TracerSettings.ofSource (flushSource none)))
      500 :=
  (partialFlush_honoured_iff flushingTracer (flushSource none) rfl).mpr (by simp [flushSource])

/-- A source that asks for 1000 spans gets chunks of one. -/
theorem partialFlush_thousand_ignored :
    ¬HonoursThreshold
      (flushingTracer.withSettings (TracerSettings.ofSource (flushSource (some 1000))))
      (requiredSpans (some 1000)) := by
  intro h
  have hle := h.le_one rfl (by decide)
  revert hle
  decide

end DdTrace.Tracing
