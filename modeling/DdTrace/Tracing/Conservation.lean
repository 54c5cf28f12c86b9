import Mathlib.Data.List.Nodup
import Mathlib.Data.List.Perm.Subperm
import Mathlib.Data.Option.Basic
import DdTrace.Lib.Run
import DdTrace.Tracing.TraceContext

/-!
# Every closed span is handed on exactly once

The runs of this module are sequences of `AddSpan` and `CloseSpan` calls on one trace context, in
which every span is added once and closed once, after it was added (`Disciplined`).

* `Ledger`: the part of the state the collection of closed spans lives in; the operations on
  priorities and tags leave it alone (`ledger_addSpan`, `ledger_publishSamplingPriority`).
* `collectSpan_cases`: all that closing a span can do to the ledger.
* `Collected`: the invariant: what was sent, followed by what the builder holds, is the list of
  closed spans in close order, and the arrays handed out are not the builder's.
* `closed_spans_conserved`: the result for whole runs.
-/

namespace DdTrace.Tracing

open DdTrace.Lib

/-! ## The ledger -/

/-- The part of a trace in which closed spans are collected. -/
structure Ledger where
  heap : ArrayHeap SpanRef
  spans : ArrayBuilder
  openSpans : Int
  written : List ArraySegment

namespace TraceState

/-- The ledger of a trace. -/
def ledger (s : TraceState) : Ledger :=
  ⟨s.heap, s.context.spans, s.context.openSpans, s.written⟩

@[simp] theorem ledger_modifySpan (s : TraceState) (span : SpanRef) (f : Span → Span) :
    (s.modifySpan span f).ledger = s.ledger := rfl

@[simp] theorem ledger_setMetric (s : TraceState) (span : SpanRef) (key : String)
    (value : Option Float) : (s.setMetric span key value).ledger = s.ledger := rfl

@[simp] theorem ledger_setTraceSamplingPriority (s : TraceState) (p : SamplingPriority) :
    (s.setTraceSamplingPriority p).ledger = s.ledger := by
  unfold setTraceSamplingPriority modifyContext TraceContext.setSamplingPriority ledger
  by_cases hl : s.context.samplingPriorityLocked <;> simp [hl]

@[simp] theorem ledger_lockSamplingPriority (s : TraceState) :
    (s.modifyContext TraceContext.lockSamplingPriority).ledger = s.ledger := by
  unfold modifyContext TraceContext.lockSamplingPriority ledger
  cases s.context.samplingPriority <;> rfl

@[simp] theorem ledger_setTag (tracer : Tracer) (s : TraceState) (span : SpanRef) (key : String)
    (value : Option String) : (s.setTag tracer span key value).ledger = s.ledger := by
  unfold setTag
  repeat' split
  all_goals simp

@[simp] theorem ledger_setTags (tracer : Tracer) (s : TraceState) (span : SpanRef)
    (entries : List (String × Option String)) :
    (s.setTags tracer span entries).ledger = s.ledger := by
  unfold setTags
  induction entries generalizing s with
  | nil => rfl
  | cons e es ih => rw [List.foldl_cons, ih, ledger_setTag]

@[simp] theorem ledger_decorateRootSpan (tracer : Tracer) (s : TraceState) (span : SpanRef) :
    (s.decorateRootSpan tracer span).ledger = s.ledger := by
  unfold decorateRootSpan
  split
  · rfl
  · rw [ledger_setTags]

@[simp] theorem ledger_initSamplingPriority (tracer : Tracer) (s : TraceState) (span : SpanRef) :
    (s.initSamplingPriority tracer span).ledger = s.ledger := by
  unfold initSamplingPriority
  simp only
  split
  · rfl
  · split <;> rfl

/-- Adding a span counts it as open and leaves the collected spans alone. -/
theorem ledger_addSpan (tracer : Tracer) (s : TraceState) (span : SpanRef) :
    (s.addSpan tracer span).ledger = { s.ledger with openSpans := s.ledger.openSpans + 1 } := by
  have hcount (t : TraceState) :
      (t.modifyContext fun c => { c with openSpans := c.openSpans + 1 }).ledger =
        { t.ledger with openSpans := t.ledger.openSpans + 1 } := rfl
  unfold addSpan
  rw [hcount]
  cases s.context.rootSpan with
  | some r => rfl
  | none =>
      have hroot : (s.modifyContext fun c => { c with rootSpan := some span }).ledger = s.ledger :=
        rfl
      simp only
      split
      · rw [ledger_initSamplingPriority, ledger_decorateRootSpan, hroot]
      · rw [ledger_decorateRootSpan, hroot]

@[simp] theorem ledger_publishSamplingPriority (s : TraceState) (span : SpanRef) :
    (s.publishSamplingPriority span).ledger = s.ledger := by
  unfold publishSamplingPriority
  simp only
  split
  · exact ledger_lockSamplingPriority s
  · split
    · rw [ledger_modifySpan, ledger_lockSamplingPriority]
    · rw [ledger_setMetric, ledger_lockSamplingPriority]

end TraceState

/-! ## What closing a span does to the ledger -/

/-- The three ways a closed span is collected: the trace is complete and everything is sent, a
partial flush sends what there is and starts a new array, or the span is kept. -/
inductive CollectStep (tracer : Tracer) (l : Ledger) (h : ArrayHeap SpanRef) (b : ArrayBuilder) :
    Ledger → Prop where
  /-- The last open span was closed. -/
  | complete : l.openSpans - 1 = 0 →
      CollectStep tracer l h b ⟨h, {}, l.openSpans - 1, l.written ++ [b.getArray]⟩
  /-- Enough closed spans are pending for a partial flush. -/
  | partialFlush : l.openSpans - 1 ≠ 0 → tracer.partialFlushEnabled = true →
      tracer.partialFlushMinSpans ≤ b.count →
      CollectStep tracer l h b
        ⟨(ArrayBuilder.ofCapacity h b.count).1, (ArrayBuilder.ofCapacity h b.count).2,
          l.openSpans - 1, l.written ++ [b.getArray]⟩
  /-- The span is kept in the builder. -/
  | keep : l.openSpans - 1 ≠ 0 → CollectStep tracer l h b ⟨h, b, l.openSpans - 1, l.written⟩

/-- What `Tracer.Write` does to the ledger of a trace with something to write. -/
theorem TraceState.ledger_write (s : TraceState) {seg : ArraySegment} (hpos : seg.count > 0) :
    (s.write seg).ledger = { s.ledger with written := s.ledger.written ++ [seg] } := by
  unfold TraceState.write
  rw [if_pos hpos]
  rfl

/-- **All that closing a span can do to the ledger**: the span is appended to the builder, and the
result is one of the three steps. -/
theorem collectSpan_cases (tracer : Tracer) {s : TraceState}
    (hwf : s.ledger.spans.WF s.ledger.heap) (span : SpanRef) :
    ∃ h b u, s.collectSpan tracer span = some u ∧ b.WF h ∧ b.count = s.ledger.spans.count + 1 ∧
      b.contents h = s.ledger.spans.contents s.ledger.heap ++ [some span] ∧
      ArrayBuilder.Frame s.ledger.heap s.ledger.spans h b ∧
      CollectStep tracer s.ledger h b u.ledger := by
  obtain ⟨h, b, hadd, hwf', hcount, hcontents, hframe⟩ := ArrayBuilder.add_spec hwf span
  have hadd' : s.context.spans.add s.heap span = some (h, b) := hadd
  have hpos : b.getArray.count > 0 := by
    show b.count > 0
    omega
  unfold TraceState.collectSpan
  rw [hadd', Option.map_some]
  by_cases hzero : s.context.openSpans - 1 = 0
  · simp only [hzero, if_true]
    refine ⟨h, b, _, rfl, hwf', hcount, hcontents, hframe, ?_⟩
    rw [TraceState.ledger_write _ hpos]
    have hstep : CollectStep tracer s.ledger h b _ := .complete hzero
    simpa only [TraceState.ledger, hzero] using hstep
  · simp only [hzero, if_false]
    by_cases hflush : TraceState.shouldTriggerPartialFlush tracer b = true
    · have hboth : tracer.partialFlushEnabled = true ∧ tracer.partialFlushMinSpans ≤ b.count := by
        simpa [TraceState.shouldTriggerPartialFlush] using hflush
      simp only [hflush, if_true]
      refine ⟨h, b, _, rfl, hwf', hcount, hcontents, hframe, ?_⟩
      rw [TraceState.ledger_write _ hpos]
      exact .partialFlush hzero hboth.1 hboth.2
    · simp only [hflush]
      exact ⟨h, b, _, rfl, hwf', hcount, hcontents, hframe, .keep hzero⟩

/-! ## Runs of calls -/

/-- A call of one of the two methods. -/
inductive Call where
  | addSpan (span : SpanRef)
  | closeSpan (span : SpanRef)
  deriving DecidableEq, Repr

namespace Call

/-- Execute a call. -/
def exec (tracer : Tracer) (s : TraceState) : Call → Option TraceState
  | .addSpan span => some (s.addSpan tracer span)
  | .closeSpan span => s.closeSpan tracer span

/-- The spans added by a sequence of calls, in order. -/
def added (calls : List Call) : List SpanRef :=
  calls.filterMap fun
    | .addSpan span => some span
    | .closeSpan _ => none

/-- The spans closed by a sequence of calls, in close order. -/
def closed (calls : List Call) : List SpanRef :=
  calls.filterMap fun
    | .addSpan _ => none
    | .closeSpan span => some span

@[simp] theorem added_nil : added [] = [] := rfl
@[simp] theorem closed_nil : closed [] = [] := rfl

@[simp] theorem added_concat_addSpan (calls : List Call) (span : SpanRef) :
    added (calls ++ [.addSpan span]) = added calls ++ [span] := by simp [added]

@[simp] theorem added_concat_closeSpan (calls : List Call) (span : SpanRef) :
    added (calls ++ [.closeSpan span]) = added calls := by simp [added]

@[simp] theorem closed_concat_addSpan (calls : List Call) (span : SpanRef) :
    closed (calls ++ [.addSpan span]) = closed calls := by simp [closed]

@[simp] theorem closed_concat_closeSpan (calls : List Call) (span : SpanRef) :
    closed (calls ++ [.closeSpan span]) = closed calls ++ [span] := by simp [closed]

end Call

/-- The sequences of calls in which every span is added at most once, and closed at most once and
only after it was added: the prefixes of those in which every span is added once and closed
exactly once after that. -/
inductive Disciplined : List Call → Prop where
  | start : Disciplined []
  | addSpan {calls : List Call} {span : SpanRef} : Disciplined calls →
      span ∉ Call.added calls → Disciplined (calls ++ [.addSpan span])
  | closeSpan {calls : List Call} {span : SpanRef} : Disciplined calls →
      span ∈ Call.added calls → span ∉ Call.closed calls → Disciplined (calls ++ [.closeSpan span])

namespace Disciplined

open Call

/-- Dropping the last call keeps a sequence disciplined, and the last call was allowed. -/
theorem inv {calls : List Call} {c : Call} (h : Disciplined (calls ++ [c])) :
    Disciplined calls ∧
      ((∃ span, c = .addSpan span ∧ span ∉ added calls) ∨
        ∃ span, c = .closeSpan span ∧ span ∈ added calls ∧ span ∉ closed calls) := by
  generalize hall : calls ++ [c] = all at h
  cases h with
  | start => simp at hall
  | addSpan hd hnot =>
      obtain ⟨rfl, hc⟩ := List.append_inj' hall rfl
      simp only [List.cons.injEq, and_true] at hc
      exact ⟨hd, Or.inl ⟨_, hc, hnot⟩⟩
  | closeSpan hd hmem hnot =>
      obtain ⟨rfl, hc⟩ := List.append_inj' hall rfl
      simp only [List.cons.injEq, and_true] at hc
      exact ⟨hd, Or.inr ⟨_, hc, hmem, hnot⟩⟩

/-- Every prefix of a disciplined sequence is disciplined. -/
theorem of_initial {calls : List Call} (h : Disciplined calls) {pre : List Call}
    (hpre : pre <+: calls) : Disciplined pre := by
  obtain ⟨rest, rfl⟩ := hpre
  induction rest using List.reverseRecOn with
  | nil => simpa using h
  | append_singleton rest c ih =>
      rw [← List.append_assoc] at h
      exact ih h.inv.1

/-- The added spans are distinct, and so are the closed ones, which were all added. -/
theorem lists {calls : List Call} (h : Disciplined calls) :
    (added calls).Nodup ∧ (closed calls).Nodup ∧ ∀ span ∈ closed calls, span ∈ added calls := by
  induction h with
  | start => simp
  | addSpan _ hnot ih =>
      obtain ⟨ha, hc, hsub⟩ := ih
      rw [added_concat_addSpan, closed_concat_addSpan]
      refine ⟨List.nodup_append.mpr ⟨ha, by simp, ?_⟩, hc, fun span hs => ?_⟩
      · rintro a hmem b hb rfl
        simp only [List.mem_singleton] at hb
        exact hnot (hb ▸ hmem)
      · exact List.mem_append_left _ (hsub span hs)
  | closeSpan _ hmem hnot ih =>
      obtain ⟨ha, hc, hsub⟩ := ih
      rw [added_concat_closeSpan, closed_concat_closeSpan]
      refine ⟨ha, List.nodup_append.mpr ⟨hc, by simp, ?_⟩, fun span hs => ?_⟩
      · rintro a hmem' b hb rfl
        simp only [List.mem_singleton] at hb
        exact hnot (hb ▸ hmem')
      · rcases List.mem_append.mp hs with hs | hs
        · exact hsub span hs
        · simp only [List.mem_singleton] at hs
          exact hs ▸ hmem

/-- There are at most as many closed spans as added ones, and as many only if every added span is
closed. -/
theorem length_closed_le {calls : List Call} (h : Disciplined calls) :
    (closed calls).length ≤ (added calls).length ∧
      ((∀ span ∈ added calls, span ∈ closed calls) ↔
        (added calls).length = (closed calls).length) := by
  obtain ⟨ha, hc, hsub⟩ := h.lists
  have hsp : (closed calls).Subperm (added calls) := List.subperm_of_subset hc hsub
  refine ⟨hsp.length_le, fun hall => ?_, fun hlen span hs => ?_⟩
  · exact le_antisymm (List.subperm_of_subset ha hall).length_le hsp.length_le
  · exact (hsp.perm_of_length_le hlen.le).symm.subset hs

end Disciplined

/-! ## The invariant -/

/-- What was sent so far, segment after segment, as the heap shows it now. -/
def Ledger.sent (l : Ledger) : List (Option SpanRef) := l.written.flatMap (·.toList l.heap)

/-- What the builder holds. -/
def Ledger.pending (l : Ledger) : List (Option SpanRef) := l.spans.contents l.heap

/-- The invariant of the collection of closed spans, after the calls `done`. -/
structure Collected (done : List Call) (l : Ledger) : Prop where
  /-- The builder is well formed. -/
  wf : l.spans.WF l.heap
  /-- The counter counts the spans that are added and not closed. -/
  count : l.openSpans = (Call.added done).length - (Call.closed done).length
  /-- Sent and pending spans are the closed ones, in close order. -/
  order : l.sent ++ l.pending = (Call.closed done).map some
  /-- A complete trace is sent. -/
  complete : l.openSpans = 0 → l.pending = []
  /-- The arrays handed out are not the builder's. -/
  apart : ∀ seg ∈ l.written, ∀ r, seg.array = some r → r < l.heap.length ∧ l.spans.array ≠ some r

/-- Segments handed out read the same after an operation with the builder's frame. -/
theorem Collected.toList_eq {done : List Call} {l : Ledger} (hl : Collected done l)
    {h : ArrayHeap SpanRef} {b : ArrayBuilder} (hframe : ArrayBuilder.Frame l.heap l.spans h b) :
    ∀ seg ∈ l.written, seg.toList h = seg.toList l.heap := by
  intro seg hseg
  cases harr : seg.array with
  | none => simp [ArraySegment.toList, harr]
  | some r =>
      obtain ⟨hr, hne⟩ := hl.apart seg hseg r harr
      simp only [ArraySegment.toList, harr]
      exact ArrayHeap.slice_congr (hframe.others r hr hne) _ _

/-- A later ledger extends an earlier one: the segments written are still there, and each reads
as it did. -/
def Ledger.Extends (l l' : Ledger) : Prop :=
  l.written <+: l'.written ∧ ∀ seg ∈ l.written, seg.toList l'.heap = seg.toList l.heap

theorem Ledger.Extends.refl (l : Ledger) : l.Extends l := ⟨List.prefix_rfl, fun _ _ => rfl⟩

theorem Ledger.Extends.trans {l₁ l₂ l₃ : Ledger} (h₁ : l₁.Extends l₂) (h₂ : l₂.Extends l₃) :
    l₁.Extends l₃ :=
  ⟨h₁.1.trans h₂.1, fun seg hseg => (h₂.2 seg (h₁.1.subset hseg)).trans (h₁.2 seg hseg)⟩

/-- What was sent reads the same in a later ledger with the same segments. -/
theorem Ledger.sent_append {l l' : Ledger} {segs : List ArraySegment}
    (hw : l'.written = l.written ++ segs) (hx : l.Extends l') :
    l'.sent = l.sent ++ segs.flatMap (·.toList l'.heap) := by
  unfold Ledger.sent
  rw [hw, List.flatMap_append]
  congr 1
  exact List.flatMap_congr fun seg hseg => hx.2 seg hseg

/-- A new array for the builder leaves every segment handed out as it was. -/
theorem ArraySegment.toList_ofCapacity {h : ArrayHeap SpanRef} {n : Nat} {seg : ArraySegment}
    (hseg : ∀ r, seg.array = some r → r < h.length) :
    seg.toList (ArrayBuilder.ofCapacity h n).1 = seg.toList h := by
  cases harr : seg.array with
  | none => simp [ArraySegment.toList, harr]
  | some r =>
      simp only [ArraySegment.toList, harr]
      exact ArrayHeap.slice_congr (ArrayHeap.cells_alloc_of_lt h n (hseg r harr)) _ _

/-- Adding a span keeps the invariant. -/
theorem Collected.addSpan {done : List Call} {l : Ledger} (hl : Collected done l)
    (hd : Disciplined done) (span : SpanRef) :
    Collected (done ++ [.addSpan span]) { l with openSpans := l.openSpans + 1 } := by
  have hle := hd.length_closed_le.1
  have hcount := hl.count
  refine ⟨hl.wf, ?_, ?_, fun h0 => ?_, hl.apart⟩
  · simp only [Call.added_concat_addSpan, Call.closed_concat_addSpan, List.length_append,
      List.length_singleton, hcount]
    omega
  · rw [Call.closed_concat_addSpan]
    exact hl.order
  · simp only at h0
    omega

/-- Closing a span keeps the invariant, extends the ledger, and sends a segment of a trace with
open spans only when it is long enough. -/
theorem Collected.closeSpan {tracer : Tracer} {done : List Call} {l l' : Ledger}
    {h : ArrayHeap SpanRef} {b : ArrayBuilder} {span : SpanRef} (hl : Collected done l)
    (hwf : b.WF h) (hcontents : b.contents h = l.pending ++ [some span])
    (hcount : b.count = l.spans.count + 1) (hframe : ArrayBuilder.Frame l.heap l.spans h b)
    (hstep : CollectStep tracer l h b l') :
    Collected (done ++ [.closeSpan span]) l' ∧ l.Extends l' ∧
      ∀ seg, l'.written = l.written ++ [seg] → l'.openSpans ≠ 0 →
        tracer.partialFlushEnabled = true ∧
          tracer.partialFlushMinSpans ≤ (seg.toList l'.heap).length := by
  have hread := hl.toList_eq hframe
  have hlive : ∀ r, b.getArray.array = some r → r < h.length := fun r hr => hwf.alive r hr
  have holdLive : ∀ seg ∈ l.written, ∀ r, seg.array = some r → r < h.length :=
    fun seg hseg r hr => (hl.apart seg hseg r hr).1.trans_le hframe.grows
  have hopen : l.openSpans - 1 = (Call.added (done ++ [.closeSpan span])).length -
      (Call.closed (done ++ [.closeSpan span])).length := by
    have := hl.count
    simp only [Call.added_concat_closeSpan, Call.closed_concat_closeSpan, List.length_append,
      List.length_singleton]
    omega
  have horder : l.sent ++ b.contents h = (Call.closed (done ++ [.closeSpan span])).map some := by
    rw [hcontents, ← List.append_assoc, hl.order]
    simp
  cases hstep with
  | complete hzero =>
      have hx : l.Extends ⟨h, {}, l.openSpans - 1, l.written ++ [b.getArray]⟩ :=
        ⟨List.prefix_append _ _, hread⟩
      refine ⟨⟨ArrayBuilder.wf_default h, hopen, ?_, fun _ => rfl, ?_⟩, hx, ?_⟩
      · have hempty : Ledger.pending
            ⟨h, {}, l.openSpans - 1, l.written ++ [b.getArray]⟩ = [] := rfl
        rw [Ledger.sent_append rfl hx, ← horder, hempty]
        simp [ArrayBuilder.contents]
      · intro seg hseg r hr
        refine ⟨?_, by simp⟩
        rcases List.mem_append.mp hseg with hseg | hseg
        · exact holdLive seg hseg r hr
        · rw [List.mem_singleton.mp hseg] at hr
          exact hlive r hr
      · intro _ _ hne
        exact absurd hzero hne
  | partialFlush hne henabled hmin =>
      have hx : l.Extends ⟨(ArrayBuilder.ofCapacity h b.count).1,
          (ArrayBuilder.ofCapacity h b.count).2, l.openSpans - 1, l.written ++ [b.getArray]⟩ := by
        refine ⟨List.prefix_append _ _, fun seg hseg => ?_⟩
        exact (ArraySegment.toList_ofCapacity (holdLive seg hseg)).trans (hread seg hseg)
      have hnew : b.getArray.toList (ArrayBuilder.ofCapacity h b.count).1 = b.contents h :=
        ArraySegment.toList_ofCapacity hlive
      refine ⟨⟨ArrayBuilder.wf_ofCapacity h (by omega), hopen, ?_, fun h0 => absurd h0 hne, ?_⟩,
        hx, ?_⟩
      · rw [Ledger.sent_append rfl hx, ← horder]
        simp [Ledger.pending, hnew]
      · intro seg hseg r hr
        have hlt : r < h.length := by
          rcases List.mem_append.mp hseg with hseg | hseg
          · exact holdLive seg hseg r hr
          · rw [List.mem_singleton.mp hseg] at hr
            exact hlive r hr
        refine ⟨by simp [ArrayBuilder.ofCapacity]; omega, ?_⟩
        simp only [ArrayBuilder.ofCapacity, ArrayHeap.alloc_snd, ne_eq, Option.some.injEq]
        omega
      · intro seg hseg _
        have : seg = b.getArray := by simpa using List.append_cancel_left hseg.symm
        subst this
        rw [hnew, ArrayBuilder.length_contents hwf]
        exact ⟨henabled, hmin⟩
  | keep hne =>
      refine ⟨⟨hwf, hopen, ?_, fun h0 => absurd h0 hne, ?_⟩, ⟨List.prefix_rfl, hread⟩, ?_⟩
      · rw [← horder]
        congr 1
        exact List.flatMap_congr hread
      · intro seg hseg r hr
        refine ⟨holdLive seg hseg r hr, fun hb => ?_⟩
        obtain ⟨hlt, hother⟩ := hl.apart seg hseg r hr
        rcases hframe.fresh r hb with hsame | hfresh
        · exact hother hsame
        · omega
      · intro seg hseg
        simp at hseg

/-- **The step of a run**: an allowed call succeeds, keeps the invariant and extends the ledger,
and a segment written while spans are open is long enough. -/
theorem Call.exec_spec (tracer : Tracer) {done : List Call} {c : Call} {s : TraceState}
    (hd : Disciplined (done ++ [c])) (hs : Collected done s.ledger) :
    ∃ u, c.exec tracer s = some u ∧ Collected (done ++ [c]) u.ledger ∧
      s.ledger.Extends u.ledger ∧
      ∀ seg, u.written = s.written ++ [seg] → u.context.openSpans ≠ 0 →
        tracer.partialFlushEnabled = true ∧
          tracer.partialFlushMinSpans ≤ (seg.toList u.heap).length := by
  obtain ⟨hdone, ⟨span, rfl, -⟩ | ⟨span, rfl, -, -⟩⟩ := hd.inv
  · refine ⟨s.addSpan tracer span, rfl, ?_, ?_, ?_⟩
    · rw [TraceState.ledger_addSpan]
      exact hs.addSpan hdone span
    · rw [TraceState.ledger_addSpan]
      exact Ledger.Extends.refl _
    · intro seg hseg
      have hw : (s.addSpan tracer span).written = s.written :=
        congrArg Ledger.written (TraceState.ledger_addSpan tracer s span)
      rw [hw] at hseg
      simp at hseg
  · have hled : (if s.context.rootSpan = some span then s.publishSamplingPriority span
        else s).ledger = s.ledger := by
      split
      · exact TraceState.ledger_publishSamplingPriority s span
      · rfl
    obtain ⟨h, b, u, hu, hwf, hcount, hcontents, hframe, hstep⟩ :=
      collectSpan_cases tracer (s := if s.context.rootSpan = some span then
        s.publishSamplingPriority span else s) (by rw [hled]; exact hs.wf) span
    rw [hled] at hcount hcontents hframe hstep
    obtain ⟨hcol, hx, hseg⟩ := hs.closeSpan hwf hcontents hcount hframe hstep
    exact ⟨u, hu, hcol, hx, hseg⟩

/-! ## Whole runs -/

/-- A new trace context, with the sampling priority it was given, in a process with any arrays and
span objects.
Source: `TraceContext.cs`, the constructor -/
def TraceState.new (heap : ArrayHeap SpanRef) (objects : SpanRef → Span) (allocated : Nat)
    (priority : Option SamplingPriority) : TraceState :=
  { heap := heap, objects := objects, allocated := allocated
    context := { samplingPriority := priority } }

section runs

variable (tracer : Tracer) (s₀ : TraceState)

/-- The invariant holds of a trace that nothing was collected in. -/
theorem collected_start (heap : ArrayHeap SpanRef) (objects : SpanRef → Span) (allocated : Nat)
    (priority : Option SamplingPriority) :
    Collected [] (TraceState.new heap objects allocated priority).ledger :=
  ⟨ArrayBuilder.wf_default heap, rfl, rfl, fun _ => rfl, by simp [TraceState.new,
    TraceState.ledger]⟩

/-- A disciplined run succeeds and ends in the invariant. -/
theorem runOps_collected (h₀ : Collected [] s₀.ledger) {calls : List Call}
    (hd : Disciplined calls) :
    ∃ s, runOps (Call.exec tracer) s₀ calls = some s ∧ Collected calls s.ledger := by
  have hstep : ∀ done c (s : TraceState), Disciplined (done ++ [c]) → Collected done s.ledger →
      ∃ u, c.exec tracer s = some u ∧ Collected (done ++ [c]) u.ledger := by
    intro done c s hdone hs
    obtain ⟨u, hu, hcol, -, -⟩ := c.exec_spec tracer hdone hs
    exact ⟨u, hu, hcol⟩
  exact runOps_invariant (I := fun done (s : TraceState) => Collected done s.ledger) h₀ hstep calls
    fun pre hpre => hd.of_initial hpre

/-- The ledger at the end of a disciplined run extends the ledger at any earlier moment. -/
theorem runOps_extends (h₀ : Collected [] s₀.ledger) {pre calls : List Call}
    (hd : Disciplined calls) (hpre : pre <+: calls) {t s : TraceState}
    (ht : runOps (Call.exec tracer) s₀ pre = some t)
    (hs : runOps (Call.exec tracer) s₀ calls = some s) : t.ledger.Extends s.ledger := by
  obtain ⟨rest, rfl⟩ := hpre
  induction rest using List.reverseRecOn generalizing s with
  | nil =>
      rw [List.append_nil, ht, Option.some.injEq] at hs
      subst hs
      exact Ledger.Extends.refl _
  | append_singleton rest c ih =>
      rw [← List.append_assoc] at hd hs
      obtain ⟨m, hm, hcol⟩ := runOps_collected tracer s₀ h₀ hd.inv.1
      obtain ⟨u, hu, -, hx, -⟩ := c.exec_spec tracer hd hcol
      rw [runOps_concat, hm, Option.bind_some, hu, Option.some.injEq] at hs
      subst hs
      exact (ih hd.inv.1 hm).trans hx

end runs

/-- **Conservation of closed spans.** Every disciplined sequence of calls on a new trace context
succeeds; at its end (and so at every moment) the segments passed to `Tracer.Write` are, one after
another, a prefix of the closed spans in close order, and the builder holds the rest; when no span
is open they are all of the closed spans, each once. A segment written while spans are open has at
least `PartialFlushMinSpans` spans, and a segment written earlier is still there and reads as it
did when it was written. -/
theorem closed_spans_conserved (tracer : Tracer) (heap : ArrayHeap SpanRef)
    (objects : SpanRef → Span) (allocated : Nat) (priority : Option SamplingPriority)
    {calls : List Call} (hd : Disciplined calls) :
    ∃ s, runOps (Call.exec tracer) (TraceState.new heap objects allocated priority) calls =
        some s ∧
      s.ledger.sent ++ s.ledger.pending = (Call.closed calls).map some ∧
      ((∀ span ∈ Call.added calls, span ∈ Call.closed calls) →
        s.ledger.sent = (Call.closed calls).map some ∧ s.ledger.sent.Nodup) ∧
      (∀ pre c t u, pre ++ [c] <+: calls →
        runOps (Call.exec tracer) (TraceState.new heap objects allocated priority) pre = some t →
        runOps (Call.exec tracer) (TraceState.new heap objects allocated priority) (pre ++ [c]) =
          some u →
        (∃ span ∈ Call.added (pre ++ [c]), span ∉ Call.closed (pre ++ [c])) →
        ∀ seg, u.written = t.written ++ [seg] →
          tracer.partialFlushEnabled = true ∧
            tracer.partialFlushMinSpans ≤ (seg.toList u.heap).length) ∧
      ∀ pre t, pre <+: calls →
        runOps (Call.exec tracer) (TraceState.new heap objects allocated priority) pre = some t →
        t.written <+: s.written ∧ ∀ seg ∈ t.written, seg.toList s.heap = seg.toList t.heap := by
  have h₀ := collected_start heap objects allocated priority
  obtain ⟨s, hs, hcol⟩ := runOps_collected tracer _ h₀ hd
  refine ⟨s, hs, hcol.order, fun hall => ?_, fun pre c t u hpre ht hu hopen seg hseg => ?_,
    fun pre t hpre ht => ?_⟩
  · have hlen := hd.length_closed_le.2.mp hall
    have hzero : s.ledger.openSpans = 0 := by
      have := hcol.count
      omega
    have hsent : s.ledger.sent = (Call.closed calls).map some := by
      rw [← hcol.order, hcol.complete hzero, List.append_nil]
    refine ⟨hsent, ?_⟩
    rw [hsent]
    exact hd.lists.2.1.map (Option.some_injective _)
  · have hd' := hd.of_initial hpre
    obtain ⟨t', ht', htcol⟩ := runOps_collected tracer _ h₀ hd'.inv.1
    obtain rfl : t' = t := Option.some.inj (ht'.symm.trans ht)
    obtain ⟨u', hu', hucol, -, hmin⟩ := c.exec_spec tracer hd' htcol
    rw [runOps_concat, ht, Option.bind_some, hu', Option.some.injEq] at hu
    subst hu
    refine hmin seg hseg fun hzero => ?_
    -- an open span is added and not closed, so the counter is not zero
    obtain ⟨span, hadded, hnot⟩ := hopen
    have hcount := hucol.count
    have hlen : (Call.added (pre ++ [c])).length = (Call.closed (pre ++ [c])).length := by
      have : u'.ledger.openSpans = 0 := hzero
      omega
    exact hnot (hd'.length_closed_le.2.mpr hlen span hadded)
  · exact runOps_extends tracer _ h₀ hd hpre ht hs

/-- A tracer without a sampler whose partial flush is triggered by every closed span. -/
def flushingTracer : Tracer where
  sampler := none
  partialFlushEnabled := true
  partialFlushMinSpans := 1
  globalTags := []
  environment := none
  serviceVersion := none
  defaultServiceName := "service"
  azureAppServices := none
  doubleTryParse := fun _ => none

/-- A span with the default tags and no parent. -/
def plainSpan : Span where
  context := { traceId := 1, spanId := 1 }
  parent := none
  tags := { type := commonTags }
  operationName := none

/-- A root span and a child that is closed, and flushed, before it. -/
def rootAndChild : List Call := [.addSpan 0, .addSpan 1, .closeSpan 1, .closeSpan 0]

/-- The run of a root span and a child, with a partial flush in between. -/
theorem closed_spans_conserved_rootAndChild :
    ∃ s, runOps (Call.exec flushingTracer) (TraceState.new [] (fun _ => plainSpan) 2 none)
        rootAndChild = some s ∧
      s.ledger.sent = [some 1, some 0] := by
  have hd : Disciplined rootAndChild := by
    have h₁ : Disciplined [.addSpan 0] := Disciplined.start.addSpan (by decide)
    have h₂ : Disciplined [.addSpan 0, .addSpan 1] := h₁.addSpan (by decide)
    have h₃ : Disciplined [.addSpan 0, .addSpan 1, .closeSpan 1] :=
      h₂.closeSpan (by decide) (by decide)
    exact h₃.closeSpan (by decide) (by decide)
  obtain ⟨s, hs, -, hall, -⟩ :=
    closed_spans_conserved flushingTracer [] (fun _ => plainSpan) 2 none hd
  exact ⟨s, hs, (hall (by decide)).1⟩

end DdTrace.Tracing
