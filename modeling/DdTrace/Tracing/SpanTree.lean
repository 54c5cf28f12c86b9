import DdTrace.Tracing.SamplingDecision

/-!
# The spans of a trace

What the operations on a trace do to its spans, whatever their order is.

* `Operation.effect_of_exec`: an operation starts one child span, finishes one span, or does neither.
* `IsTree`: the spans form a tree with the first one as its root.
* `Accounted`: the spans that are finished are those that were sent or are pending, each once.
* `TraceState.Sound.step`: every operation keeps both.

Sources: `TraceContext.cs`; `Span.cs`; `SpanContext.cs`; `Tracer.cs`, `StartSpan`.
-/

namespace DdTrace.Tracing

open DdTrace.Lib

/-- What a span keeps from its start on: its parent and its ids. -/
def Span.identity (span : Span) : Option ISpanContext × UInt64 × UInt64 :=
  (span.parent, span.context.traceId, span.context.spanId)

namespace TraceState

/-- The same spans, of which the same ones are finished. -/
structure SameSpans (s t : TraceState) : Prop where
  allocated : t.allocated = s.allocated
  identity : ∀ r, (t.objects r).identity = (s.objects r).identity
  finished : ∀ r, (t.objects r).isFinished = (s.objects r).isFinished

namespace SameSpans

variable {s t u : TraceState}

theorem refl (s : TraceState) : SameSpans s s := ⟨rfl, fun _ => rfl, fun _ => rfl⟩

theorem trans (h : SameSpans s t) (h' : SameSpans t u) : SameSpans s u :=
  ⟨h'.allocated.trans h.allocated, fun r => (h'.identity r).trans (h.identity r),
    fun r => (h'.finished r).trans (h.finished r)⟩

theorem of_objects (hobjects : t.objects = s.objects) (hallocated : t.allocated = s.allocated) :
    SameSpans s t := by
  refine ⟨hallocated, fun r => ?_, fun r => ?_⟩
  · rw [hobjects]
  · rw [hobjects]

theorem modifyContext (s : TraceState) (f : TraceContext → TraceContext) :
    SameSpans s (s.modifyContext f) := of_objects rfl rfl

/-- An update of a span that keeps what it is keeps the spans. -/
theorem modifySpan (s : TraceState) (span : SpanRef) (f : Span → Span)
    (hf : ∀ sp, (f sp).identity = sp.identity ∧ (f sp).isFinished = sp.isFinished) :
    SameSpans s (s.modifySpan span f) := by
  have hkept : ∀ r, ((s.modifySpan span f).objects r).identity = (s.objects r).identity ∧
      ((s.modifySpan span f).objects r).isFinished = (s.objects r).isFinished := by
    intro r
    unfold TraceState.modifySpan
    by_cases hr : r = span
    · subst hr
      simpa using hf (s.objects r)
    · simp [Function.update_of_ne hr]
  exact ⟨rfl, fun r => (hkept r).1, fun r => (hkept r).2⟩

theorem setMetric (s : TraceState) (span : SpanRef) (key : String) (value : Option Float) :
    SameSpans s (s.setMetric span key value) :=
  modifySpan s span _ fun _ => ⟨rfl, rfl⟩

theorem setTraceSamplingPriority (s : TraceState) (p : SamplingPriority) :
    SameSpans s (s.setTraceSamplingPriority p) :=
  modifyContext s _

theorem setTag (tracer : Tracer) (s : TraceState) (span : SpanRef) (key : String)
    (value : Option String) : SameSpans s (s.setTag tracer span key value) := by
  have horigin := modifySpan s span
    (fun sp => { sp with context := { sp.context with origin := value } }) fun _ => ⟨rfl, rfl⟩
  have htags := modifySpan s span
    (fun sp => { sp with tags := sp.tags.setTag key value }) fun _ => ⟨rfl, rfl⟩
  unfold TraceState.setTag
  repeat' split
  all_goals first
    | exact refl s
    | exact setTraceSamplingPriority s _
    | exact setMetric s span _ _
    | exact horigin
    | exact htags

theorem setTags (tracer : Tracer) (s : TraceState) (span : SpanRef)
    (entries : List (String × Option String)) : SameSpans s (s.setTags tracer span entries) := by
  induction entries generalizing s with
  | nil => exact refl s
  | cons e es ih => exact (setTag tracer s span e.1 e.2).trans (ih _)

theorem decorateRootSpan (tracer : Tracer) (s : TraceState) (span : SpanRef) :
    SameSpans s (s.decorateRootSpan tracer span) := by
  unfold TraceState.decorateRootSpan
  split
  · exact refl s
  · exact setTags tracer s span _

theorem initSamplingPriority (tracer : Tracer) (s : TraceState) (span : SpanRef) :
    SameSpans s (s.initSamplingPriority tracer span) := by
  unfold TraceState.initSamplingPriority
  simp only
  split
  · exact modifyContext s _
  · split
    · exact modifyContext s _
    · rename_i getSamplingPriority _
      have htags := modifySpan s span
        (fun sp => { sp with tags := (getSamplingPriority (s.objects span)).2 }) fun _ => ⟨rfl, rfl⟩
      exact htags.trans (modifyContext _ _)

theorem addSpan (tracer : Tracer) (s : TraceState) (span : SpanRef) :
    SameSpans s (s.addSpan tracer span) := by
  have hroot := (modifyContext s fun c => { c with rootSpan := some span }).trans
    (decorateRootSpan tracer _ span)
  unfold TraceState.addSpan
  refine trans ?_ (modifyContext _ _)
  split
  · exact refl s
  · simp only
    split
    · exact hroot.trans (initSamplingPriority tracer _ span)
    · exact hroot

theorem publishSamplingPriority (s : TraceState) (span : SpanRef) :
    SameSpans s (s.publishSamplingPriority span) := by
  have hlock := modifyContext s TraceContext.lockSamplingPriority
  unfold TraceState.publishSamplingPriority
  simp only
  split
  · exact hlock
  · split
    · exact hlock.trans (modifySpan _ span _ fun _ => ⟨rfl, rfl⟩)
    · exact hlock.trans (setMetric _ span _ _)

theorem closeSpan {tracer : Tracer} {span : SpanRef} (h : s.closeSpan tracer span = some u) :
    SameSpans s u := by
  unfold TraceState.closeSpan at h
  obtain ⟨hobjects, hallocated, -, -⟩ := collectSpan_frame h
  refine trans ?_ (of_objects hobjects hallocated)
  split
  · exact publishSamplingPriority s span
  · exact refl s

end SameSpans

/-- One more span, with the given context and parent. -/
structure OneMore (s t : TraceState) (parent : Option ISpanContext) (context : SpanContext) :
    Prop where
  allocated : t.allocated = s.allocated + 1
  identity : ∀ r, (t.objects r).identity =
    if r = s.allocated then (parent, context.traceId, context.spanId) else (s.objects r).identity
  finished : ∀ r, (t.objects r).isFinished =
    if r = s.allocated then false else (s.objects r).isFinished
  ledger : t.ledger = { s.ledger with openSpans := s.ledger.openSpans + 1 }

theorem SameSpans.oneMore {s t : TraceState} {parent : Option ISpanContext}
    {context : SpanContext} {args : StartSpanArgs}
    (hsame : SameSpans (s.withNewSpan parent context args) t)
    (hledger : t.ledger = { s.ledger with openSpans := s.ledger.openSpans + 1 }) :
    OneMore s t parent context := by
  refine ⟨hsame.allocated, fun r => (hsame.identity r).trans ?_,
    fun r => (hsame.finished r).trans ?_, hledger⟩
  · unfold withNewSpan
    by_cases hr : r = s.allocated
    · subst hr
      simp [Span.identity]
    · simp [hr]
  · unfold withNewSpan
    by_cases hr : r = s.allocated
    · subst hr
      simp
    · simp [hr]

/-- **What starting a span does to the spans.** -/
theorem addNewSpan_oneMore (tracer : Tracer) (s : TraceState) (parent : Option ISpanContext)
    (context : SpanContext) (args : StartSpanArgs) :
    OneMore s (s.addNewSpan tracer parent context args) parent context := by
  have hsettings : SameSpans (s.withNewSpan parent context args)
      ((s.withNewSpan parent context args).setTags tracer s.allocated
        (tracer.globalTags.map fun e => (e.1, some e.2))) ∧
      ((s.withNewSpan parent context args).setTags tracer s.allocated
        (tracer.globalTags.map fun e => (e.1, some e.2))).ledger = s.ledger :=
    ⟨SameSpans.setTags tracer _ _ _, by rw [ledger_setTags]; rfl⟩
  have hset : ∀ (u : TraceState) (key : String) (v : Option String),
      SameSpans (s.withNewSpan parent context args) u ∧ u.ledger = s.ledger →
      SameSpans (s.withNewSpan parent context args) (u.setTag tracer s.allocated key v) ∧
        (u.setTag tracer s.allocated key v).ledger = s.ledger :=
    fun u key v hu => ⟨hu.1.trans (SameSpans.setTag tracer u _ key v),
      (ledger_setTag tracer u _ key v).trans hu.2⟩
  have hadd : ∀ u : TraceState, SameSpans (s.withNewSpan parent context args) u ∧
      u.ledger = s.ledger → OneMore s (u.addSpan tracer s.allocated) parent context := by
    intro u hu
    refine (hu.1.trans (SameSpans.addSpan tracer u s.allocated)).oneMore ?_
    rw [ledger_addSpan, hu.2]
  unfold addNewSpan
  unfold withNewSpan at hsettings hset hadd
  simp only at hsettings hset hadd ⊢
  split_ifs
  · exact hadd _ (hset _ _ _ hsettings)
  · exact hadd _ hsettings
  · exact hadd _ (hset _ _ _ (hset _ _ _ hsettings))
  · exact hadd _ (hset _ _ _ hsettings)

/-- One span is finished. -/
structure OneFinished (s t : TraceState) (span : SpanRef) : Prop where
  allocated : t.allocated = s.allocated
  identity : ∀ r, (t.objects r).identity = (s.objects r).identity
  finished : ∀ r, (t.objects r).isFinished = if r = span then true else (s.objects r).isFinished

/-- **What finishing a span does**: the second time nothing, and the first time it is closed. -/
theorem finish_cases {tracer : Tracer} {s u : TraceState} {span : SpanRef} {duration : Int}
    (h : s.finish tracer span duration = some u) :
    ((s.objects span).isFinished = true ∧ SameSpans s u ∧ u.ledger = s.ledger) ∨
      (s.objects span).isFinished = false ∧ OneFinished s u span ∧
        ∃ t : TraceState, t.ledger = s.ledger ∧ t.closeSpan tracer span = some u := by
  have hnamed := SameSpans.modifySpan s span
    (fun sp => { sp with resourceName := sp.resourceName.or sp.operationName }) fun _ => ⟨rfl, rfl⟩
  have hledger : (s.modifySpan span fun sp =>
      { sp with resourceName := sp.resourceName.or sp.operationName }).ledger = s.ledger := rfl
  unfold finish at h
  simp only at h
  generalize s.modifySpan span (fun sp =>
    { sp with resourceName := sp.resourceName.or sp.operationName }) = s₁ at *
  rw [hnamed.finished span] at h
  split at h
  case isTrue hf =>
    obtain rfl := Option.some.inj h
    exact Or.inl ⟨hf, hnamed, hledger⟩
  case isFalse hf =>
    refine Or.inr ⟨by simpa using hf, ?_, _, ?_, h⟩
    case refine_2 => exact hledger
    have hclosed := SameSpans.closeSpan h
    refine ⟨hclosed.allocated.trans hnamed.allocated, fun r => ?_, fun r => ?_⟩
    · rw [hclosed.identity r, ← hnamed.identity r]
      unfold modifySpan
      by_cases hr : r = span
      · subst hr
        simp [Span.identity]
      · simp [Function.update_of_ne hr]
    · rw [hclosed.finished r, ← hnamed.finished r]
      unfold modifySpan
      by_cases hr : r = span
      · subst hr
        simp
      · simp [hr]

end TraceState

/-! ## What an operation does -/

/-- What an operation can do to the spans and the ledger of a trace. -/
inductive Operation.Effect (tracer : Tracer) (s u : TraceState) : Operation → Prop
  | startChildSpan (parent : SpanRef) (args : StartSpanArgs)
      (h : s.OneMore u (some (.ofSpan parent))
        (createSpanContext tracer s.objects (some (.ofSpan parent)) args).2) :
      Effect tracer s u (.startChildSpan parent args)
  | finish (span : SpanRef) (duration : Int) (hopen : (s.objects span).isFinished = false)
      (h : s.OneFinished u span) (t : TraceState) (hledger : t.ledger = s.ledger)
      (hclose : t.closeSpan tracer span = some u) : Effect tracer s u (.finish span duration)
  | same (op : Operation) (h : s.SameSpans u) (hledger : u.ledger = s.ledger)
      (hnot : ∀ span duration, op = .finish span duration → (s.objects span).isFinished = true) :
      Effect tracer s u op

/-- **What an operation does**: it starts one child span, finishes one span, or neither. -/
theorem Operation.effect_of_exec {tracer : Tracer} {s u : TraceState} {op : Operation}
    {new : List Published} (h : op.exec tracer s = some (u, new)) : op.Effect tracer s u := by
  cases op with
  | startChildSpan parent args =>
      obtain ⟨rfl, -⟩ := Prod.mk.inj (Option.some.inj h)
      exact .startChildSpan parent args (TraceState.addNewSpan_oneMore tracer s _ _ args)
  | setTag span key value =>
      obtain ⟨rfl, -⟩ := Prod.mk.inj (Option.some.inj h)
      exact .same _ (TraceState.SameSpans.setTag tracer s span key value)
        (TraceState.ledger_setTag tracer s span key value) fun _ _ h => by cases h
  | setTraceSamplingPriority span priority =>
      obtain ⟨rfl, -⟩ := Prod.mk.inj (Option.some.inj h)
      exact .same _ (TraceState.SameSpans.setTraceSamplingPriority s priority)
        (TraceState.ledger_setTraceSamplingPriority s priority) fun _ _ h => by cases h
  | assignSamplingPriority span value =>
      obtain ⟨rfl, -⟩ := Prod.mk.inj (Option.some.inj h)
      refine .same _ (TraceState.SameSpans.modifyContext s _) ?_ fun _ _ h => by cases h
      unfold TraceState.modifyContext TraceContext.setSamplingPriority TraceState.ledger
      by_cases hl : s.context.samplingPriorityLocked <;> simp [hl]
  | finish span duration =>
      obtain ⟨v, hv, heq⟩ := Option.map_eq_some_iff.mp h
      have hu : v = u := by
        split at heq
        · exact (Prod.mk.inj heq).1
        · exact (Prod.mk.inj heq).1
      subst hu
      rcases TraceState.finish_cases hv with ⟨hf, hsame, hledger⟩ | ⟨hf, hone, t, hledger, hclose⟩
      · refine .same _ hsame hledger fun _ _ h => ?_
        obtain ⟨rfl, rfl⟩ := Operation.finish.inj h
        exact hf
      · exact .finish span duration hf hone t hledger hclose
  | inject span =>
      obtain ⟨headers, -, heq⟩ := Option.map_eq_some_iff.mp h
      obtain ⟨rfl, -⟩ := Prod.mk.inj heq
      exact .same _ (TraceState.SameSpans.modifyContext s TraceContext.lockSamplingPriority)
        (TraceState.ledger_lockSamplingPriority s) fun _ _ h => by cases h

/-! ## The tree of spans -/

/-- The spans of a trace whose root was started with the given parent: every other span is the
child of an earlier one, whose trace id it has unless that is zero. -/
structure TraceState.IsTree (parent : Option ISpanContext) (s : TraceState) : Prop where
  pos : 0 < s.allocated
  root : (s.objects 0).parent = parent
  child : ∀ r, 0 < r → r < s.allocated → ∃ q < r, (s.objects r).parent = some (.ofSpan q) ∧
    ((s.objects q).context.traceId ≠ 0 →
      (s.objects r).context.traceId = (s.objects q).context.traceId)

namespace TraceState

variable {s t u : TraceState} {parent : Option ISpanContext}

theorem identity_parent {r : SpanRef} {sp : Span} (h : (u.objects r).identity = sp.identity) :
    (u.objects r).parent = sp.parent :=
  congrArg Prod.fst h

theorem identity_traceId {r : SpanRef} {sp : Span} (h : (u.objects r).identity = sp.identity) :
    (u.objects r).context.traceId = sp.context.traceId :=
  congrArg (fun i => i.2.1) h

/-- Spans that stay what they are stay a tree. -/
theorem IsTree.of_identity (h : s.IsTree parent) (hallocated : u.allocated = s.allocated)
    (hidentity : ∀ r, (u.objects r).identity = (s.objects r).identity) : u.IsTree parent := by
  refine ⟨hallocated.symm ▸ h.pos, (identity_parent (hidentity 0)).trans h.root, ?_⟩
  intro r hpos hr
  obtain ⟨q, hq, hparent, htrace⟩ := h.child r hpos (hallocated ▸ hr)
  refine ⟨q, hq, (identity_parent (hidentity r)).trans hparent, ?_⟩
  rw [identity_traceId (hidentity r), identity_traceId (hidentity q)]
  exact htrace

/-- The trace id of a child. -/
theorem createSpanContext_traceId (tracer : Tracer) (objects : SpanRef → Span) (q : SpanRef)
    (args : StartSpanArgs) (hq : (objects q).context.traceId ≠ 0) :
    (createSpanContext tracer objects (some (.ofSpan q)) args).2.traceId =
      (objects q).context.traceId :=
  if_pos (UInt64.pos_iff_ne_zero.mpr hq)

/-- A child makes a tree larger. -/
theorem IsTree.oneMore {tracer : Tracer} {q : SpanRef} {args : StartSpanArgs}
    (h : s.IsTree parent) (hq : q < s.allocated)
    (hmore : s.OneMore u (some (.ofSpan q))
      (createSpanContext tracer s.objects (some (.ofSpan q)) args).2) : u.IsTree parent := by
  have hold : ∀ r < s.allocated, (u.objects r).identity = (s.objects r).identity :=
    fun r hr => (hmore.identity r).trans (if_neg (Nat.ne_of_lt hr))
  refine ⟨hmore.allocated.symm ▸ Nat.succ_pos _, (identity_parent (hold 0 h.pos)).trans h.root, ?_⟩
  intro r hpos hr
  rw [hmore.allocated] at hr
  rcases Nat.lt_succ_iff_lt_or_eq.mp hr with hlt | rfl
  · obtain ⟨p, hp, hparent, htrace⟩ := h.child r hpos hlt
    refine ⟨p, hp, (identity_parent (hold r hlt)).trans hparent, ?_⟩
    rw [identity_traceId (hold r hlt), identity_traceId (hold p (hp.trans hlt))]
    exact htrace
  · have hnew := (hmore.identity s.allocated).trans (if_pos rfl)
    refine ⟨q, hq, congrArg Prod.fst hnew, fun hne => ?_⟩
    rw [identity_traceId (hold q hq)] at hne ⊢
    rw [← createSpanContext_traceId tracer s.objects q args hne]
    exact congrArg (fun i => i.2.1) hnew

/-- **A trace has one trace id**, unless that of its root is zero. -/
theorem IsTree.traceId_eq (h : s.IsTree parent) (hroot : (s.objects 0).context.traceId ≠ 0) :
    ∀ r < s.allocated, (s.objects r).context.traceId = (s.objects 0).context.traceId := by
  intro r
  induction r using Nat.strong_induction_on with
  | _ r ih =>
    intro hr
    rcases Nat.eq_zero_or_pos r with rfl | hpos
    · rfl
    · obtain ⟨q, hq, -, htrace⟩ := h.child r hpos hr
      have hqroot := ih q hq (hq.trans hr)
      rw [htrace (hqroot.symm ▸ hroot), hqroot]

/-! ## The account of the spans -/

/-- The spans that were finished, in this order, are those that were sent and then those that are
pending; those that are pending were sent once no span is open. -/
structure Accounted (order : List SpanRef) (s : TraceState) : Prop where
  nodup : order.Nodup
  mem : ∀ r, r ∈ order ↔ r < s.allocated ∧ (s.objects r).isFinished = true
  ledger : ∃ calls, Disciplined calls ∧ Collected calls s.ledger ∧ Call.closed calls = order ∧
    ∀ r, r ∈ Call.added calls ↔ r < s.allocated

namespace Accounted

variable {order : List SpanRef}

/-- What was sent, and what is pending. -/
theorem sent_append_pending (h : s.Accounted order) :
    s.ledger.sent ++ s.ledger.pending = order.map some := by
  obtain ⟨calls, -, hcollected, rfl, -⟩ := h.ledger
  exact hcollected.order

/-- A trace of which all spans are finished was sent. -/
theorem sent_of_finished (h : s.Accounted order)
    (hall : ∀ r < s.allocated, (s.objects r).isFinished = true) :
    s.ledger.sent = order.map some := by
  obtain ⟨calls, hdisciplined, hcollected, rfl, hadded⟩ := h.ledger
  have hlen := hdisciplined.length_closed_le.2.mp fun r hr =>
    (h.mem r).mpr ⟨(hadded r).mp hr, hall r ((hadded r).mp hr)⟩
  have hzero : s.ledger.openSpans = 0 := by
    have := hcollected.count
    omega
  rw [← hcollected.order, hcollected.complete hzero, List.append_nil]

theorem same (h : s.Accounted order) (hsame : s.SameSpans u) (hledger : u.ledger = s.ledger) :
    u.Accounted order := by
  refine ⟨h.nodup, fun r => ?_, ?_⟩
  · rw [h.mem r, hsame.allocated, hsame.finished r]
  · rw [hledger, hsame.allocated]
    exact h.ledger

theorem oneMore (h : s.Accounted order) {context : SpanContext}
    (hmore : s.OneMore u parent context) : u.Accounted order := by
  obtain ⟨calls, hdisciplined, hcollected, hclosed, hadded⟩ := h.ledger
  have hfresh : s.allocated ∉ Call.added calls := fun hmem =>
    absurd ((hadded s.allocated).mp hmem) (Nat.lt_irrefl _)
  refine ⟨h.nodup, fun r => ?_, calls ++ [.addSpan s.allocated], hdisciplined.addSpan hfresh, ?_, ?_, ?_⟩
  · rw [h.mem r, hmore.allocated, hmore.finished r]
    split_ifs with hr
    · subst hr
      simp
    · exact and_congr_left fun _ =>
        ⟨fun h => Nat.lt_succ_of_lt h, fun h => (Nat.lt_succ_iff_lt_or_eq.mp h).resolve_right hr⟩
  · rw [hmore.ledger]
    exact hcollected.addSpan hdisciplined s.allocated
  · rw [Call.closed_concat_addSpan, hclosed]
  · intro r
    rw [Call.added_concat_addSpan, List.mem_append, hadded, List.mem_singleton, hmore.allocated]
    exact Nat.lt_succ_iff_lt_or_eq.symm

theorem finish {tracer : Tracer} (h : s.Accounted order) {span : SpanRef} (hspan : span < s.allocated)
    (hopen : (s.objects span).isFinished = false) (hone : s.OneFinished u span)
    (hledger : t.ledger = s.ledger) (hclose : t.closeSpan tracer span = some u) :
    u.Accounted (order ++ [span]) := by
  obtain ⟨calls, hdisciplined, hcollected, hclosed, hadded⟩ := h.ledger
  have hnot : span ∉ order := fun hmem => by
    rw [((h.mem span).mp hmem).2] at hopen
    cases hopen
  have hnext := hdisciplined.closeSpan ((hadded span).mpr hspan) (hclosed ▸ hnot)
  obtain ⟨v, hv, hcol, -, -⟩ := Call.exec_spec tracer (s := t) hnext (hledger ▸ hcollected)
  obtain rfl : u = v := Option.some.inj (hclose.symm.trans hv)
  refine ⟨?_, fun r => ?_, _, hnext, hcol, ?_, ?_⟩
  · exact List.nodup_append.mpr ⟨h.nodup, List.nodup_singleton span, fun a ha b hb hab =>
      hnot (List.mem_singleton.mp hb ▸ hab ▸ ha)⟩
  · rw [List.mem_append, h.mem r, List.mem_singleton, hone.allocated, hone.finished r]
    split_ifs with hr
    · subst hr
      simp [hspan]
    · simp [hr]
  · rw [Call.closed_concat_closeSpan, hclosed]
  · rw [Call.added_concat_closeSpan, hone.allocated]
    exact hadded

end Accounted

end TraceState

/-! ## Whole runs -/

section runs

variable (tracer : Tracer) {parent : Option ISpanContext}

/-- The invariant of the operations on a trace. -/
structure TraceState.Sound (parent : Option ISpanContext) (s : TraceState) : Prop where
  started : s.Started
  tree : s.IsTree parent
  accounted : ∃ order, s.Accounted order

/-- **Every operation keeps the invariant.** -/
theorem TraceState.Sound.step {s u : TraceState} (h : s.Sound parent) {op : Operation}
    (hrefers : op.Refers s) {new : List Published} (hexec : op.exec tracer s = some (u, new)) :
    u.Sound parent := by
  obtain ⟨v, out, hv, hstarted, -, -⟩ := op.exec_spec tracer h.started hrefers
  obtain ⟨rfl, rfl⟩ := Prod.mk.inj (Option.some.inj (hexec.symm.trans hv))
  obtain ⟨order, haccounted⟩ := h.accounted
  cases Operation.effect_of_exec hexec with
  | startChildSpan q args hmore =>
      exact ⟨hstarted, h.tree.oneMore hrefers hmore, order, haccounted.oneMore hmore⟩
  | finish span duration hopen hone t hledger hclose =>
      exact ⟨hstarted, h.tree.of_identity hone.allocated hone.identity, _,
        haccounted.finish hrefers hopen hone hledger hclose⟩
  | same op hsame hledger hnot =>
      exact ⟨hstarted, h.tree.of_identity hsame.allocated hsame.identity, order,
        haccounted.same hsame hledger⟩

/-- A trace that was started. -/
theorem sound_startSpan (heap : ArrayHeap SpanRef) (objects : SpanRef → Span)
    (parent : Option ISpanContext) (args : StartSpanArgs) :
    (startSpan tracer heap objects parent args).Sound parent := by
  have hstarted := (TraceState.startSpan_spec tracer heap objects parent args).1
  have hmore := TraceState.addNewSpan_oneMore tracer
    { heap := heap, objects := objects, allocated := 0
      context := (createSpanContext tracer objects parent args).1.getD {} }
    parent (createSpanContext tracer objects parent args).2 args
  refine ⟨hstarted, ⟨?_, ?_, ?_⟩, [], ?_⟩
  · exact hmore.allocated.symm ▸ Nat.one_pos
  · exact congrArg Prod.fst ((hmore.identity 0).trans (if_pos rfl))
  · intro r hpos hr
    rw [show (startSpan tracer heap objects parent args).allocated = 1 from hmore.allocated] at hr
    omega
  · have hempty : Collected [] (TraceState.mk heap objects 0
        ((createSpanContext tracer objects parent args).1.getD {}) []).ledger := by
      have hstart := collected_start heap objects 0 none
      rcases parent with _ | ⟨c | _ | _⟩ <;> exact hstart
    have hnone : TraceState.Accounted [] (TraceState.mk heap objects 0
        ((createSpanContext tracer objects parent args).1.getD {}) []) := by
      refine ⟨List.nodup_nil, fun r => ?_, [], .start, hempty, rfl, fun r => ?_⟩
      · simp
      · simp
    exact hnone.oneMore hmore

end runs

end DdTrace.Tracing
