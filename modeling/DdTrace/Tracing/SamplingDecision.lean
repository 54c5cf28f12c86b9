import DdTrace.Lib.LatchedCell
import DdTrace.Propagation.SpanContextPropagator
import DdTrace.Tracing.Conservation

/-!
# Who decides on the sampling priority of a trace

The runs of this module are sequences of the operations that a program can do on one trace: child
spans, tags, priority assignments, closes and injections (`Operation`). What a run makes public is
what its injections write to the priority header and what closing the root span leaves in the
priority metric (`Published`).

* `Operation.exec_spec`: on the priority of the trace and its lock, every operation acts as at most
  one action on a `LatchedCell`, and what it publishes is the value of the cell.
* `one_published_priority`: whatever the operations are, everything that is published agrees.
* `propagated_priority_kept_iff`: a propagated priority is what the trace keeps and publishes
  exactly in the runs in which nothing assigns another one before it is locked. It is not locked by
  the start of the trace (`propagated_priority_overridden`): `CreateSpanContext` gives it to the
  trace context, so `AddSpan` does not come to the block that would lock it.

Sources: `TraceContext.cs`; `Span.cs`, `SetTag`, `Finish`; `Tracer.cs`, `CreateSpanContext`,
`StartSpan`; `SpanContextPropagator.cs`, `Inject`; `ExtensionMethods/SpanExtensions.cs`.
-/

namespace DdTrace.Tracing

open DdTrace.Lib DdTrace.Propagation

/-! ## The priority of a trace as a latched cell -/

/-- The priority of a trace and its lock. -/
def TraceContext.cell (c : TraceContext) : LatchedCell SamplingPriority :=
  ⟨c.samplingPriority, c.samplingPriorityLocked⟩

/-- The priority of a trace and its lock. -/
def TraceState.cell (s : TraceState) : LatchedCell SamplingPriority := s.context.cell

/-- Setting the property is an assignment. -/
theorem TraceContext.cell_setSamplingPriority (c : TraceContext) (v : Option SamplingPriority) :
    (c.setSamplingPriority v).cell = c.cell.step (.assign v) := by
  unfold setSamplingPriority cell LatchedCell.step
  by_cases h : c.samplingPriorityLocked = true
  · simp [h]
  · simp [h]

/-- Locking is what publishing does to the cell. -/
theorem TraceContext.cell_lockSamplingPriority (c : TraceContext) :
    c.lockSamplingPriority.cell = c.cell.step .publish := by
  unfold lockSamplingPriority cell LatchedCell.step
  cases hp : c.samplingPriority <;> simp [hp]

/-! ## What setting tags does -/

/-- The priority that setting a tag of an unfinished span assigns, if it assigns one. -/
def tagPriority (key : String) (value : Option String) : Option SamplingPriority :=
  if key = Tags.origin then none
  else if key = Tags.samplingPriority then
    (SamplingPriority.enumTryParse value).filter SamplingPriority.isDefined
  else if key = Tags.forceKeep ∨ key = Tags.manualKeep then
    if value.bind toBoolean = some true then some .userKeep else none
  else if key = Tags.forceDrop ∨ key = Tags.manualDrop then
    if value.bind toBoolean = some true then some .userReject else none
  else none

/-- The priority that setting several tags leaves assigned. -/
def lastPriority (entries : List (String × Option String)) : Option SamplingPriority :=
  (entries.filterMap fun e => tagPriority e.1 e.2).getLast?

/-- The priority that the tags from the settings leave assigned. -/
def globalPriority (tracer : Tracer) : Option SamplingPriority :=
  lastPriority (tracer.globalTags.map fun e => (e.1, some e.2))

/-- The priority a parent brings along. -/
def parentPriority : Option ISpanContext → Option SamplingPriority
  | some (.propagated c) => c.samplingPriority
  | _ => none

/-- Assign a priority, if there is one to assign. -/
def assignment (p : Option SamplingPriority) : Option (LatchedCell.Action SamplingPriority) :=
  p.map fun p => .assign (some p)

namespace TraceState

/-- What setting tags leaves alone. -/
structure TagFrame (s t : TraceState) : Prop where
  rootSpan : t.context.rootSpan = s.context.rootSpan
  allocated : t.allocated = s.allocated
  ledger : t.ledger = s.ledger
  finished : ∀ r, (t.objects r).isFinished = (s.objects r).isFinished
  parent : ∀ r, (t.objects r).parent = (s.objects r).parent
  ownPriority : ∀ r, (t.objects r).context.samplingPriority =
    (s.objects r).context.samplingPriority

namespace TagFrame

theorem refl (s : TraceState) : TagFrame s s :=
  ⟨rfl, rfl, rfl, fun _ => rfl, fun _ => rfl, fun _ => rfl⟩

theorem trans {s t u : TraceState} (h₁ : TagFrame s t) (h₂ : TagFrame t u) : TagFrame s u :=
  ⟨h₂.rootSpan.trans h₁.rootSpan, h₂.allocated.trans h₁.allocated, h₂.ledger.trans h₁.ledger,
    fun r => (h₂.finished r).trans (h₁.finished r), fun r => (h₂.parent r).trans (h₁.parent r),
    fun r => (h₂.ownPriority r).trans (h₁.ownPriority r)⟩

/-- Updating a span without finishing it or giving its context a priority. -/
theorem modifySpan (s : TraceState) (span : SpanRef) (f : Span → Span)
    (hf : ∀ sp, (f sp).isFinished = sp.isFinished ∧ (f sp).parent = sp.parent ∧
      (f sp).context.samplingPriority = sp.context.samplingPriority) :
    TagFrame s (s.modifySpan span f) := by
  have hkept : ∀ r, ((s.modifySpan span f).objects r).isFinished = (s.objects r).isFinished ∧
      ((s.modifySpan span f).objects r).parent = (s.objects r).parent ∧
      ((s.modifySpan span f).objects r).context.samplingPriority =
        (s.objects r).context.samplingPriority := by
    intro r
    unfold TraceState.modifySpan
    by_cases hr : r = span
    · subst hr
      simpa using hf (s.objects r)
    · simp [Function.update_of_ne hr]
  exact ⟨rfl, rfl, rfl, fun r => (hkept r).1, fun r => (hkept r).2.1, fun r => (hkept r).2.2⟩

theorem setMetric (s : TraceState) (span : SpanRef) (key : String) (value : Option Float) :
    TagFrame s (s.setMetric span key value) :=
  modifySpan s span _ fun _ => ⟨rfl, rfl, rfl⟩

theorem setTraceSamplingPriority (s : TraceState) (p : SamplingPriority) :
    TagFrame s (s.setTraceSamplingPriority p) := by
  refine ⟨?_, rfl, ledger_setTraceSamplingPriority s p, fun _ => rfl, fun _ => rfl, fun _ => rfl⟩
  show (s.context.setSamplingPriority (some p)).rootSpan = s.context.rootSpan
  unfold TraceContext.setSamplingPriority
  split_ifs <;> rfl

end TagFrame

/-- Setting the trace's priority is an assignment. -/
theorem cell_setTraceSamplingPriority (s : TraceState) (p : SamplingPriority) :
    (s.setTraceSamplingPriority p).cell = s.cell.step (.assign (some p)) :=
  TraceContext.cell_setSamplingPriority s.context (some p)

/-- **What setting a tag does**: nothing on a finished span; on another one it assigns the
priority that the tag stands for, if any, and leaves the rest of the frame alone. -/
theorem setTag_spec (tracer : Tracer) (s : TraceState) (span : SpanRef) (key : String)
    (value : Option String) :
    TagFrame s (s.setTag tracer span key value) ∧
      (s.setTag tracer span key value).cell =
        if (s.objects span).isFinished then s.cell
        else s.cell.stepOption (assignment (tagPriority key value)) := by
  by_cases hf : (s.objects span).isFinished = true
  · have hsame : s.setTag tracer span key value = s := if_pos hf
    rw [hsame, if_pos hf]
    exact ⟨TagFrame.refl s, rfl⟩
  rw [if_neg hf]
  -- a branch assigns nothing and touches at most the tags of the span, or it assigns one priority
  have hkeep : ∀ t, TagFrame s t → t.context = s.context → tagPriority key value = none →
      TagFrame s t ∧ t.cell = s.cell.stepOption (assignment (tagPriority key value)) := by
    intro t hframe hcontext hnone
    refine ⟨hframe, ?_⟩
    rw [hnone]
    exact congrArg TraceContext.cell hcontext
  have hassign : ∀ p, tagPriority key value = some p →
      TagFrame s (s.setTraceSamplingPriority p) ∧ (s.setTraceSamplingPriority p).cell =
        s.cell.stepOption (assignment (tagPriority key value)) := by
    intro p hp
    refine ⟨TagFrame.setTraceSamplingPriority s p, ?_⟩
    rw [hp]
    exact cell_setTraceSamplingPriority s p
  unfold setTag
  rw [if_neg hf]
  by_cases horigin : key = Tags.origin
  · rw [if_pos horigin]
    exact hkeep _ (TagFrame.modifySpan s span _ fun _ => ⟨rfl, rfl, rfl⟩) rfl (if_pos horigin)
  rw [if_neg horigin]
  by_cases hsampling : key = Tags.samplingPriority
  · have htag : tagPriority key value =
        (SamplingPriority.enumTryParse value).filter SamplingPriority.isDefined := by
      rw [tagPriority, if_neg horigin, if_pos hsampling]
    rw [if_pos hsampling]
    cases hparse : SamplingPriority.enumTryParse value with
    | none => exact hkeep s (TagFrame.refl s) rfl (by rw [htag, hparse]; rfl)
    | some p =>
        by_cases hdefined : p.isDefined = true
        · simp only [hdefined, if_true]
          exact hassign p (by rw [htag, hparse]; simp [Option.filter, hdefined])
        · simp only [hdefined]
          exact hkeep s (TagFrame.refl s) rfl (by rw [htag, hparse]; simp [Option.filter, hdefined])
  rw [if_neg hsampling]
  by_cases hkeepTag : key = Tags.forceKeep ∨ key = Tags.manualKeep
  · have htag : tagPriority key value =
        if value.bind toBoolean = some true then some .userKeep else none := by
      rw [tagPriority, if_neg horigin, if_neg hsampling, if_pos hkeepTag]
    rw [if_pos hkeepTag]
    by_cases htrue : value.bind toBoolean = some true
    · rw [if_pos htrue] at htag ⊢
      exact hassign .userKeep htag
    · rw [if_neg htrue] at htag ⊢
      exact hkeep s (TagFrame.refl s) rfl htag
  rw [if_neg hkeepTag]
  by_cases hdropTag : key = Tags.forceDrop ∨ key = Tags.manualDrop
  · have htag : tagPriority key value =
        if value.bind toBoolean = some true then some .userReject else none := by
      rw [tagPriority, if_neg horigin, if_neg hsampling, if_neg hkeepTag, if_pos hdropTag]
    rw [if_pos hdropTag]
    by_cases htrue : value.bind toBoolean = some true
    · rw [if_pos htrue] at htag ⊢
      exact hassign .userReject htag
    · rw [if_neg htrue] at htag ⊢
      exact hkeep s (TagFrame.refl s) rfl htag
  have htag : tagPriority key value = none := by
    rw [tagPriority, if_neg horigin, if_neg hsampling, if_neg hkeepTag, if_neg hdropTag]
  have hmetric : ∀ (name : String) (v : Option Float), TagFrame s (s.setMetric span name v) ∧
      (s.setMetric span name v).cell = s.cell.stepOption (assignment (tagPriority key value)) :=
    fun name v => hkeep _ (TagFrame.setMetric s span name v) rfl htag
  have hsame := hkeep s (TagFrame.refl s) rfl htag
  rw [if_neg hdropTag]
  split
  · split
    · apply hmetric
    · split
      · apply hmetric
      · split
        · apply hmetric
        · apply hmetric
        · split
          · apply hmetric
          · exact hsame
  · split
    · split
      · apply hmetric
      · split
        · apply hmetric
        · split
          · apply hmetric
          · apply hmetric
          · exact hsame
    · exact hkeep _ (TagFrame.modifySpan s span _ fun _ => ⟨rfl, rfl, rfl⟩) rfl htag

/-- A tag that stands for no priority. -/
theorem setTag_of_none (tracer : Tracer) (s : TraceState) (span : SpanRef) {key : String}
    {value : Option String} (hkey : tagPriority key value = none) :
    TagFrame s (s.setTag tracer span key value) ∧
      (s.setTag tracer span key value).cell = s.cell := by
  obtain ⟨hframe, hcell⟩ := setTag_spec tracer s span key value
  refine ⟨hframe, ?_⟩
  rw [hcell, hkey]
  split_ifs <;> rfl

/-- Of two assignments in a row, the last one counts. -/
theorem stepOption_assignment_assignment (c : LatchedCell SamplingPriority)
    (p q : Option SamplingPriority) :
    (c.stepOption (assignment p)).stepOption (assignment q) =
      c.stepOption (assignment (q.or p)) := by
  cases q with
  | none => rfl
  | some q =>
      cases p with
      | none => rfl
      | some p => exact LatchedCell.step_assign_assign c (some p) (some q)

theorem lastPriority_cons (e : String × Option String) (es : List (String × Option String)) :
    lastPriority (e :: es) = (lastPriority es).or (tagPriority e.1 e.2) := by
  unfold lastPriority
  rw [List.filterMap_cons]
  cases tagPriority e.1 e.2 with
  | none => simp
  | some p =>
      simp only [List.getLast?_cons]
      cases (es.filterMap fun e => tagPriority e.1 e.2).getLast? <;> simp

/-- **What setting several tags of an unfinished span does.** -/
theorem setTags_spec (tracer : Tracer) {s : TraceState} {span : SpanRef}
    (hf : (s.objects span).isFinished = false) (entries : List (String × Option String)) :
    TagFrame s (s.setTags tracer span entries) ∧
      (s.setTags tracer span entries).cell =
        s.cell.stepOption (assignment (lastPriority entries)) := by
  induction entries generalizing s with
  | nil => exact ⟨TagFrame.refl s, rfl⟩
  | cons e es ih =>
      obtain ⟨hframe, hcell⟩ := setTag_spec tracer s span e.1 e.2
      have hf' : ((s.setTag tracer span e.1 e.2).objects span).isFinished = false :=
        (hframe.finished span).trans hf
      obtain ⟨hframe', hcell'⟩ := ih hf'
      refine ⟨hframe.trans hframe', ?_⟩
      have hfold : s.setTags tracer span (e :: es) =
          (s.setTag tracer span e.1 e.2).setTags tracer span es := rfl
      rw [hfold, hcell', hcell, hf, lastPriority_cons]
      exact stepOption_assignment_assignment _ _ _

/-! ## What starting a span does -/

/-- The state with the object of the new span. -/
def withNewSpan (s : TraceState) (parent : Option ISpanContext) (context : SpanContext)
    (args : StartSpanArgs) : TraceState :=
  { s with
    objects := Function.update s.objects s.allocated
      { context := context, parent := parent, tags := args.tags
        operationName := args.operationName }
    allocated := s.allocated + 1 }

/-- A new span gets the tags from the settings before it is added to the trace. -/
theorem addNewSpan_eq (tracer : Tracer) (s : TraceState) (parent : Option ISpanContext)
    (context : SpanContext) (args : StartSpanArgs) :
    ∃ t, s.addNewSpan tracer parent context args = t.addSpan tracer s.allocated ∧
      TagFrame (s.withNewSpan parent context args) t ∧
      t.cell = s.cell.stepOption (assignment (globalPriority tracer)) := by
  have hf : ((s.withNewSpan parent context args).objects s.allocated).isFinished = false := by
    simp [withNewSpan]
  obtain ⟨hframe, hcell⟩ := setTags_spec tracer hf (tracer.globalTags.map fun e => (e.1, some e.2))
  have henv : ∀ v, tagPriority Tags.env v = none := by
    intro v
    simp [tagPriority, Tags.env, Tags.origin, Tags.samplingPriority, Tags.forceKeep,
      Tags.manualKeep, Tags.forceDrop, Tags.manualDrop]
  have hversion : ∀ v, tagPriority Tags.version v = none := by
    intro v
    simp [tagPriority, Tags.version, Tags.origin, Tags.samplingPriority, Tags.forceKeep,
      Tags.manualKeep, Tags.forceDrop, Tags.manualDrop]
  generalize hs₂ : (s.withNewSpan parent context args).setTags tracer s.allocated
    (tracer.globalTags.map fun e => (e.1, some e.2)) = s₂ at hframe hcell
  have hset : ∀ (u : TraceState) (key : String) (v : Option String), tagPriority key v = none →
      TagFrame (s.withNewSpan parent context args) u ∧ u.cell = s₂.cell →
      TagFrame (s.withNewSpan parent context args) (u.setTag tracer s.allocated key v) ∧
        (u.setTag tracer s.allocated key v).cell = s₂.cell := by
    intro u key v hkey hu
    obtain ⟨hframe', hcell'⟩ := setTag_of_none tracer u s.allocated hkey
    exact ⟨hu.1.trans hframe', hcell'.trans hu.2⟩
  have hbase : TagFrame (s.withNewSpan parent context args) s₂ ∧ s₂.cell = s₂.cell := ⟨hframe, rfl⟩
  have hassigned : s.cell.stepOption (assignment (globalPriority tracer)) = s₂.cell := hcell.symm
  rw [hassigned]
  unfold addNewSpan
  refine ⟨_, rfl, ?_⟩
  unfold withNewSpan at hs₂
  rw [hs₂]
  split_ifs
  · exact hset _ _ _ (hversion _) hbase
  · exact hbase
  · exact hset _ _ _ (hversion _) (hset _ _ _ (henv _) hbase)
  · exact hset _ _ _ (henv _) hbase

/-- The tags put on a root span stand for no priority. -/
theorem decorateRootSpan_spec (tracer : Tracer) {s : TraceState} {span : SpanRef}
    (hf : (s.objects span).isFinished = false) :
    TagFrame s (s.decorateRootSpan tracer span) ∧
      (s.decorateRootSpan tracer span).cell = s.cell := by
  unfold decorateRootSpan
  cases tracer.azureAppServices with
  | none => exact ⟨TagFrame.refl s, rfl⟩
  | some a =>
      obtain ⟨hframe, hcell⟩ := setTags_spec tracer hf
        [("aas.site.name", a.siteName), ("aas.site.kind", a.siteKind),
          ("aas.site.type", a.siteType), ("aas.resource.group", a.resourceGroup),
          ("aas.subscription.id", a.subscriptionId), ("aas.resource.id", a.resourceId),
          ("aas.environment.instance_id", a.instanceId),
          ("aas.environment.instance_name", a.instanceName),
          ("aas.environment.os", a.operatingSystem), ("aas.environment.runtime", a.runtime),
          ("aas.environment.extension_version", a.siteExtensionVersion)]
      refine ⟨hframe, hcell.trans ?_⟩
      simp [lastPriority, tagPriority, Tags.origin, Tags.samplingPriority, Tags.forceKeep,
        Tags.manualKeep, Tags.forceDrop, Tags.manualDrop, assignment]

/-- The first priority of a trace: the frame, and a sampler's answer if the parent has none. -/
theorem initSamplingPriority_spec (tracer : Tracer) (s : TraceState) (span : SpanRef) :
    TagFrame s (s.initSamplingPriority tracer span) ∧
      (parentPriority (s.objects span).parent = none → tracer.sampler.isSome = true →
        (s.initSamplingPriority tracer span).cell.value.isSome = true) := by
  unfold initSamplingPriority
  simp only
  split
  · rename_i p hp
    refine ⟨⟨rfl, rfl, rfl, fun _ => rfl, fun _ => rfl, fun _ => rfl⟩, fun hnone _ => ?_⟩
    exact absurd (hp.symm.trans hnone) (by simp)
  · cases tracer.sampler with
    | none =>
        exact ⟨⟨rfl, rfl, rfl, fun _ => rfl, fun _ => rfl, fun _ => rfl⟩,
          fun _ h => absurd h (by simp)⟩
    | some getSamplingPriority =>
        refine ⟨?_, fun _ _ => rfl⟩
        have htags : TagFrame s (s.modifySpan span fun sp =>
            { sp with tags := (getSamplingPriority (s.objects span)).2 }) :=
          TagFrame.modifySpan s span _ fun _ => ⟨rfl, rfl, rfl⟩
        exact htags.trans ⟨rfl, rfl, rfl, fun _ => rfl, fun _ => rfl, fun _ => rfl⟩

/-- Adding a span to a trace that has a root only counts it. -/
theorem addSpan_of_rootSpan (tracer : Tracer) {s : TraceState} (span : SpanRef) {root : SpanRef}
    (hroot : s.context.rootSpan = some root) :
    s.addSpan tracer span = s.modifyContext fun c => { c with openSpans := c.openSpans + 1 } := by
  unfold addSpan
  rw [hroot]

/-- Adding the first span makes it the root, and looks for a priority if there is none. -/
theorem addSpan_root (tracer : Tracer) {s : TraceState} (span : SpanRef)
    (hroot : s.context.rootSpan = none) (hf : (s.objects span).isFinished = false) :
    ∃ t : TraceState, s.addSpan tracer span =
        (t.modifyContext fun c => { c with openSpans := c.openSpans + 1 }) ∧
      t.context.rootSpan = some span ∧ t.allocated = s.allocated ∧
      (∀ r, (t.objects r).context.samplingPriority = (s.objects r).context.samplingPriority) ∧
      (s.cell.value.isSome = true → t.cell = s.cell) ∧
      (parentPriority (s.objects span).parent = none → tracer.sampler.isSome = true →
        t.cell.value.isSome = true) := by
  obtain ⟨hframe, hcell⟩ := decorateRootSpan_spec tracer
    (s := s.modifyContext fun c => { c with rootSpan := some span }) hf
  generalize hs₂ : (s.modifyContext fun c => { c with rootSpan := some span }).decorateRootSpan
    tracer span = s₂ at hframe hcell
  have hvalue : s₂.cell = s.cell := hcell
  have hadd : s.addSpan tracer span =
      (if s₂.context.samplingPriority = none then s₂.initSamplingPriority tracer span
        else s₂).modifyContext fun c => { c with openSpans := c.openSpans + 1 } := by
    unfold addSpan
    rw [hroot]
    simp only [hs₂]
  refine ⟨_, hadd, ?_⟩
  by_cases hnone : s₂.context.samplingPriority = none
  · rw [if_pos hnone]
    obtain ⟨hframe', hsampled⟩ := initSamplingPriority_spec tracer s₂ span
    refine ⟨hframe'.rootSpan.trans hframe.rootSpan, hframe'.allocated.trans hframe.allocated,
      fun r => (hframe'.ownPriority r).trans (hframe.ownPriority r), fun hsome => ?_, ?_⟩
    · have : s₂.cell.value.isSome = true := hvalue ▸ hsome
      rw [TraceState.cell, TraceContext.cell, hnone] at this
      exact absurd this (by simp)
    · intro hparent
      apply hsampled
      rw [hframe.parent span]
      exact hparent
  · rw [if_neg hnone]
    refine ⟨hframe.rootSpan, hframe.allocated, hframe.ownPriority, fun _ => hvalue, fun _ _ => ?_⟩
    exact Option.isSome_iff_ne_none.mpr hnone

/-! ## Traces that were started -/

/-- What holds of a trace that was started: it has a root span, no span's context has a priority of
its own, and the builder of closed spans is well formed. -/
structure Started (s : TraceState) : Prop where
  root : s.context.rootSpan.isSome = true
  ownPriority : ∀ r < s.allocated, (s.objects r).context.samplingPriority = none
  wf : s.ledger.spans.WF s.ledger.heap

theorem TagFrame.started {s t : TraceState} (h : TagFrame s t) (hs : s.Started) : t.Started := by
  refine ⟨?_, fun r hr => ?_, ?_⟩
  · rw [h.rootSpan]
    exact hs.root
  · rw [h.ownPriority]
    exact hs.ownPriority r (h.allocated ▸ hr)
  · rw [h.ledger]
    exact hs.wf

/-- The context of a local span has no priority of its own. -/
theorem createSpanContext_samplingPriority (tracer : Tracer) (objects : SpanRef → Span)
    (parent : Option ISpanContext) (args : StartSpanArgs) :
    (createSpanContext tracer objects parent args).2.samplingPriority = none := rfl

/-- The contexts of the spans of a trace with a new span have no priority of their own. -/
theorem withNewSpan_ownPriority {s : TraceState}
    (hown : ∀ r < s.allocated, (s.objects r).context.samplingPriority = none)
    (parent : Option ISpanContext) {context : SpanContext} (args : StartSpanArgs)
    (hcontext : context.samplingPriority = none) :
    ∀ r < (s.withNewSpan parent context args).allocated,
      ((s.withNewSpan parent context args).objects r).context.samplingPriority = none := by
  intro r hr
  unfold withNewSpan at hr ⊢
  by_cases hne : r = s.allocated
  · subst hne
    simpa using hcontext
  · have hlt : r < s.allocated := by
      have : r < s.allocated + 1 := hr
      omega
    simpa [Function.update_of_ne hne] using hown r hlt

/-- **Starting a child span** assigns what the tags from the settings stand for. -/
theorem startChildSpan_spec (tracer : Tracer) {s : TraceState} (hs : s.Started)
    (parent : SpanRef) (args : StartSpanArgs) :
    (s.startChildSpan tracer parent args).Started ∧
      (s.startChildSpan tracer parent args).cell =
        s.cell.stepOption (assignment (globalPriority tracer)) := by
  obtain ⟨root, hroot⟩ := Option.isSome_iff_exists.mp hs.root
  unfold startChildSpan
  generalize hc : createSpanContext tracer s.objects (some (.ofSpan parent)) args = created
  have hcontext : created.2.samplingPriority = none := by
    rw [← hc]
    exact createSpanContext_samplingPriority _ _ _ _
  obtain ⟨t, hadd, hframe, hcell⟩ :=
    addNewSpan_eq tracer s (some (.ofSpan parent)) created.2 args
  have hnew := withNewSpan_ownPriority hs.ownPriority (some (.ofSpan parent)) args hcontext
  have hrootT : t.context.rootSpan = some root := hframe.rootSpan.trans hroot
  have hu := addSpan_of_rootSpan tracer s.allocated hrootT
  simp only
  refine ⟨⟨?_, ?_, ?_⟩, ?_⟩
  · rw [hadd, hu]
    exact Option.isSome_iff_exists.mpr ⟨root, hrootT⟩
  · rw [hadd, hu]
    intro r hr
    exact (hframe.ownPriority r).trans (hnew r (hframe.allocated ▸ hr))
  · rw [hadd, ledger_addSpan, hframe.ledger]
    exact hs.wf
  · rw [hadd, hu, ← hcell]
    rfl

/-- **Starting a trace.** The new trace has the parent's priority, changed by the tags from the
settings; if that leaves none and the parent brought none, a sampler decides. -/
theorem startSpan_spec (tracer : Tracer) (heap : ArrayHeap SpanRef) (objects : SpanRef → Span)
    (parent : Option ISpanContext) (args : StartSpanArgs) :
    (startSpan tracer heap objects parent args).Started ∧
      (∀ p, parentPriority parent = some p → (startSpan tracer heap objects parent args).cell =
        (LatchedCell.mk (some p) false).stepOption (assignment (globalPriority tracer))) ∧
      (parentPriority parent = none → tracer.sampler.isSome = true →
        (startSpan tracer heap objects parent args).cell.value.isSome = true) := by
  unfold startSpan
  generalize hc : createSpanContext tracer objects parent args = created
  have hcontext : created.2.samplingPriority = none := by
    rw [← hc]
    exact createSpanContext_samplingPriority _ _ _ _
  have hstart : (created.1.getD {}).cell = ⟨parentPriority parent, false⟩ ∧
      (created.1.getD {}).rootSpan = none ∧ (created.1.getD {}).spans = {} := by
    rw [← hc]
    unfold createSpanContext parentPriority
    rcases parent with _ | ⟨c | _ | _⟩ <;> exact ⟨rfl, rfl, rfl⟩
  obtain ⟨hcell₀, hroot₀, hspans₀⟩ := hstart
  simp only
  generalize hs₀ : TraceState.mk heap objects 0 (created.1.getD {}) [] = s₀
  have hcell : s₀.cell = ⟨parentPriority parent, false⟩ := by rw [← hs₀]; exact hcell₀
  have hroot : s₀.context.rootSpan = none := by rw [← hs₀]; exact hroot₀
  have hwf : s₀.ledger.spans.WF s₀.ledger.heap := by
    rw [← hs₀]
    show (created.1.getD {}).spans.WF heap
    rw [hspans₀]
    exact ArrayBuilder.wf_default heap
  have hempty : ∀ r < s₀.allocated, (s₀.objects r).context.samplingPriority = none := by
    rw [← hs₀]
    intro r hr
    exact absurd hr (Nat.not_lt_zero r)
  obtain ⟨t, hadd, hframe, hcellT⟩ := addNewSpan_eq tracer s₀ parent created.2 args
  have hnew : ((s₀.withNewSpan parent created.2 args).objects s₀.allocated).isFinished = false ∧
      ((s₀.withNewSpan parent created.2 args).objects s₀.allocated).parent = parent := by
    simp [withNewSpan]
  obtain ⟨u, hu, hrootU, hallocU, hownU, hcellU, hsampledU⟩ :=
    addSpan_root tracer s₀.allocated (hframe.rootSpan.trans hroot)
      ((hframe.finished _).trans hnew.1)
  have hown := withNewSpan_ownPriority hempty parent args hcontext
  refine ⟨⟨?_, ?_, ?_⟩, fun p hp => ?_, fun hnone hsampler => ?_⟩
  · rw [hadd, hu]
    exact Option.isSome_iff_exists.mpr ⟨_, hrootU⟩
  · rw [hadd, hu]
    intro r hr
    have hr' : r < (s₀.withNewSpan parent created.2 args).allocated := by
      rw [← hframe.allocated, ← hallocU]
      exact hr
    exact (hownU r).trans ((hframe.ownPriority r).trans (hown r hr'))
  · rw [hadd, ledger_addSpan, hframe.ledger]
    exact hwf
  · have hsome : t.cell.value.isSome = true := by
      rw [hcellT, hcell, hp]
      cases globalPriority tracer <;> rfl
    rw [hadd, hu, ← hp, ← hcell, ← hcellT, ← hcellU hsome]
    rfl
  · rw [hadd, hu]
    refine hsampledU ?_ hsampler
    rw [hframe.parent, hnew.2]
    exact hnone

/-! ## What finishing a span does -/

/-- Collecting a closed span leaves the spans and the priority alone. -/
theorem collectSpan_frame {tracer : Tracer} {s u : TraceState} {span : SpanRef}
    (h : s.collectSpan tracer span = some u) :
    u.objects = s.objects ∧ u.allocated = s.allocated ∧
      u.context.rootSpan = s.context.rootSpan ∧ u.cell = s.cell := by
  have hwrite : ∀ (t : TraceState) (seg : ArraySegment), t.objects = s.objects →
      t.allocated = s.allocated → t.context.rootSpan = s.context.rootSpan → t.cell = s.cell →
      (t.write seg).objects = s.objects ∧ (t.write seg).allocated = s.allocated ∧
        (t.write seg).context.rootSpan = s.context.rootSpan ∧ (t.write seg).cell = s.cell := by
    intro t seg hobjects halloc hroot hcell
    unfold write
    split_ifs <;> exact ⟨hobjects, halloc, hroot, hcell⟩
  unfold collectSpan at h
  obtain ⟨⟨heap, spans⟩, -, rfl⟩ := Option.map_eq_some_iff.mp h
  simp only
  split_ifs
  · exact hwrite _ _ rfl rfl rfl rfl
  · exact hwrite _ _ rfl rfl rfl rfl
  · exact ⟨rfl, rfl, rfl, rfl⟩

/-- The builder is well formed after every way of collecting a span. -/
theorem collectStep_wf {tracer : Tracer} {l l' : Ledger} {h : ArrayHeap SpanRef}
    {b : ArrayBuilder} (hwf : b.WF h) (hpos : 0 < b.count) (hstep : CollectStep tracer l h b l') :
    l'.spans.WF l'.heap := by
  cases hstep with
  | complete => exact ArrayBuilder.wf_default h
  | partialFlush => exact ArrayBuilder.wf_ofCapacity h hpos
  | keep => exact hwf

/-- **Publishing on the root span** latches the priority and puts it into the metric. -/
theorem publishSamplingPriority_spec (s : TraceState) (span : SpanRef) :
    TagFrame s (s.publishSamplingPriority span) ∧
      (s.publishSamplingPriority span).cell = s.cell.step .publish ∧
      ∀ p, s.context.samplingPriority = some p →
        ((s.publishSamplingPriority span).objects span).tags.getMetric Metrics.samplingPriority =
          some (Float.ofInt p.value) := by
  have hlock : TagFrame s (s.modifyContext TraceContext.lockSamplingPriority) := by
    refine ⟨?_, rfl, ledger_lockSamplingPriority s, fun _ => rfl, fun _ => rfl, fun _ => rfl⟩
    show s.context.lockSamplingPriority.rootSpan = s.context.rootSpan
    unfold TraceContext.lockSamplingPriority
    cases s.context.samplingPriority <;> rfl
  have hcell : (s.modifyContext TraceContext.lockSamplingPriority).cell = s.cell.step .publish :=
    TraceContext.cell_lockSamplingPriority s.context
  have hpriority : (s.modifyContext TraceContext.lockSamplingPriority).context.samplingPriority =
      s.context.samplingPriority := lockSamplingPriority_samplingPriority s.context
  unfold publishSamplingPriority
  simp only [hpriority]
  generalize s.modifyContext TraceContext.lockSamplingPriority = t at hlock hcell
  cases s.context.samplingPriority with
  | none => exact ⟨hlock, hcell, fun p hp => absurd hp (by simp)⟩
  | some p =>
      simp only
      split
      · rename_i hcommon
        refine ⟨hlock.trans (TagFrame.modifySpan _ _ _ fun _ => ⟨rfl, rfl, rfl⟩), hcell, ?_⟩
        rintro _ ⟨⟩
        simp only [TraceState.modifySpan, Function.update_self]
        exact TagsList.getMetric_setCommonSamplingPriority _ hcommon _
      · refine ⟨hlock.trans (TagFrame.setMetric _ _ _ _), hcell, ?_⟩
        rintro _ ⟨⟩
        simp only [TraceState.setMetric, TraceState.modifySpan, Function.update_self]
        exact TagsList.getMetric_setMetric_samplingPriority _ _

/-- **Finishing a span**: only the first finish of the root span touches the priority. -/
theorem finish_spec (tracer : Tracer) {s : TraceState} (hs : s.Started) (span : SpanRef)
    (duration : Int) :
    ∃ u, s.finish tracer span duration = some u ∧ u.Started ∧
      if (s.objects span).isFinished = false ∧ s.context.rootSpan = some span then
        u.cell = s.cell.step .publish ∧
          ∀ p, s.context.samplingPriority = some p →
            (u.objects span).tags.getMetric Metrics.samplingPriority =
              some (Float.ofInt p.value)
      else u.cell = s.cell := by
  have hnamed : TagFrame s (s.modifySpan span fun sp =>
      { sp with resourceName := sp.resourceName.or sp.operationName }) :=
    TagFrame.modifySpan s span _ fun _ => ⟨rfl, rfl, rfl⟩
  have hcellNamed : (s.modifySpan span fun sp =>
      { sp with resourceName := sp.resourceName.or sp.operationName }).cell = s.cell := rfl
  have hcontextNamed : (s.modifySpan span fun sp =>
      { sp with resourceName := sp.resourceName.or sp.operationName }).context = s.context := rfl
  unfold finish
  simp only
  generalize s.modifySpan span (fun sp =>
    { sp with resourceName := sp.resourceName.or sp.operationName }) = s₁ at *
  rw [hnamed.finished span]
  by_cases hf : (s.objects span).isFinished = true
  · rw [if_pos hf]
    refine ⟨s₁, rfl, hnamed.started hs, ?_⟩
    rw [if_neg (by simp [hf])]
    exact hcellNamed
  rw [if_neg hf]
  have hs₁ := hnamed.started hs
  have hown₂ : ∀ r < s₁.allocated, ((s₁.modifySpan span fun sp =>
      { sp with duration := max duration 0, isFinished := true }).objects r).context.samplingPriority
      = none := by
    intro r hr
    rw [← hs₁.ownPriority r hr]
    unfold modifySpan
    by_cases hne : r = span
    · subst hne
      simp
    · simp [Function.update_of_ne hne]
  have hs₂ : (s₁.modifySpan span fun sp =>
      { sp with duration := max duration 0, isFinished := true }).Started :=
    ⟨hs₁.root, hown₂, hs₁.wf⟩
  have hcontext₂ : (s₁.modifySpan span fun sp =>
      { sp with duration := max duration 0, isFinished := true }).context = s.context :=
    hcontextNamed
  generalize s₁.modifySpan span (fun sp =>
    { sp with duration := max duration 0, isFinished := true }) = s₂ at *
  unfold closeSpan
  simp only [hcontext₂]
  -- publishing comes first, and only on the root span
  have hpublished : ∃ s₃, (if s.context.rootSpan = some span then s₂.publishSamplingPriority span
      else s₂) = s₃ ∧ s₃.Started ∧
      if s.context.rootSpan = some span then
        s₃.cell = s.cell.step .publish ∧ ∀ p, s.context.samplingPriority = some p →
          (s₃.objects span).tags.getMetric Metrics.samplingPriority = some (Float.ofInt p.value)
      else s₃.cell = s.cell := by
    have hcell₂ : s₂.cell = s.cell := congrArg TraceContext.cell hcontext₂
    by_cases hroot : s.context.rootSpan = some span
    · obtain ⟨hframe, hcell, hmetric⟩ := publishSamplingPriority_spec s₂ span
      refine ⟨_, rfl, ?_, ?_⟩
      · rw [if_pos hroot]
        exact hframe.started hs₂
      · rw [if_pos hroot, if_pos hroot]
        rw [hcell₂] at hcell
        rw [hcontext₂] at hmetric
        exact ⟨hcell, hmetric⟩
    · refine ⟨_, rfl, ?_, ?_⟩
      · rw [if_neg hroot]
        exact hs₂
      · rw [if_neg hroot, if_neg hroot]
        exact hcell₂
  obtain ⟨s₃, hs₃, hstarted₃, hcell₃⟩ := hpublished
  rw [hs₃]
  obtain ⟨h, b, u, hu, hwf, hcount, -, -, hstep⟩ := collectSpan_cases tracer hstarted₃.wf span
  obtain ⟨hobjects, halloc, hrootU, hcellU⟩ := collectSpan_frame hu
  refine ⟨u, hu, ⟨?_, ?_, collectStep_wf hwf (by omega) hstep⟩, ?_⟩
  · rw [hrootU]
    exact hstarted₃.root
  · rw [hobjects, halloc]
    exact hstarted₃.ownPriority
  · have hf' : (s.objects span).isFinished = false := by simpa using hf
    rw [hobjects, hcellU]
    by_cases hroot : s.context.rootSpan = some span
    · rw [if_pos hroot] at hcell₃
      rw [if_pos ⟨hf', hroot⟩]
      exact hcell₃
    · rw [if_neg hroot] at hcell₃
      rw [if_neg fun hboth => hroot hboth.2]
      exact hcell₃

end TraceState

/-! ## Operations and what they publish -/

/-- An operation on a trace. -/
inductive Operation where
  /-- `StartSpan` with a span of the trace as parent. -/
  | startChildSpan (parent : SpanRef) (args : StartSpanArgs)
  /-- `span.SetTag`. -/
  | setTag (span : SpanRef) (key : String) (value : Option String)
  /-- `span.SetTraceSamplingPriority`. -/
  | setTraceSamplingPriority (span : SpanRef) (priority : SamplingPriority)
  /-- `span.Context.TraceContext.SamplingPriority = value`. -/
  | assignSamplingPriority (span : SpanRef) (value : Option SamplingPriority)
  /-- `span.Finish`. -/
  | finish (span : SpanRef) (duration : Int)
  /-- `Inject` of the span's context. -/
  | inject (span : SpanRef)

/-- A sampling priority made public. -/
inductive Published where
  /-- The value of the header that an injection sets. -/
  | header (value : Option String)
  /-- The metric of the root span when it is closed. -/
  | rootMetric (value : Option Float)

/-- What is published is this priority, or none. -/
def Published.Shows (priority : Option SamplingPriority) : Published → Prop
  | .header value => value = priority.map fun p => toString p.value
  | .rootMetric value => value = priority.map fun p => Float.ofInt p.value

/-- A carrier that keeps every header set on it. -/
def sentHeaders : IHeadersCollection (List (String × Option String)) where
  getValues headers name := headers.filterMap fun h => if h.1 = name then some h.2 else none
  set headers name value := some (headers ++ [(name, value)])

namespace Operation

/-- The span an operation is called on. -/
def span : Operation → SpanRef
  | startChildSpan parent _ => parent
  | setTag span _ _ => span
  | setTraceSamplingPriority span _ => span
  | assignSamplingPriority span _ => span
  | finish span _ => span
  | inject span => span

/-- Execute an operation; the priorities it makes public are those in the header that is injected
and in the metric of a root span that is closed with a priority. -/
def exec (tracer : Tracer) (s : TraceState) : Operation → Option (TraceState × List Published)
  | startChildSpan parent args => some (s.startChildSpan tracer parent args, [])
  | setTag span key value => some (s.setTag tracer span key value, [])
  | setTraceSamplingPriority _ priority => some (s.setTraceSamplingPriority priority, [])
  | assignSamplingPriority _ value => some (s.modifyContext fun c => c.setSamplingPriority value, [])
  | finish span duration =>
      (s.finish tracer span duration).map fun u =>
        if (s.objects span).isFinished = false ∧ s.context.rootSpan = some span ∧
            u.context.samplingPriority ≠ none then
          (u, [.rootMetric ((u.objects span).tags.getMetric Metrics.samplingPriority)])
        else (u, [])
  | inject span =>
      let (traceContext, headers) :=
        Propagation.inject sentHeaders (some s.context) (s.objects span).context []
      headers.map fun headers =>
        ({ s with context := traceContext.getD s.context },
          (sentHeaders.getValues headers HttpHeaderNames.samplingPriority).map .header)

/-- What an operation does to the priority of the trace and its lock. -/
def action (tracer : Tracer) (s : TraceState) :
    Operation → Option (LatchedCell.Action SamplingPriority)
  | startChildSpan _ _ => assignment (globalPriority tracer)
  | setTag span key value =>
      if (s.objects span).isFinished then none else assignment (tagPriority key value)
  | setTraceSamplingPriority _ priority => some (.assign (some priority))
  | assignSamplingPriority _ value => some (.assign value)
  | finish span _ =>
      if (s.objects span).isFinished = false ∧ s.context.rootSpan = some span then some .publish
      else none
  | inject _ => some .publish

/-- The operation is called on a span of the trace. -/
def Refers (s : TraceState) (op : Operation) : Prop := op.span < s.allocated

end Operation

/-- What an injection puts into the priority header. -/
theorem inject_sentHeaders (traceContext : TraceContext) (context : SpanContext)
    (hown : context.samplingPriority = none) :
    ∃ headers, Propagation.inject sentHeaders (some traceContext) context [] =
        (some traceContext.lockSamplingPriority, some headers) ∧
      sentHeaders.getValues headers HttpHeaderNames.samplingPriority =
        [traceContext.samplingPriority.map fun p => toString p.value] := by
  have hnames : HttpHeaderNames.traceId ≠ HttpHeaderNames.samplingPriority ∧
      HttpHeaderNames.parentId ≠ HttpHeaderNames.samplingPriority ∧
      HttpHeaderNames.origin ≠ HttpHeaderNames.samplingPriority := by decide
  obtain ⟨hne₁, hne₂, hne₃⟩ := hnames
  unfold Propagation.inject
  cases context.origin <;> simp [sentHeaders, hown, hne₁, hne₂, hne₃]

/-- **All that an operation does to the priority**: it succeeds, acts on the cell as its action
says, and publishes only when it locks, and then what the cell holds. -/
theorem Operation.exec_spec (tracer : Tracer) {s : TraceState} (hs : s.Started) {op : Operation}
    (hrefers : op.Refers s) :
    ∃ u out, op.exec tracer s = some (u, out) ∧ u.Started ∧
      u.cell = s.cell.stepOption (op.action tracer s) ∧
      ∀ x ∈ out, op.action tracer s = some .publish ∧ x.Shows s.cell.value := by
  cases op with
  | startChildSpan parent args =>
      obtain ⟨hstarted, hcell⟩ := TraceState.startChildSpan_spec tracer hs parent args
      exact ⟨_, _, rfl, hstarted, hcell, by simp⟩
  | setTag span key value =>
      obtain ⟨hframe, hcell⟩ := TraceState.setTag_spec tracer s span key value
      refine ⟨_, _, rfl, hframe.started hs, ?_, by simp⟩
      have haction : (setTag span key value).action tracer s =
          if (s.objects span).isFinished then none else assignment (tagPriority key value) := rfl
      rw [hcell, haction]
      split_ifs <;> rfl
  | setTraceSamplingPriority span priority =>
      have hframe := TraceState.TagFrame.setTraceSamplingPriority s priority
      exact ⟨_, _, rfl, hframe.started hs, TraceState.cell_setTraceSamplingPriority s priority,
        by simp⟩
  | assignSamplingPriority span value =>
      have hcontext : (s.context.setSamplingPriority value).rootSpan = s.context.rootSpan ∧
          (s.context.setSamplingPriority value).spans = s.context.spans := by
        unfold TraceContext.setSamplingPriority
        split_ifs <;> exact ⟨rfl, rfl⟩
      obtain ⟨hroot, hspans⟩ := hcontext
      refine ⟨_, _, rfl, ⟨?_, hs.ownPriority, ?_⟩,
        TraceContext.cell_setSamplingPriority s.context value, by simp⟩
      · show (s.context.setSamplingPriority value).rootSpan.isSome = true
        rw [hroot]
        exact hs.root
      · show (s.context.setSamplingPriority value).spans.WF s.heap
        rw [hspans]
        exact hs.wf
  | finish span duration =>
      obtain ⟨u, hu, hstarted, hcell⟩ := TraceState.finish_spec tracer hs span duration
      by_cases hroot : (s.objects span).isFinished = false ∧ s.context.rootSpan = some span
      · rw [if_pos hroot] at hcell
        obtain ⟨hcell, hmetric⟩ := hcell
        have hvalue : u.context.samplingPriority = s.context.samplingPriority :=
          (congrArg LatchedCell.value hcell).trans (LatchedCell.step_publish_value s.cell)
        have haction : (finish span duration).action tracer s = some .publish := if_pos hroot
        cases hp : s.context.samplingPriority with
        | none =>
            refine ⟨u, [], ?_, hstarted, ?_, by simp⟩
            · simp [exec, hu, hvalue, hp]
            · rw [haction]
              exact hcell
        | some p =>
            refine ⟨u, [.rootMetric (some (Float.ofInt p.value))], ?_, hstarted, ?_, ?_⟩
            · simp [exec, hu, hvalue, hp, hroot, hmetric p hp]
            · rw [haction]
              exact hcell
            · intro x hx
              rw [List.mem_singleton.mp hx]
              refine ⟨haction, ?_⟩
              show some (Float.ofInt p.value) = s.context.samplingPriority.map _
              rw [hp]
              rfl
      · rw [if_neg hroot] at hcell
        have haction : (finish span duration).action tracer s = none := if_neg hroot
        refine ⟨u, [], ?_, hstarted, ?_, by simp⟩
        · rw [exec, hu, Option.map_some, if_neg fun hall => hroot ⟨hall.1, hall.2.1⟩]
        · rw [haction]
          exact hcell
  | inject span =>
      obtain ⟨headers, hinject, hvalues⟩ :=
        inject_sentHeaders s.context (s.objects span).context (hs.ownPriority span hrefers)
      refine ⟨{ s with context := s.context.lockSamplingPriority },
        [.header (s.context.samplingPriority.map fun p => toString p.value)], ?_,
        ⟨?_, hs.ownPriority, ?_⟩, TraceContext.cell_lockSamplingPriority s.context, ?_⟩
      · simp only [exec, hinject, Option.map_some, Option.getD_some, hvalues, List.map_cons,
          List.map_nil]
      · have hroot : s.context.lockSamplingPriority.rootSpan = s.context.rootSpan := by
          unfold TraceContext.lockSamplingPriority
          cases s.context.samplingPriority <;> rfl
        show s.context.lockSamplingPriority.rootSpan.isSome = true
        rw [hroot]
        exact hs.root
      · have hspans : s.context.lockSamplingPriority.spans = s.context.spans := by
          unfold TraceContext.lockSamplingPriority
          cases s.context.samplingPriority <;> rfl
        show s.context.lockSamplingPriority.spans.WF s.heap
        rw [hspans]
        exact hs.wf
      · intro x hx
        rw [List.mem_singleton.mp hx]
        exact ⟨rfl, rfl⟩

/-! ## Runs -/

section runs

variable (tracer : Tracer) {s₀ : TraceState} {ops : List Operation}

/-- Every run on a trace that was started succeeds and ends in one. -/
theorem runOut_started (h₀ : s₀.Started)
    (hrefers : AllSteps (Operation.exec tracer) Operation.Refers s₀ ops) :
    ∃ s out, runOut (Operation.exec tracer) s₀ ops = some (s, out) ∧ s.Started := by
  refine runOut_invariant (I := fun _ (s : TraceState) => s.Started) h₀ ?_ ops hrefers
  intro out s op hs hop
  obtain ⟨u, new, hu, hstarted, -, -⟩ := op.exec_spec tracer hs hop
  exact ⟨u, new, hu, hstarted⟩

/-- Everything published so far is nothing or the value the trace is locked on. -/
def PublishedAgree (out : List Published) (s : TraceState) : Prop :=
  ∀ x ∈ out, x.Shows none ∨ ∃ p, s.cell.Agreed p ∧ x.Shows (some p)

/-- Every operation keeps what is published in agreement. -/
theorem PublishedAgree.step {out : List Published} {s : TraceState} (hagree : PublishedAgree out s)
    (hs : s.Started) {op : Operation} (hop : op.Refers s) :
    ∃ u new, op.exec tracer s = some (u, new) ∧ u.Started ∧ PublishedAgree (out ++ new) u ∧
      u.cell = s.cell.stepOption (op.action tracer s) := by
  obtain ⟨u, new, hu, hstarted, hcell, hnew⟩ := op.exec_spec tracer hs hop
  refine ⟨u, new, hu, hstarted, fun x hx => ?_, hcell⟩
  rcases List.mem_append.mp hx with hold | hfresh
  · rcases hagree x hold with hnone | ⟨p, hp, hshows⟩
    · exact Or.inl hnone
    · refine Or.inr ⟨p, ?_, hshows⟩
      rw [hcell]
      exact hp.stepOption _
  · obtain ⟨haction, hshows⟩ := hnew x hfresh
    cases hvalue : s.cell.value with
    | none =>
        rw [hvalue] at hshows
        exact Or.inl hshows
    | some p =>
        rw [hvalue] at hshows
        refine Or.inr ⟨p, ?_, hshows⟩
        rw [hcell, haction]
        exact LatchedCell.agreed_publish hvalue

/-- An operation other than the assignment of null keeps a priority where there is one. -/
theorem Operation.action_keeps_some {s : TraceState} {op : Operation}
    (hop : ∀ span, op ≠ .assignSamplingPriority span none) (hs : s.cell.value.isSome = true) :
    (s.cell.stepOption (op.action tracer s)).value.isSome = true := by
  have hassign : ∀ p : SamplingPriority, (s.cell.step (.assign (some p))).value.isSome = true := by
    intro p
    unfold LatchedCell.step
    split_ifs
    · exact hs
    · rfl
  have hassignment : ∀ p, (s.cell.stepOption (assignment p)).value.isSome = true := by
    intro p
    cases p with
    | none => exact hs
    | some p => exact hassign p
  have hpublish : (s.cell.step .publish).value.isSome = true := by
    rw [LatchedCell.step_publish_value]
    exact hs
  cases op with
  | startChildSpan parent args => exact hassignment _
  | setTag span key value =>
      simp only [action]
      split_ifs
      · exact hs
      · exact hassignment _
  | setTraceSamplingPriority span priority => exact hassign priority
  | assignSamplingPriority span value =>
      cases value with
      | none => exact absurd rfl (hop span)
      | some p => exact hassign p
  | finish span duration =>
      simp only [action]
      split_ifs
      · exact hpublish
      · exact hs
  | inject span => exact hpublish

/-- Everything published so far is the value the trace is locked on, and it has one. -/
def PublishedSame (out : List Published) (s : TraceState) : Prop :=
  s.cell.value.isSome = true ∧ ∀ x ∈ out, ∃ p, s.cell.Agreed p ∧ x.Shows (some p)

/-- Every operation but the assignment of null keeps what is published the same. -/
theorem PublishedSame.step {out : List Published} {s : TraceState} (hsame : PublishedSame out s)
    (hs : s.Started) {op : Operation} (hop : op.Refers s)
    (hnull : ∀ span, op ≠ .assignSamplingPriority span none) :
    ∃ u new, op.exec tracer s = some (u, new) ∧ u.Started ∧ PublishedSame (out ++ new) u := by
  obtain ⟨u, new, hu, hstarted, hcell, hnew⟩ := op.exec_spec tracer hs hop
  obtain ⟨hsome, hold⟩ := hsame
  refine ⟨u, new, hu, hstarted, ?_, fun x hx => ?_⟩
  · rw [hcell]
    exact op.action_keeps_some tracer hnull hsome
  · rw [hcell]
    rcases List.mem_append.mp hx with hx | hx
    · obtain ⟨p, hp, hshows⟩ := hold x hx
      exact ⟨p, hp.stepOption _, hshows⟩
    · obtain ⟨haction, hshows⟩ := hnew x hx
      obtain ⟨p, hp⟩ := Option.isSome_iff_exists.mp hsome
      rw [hp] at hshows
      refine ⟨p, ?_, hshows⟩
      rw [haction]
      exact LatchedCell.agreed_publish hp

end runs

/-- **One published sampling decision.** On a trace whose root span was started without a
propagated priority in the presence of a sampler, every sequence of operations on spans of the
trace succeeds; all priorities that it makes public are equal (an injection publishes no priority
only where null was assigned to the trace's priority); and once the priority is locked no
operation changes it. -/
theorem one_published_priority (tracer : Tracer) (heap : ArrayHeap SpanRef)
    (objects : SpanRef → Span) (parent : Option ISpanContext) (args : StartSpanArgs)
    (hparent : parentPriority parent = none) (hsampler : tracer.sampler.isSome = true)
    {ops : List Operation}
    (hrefers : AllSteps (Operation.exec tracer) Operation.Refers
      (startSpan tracer heap objects parent args) ops) :
    ∃ s out, runOut (Operation.exec tracer) (startSpan tracer heap objects parent args) ops =
        some (s, out) ∧
      (∃ p, ∀ x ∈ out, x.Shows none ∨ x.Shows (some p)) ∧
      ((∀ span, .assignSamplingPriority span none ∉ ops) → ∃ p, ∀ x ∈ out, x.Shows (some p)) ∧
      (s.context.samplingPriorityLocked = true → ∀ op : Operation, op.Refers s →
        ∃ u new, op.exec tracer s = some (u, new) ∧
          u.context.samplingPriority = s.context.samplingPriority ∧
          u.context.samplingPriorityLocked = true) := by
  obtain ⟨hstarted, -, hsampled⟩ := TraceState.startSpan_spec tracer heap objects parent args
  have hsome := hsampled hparent hsampler
  obtain ⟨s, out, hrun, hs, hagree⟩ := runOut_invariant
    (I := fun out (s : TraceState) => s.Started ∧ PublishedAgree out s)
    ⟨hstarted, fun x hx => absurd hx (by simp)⟩
    (fun out t op ht hop => by
      obtain ⟨u, new, hu, hu', hagree', -⟩ := ht.2.step tracer ht.1 hop
      exact ⟨u, new, hu, hu', hagree'⟩) ops hrefers
  refine ⟨s, out, hrun, ?_, fun hnull => ?_, fun hlocked op hop => ?_⟩
  · cases hvalue : s.cell.value with
    | none =>
        refine ⟨.autoKeep, fun x hx => ?_⟩
        rcases hagree x hx with hnone | ⟨q, hq, -⟩
        · exact Or.inl hnone
        · exact absurd (hvalue.symm.trans hq.2) (by simp)
    | some p =>
        refine ⟨p, fun x hx => ?_⟩
        rcases hagree x hx with hnone | ⟨q, hq, hshows⟩
        · exact Or.inl hnone
        · obtain rfl : p = q := Option.some.inj (hvalue.symm.trans hq.2)
          exact Or.inr hshows
  · have hall : AllSteps (Operation.exec tracer) (fun _ op =>
        ∀ span, op ≠ .assignSamplingPriority span none)
        (startSpan tracer heap objects parent args) ops := by
      rintro pre op hpre _ _ _ span rfl
      exact hnull span (hpre.subset (by simp))
    obtain ⟨s', out', hrun', -, hsome, hsame⟩ := runOut_invariant
      (I := fun out (s : TraceState) => s.Started ∧ PublishedSame out s)
      ⟨hstarted, hsome, fun x hx => absurd hx (by simp)⟩
      (fun out t op ht hop => ht.2.step tracer ht.1 hop.1 hop.2) ops (hrefers.and hall)
    rw [hrun, Option.some.injEq, Prod.mk.injEq] at hrun'
    obtain ⟨rfl, rfl⟩ := hrun'
    obtain ⟨p, hp⟩ := Option.isSome_iff_exists.mp hsome
    refine ⟨p, fun x hx => ?_⟩
    obtain ⟨q, hq, hshows⟩ := hsame x hx
    obtain rfl : p = q := Option.some.inj (hp.symm.trans hq.2)
    exact hshows
  · obtain ⟨u, new, hu, -, hcell, -⟩ := op.exec_spec tracer hs hop
    obtain ⟨hvalue, hlatched⟩ := LatchedCell.stepOption_of_latched (c := s.cell) hlocked
      (op.action tracer s)
    rw [← hcell] at hvalue hlatched
    exact ⟨u, new, hu, hvalue, hlatched⟩

/-- Arguments for a span with the default tags. -/
def plainArgs : StartSpanArgs where
  operationName := none
  tags := { type := commonTags }
  serviceName := none
  spanId := none
  newTraceId := 3
  newSpanId := 4

/-- A tracer whose sampler keeps every trace. -/
def samplingTracer : Tracer :=
  { flushingTracer with sampler := some fun span => (.autoKeep, span.tags) }

/-- Inject the context of the root span, ask for the trace to be dropped, and close the span. -/
def injectDropFinish : List Operation :=
  [.inject 0, .setTag 0 Tags.manualDrop (some "true"), .finish 0 5]

/-- The header and the metric of that run agree. -/
theorem one_published_priority_injectDropFinish :
    ∃ s out, runOut (Operation.exec samplingTracer)
        (startSpan samplingTracer [] (fun _ => plainSpan) none plainArgs) injectDropFinish =
        some (s, out) ∧
      ∃ p, ∀ x ∈ out, x.Shows (some p) := by
  have hrefers : AllSteps (Operation.exec samplingTracer) Operation.Refers
      (startSpan samplingTracer [] (fun _ => plainSpan) none plainArgs) injectDropFinish := by
    unfold injectDropFinish
    refine (allSteps_cons _ _ _ _ _).mpr ⟨Nat.one_pos, fun t new ht => ?_⟩
    obtain ⟨rfl, rfl⟩ := Prod.mk.inj (Option.some.inj ht)
    refine (allSteps_cons _ _ _ _ _).mpr ⟨Nat.one_pos, fun t new ht => ?_⟩
    obtain ⟨rfl, rfl⟩ := Prod.mk.inj (Option.some.inj ht)
    exact (allSteps_cons _ _ _ _ _).mpr ⟨Nat.one_pos, fun t new ht => allSteps_nil _ _ _⟩
  obtain ⟨s, out, hrun, -, hsame, -⟩ := one_published_priority samplingTracer []
    (fun _ => plainSpan) none plainArgs rfl rfl hrefers
  refine ⟨s, out, hrun, hsame ?_⟩
  intro span
  simp [injectDropFinish]

/-- **When a propagated decision is kept.** On a trace started from a propagated context with a
priority, that priority is the trace's at every moment of a run, and all that the run makes public,
exactly if the tags from the settings assign no other one when the root span starts, and no
operation that comes before the priority is locked assigns another one. -/
theorem propagated_priority_kept_iff (tracer : Tracer) (heap : ArrayHeap SpanRef)
    (objects : SpanRef → Span) (c : SpanContext) (args : StartSpanArgs) {p : SamplingPriority}
    (hp : c.samplingPriority = some p) {ops : List Operation}
    (hrefers : AllSteps (Operation.exec tracer) Operation.Refers
      (startSpan tracer heap objects (some (.propagated c)) args) ops) :
    (∀ pre, pre <+: ops → ∃ s out, runOut (Operation.exec tracer)
        (startSpan tracer heap objects (some (.propagated c)) args) pre = some (s, out) ∧
        s.context.samplingPriority = some p ∧ ∀ x ∈ out, x.Shows (some p)) ↔
      (∀ q, globalPriority tracer = some q → q = p) ∧
      AllSteps (Operation.exec tracer) (fun s op => ¬s.cell.Changes p (op.action tracer s))
        (startSpan tracer heap objects (some (.propagated c)) args) ops := by
  obtain ⟨hstarted, hcell, -⟩ :=
    TraceState.startSpan_spec tracer heap objects (some (.propagated c)) args
  have hcell := hcell p hp
  generalize startSpan tracer heap objects (some (.propagated c)) args = s₀ at *
  have hstart : s₀.cell.value = some p ↔ ∀ q, globalPriority tracer = some q → q = p := by
    rw [hcell, LatchedCell.stepOption_value_iff rfl]
    unfold LatchedCell.Changes assignment
    cases globalPriority tracer with
    | none => simp
    | some q => simp
  constructor
  · intro hkept
    obtain ⟨s, out, hrun, hvalue, -⟩ := hkept [] List.nil_prefix
    obtain ⟨rfl, rfl⟩ := Prod.mk.inj (Option.some.inj hrun)
    refine ⟨hstart.mp hvalue, fun pre op hpre t out ht => ?_⟩
    -- the state before the operation has the priority, and so has the state after it
    obtain ⟨t', out', ht', hvalueT, -⟩ := hkept pre ((List.prefix_append _ _).trans hpre)
    obtain ⟨rfl, rfl⟩ := Prod.mk.inj (Option.some.inj (ht.symm.trans ht'))
    obtain ⟨u, outU, hu, hvalueU, -⟩ := hkept (pre ++ [op]) hpre
    obtain ⟨t', out', ht'', hstartedT⟩ :=
      runOut_started tracer hstarted (hrefers.of_initial ((List.prefix_append _ _).trans hpre))
    obtain ⟨rfl, rfl⟩ := Prod.mk.inj (Option.some.inj (ht.symm.trans ht''))
    obtain ⟨u', new, hexec, -, hcellU, -⟩ :=
      op.exec_spec tracer hstartedT (hrefers pre op hpre t _ ht)
    rw [runOut_concat, ht, Option.bind_some, hexec, Option.map_some] at hu
    obtain ⟨rfl, -⟩ := Prod.mk.inj (Option.some.inj hu)
    have hafter : (t.cell.stepOption (op.action tracer t)).value = some p := by
      rw [← hcellU]
      exact hvalueU
    exact (LatchedCell.stepOption_value_iff hvalueT _).mp hafter
  · rintro ⟨hglobal, hsteps⟩ pre hpre
    have hvalue := hstart.mpr hglobal
    obtain ⟨s, out, hrun, -, hvalueS, hshows⟩ := runOut_invariant
      (I := fun out (s : TraceState) => s.Started ∧ s.cell.value = some p ∧
        ∀ x ∈ out, x.Shows (some p))
      ⟨hstarted, hvalue, fun x hx => absurd hx (by simp)⟩
      (fun out t op ht hop => by
        obtain ⟨htStarted, htValue, htOut⟩ := ht
        obtain ⟨u, new, hu, huStarted, hcellU, hnew⟩ := op.exec_spec tracer htStarted hop.1
        refine ⟨u, new, hu, huStarted, ?_, fun x hx => ?_⟩
        · rw [hcellU]
          exact (LatchedCell.stepOption_value_iff htValue _).mpr hop.2
        · rcases List.mem_append.mp hx with hx | hx
          · exact htOut x hx
          · rw [← htValue]
            exact (hnew x hx).2)
      pre ((hrefers.and hsteps).of_initial hpre)
    exact ⟨s, out, hrun, hvalueS, hshows⟩

/-- A context propagated with the decision to drop the trace. -/
def droppedUpstream : SpanContext where
  traceId := 1
  spanId := 2
  samplingPriority := some .userReject

/-- Inject the context of the root span, then ask for the trace to be kept. -/
def injectKeep : List Operation := [.inject 0, .setTag 0 Tags.manualKeep (some "true")]

/-- The propagated priority is kept in the run that injects before it asks to keep the trace. -/
theorem propagated_priority_kept_injectFirst :
    ∃ s out, runOut (Operation.exec flushingTracer)
        (startSpan flushingTracer [] (fun _ => plainSpan) (some (.propagated droppedUpstream))
          plainArgs) injectKeep = some (s, out) ∧
      s.context.samplingPriority = some .userReject ∧
      ∀ x ∈ out, x.Shows (some .userReject) := by
  refine (propagated_priority_kept_iff flushingTracer [] (fun _ => plainSpan) droppedUpstream
    plainArgs (p := .userReject) rfl ?_).mpr ⟨fun q hq => ?_, ?_⟩ injectKeep
      List.prefix_rfl
  · refine (allSteps_cons _ _ _ _ _).mpr ⟨Nat.one_pos, fun t new ht => ?_⟩
    obtain ⟨rfl, rfl⟩ := Prod.mk.inj (Option.some.inj ht)
    exact (allSteps_cons _ _ _ _ _).mpr ⟨Nat.one_pos, fun t new ht => allSteps_nil _ _ _⟩
  · exact absurd hq (by simp [globalPriority, lastPriority, flushingTracer])
  · refine (allSteps_cons _ _ _ _ _).mpr ⟨?_, fun t new ht => ?_⟩
    · rintro ⟨-, w, hw, -⟩
      simp [Operation.action] at hw
    · obtain ⟨rfl, rfl⟩ := Prod.mk.inj (Option.some.inj ht)
      refine (allSteps_cons _ _ _ _ _).mpr ⟨?_, fun t new ht => allSteps_nil _ _ _⟩
      rintro ⟨hunlocked, -⟩
      exact absurd hunlocked (by decide)

/-- **A propagated decision is overridden** by the tag `manual.keep` set on the root span: the
trace was propagated with `UserReject`, and the next injection sends `UserKeep` downstream. -/
theorem propagated_priority_overridden :
    droppedUpstream.samplingPriority = some .userReject ∧
      ∃ s out, runOut (Operation.exec flushingTracer)
        (startSpan flushingTracer [] (fun _ => plainSpan) (some (.propagated droppedUpstream))
          plainArgs) [.setTag 0 Tags.manualKeep (some "true"), .inject 0] = some (s, out) ∧
        s.context.samplingPriority = some .userKeep ∧
        s.context.samplingPriority ≠ droppedUpstream.samplingPriority ∧
        out = [.header (some "2")] :=
  ⟨rfl, _, _, rfl, rfl, by decide, rfl⟩

end DdTrace.Tracing
