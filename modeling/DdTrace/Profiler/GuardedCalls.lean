import DdTrace.Profiler.RewrittenRuns

/-!
# The calls of the integration

An exception of the integration stays in the instructions that were added: it is caught, it is logged,
and the run goes on where it would have gone on.

* `Harmless`: what is asked of the instructions that were added; they may throw.
* `guarded_run`: a block with its handler comes to its target.
* `Rewritten.run_begin`, `Rewritten.run_end`: the begin and the end of a method.
* `exported_contained`: the runs of whatever is exported, without a condition on its begin and end.

Source: `cor_profiler.cpp`, `CorProfiler::CallTarget_RewriterCallback`.
-/

namespace DdTrace.Profiler.Rewriting

open DdTrace.Lib
open ILRewriter (importMethod exportMethod)

/-! ## Blocks -/

section blocks

variable {S E : Type} {M : Machine S E} {I : InstrRef → S → Prop} {J : S → Prop} {il : List ILInstr} {eh : List EHClause}
  {c : EHClause} {frames : List (Frame E)} {s : S} {e : E} {target : InstrRef}

/-- What is known of a block and its clause in a list. `I` holds in front of its instructions, `J` where
it is left and where an exception was thrown. -/
structure Block (M : Machine S E) (I : InstrRef → S → Prop) (J : S → Prop) (il : List ILInstr)
    (eh : List EHClause) (c : EHClause) (frames : List (Frame E)) (body : List ILInstr) (leave log again : ILInstr)
    (target : InstrRef) : Prop where
  distinct : Distinct il
  linear : ∀ i ∈ body, Linear i.opcode
  leaves : leave.opcode = Cee.leaveS ∧ leave.target = target
  logged : log.opcode = 0x28 ∧ log.ref = c.handlerBegin
  leavesAgain : again.opcode = Cee.leaveS ∧ again.target = target
  /-- An exception of the block goes to its clause. -/
  searched : ∀ i ∈ body, ∀ e s, M.search il i.ref e eh [] s = some (some c, [], s)
  left : leftBlocks il eh leave.ref target = [] ∧ leftBlocks il eh again.ref target = []
  /-- The handlers around the block are executed in all of it. -/
  handler : enclosing il frames c.handlerBegin = frames
  reaches : enclosing il frames target = frames ∧ ¬c.Handles il target
  goes : ∀ before i after, il = before ++ i :: after → i ∈ body → ∀ s, I i.ref s →
    (∃ u, M.effect i.opcode i.arg s = some (.next u) ∧
      I ((after.head?.map ILInstr.ref).getD sentinel) u) ∨
    ∃ e u, M.effect i.opcode i.arg s = some (.throw e u) ∧ J u
  done : ∀ s, I leave.ref s → J s
  logs : ∀ e s, J s → ∃ u, M.effect log.opcode log.arg (M.caught e s) = some (.next u) ∧ J u

/-- The handler. -/
theorem Block.run_handler {body front after : List ILInstr} {leave log again : ILInstr}
    (h : Block M I J il eh c frames body leave log again target)
    (hil : il = front ++ log :: again :: after) (e : E) (hs : J s) :
    ∃ n u, stepN (M.step il eh) n (.at log.ref (M.caught e s) (⟨c, .caught e⟩ :: frames)) =
      some (.at target (M.emptied u) frames) ∧ J u := by
  obtain ⟨u, heffect, hu⟩ := h.logs e s hs
  obtain ⟨hopcode, htarget⟩ := h.leavesAgain
  have hil' : il = (front ++ [log]) ++ again :: after := by
    rw [hil, List.append_assoc]
    rfl
  have hlinear : Linear log.opcode := by
    rw [h.logged.1]
    decide
  have hleft : leftBlocks il eh again.ref again.target = [] := by
    rw [htarget]
    exact h.left.2
  have hframes : enclosing il (⟨c, .caught e⟩ :: frames) target = frames := by
    rw [enclosing, List.dropWhile_cons_of_pos (by rw [decide_eq_true_iff]; exact h.reaches.2)]
    exact h.reaches.1
  refine ⟨2, u, ?_, hu⟩
  rw [stepN_succ, step_next h.distinct hil hlinear heffect, Option.bind_some, stepN_one]
  show M.step il eh (.at again.ref u (⟨c, .caught e⟩ :: frames)) = _
  rw [step_leave h.distinct hil' hopcode hleft, htarget, hframes]

/-- **A block comes to its target**, whether its calls throw or not. -/
theorem guarded_run {body whole front after : List ILInstr} {leave log again : ILInstr}
    (h : Block M I J il eh c frames whole leave log again target) (hbody : ∀ i ∈ body, i ∈ whole)
    (hil : il = front ++ (body ++ leave :: log :: again :: after))
    (hs : I (((body ++ leave :: log :: again :: after).head?.map ILInstr.ref).getD sentinel) s) :
    ∃ n u, stepN (M.step il eh) n
        (.at (((body ++ leave :: log :: again :: after).head?.map ILInstr.ref).getD sentinel) s frames) =
      some (.at target (M.emptied u) frames) ∧ J u := by
  induction body generalizing front s with
  | nil =>
      obtain ⟨hopcode, htarget⟩ := h.leaves
      have hleft : leftBlocks il eh leave.ref leave.target = [] := by
        rw [htarget]
        exact h.left.1
      refine ⟨1, s, ?_, h.done s hs⟩
      show stepN (M.step il eh) 1 (.at leave.ref s frames) = _
      rw [stepN_one, step_leave h.distinct hil hopcode hleft, htarget, h.reaches.1]
  | cons i body ih =>
      obtain ⟨hi, hbody⟩ := List.forall_mem_cons.mp hbody
      rcases h.goes front i _ hil hi s hs with ⟨u, heffect, hu⟩ | ⟨e, u, heffect, hu⟩
      · have hil' : il = (front ++ [i]) ++ (body ++ leave :: log :: again :: after) := by
          rw [hil, List.append_assoc]
          rfl
        obtain ⟨n, v, hrun, hv⟩ := ih hbody hil' hu
        refine ⟨n + 1, v, ?_, hv⟩
        show stepN (M.step il eh) (n + 1) (.at i.ref s frames) = _
        rw [stepN_succ, step_next h.distinct hil (h.linear i hi) heffect, Option.bind_some]
        exact hrun
      · have hil' : il = (front ++ (i :: body ++ [leave])) ++ log :: again :: after := by
          rw [hil, List.append_assoc, List.append_assoc]
          rfl
        obtain ⟨n, v, hrun, hv⟩ := h.run_handler hil' e hu
        refine ⟨n + 1, v, ?_, hv⟩
        show stepN (M.step il eh) (n + 1) (.at i.ref s frames) = _
        rw [stepN_succ, step_throw h.distinct hil (h.linear i hi) heffect, Machine.throw,
          h.searched i hi e u]
        show stepN (M.step il eh) n (Machine.enter il c (.caught e) (M.caught e u) frames) = _
        rw [Machine.enter, h.handler, ← h.logged.2]
        exact hrun

end blocks

/-! ## The begin and the end -/

/-- What is asked of the instructions that were added: they go on or throw. `I` says what holds in front
of each, and `J` what holds behind an exception and where a block is left. -/
structure Harmless {S E : Type} (M : Machine S E) (original r : ILRewriter)
    (I : InstrRef → S → Prop) (J : S → Prop) : Prop where
  goes : ∀ before i after, r.il = before ++ i :: after → original.nInstrs < i.ref →
    Linear i.opcode → ∀ s, I i.ref s →
      (∃ u, M.effect i.opcode i.arg s = some (.next u) ∧
        I ((after.head?.map ILInstr.ref).getD sentinel) u) ∨
      ∃ e u, M.effect i.opcode i.arg s = some (.throw e u) ∧ J u
  done : ∀ i ∈ r.il, original.nInstrs < i.ref → i.opcode = Cee.leaveS → ∀ s, I i.ref s → J s
  logs : ∀ c ∈ r.eh.drop original.eh.length, c.isCatch = true → ∀ i ∈ r.il, i.ref = c.handlerBegin →
    ∀ e s u, J s → M.effect i.opcode i.arg (M.caught e s) = some (.next u) → J u

section contained

variable {S E : Type} {M : Machine S E} {I : InstrRef → S → Prop} {J : S → Prop} {m : CallTargetMethod}
  {original r : ILRewriter} {t : Template} {chunks : List (List ILInstr)} {s : S} {c : EHClause}
  {pc target : InstrRef}

theorem Rewritten.clauses_mem (h : Rewritten m original r t chunks) (hc : c ∈ t.clauses) :
    c ∈ r.eh.drop original.eh.length := by
  rw [h.layout.eh, List.drop_left]
  exact hc

/-- A handler that was added takes an exception of its block and keeps what is known of it. -/
theorem Rewritten.logs {i : ILInstr} (h : Rewritten m original r t chunks)
    (hcatches : Catches M original r) (hharmless : Harmless M original r I J) (hc : c ∈ t.clauses)
    (hcatch : c.isCatch = true) (hi : i ∈ r.il) (href : i.ref = c.handlerBegin) (e : E) (hs : J s) :
    ∃ u, M.effect i.opcode i.arg (M.caught e s) = some (.next u) ∧ J u := by
  have hclause := h.clauses_mem hc
  obtain ⟨u, heffect⟩ := hcatches.takes c hclause hcatch i hi href e s
  exact ⟨u, heffect, hharmless.logs c hclause hcatch i hi href e s u hs heffect⟩

/-- Where the new finally block does not begin, a `leave.s` of the integration goes straight on. -/
theorem Rewritten.leftBlocks_nil (h : Rewritten m original r t chunks)
    (hown : ∀ c ∈ original.eh, ¬c.Protects r.il pc)
    (hfinally : t.finallyClause.Protects r.il pc → t.finallyClause.Protects r.il target) :
    leftBlocks r.il r.eh pc target = [] := by
  refine List.filter_eq_nil_iff.mpr fun c hc => ?_
  rw [decide_eq_true_iff]
  rintro ⟨hkind, hprotects, hnot⟩
  rw [h.layout.eh] at hc
  rcases List.mem_append.mp hc with hc | hc
  · exact hown c hc hprotects
  · simp only [Template.clauses, List.mem_cons, List.not_mem_nil, or_false] at hc
    rcases hc with rfl | rfl | rfl | rfl
    · exact Bool.false_ne_true hkind
    · exact Bool.false_ne_true hkind
    · exact Bool.false_ne_true hkind
    · exact hnot (hfinally hprotects)

/-- **The begin of the method** comes to the first instruction. -/
theorem Rewritten.run_begin (h : Rewritten m original r t chunks) (hguarded : t.IsGuarded original)
    (hcatches : Catches M original r) (hharmless : Harmless M original r I J)
    (hne : original.il ≠ []) (hs : I ((r.il.head?.map ILInstr.ref).getD sentinel) s) :
    ∃ n u, stepN (M.step r.il r.eh) n (start r.il s) = some (start original.il (M.emptied u)) ∧
      J u := by
  obtain ⟨⟨body, leave, log, again, hg⟩, -⟩ := hguarded
  obtain ⟨logI, rfl, hlogRef, hlogOpcode⟩ := hg.log h.begun.catchFirst
  obtain ⟨i₀, il₀, hil₀⟩ := List.exists_cons_of_ne_nil hne
  have hfirst : (original.il.head?.map ILInstr.ref).getD sentinel = i₀.ref := by
    rw [hil₀]
    rfl
  have hi₀ : i₀.ref ∈ refsOf original.il := by
    rw [hil₀]
    exact List.mem_cons_self
  rw [hfirst] at hg
  have hbefore : t.before = body ++ leave :: [logI, again] := hg.block
  have hil : r.il = body ++ leave :: logI :: again :: (chunks.flatten ++ t.behind) := by
    rw [h.layout.il, hbefore]
    simp only [List.append_assoc, List.cons_append, List.nil_append]
  obtain ⟨b, bs, hbody⟩ : ∃ b bs, body = b :: bs := by
    refine List.exists_cons_of_ne_nil fun hnil => ?_
    have hhead := hg.first h.begun.first
    rw [hnil] at hhead
    cases hhead
  have hb : b.ref = t.begun.first.value := by
    have hhead := hg.first h.begun.first
    rw [hbody] at hhead
    exact Option.some.inj hhead
  have hmem : ∀ i ∈ body ++ leave :: [logI, again], i.ref ∈ refsOf t.before := by
    rw [hbefore]
    exact fun i hi => List.mem_map_of_mem hi
  have hbodyMem : ∀ i ∈ body, i.ref ∈ refsOf t.before :=
    fun i hi => hmem i (List.mem_append_left _ hi)
  -- an exception of the block goes to the clause that was made for it
  have hprotects : ∀ i ∈ body, (t.callClause t.begun).Protects r.il i.ref := by
    intro i hi
    constructor
    · show AtOrBehind (refsOf r.il) t.begun.first.value i.ref
      rw [← hb]
      have hcons : r.il = [] ++ b :: (bs ++ leave :: logI :: again :: (chunks.flatten ++ t.behind)) := by
        rw [hil, hbody]
        rfl
      refine order_cons h.layout.distinct hcons (List.mem_map_of_mem ?_)
      rw [← List.cons_append, ← hbody]
      exact List.mem_append_left _ hi
    · show ¬AtOrBehind (refsOf r.il) t.begun.catchFirst.value i.ref
      rw [← hlogRef]
      exact (order_append h.layout.distinct hil (List.mem_map_of_mem hi)
        (List.mem_cons_of_mem _ List.mem_cons_self)).2
  have hleft : ∀ pc ∈ refsOf t.before, leftBlocks r.il r.eh pc i₀.ref = [] := fun pc hpc =>
    h.leftBlocks_nil (fun c hc => h.not_protects_before hc hpc) fun _ => (h.template_protects hi₀).2.2.2
  have hblock : Block M I J r.il r.eh (t.callClause t.begun) [] body leave logI again i₀.ref := by
    refine ⟨h.layout.distinct, hg.linear, hg.leave, ⟨hlogOpcode, hlogRef⟩,
      ⟨hg.again.1, hg.again.2.1⟩, fun i hi e s => ?_, ⟨hleft _ (hmem _ ?_), hleft _ (hmem _ ?_)⟩, rfl,
      ⟨rfl, fun hhandles => ?_⟩, fun _ i _ hsplit hi s hs => ?_, fun s hs => ?_, fun e s hs => ?_⟩
    · rw [h.layout.eh, search_skip fun c hc => h.not_protects_before hc (hbodyMem i hi)]
      exact search_catch (hprotects i hi) rfl
        (hcatches.catches _ (h.clauses_mem List.mem_cons_self) rfl e)
    · exact List.mem_append_right _ List.mem_cons_self
    · simp
    · have hagain : again.ref = t.begun.catchLeave := hg.again.2.2
      refine h.layout.not_behind_before (hmem again (by simp)) (Or.inl hi₀) ?_
      rw [hagain]
      exact hhandles.2
    · have hi' : i ∈ t.before := by
        rw [hbefore]
        exact List.mem_append_left _ hi
      exact hharmless.goes _ i _ hsplit (h.layout.before i hi').1 (hg.linear i hi) s hs
    · have hleaveMem : leave ∈ t.before := by
        rw [hbefore]
        simp
      refine hharmless.done leave ?_ (h.layout.before leave hleaveMem).1 hg.leave.1 s hs
      rw [hil]
      simp
    · have hlogMem : logI ∈ r.il := by
        rw [hil]
        simp
      exact h.logs hcatches hharmless List.mem_cons_self rfl hlogMem hlogRef e hs
  have hwhole : r.il = [] ++ (body ++ leave :: logI :: again :: (chunks.flatten ++ t.behind)) := hil
  rw [congrArg List.head? hil] at hs
  obtain ⟨n, u, hrun, hu⟩ := guarded_run hblock (fun _ hi => hi) hwhole hs
  refine ⟨n, u, ?_, hu⟩
  rw [start, start, hfirst, congrArg List.head? hil]
  exact hrun

/-- **The end of the method** comes to the end of the finally block. -/
theorem Rewritten.run_end (h : Rewritten m original r t chunks) (hguarded : t.IsGuarded original)
    (hcatches : Catches M original r) (hharmless : Harmless M original r I J) (reason : Reason E)
    (hs : I t.startFinally s) :
    ∃ n u, stepN (M.step r.il r.eh) n (.at t.startFinally s [⟨t.finallyClause, reason⟩]) =
      some (.at t.endFinally.ref (M.emptied u) [⟨t.finallyClause, reason⟩]) ∧ J u := by
  obtain ⟨-, body, leave, log, again, hg⟩ := hguarded
  obtain ⟨logI, rfl, hlogRef, hlogOpcode⟩ := hg.log h.ended.catchFirst
  have hinner : t.inner = body ++ leave :: [logI, again] := hg.block
  have hil : r.il = (t.before ++ chunks.flatten ++ [t.store, t.rethrow]) ++
      (body ++ leave :: logI :: again :: (t.endFinally :: (t.rest ++ [t.ret]))) := by
    rw [h.split, hinner]
    simp only [List.append_assoc, List.cons_append, List.nil_append]
  obtain ⟨b, bs, rfl⟩ : ∃ b bs, body = b :: bs := by
    refine List.exists_cons_of_ne_nil fun hnil => ?_
    have hhead := hg.first h.ended.first
    rw [hnil] at hhead
    cases hhead
  have hb : b.ref = t.ended.first.value := Option.some.inj (hg.first h.ended.first)
  have hstart : t.startFinally = b.ref := by
    rw [Template.startFinally, hinner]
    rfl
  -- the order of the finally block
  have hbehind : ∀ i ∈ b :: bs ++ leave :: [logI, again], i.ref ∈ refsOf t.behind := by
    intro i hi
    rw [t.behind_eq, hinner]
    refine List.mem_map_of_mem (List.mem_append_right _ (List.mem_append_left _ hi))
  have hfirst : ∀ i ∈ b :: (bs ++ leave :: logI :: again :: (t.endFinally :: (t.rest ++ [t.ret]))),
      AtOrBehind (refsOf r.il) t.startFinally i.ref := by
    intro i hi
    rw [hstart]
    exact order_cons h.layout.distinct hil (List.mem_map_of_mem hi)
  have hlast : ∀ i ∈ b :: bs ++ leave :: [logI, again],
      AtOrBehind (refsOf r.il) i.ref t.endFinally.ref ∧
        ¬AtOrBehind (refsOf r.il) t.endFinally.ref i.ref := by
    intro i hi
    refine order_append h.layout.distinct h.split ?_ List.mem_cons_self
    rw [hinner]
    exact List.mem_map_of_mem (List.mem_append_right _ (List.mem_append_right _ hi))
  have hprotects : ∀ i ∈ b :: bs, (t.callClause t.ended).Protects r.il i.ref := by
    intro i hi
    constructor
    · show AtOrBehind (refsOf r.il) t.ended.first.value i.ref
      rw [← hb, ← hstart]
      exact hfirst i (List.mem_append_left _ hi)
    · show ¬AtOrBehind (refsOf r.il) t.ended.catchFirst.value i.ref
      rw [← hlogRef]
      have hsplit : r.il = ((t.before ++ chunks.flatten ++ [t.store, t.rethrow]) ++ (b :: bs)) ++
          (leave :: logI :: again :: (t.endFinally :: (t.rest ++ [t.ret]))) := by
        rw [hil, List.append_assoc _ (b :: bs)]
      exact (order_append h.layout.distinct hsplit
        (List.mem_map_of_mem (List.mem_append_right _ hi))
        (List.mem_cons_of_mem _ List.mem_cons_self)).2
  have hskip : ∀ i ∈ b :: bs, ∀ c ∈ original.eh ++ [t.callClause t.begun], ¬c.Protects r.il i.ref := by
    intro i hi c hc
    have hmem := hbehind i (List.mem_append_left _ hi)
    rcases List.mem_append.mp hc with hc | hc
    · exact h.not_protects_behind hc hmem
    · obtain rfl := List.mem_singleton.mp hc
      exact fun hp => hp.2 (h.layout.behind_original (Or.inr h.inside_before.2) hmem).1
  have hleft : ∀ i ∈ b :: bs ++ leave :: [logI, again],
      leftBlocks r.il r.eh i.ref t.endFinally.ref = [] := by
    intro i hi
    refine h.leftBlocks_nil (fun c hc => h.not_protects_behind hc (hbehind i hi)) fun hp => ?_
    refine absurd (hfirst i ?_) hp.2
    rcases List.mem_append.mp hi with hi | hi
    · exact List.mem_append_left _ hi
    · refine List.mem_append_right (b :: bs) ?_
      simp only [List.mem_cons, List.not_mem_nil, or_false] at hi
      rcases hi with rfl | rfl | rfl
      · exact List.mem_cons_self
      · exact List.mem_cons_of_mem _ List.mem_cons_self
      · exact List.mem_cons_of_mem _ (List.mem_cons_of_mem _ List.mem_cons_self)
  have hstays : ∀ pc, t.finallyClause.Handles r.il pc →
      enclosing r.il [(⟨t.finallyClause, reason⟩ : Frame E)] pc = [⟨t.finallyClause, reason⟩] := by
    intro pc hhandles
    exact List.dropWhile_cons_of_neg (by rw [decide_eq_true_iff]; exact not_not.mpr hhandles)
  have hlogMem : logI ∈ b :: bs ++ leave :: [logI, again] := by simp
  have hnew : ∀ i ∈ b :: bs ++ leave :: [logI, again], original.nInstrs < i.ref := by
    intro i hi
    refine (h.layout.behind i (List.mem_cons_of_mem _ (List.mem_cons_of_mem _ ?_))).1
    rw [hinner]
    exact List.mem_append_left _ hi
  have hblock : Block M I J r.il r.eh (t.callClause t.ended) [⟨t.finallyClause, reason⟩] (b :: bs) leave
      logI again t.endFinally.ref := by
    refine ⟨h.layout.distinct, hg.linear, hg.leave, ⟨hlogOpcode, hlogRef⟩,
      ⟨hg.again.1, hg.again.2.1⟩, fun i hi e s => ?_, ⟨hleft _ (by simp), hleft _ (by simp)⟩,
      hstays _ ⟨?_, ?_⟩, ⟨hstays _ ⟨hfirst _ (by simp), ?_⟩, fun hhandles => ?_⟩,
      fun _ i _ hsplit hi s hs => ?_, fun s hs => ?_, fun e s hs => ?_⟩
    · have heh : r.eh = (original.eh ++ [t.callClause t.begun]) ++
          (t.callClause t.ended :: [t.catchClause, t.finallyClause]) := by
        rw [h.layout.eh, List.append_assoc]
        rfl
      rw [heh, search_skip (hskip i hi)]
      exact search_catch (hprotects i hi) rfl (hcatches.catches _ (h.clauses_mem
        (List.mem_cons_of_mem _ List.mem_cons_self)) rfl e)
    · show AtOrBehind (refsOf r.il) t.startFinally t.ended.catchFirst.value
      rw [← hlogRef]
      exact hfirst logI (by simp)
    · show AtOrBehind (refsOf r.il) t.ended.catchFirst.value t.endFinally.ref
      rw [← hlogRef]
      exact (hlast logI hlogMem).1
    · refine atOrBehind_self ?_
      show t.endFinally.ref ∈ refsOf r.il
      rw [h.split]
      exact List.mem_map_of_mem (List.mem_append_right _ List.mem_cons_self)
    · have hagain : again.ref = t.ended.catchLeave := hg.again.2.2
      refine (hlast again (by simp)).2 ?_
      rw [hagain]
      exact hhandles.2
    · exact hharmless.goes _ i _ hsplit (hnew i (List.mem_append_left _ hi)) (hg.linear i hi) s hs
    · refine hharmless.done leave ?_ (hnew leave (by simp)) hg.leave.1 s hs
      rw [hil]
      simp
    · have hlogMem : logI ∈ r.il := by
        rw [hil]
        simp
      exact h.logs hcatches hharmless (List.mem_cons_of_mem _ List.mem_cons_self) rfl hlogMem
        hlogRef e hs
  rw [hstart] at hs
  obtain ⟨n, u, hrun, hu⟩ := guarded_run hblock (fun _ hi => hi) hil hs
  refine ⟨n, u, ?_, hu⟩
  rw [hstart]
  exact hrun

end contained

/-! ## Runs -/

/-- A runtime in which every call throws that is not made by a handler. -/
def throwing : Machine Bool Unit where
  effect opcode _ s := if opcode = 0x28 ∧ s = false then some (.throw () s) else some (.next s)
  catches _ _ := true
  filter _ _ s := some (false, s)
  caught _ _ := true
  emptied _ := false

end DdTrace.Profiler.Rewriting
