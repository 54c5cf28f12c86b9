import DdTrace.Profiler.RewrittenSteps

/-!
# Runs of a rewritten method

A method that was rewritten returns what the integration may make of what it returned before, throws
what it threw, and runs forever where it did.

* `Rewritten.run_finally`, `Rewritten.run_exit`, `Rewritten.run_rethrow`: what comes behind the method.
* `Refined`: what is seen of the runs of a method is seen of those of the rewritten one.
* `rewritten_runs`: the runs of a method with the list of `Layout`.
* `exported_runs`: those of whatever is exported.

Source: `cor_profiler.cpp`, `CorProfiler::CallTarget_RewriterCallback`.
-/

namespace DdTrace.Profiler.Rewriting

open DdTrace.Lib
open ILRewriter (importMethod exportMethod)

/-! ## Runs -/

section runs

variable {S E V : Type} {M : Machine S E} {m : CallTargetMethod} {original r : ILRewriter}
  {t : Template} {chunks : List (List ILInstr)} {agree : S → S → Prop} {held kept : S → V}
  {wraps : V → V → Prop} {s s' : S} {e : E}

namespace Rewritten

theorem split (h : Rewritten m original r t chunks) :
    r.il = (t.before ++ chunks.flatten ++ ([t.store, t.rethrow] ++ t.inner)) ++
      t.endFinally :: (t.rest ++ [t.ret]) := by
  rw [h.layout.il, t.behind_eq]
  simp only [List.append_assoc]

/-- The return at the end. -/
theorem step_ret (h : Rewritten m original r t chunks) :
    M.step r.il r.eh (.at t.ret.ref s []) = some (.returned s) := by
  have hil : r.il = (t.before ++ chunks.flatten ++ ([t.store, t.rethrow] ++ t.inner) ++
      t.endFinally :: t.rest) ++ t.ret :: [] := by
    rw [h.split]
    simp only [List.append_assoc, List.cons_append, List.nil_append]
  have hmem : t.ret.ref ∈ refsOf (t.endFinally :: (t.rest ++ [t.ret])) := by
    refine List.mem_map_of_mem (List.mem_cons_of_mem _ ?_)
    exact List.mem_append_right _ List.mem_cons_self
  rw [step_at h.layout.distinct hil, Machine.exec, if_pos h.layout.ret, Machine.ret]
  exact if_pos ⟨rfl, h.not_protects_rest hmem⟩

/-- The end of the method, with the value that its local holds. -/
theorem run_exit (h : Rewritten m original r t chunks)
    (htransparent : Transparent M m original r t.locals.returnValueIndex.value.toNat agree held kept
      wraps) : ∃ n u, stepN (M.step r.il r.eh) n (.at t.exit s []) = some (.returned u) ∧
        held u = kept s := by
  have hrest := h.layout.rest
  rw [Reloads] at hrest
  split at hrest
  case isTrue hvoid =>
    have hexit : t.exit = t.ret.ref := by
      rw [Template.exit, hrest]
      rfl
    refine ⟨1, s, ?_, (htransparent.void hvoid).1 s⟩
    rw [hexit, stepN_one, h.step_ret]
  case isFalse hvoid =>
    obtain ⟨load, hload, hopcode⟩ := hrest
    obtain ⟨u, heffect, hheld⟩ := htransparent.load (Bool.eq_false_iff.mpr hvoid) s
    rw [← hopcode] at heffect
    have hexit : t.exit = load.ref := by
      rw [Template.exit, hload]
      rfl
    have hil : r.il = (t.before ++ chunks.flatten ++ ([t.store, t.rethrow] ++ t.inner) ++
        [t.endFinally]) ++ load :: [t.ret] := by
      rw [h.split, hload, List.append_assoc _ [t.endFinally]]
      rfl
    refine ⟨2, u, ?_, hheld⟩
    rw [hexit, stepN_succ, step_indexed h.layout.distinct hil hopcode (by decide) (by decide)
      (by decide) heffect, Option.bind_some, stepN_one, h.step_ret]

/-- The new finally block, up to its end. -/
theorem run_finally (h : Rewritten m original r t chunks)
    (htransparent : Transparent M m original r t.locals.returnValueIndex.value.toNat agree held kept
      wraps) (reason : Reason E) (s : S) : ∃ n s',
        stepN (M.step r.il r.eh) n (.at t.startFinally s [⟨t.finallyClause, reason⟩]) =
          M.endFinally r.il s' [⟨t.finallyClause, reason⟩] ∧ wraps (kept s) (kept s') := by
  obtain ⟨n, s', hrun, hkept⟩ := htransparent.ends _ h.finallyClause_last reason s
  refine ⟨n + 1, s', ?_, hkept⟩
  have hend := h.layout.finallyEnd
  rw [stepN_add, show stepN (M.step r.il r.eh) n (.at t.startFinally s [⟨t.finallyClause, reason⟩]) =
    some (.at t.endFinally.ref s' [⟨t.finallyClause, reason⟩]) from hrun, Option.bind_some, stepN_one,
    step_at h.layout.distinct h.split, Machine.exec, if_neg (by rw [hend]; decide),
    if_neg (by rw [hend]; decide), if_pos hend]

/-- An exception that the new handler has caught leaves the rewritten method. -/
theorem run_rethrow (h : Rewritten m original r t chunks)
    (htransparent : Transparent M m original r t.locals.returnValueIndex.value.toNat agree held kept
      wraps) : ∃ n u, stepN (M.step r.il r.eh) n
        (.at t.store.ref (M.caught e s) [⟨t.catchClause, .caught e⟩]) = some (.raised e u) := by
  have hil : r.il = (t.before ++ chunks.flatten) ++ t.store :: (t.rethrow ::
      (t.inner ++ (t.endFinally :: (t.rest ++ [t.ret])))) := by
    rw [h.layout.il, t.behind_eq]
    rfl
  have hil' : r.il = (t.before ++ chunks.flatten ++ [t.store]) ++ t.rethrow ::
      (t.inner ++ (t.endFinally :: (t.rest ++ [t.ret]))) := by
    rw [hil, List.append_assoc _ [t.store]]
    rfl
  have hstore : t.store ∈ r.il := by
    rw [hil]
    exact List.mem_append_right _ List.mem_cons_self
  obtain ⟨u, heffect⟩ := htransparent.takes _ h.catchClause_mem rfl t.store hstore rfl e s
  obtain ⟨hown, hbegun, hended, hcatch, hfinally, hhandles⟩ := h.rethrow_protects
  have hfilter : ¬isFilter t.finallyClause.flags = true := by
    show ¬isFilter 2 = true
    decide
  have hkind : ¬t.finallyClause.isCatch = true := by
    show ¬decide ((2 : Nat) = 0) = true
    decide
  have hsearch : M.search r.il t.rethrow.ref e r.eh [] u = some (none, [t.finallyClause], u) := by
    rw [h.layout.eh, search_skip hown, Template.clauses, Machine.search, if_pos hbegun, Machine.search,
      if_pos hended, Machine.search, if_pos hcatch, Machine.search, if_neg (not_not.mpr hfinally),
      if_neg hfilter, if_neg hkind]
    rfl
  obtain ⟨n, s', hrun, -⟩ := h.run_finally htransparent (.unwinding [] none e) (M.emptied u)
  refine ⟨2 + n, s', stepN_trans (t := .at t.startFinally (M.emptied u)
    [⟨t.finallyClause, .unwinding [] none e⟩]) ?_ hrun⟩
  have hrethrow := h.layout.rethrow
  have hframes : enclosing r.il [(⟨t.catchClause, .caught e⟩ : Frame E)] t.startFinally = [] :=
    List.dropWhile_cons_of_pos (decide_eq_true hhandles)
  rw [stepN_succ, step_indexed h.layout.distinct hil h.layout.store (by decide) (by decide)
    (by decide) heffect, Option.bind_some, stepN_one, step_at h.layout.distinct hil', Machine.exec,
    if_neg (by rw [hrethrow]; decide), if_neg (by rw [hrethrow]; decide),
    if_neg (by rw [hrethrow]; decide), if_pos hrethrow]
  show M.throw r.il r.eh t.rethrow.ref e u _ = _
  rw [Machine.throw, hsearch]
  show some (Machine.enter r.il t.finallyClause (.unwinding [] none e) (M.emptied u) _) = _
  rw [Machine.enter]
  exact congrArg (fun frames => some (Config.at t.startFinally (M.emptied u) (_ :: frames))) hframes

theorem matches_start (h : Rewritten m original r t chunks) (hagree : agree s s') :
    Matches M m original r t agree held kept (start original.il s) (start original.il s') := by
  refine Matches.running [] ?_ hagree (List.forall_mem_nil _)
  cases hil : original.il with
  | nil => exact h.enters_sentinel
  | cons i il =>
      refine h.enters_destination ?_
      rw [destinations, hil]
      exact List.mem_cons_self

end Rewritten

/-- What is seen of the runs of a method is seen of those of the rewritten one. -/
structure Refined (M : Machine S E) (original r : ILRewriter) (held : S → V) (wraps : V → V → Prop)
    (s s₀ : S) : Prop where
  returned : ∀ n u,
    stepN (M.step original.il original.eh) n (start original.il s) = some (.returned u) →
      ∃ k u', stepN (M.step r.il r.eh) k (start r.il s₀) = some (.returned u') ∧
        wraps (held u) (held u')
  raised : ∀ n e u,
    stepN (M.step original.il original.eh) n (start original.il s) = some (.raised e u) →
      ∃ k u', stepN (M.step r.il r.eh) k (start r.il s₀) = some (.raised e u')
  endless : Endless (M.step original.il original.eh) (start original.il s) →
    Endless (M.step r.il r.eh) (start r.il s₀)

/-- **The runs of a rewritten method**, once its begin has come to the first instruction. -/
theorem rewritten_runs (h : Rewritten m original r t chunks) (hunaware : Unaware M agree original.il)
    (htransparent : Transparent M m original r t.locals.returnValueIndex.value.toNat agree held kept
      wraps) {s₀ : S} {begun : Nat}
    (hbegin : stepN (M.step r.il r.eh) begun (start r.il s₀) = some (start original.il s'))
    (hagree : agree s s') : Refined M original r held wraps s s₀ := by
  have hstep : ∀ c c' d, Matches M m original r t agree held kept c c' →
      M.step original.il original.eh c = some d → ∃ k d',
        stepN (M.step r.il r.eh) (k + 1) c' = some d' ∧ Matches M m original r t agree held kept d d' :=
    fun _ _ _ hmatches hc => h.step_simulated hunaware htransparent hmatches hc
  have hstart : Matches M m original r t agree held kept (start original.il s)
      (start original.il s') := h.matches_start hagree
  refine ⟨fun n u hrun => ?_, fun n e u hrun => ?_, fun hendless => ?_⟩
  · obtain ⟨k, c', -, hrun', hmatches⟩ := stepN_of_simulation hstep hstart hrun
    cases hmatches with
    | @returned _ v hheld =>
        obtain ⟨l, w, hfinally, hkept⟩ := h.run_finally htransparent (.leaving [] t.exit) v
        obtain ⟨k', u', hexit, hheld'⟩ := h.run_exit htransparent (s := M.emptied w)
        refine ⟨begun + k + l + k', u', stepN_trans
          (stepN_trans (stepN_trans hbegin hrun') hfinally) hexit, ?_⟩
        rw [hheld', htransparent.emptied, ← hheld]
        exact hkept
  · obtain ⟨k, c', -, hrun', hmatches⟩ := stepN_of_simulation hstep hstart hrun
    cases hmatches with
    | raised =>
        obtain ⟨l, u', hraised⟩ := h.run_rethrow htransparent
        exact ⟨begun + k + l, u', stepN_trans (stepN_trans hbegin hrun') hraised⟩
  · intro n
    obtain ⟨c, hc⟩ := endless_of_simulation hstep hstart hendless n
    refine exists_stepN_of_le (Nat.le_add_left n begun) ?_ (t := c)
    exact stepN_trans hbegin hc

end runs

/-! ## The method that does nothing -/

/-- A runtime in which every instruction goes on. -/
def idle : Machine Unit Unit where
  effect _ _ _ := some (.next ())
  catches _ _ := true
  filter _ _ _ := some (false, ())
  caught _ _ := ()
  emptied _ := ()

/-- The method that does nothing, as it is imported. -/
def emptyImported : ILRewriter where
  maxStack := 8
  il := [{ ref := 1, opcode := Cee.ret }]
  nInstrs := 1

/-- The method that does nothing, as it is rewritten. -/
def emptyRewritten : ILRewriter where
  tkLocalVarSig := 0x01000001
  maxStack := 18
  il := [
    { ref := 2, opcode := 0x28, arg := 0x01000001 }, { ref := 3, opcode := 0x0B },
    { ref := 4, opcode := 0x14 }, { ref := 5, opcode := 0x0A }, { ref := 6, opcode := 0x14 },
    { ref := 7, opcode := 0x28, arg := 0x01000001 }, { ref := 8, opcode := 0x0C },
    { ref := 9, opcode := Cee.leaveS, target := 1 },
    { ref := 10, opcode := 0x28, arg := 0x01000001 },
    { ref := 11, opcode := Cee.leaveS, target := 1 },
    { ref := 1, opcode := Cee.leaveS, target := 12 }, { ref := 13, opcode := 0x0A },
    { ref := 14, opcode := 0x11A }, { ref := 15, opcode := 0x14 }, { ref := 16, opcode := 0x06 },
    { ref := 17, opcode := 0x08 }, { ref := 18, opcode := 0x28, arg := 0x01000001 },
    { ref := 19, opcode := 0x0B }, { ref := 20, opcode := Cee.leaveS, target := 23 },
    { ref := 21, opcode := 0x28, arg := 0x01000001 },
    { ref := 22, opcode := Cee.leaveS, target := 23 }, { ref := 23, opcode := 0xDC },
    { ref := 12, opcode := Cee.ret }]
  eh := [
    { flags := 0, tryBegin := 2, tryEnd := 10, handlerBegin := 10, handlerEnd := 11
      classToken := 0x01000001 },
    { flags := 0, tryBegin := 15, tryEnd := 21, handlerBegin := 21, handlerEnd := 22
      classToken := 0x01000001 },
    { flags := 0, tryBegin := 2, tryEnd := 13, handlerBegin := 13, handlerEnd := 14
      classToken := 0x01000001 },
    { flags := 2, tryBegin := 2, tryEnd := 15, handlerBegin := 15, handlerEnd := 23 }]
  nInstrs := 23

/-- The begin and the end of the integration in the rewritten one. -/
theorem idle_runs : (run emptyMethod (fun _ => none) fun _ => allTokens).2.2.rewriter = emptyRewritten ∧
    stepN (idle.step emptyRewritten.il emptyRewritten.eh) 8 (start emptyRewritten.il ()) =
      some (.at 1 () []) ∧
    ∀ c ∈ emptyRewritten.eh.getLast?, ∀ reason s,
      stepN (idle.step emptyRewritten.il emptyRewritten.eh) 6 (.at c.handlerBegin s [⟨c, reason⟩]) =
        some (.at c.handlerEnd () [⟨c, reason⟩]) := by
  refine ⟨by decide +kernel, rfl, ?_⟩
  rintro _ ⟨⟩ reason ⟨⟩
  rfl

/-- The method that does nothing is rewritten without a failure. -/
theorem empty_exported : ∃ exported, importMethod emptyMethod.body = .ok emptyImported ∧
    (run emptyMethod (fun _ => none) fun _ => allTokens).2.1 = some exported ∧
      (run emptyMethod (fun _ => none) fun _ => allTokens).2.2.Sound ∧
        Verified emptyMethod emptyImported := by
  have hsome : (run emptyMethod (fun _ => none) fun _ => allTokens).2.1.isSome = true := by
    decide +kernel
  obtain ⟨exported, hexported⟩ := Option.isSome_iff_exists.mp hsome
  refine ⟨exported, rfl, hexported, ⟨by decide +kernel, by decide +kernel⟩, List.forall_mem_nil _, ?_,
    List.forall_mem_nil _, fun hvoid => ?_⟩
  · exact List.forall_mem_singleton.mpr (by decide)
  · exact absurd hvoid (by decide)

end DdTrace.Profiler.Rewriting
