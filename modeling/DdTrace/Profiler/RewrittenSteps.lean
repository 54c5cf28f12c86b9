import DdTrace.Profiler.ILMachine
import DdTrace.Profiler.RewrittenClauses

/-!
# Steps of a rewritten method

A run of a rewritten method beside one of the method.

* `Enters`: where the rewritten method goes on for an instruction of the method.
* `Unaware`: the instructions of the method do not reach the locals that were added.
* `Catches`, `Carries`, `Transparent`: what is asked of the runtime and of the end of the integration.
* `Matches`: the configurations of the method and those of the rewritten one.
* `Rewritten.step_simulated`: each step of the method is one or two steps of the rewritten one.

Source: `cor_profiler.cpp`, `CorProfiler::CallTarget_RewriterCallback`.
-/

namespace DdTrace.Profiler

open Rewriting

/-! ## Frames -/

/-- What left the method goes to a clause of the rewritten one. -/
def Reason.through {E : Type} (c : EHClause) : Reason E → Reason E
  | .leaving todo target => .leaving todo target
  | .unwinding todo found e => .unwinding todo (some (found.getD c)) e
  | .caught e => .caught e

def Frame.through {E : Type} (c : EHClause) (f : Frame E) : Frame E := ⟨f.clause, f.reason.through c⟩

/-- The clauses and the targets are those of the method. -/
def Reason.Own {E : Type} (original : ILRewriter) : Reason E → Prop
  | .leaving todo target => (∀ c ∈ todo, c ∈ original.eh) ∧ target ∈ refsOf original.il ∧
      target ∈ destinations original
  | .unwinding todo found _ => (∀ c ∈ todo, c ∈ original.eh) ∧ ∀ c ∈ found, c ∈ original.eh
  | .caught _ => True

structure Frame.Own {E : Type} (original : ILRewriter) (f : Frame E) : Prop where
  clause : f.clause ∈ original.eh
  reason : f.reason.Own original

end DdTrace.Profiler

namespace DdTrace.Profiler.Rewriting

open DdTrace.Lib

/-! ## The instructions -/

/-- An instruction is found by its pointer. -/
theorem find?_ref {before after : List ILInstr} {i : ILInstr} (h : Distinct (before ++ i :: after)) :
    ((before ++ i :: after).find? fun j => j.ref = i.ref) = some i := by
  have hbefore : (before.find? fun j => j.ref = i.ref) = none :=
    List.find?_eq_none.mpr fun j hj => by
      rw [decide_eq_true_iff]
      exact ne_head h j hj
  rw [List.find?_append, hbefore, Option.none_or]
  exact List.find?_cons_of_pos (decide_eq_true rfl)

/-- The instruction behind another one. -/
theorem next_of_eq {il before after : List ILInstr} {i : ILInstr} (h : Distinct il)
    (hil : il = before ++ i :: after) :
    ILRewriter.next il i.ref = some ((after.head?.map ILInstr.ref).getD sentinel) := by
  rw [hil]
  exact next_append (hil ▸ h)

theorem eq_of_ref {il : List ILInstr} (h : Distinct il) {i j : ILInstr} (hi : i ∈ il) (hj : j ∈ il)
    (href : j.ref = i.ref) : j = i := by
  obtain ⟨before, after, rfl⟩ := List.append_of_mem hi
  obtain ⟨before', after', heq⟩ := List.append_of_mem hj
  have hfind := find?_ref (heq ▸ h)
  rw [← heq, href, find?_ref h] at hfind
  exact (Option.some.inj hfind).symm

/-- Where an instruction of the method is, and what it was changed to. -/
structure Placed (m : CallTargetMethod) (original r : ILRewriter) (t : Template) (i : ILInstr)
    (before rest front chunk : List ILInstr) (chunksBehind : List (List ILInstr)) : Prop where
  original : original.il = before ++ i :: rest
  rewritten : r.il = front ++ chunk ++ (chunksBehind.flatten ++ t.behind)
  changed : Changed m t.locals t.exit i chunk
  behind : List.Forall₂ (Changed m t.locals t.exit) rest chunksBehind

/-- An instruction of the rewritten method is the first of those that one of the method was changed to. -/
def Enters (m : CallTargetMethod) (original r : ILRewriter) (t : Template) (pc pc' : InstrRef) : Prop :=
  ∀ i ∈ original.il, i.ref = pc → ∃ before rest front chunk chunksBehind,
    Placed m original r t i before rest front chunk chunksBehind ∧
      chunk.head?.map ILInstr.ref = some pc'

section instructions

variable {m : CallTargetMethod} {original r : ILRewriter} {t : Template}
  {chunks : List (List ILInstr)} {i : ILInstr} {pc pc' : InstrRef}
  {before rest front chunk : List ILInstr} {chunksBehind : List (List ILInstr)}

theorem exists_placed {before il rest : List ILInstr} (hil : r.il = before ++ chunks.flatten ++ t.behind)
    (hchunks : List.Forall₂ (Changed m t.locals t.exit) (il ++ i :: rest) chunks) :
    ∃ front chunk chunksBehind, r.il = front ++ chunk ++ (chunksBehind.flatten ++ t.behind) ∧
      Changed m t.locals t.exit i chunk ∧
        List.Forall₂ (Changed m t.locals t.exit) rest chunksBehind := by
  induction il generalizing before chunks with
  | nil =>
      cases hchunks with
      | @cons _ chunk _ chunks hchanged hchunks =>
          refine ⟨before, chunk, chunks, ?_, hchanged, hchunks⟩
          rw [hil, List.flatten_cons, List.append_assoc, List.append_assoc, List.append_assoc]
  | cons j il ih =>
      cases hchunks with
      | @cons _ chunk _ chunks hchanged hchunks =>
          refine ih (?_ : r.il = (before ++ chunk) ++ chunks.flatten ++ t.behind) hchunks
          rw [hil, List.flatten_cons, List.append_assoc, List.append_assoc, List.append_assoc,
            List.append_assoc]

theorem Placed.mem (h : Placed m original r t i before rest front chunk chunksBehind) :
    i ∈ original.il := by
  rw [h.original]
  exact List.mem_append_right _ List.mem_cons_self

/-- An instruction that was not changed. -/
theorem Placed.kept (h : Placed m original r t i before rest front [i] chunksBehind) :
    r.il = front ++ i :: (chunksBehind.flatten ++ t.behind) := by
  rw [h.rewritten, List.append_assoc, List.singleton_append]

theorem Layout.placed (h : Layout m original r t chunks) (hi : i ∈ original.il) :
    ∃ before rest front chunk chunksBehind,
      Placed m original r t i before rest front chunk chunksBehind := by
  obtain ⟨before, rest, hil⟩ := List.append_of_mem hi
  obtain ⟨front, chunk, chunksBehind, hrewritten, hchanged, hbehind⟩ :=
    exists_placed h.il (hil ▸ h.chunks)
  exact ⟨before, rest, front, chunk, chunksBehind, hil, hrewritten, hchanged, hbehind⟩

namespace Rewritten

/-- Where the begin of the method, an instruction or a clause leads to, the rewritten method goes on
with the same instruction. -/
theorem enters_destination (h : Rewritten m original r t chunks) (hpc : pc ∈ destinations original) :
    Enters m original r t pc pc := by
  rintro i hi rfl
  obtain ⟨before, rest, front, chunk, chunksBehind, hplaced⟩ := h.layout.placed hi
  refine ⟨before, rest, front, chunk, chunksBehind, hplaced, ?_⟩
  cases hplaced.changed with
  | kept => rfl
  | left => rfl
  | stored store hret hvoid => exact absurd hpc (h.verified.returns hvoid i hi hret)

/-- The instruction behind the method's own is not one of them. -/
theorem enters_sentinel (h : Rewritten m original r t chunks) : Enters m original r t sentinel pc :=
  fun i hi href => absurd href (h.sound.distinct.ne_sentinel i hi)

/-- What comes behind an instruction comes behind what it was changed to. -/
theorem enters_behind (h : Rewritten m original r t chunks)
    (hplaced : Placed m original r t i before rest front chunk chunksBehind) :
    Enters m original r t ((rest.head?.map ILInstr.ref).getD sentinel)
      (((chunksBehind.flatten ++ t.behind).head?.map ILInstr.ref).getD sentinel) := by
  cases hplaced.behind with
  | nil => exact h.enters_sentinel
  | @cons j chunk' rest chunks' hchanged hbehind =>
      have hil : original.il = (before ++ [i]) ++ j :: rest := by
        rw [hplaced.original, List.append_assoc, List.singleton_append]
      have hdistinct : Distinct ((before ++ [i]) ++ j :: rest) := hil ▸ h.sound.distinct
      intro k hk href
      rw [hil] at hk
      obtain rfl := eq_of_ref hdistinct (List.mem_append_right _ List.mem_cons_self) hk href
      refine ⟨before ++ [i], rest, front ++ chunk, chunk', chunks', ⟨hil, ?_, hchanged, hbehind⟩, ?_⟩
      · rw [hplaced.rewritten, List.flatten_cons, List.append_assoc (front ++ chunk),
          List.append_assoc chunk']
      · cases hchanged with
        | kept => rfl
        | left => rfl
        | stored store => rfl

end Rewritten

end instructions

/-! ## What is asked of the runtime and of the integration -/

/-- The same effect, in states that agree. -/
inductive SameEffect {S E : Type} (agree : S → S → Prop) : Effect S E → Effect S E → Prop
  | next {s s' : S} : agree s s' → SameEffect agree (.next s) (.next s')
  | jump {s s' : S} : agree s s' → SameEffect agree (.jump s) (.jump s')
  | arm {k : Nat} {s s' : S} : agree s s' → SameEffect agree (.arm k s) (.arm k s')
  | throw {e : E} {s s' : S} : agree s s' → SameEffect agree (.throw e s) (.throw e s')

/-- The instructions of a method do the same in states that agree: these may differ in the locals that
were added, which the method does not reach. -/
structure Unaware {S E : Type} (M : Machine S E) (agree : S → S → Prop) (il : List ILInstr) :
    Prop where
  effect : ∀ i ∈ il, ∀ {s s' x}, agree s s' → M.effect i.opcode i.arg s = some x →
    ∃ x', M.effect i.opcode i.arg s' = some x' ∧ SameEffect agree x x'
  filter : ∀ code e {s s' accepted u}, agree s s' → M.filter code e s = some (accepted, u) →
    ∃ u', M.filter code e s' = some (accepted, u') ∧ agree u u'
  caught : ∀ e {s s'}, agree s s' → agree (M.caught e s) (M.caught e s')
  emptied : ∀ {s s'}, agree s s' → agree (M.emptied s) (M.emptied s')

/-- What is asked of the runtime about the new clauses. -/
structure Catches {S E : Type} (M : Machine S E) (original r : ILRewriter) : Prop where
  /-- All exceptions are of the class that the new clauses name. -/
  catches : ∀ c ∈ r.eh.drop original.eh.length, c.isCatch = true →
    ∀ e, M.catches c.classToken e = true
  /-- The first instruction of the new handlers takes the exception. -/
  takes : ∀ c ∈ r.eh.drop original.eh.length, c.isCatch = true → ∀ i ∈ r.il, i.ref = c.handlerBegin →
    ∀ e s, ∃ u, M.effect i.opcode i.arg (M.caught e s) = some (.next u)

/-- What is asked of it about the value to return. A caller sees `held` of a state in which a method
returns; `kept` is what it would see if the value was in its local, which is at `index`. -/
structure Carries {S E V : Type} (M : Machine S E) (m : CallTargetMethod) (index : Nat)
    (agree : S → S → Prop) (held kept : S → V) : Prop where
  emptied : ∀ s, kept (M.emptied s) = kept s
  void : m.isVoid = true → (∀ s, held s = kept s) ∧ ∀ s s', agree s s' → held s = held s'
  store : m.isVoid = false → ∀ s s', agree s s' → ∃ u,
    M.effect (indexed 0x0A 0x13 0x10E index).1 (indexed 0x0A 0x13 0x10E index).2 s' =
      some (.next u) ∧ kept u = held s
  load : m.isVoid = false → ∀ s, ∃ u,
    M.effect (indexed 0x06 0x11 0x10C index).1 (indexed 0x06 0x11 0x10C index).2 s =
      some (.next u) ∧ held u = kept s

/-- What is asked of the end of the integration, which may make of a value what `wraps` says. -/
structure Transparent {S E V : Type} (M : Machine S E) (m : CallTargetMethod)
    (original r : ILRewriter) (index : Nat) (agree : S → S → Prop) (held kept : S → V)
    (wraps : V → V → Prop) : Prop
    extends Catches M original r, Carries M m index agree held kept where
  /-- The finally block, which is that of the last clause, comes to its end. -/
  ends : ∀ c ∈ r.eh.getLast?, ∀ reason s, ∃ n s',
    stepN (M.step r.il r.eh) n (.at c.handlerBegin s [⟨c, reason⟩]) =
      some (.at c.handlerEnd s' [⟨c, reason⟩]) ∧ wraps (kept s) (kept s')

/-- Where a run begins. -/
def start {S E : Type} (il : List ILInstr) (s : S) : Config S E :=
  .at ((il.head?.map ILInstr.ref).getD sentinel) s []

/-! ## Configurations -/

/-- The configurations of the method and those of the rewritten one. Where the method has returned, the
finally block begins; where it has thrown an exception, the new handler has caught it. -/
inductive Matches {S E V : Type} (M : Machine S E) (m : CallTargetMethod) (original r : ILRewriter)
    (t : Template) (agree : S → S → Prop) (held kept : S → V) : Config S E → Config S E → Prop
  | running {pc pc' : InstrRef} {s s' : S} (frames : List (Frame E)) : Enters m original r t pc pc' →
      agree s s' → (∀ f ∈ frames, f.Own original) →
      Matches M m original r t agree held kept (.at pc s frames)
        (.at pc' s' (frames.map (Frame.through t.catchClause)))
  | returned {s s' : S} : kept s' = held s →
      Matches M m original r t agree held kept (.returned s)
        (.at t.startFinally s' [⟨t.finallyClause, .leaving [] t.exit⟩])
  | raised {e : E} {s s' : S} :
      Matches M m original r t agree held kept (.raised e s)
        (.at t.store.ref (M.caught e s') [⟨t.catchClause, .caught e⟩])

section frames

variable {S E V : Type} {M : Machine S E} {m : CallTargetMethod} {original r : ILRewriter}
  {t : Template} {chunks : List (List ILInstr)} {agree : S → S → Prop} {held kept : S → V}
  {pc : InstrRef} {s s' : S} {c : EHClause} {frames : List (Frame E)}

theorem own_enclosing {il : List ILInstr} (hframes : ∀ f ∈ frames, f.Own original) :
    ∀ f ∈ enclosing il frames pc, f.Own original :=
  fun f hf => hframes f (List.dropWhile_subset _ hf)

namespace Rewritten

/-- The handlers that are executed are the same. -/
theorem enclosing_through (h : Rewritten m original r t chunks)
    (hframes : ∀ f ∈ frames, f.Own original) (hpc : pc ∈ refsOf original.il ∨ pc = sentinel) :
    enclosing r.il (frames.map (Frame.through c)) pc =
      (enclosing original.il frames pc).map (Frame.through c) := by
  induction frames with
  | nil => rfl
  | cons f frames ih =>
      obtain ⟨hf, hframes⟩ := List.forall_mem_cons.mp hframes
      have hiff := h.handles_iff hf.clause hpc
      by_cases hhandles : f.clause.Handles original.il pc
      · have hhandles' : (f.through c).clause.Handles r.il pc := hiff.mpr hhandles
        rw [enclosing, enclosing, List.map_cons,
          List.dropWhile_cons_of_neg (by rw [decide_eq_true_iff]; exact not_not.mpr hhandles'),
          List.dropWhile_cons_of_neg (by rw [decide_eq_true_iff]; exact not_not.mpr hhandles),
          List.map_cons]
      · have hhandles' : ¬(f.through c).clause.Handles r.il pc := mt hiff.mp hhandles
        rw [enclosing, enclosing, List.map_cons,
          List.dropWhile_cons_of_pos (by rw [decide_eq_true_iff]; exact hhandles'),
          List.dropWhile_cons_of_pos (by rw [decide_eq_true_iff]; exact hhandles)]
        exact ih hframes

/-- Behind the method none of its handlers is executed. -/
theorem enclosing_behind (h : Rewritten m original r t chunks)
    (hframes : ∀ f ∈ frames, f.Own original) (hpc : pc ∈ refsOf t.behind) :
    enclosing r.il (frames.map (Frame.through c)) pc = [] := by
  refine List.dropWhile_eq_nil_iff.mpr fun f hf => decide_eq_true ?_
  obtain ⟨g, hg, rfl⟩ := List.mem_map.mp hf
  exact h.not_handles_behind (hframes g hg).clause hpc

theorem matches_enter (h : Rewritten m original r t chunks) {reason : Reason E}
    (hc : c ∈ original.eh) (hreason : reason.Own original) (hagree : agree s s')
    (hframes : ∀ f ∈ frames, f.Own original) :
    Matches M m original r t agree held kept (Machine.enter original.il c reason s frames)
      (Machine.enter r.il c (reason.through t.catchClause) s'
        (frames.map (Frame.through t.catchClause))) := by
  rw [Machine.enter, Machine.enter,
    h.enclosing_through hframes (known_of_lands (h.sound.stands c hc).handlerBegin)]
  have hdestination : c.handlerBegin ∈ destinations original :=
    List.mem_append_right _ (List.mem_map_of_mem hc)
  exact Matches.running (⟨c, reason⟩ :: enclosing original.il frames c.handlerBegin)
    (h.enters_destination hdestination) hagree
    (List.forall_mem_cons.mpr ⟨⟨hc, hreason⟩, own_enclosing hframes⟩)

theorem matches_leaveTo (h : Rewritten m original r t chunks) (hunaware : Unaware M agree original.il)
    {todo : List EHClause} {target : InstrRef} (htodo : ∀ c ∈ todo, c ∈ original.eh)
    (htarget : target ∈ refsOf original.il) (hdestination : target ∈ destinations original)
    (hagree : agree s s') (hframes : ∀ f ∈ frames, f.Own original) :
    Matches M m original r t agree held kept (M.leaveTo original.il todo target s frames)
      (M.leaveTo r.il todo target s' (frames.map (Frame.through t.catchClause))) := by
  cases todo with
  | nil =>
      rw [Machine.leaveTo, Machine.leaveTo, h.enclosing_through hframes (Or.inl htarget)]
      exact Matches.running _ (h.enters_destination hdestination) (hunaware.emptied hagree)
        (own_enclosing hframes)
  | cons c todo =>
      obtain ⟨hc, htodo⟩ := List.forall_mem_cons.mp htodo
      exact h.matches_enter hc ⟨htodo, htarget, hdestination⟩ (hunaware.emptied hagree) hframes

theorem matches_unwind (h : Rewritten m original r t chunks) (hunaware : Unaware M agree original.il)
    {todo : List EHClause} {found : Option EHClause} {e : E} (htodo : ∀ c ∈ todo, c ∈ original.eh)
    (hfound : ∀ c ∈ found, c ∈ original.eh) (hagree : agree s s')
    (hframes : ∀ f ∈ frames, f.Own original) :
    Matches M m original r t agree held kept (M.unwind original.il todo found e s frames)
      (M.unwind r.il todo (some (found.getD t.catchClause)) e s'
        (frames.map (Frame.through t.catchClause))) := by
  cases todo with
  | nil =>
      cases found with
      | none =>
          show Matches M m original r t agree held kept (.raised e s)
            (Machine.enter r.il t.catchClause (.caught e) (M.caught e s') _)
          have hstore : t.catchClause.handlerBegin ∈ refsOf t.behind := List.mem_cons_self
          rw [Machine.enter, h.enclosing_behind hframes hstore]
          exact Matches.raised
      | some c => exact h.matches_enter (hfound c rfl) trivial (hunaware.caught e hagree) hframes
  | cons c todo =>
      obtain ⟨hc, htodo⟩ := List.forall_mem_cons.mp htodo
      exact h.matches_enter hc ⟨htodo, hfound⟩ (hunaware.emptied hagree) hframes

end Rewritten

end frames

/-! ## Filters, arms and finally blocks -/

section lists

variable {m : CallTargetMethod} {original r : ILRewriter} {t : Template}
  {chunks : List (List ILInstr)} {i : ILInstr} {c : EHClause} {pc target : InstrRef}
  {before rest front chunk : List ILInstr} {chunksBehind : List (List ILInstr)}

theorem dropWhile_ref {before after : List ILInstr} (h : Distinct (before ++ i :: after)) :
    ((before ++ i :: after).dropWhile fun j => j.ref ≠ i.ref) = i :: after := by
  have hbefore : ∀ j ∈ before, decide (j.ref ≠ i.ref) = true :=
    fun j hj => decide_eq_true (ne_head h j hj)
  rw [List.dropWhile_append_of_pos hbefore]
  exact List.dropWhile_cons_of_neg (by rw [decide_eq_true_iff]; exact not_not.mpr rfl)

/-- Instructions without a return, up to one that no return with a value is at, are not changed. -/
theorem takeWhile_chunks (more : List ILInstr) {locals : Locals} {exit : InstrRef}
    (h : List.Forall₂ (Changed m locals exit) rest chunks) (hpc : pc ∈ refsOf rest)
    (hreturns : m.isVoid = false → ∀ i ∈ rest, i.opcode = Cee.ret → i.ref ≠ pc)
    (hkept : ∀ i ∈ rest.takeWhile fun i => i.ref ≠ pc, i.opcode ≠ Cee.ret) :
    ((chunks.flatten ++ more).takeWhile fun i => i.ref ≠ pc) =
      rest.takeWhile fun i => i.ref ≠ pc := by
  induction h with
  | nil => cases hpc
  | @cons i chunk rest chunks hchanged _ ih =>
      have hstop : i.ref = pc → ∀ l : List ILInstr, ∀ j : ILInstr, j.ref = i.ref →
          ((j :: l).takeWhile fun i => i.ref ≠ pc) = [] := fun heq l j hj =>
        List.takeWhile_cons_of_neg (by rw [decide_eq_true_iff]; exact not_not.mpr (hj.trans heq))
      have hgo : i.ref ≠ pc → ∀ l : List ILInstr,
          ((i :: l).takeWhile fun i => i.ref ≠ pc) = i :: l.takeWhile fun i => i.ref ≠ pc :=
        fun hne l => List.takeWhile_cons_of_pos (decide_eq_true hne)
      rw [List.flatten_cons, List.append_assoc]
      by_cases heq : i.ref = pc
      · rw [hstop heq rest i rfl]
        cases hchanged with
        | kept => exact hstop heq _ i rfl
        | left => exact hstop heq _ _ rfl
        | stored store hret hvoid =>
            exact absurd heq (hreturns hvoid i List.mem_cons_self hret)
      · rw [hgo heq rest] at hkept ⊢
        obtain ⟨hi, hkept⟩ := List.forall_mem_cons.mp hkept
        cases hchanged with
        | kept =>
            rw [List.singleton_append, hgo heq]
            refine congrArg (List.cons i) (ih ?_ (fun hvoid j hj => hreturns hvoid j
              (List.mem_cons_of_mem i hj)) hkept)
            exact (List.mem_cons.mp hpc).resolve_left (Ne.symm heq)
        | left hret => exact absurd hret hi
        | stored store hret => exact absurd hret hi

/-- The arms are not changed. -/
theorem arms_chunks (more : List ILInstr) {locals : Locals} {exit : InstrRef}
    (h : List.Forall₂ (Changed m locals exit) rest chunks) :
    (rest.takeWhile ILInstr.isArm) <+: ((chunks.flatten ++ more).takeWhile ILInstr.isArm) := by
  induction h with
  | nil => exact List.nil_prefix
  | @cons i chunk rest chunks hchanged _ ih =>
      cases harm : i.isArm with
      | false =>
          rw [List.takeWhile_cons_of_neg (by rw [harm]; exact Bool.false_ne_true)]
          exact List.nil_prefix
      | true =>
          have hne : i.opcode ≠ Cee.ret := by
            rw [ILInstr.isArm_iff.mp harm]
            decide
          cases hchanged with
          | kept =>
              rw [List.flatten_cons, List.append_assoc, List.singleton_append,
                List.takeWhile_cons_of_pos harm, List.takeWhile_cons_of_pos harm]
              exact List.cons_prefix_cons.mpr ⟨rfl, ih⟩
          | left hret => exact absurd hret hne
          | stored store hret => exact absurd hret hne

namespace Rewritten

/-- A filter has the instructions that it had. -/
theorem filterCode_eq (h : Rewritten m original r t chunks) (hc : c ∈ original.eh)
    (hfilter : isFilter c.flags = true) : c.filterCode r.il = c.filterCode original.il := by
  obtain ⟨hbehind, hkept⟩ := h.verified.filters c hc hfilter
  obtain ⟨i, hi, href⟩ : ∃ i ∈ original.il, i.ref = c.filter := by
    by_contra hnone
    refine not_atOrBehind (fun hmem => hnone ?_) hbehind
    exact List.mem_map.mp hmem
  obtain ⟨before, rest, front, chunk, chunksBehind, hplaced⟩ := h.layout.placed hi
  have hdrop : (original.il.dropWhile fun j => j.ref ≠ c.filter) = i :: rest := by
    rw [← href, hplaced.original]
    exact dropWhile_ref (hplaced.original ▸ h.sound.distinct)
  have hrefs : c.handlerBegin ∈ refsOf (i :: rest) := by
    have hmem : c.handlerBegin ∈
        (refsOf original.il).dropWhile fun r => decide (r ≠ c.filter) := hbehind
    rw [refsOf, List.dropWhile_map] at hmem
    rw [← hdrop]
    exact hmem
  have hreturns : m.isVoid = false → ∀ j ∈ i :: rest, j.opcode = Cee.ret → j.ref ≠ c.handlerBegin := by
    intro hvoid j hj hret heq
    refine h.verified.returns hvoid j ?_ hret ?_
    · rw [hplaced.original]
      exact List.mem_append_right _ hj
    · rw [heq]
      exact List.mem_append_right _ (List.mem_map_of_mem hc)
  have horiginal : c.filterCode original.il =
      (i :: rest).takeWhile fun j => j.ref ≠ c.handlerBegin := by
    rw [EHClause.filterCode, hdrop]
  rw [horiginal] at hkept ⊢
  have hchunks := takeWhile_chunks t.behind (List.Forall₂.cons hplaced.changed hplaced.behind)
    hrefs hreturns hkept
  rw [EHClause.filterCode, ← hchunks, List.flatten_cons, List.append_assoc]
  have hil := hplaced.rewritten
  rw [List.append_assoc] at hil
  have hdistinct := h.layout.distinct
  rw [hil] at hdistinct ⊢
  congr 1
  cases hplaced.changed with
  | kept =>
      rw [← href]
      exact dropWhile_ref hdistinct
  | left =>
      rw [← href]
      exact dropWhile_ref (i := { i with opcode := Cee.leaveS, target := t.exit }) hdistinct
  | stored store hret hvoid =>
      -- a return is not part of the filter, so that it is the handler that begins there
      have heq : i.ref = c.handlerBegin := by
        by_contra hne
        refine hkept i ?_ hret
        rw [List.takeWhile_cons_of_pos (by rw [decide_eq_true_iff]; exact hne)]
        exact List.mem_cons_self
      exact absurd heq (hreturns hvoid i List.mem_cons_self hret)

/-- The arms behind a switch stand behind it. -/
theorem armsOf_some (h : Rewritten m original r t chunks)
    (hplaced : Placed m original r t i before rest front [i] chunksBehind) {k : Nat} {arm : ILInstr}
    (harm : (armsOf original.il i.ref)[k]? = some arm) : (armsOf r.il i.ref)[k]? = some arm := by
  have hdistinct := h.layout.distinct
  have hil := hplaced.kept
  have horiginal : armsOf original.il i.ref = rest.takeWhile ILInstr.isArm := by
    rw [armsOf, hplaced.original, dropWhile_ref (hplaced.original ▸ h.sound.distinct)]
    rfl
  have hrewritten : armsOf r.il i.ref =
      (chunksBehind.flatten ++ t.behind).takeWhile ILInstr.isArm := by
    rw [armsOf, hil, dropWhile_ref (hil ▸ hdistinct)]
    rfl
  obtain ⟨more, hmore⟩ := arms_chunks t.behind hplaced.behind
  rw [horiginal] at harm
  rw [hrewritten, ← hmore, List.getElem?_append_left (List.getElem?_eq_some_iff.mp harm).1]
  exact harm

/-- A `leave` of the method goes through the finally blocks that it went through. -/
theorem leftBlocks_eq (h : Rewritten m original r t chunks) (hpc : pc ∈ refsOf original.il)
    (htarget : target ∈ refsOf original.il) :
    leftBlocks r.il r.eh pc target = leftBlocks original.il original.eh pc target := by
  have hown : (original.eh.filter fun c => c.isFinally ∧ c.Protects r.il pc ∧ ¬c.Protects r.il target) =
      leftBlocks original.il original.eh pc target := by
    refine List.filter_congr fun c hc => decide_eq_decide.mpr ?_
    rw [h.protects_iff hc (Or.inl hpc), h.protects_iff hc (Or.inl htarget)]
  have hnew : (t.clauses.filter fun c => c.isFinally ∧ c.Protects r.il pc ∧ ¬c.Protects r.il target) =
      [] := by
    obtain ⟨-, -, -, hfinally⟩ := h.template_protects htarget
    refine List.filter_eq_nil_iff.mpr fun c hc => ?_
    rw [decide_eq_true_iff]
    simp only [Template.clauses, List.mem_cons, List.not_mem_nil, or_false] at hc
    rcases hc with rfl | rfl | rfl | rfl
    · exact fun hleft => Bool.false_ne_true hleft.1
    · exact fun hleft => Bool.false_ne_true hleft.1
    · exact fun hleft => Bool.false_ne_true hleft.1
    · exact fun hleft => hleft.2.2 hfinally
  rw [leftBlocks, h.layout.eh, List.filter_append, hown, hnew, List.append_nil]

/-- Where the method returned, the new finally block is left. -/
theorem leftBlocks_return (h : Rewritten m original r t chunks) (hpc : pc ∈ refsOf original.il)
    (hnone : ∀ c ∈ original.eh, ¬c.Protects original.il pc) (htarget : target ∈ refsOf (t.rest ++ [t.ret])) :
    leftBlocks r.il r.eh pc target = [t.finallyClause] := by
  have hown : (original.eh.filter fun c => c.isFinally ∧ c.Protects r.il pc ∧ ¬c.Protects r.il target) =
      [] := by
    refine List.filter_eq_nil_iff.mpr fun c hc => ?_
    rw [decide_eq_true_iff, h.protects_iff hc (Or.inl hpc)]
    exact fun hleft => hnone c hc hleft.2.1
  obtain ⟨-, -, -, hfinally⟩ := h.template_protects hpc
  have hrest := h.not_protects_rest (List.mem_cons_of_mem _ htarget) t.finallyClause (by
    rw [h.layout.eh]
    exact List.mem_append_right _ (by simp [Template.clauses]))
  have hno : ∀ c ∈ [t.callClause t.begun, t.callClause t.ended, t.catchClause],
      ¬decide (c.isFinally = true ∧ c.Protects r.il pc ∧ ¬c.Protects r.il target) = true := by
    intro c hc
    have hkind : c.isFinally = false := by
      simp only [List.mem_cons, List.not_mem_nil, or_false] at hc
      rcases hc with rfl | rfl | rfl
      · rfl
      · rfl
      · rfl
    rw [decide_eq_true_iff, hkind]
    exact fun hleft => Bool.false_ne_true hleft.1
  have hnew : (t.clauses.filter fun c => c.isFinally ∧ c.Protects r.il pc ∧ ¬c.Protects r.il target) =
      [t.finallyClause] := by
    rw [show t.clauses = [t.callClause t.begun, t.callClause t.ended, t.catchClause] ++
      [t.finallyClause] from rfl, List.filter_append, List.filter_eq_nil_iff.mpr hno, List.nil_append]
    exact List.filter_eq_self.mpr
      (List.forall_mem_singleton.mpr (decide_eq_true ⟨rfl, hfinally, hrest⟩))
  rw [leftBlocks, h.layout.eh, List.filter_append, hown, hnew, List.nil_append]

end Rewritten

end lists

/-! ## Steps -/

section steps

variable {S E V : Type} {M : Machine S E} {m : CallTargetMethod} {original r : ILRewriter}
  {t : Template} {chunks : List (List ILInstr)} {agree : S → S → Prop} {held kept : S → V}
  {wraps : V → V → Prop} {i : ILInstr} {pc : InstrRef} {s s' u : S} {e : E} {c : EHClause}
  {frames : List (Frame E)} {d : Config S E}
  {before rest front chunk : List ILInstr} {chunksBehind : List (List ILInstr)}

theorem step_at {il before after : List ILInstr} {eh : List EHClause} (h : Distinct il)
    (hil : il = before ++ i :: after) :
    M.step il eh (.at i.ref s frames) = M.exec il eh i s frames := by
  rw [Machine.step, hil, find?_ref (hil ▸ h)]
  rfl

theorem Rewritten.catchClause_mem (h : Rewritten m original r t chunks) :
    t.catchClause ∈ r.eh.drop original.eh.length := by
  rw [h.layout.eh, List.drop_left]
  simp [Template.clauses]

theorem Rewritten.finallyClause_last (h : Rewritten m original r t chunks) :
    t.finallyClause ∈ r.eh.getLast? := by
  rw [h.layout.eh, Template.clauses, List.getLast?_append]
  rfl

/-- Clauses that do not protect the instruction are passed over. -/
theorem search_skip {il : List ILInstr} {eh more passed : List EHClause}
    (heh : ∀ c ∈ eh, ¬c.Protects il pc) :
    M.search il pc e (eh ++ more) passed s = M.search il pc e more passed s := by
  induction eh with
  | nil => rfl
  | cons c eh ih =>
      obtain ⟨hc, heh⟩ := List.forall_mem_cons.mp heh
      rw [List.cons_append, Machine.search, if_pos hc]
      exact ih heh

/-- A typed clause catches the exception. -/
theorem search_catch {il : List ILInstr} {eh passed : List EHClause} (hprotects : c.Protects il pc)
    (hflags : c.flags = 0) (hclass : M.catches c.classToken e = true) :
    M.search il pc e (c :: eh) passed s = some (some c, passed, s) := by
  have hfilter : ¬isFilter c.flags = true := by
    rw [hflags]
    decide
  have hcatch : c.isCatch = true := decide_eq_true hflags
  rw [Machine.search, if_neg (not_not.mpr hprotects), if_neg hfilter, if_pos hcatch, if_pos hclass]

namespace Rewritten

/-- The new handler catches what the method does not. -/
theorem search_clauses (h : Rewritten m original r t chunks)
    (hcatches : ∀ e, M.catches t.catchClause.classToken e = true) (hpc : pc ∈ refsOf original.il)
    {passed : List EHClause} :
    M.search r.il pc e t.clauses passed s = some (some t.catchClause, passed, s) := by
  obtain ⟨hbegun, hended, hcatch, -⟩ := h.template_protects hpc
  rw [Template.clauses, Machine.search, if_pos hbegun, Machine.search, if_pos hended]
  exact search_catch hcatch rfl (hcatches e)

theorem search_own (h : Rewritten m original r t chunks) (hunaware : Unaware M agree original.il)
    (hcatches : ∀ e, M.catches t.catchClause.classToken e = true) (hpc : pc ∈ refsOf original.il)
    {eh passed passed' : List EHClause} {found : Option EHClause} (heh : ∀ c ∈ eh, c ∈ original.eh)
    (hpassed : ∀ c ∈ passed, c ∈ original.eh) (hagree : agree s s')
    (hsearch : M.search original.il pc e eh passed s = some (found, passed', u)) :
    ∃ u', M.search r.il pc e (eh ++ t.clauses) passed s' =
        some (some (found.getD t.catchClause), passed', u') ∧ agree u u' ∧
      (∀ c ∈ passed', c ∈ original.eh) ∧ ∀ c ∈ found, c ∈ original.eh := by
  induction eh generalizing passed s s' with
  | nil =>
      rw [Machine.search] at hsearch
      cases hsearch
      exact ⟨s', h.search_clauses hcatches hpc, hagree, hpassed, by simp⟩
  | cons c eh ih =>
      obtain ⟨hc, heh⟩ := List.forall_mem_cons.mp heh
      have hfound : ∀ c' ∈ some c, c' ∈ original.eh := by
        rintro _ ⟨⟩
        exact hc
      have hiff := h.protects_iff hc (Or.inl hpc)
      rw [Machine.search] at hsearch
      rw [List.cons_append, Machine.search]
      by_cases hprotects : c.Protects original.il pc
      · rw [if_neg (not_not.mpr hprotects)] at hsearch
        rw [if_neg (not_not.mpr (hiff.mpr hprotects))]
        by_cases hfilter : isFilter c.flags = true
        · rw [if_pos hfilter] at hsearch ⊢
          obtain ⟨⟨accepted, v⟩, hanswer, hsearch⟩ := Option.bind_eq_some_iff.mp hsearch
          obtain ⟨v', hanswer', hagree⟩ := hunaware.filter _ e hagree hanswer
          rw [h.filterCode_eq hc hfilter, hanswer']
          cases accepted with
          | true =>
              cases hsearch
              exact ⟨v', rfl, hagree, hpassed, hfound⟩
          | false => exact ih heh hpassed hagree hsearch
        · rw [if_neg hfilter] at hsearch ⊢
          by_cases hcatch : c.isCatch = true
          · rw [if_pos hcatch] at hsearch ⊢
            by_cases hclass : M.catches c.classToken e = true
            · rw [if_pos hclass] at hsearch ⊢
              cases hsearch
              exact ⟨s', rfl, hagree, hpassed, hfound⟩
            · rw [if_neg hclass] at hsearch ⊢
              exact ih heh hpassed hagree hsearch
          · rw [if_neg hcatch] at hsearch ⊢
            refine ih heh (List.forall_mem_append.mpr ⟨hpassed, ?_⟩) hagree hsearch
            exact List.forall_mem_singleton.mpr hc
      · rw [if_pos hprotects] at hsearch
        rw [if_pos (mt hiff.mp hprotects)]
        exact ih heh hpassed hagree hsearch

/-- An exception goes where it went; if it left the method, the new handler catches it. -/
theorem throw_simulated (h : Rewritten m original r t chunks) (hunaware : Unaware M agree original.il)
    (hcatches : ∀ e, M.catches t.catchClause.classToken e = true) (hpc : pc ∈ refsOf original.il)
    (hframes : ∀ f ∈ frames, f.Own original) (hagree : agree s s')
    (hthrow : M.throw original.il original.eh pc e s frames = some d) :
    ∃ d', M.throw r.il r.eh pc e s' (frames.map (Frame.through t.catchClause)) = some d' ∧
      Matches M m original r t agree held kept d d' := by
  obtain ⟨⟨found, passed, v⟩, hsearch, hd⟩ := Option.bind_eq_some_iff.mp hthrow
  cases hd
  obtain ⟨v', hsearch', hagree, hpassed, hfound⟩ := h.search_own hunaware hcatches hpc
    (fun _ hc => hc) (List.forall_mem_nil _) hagree hsearch
  refine ⟨_, ?_, h.matches_unwind hunaware hpassed hfound hagree hframes⟩
  rw [Machine.throw, h.layout.eh, hsearch']
  rfl

/-- Any other instruction. -/
theorem plain_simulated (h : Rewritten m original r t chunks) (hunaware : Unaware M agree original.il)
    (hcatches : ∀ e, M.catches t.catchClause.classToken e = true)
    (hplaced : Placed m original r t i before rest front [i] chunksBehind)
    (hframes : ∀ f ∈ frames, f.Own original) (hagree : agree s s')
    (hplain : M.plain original.il original.eh i s frames = some d) :
    ∃ d', M.plain r.il r.eh i s' (frames.map (Frame.through t.catchClause)) = some d' ∧
      Matches M m original r t agree held kept d d' := by
  have hi := hplaced.mem
  have hnext := next_of_eq h.sound.distinct hplaced.original
  have hnext' := next_of_eq h.layout.distinct hplaced.kept
  have hbehind := h.enters_behind hplaced
  rw [Machine.plain, hnext, Option.bind_eq_bind, Option.bind_some] at hplain
  rw [Machine.plain, hnext', Option.bind_eq_bind, Option.bind_some]
  by_cases harm : i.isArm = true
  · rw [if_pos harm] at hplain ⊢
    cases hplain
    exact ⟨_, rfl, Matches.running frames hbehind hagree hframes⟩
  · rw [if_neg harm] at hplain ⊢
    obtain ⟨x, heffect, hplain⟩ := Option.bind_eq_some_iff.mp hplain
    obtain ⟨x', heffect', hsame⟩ := hunaware.effect i hi hagree heffect
    rw [heffect', Option.bind_eq_bind, Option.bind_some]
    have htarget : ∀ j ∈ original.il, Enters m original r t j.target j.target := fun j hj =>
      h.enters_destination (List.mem_append_left _ (List.mem_append_right _ (List.mem_map_of_mem hj)))
    cases hsame with
    | next hagree =>
        cases hplain
        exact ⟨_, rfl, Matches.running frames hbehind hagree hframes⟩
    | jump hagree =>
        cases hplain
        exact ⟨_, rfl, Matches.running frames (htarget i hi) hagree hframes⟩
    | @arm k v v' hagree =>
        obtain ⟨arm, hget, hd⟩ := Option.bind_eq_some_iff.mp hplain
        cases hd
        have hmem : arm ∈ original.il := by
          have harms := List.takeWhile_subset _ (List.mem_of_getElem? hget)
          exact List.dropWhile_subset _ (List.drop_subset _ _ harms)
        refine ⟨_, ?_, Matches.running frames (htarget arm hmem) hagree hframes⟩
        show Option.bind _ _ = _
        rw [h.armsOf_some hplaced hget]
        rfl
    | throw hagree =>
        exact h.throw_simulated hunaware hcatches (List.mem_map_of_mem hi) hframes hagree hplain

/-- An instruction that is no return. -/
theorem exec_simulated (h : Rewritten m original r t chunks) (hunaware : Unaware M agree original.il)
    (hcatches : ∀ e, M.catches t.catchClause.classToken e = true)
    (hplaced : Placed m original r t i before rest front [i] chunksBehind) (hret : i.opcode ≠ Cee.ret)
    (hframes : ∀ f ∈ frames, f.Own original) (hagree : agree s s')
    (hexec : M.exec original.il original.eh i s frames = some d) :
    ∃ d', M.exec r.il r.eh i s' (frames.map (Frame.through t.catchClause)) = some d' ∧
      Matches M m original r t agree held kept d d' := by
  have hi := hplaced.mem
  have hpc : i.ref ∈ refsOf original.il := List.mem_map_of_mem hi
  rw [Machine.exec, if_neg hret] at hexec ⊢
  by_cases hleave : i.opcode = Cee.leave ∨ i.opcode = Cee.leaveS
  · have htarget := h.verified.leaves i hi hleave
    have hdestination : i.target ∈ destinations original :=
      List.mem_append_left _ (List.mem_append_right _ (List.mem_map_of_mem hi))
    rw [if_pos hleave] at hexec ⊢
    cases hexec
    rw [h.leftBlocks_eq hpc htarget]
    exact ⟨_, rfl, h.matches_leaveTo hunaware (fun c hc => (List.mem_filter.mp hc).1) htarget
      hdestination hagree hframes⟩
  · rw [if_neg hleave] at hexec ⊢
    by_cases hend : i.opcode = 0xDC
    · rw [if_pos hend] at hexec ⊢
      cases frames with
      | nil => cases hexec
      | cons f frames =>
          obtain ⟨c, reason⟩ := f
          obtain ⟨hf, hrest⟩ := List.forall_mem_cons.mp hframes
          cases reason with
          | leaving todo target =>
              cases hexec
              obtain ⟨htodo, htarget, hdestination⟩ := hf.reason
              exact ⟨_, rfl, h.matches_leaveTo hunaware htodo htarget hdestination hagree hrest⟩
          | unwinding todo found e =>
              cases hexec
              exact ⟨_, rfl, h.matches_unwind hunaware hf.reason.1 hf.reason.2 hagree hrest⟩
          | caught e => cases hexec
    · rw [if_neg hend] at hexec ⊢
      by_cases hrethrow : i.opcode = 0x11A
      · rw [if_pos hrethrow] at hexec ⊢
        cases frames with
        | nil => cases hexec
        | cons f frames =>
            obtain ⟨c, reason⟩ := f
            cases reason with
            | leaving todo target => cases hexec
            | unwinding todo found e => cases hexec
            | caught e => exact h.throw_simulated hunaware hcatches hpc hframes hagree hexec
      · rw [if_neg hrethrow] at hexec ⊢
        exact h.plain_simulated hunaware hcatches hplaced hframes hagree hexec

end Rewritten

/-- An instruction that goes on. -/
theorem step_next {il before after : List ILInstr} {eh : List EHClause} (h : Distinct il)
    (hil : il = before ++ i :: after) (hi : Linear i.opcode)
    (heffect : M.effect i.opcode i.arg s = some (.next u)) :
    M.step il eh (.at i.ref s frames) =
      some (.at ((after.head?.map ILInstr.ref).getD sentinel) u frames) := by
  obtain ⟨hret, hleave, hleaveS, hend, hrethrow, harm⟩ := hi
  rw [step_at h hil, Machine.exec, if_neg hret, if_neg (not_or.mpr ⟨hleave, hleaveS⟩), if_neg hend,
    if_neg hrethrow, Machine.plain, next_of_eq h hil, Option.bind_eq_bind, Option.bind_some,
    if_neg (mt ILInstr.isArm_iff.mp harm), heffect]
  rfl

/-- One that throws. -/
theorem step_throw {il before after : List ILInstr} {eh : List EHClause} (h : Distinct il)
    (hil : il = before ++ i :: after) (hi : Linear i.opcode)
    (heffect : M.effect i.opcode i.arg s = some (.throw e u)) :
    M.step il eh (.at i.ref s frames) = M.throw il eh i.ref e u frames := by
  obtain ⟨hret, hleave, hleaveS, hend, hrethrow, harm⟩ := hi
  rw [step_at h hil, Machine.exec, if_neg hret, if_neg (not_or.mpr ⟨hleave, hleaveS⟩), if_neg hend,
    if_neg hrethrow, Machine.plain, next_of_eq h hil, Option.bind_eq_bind, Option.bind_some,
    if_neg (mt ILInstr.isArm_iff.mp harm), heffect]
  rfl

/-- A `leave.s` that goes through no finally block. -/
theorem step_leave {il before after : List ILInstr} {eh : List EHClause} (h : Distinct il)
    (hil : il = before ++ i :: after) (hi : i.opcode = Cee.leaveS)
    (hleft : leftBlocks il eh i.ref i.target = []) :
    M.step il eh (.at i.ref s frames) =
      some (.at i.target (M.emptied s) (enclosing il frames i.target)) := by
  have hret : i.opcode ≠ Cee.ret := by
    rw [hi]
    decide
  rw [step_at h hil, Machine.exec, if_neg hret, if_pos (Or.inr hi), hleft]
  rfl

/-- The load or the store of a local. -/
theorem step_indexed {il before after : List ILInstr} {eh : List EHClause} {j : ILInstr}
    {opcode0 opcodeS opcode index : Nat} (h : Distinct il) (hil : il = before ++ i :: j :: after)
    (hi : (i.opcode, i.arg) = indexed opcode0 opcodeS opcode index) (h0 : opcode0 + 3 < Cee.ret)
    (hS : Linear opcodeS) (hlong : Linear opcode)
    (heffect : M.effect i.opcode i.arg s = some (.next u)) :
    M.step il eh (.at i.ref s frames) = some (.at j.ref u frames) := by
  have hopcode : i.opcode = (indexed opcode0 opcodeS opcode index).1 := congrArg Prod.fst hi
  exact step_next h hil (hopcode ▸ indexed_linear index h0 hS hlong) heffect

/-- **One step** of the method is one or two of the rewritten one. -/
theorem Rewritten.step_simulated (h : Rewritten m original r t chunks)
    (hunaware : Unaware M agree original.il)
    (htransparent : Transparent M m original r t.locals.returnValueIndex.value.toNat agree held kept
      wraps) {c c' : Config S E} (hmatches : Matches M m original r t agree held kept c c')
    (hstep : M.step original.il original.eh c = some d) :
    ∃ k d', stepN (M.step r.il r.eh) (k + 1) c' = some d' ∧
      Matches M m original r t agree held kept d d' := by
  cases hmatches with
  | returned => cases hstep
  | raised => cases hstep
  | @running pc pc' s s' frames henters hagree hframes =>
      obtain ⟨i, hfind, hexec⟩ := Option.bind_eq_some_iff.mp hstep
      have hi : i ∈ original.il := List.mem_of_find?_eq_some hfind
      have href : i.ref = pc := by simpa using List.find?_some hfind
      obtain ⟨before, rest, front, chunk, chunksBehind, hplaced, hhead⟩ := henters i hi href
      have hpc : i.ref ∈ refsOf original.il := List.mem_map_of_mem hi
      have hcatches := htransparent.catches _ h.catchClause_mem rfl
      -- a return becomes a `leave.s`, which the finally block follows
      have hleave : ∀ {front' s'}, i.opcode = Cee.ret → kept s' = held s →
          r.il = front' ++ { i with opcode := Cee.leaveS, target := t.exit } ::
            (chunksBehind.flatten ++ t.behind) →
          ∃ d', M.step r.il r.eh (.at i.ref s' (frames.map (Frame.through t.catchClause))) = some d' ∧
            Matches M m original r t agree held kept d d' := by
        intro front' s' hret hheld hil
        rw [Machine.exec, if_pos hret, Machine.ret] at hexec
        split at hexec
        case isFalse => cases hexec
        case isTrue hallowed =>
          cases hexec
          obtain ⟨hnil, hnone⟩ := hallowed
          obtain rfl := List.isEmpty_iff.mp hnil
          have hexit : t.exit ∈ refsOf (t.rest ++ [t.ret]) := by
            rw [Template.exit]
            cases t.rest with
            | nil => exact List.mem_cons_self
            | cons load more => exact List.mem_cons_self
          refine ⟨_, (step_at h.layout.distinct hil).trans ?_, Matches.returned
            ((htransparent.emptied s').trans hheld)⟩
          have hblocks := h.leftBlocks_return hpc hnone hexit
          show some (M.leaveTo r.il (leftBlocks r.il r.eh i.ref t.exit) t.exit s' []) = _
          rw [hblocks]
          rfl
      cases hplaced.changed with
      | kept hret =>
          obtain rfl : i.ref = pc' := Option.some.inj hhead
          obtain ⟨d', hexec', hmatches⟩ :=
            h.exec_simulated hunaware hcatches hplaced hret hframes hagree hexec
          refine ⟨0, d', ?_, hmatches⟩
          rw [Nat.zero_add, stepN_one, step_at h.layout.distinct hplaced.kept]
          exact hexec'
      | left hret hvoid =>
          obtain rfl : i.ref = pc' := Option.some.inj hhead
          obtain ⟨hheld, hsame⟩ := htransparent.void hvoid
          obtain ⟨d', hstep', hmatches⟩ := hleave hret
            (by rw [← hheld s', hsame s s' hagree]) (by
              rw [hplaced.rewritten, List.append_assoc, List.singleton_append])
          refine ⟨0, d', ?_, hmatches⟩
          rw [Nat.zero_add, stepN_one]
          exact hstep'
      | stored store hret hvoid hstore =>
          obtain rfl : store.ref = pc' := Option.some.inj hhead
          obtain ⟨v, heffect, hheld⟩ := htransparent.store hvoid s s' hagree
          have hil : r.il = front ++ store :: ({ i with opcode := Cee.leaveS, target := t.exit } ::
              (chunksBehind.flatten ++ t.behind)) := by
            rw [hplaced.rewritten, List.append_assoc]
            rfl
          have hil' : r.il = (front ++ [store]) ++ { i with opcode := Cee.leaveS, target := t.exit } ::
              (chunksBehind.flatten ++ t.behind) := by
            rw [hil, List.append_assoc]
            rfl
          obtain ⟨d', hstep', hmatches⟩ := hleave hret hheld hil'
          rw [← hstore] at heffect
          refine ⟨1, d', ?_, hmatches⟩
          rw [stepN_succ, step_indexed h.layout.distinct hil hstore (by decide) (by decide)
            (by decide) heffect, Option.bind_some, stepN_one]
          exact hstep'

end steps

end DdTrace.Profiler.Rewriting
