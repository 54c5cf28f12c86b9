import DdTrace.Profiler.ILMachine
import DdTrace.Profiler.RewrittenBody

/-!
# The clauses of a rewritten method

Where the instructions of a rewritten method stand, and what its clauses protect.

* `Layout.atOrBehind_iff`: the instructions of the method keep their order.
* `Verified`: what is asked of the body. No jump and no handler may begin at a return of a method with a
  value: the value is stored in front of it.
* `Rewritten.protects_iff`, `Rewritten.handles_iff`: the clauses of the method are what they were.
* `Rewritten.template_protects`: the clauses that were added protect the method as a whole.

Source: `cor_profiler.cpp`, `CorProfiler::CallTarget_RewriterCallback`.
-/

namespace DdTrace.Profiler.Rewriting

open DdTrace.Lib
open ILRewriter (importMethod exportMethod)

/-! ## The order of the instructions -/

section order

variable {m : CallTargetMethod} {original r : ILRewriter} {t : Template}
  {chunks : List (List ILInstr)}

/-- The pointers of a list. -/
abbrev refsOf (il : List ILInstr) : List InstrRef := il.map ILInstr.ref

/-- The order of the parts of a list. -/
theorem order_append {il xs ys : List ILInstr} (h : Distinct il) (hil : il = xs ++ ys)
    {a b : InstrRef} (ha : a ∈ refsOf xs) (hb : b ∈ refsOf ys) :
    AtOrBehind (refsOf il) a b ∧ ¬AtOrBehind (refsOf il) b a := by
  have hrefs : refsOf il = refsOf xs ++ refsOf ys := by rw [hil, refsOf, List.map_append]
  have hnodup := h.nodup
  rw [← refsOf, hrefs] at hnodup
  rw [hrefs]
  exact ⟨atOrBehind_append ha hb, not_atOrBehind_append hnodup ha hb⟩

/-- What begins with an instruction is at or behind it. -/
theorem order_cons {il before after : List ILInstr} {i : ILInstr} (h : Distinct il)
    (hil : il = before ++ i :: after) {b : InstrRef} (hb : b ∈ refsOf (i :: after)) :
    AtOrBehind (refsOf il) i.ref b := by
  rcases List.mem_cons.mp hb with rfl | hb
  · rw [hil]
    refine atOrBehind_self ?_
    exact List.mem_map_of_mem (List.mem_append_right _ List.mem_cons_self)
  · refine (order_append h (hil.trans (List.append_cons _ _ _)) ?_ hb).1
    exact List.mem_map_of_mem (List.mem_append_right _ List.mem_cons_self)

theorem Changed.sublist {locals : Locals} {exit : InstrRef} {i : ILInstr} {chunk : List ILInstr}
    (h : Changed m locals exit i chunk) : [i.ref].Sublist (refsOf chunk) := by
  cases h with
  | kept => exact List.Sublist.refl _
  | left => exact List.Sublist.refl _
  | stored store => exact List.Sublist.cons _ (List.Sublist.refl _)

theorem sublist_flatten {locals : Locals} {exit : InstrRef} {il : List ILInstr}
    {chunks : List (List ILInstr)} (h : List.Forall₂ (Changed m locals exit) il chunks) :
    (refsOf il).Sublist (refsOf chunks.flatten) := by
  induction h with
  | nil => exact List.Sublist.refl _
  | cons hchanged _ ih =>
      rw [List.flatten_cons, refsOf, refsOf, List.map_append]
      exact hchanged.sublist.append ih

namespace Layout

theorem refs (h : Layout m original r t chunks) :
    refsOf r.il = refsOf t.before ++ refsOf chunks.flatten ++ refsOf t.behind := by
  rw [refsOf, h.il, List.map_append, List.map_append]

theorem sublist (h : Layout m original r t chunks) : (refsOf original.il).Sublist (refsOf r.il) := by
  rw [h.refs, List.append_assoc]
  exact ((sublist_flatten h.chunks).trans (List.sublist_append_left _ _)).trans
    (List.sublist_append_right _ _)

theorem sentinel_notMem (h : Layout m original r t chunks) : sentinel ∉ refsOf r.il := fun hmem => by
  obtain ⟨i, hi, href⟩ := List.mem_map.mp hmem
  exact h.distinct.ne_sentinel i hi href

/-- The instructions of the method keep their order. -/
theorem atOrBehind_iff (h : Layout m original r t chunks) {a b : InstrRef}
    (ha : a ∈ refsOf original.il ∨ a = sentinel) (hb : b ∈ refsOf original.il ∨ b = sentinel) :
    AtOrBehind (refsOf r.il) a b ↔ AtOrBehind (refsOf original.il) a b := by
  have hsentinel := h.sentinel_notMem
  rcases ha with ha | rfl
  · rcases hb with hb | rfl
    · exact atOrBehind_of_sublist h.sublist h.distinct.nodup ha hb
    · exact iff_of_false (fun hmem => hsentinel hmem.mem)
        fun hmem => hsentinel (h.sublist.subset hmem.mem)
  · exact iff_of_false (not_atOrBehind hsentinel)
      (not_atOrBehind fun hmem => hsentinel (h.sublist.subset hmem))

/-- An instruction of the method is behind what was put in front. -/
theorem behind_before (h : Layout m original r t chunks) {a pc : InstrRef}
    (ha : a ∈ refsOf t.before) (hpc : pc ∈ refsOf original.il) : AtOrBehind (refsOf r.il) a pc := by
  refine (order_append h.distinct (h.il.trans (List.append_assoc _ _ _)) ha ?_).1
  rw [refsOf, List.map_append]
  exact List.mem_append_left _ ((sublist_flatten h.chunks).subset hpc)

theorem not_behind_before (h : Layout m original r t chunks) {a pc : InstrRef}
    (ha : a ∈ refsOf t.before) (hpc : pc ∈ refsOf original.il ∨ pc = sentinel) :
    ¬AtOrBehind (refsOf r.il) pc a := by
  rcases hpc with hpc | rfl
  · refine (order_append h.distinct (h.il.trans (List.append_assoc _ _ _)) ha ?_).2
    rw [refsOf, List.map_append]
    exact List.mem_append_left _ ((sublist_flatten h.chunks).subset hpc)
  · exact not_atOrBehind h.sentinel_notMem

/-- What was put behind is behind the instructions of the method, and what was put in front. -/
theorem behind_original (h : Layout m original r t chunks) {a b : InstrRef}
    (ha : a ∈ refsOf original.il ∨ a ∈ refsOf t.before) (hb : b ∈ refsOf t.behind) :
    AtOrBehind (refsOf r.il) a b ∧ ¬AtOrBehind (refsOf r.il) b a := by
  refine order_append h.distinct h.il ?_ hb
  rw [refsOf, List.map_append]
  rcases ha with ha | ha
  · exact List.mem_append_right _ ((sublist_flatten h.chunks).subset ha)
  · exact List.mem_append_left _ ha

/-- The order of what was put behind. -/
theorem behind_behind (h : Layout m original r t chunks) (front rest : List ILInstr)
    (hsplit : t.behind = front ++ rest) {a b : InstrRef} (ha : a ∈ refsOf front)
    (hb : b ∈ refsOf rest) : AtOrBehind (refsOf r.il) a b ∧ ¬AtOrBehind (refsOf r.il) b a := by
  have hil : r.il = (t.before ++ chunks.flatten ++ front) ++ rest := by
    rw [h.il, hsplit, List.append_assoc (t.before ++ chunks.flatten)]
  refine order_append h.distinct hil ?_ hb
  rw [refsOf, List.map_append]
  exact List.mem_append_right _ ha

end Layout

end order

/-! ## What is asked of the method -/

/-- Where the begin of the method, an instruction or a clause leads to. -/
def destinations (original : ILRewriter) : List InstrRef :=
  (original.il.head?.map ILInstr.ref).toList ++ original.il.map ILInstr.target ++
    original.eh.map EHClause.handlerBegin

/-- What is asked of the body of a method. -/
structure Verified (m : CallTargetMethod) (original : ILRewriter) : Prop where
  /-- The end of no protected block is the end of the method. -/
  tryEnd : ∀ c ∈ original.eh, c.tryEnd ≠ sentinel
  leaves : ∀ i ∈ original.il, i.opcode = Cee.leave ∨ i.opcode = Cee.leaveS →
    i.target ∈ refsOf original.il
  /-- A filter comes before its handler, and does not return. -/
  filters : ∀ c ∈ original.eh, isFilter c.flags = true →
    AtOrBehind (refsOf original.il) c.filter c.handlerBegin ∧
      ∀ i ∈ c.filterCode original.il, i.opcode ≠ Cee.ret
  /-- A value is returned behind the instruction that comes before the return only. -/
  returns : m.isVoid = false → ∀ i ∈ original.il, i.opcode = Cee.ret →
    i.ref ∉ destinations original

/-- A method that was rewritten without a failure. -/
structure Rewritten (m : CallTargetMethod) (original r : ILRewriter) (t : Template)
    (chunks : List (List ILInstr)) : Prop where
  layout : Layout m original r t chunks
  begun : t.begun.Assigned
  ended : t.ended.Assigned
  sound : original.Sound
  verified : Verified m original

/-! ## The clauses -/

section clauses

variable {m : CallTargetMethod} {original r : ILRewriter} {t : Template}
  {chunks : List (List ILInstr)} {c : EHClause} {pc : InstrRef}

theorem known_of_lands {il : List ILInstr} {ref : InstrRef} (h : Lands il ref) :
    ref ∈ refsOf il ∨ ref = sentinel := by
  rcases h with rfl | ⟨i, hi, -⟩
  · exact Or.inr rfl
  · refine Or.inl (List.mem_map.mpr ⟨i, List.mem_of_find?_eq_some hi, ?_⟩)
    simpa using List.find?_some hi

theorem known_of_following {il : List ILInstr} {ref : InstrRef} {k : Nat}
    (h : following il ref = some k) : ref ∈ refsOf il ∨ ref = sentinel := by
  rw [following] at h
  split at h
  case isTrue href => exact Or.inr href
  case isFalse href =>
    obtain ⟨n, hn, -⟩ := Option.map_eq_some_iff.mp h
    rw [position, if_neg href] at hn
    obtain ⟨hlt, hget, -⟩ := List.findIdx?_eq_some_iff_getElem.mp hn
    exact Or.inl (List.mem_map.mpr ⟨il[n], List.getElem_mem hlt, by simpa using hget⟩)

namespace Rewritten

theorem tryEnd_mem (h : Rewritten m original r t chunks) (hc : c ∈ original.eh) :
    c.tryEnd ∈ refsOf original.il :=
  (known_of_lands (h.sound.stands c hc).tryEnd).resolve_right (h.verified.tryEnd c hc)

/-- The clauses of the method protect the instructions that they protected. -/
theorem protects_iff (h : Rewritten m original r t chunks) (hc : c ∈ original.eh)
    (hpc : pc ∈ refsOf original.il ∨ pc = sentinel) :
    c.Protects r.il pc ↔ c.Protects original.il pc := by
  have hstands := h.sound.stands c hc
  exact and_congr (h.layout.atOrBehind_iff (known_of_lands hstands.tryBegin) hpc)
    (not_congr (h.layout.atOrBehind_iff (known_of_lands hstands.tryEnd) hpc))

/-- Their handlers have the instructions that they had. -/
theorem handles_iff (h : Rewritten m original r t chunks) (hc : c ∈ original.eh)
    (hpc : pc ∈ refsOf original.il ∨ pc = sentinel) :
    c.Handles r.il pc ↔ c.Handles original.il pc := by
  have hstands := h.sound.stands c hc
  obtain ⟨k, hk, -⟩ := hstands.handlerEnd
  exact and_congr (h.layout.atOrBehind_iff (known_of_lands hstands.handlerBegin) hpc)
    (h.layout.atOrBehind_iff hpc (known_of_following hk))

/-- They have nothing to do with what was put behind. -/
theorem not_protects_behind (h : Rewritten m original r t chunks) (hc : c ∈ original.eh)
    (hpc : pc ∈ refsOf t.behind) : ¬c.Protects r.il pc := fun hprotects =>
  hprotects.2 (h.layout.behind_original (Or.inl (h.tryEnd_mem hc)) hpc).1

/-- Nor with what was put in front. -/
theorem not_protects_before (h : Rewritten m original r t chunks) (hc : c ∈ original.eh)
    (hpc : pc ∈ refsOf t.before) : ¬c.Protects r.il pc := fun hprotects =>
  h.layout.not_behind_before hpc (known_of_lands (h.sound.stands c hc).tryBegin) hprotects.1

theorem not_handles_behind (h : Rewritten m original r t chunks) (hc : c ∈ original.eh)
    (hpc : pc ∈ refsOf t.behind) : ¬c.Handles r.il pc := fun hhandles => by
  obtain ⟨k, hk, -⟩ := (h.sound.stands c hc).handlerEnd
  rcases known_of_following hk with hend | hend
  · exact (h.layout.behind_original (Or.inl hend) hpc).2 hhandles.2
  · obtain ⟨i, hi, href⟩ := List.mem_map.mp (hend ▸ hhandles.2.mem)
    exact h.layout.distinct.ne_sentinel i hi href

theorem inside_before (h : Rewritten m original r t chunks) :
    t.begun.first.value ∈ refsOf t.before ∧ t.begun.catchFirst.value ∈ refsOf t.before := by
  obtain ⟨hfirst, hcatch⟩ := List.forall_mem_cons.mp h.layout.begun
  obtain ⟨i, hi, href⟩ := hfirst h.begun.first
  obtain ⟨j, hj, href'⟩ := List.forall_mem_singleton.mp hcatch h.begun.catchFirst
  exact ⟨List.mem_map.mpr ⟨i, hi, href⟩, List.mem_map.mpr ⟨j, hj, href'⟩⟩

theorem inside_inner (h : Rewritten m original r t chunks) :
    t.ended.first.value ∈ refsOf t.inner ∧ t.ended.catchFirst.value ∈ refsOf t.inner := by
  obtain ⟨hfirst, hcatch⟩ := List.forall_mem_cons.mp h.layout.ended
  obtain ⟨i, hi, href⟩ := hfirst h.ended.first
  obtain ⟨j, hj, href'⟩ := List.forall_mem_singleton.mp hcatch h.ended.catchFirst
  exact ⟨List.mem_map.mpr ⟨i, hi, href⟩, List.mem_map.mpr ⟨j, hj, href'⟩⟩

theorem startFinally_mem (h : Rewritten m original r t chunks) :
    t.startFinally ∈ refsOf t.inner := by
  obtain ⟨i, hi, -⟩ := List.mem_map.mp h.inside_inner.1
  rw [Template.startFinally]
  cases hinner : t.inner with
  | nil => rw [hinner] at hi; cases hi
  | cons j inner => exact List.mem_cons_self

end Rewritten

/-- What is behind the instructions of the method, cut behind the catch clause. -/
theorem Template.behind_eq (t : Template) : t.behind =
    [t.store, t.rethrow] ++ (t.inner ++ (t.endFinally :: (t.rest ++ [t.ret]))) := by
  rw [Template.behind, List.cons_append, List.cons_append, List.append_assoc]
  rfl

namespace Rewritten

/-- The catch and the finally clause that were added protect the method; the clauses of the calls of
the integration do not. -/
theorem template_protects (h : Rewritten m original r t chunks) (hpc : pc ∈ refsOf original.il) :
    ¬(t.callClause t.begun).Protects r.il pc ∧ ¬(t.callClause t.ended).Protects r.il pc ∧
      t.catchClause.Protects r.il pc ∧ t.finallyClause.Protects r.il pc := by
  obtain ⟨hfirst, hcatch⟩ := h.inside_before
  have hbehind : ∀ a, a ∈ refsOf t.inner → a ∈ refsOf t.behind := by
    intro a ha
    rw [t.behind_eq, refsOf, List.map_append, List.map_append]
    exact List.mem_append_right _ (List.mem_append_left _ ha)
  have hstore : t.store.ref ∈ refsOf t.behind := List.mem_cons_self
  refine ⟨fun hprotects => hprotects.2 (h.layout.behind_before hcatch hpc), fun hprotects => ?_,
    ⟨h.layout.behind_before hfirst hpc, ?_⟩, h.layout.behind_before hfirst hpc, ?_⟩
  · exact (h.layout.behind_original (Or.inl hpc) (hbehind _ h.inside_inner.1)).2 hprotects.1
  · exact (h.layout.behind_original (Or.inl hpc) hstore).2
  · exact (h.layout.behind_original (Or.inl hpc) (hbehind _ h.startFinally_mem)).2

/-- Behind the finally block nothing is protected. -/
theorem not_protects_rest (h : Rewritten m original r t chunks)
    (hpc : pc ∈ refsOf (t.endFinally :: (t.rest ++ [t.ret]))) : ∀ c ∈ r.eh, ¬c.Protects r.il pc := by
  have hinner : ∀ a, a ∈ refsOf t.inner → AtOrBehind (refsOf r.il) a pc := by
    intro a ha
    refine (h.layout.behind_behind ([t.store, t.rethrow] ++ t.inner) _ ?_ ?_ hpc).1
    · rw [t.behind_eq, List.append_assoc]
    · rw [refsOf, List.map_append]
      exact List.mem_append_right _ ha
  have hbehind : pc ∈ refsOf t.behind := by
    rw [t.behind_eq, refsOf, List.map_append, List.map_append]
    exact List.mem_append_right _ (List.mem_append_right _ hpc)
  have hstore : AtOrBehind (refsOf r.il) t.store.ref pc := by
    refine (h.layout.behind_behind ([t.store, t.rethrow] ++ t.inner) _ ?_ ?_ hpc).1
    · rw [t.behind_eq, List.append_assoc]
    · exact List.mem_cons_self
  intro c hc
  rw [h.layout.eh] at hc
  rcases List.mem_append.mp hc with hc | hc
  · exact h.not_protects_behind hc hbehind
  · simp only [Template.clauses, List.mem_cons, List.not_mem_nil, or_false] at hc
    rcases hc with rfl | rfl | rfl | rfl
    · exact fun hprotects => hprotects.2 (h.layout.behind_original (Or.inr h.inside_before.2) hbehind).1
    · exact fun hprotects => hprotects.2 (hinner _ h.inside_inner.2)
    · exact fun hprotects => hprotects.2 hstore
    · exact fun hprotects => hprotects.2 (hinner _ h.startFinally_mem)

/-- What is thrown again goes through the finally block only. -/
theorem rethrow_protects (h : Rewritten m original r t chunks) :
    (∀ c ∈ original.eh, ¬c.Protects r.il t.rethrow.ref) ∧
      ¬(t.callClause t.begun).Protects r.il t.rethrow.ref ∧
      ¬(t.callClause t.ended).Protects r.il t.rethrow.ref ∧
      ¬t.catchClause.Protects r.il t.rethrow.ref ∧
      t.finallyClause.Protects r.il t.rethrow.ref ∧
      ¬t.catchClause.Handles r.il t.startFinally := by
  have hbehind : t.rethrow.ref ∈ refsOf t.behind := List.mem_cons_of_mem _ List.mem_cons_self
  have hinner : ∀ a, a ∈ refsOf t.inner → AtOrBehind (refsOf r.il) t.rethrow.ref a ∧
      ¬AtOrBehind (refsOf r.il) a t.rethrow.ref := by
    intro a ha
    refine h.layout.behind_behind _ _ t.behind_eq (List.mem_cons_of_mem _ List.mem_cons_self) ?_
    rw [refsOf, List.map_append]
    exact List.mem_append_left _ ha
  have hstore : AtOrBehind (refsOf r.il) t.store.ref t.rethrow.ref :=
    (h.layout.behind_behind [t.store] _ t.behind_eq List.mem_cons_self List.mem_cons_self).1
  refine ⟨fun c hc => h.not_protects_behind hc hbehind, fun hp => hp.2 ?_, fun hp => ?_,
    fun hp => hp.2 hstore, ⟨?_, (hinner _ h.startFinally_mem).2⟩, fun hhandles => ?_⟩
  · exact (h.layout.behind_original (Or.inr h.inside_before.2) hbehind).1
  · exact (hinner _ h.inside_inner.1).2 hp.1
  · exact (h.layout.behind_original (Or.inr h.inside_before.1) hbehind).1
  · exact (hinner _ h.startFinally_mem).2 hhandles.2

end Rewritten

end clauses

end DdTrace.Profiler.Rewriting
