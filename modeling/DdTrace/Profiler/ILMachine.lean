import DdTrace.Lib.Simulation
import DdTrace.Profiler.ILCode

/-!
# Runs of method bodies

What the runtime does with a list of instructions and its exception handling clauses. Instructions are
known by their pointers, so that lists before and after a rewriting can be compared.

* `Machine`: what the instructions that do not concern the clauses do, which is a parameter.
* `Config`: where a run is, with the handlers that are being executed.
* `Machine.step`: one instruction; `leave`, `endfinally`, `rethrow` and exceptions go through the
  clauses, in their order.

An exception is handled in two passes: the first one finds the clause that catches it and runs filters,
the second one runs the finally and fault blocks on the way.

Source: the instruction set that `il_rewriter.h` and `opcode.def` stand for.
-/

namespace DdTrace.Profiler

open DdTrace.Lib

/-! ## Places -/

/-- `b` is at or behind `a`. -/
def AtOrBehind (refs : List InstrRef) (a b : InstrRef) : Prop := b ∈ refs.dropWhile fun r => r ≠ a

instance (refs : List InstrRef) (a b : InstrRef) : Decidable (AtOrBehind refs a b) :=
  inferInstanceAs (Decidable (_ ∈ _))

section places

variable {refs more : List InstrRef} {a b : InstrRef}

theorem AtOrBehind.mem (h : AtOrBehind refs a b) : b ∈ refs := List.dropWhile_subset _ h

@[simp] theorem atOrBehind_cons_self : AtOrBehind (a :: refs) a b ↔ b ∈ a :: refs := by
  simp [AtOrBehind]

theorem atOrBehind_cons_ne {r : InstrRef} (hne : r ≠ a) :
    AtOrBehind (r :: refs) a b ↔ AtOrBehind refs a b := by
  simp [AtOrBehind, hne]

/-- Nothing is behind what is not there. -/
theorem not_atOrBehind (ha : a ∉ refs) : ¬AtOrBehind refs a b := by
  induction refs with
  | nil => exact List.not_mem_nil
  | cons r refs ih =>
      obtain ⟨hr, hrefs⟩ := not_or.mp (mt List.mem_cons.mpr ha)
      rw [atOrBehind_cons_ne (Ne.symm hr)]
      exact ih hrefs

theorem atOrBehind_self (ha : a ∈ refs) : AtOrBehind refs a a := by
  induction refs with
  | nil => cases ha
  | cons r refs ih =>
      by_cases heq : r = a
      · subst heq
        exact atOrBehind_cons_self.mpr List.mem_cons_self
      · rw [atOrBehind_cons_ne heq]
        exact ih ((List.mem_cons.mp ha).resolve_left (Ne.symm heq))

/-- **New instructions between them** do not change the order of two others. -/
theorem atOrBehind_of_sublist (h : refs.Sublist more) (hnodup : more.Nodup) (ha : a ∈ refs)
    (hb : b ∈ refs) : AtOrBehind more a b ↔ AtOrBehind refs a b := by
  induction h with
  | slnil => exact Iff.rfl
  | @cons refs more r hsub ih =>
      obtain ⟨hr, hnodup⟩ := List.nodup_cons.mp hnodup
      have hne : r ≠ a := fun heq => hr (heq ▸ hsub.subset ha)
      rw [atOrBehind_cons_ne hne]
      exact ih hnodup ha hb
  | @cons_cons refs more r hsub ih =>
      obtain ⟨hr, hnodup⟩ := List.nodup_cons.mp hnodup
      by_cases heq : r = a
      · subst heq
        rw [atOrBehind_cons_self, atOrBehind_cons_self]
        exact iff_of_true ((hsub.cons_cons r).subset hb) hb
      · rw [atOrBehind_cons_ne heq, atOrBehind_cons_ne heq]
        have ha' : a ∈ refs := (List.mem_cons.mp ha).resolve_left (Ne.symm heq)
        by_cases hbr : b = r
        · subst hbr
          exact iff_of_false (fun hmem => hr hmem.mem) fun hmem => hr (hsub.subset hmem.mem)
        · exact ih hnodup ha' ((List.mem_cons.mp hb).resolve_left hbr)

/-- The second part is behind the first one. -/
theorem atOrBehind_append (ha : a ∈ refs) (hb : b ∈ more) : AtOrBehind (refs ++ more) a b := by
  induction refs with
  | nil => cases ha
  | cons r refs ih =>
      rw [List.cons_append]
      by_cases heq : r = a
      · subst heq
        exact atOrBehind_cons_self.mpr (List.mem_cons_of_mem _ (List.mem_append_right _ hb))
      · rw [atOrBehind_cons_ne heq]
        exact ih ((List.mem_cons.mp ha).resolve_left (Ne.symm heq))

theorem not_atOrBehind_append (hnodup : (refs ++ more).Nodup) (ha : a ∈ refs) (hb : b ∈ more) :
    ¬AtOrBehind (refs ++ more) b a := by
  have hdisjoint := (List.nodup_append.mp hnodup).2.2
  have hdrop : ∀ r ∈ refs, decide (r ≠ b) = true :=
    fun r hr => decide_eq_true fun heq => hdisjoint r hr b hb heq
  rw [AtOrBehind, List.dropWhile_append_of_pos hdrop]
  exact fun hmem => hdisjoint a ha a (List.dropWhile_subset _ hmem) rfl

end places

namespace EHClause

/-- `COR_ILEXCEPTION_CLAUSE_FINALLY`. -/
def isFinally (c : EHClause) : Bool := c.flags = 2

/-- A typed clause, `COR_ILEXCEPTION_CLAUSE_NONE`. -/
def isCatch (c : EHClause) : Bool := c.flags = 0

/-- The instruction is protected by the clause. -/
def Protects (il : List ILInstr) (c : EHClause) (pc : InstrRef) : Prop :=
  AtOrBehind (il.map ILInstr.ref) c.tryBegin pc ∧ ¬AtOrBehind (il.map ILInstr.ref) c.tryEnd pc

instance (il : List ILInstr) (c : EHClause) (pc : InstrRef) : Decidable (c.Protects il pc) :=
  inferInstanceAs (Decidable (_ ∧ _))

/-- The instruction is one of the handler. -/
def Handles (il : List ILInstr) (c : EHClause) (pc : InstrRef) : Prop :=
  AtOrBehind (il.map ILInstr.ref) c.handlerBegin pc ∧ AtOrBehind (il.map ILInstr.ref) pc c.handlerEnd

instance (il : List ILInstr) (c : EHClause) (pc : InstrRef) : Decidable (c.Handles il pc) :=
  inferInstanceAs (Decidable (_ ∧ _))

/-- The instructions of the filter, which come before the handler. -/
def filterCode (il : List ILInstr) (c : EHClause) : List ILInstr :=
  (il.dropWhile fun i => i.ref ≠ c.filter).takeWhile fun i => i.ref ≠ c.handlerBegin

end EHClause

/-! ## Machines -/

/-- What an instruction does. -/
inductive Effect (S E : Type) where
  /-- The next instruction comes. -/
  | next (s : S)
  /-- It goes to its target. -/
  | jump (s : S)
  /-- It goes to the target of an arm behind it. -/
  | arm (k : Nat) (s : S)
  | throw (e : E) (s : S)

/-- The part of the runtime that does not concern the clauses: the state of a method, with what it can
reach, is in `S`, and exceptions are in `E`. What is undefined is `none`. -/
structure Machine (S E : Type) where
  /-- An instruction, by its opcode and its operand. -/
  effect : (opcode arg : Nat) → S → Option (Effect S E)
  /-- An exception is of the class of a token. -/
  catches : (classToken : Nat) → E → Bool
  /-- The answer of a filter, and the state behind it. -/
  filter : List ILInstr → E → S → Option (Bool × S)
  /-- The exception is the only value on the stack. -/
  caught : E → S → S
  /-- There is no value on the stack. -/
  emptied : S → S

/-- Why a handler is executed. -/
inductive Reason (E : Type) where
  /-- A `leave`, with the finally blocks that come next. -/
  | leaving (todo : List EHClause) (target : InstrRef)
  /-- The second pass of an exception, with the blocks that come next and the clause that was found;
  there is none if the exception leaves the method. -/
  | unwinding (todo : List EHClause) (found : Option EHClause) (e : E)
  /-- An exception that is caught. -/
  | caught (e : E)

/-- A handler that is executed. -/
structure Frame (E : Type) where
  clause : EHClause
  reason : Reason E

/-- Where a run is; the innermost handler comes first. -/
inductive Config (S E : Type) where
  | at (pc : InstrRef) (s : S) (frames : List (Frame E))
  /-- It has returned; the value is on the stack. -/
  | returned (s : S)
  /-- It has thrown an exception. -/
  | raised (e : E) (s : S)

/-! ## Steps -/

/-- The handlers that an instruction is part of. -/
def enclosing {E : Type} (il : List ILInstr) (frames : List (Frame E)) (pc : InstrRef) :
    List (Frame E) :=
  frames.dropWhile fun f => ¬f.clause.Handles il pc

/-- The finally blocks that a `leave` goes through. -/
def leftBlocks (il : List ILInstr) (eh : List EHClause) (pc target : InstrRef) : List EHClause :=
  eh.filter fun c => c.isFinally ∧ c.Protects il pc ∧ ¬c.Protects il target

/-- The arms behind a switch. -/
def armsOf (il : List ILInstr) (pc : InstrRef) : List ILInstr :=
  ((il.dropWhile fun i => i.ref ≠ pc).drop 1).takeWhile ILInstr.isArm

namespace Machine

variable {S E : Type} (M : Machine S E) (il : List ILInstr) (eh : List EHClause)

/-- A handler is entered. -/
def enter (c : EHClause) (reason : Reason E) (s : S) (frames : List (Frame E)) : Config S E :=
  .at c.handlerBegin s (⟨c, reason⟩ :: enclosing il frames c.handlerBegin)

/-- The rest of a `leave`. -/
def leaveTo (todo : List EHClause) (target : InstrRef) (s : S) (frames : List (Frame E)) :
    Config S E :=
  match todo with
  | [] => .at target (M.emptied s) (enclosing il frames target)
  | c :: todo => enter il c (.leaving todo target) (M.emptied s) frames

/-- The rest of the second pass. -/
def unwind (todo : List EHClause) (found : Option EHClause) (e : E) (s : S)
    (frames : List (Frame E)) : Config S E :=
  match todo with
  | c :: todo => enter il c (.unwinding todo found e) (M.emptied s) frames
  | [] =>
      match found with
      | none => .raised e s
      | some c => enter il c (.caught e) (M.caught e s) frames

/-- The first pass, through the clauses: the one that catches the exception, and the finally and fault
blocks before it. -/
def search (pc : InstrRef) (e : E) :
    List EHClause → List EHClause → S → Option (Option EHClause × List EHClause × S)
  | [], passed, s => some (none, passed, s)
  | c :: eh, passed, s =>
      if ¬c.Protects il pc then search pc e eh passed s
      else if isFilter c.flags then do
        let (accepted, s) ← M.filter (c.filterCode il) e s
        if accepted then some (some c, passed, s) else search pc e eh passed s
      else if c.isCatch then
        if M.catches c.classToken e then some (some c, passed, s) else search pc e eh passed s
      else search pc e eh (passed ++ [c]) s

/-- An exception is thrown. -/
def throw (pc : InstrRef) (e : E) (s : S) (frames : List (Frame E)) : Option (Config S E) := do
  let (found, passed, s) ← M.search il pc e eh [] s
  some (M.unwind il passed found e s frames)

/-- A return, which may not stand in a protected block or in a handler. -/
def ret (pc : InstrRef) (s : S) (frames : List (Frame E)) : Option (Config S E) :=
  if frames.isEmpty ∧ ∀ c ∈ eh, ¬c.Protects il pc then some (.returned s) else none

/-- The end of a finally or a fault block. -/
def endFinally (s : S) (frames : List (Frame E)) : Option (Config S E) :=
  match frames with
  | ⟨_, .leaving todo target⟩ :: frames => some (M.leaveTo il todo target s frames)
  | ⟨_, .unwinding todo found e⟩ :: frames => some (M.unwind il todo found e s frames)
  | _ => none

/-- `rethrow`, in a handler that has caught an exception. -/
def rethrow (pc : InstrRef) (s : S) (frames : List (Frame E)) : Option (Config S E) :=
  match frames with
  | ⟨_, .caught e⟩ :: _ => M.throw il eh pc e s frames
  | _ => none

/-- Any other instruction. An arm of a switch does nothing by itself. -/
def plain (i : ILInstr) (s : S) (frames : List (Frame E)) : Option (Config S E) := do
  let behind ← ILRewriter.next il i.ref
  if i.isArm then some (.at behind s frames)
  else
    match ← M.effect i.opcode i.arg s with
    | .next s => some (.at behind s frames)
    | .jump s => some (.at i.target s frames)
    | .arm k s => do
        let arm ← (armsOf il i.ref)[k]?
        some (.at arm.target s frames)
    | .throw e s => M.throw il eh i.ref e s frames

/-- An instruction. -/
def exec (i : ILInstr) (s : S) (frames : List (Frame E)) : Option (Config S E) :=
  if i.opcode = Cee.ret then ret il eh i.ref s frames
  else if i.opcode = Cee.leave ∨ i.opcode = Cee.leaveS then
    some (M.leaveTo il (leftBlocks il eh i.ref i.target) i.target s frames)
  else if i.opcode = 0xDC then M.endFinally il s frames
  else if i.opcode = 0x11A then M.rethrow il eh i.ref s frames
  else M.plain il eh i s frames

/-- One step. -/
def step : Config S E → Option (Config S E)
  | .at pc s frames => do
      let i ← il.find? fun i => i.ref = pc
      M.exec il eh i s frames
  | _ => none

end Machine

end DdTrace.Profiler
