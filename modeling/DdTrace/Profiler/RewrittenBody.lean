import DdTrace.Profiler.ILEdits
import DdTrace.Profiler.RewriterCallback

/-!
# The body of a rewritten method

What `CallTarget_RewriterCallback` does to the list of instructions, whatever the metadata calls
answer.

* `Stable`: a property of the state that no function of `CallTargetTokens` ends.
* `Building`: a list that instructions are being inserted into, between its front and its tail.
* `Layout`: the list of a method that has been rewritten.
* `exported_layout`: no list is exported that is not laid out so.

Source: `cor_profiler.cpp`, lines 3133 to 3579.
-/

namespace DdTrace.Profiler.Rewriting

open DdTrace.Lib
open ILRewriter (importMethod exportMethod)

/-- The opcode is one of an instruction that goes on to the next one, or throws. -/
def Linear (opcode : Nat) : Prop :=
  opcode ≠ Cee.ret ∧ opcode ≠ Cee.leave ∧ opcode ≠ Cee.leaveS ∧ opcode ≠ 0xDC ∧ opcode ≠ 0x11A ∧
    opcode ≠ Cee.switchArg

instance (opcode : Nat) : Decidable (Linear opcode) := inferInstanceAs (Decidable (_ ∧ _))

theorem linear_of_lt {opcode : Nat} (h : opcode < Cee.ret) : Linear opcode := by
  rw [Cee.ret] at h
  simp only [Linear, Cee.ret, Cee.leave, Cee.leaveS, Cee.switchArg]
  omega

/-- So is that of an instruction with an index. -/
theorem indexed_linear {opcode0 opcodeS opcode : Nat} (index : Nat) (h0 : opcode0 + 3 < Cee.ret)
    (hS : Linear opcodeS) (hlong : Linear opcode) :
    Linear (indexed opcode0 opcodeS opcode index).1 := by
  rw [indexed]
  split
  case isTrue hle =>
    show Linear (opcode0 + index)
    exact linear_of_lt (by omega)
  case isFalse =>
    split
    case isTrue => exact hS
    case isFalse => exact hlong

/-! ## What the functions keep -/

/-- A property of the state that is kept by the calls for tokens. -/
structure Quiet (I : Session → Prop) : Prop where
  keep : ∀ s slot token, I s → I (s.keep slot token)
  note : ∀ s f b, I s → I (s.note f b)
  tkLocalVarSig : ∀ s n, I s →
    I { s with rewriter := { s.rewriter with tkLocalVarSig := n } }

/-- A property of the state that is kept by what the functions do to it. -/
structure Stable (I : Session → Prop) : Prop where
  keep : ∀ s slot token, I s → I (s.keep slot token)
  note : ∀ s f b, I s → I (s.note f b)
  insert : ∀ s opcode arg operands, Linear opcode → I s → I (s.insert opcode arg operands)
  tkLocalVarSig : ∀ s n, I s →
    I { s with rewriter := { s.rewriter with tkLocalVarSig := n } }

section Stable

open Procedure

variable {I : Session → Prop} {caller : Caller} {slot : Slot} {m : CallTargetMethod}

theorem preserves_failsWith {α : Type} {x : Fallible α} {value : UInt32} (h : Preserves I x.run) :
    Preserves I (failsWith value x).run := by
  refine Preserves.bind h fun r => ?_
  cases r with
  | ok a => exact Preserves.pure _
  | error e => exact Preserves.pure _

theorem preserves_returned {x : Fallible mdToken} (h : Preserves I x.run) :
    Preserves I (returned x) := by
  refine Preserves.bind h fun r => ?_
  cases r with
  | ok token => exact Preserves.pure _
  | error value => exact Preserves.pure _

theorem preserves_define {slot : Option Slot} {d : Definition} :
    Preserves I (define caller slot d).run :=
  Preserves.ask _

/-- The state is read. -/
theorem preserves_get {α : Type} {f : Session → Fallible α} (hf : ∀ s, Preserves I (f s).run) :
    Preserves I ((get : Fallible Session) >>= f).run :=
  Preserves.andThen (.of_done (fun _ => rfl) fun _ h => h) hf

theorem preserves_originalLocals : Preserves I (originalLocals m).run := by
  refine preserves_get fun s => ?_
  split
  case isTrue => exact Preserves.pure _
  case isFalse =>
    refine Preserves.andThen (Preserves.ask _) fun stored => ?_
    split
    case isTrue => exact Preserves.pure _
    case isFalse => exact Preserves.pure _

namespace Quiet

variable (h : Quiet I)

include h

theorem ensure : Preserves I (ensure caller slot).run := by
  refine preserves_get fun s => ?_
  split
  case isTrue => exact Preserves.pure _
  case isFalse =>
    refine Preserves.andThen preserves_define fun token => ?_
    exact .of_done (fun _ => rfl) fun s hs => h.keep s slot token hs

theorem ensureAll (slots : List Slot) : Preserves I (ensureAll caller slots).run := by
  induction slots with
  | nil => exact Preserves.pure _
  | cons slot slots ih => exact Preserves.andThen h.ensure fun _ => ih

theorem base : Preserves I (EnsureBaseCalltargetTokens caller).run :=
  Preserves.andThen (h.ensureAll _) fun _ => h.ensureAll _

/-! ### The locals -/

theorem getTargetVoidReturnTypeRef : Preserves I (GetTargetVoidReturnTypeRef caller) := by
  refine preserves_returned (preserves_failsWith ?_)
  refine Preserves.andThen h.base fun _ => Preserves.andThen h.ensure fun _ => ?_
  exact preserves_get fun s => Preserves.pure _

theorem getTargetReturnValueTypeRef : Preserves I (GetTargetReturnValueTypeRef caller m) := by
  refine preserves_returned (preserves_failsWith ?_)
  refine Preserves.andThen h.base fun _ => Preserves.andThen h.ensure fun _ => ?_
  exact preserves_get fun s => Preserves.andThen preserves_define fun _ => Preserves.pure _

theorem defaultMethodSpec : Preserves I (GetCallTargetDefaultValueMethodSpec caller m) := by
  refine preserves_returned (Preserves.andThen (preserves_failsWith h.base) fun _ => ?_)
  refine Preserves.andThen h.ensure fun _ => preserves_failsWith ?_
  exact preserves_get fun s => Preserves.andThen preserves_define fun _ => Preserves.pure _

theorem returnValueDefault {typeSpec : mdToken} :
    Preserves I (GetCallTargetReturnValueDefaultMemberRef caller typeSpec) := by
  refine preserves_returned (preserves_failsWith ?_)
  refine Preserves.andThen h.base fun _ => preserves_get fun s => ?_
  split
  case isTrue => exact Preserves.pure _
  case isFalse => exact Preserves.andThen preserves_define fun _ => Preserves.pure _

theorem returnVoidDefault : Preserves I (GetCallTargetReturnVoidDefaultMemberRef caller) := by
  refine preserves_returned (preserves_failsWith ?_)
  refine Preserves.andThen h.base fun _ => Preserves.andThen h.ensure fun _ => ?_
  exact preserves_get fun s => Preserves.pure _

theorem returnLocals : Preserves I (returnLocals m).run := by
  rw [Rewriting.returnLocals]
  split
  case isTrue =>
    refine Preserves.andThen (Preserves.lift h.getTargetReturnValueTypeRef) fun _ => ?_
    exact Preserves.andThen (preserves_failsWith (Preserves.ask _)) fun _ => Preserves.pure _
  case isFalse =>
    exact Preserves.andThen (Preserves.lift h.getTargetVoidReturnTypeRef) fun _ => Preserves.pure _

theorem modifyLocalSig : Preserves I (ModifyLocalSig m).run := by
  refine Preserves.andThen h.base fun _ => Preserves.andThen preserves_originalLocals fun locals => ?_
  refine Preserves.andThen h.returnLocals fun r => ?_
  split
  case h_1 => exact Preserves.pure _
  case h_2 =>
    refine preserves_get fun s => Preserves.andThen preserves_define fun token => ?_
    refine Preserves.andThen ?_ fun _ => Preserves.pure _
    exact .of_done (fun _ => rfl) fun s hs => h.tkLocalVarSig s _ hs

end Quiet

namespace Stable

variable (h : Stable I)

include h

theorem quiet : Quiet I := ⟨h.keep, h.note, h.tkLocalVarSig⟩

/-! ### Instructions -/

theorem createInstr {opcode arg : Nat} {operands : List Operand} (hopcode : Linear opcode) :
    Preserves I (CreateInstr opcode arg operands) :=
  .of_done (fun _ => rfl) fun s hs => h.insert s opcode arg operands hopcode hs

theorem callMember (token : Out mdToken) : Preserves I (CallMember token) :=
  h.createInstr (by decide)

theorem loadInt32 (value : Nat) : Preserves I (LoadInt32 value) := by
  rw [LoadInt32]
  split
  case isTrue hle =>
    exact h.createInstr (linear_of_lt (by rw [Cee.ret]; omega))
  case isFalse =>
    split
    case isTrue => exact h.createInstr (by decide)
    case isFalse => exact h.createInstr (by decide)

/-- An instruction with an index. -/
theorem indexedInstr {opcode0 opcodeS opcode index : Nat} {operands : List Operand}
    (h0 : opcode0 + 3 < Cee.ret) (hS : Linear opcodeS) (hlong : Linear opcode) :
    Preserves I (CreateInstr (indexed opcode0 opcodeS opcode index).1
      (indexed opcode0 opcodeS opcode index).2 operands) :=
  h.createInstr (indexed_linear index h0 hS hlong)

theorem loadArgument (index : Nat) : Preserves I (LoadArgument index) :=
  h.indexedInstr (by decide) (by decide) (by decide)

theorem stLocal (index : Out UInt32) : Preserves I (StLocal index) :=
  h.indexedInstr (by decide) (by decide) (by decide)

theorem loadLocal (index : Out UInt32) : Preserves I (LoadLocal index) :=
  h.indexedInstr (by decide) (by decide) (by decide)

theorem loadLocalAddress (index : Out UInt32) : Preserves I (LoadLocalAddress index) := by
  rw [LoadLocalAddress]
  split
  case isTrue => exact h.createInstr (by decide)
  case isFalse => exact h.createInstr (by decide)

theorem defaultValue {x : Rewrite (Out mdToken)} (hx : Preserves I x) :
    Preserves I (defaultValue x) := by
  refine Preserves.bind hx fun token => ?_
  refine Preserves.bind (Preserves.modify fun s hs => h.note s _ _ hs) fun _ => ?_
  exact h.callMember token

/-! ### The functions that the callback calls -/

theorem writeCall {methodSpec : CallTargetTokens → Builder} :
    Preserves I (writeCall caller slot methodSpec).run := by
  refine Preserves.andThen h.quiet.base fun _ => Preserves.andThen h.quiet.ensure fun _ => ?_
  refine preserves_get fun s => Preserves.andThen preserves_define fun token => ?_
  exact Preserves.lift (h.callMember _)

theorem writeBeginMethod : Preserves I (WriteBeginMethod m).run := by
  rw [WriteBeginMethod]
  split
  case isTrue => exact Preserves.andThen h.quiet.base fun _ => h.writeCall
  case isFalse => exact h.writeCall

theorem writeEndReturnMemberRef : Preserves I (WriteEndReturnMemberRef m).run := by
  refine Preserves.andThen h.quiet.base fun _ => ?_
  refine Preserves.andThen (Preserves.lift h.quiet.getTargetReturnValueTypeRef) fun _ => ?_
  refine preserves_get fun s => Preserves.andThen preserves_define fun _ => ?_
  exact Preserves.andThen preserves_define fun _ => Preserves.lift (h.callMember _)

theorem writeGetReturnValue (typeSpec : mdToken) :
    Preserves I (WriteCallTargetReturnGetReturnValue typeSpec).run := by
  refine Preserves.andThen (preserves_failsWith ?_) fun _ => Preserves.lift (h.callMember _)
  exact Preserves.andThen h.quiet.base fun _ => preserves_define

theorem noted {f : Vital} {x : Fallible InstrRef} (hx : Preserves I x.run) :
    Preserves I (noted f x) := by
  refine Preserves.bind hx fun r => ?_
  cases r with
  | ok instr =>
      exact Preserves.bind (Preserves.modify fun s hs => h.note s _ _ hs) fun _ => Preserves.pure _
  | error hr =>
      exact Preserves.bind (Preserves.modify fun s hs => h.note s _ _ hs) fun _ => Preserves.pure _

theorem loadInstance : Preserves I (loadInstance m) := by
  rw [Rewriting.loadInstance]
  split
  case isTrue =>
    split
    case isTrue => exact Preserves.stop
    case isFalse => exact h.createInstr (by decide)
  case isFalse =>
    refine Preserves.bind (h.loadArgument 0) fun first => ?_
    split
    case isTrue =>
      split
      case isTrue => exact Preserves.bind (h.createInstr (by decide)) fun _ => Preserves.pure _
      case isFalse =>
        split
        case isTrue => exact Preserves.bind (h.createInstr (by decide)) fun _ => Preserves.pure _
        case isFalse => exact Preserves.stop
    case isFalse => exact Preserves.pure _

theorem loadArgumentsDirectly (i : Nat) (args : List ParamType) :
    Preserves I (loadArgumentsDirectly m i args) := by
  induction args generalizing i with
  | nil => exact Preserves.pure _
  | cons arg args ih =>
      refine Preserves.bind (h.loadArgument _) fun _ => ?_
      split
      case isTrue => exact Preserves.stop
      case isFalse => exact ih (i + 1)

theorem boxArgument (arg : ParamType) : Preserves I (boxArgument arg) := by
  have htok : Preserves I (GetTypeTok arg.bytes).run := by
    rw [GetTypeTok]
    generalize (if arg.bytes.headD 0 == CorElementType.byRef then arg.bytes.tail else arg.bytes) = pbCur
    split
    case h_1 =>
      exact preserves_get fun s => Preserves.andThen preserves_define fun _ => Preserves.pure _
    case h_2 =>
      split
      case isTrue => exact Preserves.andThen preserves_define fun _ => Preserves.pure _
      case isFalse =>
        split
        case isTrue =>
          split
          case h_1 => exact Preserves.pure _
          case h_2 => exact Preserves.pure _
        case isFalse => exact Preserves.pure _
  rw [Rewriting.boxArgument]
  split
  case isTrue =>
    refine Preserves.bind htok fun r => ?_
    cases r with
    | ok tok => exact Preserves.bind (h.createInstr (by decide)) fun _ => Preserves.pure _
    | error e => exact Preserves.stop
  case isFalse => exact Preserves.pure _

theorem loadArgumentsIntoArray (i : Nat) (args : List ParamType) :
    Preserves I (loadArgumentsIntoArray m i args) := by
  induction args generalizing i with
  | nil => exact Preserves.pure _
  | cons arg args ih =>
      refine Preserves.bind (Preserves.bind (h.createInstr (by decide)) fun _ => h.loadInt32 i) ?_
      refine fun _ => Preserves.bind (h.loadArgument _) fun _ => ?_
      split
      case isTrue => exact Preserves.stop
      case isFalse =>
        refine Preserves.bind (h.boxArgument arg) fun _ => ?_
        exact Preserves.bind (h.createInstr (by decide)) fun _ => ih (i + 1)

theorem loadArguments : Preserves I (loadArguments m) := by
  rw [Rewriting.loadArguments]
  split
  case isTrue => exact h.loadArgumentsDirectly 0 _
  case isFalse =>
    refine Preserves.bind Preserves.get fun s => ?_
    refine Preserves.bind (Preserves.bind (h.loadInt32 _) fun _ => h.createInstr (by decide)) ?_
    exact fun _ => h.loadArgumentsIntoArray 0 _

theorem callBeginMethod : Preserves I (callBeginMethod m) := by
  refine Preserves.bind h.writeBeginMethod fun r => ?_
  cases r with
  | ok instr => exact Preserves.modify fun s hs => h.note s _ _ hs
  | error hr =>
      exact Preserves.bind (Preserves.modify fun s hs => h.note s _ _ hs) fun _ => Preserves.stop

theorem loadReturnValue (locals : Locals) : Preserves I (loadReturnValue m locals) := by
  rw [Rewriting.loadReturnValue]
  split
  case isTrue => exact Preserves.pure _
  case isFalse => exact Preserves.bind (h.loadLocal _) fun _ => Preserves.pure _

theorem callEndMethod (locals : Locals) : Preserves I (callEndMethod m locals) := by
  rw [Rewriting.callEndMethod]
  split
  case isTrue =>
    refine Preserves.bind (h.noted h.writeCall) fun _ => ?_
    exact Preserves.bind (h.stLocal _) fun _ => Preserves.pure _
  case isFalse =>
    refine Preserves.bind (h.noted h.writeEndReturnMemberRef) fun _ => ?_
    refine Preserves.bind (h.stLocal _) fun _ => Preserves.bind (h.loadLocalAddress _) fun _ => ?_
    refine Preserves.bind (h.writeGetReturnValue _) fun _ => ?_
    exact Preserves.bind (h.stLocal _) fun _ => Preserves.pure _

end Stable

end Stable

/-! ## Lists that grow -/

/-- The instructions between `front` and `tail` are new ones, and the next one comes behind them. -/
structure Built (front added tail : List ILInstr) (eh : List EHClause) (n : Nat) (s : Session) :
    Prop where
  il : s.rewriter.il = front ++ added ++ tail
  new : ∀ i ∈ added, n < i.ref ∧ i.opcode ≠ Cee.ret
  old : ∀ i ∈ front ++ tail, i.ref ≤ n
  position : s.position = (tail.head?.map ILInstr.ref).getD sentinel
  distinct : Distinct s.rewriter.il
  le : ∀ i ∈ s.rewriter.il, i.ref ≤ s.rewriter.nInstrs
  count : n ≤ s.rewriter.nInstrs
  eh : s.rewriter.eh = eh

/-- The pointers are of instructions of the list, if they were assigned. -/
def Inside (l : List ILInstr) (pointers : List (Out InstrRef)) : Prop :=
  ∀ o ∈ pointers, o.assigned = true → ∃ i ∈ l, i.ref = o.value

/-- So it is for some instructions that only go on or throw; the first of them is known, if its pointer
was assigned. -/
def Building (front tail : List ILInstr) (eh : List EHClause) (n : Nat) (first : Out InstrRef)
    (s : Session) : Prop :=
  ∃ added, Built front added tail eh n s ∧ (∀ i ∈ added, Linear i.opcode) ∧
    (first.assigned = true → added.head?.map ILInstr.ref = some first.value)

/-- Instructions whose exceptions are caught: they are left to a target, as is the handler, which only
makes a call. -/
structure Guarded (p : Pointers) (target : InstrRef) (block body : List ILInstr) (leave : ILInstr)
    (log : List ILInstr) (again : ILInstr) : Prop where
  block : block = body ++ leave :: (log ++ [again])
  linear : ∀ i ∈ body, Linear i.opcode
  first : p.first.assigned = true → body.head?.map ILInstr.ref = some p.first.value
  leave : leave.opcode = Cee.leaveS ∧ leave.target = target
  log : p.catchFirst.assigned = true → ∃ i, log = [i] ∧ i.ref = p.catchFirst.value ∧ i.opcode = 0x28
  again : again.opcode = Cee.leaveS ∧ again.target = target ∧ again.ref = p.catchLeave

section Built

open Procedure

variable {front added tail : List ILInstr} {eh : List EHClause} {n : Nat} {s : Session}
  {m : CallTargetMethod} {locals : Locals} {first : Out InstrRef}

theorem head?_append_of_head? {l more : List ILInstr} {r : InstrRef}
    (h : l.head?.map ILInstr.ref = some r) : (l ++ more).head?.map ILInstr.ref = some r := by
  cases l with
  | nil => cases h
  | cons => exact h

/-- The pointers of the clause are of instructions of the block. -/
theorem Guarded.inside {p : Pointers} {target : InstrRef} {block body log : List ILInstr}
    {leave again : ILInstr} (h : Guarded p target block body leave log again) :
    Inside block [p.first, p.catchFirst] := by
  refine List.forall_mem_cons.mpr ⟨fun hassigned => ?_, List.forall_mem_singleton.mpr fun hassigned => ?_⟩
  · obtain ⟨i, hi, href⟩ := Option.map_eq_some_iff.mp (h.first hassigned)
    refine ⟨i, ?_, href⟩
    rw [h.block]
    exact List.mem_append_left _ (List.mem_of_head? hi)
  · obtain ⟨i, hlog, href, -⟩ := h.log hassigned
    refine ⟨i, ?_, href⟩
    rw [h.block, hlog]
    exact List.mem_append_right _ (List.mem_cons_of_mem _ List.mem_cons_self)

theorem insertRefBefore_append {pWhere : InstrRef} {i : ILInstr}
    (hfront : ∀ j ∈ front, j.ref ≠ pWhere)
    (htail : pWhere = (tail.head?.map ILInstr.ref).getD sentinel) :
    ILRewriter.insertRefBefore pWhere i (front ++ tail) = some (front ++ i :: tail) := by
  induction front with
  | nil =>
      cases tail with
      | nil => exact if_pos htail
      | cons t tail => exact if_pos htail.symm
  | cons j front ih =>
      obtain ⟨hj, hfront⟩ := List.forall_mem_cons.mp hfront
      rw [List.cons_append, ILRewriter.insertRefBefore, if_neg hj, ih hfront]
      rfl

/-- The instruction that is inserted next. -/
def Session.newInstr (s : Session) (opcode arg : Nat) : ILInstr :=
  { ref := s.rewriter.nInstrs + 1, opcode, arg }

/-- An insertion before an instruction of the list, or at its end. -/
theorem il_insert {before behind : List ILInstr} (opcode arg : Nat) (operands : List Operand)
    (hil : s.rewriter.il = before ++ behind) (hbefore : ∀ j ∈ before, j.ref ≠ s.position)
    (hposition : s.position = (behind.head?.map ILInstr.ref).getD sentinel) :
    (s.insert opcode arg operands).rewriter.il = before ++ s.newInstr opcode arg :: behind ∧
      (s.insert opcode arg operands).rewriter.nInstrs = s.rewriter.nInstrs + 1 ∧
        (s.insert opcode arg operands).rewriter.eh = s.rewriter.eh := by
  have hinsert : ILRewriter.insertRefBefore s.position (s.newInstr opcode arg) s.rewriter.il =
      some (before ++ s.newInstr opcode arg :: behind) := by
    rw [hil]
    exact insertRefBefore_append hbefore hposition
  have hexec : Edit.exec s.rewriter (.insertBefore s.position opcode arg sentinel) =
      some { s.rewriter with
        il := before ++ s.newInstr opcode arg :: behind
        nInstrs := s.rewriter.nInstrs + 1
        maxStack := ILRewriter.adjustState s.rewriter.maxStack (s.newInstr opcode arg) } := by
    change Option.map _ (ILRewriter.insertRefBefore s.position (s.newInstr opcode arg)
      s.rewriter.il) = _
    rw [hinsert]
    rfl
  rw [Session.insert, hexec]
  exact ⟨rfl, rfl, rfl⟩

/-- A new instruction has another pointer. -/
theorem distinct_insert {before behind : List ILInstr} {i : ILInstr}
    (h : Distinct (before ++ behind)) (hlt : ∀ j ∈ before ++ behind, j.ref < i.ref) (hi : i.ref ≠ sentinel) :
    Distinct (before ++ i :: behind) := by
  refine ⟨?_, fun j hj => ?_⟩
  · have hnodup := h.nodup
    rw [List.map_append] at hnodup
    rw [List.map_append, List.map_cons, List.nodup_middle, List.nodup_cons]
    refine ⟨fun hmem => ?_, hnodup⟩
    rw [← List.map_append] at hmem
    obtain ⟨j, hj, href⟩ := List.mem_map.mp hmem
    exact Nat.ne_of_lt (hlt j hj) href
  · rcases List.mem_append.mp hj with hj | hj
    · exact h.ne_sentinel j (List.mem_append_left _ hj)
    · rcases List.mem_cons.mp hj with rfl | hj
      · exact hi
      · exact h.ne_sentinel j (List.mem_append_right _ hj)

/-- The instructions before the tail are not where the next one comes. -/
theorem ne_head {before tail : List ILInstr} (h : Distinct (before ++ tail)) :
    ∀ j ∈ before, j.ref ≠ (tail.head?.map ILInstr.ref).getD sentinel := by
  intro j hj
  cases tail with
  | nil => exact h.ne_sentinel j (List.mem_append_left _ hj)
  | cons t tail =>
      have hnodup := h.nodup
      rw [List.map_append] at hnodup
      exact (List.nodup_append.mp hnodup).2.2 _ (List.mem_map_of_mem hj) _ List.mem_cons_self

/-- An instruction is inserted. -/
theorem Built.insert (h : Built front added tail eh n s) {opcode arg : Nat}
    {operands : List Operand} (hopcode : opcode ≠ Cee.ret) :
    Built front (added ++ [s.newInstr opcode arg]) tail eh n (s.insert opcode arg operands) := by
  have hbefore : ∀ j ∈ front ++ added, j.ref ≠ s.position := by
    rw [h.position]
    exact ne_head (h.il ▸ h.distinct)
  obtain ⟨hil, hcount, heh⟩ := il_insert opcode arg operands h.il hbefore h.position
  have hnew : s.rewriter.nInstrs < (s.newInstr opcode arg).ref := Nat.lt_succ_self _
  refine ⟨?_, ?_, h.old, h.position, ?_, ?_, ?_, heh.trans h.eh⟩
  · rw [hil, ← List.append_assoc, List.append_assoc _ [_], List.singleton_append]
  · exact List.forall_mem_append.mpr ⟨h.new,
      List.forall_mem_singleton.mpr ⟨Nat.lt_of_le_of_lt h.count hnew, hopcode⟩⟩
  · rw [hil]
    refine distinct_insert (h.il ▸ h.distinct) (fun j hj => ?_) (Nat.succ_ne_zero _)
    exact Nat.lt_of_le_of_lt (h.le j (h.il ▸ hj)) hnew
  · rw [hil, hcount]
    intro j hj
    rcases List.mem_append.mp hj with hj | hj
    · exact Nat.le_succ_of_le (h.le j (h.il ▸ List.mem_append_left _ hj))
    · rcases List.mem_cons.mp hj with rfl | hj
      · exact Nat.le_refl _
      · exact Nat.le_succ_of_le (h.le j (h.il ▸ List.mem_append_right _ hj))
  · rw [hcount]
    exact Nat.le_succ_of_le h.count

/-- What is done to the instructions that are there is done to new ones only, and keeps their
pointers. -/
theorem Built.map (h : Built front added tail eh n s) {f : ILInstr → ILInstr} {s' : Session}
    (hil : s'.rewriter.il = s.rewriter.il.map f) (hold : ∀ i, i.ref ≤ n → f i = i)
    (href : ∀ i, (f i).ref = i.ref) (hopcode : ∀ i, (f i).opcode = i.opcode)
    (hposition : s'.position = s.position) (hcount : s'.rewriter.nInstrs = s.rewriter.nInstrs)
    (heh : s'.rewriter.eh = s.rewriter.eh) : Built front (added.map f) tail eh n s' := by
  have hkept : ∀ l : List ILInstr, (∀ i ∈ l, i ∈ front ++ tail) → l.map f = l := by
    intro l hl
    exact (List.map_congr_left fun i hi => hold i (h.old i (hl i hi))).trans (List.map_id _)
  have hrefs : (s.rewriter.il.map f).map ILInstr.ref = s.rewriter.il.map ILInstr.ref := by
    rw [List.map_map]
    exact List.map_congr_left fun i _ => href i
  refine ⟨?_, ?_, h.old, hposition.trans h.position, ⟨?_, ?_⟩, ?_, ?_, heh.trans h.eh⟩
  · rw [hil, h.il, List.map_append, List.map_append,
      hkept front fun i hi => List.mem_append_left _ hi,
      hkept tail fun i hi => List.mem_append_right _ hi]
  · intro i hi
    obtain ⟨j, hj, rfl⟩ := List.mem_map.mp hi
    rw [href, hopcode]
    exact h.new j hj
  · rw [hil, hrefs]
    exact h.distinct.nodup
  · rw [hil]
    intro i hi
    obtain ⟨j, hj, rfl⟩ := List.mem_map.mp hi
    rw [href]
    exact h.distinct.ne_sentinel j hj
  · rw [hil, hcount]
    intro i hi
    obtain ⟨j, hj, rfl⟩ := List.mem_map.mp hi
    rw [href]
    exact h.le j hj
  · rw [hcount]
    exact h.count

/-- An instruction whose target is set. -/
def retarget (instrs : List InstrRef) (target : InstrRef) (i : ILInstr) : ILInstr :=
  if i.ref ∈ instrs then { i with target := target } else i

theorem ref_retarget (instrs : List InstrRef) (target : InstrRef) (i : ILInstr) :
    (retarget instrs target i).ref = i.ref := by
  rw [retarget]
  split
  case isTrue => rfl
  case isFalse => rfl

theorem opcode_retarget (instrs : List InstrRef) (target : InstrRef) (i : ILInstr) :
    (retarget instrs target i).opcode = i.opcode := by
  rw [retarget]
  split
  case isTrue => rfl
  case isFalse => rfl

/-- The targets of new instructions are set. -/
theorem Built.setTarget (h : Built front added tail eh n s) {instrs : List InstrRef}
    {target : InstrRef} (hnew : ∀ r ∈ instrs, n < r) :
    (setTarget instrs target).Ensures s fun _ o s' =>
      o = some ⟨⟩ ∧ Built front (added.map (retarget instrs target)) tail eh n s' := by
  refine ⟨rfl, h.map rfl (fun i hi => ?_) (ref_retarget instrs target)
    (opcode_retarget instrs target) rfl rfl rfl⟩
  refine if_neg fun hmem => ?_
  exact Nat.not_le_of_lt (hnew _ hmem) hi

/-- Between two programs the new instructions can be counted to the front. -/
theorem Built.rebase (h : Built front added tail eh n s) :
    Built (front ++ added) [] tail eh s.rewriter.nInstrs s := by
  refine ⟨?_, List.forall_mem_nil _, fun i hi => h.le i (h.il ▸ hi), h.position, h.distinct, h.le,
    le_rfl, h.eh⟩
  rw [List.append_nil]
  exact h.il

theorem quiet_built : Quiet (Built front added tail eh n) where
  keep := fun _ _ _ h => ⟨h.il, h.new, h.old, h.position, h.distinct, h.le, h.count, h.eh⟩
  note := fun _ _ _ h => ⟨h.il, h.new, h.old, h.position, h.distinct, h.le, h.count, h.eh⟩
  tkLocalVarSig := fun _ _ h => ⟨h.il, h.new, h.old, h.position, h.distinct, h.le, h.count, h.eh⟩

theorem stable_building : Stable (Building front tail eh n first) where
  keep := by
    rintro s slot token ⟨added, h, hin⟩
    exact ⟨added, quiet_built.keep s slot token h, hin⟩
  note := by
    rintro s f b ⟨added, h, hin⟩
    exact ⟨added, quiet_built.note s f b h, hin⟩
  insert := by
    rintro s opcode arg operands hopcode ⟨added, h, hlinear, hfirst⟩
    refine ⟨_, h.insert hopcode.1, ?_, fun hassigned => head?_append_of_head? (hfirst hassigned)⟩
    exact List.forall_mem_append.mpr ⟨hlinear, List.forall_mem_singleton.mpr hopcode⟩
  tkLocalVarSig := by
    rintro s token ⟨added, h, hin⟩
    exact ⟨added, quiet_built.tkLocalVarSig s token h, hin⟩

/-- The instruction that is inserted, and its pointer. -/
theorem built_createInstr {opcode arg : Nat} {operands : List Operand} (hopcode : opcode ≠ Cee.ret)
    (h : Built front added tail eh n s) :
    (CreateInstr opcode arg operands).Yields s fun r s' => n < r ∧
      ∃ i, i.ref = r ∧ i.opcode = opcode ∧ i.arg = arg ∧ Built front (added ++ [i]) tail eh n s' :=
  Yields.of_done rfl ⟨Nat.lt_succ_of_le h.count, _, rfl, rfl, rfl, h.insert hopcode⟩

/-- The first instruction. -/
theorem building_createInstr {opcode arg : Nat} {operands : List Operand} (hopcode : Linear opcode)
    (h : Built front [] tail eh n s) :
    (CreateInstr opcode arg operands).Yields s fun r s' => Building front tail eh n ⟨r, true⟩ s' :=
  Yields.of_done rfl ⟨_, h.insert hopcode.1, List.forall_mem_singleton.mpr hopcode, fun _ => rfl⟩

/-! ### The first instructions -/

theorem building_defaultValue {x : Rewrite (Out mdToken)}
    (hx : Preserves (Built front [] tail eh n) x) (h : Built front [] tail eh n s) :
    (defaultValue x).Yields s fun r s' => Building front tail eh n ⟨r, true⟩ s' := by
  refine Yields.bind (hx.yields h) fun token s₁ h₁ => ?_
  refine Yields.bind ((Preserves.modify fun s hs => quiet_built.note s _ _ hs).yields h₁) ?_
  exact fun _ s₂ h₂ => building_createInstr (by decide) h₂

theorem building_initializeReturn (sig : LocalSig) (h : Built front [] tail eh n s) :
    (initializeReturn m sig).Yields s fun r s' => Building front tail eh n ⟨r, true⟩ s' := by
  have hquiet : Quiet (Built front [] tail eh n) := quiet_built
  have hstable : ∀ {o}, Stable (Building front tail eh n o) := stable_building
  rw [Rewriting.initializeReturn]
  split
  case isTrue =>
    refine Yields.bind (building_defaultValue hquiet.defaultMethodSpec h) fun r s₁ h₁ => ?_
    refine Yields.bind ((hstable.stLocal _).yields h₁) fun _ s₂ h₂ => ?_
    refine Yields.bind ((hstable.defaultValue hstable.quiet.returnValueDefault).yields h₂) ?_
    refine fun _ s₃ h₃ => Yields.bind ((hstable.stLocal _).yields h₃) fun _ s₄ h₄ => ?_
    exact Yields.of_done rfl h₄
  case isFalse =>
    refine Yields.bind (building_defaultValue hquiet.returnVoidDefault h) fun r s₁ h₁ => ?_
    refine Yields.bind ((hstable.stLocal _).yields h₁) fun _ s₂ h₂ => ?_
    exact Yields.of_done rfl h₂

theorem building_modifyLocalSigAndInitialize (h : Built front [] tail eh n s) :
    (ModifyLocalSigAndInitialize m).Yields s fun locals s' =>
      Building front tail eh n locals.firstInstruction s' := by
  have hquiet : Quiet (Built front [] tail eh n) := quiet_built
  have hstable : ∀ {o}, Stable (Building front tail eh n o) := stable_building
  refine Yields.bind (hquiet.modifyLocalSig.yields h) fun r s₁ h₁ => ?_
  cases r with
  | error hr =>
      refine Yields.bind ((Preserves.modify fun s hs => hquiet.note s _ _ hs).yields h₁) ?_
      exact fun _ s₂ h₂ => Yields.of_done rfl
        ⟨[], h₂, List.forall_mem_nil _, fun hassigned => absurd hassigned Bool.false_ne_true⟩
  | ok sig =>
      refine Yields.bind (building_initializeReturn sig h₁) fun first s₂ h₂ => ?_
      refine Yields.bind ((hstable.createInstr (by decide)).yields h₂) fun _ s₃ h₃ => ?_
      refine Yields.bind ((hstable.stLocal _).yields h₃) fun _ s₄ h₄ => ?_
      refine Yields.bind ((Preserves.modify fun s hs => hstable.note s _ _ hs).yields h₄) ?_
      exact fun _ s₅ h₅ => Yields.of_done rfl h₅

theorem building_loadInstance (h : Built front [] tail eh n s) :
    (loadInstance m).Yields s fun r s' => Building front tail eh n ⟨r, true⟩ s' := by
  have hstable : ∀ {o}, Stable (Building front tail eh n o) := stable_building
  have hstop : (Procedure.stop : Rewrite InstrRef).Yields s fun r s' =>
      Building front tail eh n ⟨r, true⟩ s' := fun _ ha => by cases ha
  have hload : (LoadArgument 0).Yields s fun r s' => Building front tail eh n ⟨r, true⟩ s' :=
    building_createInstr (show Linear (indexed 0x02 0x0E 0x109 0).1 by decide) h
  rw [Rewriting.loadInstance]
  split
  case isTrue =>
    split
    case isTrue => exact hstop
    case isFalse => exact building_createInstr (by decide) h
  case isFalse =>
    refine Yields.bind hload fun first s₁ h₁ => ?_
    split
    case isTrue =>
      split
      case isTrue =>
        refine Yields.bind ((hstable.createInstr (by decide)).yields h₁) fun _ s₂ h₂ => ?_
        exact Yields.of_done rfl h₂
      case isFalse =>
        split
        case isTrue =>
          refine Yields.bind ((hstable.createInstr (by decide)).yields h₁) fun _ s₂ h₂ => ?_
          exact Yields.of_done rfl h₂
        case isFalse => exact fun _ ha => by cases ha
    case isFalse => exact Yields.of_done rfl h₁

/-! ### The calls that are guarded -/

/-- The call, if it was written. -/
theorem built_writeCall {caller : Caller} {slot : Slot} {methodSpec : CallTargetTokens → Builder}
    (h : Built front added tail eh n s) :
    (writeCall caller slot methodSpec).run.Yields s fun r s' =>
      (∀ e, r = .error e → Built front added tail eh n s') ∧
        ∀ instr, r = .ok instr → ∃ i, i.ref = instr ∧ i.opcode = 0x28 ∧
          Built front (added ++ [i]) tail eh n s' := by
  have hquiet : Quiet (Built front added tail eh n) := quiet_built
  have hfails : ∀ {e : HRESULT} {s' : Session}, Built front added tail eh n s' →
      (∀ e', (Except.error e : Except HRESULT InstrRef) = .error e' →
          Built front added tail eh n s') ∧
        ∀ instr, (Except.error e : Except HRESULT InstrRef) = .ok instr →
          ∃ i, i.ref = instr ∧ i.opcode = 0x28 ∧ Built front (added ++ [i]) tail eh n s' :=
    fun hs => ⟨fun _ _ => hs, fun _ hok => by cases hok⟩
  refine Yields.andThen ((hquiet.base.yields h).mono fun _ s₁ h₁ =>
    ⟨fun _ _ => hfails h₁, fun _ _ => ?_⟩)
  refine Yields.andThen ((hquiet.ensure.yields h₁).mono fun _ s₂ h₂ =>
    ⟨fun _ _ => hfails h₂, fun _ _ => ?_⟩)
  refine Yields.andThen (Yields.of_done rfl ⟨fun _ _ => hfails h₂, fun _ _ => ?_⟩)
  refine Yields.andThen ((preserves_define.yields h₂).mono fun _ s₃ h₃ =>
    ⟨fun _ _ => hfails h₃, fun _ _ => ?_⟩)
  refine Yields.lift ((built_createInstr (by decide) h₃).mono fun _ _ hcall => ?_)
  refine ⟨fun _ he => ?_, fun instr hinstr => ?_⟩
  · cases he
  obtain rfl := Except.ok.inj hinstr
  obtain ⟨-, i, href, hopcode, -, hbuilt⟩ := hcall
  exact ⟨i, href, hopcode, hbuilt⟩

/-- What is inserted where a failure is only noted. -/
theorem built_noted {f : Vital} {x : Fallible InstrRef}
    (h : x.run.Yields s fun r s' => (∀ e, r = .error e → Built front added tail eh n s') ∧
      ∀ instr, r = .ok instr → ∃ i, i.ref = instr ∧ i.opcode = 0x28 ∧
        Built front (added ++ [i]) tail eh n s') :
    (noted f x).Yields s fun o s' => ∃ log, Built front (added ++ log) tail eh n s' ∧
      (o.assigned = true → ∃ i, log = [i] ∧ i.ref = o.value ∧ i.opcode = 0x28) := by
  refine Yields.bind h fun r s₁ h₁ => ?_
  cases r with
  | ok instr =>
      obtain ⟨i, href, hopcode, hbuilt⟩ := h₁.2 instr rfl
      refine Yields.bind ((Preserves.modify fun s hs => quiet_built.note s _ _ hs).yields hbuilt) ?_
      exact fun _ s₂ h₂ => Yields.of_done rfl ⟨[i], h₂, fun _ => ⟨i, rfl, href, hopcode⟩⟩
  | error e =>
      refine Yields.bind ((Preserves.modify fun s hs => quiet_built.note s _ _ hs).yields
        (h₁.1 e rfl)) fun _ s₂ h₂ => ?_
      refine Yields.of_done rfl ⟨[], ?_, fun hassigned => absurd hassigned Bool.false_ne_true⟩
      rwa [List.append_nil]

/-- The two `leave.s` of a block get their target. -/
theorem guarded_retarget {body log : List ILInstr} {leave again : ILInstr} {catchFirst : Out InstrRef}
    (target : InstrRef) (hlinear : ∀ i ∈ body, Linear i.opcode)
    (hfirst : first.assigned = true → body.head?.map ILInstr.ref = some first.value)
    (hleave : leave.opcode = Cee.leaveS) (hagain : again.opcode = Cee.leaveS)
    (hlog : catchFirst.assigned = true →
      ∃ i, log = [i] ∧ i.ref = catchFirst.value ∧ i.opcode = 0x28) :
    ∃ body' leave' log' again', Guarded ⟨first, catchFirst, again.ref⟩ target
      ((body ++ leave :: (log ++ [again])).map (retarget [leave.ref, again.ref] target))
      body' leave' log' again' := by
  refine ⟨body.map (retarget [leave.ref, again.ref] target),
    retarget [leave.ref, again.ref] target leave, log.map (retarget [leave.ref, again.ref] target),
    retarget [leave.ref, again.ref] target again, ?_, ?_, fun hassigned => ?_, ⟨?_, ?_⟩,
    fun hassigned => ?_, ?_, ?_, ref_retarget _ _ _⟩
  · simp only [List.map_append, List.map_cons, List.map_nil]
  · intro i hi
    obtain ⟨j, hj, rfl⟩ := List.mem_map.mp hi
    rw [opcode_retarget]
    exact hlinear j hj
  · rw [List.head?_map, Option.map_map, ← hfirst hassigned]
    refine congrArg (fun f => Option.map f body.head?) ?_
    exact funext fun i => ref_retarget _ _ i
  · exact (opcode_retarget _ _ _).trans hleave
  · rw [retarget, if_pos List.mem_cons_self]
  · obtain ⟨i, rfl, href, hopcode⟩ := hlog hassigned
    exact ⟨_, rfl, (ref_retarget _ _ _).trans href, (opcode_retarget _ _ _).trans hopcode⟩
  · exact (opcode_retarget _ _ _).trans hagain
  · rw [retarget, if_pos (List.mem_cons_of_mem _ List.mem_cons_self)]

theorem built_beginPart (h : Building front tail eh n locals.firstInstruction s) :
    (beginPart m locals).Yields s fun begun s' => ∃ block body leave log again,
      Built front block tail eh n s' ∧
        Guarded begun ((tail.head?.map ILInstr.ref).getD sentinel) block body leave log again := by
  have hstable : ∀ {o}, Stable (Building front tail eh n o) := stable_building
  refine Yields.bind (hstable.loadInstance.yields h) fun _ s₁ h₁ => ?_
  refine Yields.bind (hstable.loadArguments.yields h₁) fun _ s₂ h₂ => ?_
  refine Yields.bind (hstable.callBeginMethod.yields h₂) fun _ s₃ h₃ => ?_
  refine Yields.bind ((hstable.stLocal _).yields h₃) fun _ s₄ h₄ => ?_
  obtain ⟨body, h₄, hlinear, hfirst⟩ := h₄
  refine Yields.bind (built_createInstr (by decide) h₄) ?_
  rintro _ s₅ ⟨hleave, leave, rfl, hleaveOpcode, -, h₅⟩
  refine Yields.bind (built_noted (built_writeCall h₅)) ?_
  rintro catchFirst s₆ ⟨log, h₆, hlog⟩
  refine Yields.bind (built_createInstr (by decide) h₆) ?_
  rintro _ s₇ ⟨hagain, again, rfl, hagainOpcode, -, h₇⟩
  refine Yields.bind (R := fun r s' => r = (tail.head?.map ILInstr.ref).getD sentinel ∧ s' = s₇)
    (Yields.of_done rfl ⟨h₇.position, rfl⟩) ?_
  rintro _ _ ⟨rfl, rfl⟩
  have hleaves : ∀ r ∈ [leave.ref, again.ref], n < r :=
    List.forall_mem_cons.mpr ⟨hleave, List.forall_mem_singleton.mpr hagain⟩
  refine Yields.bind (Ensures.mono (h₇.setTarget hleaves) fun _ _ _ hset _ _ => hset.2) ?_
  intro _ s₈ h₈
  rw [List.append_assoc, List.append_assoc, List.singleton_append] at h₈
  obtain ⟨body', leave', log', again', hguarded⟩ := guarded_retarget
    ((tail.head?.map ILInstr.ref).getD sentinel) hlinear hfirst hleaveOpcode hagainOpcode hlog
  exact Yields.of_done rfl ⟨_, body', leave', log', again', h₈, hguarded⟩

/-! ## The end of the method -/

/-- The value that is returned is loaded, if there is one. -/
def Reloads (m : CallTargetMethod) (locals : Locals) (rest : List ILInstr) : Prop :=
  if m.isVoid then rest = []
  else ∃ load, rest = [load] ∧
    (load.opcode, load.arg) = indexed 0x06 0x11 0x10C locals.returnValueIndex.value.toNat

theorem built_loadReturnValue (h : Built front added tail eh n s) :
    (loadReturnValue m locals).Yields s fun _ s' =>
      ∃ rest, Reloads m locals rest ∧ Built front (added ++ rest) tail eh n s' := by
  rw [loadReturnValue]
  split
  case isTrue hvoid =>
    refine Yields.of_done rfl ⟨[], ?_, ?_⟩
    · rw [Reloads, if_pos hvoid]
    · rwa [List.append_nil]
  case isFalse hvoid =>
    refine Yields.bind (built_createInstr
      (indexed_linear _ (by decide) (by decide) (by decide)).1 h) fun _ s' hs' => ?_
    obtain ⟨_, load, _, ho, ha, hload⟩ := hs'
    refine Yields.of_done rfl ⟨[load], ?_, hload⟩
    rw [Reloads, if_neg hvoid]
    exact ⟨load, rfl, Prod.ext ho ha⟩

/-- Behind the end of the finally block there is the load of the value, and the return. -/
theorem built_endPart (h : Built front [] tail eh n s) :
    (endPart m locals).Yields s fun ended s' => ∃ inner endFinally rest,
      Built front (inner ++ endFinally :: rest) tail eh n s' ∧ endFinally.ref = ended.2 ∧
        endFinally.opcode = 0xDC ∧ Reloads m locals rest ∧
          ∃ body leave log again, Guarded ended.1 endFinally.ref inner body leave log again := by
  have hstable : ∀ {o}, Stable (Building front tail eh n o) := stable_building
  refine Yields.bind (building_loadInstance h) fun first s₁ h₁ => ?_
  refine Yields.bind ((hstable.loadReturnValue locals).yields h₁) fun _ s₂ h₂ => ?_
  refine Yields.bind ((hstable.loadLocal _).yields h₂) fun _ s₃ h₃ => ?_
  refine Yields.bind ((hstable.loadLocal _).yields h₃) fun _ s₄ h₄ => ?_
  refine Yields.bind ((hstable.callEndMethod locals).yields h₄) fun _ s₅ h₅ => ?_
  obtain ⟨body, h₅, hlinear, hfirst⟩ := h₅
  refine Yields.bind (built_createInstr (by decide) h₅) ?_
  rintro _ s₆ ⟨hleave, leave, rfl, hleaveOpcode, -, h₆⟩
  refine Yields.bind (built_noted (built_writeCall h₆)) ?_
  rintro catchFirst s₇ ⟨log, h₇, hlog⟩
  refine Yields.bind (built_createInstr (by decide) h₇) ?_
  rintro _ s₈ ⟨hagain, again, rfl, hagainOpcode, -, h₈⟩
  refine Yields.bind (built_createInstr (by decide) h₈) ?_
  rintro _ s₉ ⟨-, i, rfl, hopcode, -, h₉⟩
  have hleaves : ∀ r ∈ [leave.ref, again.ref], n < r :=
    List.forall_mem_cons.mpr ⟨hleave, List.forall_mem_singleton.mpr hagain⟩
  refine Yields.bind (Ensures.mono (h₉.setTarget hleaves) fun _ _ _ hset _ _ => hset.2) ?_
  intro _ s₁₀ h₁₀
  rw [List.map_append, List.map_singleton, List.append_assoc, List.append_assoc,
    List.singleton_append] at h₁₀
  refine Yields.bind (built_loadReturnValue h₁₀) fun _ s₁₁ h₁₁ => ?_
  obtain ⟨rest, hrest, h₁₁⟩ := h₁₁
  rw [List.append_assoc, List.singleton_append] at h₁₁
  obtain ⟨body', leave', log', again', hguarded⟩ := guarded_retarget i.ref hlinear hfirst
    hleaveOpcode hagainOpcode hlog
  refine Yields.of_done rfl ⟨_, _, rest, h₁₁, ref_retarget _ _ i,
    (opcode_retarget _ _ i).trans hopcode, hrest, body', leave', log', again', ?_⟩
  rw [ref_retarget]
  exact hguarded

end Built

/-! ## The returns -/

/-- What becomes of an instruction of the method: a return becomes a `leave.s` to the end of the
method, and its value is stored before it. -/
inductive Changed (m : CallTargetMethod) (locals : Locals) (exit : InstrRef) :
    ILInstr → List ILInstr → Prop
  | kept (i : ILInstr) : i.opcode ≠ Cee.ret → Changed m locals exit i [i]
  | left (i : ILInstr) : i.opcode = Cee.ret → m.isVoid = true →
      Changed m locals exit i [{ i with opcode := Cee.leaveS, target := exit }]
  | stored (i store : ILInstr) : i.opcode = Cee.ret → m.isVoid = false →
      (store.opcode, store.arg) = indexed 0x0A 0x13 0x10E locals.returnValueIndex.value.toNat →
      Changed m locals exit i [store, { i with opcode := Cee.leaveS, target := exit }]

/-- The returns before `todo` have been changed. -/
structure Changing (front todo behind : List ILInstr) (eh : List EHClause) (s : Session) : Prop where
  il : s.rewriter.il = front ++ (todo ++ behind)
  distinct : Distinct s.rewriter.il
  le : ∀ i ∈ s.rewriter.il, i.ref ≤ s.rewriter.nInstrs
  eh : s.rewriter.eh = eh

section Changing

open Procedure

variable {front todo behind : List ILInstr} {eh : List EHClause} {s : Session}
  {m : CallTargetMethod} {locals : Locals} {exit : InstrRef} {i : ILInstr}

theorem distinct_congr {il js : List ILInstr} (h : Distinct il)
    (hrefs : js.map ILInstr.ref = il.map ILInstr.ref) : Distinct js := by
  refine ⟨by rw [hrefs]; exact h.nodup, fun j hj => ?_⟩
  have hmem := List.mem_map_of_mem (f := ILInstr.ref) hj
  rw [hrefs] at hmem
  obtain ⟨k, hk, href⟩ := List.mem_map.mp hmem
  rw [← href]
  exact h.ne_sentinel k hk

/-- A change of one instruction. -/
theorem map_one {before after : List ILInstr} (h : Distinct (before ++ i :: after))
    (g : ILInstr → ILInstr) :
    ((before ++ i :: after).map fun j => if j.ref = i.ref then g j else j) =
      before ++ g i :: after := by
  have hnodup := h.nodup
  rw [List.map_append, List.map_cons, List.nodup_middle, List.nodup_cons, ← List.map_append] at hnodup
  have hother : ∀ l : List ILInstr, (∀ j ∈ l, j ∈ before ++ after) →
      (l.map fun j => if j.ref = i.ref then g j else j) = l := by
    intro l hl
    refine (List.map_congr_left fun j hj => if_neg fun href => hnodup.1 ?_).trans (List.map_id _)
    rw [← href]
    exact List.mem_map_of_mem (hl j hj)
  rw [List.map_append, List.map_cons, if_pos rfl, hother before fun j => List.mem_append_left _,
    hother after fun j => List.mem_append_right _]

/-- The instruction behind another one. -/
theorem next_append {before after : List ILInstr} (h : Distinct (before ++ i :: after)) :
    ILRewriter.next (before ++ i :: after) i.ref =
      some ((after.head?.map ILInstr.ref).getD sentinel) := by
  have hi : i.ref ≠ sentinel := h.ne_sentinel i (List.mem_append_right _ List.mem_cons_self)
  have hbefore : ∀ j ∈ before, decide (i.ref ≠ sentinel ∧ j.ref ≠ i.ref) = true :=
    fun j hj => decide_eq_true ⟨hi, ne_head h j hj⟩
  rw [ILRewriter.next, List.dropWhile_append_of_pos hbefore, List.dropWhile_cons_of_neg (by simp)]
  exact if_neg hi

/-- One instruction is changed, and keeps its pointer. -/
theorem Changing.map_one (h : Changing front (i :: todo) behind eh s) {g : ILInstr → ILInstr}
    {s' : Session} (href : (g i).ref = i.ref)
    (hil : s'.rewriter.il = s.rewriter.il.map fun j => if j.ref = i.ref then g j else j)
    (hcount : s'.rewriter.nInstrs = s.rewriter.nInstrs) (heh : s'.rewriter.eh = s.rewriter.eh) :
    Changing front (g i :: todo) behind eh s' := by
  have hsplit : s.rewriter.il = front ++ i :: (todo ++ behind) := h.il
  have hil' : s'.rewriter.il = front ++ g i :: (todo ++ behind) := by
    rw [hil, hsplit]
    exact Rewriting.map_one (hsplit ▸ h.distinct) g
  have hrefs : s'.rewriter.il.map ILInstr.ref = s.rewriter.il.map ILInstr.ref := by
    rw [hil', hsplit, List.map_append, List.map_append, List.map_cons, List.map_cons, href]
  refine ⟨hil', distinct_congr h.distinct hrefs, ?_, heh.trans h.eh⟩
  rw [hcount, ← List.forall_mem_map (P := fun r => r ≤ s.rewriter.nInstrs) (f := ILInstr.ref), hrefs,
    List.forall_mem_map]
  exact h.le

/-- An instruction is inserted before the next one that may be changed. -/
theorem Changing.insert (h : Changing front (i :: todo) behind eh s) (opcode arg : Nat)
    (operands : List Operand) (hposition : s.position = i.ref) :
    Changing (front ++ [s.newInstr opcode arg]) (i :: todo) behind eh
      (s.insert opcode arg operands) := by
  have hhead : s.position =
      (((i :: todo) ++ behind).head?.map ILInstr.ref).getD sentinel := hposition
  have hbefore : ∀ j ∈ front, j.ref ≠ s.position := by
    rw [hhead]
    exact ne_head (h.il ▸ h.distinct)
  obtain ⟨hil, hcount, heh⟩ := il_insert opcode arg operands h.il hbefore hhead
  refine ⟨?_, ?_, ?_, heh.trans h.eh⟩
  · rw [hil, List.append_assoc, List.singleton_append]
  · rw [hil]
    refine distinct_insert (h.il ▸ h.distinct) (fun j hj => ?_) (Nat.succ_ne_zero _)
    exact Nat.lt_succ_of_le (h.le j (h.il ▸ hj))
  · rw [hil, hcount]
    intro j hj
    rcases List.mem_append.mp hj with hj | hj
    · exact Nat.le_succ_of_le (h.le j (h.il ▸ List.mem_append_left _ hj))
    · rcases List.mem_cons.mp hj with rfl | hj
      · exact Nat.le_refl _
      · exact Nat.le_succ_of_le (h.le j (h.il ▸ List.mem_append_right _ hj))

/-- The value is stored before the return. -/
theorem Changing.stLocal (h : Changing front (i :: todo) behind eh s) (index : Out UInt32)
    (hposition : s.position = i.ref) :
    (StLocal index).Yields s fun _ s' => ∃ store : ILInstr,
      (store.opcode, store.arg) = indexed 0x0A 0x13 0x10E index.value.toNat ∧
        Changing (front ++ [store]) (i :: todo) behind eh s' :=
  Yields.of_done rfl ⟨_, rfl, h.insert _ _ _ hposition⟩

/-- The end of the method is behind the end of the finally block. -/
structure Exits (behind : List ILInstr) (endFinally exit : InstrRef) : Prop where
  split : ∃ inner e rest, behind = inner ++ e :: rest ∧ e.ref = endFinally ∧
    exit = (rest.head?.map ILInstr.ref).getD sentinel

theorem Changing.yields_nextOf (h : Changing front todo behind eh s) {endFinally : InstrRef}
    (hexit : Exits behind endFinally exit) :
    (nextOf endFinally).Yields s fun r s' => r = exit ∧ s' = s := by
  obtain ⟨inner, e, rest, rfl, rfl, rfl⟩ := hexit.split
  have hsplit : s.rewriter.il = (front ++ (todo ++ inner)) ++ e :: rest := by
    rw [h.il, List.append_assoc, List.append_assoc]
  refine Yields.of_done rfl ⟨?_, rfl⟩
  show (ILRewriter.next s.rewriter.il e.ref).getD sentinel = _
  rw [hsplit, next_append (hsplit ▸ h.distinct)]
  rfl

/-- The part of a change that void methods share with the others. -/
theorem Changing.leave (h : Changing front (i :: todo) behind eh s) {endFinally : InstrRef}
    (hexit : Exits behind endFinally exit) :
    Yields (do
      modify fun s =>
        { s with
          rewriter :=
            { s.rewriter with
              il := s.rewriter.il.map fun j =>
                if j.ref = i.ref then { j with opcode := Cee.leaveS } else j } }
      let target ← nextOf endFinally
      setTarget [i.ref] target) s fun _ s' =>
        Changing (front ++ [{ i with opcode := Cee.leaveS, target := exit }]) todo behind eh s' := by
  refine Yields.bind (R := fun _ s' => Changing front ({ i with opcode := Cee.leaveS } :: todo)
    behind eh s') (Yields.of_done rfl (h.map_one (g := fun j => { j with opcode := Cee.leaveS })
      rfl rfl rfl rfl)) fun _ s₁ h₁ => ?_
  refine Yields.bind (h₁.yields_nextOf hexit) ?_
  rintro target s₂ ⟨rfl, rfl⟩
  have hset : Changing front ({ i with opcode := Cee.leaveS, target := target } :: todo) behind eh
      { s₂ with
        rewriter :=
          { s₂.rewriter with
            il := s₂.rewriter.il.map fun j =>
              if j.ref ∈ [i.ref] then { j with target := target } else j }
        operands := s₂.operands ++ [.target ⟨target, true⟩] } := by
    refine h₁.map_one (g := fun j => { j with target := target }) rfl ?_ rfl rfl
    exact List.map_congr_left fun j _ => if_congr List.mem_singleton rfl rfl
  refine Yields.of_done rfl ⟨?_, hset.distinct, hset.le, hset.eh⟩
  rw [List.append_assoc, List.singleton_append]
  exact hset.il

theorem Changing.changeReturn (h : Changing front (i :: todo) behind eh s) {endFinally : InstrRef}
    (hexit : Exits behind endFinally exit) (hret : i.opcode = Cee.ret) :
    (changeReturn m locals endFinally i.ref).Yields s fun _ s' => ∃ chunk,
      Changed m locals exit i chunk ∧ Changing (front ++ chunk) todo behind eh s' := by
  rw [Rewriting.changeReturn]
  split
  case isTrue hvoid =>
    exact (h.leave hexit).mono fun _ _ hs' => ⟨_, .left i hret hvoid, hs'⟩
  case isFalse hvoid =>
    have hvalue := eq_false_of_ne_true hvoid
    refine Yields.bind (R := fun _ s' => s' = { s with position := i.ref })
      (Yields.of_done rfl rfl) ?_
    rintro _ _ rfl
    have h₁ : Changing front (i :: todo) behind eh { s with position := i.ref } :=
      ⟨h.il, h.distinct, h.le, h.eh⟩
    refine Yields.bind (h₁.stLocal locals.returnValueIndex rfl) fun _ s₂ hs₂ => ?_
    obtain ⟨store, hstore, h₂⟩ := hs₂
    refine (h₂.leave hexit).mono fun _ s₃ h₃ => ⟨_, .stored i store hret hvalue hstore, ?_⟩
    rwa [List.append_assoc] at h₃

/-- **All returns** of the method are changed, one after another. -/
theorem Changing.changeReturns (todo : List ILInstr) (h : Changing front todo behind eh s)
    {endFinally : InstrRef} (hexit : Exits behind endFinally exit) :
    (changeReturns m locals endFinally
      ((todo.filter fun i => i.opcode = Cee.ret).map ILInstr.ref)).Yields s fun _ s' => ∃ chunks,
        List.Forall₂ (Changed m locals exit) todo chunks ∧
          Changing (front ++ chunks.flatten) [] behind eh s' := by
  induction todo generalizing front s with
  | nil =>
      refine Yields.of_done rfl ⟨[], .nil, ?_⟩
      rwa [List.flatten_nil, List.append_nil]
  | cons i todo ih =>
      by_cases hret : i.opcode = Cee.ret
      · have hfilter : ((i :: todo).filter fun j => decide (j.opcode = Cee.ret)) =
            i :: todo.filter fun j => decide (j.opcode = Cee.ret) :=
          List.filter_cons_of_pos (decide_eq_true hret)
        rw [hfilter]
        refine Yields.bind (h.changeReturn hexit hret) fun _ s₁ ⟨chunk, hchunk, h₁⟩ => ?_
        refine (ih h₁).mono fun _ s₂ ⟨chunks, hchunks, h₂⟩ => ?_
        refine ⟨chunk :: chunks, .cons hchunk hchunks, ?_⟩
        rwa [List.flatten_cons, ← List.append_assoc]
      · have h₁ : Changing (front ++ [i]) todo behind eh s := by
          refine ⟨?_, h.distinct, h.le, h.eh⟩
          rw [h.il, List.append_assoc, List.singleton_append, List.cons_append]
        have hfilter : ((i :: todo).filter fun j => decide (j.opcode = Cee.ret)) =
            todo.filter fun j => decide (j.opcode = Cee.ret) :=
          List.filter_cons_of_neg (by rwa [decide_eq_true_iff])
        rw [hfilter]
        refine (ih h₁).mono fun _ s₂ ⟨chunks, hchunks, h₂⟩ => ?_
        refine ⟨[i] :: chunks, .cons (.kept i hret) hchunks, ?_⟩
        rwa [List.flatten_cons, ← List.append_assoc]

end Changing

/-! ## The whole list -/

/-- What the rewriting puts around the instructions of a method. -/
structure Template where
  locals : Locals
  begun : Pointers
  ended : Pointers
  /-- The class that the catch clauses name. -/
  exception : mdToken
  /-- In front of the instructions of the method. -/
  before : List ILInstr
  /-- `startExceptionCatch`. -/
  store : ILInstr
  rethrow : ILInstr
  /-- The finally block, up to its end. -/
  inner : List ILInstr
  endFinally : ILInstr
  rest : List ILInstr
  ret : ILInstr

namespace Template

variable (t : Template)

/-- Behind the instructions of the method. -/
def behind : List ILInstr := t.store :: t.rethrow :: (t.inner ++ t.endFinally :: t.rest) ++ [t.ret]

/-- Where the finally block begins. -/
def startFinally : InstrRef :=
  ((t.inner ++ t.endFinally :: t.rest ++ [t.ret]).head?.map ILInstr.ref).getD sentinel

/-- Where the method is left to. -/
def exit : InstrRef := ((t.rest ++ [t.ret]).head?.map ILInstr.ref).getD sentinel

/-- `exClause`. -/
def catchClause : EHClause where
  flags := 0
  tryBegin := t.begun.first.value
  tryEnd := t.store.ref
  handlerBegin := t.store.ref
  handlerEnd := t.rethrow.ref
  classToken := t.exception.toNat

/-- `finallyClause`. -/
def finallyClause : EHClause where
  flags := 2
  tryBegin := t.begun.first.value
  tryEnd := t.startFinally
  handlerBegin := t.startFinally
  handlerEnd := t.endFinally.ref

/-- `beginMethodExClause` and `endMethodExClause`. -/
def callClause (p : Pointers) : EHClause where
  flags := 0
  tryBegin := p.first.value
  tryEnd := p.catchFirst.value
  handlerBegin := p.catchFirst.value
  handlerEnd := p.catchLeave
  classToken := t.exception.toNat

def clauses : List EHClause :=
  [t.callClause t.begun, t.callClause t.ended, t.catchClause, t.finallyClause]

end Template

/-- The list of a method that has been rewritten: the begin of the method, its instructions with
their returns changed, the end of the method with the finally block, and one return. -/
structure Layout (m : CallTargetMethod) (original r : ILRewriter) (t : Template)
    (chunks : List (List ILInstr)) : Prop where
  il : r.il = t.before ++ chunks.flatten ++ t.behind
  chunks : List.Forall₂ (Changed m t.locals t.exit) original.il chunks
  before : ∀ i ∈ t.before, original.nInstrs < i.ref ∧ i.opcode ≠ Cee.ret
  behind : ∀ i ∈ t.store :: t.rethrow :: (t.inner ++ t.endFinally :: t.rest),
    original.nInstrs < i.ref ∧ i.opcode ≠ Cee.ret
  store : (t.store.opcode, t.store.arg) =
    indexed 0x0A 0x13 0x10E t.locals.exceptionIndex.value.toNat
  rethrow : t.rethrow.opcode = 0x11A
  finallyEnd : t.endFinally.opcode = 0xDC
  rest : Reloads m t.locals t.rest
  ret : t.ret.opcode = Cee.ret
  distinct : Distinct r.il
  begun : Inside t.before [t.begun.first, t.begun.catchFirst]
  ended : Inside t.inner [t.ended.first, t.ended.catchFirst]
  eh : r.eh = original.eh ++ t.clauses

section Layout

open Procedure

variable {m : CallTargetMethod} {s : Session} {locals : Locals}

/-- The clauses are added behind those of the method. -/
theorem yields_addClauses {t : Template} (hnext : ILRewriter.next s.rewriter.il t.rethrow.ref =
      some t.startFinally) (hexception : t.exception = s.value .exTypeRef) :
    (addClauses t.begun t.ended t.store.ref t.rethrow.ref t.endFinally.ref).Yields s fun _ s' =>
      s'.rewriter.il = s.rewriter.il ∧ s'.rewriter.eh = s.rewriter.eh ++ t.clauses ∧
        (s'.Sound → t.begun.Assigned ∧ t.ended.Assigned) := by
  have hnext : (ILRewriter.next s.rewriter.il t.rethrow.ref).getD sentinel = t.startFinally := by
    rw [hnext]
    rfl
  refine Yields.bind (R := fun r s' => r = t.startFinally ∧ s' = s)
    (Yields.of_done rfl ⟨hnext, rfl⟩) ?_
  rintro _ _ ⟨rfl, rfl⟩
  refine Yields.of_done rfl ⟨rfl, ?_, fun hsound => ?_⟩
  · rw [Template.clauses, Template.callClause, Template.callClause, Template.catchClause, hexception]
    simp only [List.append_assoc, List.cons_append, List.nil_append]
    rfl
  · have hassigned := hsound.operands
    simp only [List.forall_mem_append, List.forall_mem_cons, Operand.assigned] at hassigned
    obtain ⟨⟨⟨⟨-, hbegun⟩, hended⟩, -⟩, -⟩ := hassigned
    exact ⟨⟨hbegun.1, hbegun.2.1⟩, ⟨hended.1, hended.2.1⟩⟩

/-- The returns of a list that is rewritten are those of the method. -/
theorem returns_eq {before original behind : List ILInstr} {ret : ILInstr}
    (hil : s.rewriter.il = before ++ original ++ behind ++ [ret]) (hdistinct : Distinct s.rewriter.il)
    (hbefore : ∀ i ∈ before, i.opcode ≠ Cee.ret) (hbehind : ∀ i ∈ behind, i.opcode ≠ Cee.ret) :
    ((s.rewriter.il.filter fun i => i.opcode = Cee.ret ∧ i.ref ≠ ret.ref).map ILInstr.ref) =
      (original.filter fun i => i.opcode = Cee.ret).map ILInstr.ref := by
  have hnone : ∀ l : List ILInstr, (∀ i ∈ l, i.opcode ≠ Cee.ret) →
      (l.filter fun i => decide (i.opcode = Cee.ret ∧ i.ref ≠ ret.ref)) = [] := by
    intro l hl
    refine List.filter_eq_nil_iff.mpr fun i hi => ?_
    rw [decide_eq_true_iff]
    exact fun h => hl i hi h.1
  have hother : (original.filter fun i => decide (i.opcode = Cee.ret ∧ i.ref ≠ ret.ref)) =
      original.filter fun i => decide (i.opcode = Cee.ret) := by
    refine List.filter_congr fun i hi => decide_eq_decide.mpr (and_iff_left ?_)
    have hsplit : Distinct ((before ++ original ++ behind) ++ [ret]) := hil ▸ hdistinct
    exact ne_head hsplit i (List.mem_append_left _ (List.mem_append_right _ hi))
  have hlast : ([ret].filter fun i => decide (i.opcode = Cee.ret ∧ i.ref ≠ ret.ref)) = [] :=
    List.filter_cons_of_neg (by rw [decide_eq_true_iff]; exact fun h => h.2 rfl)
  rw [hil, List.filter_append, List.filter_append, List.filter_append, hnone before hbefore,
    hnone behind hbehind, hother, hlast, List.append_nil, List.append_nil, List.nil_append]

/-- The state with the return at the end of the list, before which the next instructions come. -/
def Session.withReturn (s : Session) : Session :=
  { ({ s with position := sentinel } : Session).insert Cee.ret 0 [] with
    position := s.rewriter.nInstrs + 1 }

theorem built_withReturn {before original : List ILInstr} {eh : List EHClause} {n : Nat}
    (h : Built [] before original eh n s) :
    Built (before ++ original) [] [s.newInstr Cee.ret 0] eh (s.rewriter.nInstrs + 1) s.withReturn := by
  have hil : s.rewriter.il = before ++ original ++ [] := by
    rw [h.il, List.nil_append, List.append_nil]
  have hbefore : ∀ j ∈ before ++ original,
      j.ref ≠ ({ s with position := sentinel } : Session).position :=
    fun j hj => h.distinct.ne_sentinel j (hil ▸ List.mem_append_left _ hj)
  obtain ⟨hil', hcount, heh⟩ :=
    il_insert (s := { s with position := sentinel }) Cee.ret 0 [] hil hbefore rfl
  have hle : ∀ j ∈ before ++ original ++ [s.newInstr Cee.ret 0], j.ref ≤ s.rewriter.nInstrs + 1 := by
    refine List.forall_mem_append.mpr ⟨fun j hj => ?_, List.forall_mem_singleton.mpr le_rfl⟩
    exact Nat.le_succ_of_le (h.le j (hil ▸ List.mem_append_left _ hj))
  refine ⟨?_, List.forall_mem_nil _, hle, rfl, ?_, ?_, hcount.symm.le, heh.trans h.eh⟩
  · rw [List.append_nil]
    exact hil'
  · refine hil'.symm ▸ distinct_insert (hil ▸ h.distinct) (fun j hj => ?_) (Nat.succ_ne_zero _)
    rw [List.append_nil] at hj
    exact Nat.lt_succ_of_le (h.le j (hil ▸ List.mem_append_left _ hj))
  · exact fun i hi => (hle i (hil' ▸ hi)).trans_eq hcount.symm

/-- The calls of the integration are guarded. -/
def Template.IsGuarded (t : Template) (original : ILRewriter) : Prop :=
  (∃ body leave log again, Guarded t.begun ((original.il.head?.map ILInstr.ref).getD sentinel) t.before
    body leave log again) ∧
  ∃ body leave log again, Guarded t.ended t.endFinally.ref t.inner body leave log again

/-- **The list of a method** that is rewritten, whatever the calls answer. -/
theorem layout_rewrite {original : ILRewriter} (hcounted : Counted original)
    (hs : s.rewriter = original) (hposition : s.position =
      (original.il.head?.map ILInstr.ref).getD sentinel) :
    (rewrite m).Yields s fun _ s' => ∃ t chunks, Layout m original s'.rewriter t chunks ∧
      (s'.Sound → t.begun.Assigned ∧ t.ended.Assigned) ∧ t.IsGuarded original := by
  obtain rfl := hs
  have hstart : Built [] [] s.rewriter.il s.rewriter.eh s.rewriter.nInstrs s :=
    ⟨rfl, List.forall_mem_nil _, hcounted.le, hposition, hcounted.distinct, hcounted.le, le_rfl, rfl⟩
  refine Yields.bind (building_modifyLocalSigAndInitialize hstart) fun locals s₁ h₁ => ?_
  refine Yields.bind (built_beginPart h₁) ?_
  rintro begun s₂ ⟨before, body, leave, log, again, h₂, hbegun⟩
  refine Yields.bind (R := fun _ s' => s' = { s₂ with position := sentinel })
    (Yields.of_done rfl rfl) ?_
  rintro _ _ rfl
  refine Yields.bind (R := fun r s' => r = s₂.rewriter.nInstrs + 1 ∧
    s' = ({ s₂ with position := sentinel } : Session).insert Cee.ret 0 [])
    (Yields.of_done rfl ⟨rfl, rfl⟩) ?_
  rintro _ _ ⟨rfl, rfl⟩
  refine Yields.bind (R := fun _ s' => s' = s₂.withReturn) (Yields.of_done rfl rfl) ?_
  rintro _ _ rfl
  have hreturn := built_withReturn h₂
  refine Yields.bind (built_createInstr (indexed_linear _ (by decide) (by decide) (by decide)).1 hreturn)
    ?_
  rintro _ s₃ ⟨-, store, rfl, hstoreOpcode, hstoreArg, h₃⟩
  refine Yields.bind (built_createInstr (by decide) h₃) ?_
  rintro _ s₄ ⟨-, rethrow, rfl, hrethrow, -, h₄⟩
  refine Yields.bind (built_endPart h₄.rebase) ?_
  rintro ⟨ended, _⟩ s₅ ⟨inner, e, rest, h₅, rfl, hopcode, hrest, hended⟩
  let t : Template := ⟨locals, begun, ended, 0, before, store, rethrow, inner, e, rest,
    s₂.newInstr Cee.ret 0⟩
  have hadded : ∀ i ∈ store :: rethrow :: (inner ++ e :: rest),
      s.rewriter.nInstrs < i.ref ∧ i.opcode ≠ Cee.ret := by
    have hcount : s.rewriter.nInstrs < s₂.rewriter.nInstrs + 1 := Nat.lt_succ_of_le h₂.count
    intro i hi
    rcases List.mem_append.mp (show i ∈ [store, rethrow] ++ (inner ++ e :: rest) from hi) with hi | hi
    · exact ⟨hcount.trans (h₄.new i hi).1, (h₄.new i hi).2⟩
    · exact ⟨(hcount.trans_le h₄.count).trans (h₅.new i hi).1, (h₅.new i hi).2⟩
  have hil₅ : s₅.rewriter.il = before ++ (s.rewriter.il ++ t.behind) := by
    rw [h₅.il]
    simp only [t, Template.behind, List.append_assoc, List.cons_append, List.nil_append]
  have hlist : s₅.rewriter.il = before ++ s.rewriter.il ++
      (store :: rethrow :: (inner ++ e :: rest)) ++ [s₂.newInstr Cee.ret 0] := by
    rw [hil₅, Template.behind, ← List.append_assoc, ← List.append_assoc]
  have hreturns := returns_eq hlist h₅.distinct (fun i hi => (h₂.new i hi).2)
    fun i hi => (hadded i hi).2
  refine Yields.bind (R := fun instrs s' => s₅ = s' ∧ instrs =
    (s.rewriter.il.filter fun i => i.opcode = Cee.ret).map ILInstr.ref)
    (Yields.of_done rfl ⟨rfl, hreturns⟩) ?_
  rintro _ _ ⟨rfl, rfl⟩
  have hchanging : Changing before s.rewriter.il t.behind s.rewriter.eh s₅ :=
    ⟨hil₅, h₅.distinct, h₅.le, h₅.eh⟩
  have hexit : Exits t.behind e.ref t.exit := by
    refine ⟨store :: rethrow :: inner, e, rest ++ [t.ret], ?_, rfl, rfl⟩
    simp only [t, Template.behind, List.append_assoc, List.cons_append]
  refine Yields.bind (hchanging.changeReturns _ hexit) fun _ s₆ h₆ => ?_
  obtain ⟨chunks, hchunks, h₆⟩ := h₆
  have hil₆ : s₆.rewriter.il = before ++ chunks.flatten ++ t.behind := by
    rw [h₆.il, List.nil_append]
  have hnext : ILRewriter.next s₆.rewriter.il rethrow.ref = some t.startFinally := by
    have hsplit : s₆.rewriter.il = (before ++ chunks.flatten ++ [store]) ++ rethrow ::
        (inner ++ e :: rest ++ [t.ret]) := by
      rw [hil₆]
      simp only [t, Template.behind, List.append_assoc, List.cons_append, List.nil_append]
    rw [hsplit]
    exact next_append (hsplit ▸ h₆.distinct)
  refine (yields_addClauses (t := { t with exception := s₆.value .exTypeRef }) hnext rfl).mono
    fun _ s₇ h₇ => ?_
  obtain ⟨hil, heh, hassigned⟩ := h₇
  obtain ⟨_, _, _, _, hguarded⟩ := id hended
  refine ⟨{ t with exception := s₆.value .exTypeRef }, chunks, ⟨hil.trans hil₆, hchunks, h₂.new,
    hadded, ?_, hrethrow, hopcode, hrest, rfl, ?_, hbegun.inside, hguarded.inside, ?_⟩, hassigned,
    ⟨body, leave, log, again, hbegun⟩, hended⟩
  · exact Prod.ext hstoreOpcode hstoreArg
  · rw [hil]
    exact h₆.distinct
  · rw [heh, h₆.eh]

/-- What is exported is such a list, and the calls of the integration are guarded. -/
theorem exported_guarded (m : CallTargetMethod) {original : ILRewriter}
    (himport : importMethod m.body = .ok original) (tokens : Slot → Option Token)
    (answer : List Answer → (c : Call) → Except HRESULT c.request.Reply)
    {exported : Result (List UInt8)} (hexported : (run m tokens answer).2.1 = some exported) :
    exported = exportMethod m.fill (run m tokens answer).2.2.rewriter ∧
      ∃ t chunks, Layout m original (run m tokens answer).2.2.rewriter t chunks ∧
        ((run m tokens answer).2.2.Sound → t.begun.Assigned ∧ t.ended.Assigned) ∧
          t.IsGuarded original := by
  have hcounted := counted_of_sound (sound_of_importMethod himport)
    (numbered_of_importMethod himport)
  have hyields : (CallTarget_RewriterCallback m).Yields { tokens } fun r s' =>
      r = exportMethod m.fill s'.rewriter ∧ ∃ t chunks, Layout m original s'.rewriter t chunks ∧
        (s'.Sound → t.begun.Assigned ∧ t.ended.Assigned) ∧ t.IsGuarded original := by
    rw [CallTarget_RewriterCallback, himport]
    split
    case isTrue => exact fun _ h => by cases h
    case isFalse =>
      refine Yields.bind (R := fun _ s' => s'.rewriter = original ∧
        s'.position = (original.il.head?.map ILInstr.ref).getD sentinel)
        (Yields.of_done rfl ⟨rfl, rfl⟩) fun _ s₁ himported => ?_
      obtain ⟨hs₁, hposition⟩ := himported
      refine Yields.bind (layout_rewrite hcounted hs₁ hposition) fun _ s₂ hlayout => ?_
      exact Yields.of_done rfl ⟨rfl, hlayout⟩
  exact Script.Ensures.exec hyields answer [] exported hexported

/-- **What is exported** is the list of the method with its returns changed, between a begin and an
end, whatever the metadata calls answer: no other instruction is changed, so that the branches of the
method lead to the instructions they led to, and its clauses come first. -/
theorem exported_layout (m : CallTargetMethod) {original : ILRewriter}
    (himport : importMethod m.body = .ok original) (tokens : Slot → Option Token)
    (answer : List Answer → (c : Call) → Except HRESULT c.request.Reply)
    {exported : Result (List UInt8)} (hexported : (run m tokens answer).2.1 = some exported) :
    exported = exportMethod m.fill (run m tokens answer).2.2.rewriter ∧
      ∃ t chunks, Layout m original (run m tokens answer).2.2.rewriter t chunks ∧
        ((run m tokens answer).2.2.Sound → t.begun.Assigned ∧ t.ended.Assigned) := by
  obtain ⟨heq, t, chunks, hlayout, hassigned, -⟩ :=
    exported_guarded m himport tokens answer hexported
  exact ⟨heq, t, chunks, hlayout, hassigned⟩

/-- A method that does nothing. -/
def emptyMethod : CallTargetMethod where
  profilerLoaded := true
  body := [0x06, 0x2A]
  isStatic := true
  ret := voidReturn
  methodArguments := []
  wrapper_type_ref := 0x01000001
  type := { id := 0x02000001, type_spec := mdTypeSpecNil, valueType := false, isGeneric := false }
  parents := []

/-- All calls for tokens succeed. -/
def allTokens : (c : Call) → Except HRESULT c.request.Reply
  | ⟨_, _, .token _⟩ => .ok ⟨0x01000001, by decide⟩
  | ⟨_, _, .GetSigFromToken _ _⟩ => .error E_FAIL
  | ⟨_, _, .GetTypeSpecFromToken _⟩ => .ok []

/-- The method that does nothing, rewritten. -/
theorem exported_layout_empty : ∃ original exported,
    importMethod emptyMethod.body = .ok original ∧
      (run emptyMethod (fun _ => none) fun _ => allTokens).2.1 = some exported ∧
        exported = exportMethod emptyMethod.fill
          (run emptyMethod (fun _ => none) fun _ => allTokens).2.2.rewriter ∧
        ∃ t chunks, Layout emptyMethod original
          (run emptyMethod (fun _ => none) fun _ => allTokens).2.2.rewriter t chunks := by
  have himport : importMethod emptyMethod.body = .ok
      { tkLocalVarSig := 0, maxStack := 8, flags := 0, generateTinyHeader := false
        il := [{ ref := 1, opcode := Cee.ret }], eh := [], nInstrs := 1 } := by
    rfl
  have hsome : (run emptyMethod (fun _ => none) fun _ => allTokens).2.1.isSome = true := by
    decide +kernel
  obtain ⟨exported, hexported⟩ := Option.isSome_iff_exists.mp hsome
  obtain ⟨heq, t, chunks, hlayout, -⟩ := exported_layout emptyMethod himport _ _ hexported
  exact ⟨_, exported, himport, hexported, heq, t, chunks, hlayout⟩

end Layout

end DdTrace.Profiler.Rewriting
