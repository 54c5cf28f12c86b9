import DdTrace.Profiler.StructuralNames
import DdTrace.Profiler.TokenOutcomes

/-!
# When a rewrite is published

`CallTarget_RewriterCallback` rewrites a method with the functions of `CallTargetTokens`, looks at
the results of some of them, and calls `Export`.

* `CallTarget_RewriterCallback`: the whole function; it is stopped where the source returns
  `S_FALSE` before `Export`, and has the result of `Export` otherwise.
* `CallTargetMethod.Refused`: the methods that it does not rewrite.
* `exported_sound_iff`: when `Export` is called only if no function has failed and all operands are
  assigned.

Source: `cor_profiler.cpp`, lines 3133 to 3579.
-/

namespace DdTrace.Profiler.Rewriting

open DdTrace.Lib CorElementType
open ILRewriter (importMethod exportMethod)

/-! ## The callback -/

/-- `nullptr`. Instructions have smaller numbers. -/
abbrev nullptr : InstrRef := 2 ^ 32

/-- Call a function, and note whether it has failed; its out-parameter stays a null pointer then. -/
def noted (f : Vital) (x : Fallible InstrRef) : Rewrite (Out InstrRef) := do
  match ← x.run with
  | .ok instr => do
      modify fun s => s.note f true
      pure ⟨instr, true⟩
  | .error _ => do
      modify fun s => s.note f false
      pure ⟨nullptr, false⟩

/-- Set the targets of instructions. -/
def setTarget (instrs : List InstrRef) (target : InstrRef) : Rewrite PUnit :=
  modify fun s =>
    { s with
      rewriter :=
        { s.rewriter with
          il := s.rewriter.il.map fun i =>
            if i.ref ∈ instrs then { i with target := target } else i }
      operands := s.operands ++ [.target ⟨target, true⟩] }

/-- Source: `il_rewriter_wrapper.cpp`, `ILRewriterWrapper::SetILPosition` -/
def SetILPosition (instr : InstrRef) : Rewrite PUnit :=
  modify fun s => { s with position := instr }

/-- `pInstr->m_pNext`. -/
def nextOf (instr : InstrRef) : Rewrite InstrRef :=
  modifyGet fun s => ((ILRewriter.next s.rewriter.il instr).getD sentinel, s)

/-- Load the instance, or a null reference.
Source: `cor_profiler.cpp`, "Load instance into the stack (if not static)" -/
def loadInstance (m : CallTargetMethod) : Rewrite InstrRef :=
  if m.isStatic then
    if m.type.valueType then Procedure.stop
    else LoadNull
  else do
    let first ← LoadArgument 0
    if m.type.valueType then
      if m.type.type_spec ≠ mdTypeSpecNil then do
        let _ ← LoadObj m.type.type_spec
        pure first
      else if !m.type.isGeneric then do
        let _ ← LoadObj m.type.id
        pure first
      else Procedure.stop
    else pure first

/-- The argument is passed by reference. -/
def isByRef (arg : ParamType) : Bool := (GetTypeFlags arg.bytes).1 &&& TypeFlagByRef ≠ 0

/-- Load the arguments from `i` on. -/
def loadArgumentsDirectly (m : CallTargetMethod) : Nat → List ParamType → Rewrite PUnit
  | _, [] => pure ⟨⟩
  | i, arg :: args => do
      let _ ← LoadArgument (i + if m.isStatic then 0 else 1)
      if isByRef arg then Procedure.stop
      else loadArgumentsDirectly m (i + 1) args

/-- Box an argument, if it has to be.
Source: `cor_profiler.cpp`, "Load the arguments inside an object array (SlowPath)" -/
def boxArgument (arg : ParamType) : Rewrite PUnit :=
  if (GetTypeFlags arg.bytes).1 &&& TypeFlagBoxedType ≠ 0 then do
    match ← (GetTypeTok arg.bytes).run with
    | .error _ => Procedure.stop
    | .ok tok => do
        let _ ← Box tok
        pure ⟨⟩
  else pure ⟨⟩

/-- Store the arguments from `i` on in an array. -/
def loadArgumentsIntoArray (m : CallTargetMethod) : Nat → List ParamType → Rewrite PUnit
  | _, [] => pure ⟨⟩
  | i, arg :: args => do
      let _ ← BeginLoadValueIntoArray i
      let _ ← LoadArgument (i + if m.isStatic then 0 else 1)
      if isByRef arg then Procedure.stop
      else do
        boxArgument arg
        let _ ← EndLoadValueIntoArray
        loadArgumentsIntoArray m (i + 1) args

/-- Source: `cor_profiler.cpp`, "Load the method arguments to the stack" -/
def loadArguments (m : CallTargetMethod) : Rewrite PUnit :=
  if m.numArgs < FASTPATH_COUNT then loadArgumentsDirectly m 0 m.methodArguments
  else do
    let s ← get
    let _ ← CreateArray (s.value .objectTypeRef) m.numArgs
    loadArgumentsIntoArray m 0 m.methodArguments

/-- Source: `cor_profiler.cpp`, "Emit BeginMethod call" -/
def callBeginMethod (m : CallTargetMethod) : Rewrite PUnit := do
  match ← (WriteBeginMethod m).run with
  | .error _ => do
      modify fun s => s.note .WriteBeginMethod false
      Procedure.stop
  | .ok _ => modify fun s => s.note .WriteBeginMethod true

/-- The pointers that the clauses of a rewritten method are made of. -/
structure Pointers where
  first : Out InstrRef
  catchFirst : Out InstrRef
  catchLeave : InstrRef

/-- Source: `cor_profiler.cpp`, the parts "BEGIN METHOD PART" and "METHOD EXECUTION" -/
def beginPart (m : CallTargetMethod) (locals : Locals) : Rewrite Pointers := do
  let _ ← loadInstance m
  loadArguments m
  callBeginMethod m
  let _ ← StLocal locals.callTargetStateIndex
  let stateLeave ← CreateInstr Cee.leaveS
  let catchFirst ← noted .WriteLogException (WriteLogException m)
  let catchLeave ← CreateInstr Cee.leaveS
  let beginOriginalMethodInstr ← modifyGet fun s => (s.position, s)
  setTarget [stateLeave, catchLeave] beginOriginalMethodInstr
  pure { first := locals.firstInstruction, catchFirst, catchLeave }

/-- Source: `cor_profiler.cpp`, the call of `EndMethod` and the store of its result -/
def callEndMethod (m : CallTargetMethod) (locals : Locals) : Rewrite PUnit := do
  if m.isVoid then do
    let _ ← noted .WriteEndReturnMemberRef (WriteEndVoidReturnMemberRef m)
    let _ ← StLocal locals.callTargetReturnIndex
  else do
    let _ ← noted .WriteEndReturnMemberRef (WriteEndReturnMemberRef m)
    let _ ← StLocal locals.callTargetReturnIndex
    let _ ← LoadLocalAddress locals.callTargetReturnIndex
    -- the result is not looked at
    let _ ← (WriteCallTargetReturnGetReturnValue locals.callTargetReturnToken.value).run
    let _ ← StLocal locals.returnValueIndex

/-- Load the local of the return value, if there is one. -/
def loadReturnValue (m : CallTargetMethod) (locals : Locals) : Rewrite PUnit :=
  if m.isVoid then pure ⟨⟩
  else do
    let _ ← LoadLocal locals.returnValueIndex
    pure ⟨⟩

/-- Source: `cor_profiler.cpp`, the part "EXCEPTION FINALLY / END METHOD PART" -/
def endPart (m : CallTargetMethod) (locals : Locals) : Rewrite (Pointers × InstrRef) := do
  let first ← loadInstance m
  loadReturnValue m locals
  let _ ← LoadLocal locals.exceptionIndex
  let _ ← LoadLocal locals.callTargetStateIndex
  callEndMethod m locals
  let tryLeave ← CreateInstr Cee.leaveS
  let catchFirst ← noted .WriteLogException (WriteLogException m)
  let catchLeave ← CreateInstr Cee.leaveS
  let endFinally ← EndFinally
  setTarget [tryLeave, catchLeave] endFinally
  loadReturnValue m locals
  pure ({ first := ⟨first, true⟩, catchFirst, catchLeave }, endFinally)

/-- Make a `leave.s` of a `ret`; the value on the stack is stored before it. -/
def changeReturn (m : CallTargetMethod) (locals : Locals) (endFinally instr : InstrRef) :
    Rewrite PUnit := do
  if m.isVoid then pure ⟨⟩
  else do
    SetILPosition instr
    let _ ← StLocal locals.returnValueIndex
  modify fun s =>
    { s with
      rewriter :=
        { s.rewriter with
          il := s.rewriter.il.map fun i =>
            if i.ref = instr then { i with opcode := Cee.leaveS } else i } }
  let target ← nextOf endFinally
  setTarget [instr] target

/-- Source: `cor_profiler.cpp`, "Changes all returns to a LEAVE.S" -/
def changeReturns (m : CallTargetMethod) (locals : Locals) (endFinally : InstrRef) :
    List InstrRef → Rewrite PUnit
  | [] => pure ⟨⟩
  | instr :: instrs => do
      changeReturn m locals endFinally instr
      changeReturns m locals endFinally instrs

/-- The instructions that return, but for the last one. -/
def returns (methodReturn : InstrRef) : Rewrite (List InstrRef) :=
  modifyGet fun s =>
    ((s.rewriter.il.filter fun i => i.opcode = Cee.ret ∧ i.ref ≠ methodReturn).map ILInstr.ref, s)

/-- A clause from pointers that may never have been assigned. -/
def addClause (flags : Nat) (tryBegin tryEnd handlerBegin handlerEnd : Out InstrRef)
    (classToken : mdToken) : Rewrite PUnit :=
  modify fun s =>
    { s with
      rewriter :=
        { s.rewriter with
          eh := s.rewriter.eh ++
            [{ flags := flags, tryBegin := tryBegin.value, tryEnd := tryEnd.value
               handlerBegin := handlerBegin.value, handlerEnd := handlerEnd.value
               classToken := classToken.toNat }] }
      operands := s.operands ++
        [.target tryBegin, .target tryEnd, .target handlerBegin, .target handlerEnd] }

/-- Source: `cor_profiler.cpp`, "Exception handling clauses" -/
def addClauses (begun ended : Pointers) (startExceptionCatch rethrow endFinally : InstrRef) :
    Rewrite PUnit := do
  let afterRethrow ← nextOf rethrow
  let s ← get
  let exception := s.value .exTypeRef
  addClause 0 begun.first begun.catchFirst begun.catchFirst ⟨begun.catchLeave, true⟩ exception
  addClause 0 ended.first ended.catchFirst ended.catchFirst ⟨ended.catchLeave, true⟩ exception
  addClause 0 begun.first ⟨startExceptionCatch, true⟩ ⟨startExceptionCatch, true⟩ ⟨rethrow, true⟩
    exception
  addClause 2 begun.first ⟨afterRethrow, true⟩ ⟨afterRethrow, true⟩ ⟨endFinally, true⟩ 0

/-- The parts behind the import; the return instruction is inserted at the end.
Source: `cor_profiler.cpp`, `CorProfiler::CallTarget_RewriterCallback` -/
def rewrite (m : CallTargetMethod) : Rewrite PUnit := do
  let locals ← ModifyLocalSigAndInitialize m
  let begun ← beginPart m locals
  SetILPosition sentinel
  let methodReturn ← CreateInstr Cee.ret
  SetILPosition methodReturn
  let startExceptionCatch ← StLocal locals.exceptionIndex
  let rethrow ← Rethrow
  let (ended, endFinally) ← endPart m locals
  let instrs ← returns methodReturn
  changeReturns m locals endFinally instrs
  addClauses begun ended startExceptionCatch rethrow endFinally

/-- It is stopped before `Export`, or has its result.
Source: `cor_profiler.cpp`, `CorProfiler::CallTarget_RewriterCallback` -/
def CallTarget_RewriterCallback (m : CallTargetMethod) : Rewrite (Result (List UInt8)) := do
  if !m.profilerLoaded then Procedure.stop
  else
    match importMethod m.body with
    | .error _ => Procedure.stop
    | .ok imported => do
        modify fun s =>
          { s with rewriter := imported, position := (imported.il.head?.map ILInstr.ref).getD sentinel }
        rewrite m
        let s ← get
        pure (exportMethod m.fill s.rewriter)

/-! ## The functions that are called -/

section Parts

variable {s : Session} {m : CallTargetMethod} {locals : Locals} {refused : Prop}

/-- The failure to define the types of `CallTargetReturn` has no part in the call of `EndMethod`. -/
theorem judges_writeEndReturnMemberRef :
    Judges (Fine m.outside) (fun c => c.caller = .WriteEndReturnMemberRef) Later
      (WriteEndReturnMemberRef m) s fun _ _ => True := by
  have htoken : false = true → Caller.WriteEndReturnMemberRef = .GetTypeTok :=
    fun h => absurd h Bool.false_ne_true
  have hown : ∀ {α : Type} {x : Fallible α} {s : Session} {R : α → Session → Prop},
      Judges Succeeded (Call.Ordinary .WriteEndReturnMemberRef) Keeps x s R →
        Judges (Fine m.outside) (fun c => c.caller = .WriteEndReturnMemberRef) Later x s R :=
    fun h => h.weaken (fun _ h => h.caller_eq) (fun _ h => h.fine_iff Caller.noConfusion)
      (fun _ h => h.toLater) fun _ _ _ h => h
  refine Judges.bind Later.trans (hown judges_base) fun _ s₁ _ hbased => ?_
  refine Judges.bind Later.trans (Warns.lift (P := fun t _ _ =>
    (∀ e ∈ t, Fine m.outside e) ∧ True) ?_) fun _ s₂ _ _ => ?_
  · have hcaller : Caller.WriteEndReturnMemberRef ≠ .GetTypeTok := Caller.noConfusion
    refine Procedure.Ensures.mono
      (ensures_getTargetReturnValueTypeRef (m := m) m.outside hbased hcaller) ?_
    rintro t o s' ⟨hcalls, hlater, ⟨out, rfl⟩, ⟨-, hfine⟩ | ⟨-, scope, name, hr, rfl⟩⟩
    · exact ⟨hcalls, hlater, out, rfl, hfine, trivial⟩
    · refine ⟨hcalls, hlater, out, rfl, List.forall_mem_singleton.mpr ?_, trivial⟩
      exact fine_error_iff.mpr (by simp [Call.matters])
  · refine Judges.bind Later.trans (R := fun _ _ => True)
      (.of_done rfl (Later.refl s₂) trivial) fun _ s₃ _ _ => ?_
    refine Judges.bind Later.trans (hown (judges_define not_kept htoken)) fun _ s₄ _ _ => ?_
    refine Judges.bind Later.trans (hown (judges_define not_kept htoken)) fun token s₅ _ _ => ?_
    exact hown (judges_callMember token.val)

/-- A function whose failure is noted. -/
theorem answers_noted {f : Vital} {x : Fallible InstrRef} {mine : Call → Prop}
    {K : Session → Session → Prop} {R : InstrRef → Session → Prop}
    (h : Judges (Fine m.outside) mine K x s R) (hmine : ∀ c, mine c → ¬c.Checked)
    (hK : ∀ s', K s s' → (s'.Sound ↔ s.Sound)) :
    Answers m refused (noted f x) s fun out s' => s'.Sound → out.assigned = true := by
  refine Accounts.of_kept h hmine hK (fun instr s' _ _ => ?_) fun hr s' _ => ?_
  · exact Accounts.of_done rfl (sound_note_true s' f) fun _ => rfl
  · refine Ruins.of_done rfl (not_sound_note_false s' f) fun h => ?_
    exact absurd h (not_sound_note_false s' f)

/-- A function that makes calls for its own result, and is noted. -/
theorem answers_noted_ordinary {f : Vital} {x : Fallible InstrRef} {caller : Caller}
    {R : InstrRef → Session → Prop} (h : Judges Succeeded (Call.Ordinary caller) Keeps x s R)
    (hchecked : caller.checked = false) (hcaller : caller ≠ .WriteCallTargetReturnGetReturnValue) :
    Answers m refused (noted f x) s fun out s' => s'.Sound → out.assigned = true :=
  answers_noted (h.weaken (fun _ h => h) (fun _ h => h.fine_iff hcaller) (fun _ h => h)
    fun _ _ _ h => h) (fun _ hc => hc.not_checked hchecked) fun _ h => h.sound

/-- The result of `GetReturnValue` is not looked at. -/
theorem answers_getReturnValue {typeSpec : mdToken} :
    Answers m refused (WriteCallTargetReturnGetReturnValue typeSpec).run s fun _ _ => True := by
  have hjudges : Judges Succeeded (Call.Ordinary .WriteCallTargetReturnGetReturnValue) Keeps
      (WriteCallTargetReturnGetReturnValue typeSpec) s fun _ _ => True := by
    refine Judges.bind keeps_trans (judges_failsWith (Judges.bind keeps_trans judges_base
      fun _ s₁ _ _ => judges_define not_kept nofun)) fun token s₂ _ _ => ?_
    exact judges_callMember token.val
  refine Procedure.Ensures.mono hjudges.ensures ?_
  rintro t o s' ⟨hcalls, hkept, hcases⟩
  have hfine : ∀ e ∈ t, Fine m.outside e := by
    rintro ⟨⟨caller, slot, request⟩, r⟩ he
    obtain ⟨rfl, -, -, d, rfl⟩ := hcalls _ he
    cases r with
    | error hr => exact fine_error_iff.mpr rfl
    | ok token => exact fine_token
  obtain ⟨a, rfl⟩ : ∃ a, o = some a := by
    rcases hcases with ⟨a, ho, -⟩ | ⟨e, ho, -⟩
    · exact ⟨_, ho⟩
    · exact ⟨_, ho⟩
  exact Or.inr ⟨a, rfl, hkept.sound.trans (and_iff_left hfine).symm, fun e he _ => hfine e he,
    trivial⟩

/-! ## The parts of the callback -/

/-- The types whose methods are not rewritten: generic value types, and value types if the method is
static. -/
def CallTargetMethod.InstanceRefused (m : CallTargetMethod) : Prop :=
  m.type.valueType = true ∧
    (m.isStatic = true ∨ m.type.type_spec = mdTypeSpecNil ∧ m.type.isGeneric = true)

/-- An instruction without operands that come from elsewhere. -/
theorem answers_plain {opcode arg : Nat} :
    Answers m refused (CreateInstr opcode arg) s fun _ _ => True :=
  (answers_createInstr fun _ => List.forall_mem_nil _).mono fun _ _ _ => trivial

theorem answers_loadInt32 {value : Nat} :
    Answers m refused (LoadInt32 value) s fun _ _ => True := by
  rw [LoadInt32]
  split
  case isTrue => exact answers_plain
  case isFalse =>
    split
    case isTrue => exact answers_plain
    case isFalse => exact answers_plain

theorem answers_loadInstance (hrefused : m.InstanceRefused → refused) :
    Answers m refused (loadInstance m) s fun _ _ => ¬m.InstanceRefused := by
  rw [loadInstance]
  split
  case isTrue hstatic =>
    split
    case isTrue hvalue => exact Accounts.stop (hrefused ⟨hvalue, Or.inl hstatic⟩)
    case isFalse hclass => exact answers_plain.mono fun _ _ _ h => hclass h.1
  case isFalse hinstance =>
    refine Accounts.bind answers_plain fun first s₁ _ _ => ?_
    split
    case isFalse hclass => exact Accounts.pure fun h => hclass h.1
    case isTrue hvalue =>
      split
      case isTrue hspec =>
        refine Accounts.bind answers_plain fun _ _ _ _ => Accounts.pure fun h => ?_
        exact h.2.elim hinstance fun h => hspec h.1
      case isFalse hspec =>
        split
        case isTrue hgeneric =>
          refine Accounts.bind answers_plain fun _ _ _ _ => Accounts.pure fun h => ?_
          refine h.2.elim hinstance fun h => ?_
          rw [h.2] at hgeneric
          cases hgeneric
        case isFalse hgeneric =>
          refine Accounts.stop (hrefused ⟨hvalue, Or.inr ⟨not_not.mp hspec, ?_⟩⟩)
          rwa [Bool.not_eq_true, Bool.not_eq_false'] at hgeneric

theorem answers_loadArgumentsDirectly (i : Nat) (args : List ParamType)
    (hrefused : (∃ arg ∈ args, isByRef arg = true) → refused) :
    Answers m refused (loadArgumentsDirectly m i args) s fun _ _ =>
      ¬∃ arg ∈ args, isByRef arg = true := by
  induction args generalizing i s with
  | nil => exact Accounts.pure fun ⟨_, h, _⟩ => List.not_mem_nil h
  | cons arg args ih =>
      refine Accounts.bind answers_plain fun _ s₁ _ _ => ?_
      split
      case isTrue harg => exact Accounts.stop (hrefused ⟨arg, List.mem_cons_self, harg⟩)
      case isFalse harg =>
        refine (ih (i + 1) fun ⟨a, ha, h⟩ => hrefused ⟨a, List.mem_cons_of_mem _ ha, h⟩).mono ?_
        rintro _ _ hrest ⟨a, ha, h⟩
        rcases List.mem_cons.mp ha with rfl | ha
        · exact harg h
        · exact hrest ⟨a, ha, h⟩

/-! ### The arguments -/

/-- The type that is boxed: behind `BYREF`, if there is one. -/
theorem ParamType.isType (arg : ParamType) :
    ∃ place, IsType accepted place
      (if arg.bytes.headD 0 == byRef then arg.bytes.tail else arg.bytes) := by
  have htested : byRef ∈ testedAt .param := by decide
  obtain ⟨b, v, hbytes, h⟩ := (isByRefType_iff htested).mp arg.parsed
  rw [hbytes]
  change ∃ place, IsType accepted place (if (b == byRef) = true then v else b :: v)
  by_cases hb : b = byRef
  · rw [if_pos hb] at h
    rw [if_pos (beq_iff_eq.mpr hb)]
    exact ⟨_, h⟩
  · rw [if_neg hb, hbytes] at h
    rw [if_neg (fun heq => hb (beq_iff_eq.mp heq))]
    exact ⟨_, h.2⟩

/-- The types that are boxed have tokens: by their name, by their bytes, or in their bytes. -/
theorem boxed_cases : ∀ b ∈ genericInst :: boxedTypes,
    (corLibTypeName b).isSome = true ∨ b ∈ [genericInst, szArray, mVar, var] ∨ b = valueType :=
  forall_mem_of_all (by decide)

theorem mem_boxed {type : List UInt8} (h : (GetTypeFlags type).1 &&& TypeFlagBoxedType ≠ 0) :
    (if type.headD 0 == byRef then type.tail else type).headD 0 ∈ genericInst :: boxedTypes := by
  rw [GetTypeFlags] at h
  split at h
  case isTrue => exact absurd rfl h
  case isFalse =>
    dsimp only at h
    by_cases hboxed : boxedTypes.contains
        ((if type.headD 0 == byRef then type.tail else type).headD 0) = true
    · exact List.mem_cons_of_mem _ (List.contains_iff_mem.mp hboxed)
    · rw [if_neg hboxed] at h
      by_cases hgeneric : ((if type.headD 0 == byRef then type.tail else type).headD 0 == genericInst &&
          (if type.headD 0 == byRef then type.tail else type).tail.headD 0 == valueType) = true
      · rw [Bool.and_eq_true, beq_iff_eq] at hgeneric
        rw [hgeneric.1]
        exact List.mem_cons_self
      · rw [if_neg hgeneric] at h
        cases hbyRef : (type.headD 0 == byRef) with
        | true =>
            rw [hbyRef] at h
            exact absurd (show TypeFlagByRef &&& TypeFlagBoxedType = 0 from rfl) h
        | false =>
            rw [hbyRef] at h
            exact absurd (show 0 &&& TypeFlagBoxedType = 0 from rfl) h

/-- The token of a value type can be read. -/
theorem exists_token {place : Place} {type : List UInt8} (h : IsType accepted place type)
    (hhead : type.headD 0 = valueType) :
    ∃ token length, corSigUncompressToken type 1 = .ok (token, length) := by
  obtain ⟨e, v, rfl⟩ := List.exists_cons_of_ne_nil h.ne_nil
  obtain rfl : e = valueType := hhead
  rcases IsType.cons_iff.mp h with ⟨hleaf, -⟩ | ⟨-, k, hv⟩ | ⟨harray, -⟩ | ⟨hgeneric, -⟩
  · rcases hleaf with hsimple | ⟨hcase, -⟩
    · exact absurd hsimple (by decide)
    · exact absurd (mem_switchCases_of_numbered valueType (by decide)) hcase
  · have hread : corSigUncompressData (valueType :: v) 1 = .ok (k, v.length) :=
      corSigUncompressData_of_encodes (v := []) hv (List.append_nil v).symm
    refine ⟨tokenOf k, v.length, ?_⟩
    rw [corSigUncompressToken, hread]
    rfl
  · cases harray
  · cases hgeneric

/-- The token of a type that is boxed is not found only if the call for it fails. -/
theorem judges_getTypeTok (arg : ParamType)
    (hboxed : (GetTypeFlags arg.bytes).1 &&& TypeFlagBoxedType ≠ 0) :
    Judges Succeeded (Call.Ordinary .GetTypeTok) Keeps (GetTypeTok arg.bytes) s fun _ _ => True := by
  obtain ⟨place, htype⟩ := ParamType.isType arg
  have hcases := boxed_cases _ (mem_boxed hboxed)
  rw [GetTypeTok]
  generalize (if arg.bytes.headD 0 == byRef then arg.bytes.tail else arg.bytes) = pbCur at htype hcases
  cases hname : corLibTypeName (pbCur.headD 0) with
  | some name =>
      refine Judges.bind keeps_trans (R := fun _ _ => True) (.of_done rfl (Keeps.refl s) trivial) ?_
      intro s₁ s₂ _ _
      exact Judges.bind keeps_trans (judges_define not_kept nofun) fun _ s₃ _ _ =>
        Judges.pure (Keeps.refl s₃) trivial
  | none =>
      dsimp only
      split
      case isTrue =>
        exact Judges.bind keeps_trans (judges_define not_kept fun _ => rfl) fun _ s₁ _ _ =>
          Judges.pure (Keeps.refl s₁) trivial
      case isFalse hspec =>
        have hvalue : pbCur.headD 0 = valueType := by
          rcases hcases with h | h | h
          · rw [hname] at h
            cases h
          · exact absurd h hspec
          · exact h
        obtain ⟨token, length, htoken⟩ := exists_token htype hvalue
        rw [if_pos (by rw [hvalue]; decide), htoken]
        exact Judges.pure (Keeps.refl s) trivial

theorem answers_boxArgument (arg : ParamType) :
    Answers m refused (boxArgument arg) s fun _ _ => True := by
  rw [boxArgument]
  split
  case isFalse => exact Accounts.pure trivial
  case isTrue hboxed =>
    have hfine : Judges (Fine m.outside) (Call.Ordinary .GetTypeTok) Keeps (GetTypeTok arg.bytes) s
        fun _ _ => True :=
      (judges_getTypeTok arg hboxed).weaken (fun _ h => h) (fun _ h => h.fine_iff nofun)
        (fun _ h => h) fun _ _ _ h => h
    refine Accounts.of_checked hfine (fun c hc => ?_) (fun _ h => h.sound) (fun tok s' _ _ => ?_)
      fun hr s' => ⟨s', rfl⟩
    · rw [Call.Checked, hc.caller_eq]
      rfl
    · exact Accounts.bind answers_plain fun _ _ _ _ => Accounts.pure trivial

theorem answers_loadArgumentsIntoArray (i : Nat) (args : List ParamType)
    (hrefused : (∃ arg ∈ args, isByRef arg = true) → refused) :
    Answers m refused (loadArgumentsIntoArray m i args) s fun _ _ =>
      ¬∃ arg ∈ args, isByRef arg = true := by
  induction args generalizing i s with
  | nil => exact Accounts.pure fun ⟨_, h, _⟩ => List.not_mem_nil h
  | cons arg args ih =>
      refine Accounts.bind (Accounts.bind answers_plain fun _ _ _ _ => answers_loadInt32) ?_
      refine fun _ s₁ _ _ => Accounts.bind answers_plain fun _ s₂ _ _ => ?_
      split
      case isTrue harg => exact Accounts.stop (hrefused ⟨arg, List.mem_cons_self, harg⟩)
      case isFalse harg =>
        refine Accounts.bind (answers_boxArgument arg) fun _ s₃ _ _ => ?_
        refine Accounts.bind answers_plain fun _ s₄ _ _ => ?_
        refine (ih (i + 1) fun ⟨a, ha, h⟩ => hrefused ⟨a, List.mem_cons_of_mem _ ha, h⟩).mono ?_
        rintro _ _ hrest ⟨a, ha, h⟩
        rcases List.mem_cons.mp ha with rfl | ha
        · exact harg h
        · exact hrest ⟨a, ha, h⟩

theorem answers_loadArguments
    (hrefused : (∃ arg ∈ m.methodArguments, isByRef arg = true) → refused) :
    Answers m refused (loadArguments m) s fun _ _ =>
      ¬∃ arg ∈ m.methodArguments, isByRef arg = true := by
  rw [loadArguments]
  split
  case isTrue => exact answers_loadArgumentsDirectly 0 _ hrefused
  case isFalse =>
    refine Accounts.bind (P := fun _ _ => True) (Accounts.of_done rfl Iff.rfl trivial) ?_
    refine fun s₁ s₂ _ _ => Accounts.bind (Accounts.bind answers_loadInt32 fun _ _ _ _ =>
      answers_plain) fun _ s₃ _ _ => ?_
    exact answers_loadArgumentsIntoArray 0 _ hrefused

/-! ### The begin and the end of the method -/

theorem answers_callBeginMethod : Answers m refused (callBeginMethod m) s fun _ _ => True := by
  have hfine : Judges (Fine m.outside) (Call.Ordinary .WriteBeginMethod) Keeps (WriteBeginMethod m) s
      fun _ _ => True :=
    (judges_writeBeginMethod m).weaken (fun _ h => h) (fun _ h => h.fine_iff nofun) (fun _ h => h)
      fun _ _ _ h => h
  refine Accounts.of_checked hfine (fun c hc => ?_) (fun _ h => h.sound) (fun _ s' _ _ => ?_)
    fun hr s' => ⟨s'.note .WriteBeginMethod false, rfl⟩
  · rw [Call.Checked, hc.caller_eq]
    rfl
  · exact answers_note_true.mono fun _ _ _ => trivial

theorem answers_logException :
    Answers m refused (noted .WriteLogException (WriteLogException m)) s fun out s' =>
      s'.Sound → out.assigned = true :=
  answers_noted_ordinary (judges_writeCall ⟨nofun, nofun⟩) rfl nofun

/-- Operands that are assigned if nothing has failed. -/
theorem answers_operands {f : Session → Session} {operands : List Operand}
    (hresults : (f s).results = s.results) (hoperands : (f s).operands = s.operands ++ operands)
    (h : s.Sound → ∀ o ∈ operands, o.assigned = true) :
    Answers m refused (modify f : Rewrite PUnit) s fun _ _ => True := by
  have hsound : (f s).Sound ↔ s.Sound := by
    constructor
    · refine fun hs => ⟨hresults ▸ hs.results, fun o ho => hs.operands o ?_⟩
      rw [hoperands]
      exact List.mem_append_left _ ho
    · refine fun hs => ⟨hresults.symm ▸ hs.results, ?_⟩
      rw [hoperands]
      exact List.forall_mem_append.mpr ⟨hs.operands, h hs⟩
  exact Accounts.of_done rfl hsound trivial

/-- A target that is there. -/
theorem answers_setTarget {instrs : List InstrRef} {target : InstrRef} :
    Answers m refused (setTarget instrs target) s fun _ _ => True :=
  answers_operands rfl rfl fun _ => List.forall_mem_singleton.mpr rfl

/-- What does not change what is left behind. -/
theorem answers_modifyGet {α : Type} {f : Session → α × Session}
    (hresults : ∀ s, (f s).2.results = s.results) (hoperands : ∀ s, (f s).2.operands = s.operands) :
    Answers m refused (modifyGet f : Rewrite α) s fun _ _ => True := by
  have hsound : (f s).2.Sound ↔ s.Sound :=
    ⟨fun h => ⟨hresults s ▸ h.results, hoperands s ▸ h.operands⟩,
      fun h => ⟨(hresults s).symm ▸ h.results, (hoperands s).symm ▸ h.operands⟩⟩
  exact Accounts.of_done rfl hsound trivial

/-- The pointers of the clauses are assigned. -/
structure Pointers.Assigned (p : Pointers) : Prop where
  first : p.first.assigned = true
  catchFirst : p.catchFirst.assigned = true

/-- The callback goes on to the end, if no call stops it. -/
structure CallTargetMethod.Rewritten (m : CallTargetMethod) : Prop where
  inst : ¬m.InstanceRefused
  arguments : ¬∃ arg ∈ m.methodArguments, isByRef arg = true

theorem answers_beginPart (hlocals : s.Sound → locals.Assigned m)
    (hrefused : ¬m.Rewritten → refused) :
    Answers m refused (beginPart m locals) s fun begun s' =>
      (s'.Sound → begun.Assigned ∧ locals.Assigned m) ∧ m.Rewritten := by
  refine Accounts.bind (answers_loadInstance fun h => hrefused fun h' => h'.inst h) ?_
  intro _ s₁ hinst h₁
  refine Accounts.bind (answers_loadArguments fun h => hrefused fun h' => h'.arguments h) ?_
  intro _ s₂ harguments h₂
  refine Accounts.bind answers_callBeginMethod fun _ s₃ _ h₃ => ?_
  have hlocals₃ : s₃.Sound → locals.Assigned m := fun h => hlocals (h₁ (h₂ (h₃ h)))
  refine Accounts.bind (answers_stLocal fun h => (hlocals₃ h).callTargetStateIndex) ?_
  intro _ s₄ _ h₄
  refine Accounts.bind answers_plain fun stateLeave s₅ _ h₅ => ?_
  refine Accounts.bind answers_logException fun catchFirst s₆ hcatch h₆ => ?_
  refine Accounts.bind answers_plain fun catchLeave s₇ _ h₇ => ?_
  refine Accounts.bind (answers_modifyGet (fun _ => rfl) fun _ => rfl) fun _ s₈ _ h₈ => ?_
  refine Accounts.bind answers_setTarget fun _ s₉ _ h₉ => ?_
  refine Accounts.pure ⟨fun h => ?_, hinst, harguments⟩
  have hall : locals.Assigned m := hlocals₃ (h₄ (h₅ (h₆ (h₇ (h₈ (h₉ h))))))
  exact ⟨⟨hall.firstInstruction, hcatch (h₇ (h₈ (h₉ h)))⟩, hall⟩

theorem answers_loadReturnValue (hlocals : s.Sound → locals.Assigned m) :
    Answers m refused (loadReturnValue m locals) s fun _ _ => True := by
  rw [loadReturnValue]
  split
  case isTrue => exact Accounts.pure trivial
  case isFalse hvoid =>
    have hvalue := eq_false_of_ne_true hvoid
    refine Accounts.bind (answers_loadLocal fun h => (hlocals h).returnValueIndex hvalue) ?_
    exact fun _ _ _ _ => Accounts.pure trivial

theorem answers_callEndMethod (hlocals : s.Sound → locals.Assigned m) :
    Answers m refused (callEndMethod m locals) s fun _ _ => True := by
  rw [callEndMethod]
  split
  case isTrue =>
    refine Accounts.bind (answers_noted_ordinary (judges_writeCall ⟨nofun, nofun⟩) rfl nofun) ?_
    intro _ s₁ _ h₁
    exact (answers_stLocal fun h => (hlocals (h₁ h)).callTargetReturnIndex).bind
      fun _ _ _ _ => Accounts.pure trivial
  case isFalse hvoid =>
    have hvalue := eq_false_of_ne_true hvoid
    refine Accounts.bind (answers_noted judges_writeEndReturnMemberRef (fun c hc h => ?_)
      fun _ h => h.sound) fun _ s₁ _ h₁ => ?_
    · rw [Call.Checked, hc] at h
      cases h
    have hlocals₁ : s₁.Sound → locals.Assigned m := fun h => hlocals (h₁ h)
    refine Accounts.bind (answers_stLocal fun h => (hlocals₁ h).callTargetReturnIndex) ?_
    intro _ s₂ _ h₂
    refine Accounts.bind
      (answers_loadLocalAddress fun h => (hlocals₁ (h₂ h)).callTargetReturnIndex) ?_
    intro _ s₃ _ h₃
    refine Accounts.bind answers_getReturnValue fun _ s₄ _ h₄ => ?_
    exact (answers_stLocal fun h => (hlocals₁ (h₂ (h₃ (h₄ h)))).returnValueIndex hvalue).bind
      fun _ _ _ _ => Accounts.pure trivial

theorem answers_endPart (hlocals : s.Sound → locals.Assigned m) (hrewritten : m.Rewritten) :
    Answers m refused (endPart m locals) s fun ended s' => s'.Sound → ended.1.Assigned := by
  refine Accounts.bind (answers_loadInstance fun h => absurd h hrewritten.inst) fun first s₁ _ h₁ => ?_
  have hlocals₁ : s₁.Sound → locals.Assigned m := fun h => hlocals (h₁ h)
  refine Accounts.bind (answers_loadReturnValue hlocals₁) fun _ s₂ _ h₂ => ?_
  have hlocals₂ : s₂.Sound → locals.Assigned m := fun h => hlocals₁ (h₂ h)
  refine Accounts.bind (answers_loadLocal fun h => (hlocals₂ h).exceptionIndex) fun _ s₃ _ h₃ => ?_
  refine Accounts.bind (answers_loadLocal fun h => (hlocals₂ (h₃ h)).callTargetStateIndex) ?_
  intro _ s₄ _ h₄
  have hlocals₄ : s₄.Sound → locals.Assigned m := fun h => hlocals₂ (h₃ (h₄ h))
  refine Accounts.bind (answers_callEndMethod hlocals₄) fun _ s₅ _ h₅ => ?_
  refine Accounts.bind answers_plain fun tryLeave s₆ _ h₆ => ?_
  refine Accounts.bind answers_logException fun catchFirst s₇ hcatch h₇ => ?_
  refine Accounts.bind answers_plain fun catchLeave s₈ _ h₈ => ?_
  refine Accounts.bind answers_plain fun endFinally s₉ _ h₉ => ?_
  refine Accounts.bind answers_setTarget fun _ s₁₀ _ h₁₀ => ?_
  refine Accounts.bind (answers_loadReturnValue fun h => ?_) fun _ s₁₁ _ h₁₁ => ?_
  · exact hlocals₄ (h₅ (h₆ (h₇ (h₈ (h₉ (h₁₀ h))))))
  · exact Accounts.pure fun h => ⟨rfl, hcatch (h₈ (h₉ (h₁₀ (h₁₁ h))))⟩

/-! ### The returns and the clauses -/

theorem answers_nextOf {instr : InstrRef} : Answers m refused (nextOf instr) s fun _ _ => True :=
  answers_modifyGet (fun _ => rfl) fun _ => rfl

theorem answers_setILPosition {instr : InstrRef} :
    Answers m refused (SetILPosition instr) s fun _ _ => True :=
  answers_operands rfl (List.append_nil _).symm fun _ => List.forall_mem_nil _

theorem answers_changeReturn {endFinally instr : InstrRef} (hlocals : s.Sound → locals.Assigned m) :
    Answers m refused (changeReturn m locals endFinally instr) s fun _ _ => True := by
  have hleave : ∀ s : Session, Answers m refused (do
      modify fun s =>
        { s with
          rewriter :=
            { s.rewriter with
              il := s.rewriter.il.map fun i =>
                if i.ref = instr then { i with opcode := Cee.leaveS } else i } }
      let target ← nextOf endFinally
      setTarget [instr] target) s fun _ _ => True := by
    intro s
    refine Accounts.bind (answers_operands rfl (List.append_nil _).symm fun _ => List.forall_mem_nil _)
      fun _ s₁ _ _ => ?_
    exact Accounts.bind answers_nextOf fun _ _ _ _ => answers_setTarget
  rw [changeReturn]
  split
  case isTrue => exact hleave s
  case isFalse hvoid =>
    have hvalue := eq_false_of_ne_true hvoid
    refine Accounts.bind answers_setILPosition fun _ s₁ _ h₁ => ?_
    refine Accounts.bind (answers_stLocal fun h => (hlocals (h₁ h)).returnValueIndex hvalue) ?_
    exact fun _ s₂ _ _ => hleave s₂

theorem answers_changeReturns {endFinally : InstrRef} (instrs : List InstrRef)
    (hlocals : s.Sound → locals.Assigned m) :
    Answers m refused (changeReturns m locals endFinally instrs) s fun _ _ => True := by
  induction instrs generalizing s with
  | nil => exact Accounts.pure trivial
  | cons instr instrs ih =>
      refine Accounts.bind (answers_changeReturn hlocals) fun _ s₁ _ h₁ => ?_
      exact ih fun h => hlocals (h₁ h)

theorem answers_addClause {flags : Nat} {tryBegin tryEnd handlerBegin handlerEnd : Out InstrRef}
    {classToken : mdToken} (h : s.Sound → tryBegin.assigned = true ∧ tryEnd.assigned = true ∧
      handlerBegin.assigned = true ∧ handlerEnd.assigned = true) :
    Answers m refused (addClause flags tryBegin tryEnd handlerBegin handlerEnd classToken) s
      fun _ _ => True := by
  refine answers_operands rfl rfl fun hs => ?_
  obtain ⟨hbegin, hend, hhandler, hhandlerEnd⟩ := h hs
  exact List.forall_mem_cons.mpr ⟨hbegin, List.forall_mem_cons.mpr ⟨hend,
    List.forall_mem_cons.mpr ⟨hhandler, List.forall_mem_singleton.mpr hhandlerEnd⟩⟩⟩

theorem answers_addClauses {begun ended : Pointers} {startExceptionCatch rethrow endFinally : InstrRef}
    (hbegun : s.Sound → begun.Assigned) (hended : s.Sound → ended.Assigned) :
    Answers m refused (addClauses begun ended startExceptionCatch rethrow endFinally) s
      fun _ _ => True := by
  refine Accounts.bind answers_nextOf fun afterRethrow s₁ _ h₁ => ?_
  refine Accounts.bind (P := fun _ s' => s' = s₁) (Accounts.of_done rfl Iff.rfl rfl) ?_
  rintro s₂ s₃ rfl -
  refine Accounts.bind (answers_addClause fun h => ?_) fun _ s₄ _ h₄ => ?_
  · obtain ⟨hfirst, hcatch⟩ := hbegun (h₁ h)
    exact ⟨hfirst, hcatch, hcatch, rfl⟩
  refine Accounts.bind (answers_addClause fun h => ?_) fun _ s₅ _ h₅ => ?_
  · obtain ⟨hfirst, hcatch⟩ := hended (h₁ (h₄ h))
    exact ⟨hfirst, hcatch, hcatch, rfl⟩
  refine Accounts.bind (answers_addClause fun h => ?_) fun _ s₆ _ h₆ => ?_
  · exact ⟨(hbegun (h₁ (h₄ (h₅ h)))).first, rfl, rfl, rfl⟩
  · exact answers_addClause fun h => ⟨(hbegun (h₁ (h₄ (h₅ (h₆ h))))).first, rfl, rfl, rfl⟩

theorem answers_rewrite (hrefused : ¬m.Rewritten → refused) :
    Answers m refused (rewrite m) s fun _ _ => m.Rewritten := by
  refine Accounts.bind answers_modifyLocalSigAndInitialize fun locals s₁ hlocals _ => ?_
  refine Accounts.bind (answers_beginPart hlocals hrefused) fun begun s₂ ⟨hbegun, hrewritten⟩ _ => ?_
  have hlocals₂ : s₂.Sound → locals.Assigned m := fun h => (hbegun h).2
  refine Accounts.bind answers_setILPosition fun _ s₃ _ h₃ => ?_
  refine Accounts.bind answers_plain fun methodReturn s₄ _ h₄ => ?_
  refine Accounts.bind answers_setILPosition fun _ s₅ _ h₅ => ?_
  have hlocals₅ : s₅.Sound → locals.Assigned m := fun h => hlocals₂ (h₃ (h₄ (h₅ h)))
  refine Accounts.bind (answers_stLocal fun h => (hlocals₅ h).exceptionIndex) fun catch_ s₆ _ h₆ => ?_
  refine Accounts.bind answers_plain fun rethrow s₇ _ h₇ => ?_
  have hlocals₇ : s₇.Sound → locals.Assigned m := fun h => hlocals₅ (h₆ (h₇ h))
  refine Accounts.bind (answers_endPart hlocals₇ hrewritten) fun ended s₈ hended h₈ => ?_
  refine Accounts.bind (answers_modifyGet (fun _ => rfl) fun _ => rfl) fun instrs s₉ _ h₉ => ?_
  have hlocals₉ : s₉.Sound → locals.Assigned m := fun h => hlocals₇ (h₈ (h₉ h))
  refine Accounts.bind (answers_changeReturns instrs hlocals₉) fun _ s₁₀ _ h₁₀ => ?_
  have hback : s₁₀.Sound → s₂.Sound := fun h => h₃ (h₄ (h₅ (h₆ (h₇ (h₈ (h₉ (h₁₀ h)))))))
  refine (answers_addClauses (fun h => (hbegun (hback h)).1) fun h => hended (h₉ (h₁₀ h))).mono ?_
  exact fun _ _ _ => hrewritten

/-! ## The callback as a whole -/

/-- The methods that are not rewritten, whatever the calls answer. -/
def CallTargetMethod.Refused (m : CallTargetMethod) : Prop :=
  m.profilerLoaded = false ∨ (∀ imported, importMethod m.body ≠ .ok imported) ∨ ¬m.Rewritten

theorem answers_callback (m : CallTargetMethod) (s : Session) :
    Answers m m.Refused (CallTarget_RewriterCallback m) s fun _ _ => ¬m.Refused := by
  rw [CallTarget_RewriterCallback]
  split
  case isTrue hnot =>
    rw [Bool.not_eq_true'] at hnot
    exact Accounts.stop (Or.inl hnot)
  case isFalse hloaded =>
    rw [Bool.not_eq_true'] at hloaded
    cases himport : importMethod m.body with
    | error e => exact Accounts.stop (Or.inr (Or.inl fun imported h => by rw [himport] at h; cases h))
    | ok imported =>
        refine Accounts.bind (answers_operands rfl (List.append_nil _).symm
          fun _ => List.forall_mem_nil _) fun _ s₁ _ _ => ?_
        refine Accounts.bind (answers_rewrite fun h => Or.inr (Or.inr h)) fun _ s₂ hrewritten _ => ?_
        refine Accounts.bind (P := fun _ _ => True) (Accounts.of_done rfl Iff.rfl trivial) ?_
        refine fun s₃ s₄ _ _ => Accounts.pure ?_
        rintro (h | h | h)
        · exact hloaded h
        · exact h imported himport
        · exact h hrewritten

/-- The rewrite of a method whose module has some tokens already. -/
def run (m : CallTargetMethod) (tokens : Slot → Option Token)
    (answer : List Answer → (c : Call) → Except HRESULT c.request.Reply) :
    List Answer × Option (Result (List UInt8)) × Session :=
  (CallTarget_RewriterCallback m { tokens }).exec answer []

/-- **When nothing that has failed is exported**: exactly if the method is refused, or a call was not
fine whose function is looked at, or all calls were fine. -/
theorem exported_sound_iff (m : CallTargetMethod) (tokens : Slot → Option Token)
    (answer : List Answer → (c : Call) → Except HRESULT c.request.Reply) :
    ((run m tokens answer).2.1.isSome = true → (run m tokens answer).2.2.Sound) ↔
      m.Refused ∨ (∃ e ∈ (run m tokens answer).1, e.1.Checked ∧ ¬Fine m.outside e) ∨
        ∀ e ∈ (run m tokens answer).1, Fine m.outside e := by
  have hstart : Session.Sound { tokens } := ⟨List.forall_mem_nil _, List.forall_mem_nil _⟩
  rcases Script.Ensures.exec (answers_callback m { tokens }) answer [] with
    ⟨hnone, hexcuse⟩ | ⟨a, hsome, hsound, hchecked, hnot⟩
  · refine iff_of_true (fun h => ?_) (hexcuse.imp_right Or.inl)
    rw [show (run m tokens answer).2.1 = none from hnone] at h
    cases h
  · have hexported : (run m tokens answer).2.1.isSome = true :=
      (congrArg Option.isSome hsome).trans rfl
    constructor
    · exact fun h => Or.inr (Or.inr (hsound.mp (h hexported)).2)
    · rintro (h | ⟨e, he, hcheck, hbad⟩ | hfine) -
      · exact absurd h hnot
      · exact absurd (hchecked e he hcheck) hbad
      · exact hsound.mpr ⟨hstart, hfine⟩

end Parts

end DdTrace.Profiler.Rewriting
