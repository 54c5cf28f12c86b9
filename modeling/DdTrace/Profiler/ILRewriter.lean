import DdTrace.Lib.ByteBuffer
import DdTrace.Lib.Retry
import DdTrace.Lib.Run
import DdTrace.Profiler.MethodBody
import DdTrace.Profiler.Opcodes

/-!
# The rewriter

`ILRewriter` reads a method body into a list of instructions, inserts instructions, and writes a
body from the list.

* `ILRewriter.importMethod`: the reader; `importIL` and `importEH` are its two parts.
* `ILRewriter.insertBefore`, `ILRewriter.insertAfter`, and `Edit`, what a program does with them.
* `ILRewriter.exportMethod`: the writer. `layOut` assigns offsets and writes all but the operands of
  branches, which `patch` writes; a short branch that does not reach its target is made long, and
  all is done again.

An instruction is an object and is handled by reference. The sentinel `m_IL` of the circular list
has the reference `sentinel`; the list here begins behind it and ends before it. An `unsigned` is a
number below `2 ^ 32`; sums and differences are taken modulo that. Memory is never short.

Sources: `il_rewriter.h`; `il_rewriter.cpp`.
-/

namespace DdTrace.Profiler

open DdTrace.Lib

/-! ## Data -/

/-- A pointer to an instruction. -/
abbrev InstrRef := Nat

/-- `&m_IL`. -/
def sentinel : InstrRef := 0

/-- An instruction.
Source: `il_rewriter.h`, `ILInstr` -/
structure ILInstr where
  /-- Its address. -/
  ref : InstrRef
  /-- `m_opcode`. -/
  opcode : Nat
  /-- `m_offset`. -/
  offset : Nat := 0
  /-- The union of operands, read as a number: `m_Arg8` to `m_Arg64`. -/
  arg : Nat := 0
  /-- The union of operands, read as a pointer: `m_pTarget`. -/
  target : InstrRef := sentinel
  deriving DecidableEq, Repr

/-- A protected region.
Source: `il_rewriter.h`, `EHClause` -/
structure EHClause where
  /-- `m_Flags`. -/
  flags : Nat
  /-- `m_pTryBegin`. -/
  tryBegin : InstrRef
  /-- `m_pTryEnd`. -/
  tryEnd : InstrRef
  /-- `m_pHandlerBegin`. -/
  handlerBegin : InstrRef
  /-- `m_pHandlerEnd`. -/
  handlerEnd : InstrRef
  /-- `m_ClassToken`, of a clause that is no filter. -/
  classToken : Nat := 0
  /-- `m_pFilter`, of a filter. -/
  filter : InstrRef := sentinel
  deriving DecidableEq, Repr

/-- A rewriter.
Source: `il_rewriter.h`, `ILRewriter` -/
structure ILRewriter where
  /-- `m_tkLocalVarSig`. -/
  tkLocalVarSig : Nat := 0
  /-- `m_maxStack`. -/
  maxStack : Nat := 0
  /-- `m_flags`. -/
  flags : Nat := 0
  /-- `m_fGenerateTinyHeader`. -/
  generateTinyHeader : Bool := false
  /-- The instructions between the sentinel and itself. -/
  il : List ILInstr := []
  /-- `m_pEH`. -/
  eh : List EHClause := []
  /-- `m_nInstrs`. -/
  nInstrs : Nat := 0
  deriving DecidableEq, Repr

/-- `COR_ILEXCEPTION_CLAUSE_FILTER`, tested. -/
def isFilter (flags : Nat) : Bool := flags &&& 0x01 ≠ 0

/-- The value of an expression of type `unsigned`. -/
def uint32 (n : Nat) : Nat := n % 2 ^ 32

/-- The difference of two numbers of type `unsigned`. -/
def sub32 (a b : Nat) : Nat := uint32 (a + (2 ^ 32 - b))

/-! ## Import -/

namespace ILRewriter

/-- Refuse the opcodes that are no instructions.
Source: `il_rewriter.cpp`, lines 240 to 249 -/
def checkOpcode (opcode offset : Nat) : Result (Nat × Nat) :=
  if Cee.prefix7 ≤ opcode ∧ opcode ≤ Cee.prefix2 then .error .invalidProgram
  else if Cee.count ≤ opcode then .error .invalidProgram
  else pure (opcode, offset)

/-- The opcode at an offset, and the offset behind it.
Source: `il_rewriter.cpp`, lines 229 to 249 -/
def importOpcode (code : List UInt8) (offset : Nat) : Result (Nat × Nat) := do
  let opcode ← readNat code offset 1
  let offset := offset + 1
  if opcode = Cee.prefix1 then
    if code.length ≤ offset then .error .invalidProgram
    else do
      let opcode ← readNat code offset 1
      checkOpcode (0x100 + opcode) (offset + 1)
  else checkOpcode opcode offset

/-- A byte of type `INT8` as an `unsigned`. -/
def signExtend (b : Nat) : Nat := if b < 128 then b else b + (2 ^ 32 - 256)

/-- The operand at an offset, for a branch the offset of its target.
Source: `il_rewriter.cpp`, lines 267 to 291 -/
def importArg (code : List UInt8) (offset : Nat) : OpCodeFlags → Result Nat
  | .none => pure 0
  | .arg8 => readNat code offset 1
  | .arg16 => readNat code offset 2
  | .arg32 => readNat code offset 4
  | .arg64 => readNat code offset 8
  | .shortBranch => do
      let delta ← readNat code offset 1
      pure (uint32 (offset + 1 + signExtend delta))
  | .branch => do
      let delta ← readNat code offset 4
      pure (uint32 (offset + 4 + delta))
  | .switch =>
      if code.length < offset + 4 then .error .invalidProgram else readNat code offset 4

/-- The arms of a switch from an offset on; `nInstrs` instructions were made before.
Source: `il_rewriter.cpp`, lines 304 to 320 -/
def importArms (code : List UInt8) (base : Nat) : Nat → Nat → Nat → Result (List ILInstr)
  | 0, _, _ => pure []
  | nTargets + 1, offset, nInstrs =>
      if code.length < offset + 4 then .error .invalidProgram
      else do
        let delta ← readNat code offset 4
        let arm : ILInstr :=
          { ref := nInstrs + 1, opcode := Cee.switchArg, arg := uint32 (base + delta) }
        let arms ← importArms code base nTargets (offset + 4) (nInstrs + 1)
        pure (arm :: arms)

/-- The end of the code.
Source: `il_rewriter.cpp`, lines 330 to 333 -/
def importEnd (code : List UInt8) (offset : Nat) : Result (List (Option Nat × ILInstr)) :=
  if offset ≠ code.length then .error .invalidProgram else pure []

/-- The instructions from an offset on; `nInstrs` were made before, and there are at most `fuel`
more that are no arms of switches. The offset of an instruction is its `startOffset`; an arm is at
no offset.
Source: `il_rewriter.cpp`, `ImportIL`, the loop over the code -/
def importLoop (code : List UInt8) : Nat → Nat → Nat → Result (List (Option Nat × ILInstr))
  | 0, offset, _ => if code.length ≤ offset then importEnd code offset else .error .undefined
  | fuel + 1, startOffset, nInstrs =>
      if code.length ≤ startOffset then importEnd code startOffset
      else do
        let (opcode, offset) ← importOpcode code startOffset
        let flags := s_OpCodeFlags opcode
        if code.length < uint32 (offset + flags.size) then .error .invalidProgram
        else do
          let arg ← importArg code offset flags
          let instr : ILInstr := { ref := nInstrs + 1, opcode := opcode, arg := arg }
          if flags = .switch then do
            let arms ← importArms code (uint32 (offset + 4 + arg * 4)) arg (offset + 4) (nInstrs + 1)
            let rest ← importLoop code fuel (offset + 4 + arg * 4) (nInstrs + 1 + arg)
            pure ((some startOffset, instr) :: arms.map (fun arm => (none, arm)) ++ rest)
          else do
            let rest ← importLoop code fuel (offset + flags.size) (nInstrs + 1)
            pure ((some startOffset, instr) :: rest)

/-- `m_pOffsetToInstr` and `m_CodeSize`: the instructions at their offsets, and the sentinel behind
the code. -/
structure OffsetToInstr where
  /-- The instructions that are at an offset. -/
  instrs : List (Option Nat × ILInstr)
  /-- `m_CodeSize`. -/
  codeSize : Nat

/-- Source: `il_rewriter.cpp`, `GetInstrFromOffset` -/
def OffsetToInstr.getInstrFromOffset (table : OffsetToInstr) (offset : Nat) : Result InstrRef :=
  if offset = table.codeSize then .ok sentinel
  else
    match table.instrs.find? fun entry => entry.1 = some offset with
    | some entry => .ok entry.2.ref
    | none => .error .invalidProgram

/-- Replace the offset of a target by the instruction there.
Source: `il_rewriter.cpp`, the last loop of `ImportIL` -/
def OffsetToInstr.resolve (table : OffsetToInstr) (instr : ILInstr) : Result ILInstr :=
  if (s_OpCodeFlags instr.opcode).isBranch then do
    let target ← table.getInstrFromOffset instr.arg
    pure { instr with target := target }
  else pure instr

/-- Source: `il_rewriter.cpp`, `ImportIL` -/
def importIL (code : List UInt8) : Result (OffsetToInstr × List ILInstr) :=
  -- the table has one entry more than the code has bytes
  if uint32 (code.length + 1) = 0 then .error .undefined
  else do
    let instrs ← importLoop code code.length 0 0
    let table : OffsetToInstr := ⟨instrs, code.length⟩
    let il ← instrs.mapM fun entry => table.resolve entry.2
    pure (table, il)

/-- `m_pPrev`. -/
def prev (il : List ILInstr) (ref : InstrRef) : Option InstrRef :=
  match il.reverse.dropWhile fun i => ref ≠ sentinel ∧ i.ref ≠ ref with
  | [] => if ref = sentinel then some sentinel else none
  | i :: rest =>
      if ref = sentinel then some i.ref else some ((rest.head?.map ILInstr.ref).getD sentinel)

/-- `m_pNext`. -/
def next (il : List ILInstr) (ref : InstrRef) : Option InstrRef :=
  match il.dropWhile fun i => ref ≠ sentinel ∧ i.ref ≠ ref with
  | [] => if ref = sentinel then some sentinel else none
  | i :: rest =>
      if ref = sentinel then some i.ref else some ((rest.head?.map ILInstr.ref).getD sentinel)

/-- Follow a pointer that may dangle. -/
def deref {α : Type} : Option α → Result α
  | some a => .ok a
  | none => .error .undefined

/-- Source: `il_rewriter.cpp`, `ImportEH`, the body of the loop -/
def importClause (table : OffsetToInstr) (il : List ILInstr) (ehInfo : EHClauseFat) :
    Result EHClause := do
  let tryBegin ← table.getInstrFromOffset ehInfo.tryOffset
  let tryEnd ← table.getInstrFromOffset (uint32 (ehInfo.tryOffset + ehInfo.tryLength))
  let handlerBegin ← table.getInstrFromOffset ehInfo.handlerOffset
  let handlerNext ← table.getInstrFromOffset (uint32 (ehInfo.handlerOffset + ehInfo.handlerLength))
  let handlerEnd ← deref (prev il handlerNext)
  if isFilter ehInfo.flags then do
    let filter ← table.getInstrFromOffset ehInfo.classToken
    pure { flags := ehInfo.flags, tryBegin, tryEnd, handlerBegin, handlerEnd, filter }
  else
    pure
      { flags := ehInfo.flags, tryBegin, tryEnd, handlerBegin, handlerEnd
        classToken := ehInfo.classToken }

/-- Source: `il_rewriter.cpp`, `AdjustState` -/
def adjustState (maxStack : Nat) (newInstr : ILInstr) : Nat :=
  uint32 (maxStack + k_rgnStackPushes newInstr.opcode)

/-- Read a method body.
Source: `il_rewriter.cpp`, `Import` -/
def importMethod (body : List UInt8) : Result ILRewriter := do
  let decoder ← decoderInit body
  let (table, il) ← importIL decoder.code
  let eh ← decoder.eh.mapM (importClause table il)
  pure
    { tkLocalVarSig := decoder.localVarSigTok
      maxStack := il.foldl adjustState decoder.maxStack
      flags := decoder.flags &&& 0x10
      il := il
      eh := eh
      nInstrs := il.length }

/-! ## Insertion -/

/-- The instructions with one more before `pWhere`; before the sentinel is at the end. -/
def insertRefBefore (pWhere : InstrRef) (pWhat : ILInstr) : List ILInstr → Option (List ILInstr)
  | [] => if pWhere = sentinel then some [pWhat] else none
  | i :: il =>
      if i.ref = pWhere then some (pWhat :: i :: il)
      else (insertRefBefore pWhere pWhat il).map (i :: ·)

/-- The instructions with one more behind `pWhere`. -/
def insertRefAfter (pWhere : InstrRef) (pWhat : ILInstr) : List ILInstr → Option (List ILInstr)
  | [] => none
  | i :: il =>
      if i.ref = pWhere then some (i :: pWhat :: il)
      else (insertRefAfter pWhere pWhat il).map (i :: ·)

/-- Source: `il_rewriter.cpp`, `InsertBefore` -/
def insertBefore (s : ILRewriter) (pWhere : InstrRef) (pWhat : ILInstr) : Option ILRewriter :=
  (insertRefBefore pWhere pWhat s.il).map fun il =>
    { s with il := il, maxStack := adjustState s.maxStack pWhat }

/-- Source: `il_rewriter.cpp`, `InsertAfter` -/
def insertAfter (s : ILRewriter) (pWhere : InstrRef) (pWhat : ILInstr) : Option ILRewriter :=
  (if pWhere = sentinel then some (pWhat :: s.il) else insertRefAfter pWhere pWhat s.il).map
    fun il => { s with il := il, maxStack := adjustState s.maxStack pWhat }

/-- Source: `il_rewriter.cpp`, `NewILInstr` -/
def newILInstr (s : ILRewriter) : ILRewriter × InstrRef :=
  ({ s with nInstrs := s.nInstrs + 1 }, s.nInstrs + 1)

end ILRewriter

/-- The insertion of a new instruction. -/
inductive Edit where
  /-- `InsertBefore`. -/
  | insertBefore (pWhere : InstrRef) (opcode arg : Nat) (target : InstrRef)
  /-- `InsertAfter`. -/
  | insertAfter (pWhere : InstrRef) (opcode arg : Nat) (target : InstrRef)
  deriving DecidableEq, Repr

/-- Execute an edit; there is no result if its place is no instruction of the list. -/
def Edit.exec (s : ILRewriter) : Edit → Option ILRewriter
  | insertBefore pWhere opcode arg target =>
      let (s, ref) := s.newILInstr
      s.insertBefore pWhere { ref := ref, opcode := opcode, arg := arg, target := target }
  | insertAfter pWhere opcode arg target =>
      let (s, ref) := s.newILInstr
      s.insertAfter pWhere { ref := ref, opcode := opcode, arg := arg, target := target }

/-! ## Export -/

namespace ILInstr

/-- The bytes of the opcode; the rewriter's own instructions have none. -/
def opcodeBytes (opcode : Nat) : List UInt8 :=
  if opcode < Cee.count then
    (if 0x100 ≤ opcode then [UInt8.ofNat Cee.prefix1] else []) ++ [UInt8.ofNat opcode]
  else []

/-- The bytes of the operand that are written with the opcode. -/
def argBytes (i : ILInstr) : List UInt8 :=
  match s_OpCodeFlags i.opcode with
  | .switch => LittleEndian.encode 4 i.arg
  | .shortBranch => []
  | .branch => []
  | flags => LittleEndian.encode flags.size i.arg

/-- The bytes that are written in one piece. -/
def head (i : ILInstr) : List UInt8 := opcodeBytes i.opcode ++ i.argBytes

/-- The number of bytes the instruction takes. -/
def size (i : ILInstr) : Nat :=
  (opcodeBytes i.opcode).length +
    match s_OpCodeFlags i.opcode with
    | .switch => 4
    | flags => flags.size

end ILInstr

namespace ILRewriter

/-- Store bytes in the output buffer. -/
def store (out : ByteBuffer) (offset : Nat) (bytes : List UInt8) : Result ByteBuffer :=
  deref (out.write offset bytes)

/-- Assign offsets and write all but the operands of branches. The second component is the offset of
the sentinel.
Source: `il_rewriter.cpp`, `Export`, lines 471 to 535 -/
def layOut (maxSize : Nat) : List ILInstr → Nat → ByteBuffer →
    Result (List ILInstr × Nat × ByteBuffer)
  | [], offset, out => pure ([], offset, out)
  | i :: il, offset, out =>
      if maxSize ≤ offset then .error .indexOutOfRange
      -- the tables end behind `CEE_SWITCH_ARG`
      else if Cee.switchArg < i.opcode then .error .invalidProgram
      else do
        let out ← store out offset i.head
        let (il, total, out) ← layOut maxSize il (uint32 (offset + i.size)) out
        pure ({ i with offset := offset } :: il, total, out)

/-- `m_offset` of the instruction a pointer points at. -/
def offsetOf (il : List ILInstr) (total : Nat) (ref : InstrRef) : Result Nat :=
  if ref = sentinel then .ok total
  else deref ((il.find? fun i => i.ref = ref).map ILInstr.offset)

/-- Store bytes that end at an offset. -/
def storeBefore (out : ByteBuffer) (offset : Nat) (bytes : List UInt8) : Result ByteBuffer :=
  if offset < bytes.length then .error .undefined else store out (offset - bytes.length) bytes

/-- The difference is that of a byte of type `INT8`. -/
def fitsInt8 (delta : Nat) : Bool := delta < 128 || 2 ^ 32 - 128 ≤ delta

/-- Write the operands of branches and of the arms of switches, and make the short branches long
that do not reach their targets; the last component says whether there was one. `offsetOf` are the
offsets of the instructions, and `total` that of the sentinel.
Source: `il_rewriter.cpp`, `Export`, lines 541 to 601 -/
def patch (offsetOf : InstrRef → Result Nat) (total : Nat) : List ILInstr → Nat → ByteBuffer →
    Result (List ILInstr × ByteBuffer × Bool)
  | [], _, out => pure ([], out, false)
  | i :: il, switchBase, out =>
      let nextOffset := (il.head?.map ILInstr.offset).getD total
      if i.opcode = Cee.switch then do
        let (il, out, tryAgain) ←
          patch offsetOf total il (uint32 (i.offset + 1 + 4 * (i.arg + 1))) out
        pure (i :: il, out, tryAgain)
      else if i.opcode = Cee.switchArg then do
        let target ← offsetOf i.target
        let out ← store out i.offset (LittleEndian.encode 4 (sub32 target switchBase))
        let (il, out, tryAgain) ← patch offsetOf total il switchBase out
        pure (i :: il, out, tryAgain)
      else
        match s_OpCodeFlags i.opcode with
        | .shortBranch => do
            let target ← offsetOf i.target
            let delta := sub32 target nextOffset
            if fitsInt8 delta then do
              let out ← storeBefore out nextOffset (LittleEndian.encode 1 delta)
              let (il, out, tryAgain) ← patch offsetOf total il switchBase out
              pure (i :: il, out, tryAgain)
            else
              match widen i.opcode with
              | none => .error .invalidProgram
              | some opcode => do
                  let (il, out, _) ← patch offsetOf total il switchBase out
                  pure ({ i with opcode := opcode } :: il, out, true)
        | .branch => do
            let target ← offsetOf i.target
            let out ← storeBefore out nextOffset
              (LittleEndian.encode 4 (sub32 target nextOffset))
            let (il, out, tryAgain) ← patch offsetOf total il switchBase out
            pure (i :: il, out, tryAgain)
        | _ => do
            let (il, out, tryAgain) ← patch offsetOf total il switchBase out
            pure (i :: il, out, tryAgain)

/-- One pass over the instructions: it writes their code, or asks for another pass over instructions
some of which were made longer.
Source: `il_rewriter.cpp`, `Export`, from the label `again` on -/
def exportPass (maxSize : Nat) (state : List ILInstr × ByteBuffer) :
    Result (Round (List ILInstr × ByteBuffer) (List ILInstr × Nat × List UInt8)) := do
  let (il, total, out) ← layOut maxSize state.1 0 state.2
  let (il, out, tryAgain) ← patch (offsetOf il total) total il 0 out
  if tryAgain then pure (.again (il, out)) else pure (.done (il, total, out.slice 0 total))

/-- Write a clause.
Source: `il_rewriter.cpp`, lines 667 to 683 -/
def exportClause (il : List ILInstr) (total : Nat) (clause : EHClause) : Result EHClauseFat := do
  let tryBegin ← offsetOf il total clause.tryBegin
  let tryEnd ← offsetOf il total clause.tryEnd
  let handlerBegin ← offsetOf il total clause.handlerBegin
  let handlerNext ← deref (next il clause.handlerEnd)
  let handlerEnd ← offsetOf il total handlerNext
  let classToken ←
    if isFilter clause.flags then offsetOf il total clause.filter else pure clause.classToken
  pure
    { flags := clause.flags
      tryOffset := tryBegin
      tryLength := sub32 tryEnd tryBegin
      handlerOffset := handlerBegin
      handlerLength := sub32 handlerEnd handlerBegin
      classToken := classToken }

/-- The body with a tiny header.
Source: `il_rewriter.cpp`, lines 615 to 626 -/
def tinyBody (code : List UInt8) : List UInt8 := UInt8.ofNat (0x02 ||| code.length <<< 2) :: code

/-- Write a method body. `fill` are the bytes that the output buffer and the body hold before they
are written to. The passes are never more than there are instructions, and one.
Source: `il_rewriter.cpp`, `Export` -/
def exportMethod (fill : Nat → UInt8) (s : ILRewriter) : Result (List UInt8) := do
  let maxSize := uint32 (s.nInstrs * 10)
  let (il, total, code) ←
    retry (exportPass maxSize) .undefined (s.il.length + 1) (s.il, ⟨maxSize, fill⟩)
  if s.generateTinyHeader then
    if 64 ≤ code.length then .error .fail else pure (tinyBody code)
  else do
    let eh ← s.eh.mapM (exportClause il total)
    -- the size of the body is an `unsigned`
    if 2 ^ 32 ≤ fatSize code.length eh.length then .error .undefined
    else
      pure (fatBody
        { flags := s.flags, maxStack := s.maxStack, localVarSigTok := s.tkLocalVarSig
          code := code, eh := eh } fill)

end ILRewriter

end DdTrace.Profiler
