import DdTrace.Lib.FiniteChecks
import DdTrace.Lib.LittleEndian
import DdTrace.Profiler.Opcodes

/-!
# The emit helpers

`WriteLoadArgument`, `WriteLoadLocal`, `WriteStoreLocal` and `WriteInt` choose the shortest opcode
for an index or a number, and hand it to a `LazyILGenerator`.

* `Emission`: what is handed on, and its bytes; an operand of type `int` has four.
* `decodeOne`, `meaning`: an instruction, and what it does.
* `Encodes`: bytes that are one instruction and no-ops.
* `helpers_encode_iff`: for which indices and numbers the helpers write such bytes.

Sources: `ILHelpersExtensions.cs`; `LazyILGenerator.cs`; for the sizes of operands, `opcode.def`.
-/

namespace DdTrace.DuckTyping

open DdTrace.Lib DdTrace.Profiler

/-! ## Instructions -/

/-- What the instructions do that the helpers are for. -/
inductive Meaning
  /-- An argument is loaded. -/
  | loadArgument (index : Nat)
  /-- A local is loaded. -/
  | loadLocal (index : Nat)
  /-- A local is stored. -/
  | storeLocal (index : Nat)
  /-- A number is loaded. -/
  | loadInt (value : BitVec 32)
  deriving DecidableEq, Repr

/-- What an opcode does with its operand, if it is one of these. -/
def meaning (opcode operand : Nat) : Option Meaning :=
  if 0x02 ≤ opcode ∧ opcode ≤ 0x05 then some (.loadArgument (opcode - 0x02))
  else if 0x06 ≤ opcode ∧ opcode ≤ 0x09 then some (.loadLocal (opcode - 0x06))
  else if 0x0A ≤ opcode ∧ opcode ≤ 0x0D then some (.storeLocal (opcode - 0x0A))
  else if opcode = 0x0E ∨ opcode = 0x109 then some (.loadArgument operand)
  else if opcode = 0x11 ∨ opcode = 0x10C then some (.loadLocal operand)
  else if opcode = 0x13 ∨ opcode = 0x10E then some (.storeLocal operand)
  else if 0x15 ≤ opcode ∧ opcode ≤ 0x1E then some (.loadInt (BitVec.ofInt 32 (opcode - 0x16)))
  else if opcode = 0x1F then some (.loadInt ((BitVec.ofNat 8 operand).signExtend 32))
  else if opcode = 0x20 then some (.loadInt (BitVec.ofNat 32 operand))
  else none

/-- The operand behind an opcode, and what is behind it. A switch has no operand of a fixed size. -/
def decodeOperand (opcode : Nat) (bytes : List UInt8) : Option (Nat × Nat × List UInt8) :=
  let flags := s_OpCodeFlags opcode
  if flags = .switch ∨ bytes.length < flags.size then none
  else some (opcode, LittleEndian.decode (bytes.take flags.size), bytes.drop flags.size)

/-- The first instruction: its opcode, its operand, and the bytes behind it. -/
def decodeOne : List UInt8 → Option (Nat × Nat × List UInt8)
  | [] => none
  | b :: bytes =>
      if b.toNat = Cee.prefix1 then
        match bytes with
        | [] => none
        | c :: bytes => decodeOperand (0x100 + c.toNat) bytes
      else decodeOperand b.toNat bytes

/-- The bytes are an instruction that does this, and no-ops. -/
def Encodes (bytes : List UInt8) (m : Meaning) : Prop :=
  ∃ opcode operand rest, decodeOne bytes = some (opcode, operand, rest) ∧
    meaning opcode operand = some m ∧ ∀ b ∈ rest, b = 0x00

/-! ## The generator -/

/-- A call of the generator. -/
inductive Emission
  /-- `Emit(opcode)`. -/
  | op (opcode : UInt8)
  /-- `Emit(opcode, arg)` with an `int`. -/
  | opInt (opcode : UInt8) (arg : BitVec 32)
  deriving DecidableEq, Repr

/-- The bytes of a call: an `int` has four. -/
def Emission.bytes : Emission → List UInt8
  | op opcode => [opcode]
  | opInt opcode arg => opcode :: LittleEndian.encode 4 arg.toNat

/-- Source: `LazyILGenerator.cs`, `LazyILGenerator` -/
structure LazyILGenerator where
  /-- `_instructions`. -/
  instructions : List Emission
  /-- `_offset`. -/
  offset : Nat
  offset_le : offset ≤ instructions.length

namespace LazyILGenerator

/-- Source: `LazyILGenerator.cs`, `SetOffset` -/
def setOffset (il : LazyILGenerator) (value : Nat) : LazyILGenerator where
  instructions := il.instructions
  offset := if il.instructions.length < value then il.instructions.length else value
  offset_le := by
    split
    · exact Nat.le_refl _
    · omega

/-- Source: `LazyILGenerator.cs`, `Emit` -/
def emit (il : LazyILGenerator) (instruction : Emission) : LazyILGenerator where
  instructions :=
    if il.offset = il.instructions.length then il.instructions ++ [instruction]
    else il.instructions.insertIdx il.offset instruction
  offset := il.offset + 1
  offset_le := by
    have hle := il.offset_le
    split
    · simp [hle]
    · rw [List.length_insertIdx_of_le_length hle]
      omega

/-- The bytes that the generator is given, and what is left.
Source: `LazyILGenerator.cs`, `Flush` -/
def flush (il : LazyILGenerator) : List UInt8 × LazyILGenerator :=
  (il.instructions.flatMap Emission.bytes, ⟨[], 0, Nat.le_refl 0⟩)

end LazyILGenerator

/-- One more element stands between those before it and those behind it. -/
theorem insertIdx_eq_append {α : Type} {l : List α} {n : Nat} (a : α) (h : n ≤ l.length) :
    l.insertIdx n a = l.take n ++ a :: l.drop n := by
  induction l generalizing n with
  | nil =>
      obtain rfl : n = 0 := Nat.le_zero.mp h
      rfl
  | cons b l ih =>
      cases n with
      | zero => rfl
      | succ n =>
          rw [List.insertIdx_succ_cons, ih (Nat.le_of_succ_le_succ h)]
          rfl

/-- What is emitted is put behind the instructions before the offset. -/
theorem LazyILGenerator.instructions_emit (il : LazyILGenerator) (instruction : Emission) :
    (il.emit instruction).instructions =
      il.instructions.take il.offset ++ instruction :: il.instructions.drop il.offset := by
  rw [emit]
  split
  case isTrue heq => simp [heq]
  case isFalse => exact insertIdx_eq_append instruction il.offset_le

/-! ## The helpers -/

/-- A `switch` over an index: four opcodes without an operand, and one with. -/
def writeIndexed (op₀ op₁ op₂ op₃ opS : UInt8) (il : LazyILGenerator) (index : BitVec 32) :
    LazyILGenerator :=
  match index.toNat with
  | 0 => il.emit (.op op₀)
  | 1 => il.emit (.op op₁)
  | 2 => il.emit (.op op₂)
  | 3 => il.emit (.op op₃)
  | _ => il.emit (.opInt opS index)

/-- Source: `ILHelpersExtensions.cs`, `WriteLoadArgument` -/
def LazyILGenerator.writeLoadArgument (il : LazyILGenerator) (index : BitVec 32)
    (isStatic : Bool) : LazyILGenerator :=
  let index := if !isStatic then index + 1 else index
  writeIndexed 0x02 0x03 0x04 0x05 0x0E il index

/-- Source: `ILHelpersExtensions.cs`, `WriteLoadLocal` -/
def LazyILGenerator.writeLoadLocal (il : LazyILGenerator) (index : BitVec 32) : LazyILGenerator :=
  writeIndexed 0x06 0x07 0x08 0x09 0x11 il index

/-- Source: `ILHelpersExtensions.cs`, `WriteStoreLocal` -/
def LazyILGenerator.writeStoreLocal (il : LazyILGenerator) (index : BitVec 32) : LazyILGenerator :=
  writeIndexed 0x0A 0x0B 0x0C 0x0D 0x13 il index

/-- Source: `ILHelpersExtensions.cs`, `WriteInt` -/
def LazyILGenerator.writeInt (il : LazyILGenerator) (value : BitVec 32) : LazyILGenerator :=
  if -1 ≤ value.toInt ∧ value.toInt ≤ 8 then
    match value.toInt with
    | -1 => il.emit (.op 0x15)
    | 0 => il.emit (.op 0x16)
    | 1 => il.emit (.op 0x17)
    | 2 => il.emit (.op 0x18)
    | 3 => il.emit (.op 0x19)
    | 4 => il.emit (.op 0x1A)
    | 5 => il.emit (.op 0x1B)
    | 6 => il.emit (.op 0x1C)
    | 7 => il.emit (.op 0x1D)
    | _ => il.emit (.op 0x1E)
  else if -128 ≤ value.toInt ∧ value.toInt ≤ 127 then il.emit (.opInt 0x1F value)
  else il.emit (.opInt 0x20 value)

/-- A helper writes one instruction at the offset, whose bytes do this. -/
def Writes (il il' : LazyILGenerator) (m : Meaning) : Prop :=
  ∃ e : Emission, il'.instructions =
    il.instructions.take il.offset ++ e :: il.instructions.drop il.offset ∧ Encodes e.bytes m

theorem writes_emit_iff (il : LazyILGenerator) (e : Emission) (m : Meaning) :
    Writes il (il.emit e) m ↔ Encodes e.bytes m := by
  rw [Writes, il.instructions_emit]
  constructor
  · rintro ⟨e', heq, hencodes⟩
    obtain ⟨rfl, -⟩ := List.cons.inj (List.append_cancel_left heq)
    exact hencodes
  · intro hencodes
    exact ⟨e, rfl, hencodes⟩

/-! ## Bytes -/

/-- An opcode without an operand. -/
theorem encodes_op_iff {op : UInt8} (hflags : s_OpCodeFlags op.toNat = .none)
    (hop : op.toNat ≠ 0xFE) (m : Meaning) :
    Encodes (Emission.op op).bytes m ↔ meaning op.toNat 0 = some m := by
  have hdecode : decodeOne (Emission.op op).bytes = some (op.toNat, 0, []) := by
    simp [Emission.bytes, decodeOne, hop, decodeOperand, hflags, LittleEndian.decode]
  rw [Encodes, hdecode]
  constructor
  · rintro ⟨opcode, operand, rest, heq, hmeaning, -⟩
    obtain ⟨rfl, hrest⟩ := Prod.mk.inj (Option.some.inj heq)
    obtain ⟨rfl, -⟩ := Prod.mk.inj hrest
    exact hmeaning
  · intro hmeaning
    exact ⟨_, _, _, rfl, hmeaning, fun b hb => absurd hb List.not_mem_nil⟩

/-- An opcode with an operand of one byte, of which four are written. -/
theorem encodes_short_iff {op : UInt8} (hflags : s_OpCodeFlags op.toNat = .arg8)
    (hop : op.toNat ≠ 0xFE) (arg : BitVec 32) (m : Meaning) :
    Encodes (Emission.opInt op arg).bytes m ↔
      meaning op.toNat (arg.toNat % 256) = some m ∧ arg.toNat < 256 := by
  have hdecode : decodeOne (Emission.opInt op arg).bytes =
      some (op.toNat, arg.toNat % 256, LittleEndian.encode 3 (arg.toNat / 256)) := by
    simp [Emission.bytes, decodeOne, hop, decodeOperand, hflags, LittleEndian.encode,
      LittleEndian.decode]
  have hzero : (∀ b ∈ LittleEndian.encode 3 (arg.toNat / 256), b = 0x00) ↔ arg.toNat < 256 := by
    have hbyte (n : Nat) : UInt8.ofNat n = 0x00 ↔ n % 256 = 0 := by
      rw [← UInt8.toNat_inj]
      simp
    have hlt := arg.isLt
    simp only [LittleEndian.encode, List.forall_mem_cons, hbyte]
    simp only [List.not_mem_nil, false_implies, implies_true, and_true]
    omega
  rw [Encodes, hdecode]
  constructor
  · rintro ⟨opcode, operand, rest, heq, hmeaning, hrest⟩
    obtain ⟨rfl, hpair⟩ := Prod.mk.inj (Option.some.inj heq)
    obtain ⟨rfl, rfl⟩ := Prod.mk.inj hpair
    exact ⟨hmeaning, hzero.mp hrest⟩
  · rintro ⟨hmeaning, hlt⟩
    exact ⟨_, _, _, rfl, hmeaning, hzero.mpr hlt⟩

/-- An opcode with an operand of four bytes. -/
theorem encodes_long_iff {op : UInt8} (hflags : s_OpCodeFlags op.toNat = .arg32)
    (hop : op.toNat ≠ 0xFE) (arg : BitVec 32) (m : Meaning) :
    Encodes (Emission.opInt op arg).bytes m ↔ meaning op.toNat arg.toNat = some m := by
  have hlength : (LittleEndian.encode 4 arg.toNat).length = 4 := LittleEndian.length_encode 4 _
  have htake : (LittleEndian.encode 4 arg.toNat).take 4 = LittleEndian.encode 4 arg.toNat :=
    List.take_of_length_le (Nat.le_of_eq hlength)
  have hdrop : (LittleEndian.encode 4 arg.toNat).drop 4 = [] :=
    List.drop_eq_nil_of_le (Nat.le_of_eq hlength)
  have hdecoded : LittleEndian.decode (LittleEndian.encode 4 arg.toNat) = arg.toNat :=
    LittleEndian.decode_encode_of_lt (Nat.lt_of_lt_of_eq arg.isLt (by decide))
  have hdecode : decodeOne (Emission.opInt op arg).bytes = some (op.toNat, arg.toNat, []) := by
    simp [Emission.bytes, decodeOne, hop, decodeOperand, hflags, htake, hdrop, hdecoded]
  rw [Encodes, hdecode]
  constructor
  · rintro ⟨opcode, operand, rest, heq, hmeaning, -⟩
    obtain ⟨rfl, hpair⟩ := Prod.mk.inj (Option.some.inj heq)
    obtain ⟨rfl, -⟩ := Prod.mk.inj hpair
    exact hmeaning
  · intro hmeaning
    exact ⟨_, _, _, rfl, hmeaning, fun b hb => absurd hb List.not_mem_nil⟩

/-! ## What the helpers write -/

/-- Four opcodes without an operand and a short one, which do the same with an index. -/
structure Indexed (op₀ op₁ op₂ op₃ opS : UInt8) (m : Nat → Meaning) : Prop where
  injective : ∀ i j, m i = m j → i = j
  plain : ∀ op ∈ [op₀, op₁, op₂, op₃], s_OpCodeFlags op.toNat = .none ∧ op.toNat ≠ 0xFE
  short : s_OpCodeFlags opS.toNat = .arg8 ∧ opS.toNat ≠ 0xFE
  zero : meaning op₀.toNat 0 = some (m 0)
  one : meaning op₁.toNat 0 = some (m 1)
  two : meaning op₂.toNat 0 = some (m 2)
  three : meaning op₃.toNat 0 = some (m 3)
  operand : ∀ n, meaning opS.toNat n = some (m n)

namespace Indexed

variable {op₀ op₁ op₂ op₃ opS : UInt8} {m : Nat → Meaning}

theorem some_iff (h : Indexed op₀ op₁ op₂ op₃ opS m) {i j : Nat} :
    some (m i) = some (m j) ↔ j = i :=
  ⟨fun heq => (h.injective i j (Option.some.inj heq)).symm, fun heq => by rw [heq]⟩

/-- **The short form is right below 256.** -/
theorem writes_iff (h : Indexed op₀ op₁ op₂ op₃ opS m) (il : LazyILGenerator) (index : BitVec 32)
    (i : Nat) : Writes il (writeIndexed op₀ op₁ op₂ op₃ opS il index) (m i) ↔
      i = index.toNat ∧ index.toNat < 256 := by
  have hplain (op : UInt8) (hop : op ∈ [op₀, op₁, op₂, op₃]) :
      Writes il (il.emit (.op op)) (m i) ↔ meaning op.toNat 0 = some (m i) := by
    obtain ⟨hflags, hne⟩ := h.plain op hop
    rw [writes_emit_iff, encodes_op_iff hflags hne]
  rw [writeIndexed]
  split
  case h_1 =>
    rw [hplain op₀ (by simp), h.zero, h.some_iff]
    omega
  case h_2 =>
    rw [hplain op₁ (by simp), h.one, h.some_iff]
    omega
  case h_3 =>
    rw [hplain op₂ (by simp), h.two, h.some_iff]
    omega
  case h_4 =>
    rw [hplain op₃ (by simp), h.three, h.some_iff]
    omega
  case h_5 =>
    rw [writes_emit_iff, encodes_short_iff h.short.1 h.short.2, h.operand, h.some_iff]
    omega

end Indexed

theorem indexed_loadArgument : Indexed 0x02 0x03 0x04 0x05 0x0E .loadArgument :=
  ⟨fun _ _ h => Meaning.loadArgument.inj h, forall_mem_of_all (by decide), by decide, rfl, rfl,
    rfl, rfl, fun _ => rfl⟩

theorem indexed_loadLocal : Indexed 0x06 0x07 0x08 0x09 0x11 .loadLocal :=
  ⟨fun _ _ h => Meaning.loadLocal.inj h, forall_mem_of_all (by decide), by decide, rfl, rfl,
    rfl, rfl, fun _ => rfl⟩

theorem indexed_storeLocal : Indexed 0x0A 0x0B 0x0C 0x0D 0x13 .storeLocal :=
  ⟨fun _ _ h => Meaning.storeLocal.inj h, forall_mem_of_all (by decide), by decide, rfl, rfl,
    rfl, rfl, fun _ => rfl⟩

/-- The index of an argument is one more where there is an instance. -/
theorem writeLoadArgument_iff (il : LazyILGenerator) (index : BitVec 32) (isStatic : Bool) :
    Writes il (il.writeLoadArgument index isStatic)
      (.loadArgument (index.toNat + if isStatic then 0 else 1)) ↔
      (index.toNat + if isStatic then 0 else 1) < 256 := by
  rw [LazyILGenerator.writeLoadArgument, indexed_loadArgument.writes_iff]
  have hlt := index.isLt
  cases isStatic with
  | true => simp
  | false =>
      simp only [Bool.not_false, if_true, Bool.false_eq_true, if_false, BitVec.toNat_add]
      have hone : (1 : BitVec 32).toNat = 1 := rfl
      rw [hone]
      omega

/-- An opcode for one number. -/
theorem writes_constant (il : LazyILGenerator) {op : UInt8} {k : Int} {value : BitVec 32}
    (hvalue : value.toInt = k) (hflags : s_OpCodeFlags op.toNat = .none) (hop : op.toNat ≠ 0xFE)
    (hmeaning : meaning op.toNat 0 = some (.loadInt (BitVec.ofInt 32 k))) :
    Writes il (il.emit (.op op)) (.loadInt value) := by
  rw [writes_emit_iff, encodes_op_iff hflags hop, hmeaning, ← hvalue, BitVec.ofInt_toInt]

/-- **A number is written right**, but for the negative ones of one byte. -/
theorem writeInt_iff (il : LazyILGenerator) (value : BitVec 32) :
    Writes il (il.writeInt value) (.loadInt value) ↔
      ¬(-128 ≤ value.toInt ∧ value.toInt < -1) := by
  have hsign := BitVec.toInt_eq_toNat_cond value
  have hlt := value.isLt
  rw [LazyILGenerator.writeInt]
  split
  case isTrue hsmall =>
    refine iff_of_true ?_ (by omega)
    split
    case h_1 hvalue => exact writes_constant il hvalue (by decide) (by decide) rfl
    case h_2 hvalue => exact writes_constant il hvalue (by decide) (by decide) rfl
    case h_3 hvalue => exact writes_constant il hvalue (by decide) (by decide) rfl
    case h_4 hvalue => exact writes_constant il hvalue (by decide) (by decide) rfl
    case h_5 hvalue => exact writes_constant il hvalue (by decide) (by decide) rfl
    case h_6 hvalue => exact writes_constant il hvalue (by decide) (by decide) rfl
    case h_7 hvalue => exact writes_constant il hvalue (by decide) (by decide) rfl
    case h_8 hvalue => exact writes_constant il hvalue (by decide) (by decide) rfl
    case h_9 hvalue => exact writes_constant il hvalue (by decide) (by decide) rfl
    case h_10 =>
      have hvalue : value.toInt = 8 := by
        simp only [imp_false] at *
        omega
      exact writes_constant il hvalue (by decide) (by decide) rfl
  case isFalse hlarge =>
    split
    case isTrue hbyte =>
      rw [writes_emit_iff, encodes_short_iff (by decide) (by decide)]
      have hmeaning (operand : Nat) : meaning (0x1F : UInt8).toNat operand =
          some (.loadInt ((BitVec.ofNat 8 operand).signExtend 32)) := rfl
      rw [hmeaning]
      constructor
      · rintro ⟨-, hpos⟩
        omega
      · intro hpos
        have hsmall : value.toNat < 128 := by omega
        refine ⟨congrArg (some ∘ Meaning.loadInt) (BitVec.eq_of_toInt_eq ?_), by omega⟩
        have hbits : (BitVec.ofNat 8 value.toNat).toNat = value.toNat :=
          Nat.mod_eq_of_lt (by omega)
        rw [BitVec.toInt_signExtend_of_le (by omega), Nat.mod_eq_of_lt (by omega),
          BitVec.toInt_eq_toNat_cond, hbits]
        omega
    case isFalse hword =>
      rw [writes_emit_iff, encodes_long_iff (by decide) (by decide)]
      have hmeaning : meaning (0x20 : UInt8).toNat value.toNat =
          some (.loadInt (BitVec.ofNat 32 value.toNat)) := rfl
      rw [hmeaning, BitVec.ofNat_toNat, BitVec.setWidth_eq]
      exact iff_of_true rfl (by omega)

/-- **What the helpers write is right** for the indices below 256, and for all numbers but the
negative ones of one byte, which are behind -1. -/
theorem helpers_encode_iff (il : LazyILGenerator) :
    (∀ (index : BitVec 32) (isStatic : Bool),
      Writes il (il.writeLoadArgument index isStatic)
        (.loadArgument (index.toNat + if isStatic then 0 else 1)) ↔
        (index.toNat + if isStatic then 0 else 1) < 256) ∧
    (∀ index : BitVec 32,
      Writes il (il.writeLoadLocal index) (.loadLocal index.toNat) ↔ index.toNat < 256) ∧
    (∀ index : BitVec 32,
      Writes il (il.writeStoreLocal index) (.storeLocal index.toNat) ↔ index.toNat < 256) ∧
    ∀ value : BitVec 32, Writes il (il.writeInt value) (.loadInt value) ↔
      ¬(-128 ≤ value.toInt ∧ value.toInt < -1) := by
  refine ⟨writeLoadArgument_iff il, fun index => ?_, fun index => ?_, writeInt_iff il⟩
  · rw [LazyILGenerator.writeLoadLocal, indexed_loadLocal.writes_iff]
    exact and_iff_right rfl
  · rw [LazyILGenerator.writeStoreLocal, indexed_storeLocal.writes_iff]
    exact and_iff_right rfl

/-- The number -2 is followed by bytes that are no no-ops, and the first parameter behind 255 of a
method with an instance is another one. -/
theorem helpers_not_encode :
    ¬Writes ⟨[], 0, Nat.le_refl 0⟩ (LazyILGenerator.writeInt ⟨[], 0, Nat.le_refl 0⟩ (-2))
      (.loadInt (-2)) ∧
    ¬Writes ⟨[], 0, Nat.le_refl 0⟩
        (LazyILGenerator.writeLoadArgument ⟨[], 0, Nat.le_refl 0⟩ 255 false)
      (.loadArgument 256) := by
  constructor
  · rw [writeInt_iff]
    decide
  · intro h
    have hlt := (writeLoadArgument_iff ⟨[], 0, Nat.le_refl 0⟩ 255 false).mp h
    exact absurd hlt (by decide)

end DdTrace.DuckTyping
