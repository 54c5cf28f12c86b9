import Mathlib.Data.List.Basic
import Mathlib.Tactic.Common

/-!
# The opcodes of the rewriter

The enumeration `OPCODE` lists the instructions of `opcode.def` in order, so an opcode below 0x100
is its own encoding and the opcodes from 0x100 are those behind the lead byte `CEE_PREFIX1`. Two
more follow the table: `CEE_COUNT` and `CEE_SWITCH_ARG`, the rewriter's own instruction for one
arm of a switch. An opcode is a number here, as in the source, which computes with it.

* `operandFormat`: the operand format `opcode.def` gives an opcode, and `s_OpCodeFlags`, what the
  rewriter makes of it.
* `k_rgnStackPushes`: the number of values an opcode pushes.
* `widen`: the long form of a short branch, as `ILRewriter::Export` computes it.

Sources: `il_rewriter.cpp`, lines 28 to 118; `il_rewriter.h`, `OPCODE`;
`lib/coreclr/src/inc/opcode.def`.
-/

namespace DdTrace.Profiler

namespace Cee

/-! ## Opcodes the rewriter names -/

@[simp] def ret : Nat := 0x2A
@[simp] def brS : Nat := 0x2B
@[simp] def bltUnS : Nat := 0x37
@[simp] def br : Nat := 0x38
@[simp] def bltUn : Nat := 0x44
@[simp] def switch : Nat := 0x45
@[simp] def leave : Nat := 0xDD
@[simp] def leaveS : Nat := 0xDE
@[simp] def prefix7 : Nat := 0xF8
@[simp] def prefix2 : Nat := 0xFD
@[simp] def prefix1 : Nat := 0xFE

/-- `CEE_COUNT`, the number of opcodes in the table. -/
@[simp] def count : Nat := 0x126

/-- `CEE_SWITCH_ARG`. -/
@[simp] def switchArg : Nat := 0x127

end Cee

/-! ## The tables -/

/-- The operand formats of `opcode.def`. -/
inductive OperandFormat
  | inlineNone
  | shortInlineVar
  | inlineVar
  | shortInlineI
  | inlineI
  | inlineI8
  | shortInlineR
  | inlineR
  | shortInlineBrTarget
  | inlineBrTarget
  | inlineMethod
  | inlineField
  | inlineType
  | inlineString
  | inlineSig
  | inlineTok
  | inlineSwitch
  deriving DecidableEq, Repr

/-- What the rewriter reads from an operand format: the size of the operand and whether it is a
branch target or a switch.
Source: `il_rewriter.cpp`, the values of `s_OpCodeFlags` -/
inductive OpCodeFlags
  /-- `0`. -/
  | none
  /-- `1`. -/
  | arg8
  /-- `2`. -/
  | arg16
  /-- `4`. -/
  | arg32
  /-- `8`. -/
  | arg64
  /-- `1 | OPCODEFLAGS_BranchTarget`. -/
  | shortBranch
  /-- `4 | OPCODEFLAGS_BranchTarget`. -/
  | branch
  /-- `0 | OPCODEFLAGS_Switch`. -/
  | switch
  deriving DecidableEq, Repr

/-- `flags & OPCODEFLAGS_SizeMask`. -/
@[simp] def OpCodeFlags.size : OpCodeFlags → Nat
  | .none => 0
  | .arg8 => 1
  | .arg16 => 2
  | .arg32 => 4
  | .arg64 => 8
  | .shortBranch => 1
  | .branch => 4
  | .switch => 0

/-- `flags & OPCODEFLAGS_BranchTarget`. -/
@[simp] def OpCodeFlags.isBranch : OpCodeFlags → Bool
  | .shortBranch => true
  | .branch => true
  | _ => false

/-- The flags of an operand format.
Source: `il_rewriter.cpp`, lines 33 to 50 -/
def OperandFormat.flags : OperandFormat → OpCodeFlags
  | .inlineNone => .none
  | .shortInlineVar => .arg8
  | .inlineVar => .arg16
  | .shortInlineI => .arg8
  | .inlineI => .arg32
  | .inlineI8 => .arg64
  | .shortInlineR => .arg32
  | .inlineR => .arg64
  | .shortInlineBrTarget => .shortBranch
  | .inlineBrTarget => .branch
  | .inlineMethod => .arg32
  | .inlineField => .arg32
  | .inlineType => .arg32
  | .inlineString => .arg32
  | .inlineSig => .arg32
  | .inlineTok => .arg32
  | .inlineSwitch => .switch

/-- The opcodes that have an operand, as ranges with the operand format of their members. The last
row is the entry of the rewriter's own `CEE_SWITCH_ARG`.
Source: `opcode.def`, the column of operand formats -/
def operandRows : List (Nat × Nat × OperandFormat) :=
  [(0x0E, 0x13, .shortInlineVar), -- ldarg.s to stloc.s
   (0x1F, 0x1F, .shortInlineI), -- ldc.i4.s
   (0x20, 0x20, .inlineI), -- ldc.i4
   (0x21, 0x21, .inlineI8), -- ldc.i8
   (0x22, 0x22, .shortInlineR), -- ldc.r4
   (0x23, 0x23, .inlineR), -- ldc.r8
   (0x27, 0x28, .inlineMethod), -- jmp, call
   (0x29, 0x29, .inlineSig), -- calli
   (0x2B, 0x37, .shortInlineBrTarget), -- br.s to blt.un.s
   (0x38, 0x44, .inlineBrTarget), -- br to blt.un
   (0x45, 0x45, .inlineSwitch), -- switch
   (0x6F, 0x6F, .inlineMethod), -- callvirt
   (0x70, 0x71, .inlineType), -- cpobj, ldobj
   (0x72, 0x72, .inlineString), -- ldstr
   (0x73, 0x73, .inlineMethod), -- newobj
   (0x74, 0x75, .inlineType), -- castclass, isinst
   (0x79, 0x79, .inlineType), -- unbox
   (0x7B, 0x80, .inlineField), -- ldfld to stsfld
   (0x81, 0x81, .inlineType), -- stobj
   (0x8C, 0x8D, .inlineType), -- box, newarr
   (0x8F, 0x8F, .inlineType), -- ldelema
   (0xA3, 0xA5, .inlineType), -- ldelem, stelem, unbox.any
   (0xC2, 0xC2, .inlineType), -- refanyval
   (0xC6, 0xC6, .inlineType), -- mkrefany
   (0xD0, 0xD0, .inlineTok), -- ldtoken
   (0xDD, 0xDD, .inlineBrTarget), -- leave
   (0xDE, 0xDE, .shortInlineBrTarget), -- leave.s
   (0x106, 0x107, .inlineMethod), -- ldftn, ldvirtftn
   (0x109, 0x10E, .inlineVar), -- ldarg to stloc
   (0x112, 0x112, .shortInlineI), -- unaligned.
   (0x115, 0x116, .inlineType), -- initobj, constrained.
   (0x11C, 0x11C, .inlineType), -- sizeof
   (0x127, 0x127, .inlineBrTarget)]

/-- The operand format of an opcode. -/
def operandFormat (opcode : Nat) : OperandFormat :=
  ((operandRows.find? fun row => decide (row.1 ≤ opcode ∧ opcode ≤ row.2.1)).map
    fun row => row.2.2).getD .inlineNone

/-- `s_OpCodeFlags[opcode]`. -/
def s_OpCodeFlags (opcode : Nat) : OpCodeFlags := (operandFormat opcode).flags

/-- The opcodes that push values, as ranges with the number of values.
Source: `opcode.def`, the column of pushes; `il_rewriter.cpp`, lines 88 to 118 -/
def pushRows : List (Nat × Nat × Nat) :=
  [(0x02, 0x09, 1), -- ldarg.0 to ldloc.3
   (0x0E, 0x0F, 1), -- ldarg.s, ldarga.s
   (0x11, 0x12, 1), -- ldloc.s, ldloca.s
   (0x14, 0x23, 1), -- ldnull to ldc.r8
   (0x25, 0x25, 2), -- dup
   (0x28, 0x29, 1), -- call, calli
   (0x46, 0x50, 1), -- ldind.i1 to ldind.ref
   (0x58, 0x6F, 1), -- add to callvirt
   (0x71, 0x76, 1), -- ldobj to conv.r.un
   (0x79, 0x79, 1), -- unbox
   (0x7B, 0x7C, 1), -- ldfld, ldflda
   (0x7E, 0x7F, 1), -- ldsfld, ldsflda
   (0x82, 0x9A, 1), -- conv.ovf.i1.un to ldelem.ref
   (0xA3, 0xA3, 1), -- ldelem
   (0xA5, 0xA5, 1), -- unbox.any
   (0xB3, 0xBA, 1), -- conv.ovf.i1 to conv.ovf.u8
   (0xC2, 0xC3, 1), -- refanyval, ckfinite
   (0xC6, 0xC6, 1), -- mkrefany
   (0xD0, 0xDB, 1), -- ldtoken to sub.ovf.un
   (0xE0, 0xE0, 1), -- conv.u
   (0x100, 0x107, 1), -- arglist to ldvirtftn
   (0x109, 0x10A, 1), -- ldarg, ldarga
   (0x10C, 0x10D, 1), -- ldloc, ldloca
   (0x10F, 0x10F, 1), -- localloc
   (0x11C, 0x11D, 1)] -- sizeof, refanytype

/-- `k_rgnStackPushes[opcode]`. -/
def k_rgnStackPushes (opcode : Nat) : Nat :=
  ((pushRows.find? fun row => decide (row.1 ≤ opcode ∧ opcode ≤ row.2.1)).map
    fun row => row.2.2).getD 0

/-! ## The long form of a short branch -/

/-- The opcode `Export` replaces a short branch by; an opcode that is not in one of the two ranges
has no long form. -/
def widen (opcode : Nat) : Option Nat :=
  if opcode = Cee.leaveS then some Cee.leave
  else if ¬(Cee.brS ≤ opcode ∧ opcode ≤ Cee.bltUnS) then none
  else
    let long := opcode - Cee.brS + Cee.br
    if ¬(Cee.br ≤ long ∧ long ≤ Cee.bltUn) then none else some long

/-! ## What the tables say -/

/-- An opcode of the table that is not a lead byte or an unsupported prefix. -/
def IsOpcode (opcode : Nat) : Prop :=
  opcode < Cee.count ∧ ¬(Cee.prefix7 ≤ opcode ∧ opcode ≤ Cee.prefix1)

instance (opcode : Nat) : Decidable (IsOpcode opcode) := by
  unfold IsOpcode
  infer_instance

/-- An opcode with an operand lies in a row that gives it its flags. -/
theorem exists_row {opcode : Nat} (h : s_OpCodeFlags opcode ≠ .none) :
    ∃ row ∈ operandRows, row.1 ≤ opcode ∧ opcode ≤ row.2.1 ∧
      row.2.2.flags = s_OpCodeFlags opcode := by
  unfold s_OpCodeFlags operandFormat at h ⊢
  cases hf : operandRows.find? fun row => decide (row.1 ≤ opcode ∧ opcode ≤ row.2.1) with
  | none =>
      rw [hf] at h
      exact absurd rfl h
  | some row =>
      have hin := List.find?_some hf
      rw [decide_eq_true_eq] at hin
      exact ⟨row, List.mem_of_find?_eq_some hf, hin.1, hin.2, rfl⟩

/-- The short branches are the two ranges `Export` widens. -/
theorem shortBranch_range {opcode : Nat} (h : s_OpCodeFlags opcode = .shortBranch) :
    (Cee.brS ≤ opcode ∧ opcode ≤ Cee.bltUnS) ∨ opcode = Cee.leaveS := by
  have hne : s_OpCodeFlags opcode ≠ .none := by simp [h]
  obtain ⟨row, hrow, hlo, hhi, hflags⟩ := exists_row hne
  have hranges : ∀ row ∈ operandRows, row.2.2.flags = .shortBranch →
      (0x2B ≤ row.1 ∧ row.2.1 ≤ 0x37) ∨ (0xDE ≤ row.1 ∧ row.2.1 ≤ 0xDE) := by decide
  have hrange := hranges row hrow (hflags.trans h)
  simp only [Cee.brS, Cee.bltUnS, Cee.leaveS]
  omega

/-- The only switch is `CEE_SWITCH`. -/
theorem switch_eq {opcode : Nat} (h : s_OpCodeFlags opcode = .switch) : opcode = Cee.switch := by
  have hne : s_OpCodeFlags opcode ≠ .none := by simp [h]
  obtain ⟨row, hrow, hlo, hhi, hflags⟩ := exists_row hne
  have hranges : ∀ row ∈ operandRows, row.2.2.flags = .switch →
      0x45 ≤ row.1 ∧ row.2.1 ≤ 0x45 := by decide
  have hrange := hranges row hrow (hflags.trans h)
  simp only [Cee.switch]
  omega

/-- Branches and switches of the table have one byte. -/
theorem lt_of_control {opcode : Nat} (h : (s_OpCodeFlags opcode).isBranch ∨
    s_OpCodeFlags opcode = .switch) (harg : opcode ≠ Cee.switchArg) : opcode < 0x100 := by
  have hne : s_OpCodeFlags opcode ≠ .none := by
    rcases h with h | h
    · intro hnone
      simp [hnone] at h
    · simp [h]
  obtain ⟨row, hrow, hlo, hhi, hflags⟩ := exists_row hne
  have hranges : ∀ row ∈ operandRows, row.2.2.flags.isBranch ∨ row.2.2.flags = .switch →
      row.2.1 < 0x100 ∨ (row.1 = 0x127 ∧ row.2.1 = 0x127) := by decide
  have hrange := hranges row hrow (by rwa [hflags])
  simp only [Cee.switchArg] at harg
  omega

/-- The operand of an opcode behind the lead byte has at most four bytes. -/
theorem size_le_of_prefixed {opcode : Nat} (h : 0x100 ≤ opcode) :
    (s_OpCodeFlags opcode).size ≤ 4 := by
  by_cases hne : s_OpCodeFlags opcode = .none
  · simp [hne]
  · obtain ⟨row, hrow, hlo, hhi, hflags⟩ := exists_row hne
    have hsizes : ∀ row ∈ operandRows, row.2.2.flags.size ≤ 4 ∨ row.2.1 < 0x100 := by decide
    have hsize := hsizes row hrow
    rw [hflags] at hsize
    omega

/-- An operand has at most eight bytes. -/
theorem size_le (flags : OpCodeFlags) : flags.size ≤ 8 := by
  cases flags <;> decide

/-- The opcodes from `CEE_BR` to `CEE_BLT_UN` are long branches. -/
theorem branch_of_range {opcode : Nat} (hlo : 0x38 ≤ opcode) (hhi : opcode ≤ 0x44) :
    s_OpCodeFlags opcode = .branch := by
  have hall : ∀ d < 13, s_OpCodeFlags (0x38 + d) = .branch := by decide
  have h := hall (opcode - 0x38) (by omega)
  rwa [show 0x38 + (opcode - 0x38) = opcode by omega] at h

/-- Every short branch has a long form, and it is a long branch of the table. -/
theorem widen_shortBranch {opcode : Nat} (h : s_OpCodeFlags opcode = .shortBranch) :
    ∃ long, widen opcode = some long ∧ s_OpCodeFlags long = .branch ∧ IsOpcode long := by
  unfold widen
  rcases shortBranch_range h with ⟨hlo, hhi⟩ | hleave
  · simp only [Cee.brS, Cee.bltUnS] at hlo hhi
    have hne : opcode ≠ Cee.leaveS := by
      simp only [Cee.leaveS]
      omega
    have hlong : Cee.br ≤ opcode - Cee.brS + Cee.br ∧ opcode - Cee.brS + Cee.br ≤ Cee.bltUn := by
      simp only [Cee.br, Cee.brS, Cee.bltUn]
      omega
    refine ⟨opcode - Cee.brS + Cee.br, ?_, ?_, ?_⟩
    · rw [if_neg hne, if_neg (not_not.mpr ⟨hlo, hhi⟩), if_neg (not_not.mpr hlong)]
    · exact branch_of_range hlong.1 hlong.2
    · unfold IsOpcode
      simp only [Cee.br, Cee.brS, Cee.bltUn] at hlong
      simp only [Cee.br, Cee.brS, Cee.count, Cee.prefix7, Cee.prefix1]
      omega
  · exact ⟨Cee.leave, if_pos hleave, by decide, by decide⟩

end DdTrace.Profiler
