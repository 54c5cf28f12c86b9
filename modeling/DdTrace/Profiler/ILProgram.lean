import Mathlib.Data.List.Nodup
import DdTrace.Profiler.ILRelaxation

/-!
# The program of a list of instructions

What a rewriter's list means, without the addresses and the offsets of the instructions, and that
the reader finds the same program in the code that was written.

* `position`: the place of the instruction a pointer points at.
* `Lands`: a pointer to an instruction of the list that is no arm, or to its end.
* `ILRewriter.program`: the instructions with the places of their targets, and the protected regions
  with the places of their ends.
* `importIL_of_coded`: the program of the code.

Sources: `il_rewriter.h`; `il_rewriter.cpp`, `ImportIL` and `ImportEH`.
-/

namespace DdTrace.Profiler

open DdTrace.Lib DdTrace.Lib.Outcomes
open ILRewriter (offsetOf importIL OffsetToInstr next prev deref importClause exportClause)

/-! ## Places -/

/-- The place of the instruction a pointer points at; that of the sentinel is behind the list. -/
def position (il : List ILInstr) (ref : InstrRef) : Option Nat :=
  if ref = sentinel then some il.length else il.findIdx? fun i => i.ref = ref

/-- The pointer points at an instruction that is no arm, or at the sentinel. -/
def Lands (il : List ILInstr) (ref : InstrRef) : Prop :=
  ref = sentinel ∨ ∃ i, (il.find? fun i => i.ref = ref) = some i ∧ i.isArm = false

/-- An instruction of a program. -/
structure Instruction where
  opcode : Nat
  /-- The operand of an instruction without a target. -/
  operand : Nat
  /-- The place of the target. -/
  target : Option Nat
  deriving DecidableEq, Repr

/-- A protected region of a program: each end is the place of an instruction. -/
structure Region where
  flags : Nat
  /-- The first instruction of the block. -/
  tryBegin : Option Nat
  /-- The first instruction behind the block. -/
  tryEnd : Option Nat
  /-- The first instruction of the handler. -/
  handlerBegin : Option Nat
  /-- The last instruction of the handler. -/
  handlerEnd : Option Nat
  /-- The class of a region that has no filter. -/
  classToken : Nat
  /-- The first instruction of the filter. -/
  filter : Option Nat
  deriving DecidableEq, Repr

/-- A program. -/
structure Program where
  instructions : List Instruction
  regions : List Region
  /-- The signature of the locals. -/
  localVarSigTok : Nat
  /-- `CorILMethod_InitLocals`. -/
  flags : Nat
  deriving DecidableEq, Repr

/-- What an instruction of a list does. -/
def ILInstr.instruction (il : List ILInstr) (i : ILInstr) : Instruction :=
  if i.isBranch then ⟨i.opcode, 0, position il i.target⟩ else ⟨i.opcode, i.arg, none⟩

/-- What a clause protects. -/
def EHClause.region (il : List ILInstr) (c : EHClause) : Region where
  flags := c.flags
  tryBegin := position il c.tryBegin
  tryEnd := position il c.tryEnd
  handlerBegin := position il c.handlerBegin
  handlerEnd := position il c.handlerEnd
  classToken := if isFilter c.flags then 0 else c.classToken
  filter := if isFilter c.flags then position il c.filter else none

/-- The program of a rewriter. -/
def ILRewriter.program (s : ILRewriter) : Program where
  instructions := s.il.map (ILInstr.instruction s.il)
  regions := s.eh.map (EHClause.region s.il)
  localVarSigTok := s.tkLocalVarSig
  flags := s.flags

/-- The only change that is allowed: a short branch gets its long form. -/
def Instruction.Lengthened (i j : Instruction) : Prop :=
  j = i ∨ s_OpCodeFlags i.opcode = .shortBranch ∧ widen i.opcode = some j.opcode ∧
    j = { i with opcode := j.opcode }

/-- Two programs that differ at most in the length of their branches. -/
structure Program.Lengthened (p q : Program) : Prop where
  instructions : List.Forall₂ Instruction.Lengthened p.instructions q.instructions
  regions : q.regions = p.regions
  localVarSigTok : q.localVarSigTok = p.localVarSigTok
  flags : q.flags = p.flags

variable {il js : List ILInstr} {ref : InstrRef} {k offset total n : Nat}
  {target : ILInstr → Nat}

/-- The place of a pointer that lands is in the list, or behind it. -/
theorem Lands.exists_position (h : Lands il ref) : ∃ k, position il ref = some k ∧
    (ref = sentinel ∧ k = il.length ∨
      ref ≠ sentinel ∧ ∃ i, il[k]? = some i ∧ i.ref = ref ∧ i.isArm = false) := by
  by_cases href : ref = sentinel
  · exact ⟨il.length, if_pos href, Or.inl ⟨href, rfl⟩⟩
  · rcases h with href' | ⟨i, hfind, harm⟩
    · exact absurd href' href
    · obtain ⟨k, hk, hki⟩ : ∃ k, (il.findIdx? fun i => i.ref = ref) = some k ∧ il[k]? = some i := by
        induction il with
        | nil => cases hfind
        | cons j il ih =>
            rw [List.find?_cons] at hfind
            rw [List.findIdx?_cons]
            by_cases hj : j.ref = ref
            · rw [decide_eq_true hj] at hfind ⊢
              exact ⟨0, rfl, hfind⟩
            · rw [decide_eq_false hj] at hfind ⊢
              obtain ⟨k, hk, hki⟩ := ih hfind
              exact ⟨k + 1, by rw [hk]; rfl, hki⟩
      have hiref : i.ref = ref := by simpa using List.find?_some hfind
      exact ⟨k, (if_neg href).trans hk, Or.inr ⟨href, i, hki, hiref, harm⟩⟩

/-- Lengthening keeps all places. -/
theorem AllLengthened.position_eq (h : AllLengthened il js) (ref : InstrRef) :
    position js ref = position il ref := by
  rw [position, position, h.length_eq]
  congr 1
  induction h with
  | nil => rfl
  | cons hij _ ih => rw [List.findIdx?_cons, List.findIdx?_cons, hij.ref, ih]

/-- Lengthening keeps what is found. -/
theorem AllLengthened.exists_find? (h : AllLengthened il js) {i : ILInstr}
    (hfind : (il.find? fun i => i.ref = ref) = some i) :
    ∃ j, (js.find? fun j => j.ref = ref) = some j ∧ Lengthened i j := by
  induction h with
  | nil => cases hfind
  | @cons a b as bs hij _ ih =>
      rw [List.find?_cons] at hfind ⊢
      rw [hij.ref]
      by_cases ha : a.ref = ref
      · rw [decide_eq_true ha] at hfind ⊢
        obtain rfl := Option.some.inj hfind
        exact ⟨b, rfl, hij⟩
      · rw [decide_eq_false ha] at hfind ⊢
        exact ih hfind

/-- Lengthening keeps what a pointer lands on. -/
theorem AllLengthened.lands (h : AllLengthened il js) (href : Lands il ref) : Lands js ref := by
  rcases href with href | ⟨i, hfind, harm⟩
  · exact Or.inl href
  · obtain ⟨j, hj, hij⟩ := h.exists_find? hfind
    exact Or.inr ⟨j, hj, hij.isArm_eq.trans harm⟩

/-! ## Offsets and places -/

/-- The offset of an instruction is the size of what stands before it. -/
theorem find?_placed (h : ((placed il offset).find? fun i => i.ref = ref).map ILInstr.offset =
    some n) : ∃ k, (il.findIdx? fun i => i.ref = ref) = some k ∧
      n = offset + totalSize (il.take k) := by
  induction il generalizing offset with
  | nil => cases h
  | cons i il ih =>
      rw [placed, List.find?_cons] at h
      rw [List.findIdx?_cons]
      by_cases hi : i.ref = ref
      · rw [decide_eq_true hi] at h ⊢
        exact ⟨0, rfl, (Option.some.inj h).symm⟩
      · rw [decide_eq_false hi] at h ⊢
        obtain ⟨k, hk, hn⟩ := ih h
        refine ⟨k + 1, by rw [hk]; rfl, ?_⟩
        rw [hn, List.take_succ_cons, totalSize_cons, Nat.add_assoc]

/-- The offset that a pass assigned is that of the place. -/
theorem eq_of_offsetOf (h : offsetOf (placed il 0) (totalSize il) ref = .ok n) :
    ∃ k, position il ref = some k ∧ n = totalSize (il.take k) := by
  rw [ILRewriter.offsetOf] at h
  rw [position]
  by_cases href : ref = sentinel
  · rw [if_pos href] at h ⊢
    refine ⟨il.length, rfl, ?_⟩
    rw [List.take_length]
    exact (Except.ok.inj h).symm
  · rw [if_neg href] at h ⊢
    obtain ⟨k, hk, hn⟩ := find?_placed (deref_eq_ok h)
    rw [Nat.zero_add] at hn
    exact ⟨k, hk, hn⟩

/-- An instruction that is no arm is found at its offset. -/
theorem find?_decodedFrom (target : ILInstr → Nat) (offset n : Nat) (hknown : ∀ i ∈ il, i.Known)
    {i : ILInstr} (hk : il[k]? = some i)
    (harm : i.isArm = false) :
    ∃ entry, ((decodedFrom target il offset n).find? fun entry =>
        entry.1 = some (offset + totalSize (il.take k))) = some entry ∧
      entry.2.ref = n + k + 1 := by
  induction il generalizing k offset n with
  | nil => cases hk
  | cons j il ih =>
      rw [decodedFrom, List.find?_cons]
      cases k with
      | zero =>
          obtain rfl := Option.some.inj hk
          rw [harm]
          simp [totalSize]
      | succ k =>
          have hpos := (hknown j List.mem_cons_self).pos_size
          have hne : (if j.isArm then none else some offset) ≠
              some (offset + totalSize ((j :: il).take (k + 1))) := by
            rw [List.take_succ_cons, totalSize_cons]
            split
            · intro heq
              cases heq
            · intro heq
              have heq := Option.some.inj heq
              omega
          rw [decide_eq_false hne, List.take_succ_cons, totalSize_cons, ← Nat.add_assoc]
          obtain ⟨entry, hfind, href⟩ :=
            ih (offset + j.size) (n + 1) (fun i hi => hknown i (List.mem_cons_of_mem j hi)) hk
          refine ⟨entry, hfind, ?_⟩
          rw [href]
          exact congrArg (· + 1) (Nat.add_right_comm n 1 k)

/-! ## The program of the code -/

/-- The instructions are numbered in their order. -/
def Numbered (il : List ILInstr) :
    Prop := ∀ (k : Nat) (i : ILInstr), il[k]? = some i → i.ref = k + 1

/-- In a numbered list the pointer of a place is its number. -/
theorem Numbered.position_succ (h : Numbered il) (hk : k < il.length) :
    position il (k + 1) = some k := by
  have hne : ¬k + 1 = sentinel := Nat.succ_ne_zero k
  rw [position, if_neg hne, List.findIdx?_eq_some_iff_getElem]
  refine ⟨hk, ?_, fun j hj => ?_⟩
  · exact decide_eq_true (h k _ (List.getElem?_eq_getElem hk))
  · have hj' := h j _ (List.getElem?_eq_getElem (Nat.lt_trans hj hk))
    rw [hj', Bool.not_eq_true, decide_eq_false_iff_not]
    intro heq
    have heq : j + 1 = k + 1 := heq
    omega

/-- The pointer of a place in a numbered list. -/
def refAt (length k : Nat) : InstrRef := if k = length then sentinel else k + 1

theorem Numbered.position_refAt (h : Numbered il) (hk : k ≤ il.length) :
    position il (refAt il.length k) = some k := by
  rw [refAt]
  by_cases heq : k = il.length
  · rw [if_pos heq, heq]
    exact if_pos rfl
  · rw [if_neg heq]
    exact h.position_succ (by omega)

/-- The table of what the reader finds in the code of a list. -/
def tableOf (il : List ILInstr) (target : ILInstr → Nat) : OffsetToInstr :=
  ⟨decodedFrom target il 0 0, totalSize il⟩

theorem totalSize_take_lt (hknown : ∀ i ∈ il, i.Known) (hk : k < il.length) :
    totalSize (il.take k) < totalSize il := by
  have hsplit : totalSize il = totalSize (il.take k) + totalSize (il.drop k) := by
    rw [← totalSize_append, List.take_append_drop]
  have hpos : 0 < totalSize (il.drop k) := by
    rw [List.drop_eq_getElem_cons hk, totalSize_cons]
    have hsize := (hknown _ (List.getElem_mem hk)).pos_size
    omega
  omega

/-- **The reader finds at the offset of a place** what is at that place. -/
theorem getInstrFromOffset_tableOf (target : ILInstr → Nat) (hknown : ∀ i ∈ il, i.Known)
    (h : Lands il ref)
    (hpos : position il ref = some k) :
    (tableOf il target).getInstrFromOffset (totalSize (il.take k)) =
      .ok (refAt il.length k) := by
  obtain ⟨k', hk', hlands⟩ := h.exists_position
  obtain rfl := Option.some.inj (hpos.symm.trans hk')
  have hcodeSize : (tableOf il target).codeSize = totalSize il := rfl
  rw [OffsetToInstr.getInstrFromOffset, refAt, hcodeSize]
  rcases hlands with ⟨-, rfl⟩ | ⟨-, i, hi, -, harm⟩
  · rw [List.take_length, if_pos rfl, if_pos rfl]
  · obtain ⟨hlt, -⟩ := List.getElem?_eq_some_iff.mp hi
    have hne : totalSize (il.take k) ≠ totalSize il := Nat.ne_of_lt (totalSize_take_lt hknown hlt)
    have hlength : k ≠ il.length := Nat.ne_of_lt hlt
    obtain ⟨entry, hfind, href⟩ :=
      find?_decodedFrom target 0 0 hknown hi harm
    rw [Nat.zero_add] at hfind
    have hinstrs : (tableOf il target).instrs = decodedFrom target il 0 0 := rfl
    rw [if_neg hne, if_neg hlength, hinstrs, hfind]
    simp only [href, Nat.zero_add]

/-- The offsets that a pass assigned to the targets. -/
abbrev assigned (il : List ILInstr) : ILInstr → Nat :=
  targetOf (offsetOf (placed il 0) (totalSize il))

theorem assigned_le (il : List ILInstr) (i : ILInstr) : assigned il i ≤ totalSize il := by
  rw [assigned, targetOf]
  cases h : offsetOf (placed il 0) (totalSize il) i.target with
  | error e => exact Nat.zero_le _
  | ok n =>
      obtain ⟨k, -, rfl⟩ := eq_of_offsetOf h
      have hsplit : totalSize il = totalSize (il.take k) + totalSize (il.drop k) := by
        rw [← totalSize_append, List.take_append_drop]
      show totalSize (il.take k) ≤ totalSize il
      omega

/-- The instruction of a place, as the reader finds it. -/
theorem getElem?_decodedFrom (target : ILInstr → Nat) (il : List ILInstr) (offset n k : Nat) :
    ((decodedFrom target il offset n)[k]?).map Prod.snd =
      il[k]?.map fun i => { ref := n + k + 1, opcode := i.opcode, arg := i.operand (target i) } := by
  induction il generalizing offset n k with
  | nil => rfl
  | cons i il ih =>
      rw [decodedFrom]
      cases k with
      | zero => rfl
      | succ k =>
          rw [List.getElem?_cons_succ, List.getElem?_cons_succ, ih, Nat.add_right_comm n 1 k]
          rfl

/-- The operand of an instruction that is no branch does not depend on a target. -/
theorem ILInstr.operand_congr {i : ILInstr} (h : i.isBranch = false) (t t' : Nat) :
    i.operand t = i.operand t' := by
  rw [operand, operand]
  cases hflags : s_OpCodeFlags i.opcode with
  | shortBranch =>
      rw [isBranch, hflags] at h
      cases h
  | branch =>
      rw [isBranch, hflags] at h
      cases h
  | none => rfl
  | arg8 => rfl
  | arg16 => rfl
  | arg32 => rfl
  | arg64 => rfl
  | switch => rfl

/-- What an export relies on: the opcodes are those of the table, the arms stand behind their
switches, the operands have their sizes, and the targets are instructions of the list. -/
structure Exportable (il : List ILInstr) : Prop where
  known : ∀ i ∈ il, i.Known
  shaped : Shaped il 0
  operands : ∀ i ∈ il, i.isBranch = false → i.operand 0 = i.arg
  targets : ∀ i ∈ il, i.isBranch = true → Lands il i.target

/-- What the reader makes of an instruction. -/
structure ReadBack (il : List ILInstr) (k : Nat) (i j : ILInstr) : Prop where
  ref : j.ref = k + 1
  opcode : j.opcode = i.opcode
  arg : i.isBranch = false → j.arg = i.arg
  target : i.isBranch = true →
    ∃ p, position il i.target = some p ∧ p ≤ il.length ∧ j.target = refAt il.length p

theorem Lands.position_le (h : Lands il ref) (hk : position il ref = some k) : k ≤ il.length := by
  obtain ⟨k', hk', hlands⟩ := h.exists_position
  obtain rfl := Option.some.inj (hk.symm.trans hk')
  rcases hlands with ⟨-, rfl⟩ | ⟨-, i, hi, -, -⟩
  · exact Nat.le_refl _
  · obtain ⟨hlt, -⟩ := List.getElem?_eq_some_iff.mp hi
    exact Nat.le_of_lt hlt

/-- The targets are resolved to the instructions of their places. -/
theorem readBack_of_resolve (h : Exportable il) {code : List UInt8}
    (hcoded : Coded il (assigned il) code) {i : ILInstr} (hk : il[k]? = some i) :
    ∃ j, (tableOf il (assigned il)).resolve
        { ref := k + 1, opcode := i.opcode, arg := i.operand (assigned il i) } = .ok j ∧
      ReadBack il k i j := by
  have hi := List.mem_of_getElem? hk
  rw [OffsetToInstr.resolve]
  by_cases hbranch : i.isBranch = true
  · have hassigned := hcoded.target i hi hbranch
    obtain ⟨p, hp, hn⟩ := eq_of_offsetOf hassigned
    have hlands := h.targets i hi hbranch
    have hget := getInstrFromOffset_tableOf (assigned il) h.known hlands hp
    have hoperand : i.operand (assigned il i) = assigned il i := by
      rw [ILInstr.operand]
      rcases ILInstr.flags_of_isBranch hbranch with hflags | hflags
      · rw [hflags]
      · rw [hflags]
    have hif : (s_OpCodeFlags i.opcode).isBranch = true := hbranch
    rw [hoperand, if_pos hif, hn, hget]
    refine ⟨_, rfl, rfl, rfl, fun hfalse => ?_, fun _ => ⟨p, hp, hlands.position_le hp, rfl⟩⟩
    rw [hbranch] at hfalse
    cases hfalse
  · have hif : ¬(s_OpCodeFlags i.opcode).isBranch = true := hbranch
    have hbranch := Bool.eq_false_iff.mpr hbranch
    rw [if_neg hif]
    refine ⟨_, rfl, rfl, rfl, fun _ => ?_, fun htrue => ?_⟩
    · show i.operand (assigned il i) = i.arg
      rw [ILInstr.operand_congr hbranch _ 0, h.operands i hi hbranch]
    · rw [hbranch] at htrue
      cases htrue

/-- A list that was read back from the code of another one. -/
structure IsReadBack (il js : List ILInstr) : Prop where
  length : js.length = il.length
  readBack : ∀ (k : Nat) (i : ILInstr), il[k]? = some i → ∃ j, js[k]? = some j ∧ ReadBack il k i j

theorem IsReadBack.numbered (h : IsReadBack il js) : Numbered js := by
  intro k j hj
  obtain ⟨hlt, -⟩ := List.getElem?_eq_some_iff.mp hj
  rw [h.length] at hlt
  obtain ⟨j', hj', hback⟩ := h.readBack k _ (List.getElem?_eq_getElem hlt)
  obtain rfl := Option.some.inj (hj.symm.trans hj')
  exact hback.ref

/-- The places of what was read back are those of the pointers. -/
theorem IsReadBack.position_eq (h : IsReadBack il js) {p : Nat} (hp : p ≤ il.length) :
    position js (refAt il.length p) = some p := by
  rw [← h.length] at hp ⊢
  exact h.numbered.position_refAt hp

/-- **The instructions that were read back** do the same. -/
theorem IsReadBack.instructions (h : IsReadBack il js) :
    js.map (ILInstr.instruction js) = il.map (ILInstr.instruction il) := by
  apply List.ext_getElem?
  intro k
  rw [List.getElem?_map, List.getElem?_map]
  cases hi : il[k]? with
  | none =>
      rw [List.getElem?_eq_none_iff] at hi
      rw [← h.length, ← List.getElem?_eq_none_iff] at hi
      rw [hi]
      rfl
  | some i =>
      obtain ⟨j, hj, hback⟩ := h.readBack k i hi
      rw [hj, Option.map_some, Option.map_some, ILInstr.instruction, ILInstr.instruction]
      have hsame : j.isBranch = i.isBranch := by
        rw [ILInstr.isBranch, ILInstr.isBranch, hback.opcode]
      by_cases hbranch : i.isBranch = true
      · obtain ⟨p, hp, hle, htarget⟩ := hback.target hbranch
        rw [hsame, if_pos hbranch, if_pos hbranch, hback.opcode, htarget, hp, h.position_eq hle]
      · rw [hsame, if_neg hbranch, if_neg hbranch, hback.opcode,
          hback.arg (Bool.eq_false_iff.mpr hbranch)]

/-- **The reader finds the instructions** in the code that was written for them. -/
theorem importIL_of_coded (h : Exportable il) {code : List UInt8}
    (hcoded : Coded il (assigned il) code) :
    ∃ js, importIL code = .ok (tableOf il (assigned il), js) ∧ IsReadBack il js := by
  have hlength : code.length = totalSize il := by
    rw [hcoded.code, length_codeFrom]
  have hlt := hcoded.lt
  have hsmall : ¬uint32 (code.length + 1) = 0 := by
    rw [hlength, uint32_of_lt hlt]
    omega
  have hloop : ILRewriter.importLoop code code.length 0 0 =
      .ok (decodedFrom (assigned il) il 0 0) := by
    have hcode : code.drop 0 = codeFrom (assigned il) il 0 0 := hcoded.code
    refine importLoop_codeFrom h.known (fun i _ => ?_) h.shaped hcoded.reaches (by omega) ?_
      (Nat.zero_le _) hcode
    · have hle := assigned_le il i
      omega
    · rw [hlength]
      exact length_le_totalSize h.known
  have hentry (k : Nat) (entry : Option Nat × ILInstr)
      (hk : (decodedFrom (assigned il) il 0 0)[k]? = some entry) :
      ∃ i, il[k]? = some i ∧
        entry.2 = { ref := k + 1, opcode := i.opcode, arg := i.operand (assigned il i) } := by
    have hmap := getElem?_decodedFrom (assigned il) il 0 0 k
    rw [hk, Option.map_some, Nat.zero_add] at hmap
    obtain ⟨i, hi, heq⟩ := Option.map_eq_some_iff.mp hmap.symm
    exact ⟨i, hi, heq.symm⟩
  obtain ⟨js, hjs⟩ : ∃ js, (decodedFrom (assigned il) il 0 0).mapM
      (fun entry => (tableOf il (assigned il)).resolve entry.2) = .ok js := by
    rw [mapM_ok_iff]
    intro entry hmem
    obtain ⟨k, hk⟩ := List.mem_iff_getElem?.mp hmem
    obtain ⟨i, hi, heq⟩ := hentry k entry hk
    obtain ⟨j, hj, -⟩ := readBack_of_resolve h hcoded hi
    exact ⟨j, by rw [heq]; exact hj⟩
  refine ⟨js, ?_, ?_, fun k i hi => ?_⟩
  · rw [importIL, if_neg hsmall, hloop, ok_bind, hlength]
    exact bind_eq_ok.mpr ⟨js, hjs, rfl⟩
  · rw [← (mapM_eq_ok_iff.mp hjs).length_eq, length_decodedFrom]
  · obtain ⟨j, hj, hback⟩ := readBack_of_resolve h hcoded hi
    obtain ⟨hlt, -⟩ := List.getElem?_eq_some_iff.mp hi
    have hlt' : k < (decodedFrom (assigned il) il 0 0).length := by
      rw [length_decodedFrom]
      exact hlt
    have hforall := mapM_eq_ok_iff.mp hjs
    have hlt'' : k < js.length := by
      rw [← hforall.length_eq]
      exact hlt'
    have hk := hforall.get hlt' hlt''
    obtain ⟨i', hi', heq⟩ := hentry k _ (List.getElem?_eq_getElem hlt')
    obtain rfl := Option.some.inj (hi.symm.trans hi')
    refine ⟨j, ?_, hback⟩
    have hresolve : (tableOf il (assigned il)).resolve
        (decodedFrom (assigned il) il 0 0)[k].2 = .ok js[k] := hk
    rw [heq, hj] at hresolve
    rw [Except.ok.inj hresolve]
    exact List.getElem?_eq_getElem hlt''

/-! ## Neighbours -/

/-- The pointers of the instructions are different, and none is the sentinel. -/
structure Distinct (il : List ILInstr) : Prop where
  nodup : (il.map ILInstr.ref).Nodup
  ne_sentinel : ∀ i ∈ il, i.ref ≠ sentinel

/-- The pointer to a place. -/
def pointerAt (il : List ILInstr) (k : Nat) : InstrRef := (il[k]?.map ILInstr.ref).getD sentinel

theorem Numbered.pointerAt_eq (h : Numbered il) (hk : k ≤ il.length) :
    pointerAt il k = refAt il.length k := by
  rw [pointerAt, refAt]
  by_cases heq : k = il.length
  · rw [if_pos heq, List.getElem?_eq_none (Nat.le_of_eq heq.symm)]
    rfl
  · have hlt : k < il.length := by omega
    rw [if_neg heq, List.getElem?_eq_getElem hlt]
    exact h k _ (List.getElem?_eq_getElem hlt)

theorem Numbered.distinct (h : Numbered il) : Distinct il := by
  refine ⟨?_, fun i hi => ?_⟩
  · rw [List.nodup_iff_injective_getElem]
    intro a b hab
    have hplace (c : Fin (il.map ILInstr.ref).length) : (il.map ILInstr.ref)[c.1] = c.1 + 1 := by
      have hlt : c.1 < il.length := by simpa using c.2
      simpa using h c.1 _ (List.getElem?_eq_getElem hlt)
    exact Fin.ext (Nat.succ.inj ((hplace a).symm.trans (hab.trans (hplace b))))
  · obtain ⟨k, hk⟩ := List.mem_iff_getElem?.mp hi
    rw [h k i hk]
    exact Nat.succ_ne_zero k

/-- The pointers before a place are other ones. -/
theorem Distinct.ne_of_lt (h : Distinct il) {j : Nat} (hjk : j < k) (hj : j < il.length)
    (hk : k < il.length) : il[j].ref ≠ il[k].ref := by
  intro href
  have hinj := List.nodup_iff_injective_getElem.mp h.nodup
  have heq : (⟨j, by simpa using hj⟩ : Fin (il.map ILInstr.ref).length) =
      ⟨k, by simpa using hk⟩ := hinj (by simpa using href)
  exact Nat.ne_of_lt hjk (congrArg Fin.val heq)

/-- The place of the pointer to a place. -/
theorem Distinct.position_pointerAt (h : Distinct il) (hk : k ≤ il.length) :
    position il (pointerAt il k) = some k := by
  rw [pointerAt]
  by_cases heq : k = il.length
  · rw [List.getElem?_eq_none (Nat.le_of_eq heq.symm), heq]
    exact if_pos rfl
  · have hlt : k < il.length := by omega
    rw [List.getElem?_eq_getElem hlt]
    have hne : ¬il[k].ref = sentinel := h.ne_sentinel _ (List.getElem_mem hlt)
    rw [Option.map_some, Option.getD_some, position, if_neg hne,
      List.findIdx?_eq_some_iff_getElem]
    refine ⟨hlt, decide_eq_true rfl, fun j hj => ?_⟩
    rw [Bool.not_eq_true, decide_eq_false_iff_not]
    exact h.ne_of_lt hj (Nat.lt_trans hj hlt) hlt

/-- A pointer is the one to its place. -/
theorem eq_pointerAt_of_position (hk : position il ref = some k) : ref = pointerAt il k := by
  rw [position] at hk
  rw [pointerAt]
  split at hk
  case isTrue href =>
    obtain rfl := Option.some.inj hk
    rw [List.getElem?_eq_none (Nat.le_refl _)]
    exact href
  case isFalse =>
    rw [List.findIdx?_eq_some_iff_getElem] at hk
    obtain ⟨hlt, hkref, -⟩ := hk
    rw [List.getElem?_eq_getElem hlt]
    exact (of_decide_eq_true hkref).symm

/-- A search for an instruction stops at it. -/
theorem dropWhile_ref {i : ILInstr} {before behind : List ILInstr} (hi : i.ref ≠ sentinel)
    (hbefore : ∀ j ∈ before, j.ref ≠ i.ref) :
    (before ++ i :: behind).dropWhile (fun j => decide (i.ref ≠ sentinel ∧ j.ref ≠ i.ref)) =
      i :: behind := by
  rw [List.dropWhile_append_of_pos fun j hj => decide_eq_true ⟨hi, hbefore j hj⟩]
  simp

/-- Behind the sentinel is the first instruction. -/
theorem next_sentinel (il : List ILInstr) : next il sentinel = some (pointerAt il 0) := by
  cases il with
  | nil => rfl
  | cons i il => simp [next, pointerAt]

/-- Behind an instruction is that of the next place. -/
theorem next_of_position (href : ref ≠ sentinel) (hk : position il ref = some k) :
    next il ref = some (pointerAt il (k + 1)) := by
  rw [position, if_neg href, List.findIdx?_eq_some_iff_getElem] at hk
  obtain ⟨hlt, hkref, hbefore⟩ := hk
  have hsplit : il.take k ++ il[k] :: il.drop (k + 1) = il := by
    rw [← List.drop_eq_getElem_cons hlt, List.take_append_drop]
  have hother : ∀ j ∈ il.take k, j.ref ≠ ref := by
    intro j hj
    obtain ⟨m, hm, rfl⟩ := List.mem_take_iff_getElem.mp hj
    have hne := hbefore m (by omega)
    rwa [Bool.not_eq_true, decide_eq_false_iff_not] at hne
  generalize il[k] = i at hkref hsplit
  obtain rfl := of_decide_eq_true hkref
  have hdrop : il.dropWhile (fun j => decide (i.ref ≠ sentinel ∧ j.ref ≠ i.ref)) =
      i :: il.drop (k + 1) := by
    conv_lhs => rw [← hsplit]
    exact dropWhile_ref href hother
  rw [next, hdrop]
  simp only [if_neg href, List.head?_drop]
  rfl

/-- Before an instruction is that of the place before, and before the first one the sentinel. -/
theorem Distinct.prev_pointerAt (h : Distinct il) (hk : k ≤ il.length) :
    prev il (pointerAt il k) = some (if k = 0 then sentinel else pointerAt il (k - 1)) := by
  by_cases heq : k = il.length
  · have hpointer : pointerAt il k = sentinel := by
      rw [pointerAt, List.getElem?_eq_none (Nat.le_of_eq heq.symm)]
      rfl
    rw [hpointer, heq, prev]
    cases il using List.reverseRecOn with
    | nil => rfl
    | append_singleton il i => simp [pointerAt]
  · have hlt : k < il.length := by omega
    have hne := h.ne_sentinel _ (List.getElem_mem hlt)
    have hpointer : pointerAt il k = il[k].ref := by
      rw [pointerAt, List.getElem?_eq_getElem hlt]
      rfl
    have hsplit : il.reverse = (il.drop (k + 1)).reverse ++ il[k] :: (il.take k).reverse := by
      conv_lhs => rw [← List.take_append_drop k il, List.drop_eq_getElem_cons hlt]
      simp
    have hdrop : il.reverse.dropWhile (fun j => decide (il[k].ref ≠ sentinel ∧ j.ref ≠ il[k].ref)) =
        il[k] :: (il.take k).reverse := by
      rw [hsplit]
      refine dropWhile_ref hne fun j hj => ?_
      obtain ⟨m, hm, rfl⟩ := List.mem_iff_getElem.mp (List.mem_reverse.mp hj)
      rw [List.getElem_drop]
      rw [List.length_drop] at hm
      exact (h.ne_of_lt (by omega) hlt (by omega)).symm
    rw [hpointer, prev, hdrop]
    simp only [if_neg hne, List.head?_reverse]
    cases k with
    | zero => rfl
    | succ k =>
        rw [if_neg (Nat.succ_ne_zero k), pointerAt, List.getLast?_take]
        simp [List.getElem?_eq_getElem (Nat.lt_of_succ_lt hlt)]

/-! ## Clauses -/

/-- The place behind the instruction a pointer points at; behind the sentinel is the first one. -/
def following (il : List ILInstr) (ref : InstrRef) : Option Nat :=
  if ref = sentinel then some 0 else (position il ref).map (· + 1)

/-- The pointer to what follows. -/
theorem next_of_following (hk : following il ref = some k) :
    next il ref = some (pointerAt il k) := by
  rw [following] at hk
  split at hk
  case isTrue href =>
    obtain rfl := Option.some.inj hk
    rw [href]
    exact next_sentinel il
  case isFalse href =>
    obtain ⟨k', hk', rfl⟩ := Option.map_eq_some_iff.mp hk
    exact next_of_position href hk'

/-- The place of what something follows. -/
theorem position_of_following (hk : following il ref = some k) :
    position il ref = some (if k = 0 then il.length else k - 1) := by
  rw [following] at hk
  split at hk
  case isTrue href =>
    obtain rfl := Option.some.inj hk
    exact if_pos href
  case isFalse href =>
    obtain ⟨k', hk', rfl⟩ := Option.map_eq_some_iff.mp hk
    rw [hk', if_neg (Nat.succ_ne_zero k'), Nat.add_sub_cancel]

/-- What precedes a place is followed by it. -/
theorem Distinct.exists_prev (h : Distinct il) (hk : k ≤ il.length) :
    ∃ ref, prev il (pointerAt il k) = some ref ∧ following il ref = some k := by
  refine ⟨_, h.prev_pointerAt hk, ?_⟩
  cases k with
  | zero => exact if_pos rfl
  | succ k =>
      have hne : ¬pointerAt il k = sentinel := by
        rw [pointerAt, List.getElem?_eq_getElem hk]
        exact h.ne_sentinel _ (List.getElem_mem hk)
      rw [if_neg (Nat.succ_ne_zero k), Nat.add_sub_cancel, following, if_neg hne,
        h.position_pointerAt (Nat.le_of_lt hk)]
      rfl

theorem AllLengthened.pointerAt_eq (h : AllLengthened il js) (k : Nat) :
    pointerAt js k = pointerAt il k := by
  rw [pointerAt, pointerAt]
  induction h generalizing k with
  | nil => rfl
  | cons hij _ ih =>
      cases k with
      | zero => exact hij.ref
      | succ k => exact ih k

theorem AllLengthened.following_eq (h : AllLengthened il js) (ref : InstrRef) :
    following js ref = following il ref := by
  rw [following, following, h.position_eq]

/-- The pointer to what follows is the same after the offsets were assigned. -/
theorem next_placed (hk : following il ref = some k) :
    next (placed il 0) ref = some (pointerAt il k) := by
  have hlengthened := allLengthened_placed il 0
  rw [next_of_following ((hlengthened.following_eq ref).trans hk), hlengthened.pointerAt_eq]

/-- The ends of a clause are instructions of the list. -/
structure EHClause.Stands (il : List ILInstr) (c : EHClause) : Prop where
  tryBegin : Lands il c.tryBegin
  tryEnd : Lands il c.tryEnd
  handlerBegin : Lands il c.handlerBegin
  handlerEnd : ∃ k, following il c.handlerEnd = some k ∧ Lands il (pointerAt il k)
  filter : isFilter c.flags = true → Lands il c.filter
  flags : c.flags < 2 ^ 32
  classToken : isFilter c.flags = false → c.classToken < 2 ^ 32

/-- The offset of a pointer that lands. -/
theorem Lands.offsetOf_eq (h : Lands il ref) : ∃ k, position il ref = some k ∧
    offsetOf (placed il 0) (totalSize il) ref = .ok (totalSize (il.take k)) := by
  obtain ⟨n, hn⟩ : ∃ n, offsetOf (placed il 0) (totalSize il) ref = .ok n := by
    rw [ILRewriter.offsetOf]
    by_cases href : ref = sentinel
    · exact ⟨_, if_pos href⟩
    · obtain ⟨i, hi, -⟩ := h.resolve_left href
      obtain ⟨j, hj, -⟩ := (allLengthened_placed il 0).exists_find? hi
      rw [if_neg href, hj]
      exact ⟨j.offset, rfl⟩
  obtain ⟨k, hk, rfl⟩ := eq_of_offsetOf hn
  exact ⟨k, hk, hn⟩

theorem totalSize_take_le (il : List ILInstr) (k : Nat) : totalSize (il.take k) ≤ totalSize il := by
  have hsplit : totalSize il = totalSize (il.take k) + totalSize (il.drop k) := by
    rw [← totalSize_append, List.take_append_drop]
  omega

theorem le_of_following (hk : following il ref = some k) : k ≤ il.length := by
  rw [following] at hk
  split at hk
  case isTrue =>
    obtain rfl := Option.some.inj hk
    exact Nat.zero_le _
  case isFalse href =>
    obtain ⟨k', hk', rfl⟩ := Option.map_eq_some_iff.mp hk
    rw [position, if_neg href, List.findIdx?_eq_some_iff_getElem] at hk'
    exact hk'.1

/-- What the writer and the reader make of a pointer. -/
structure Moved (il js : List ILInstr) (target : ILInstr → Nat) (ref ref' : InstrRef) (n : Nat) :
    Prop where
  written : offsetOf (placed il 0) (totalSize il) ref = .ok n
  lt : n < 2 ^ 32
  read : (tableOf il target).getInstrFromOffset n = .ok ref'
  position_eq : position js ref' = position il ref

theorem exists_moved (target : ILInstr → Nat) (hknown : ∀ i ∈ il, i.Known)
    (hlt : totalSize il + 1 < 2 ^ 32) (hback : IsReadBack il js) (h : Lands il ref) :
    ∃ ref' n, Moved il js target ref ref' n := by
  obtain ⟨k, hk, hoffset⟩ := h.offsetOf_eq
  have hle := totalSize_take_le il k
  refine ⟨refAt il.length k, totalSize (il.take k), hoffset, by omega,
    getInstrFromOffset_tableOf target hknown h hk, ?_⟩
  rw [hback.position_eq (h.position_le hk), hk]

/-- The pointer to the end of a handler moves with what follows it. -/
theorem exists_prev_moved (hdistinct : Distinct il) (hback : IsReadBack il js) {ref' : InstrRef}
    (hk : following il ref = some k) (hmoved : Moved il js target (pointerAt il k) ref' n) :
    ∃ ref'', prev js ref' = some ref'' ∧ position js ref'' = position il ref := by
  have hle := le_of_following hk
  have hle' : k ≤ js.length := by
    rw [hback.length]
    exact hle
  have hpointer : ref' = pointerAt js k := by
    apply eq_pointerAt_of_position
    rw [hmoved.position_eq, hdistinct.position_pointerAt hle]
  obtain ⟨ref'', hprev, hfollowing⟩ := hback.numbered.distinct.exists_prev hle'
  refine ⟨ref'', by rw [hpointer]; exact hprev, ?_⟩
  rw [position_of_following hfollowing, position_of_following hk, hback.length]

/-- **A clause that is written and read back** protects the same. -/
theorem exportClause_spec (hdistinct : Distinct il) (hknown : ∀ i ∈ il, i.Known)
    (hlt : totalSize il + 1 < 2 ^ 32) (hback : IsReadBack il js) {c : EHClause}
    (hc : c.Stands il) : ∃ fat, exportClause (placed il 0) (totalSize il) c = .ok fat ∧
      fat.Bounded ∧ ∃ c', importClause (tableOf il target) js fat = .ok c' ∧
        c'.region js = c.region il := by
  obtain ⟨k, hk, hlands⟩ := hc.handlerEnd
  have hnext := next_placed hk
  obtain ⟨tryBegin, a, htryBegin⟩ := exists_moved target hknown hlt hback hc.tryBegin
  obtain ⟨tryEnd, b, htryEnd⟩ := exists_moved target hknown hlt hback hc.tryEnd
  obtain ⟨handlerBegin, p, hhandlerBegin⟩ := exists_moved target hknown hlt hback hc.handlerBegin
  obtain ⟨handlerNext, q, hhandlerNext⟩ := exists_moved target hknown hlt hback hlands
  obtain ⟨handlerEnd, hprev, hhandlerEnd⟩ := exists_prev_moved hdistinct hback hk hhandlerNext
  have hwritten (m : Nat) (hm : (if isFilter c.flags then
      offsetOf (placed il 0) (totalSize il) c.filter else pure c.classToken) = .ok m) :
      exportClause (placed il 0) (totalSize il) c = .ok ⟨c.flags, a, sub32 b a, p, sub32 q p, m⟩ := by
    rw [exportClause, htryBegin.written, ok_bind, htryEnd.written, ok_bind, hhandlerBegin.written,
      ok_bind, hnext, deref, ok_bind, hhandlerNext.written, ok_bind]
    by_cases hfilter : isFilter c.flags = true
    · rw [if_pos hfilter] at hm
      simp only [if_pos hfilter, hm]
      rfl
    · obtain rfl := Except.ok.inj ((if_neg hfilter).symm.trans hm)
      simp only [if_neg hfilter]
      rfl
  have hread (m : Nat) : importClause (tableOf il target) js
      ⟨c.flags, a, sub32 b a, p, sub32 q p, m⟩ =
        if isFilter c.flags then do
          let filter ← (tableOf il target).getInstrFromOffset m
          pure ⟨c.flags, tryBegin, tryEnd, handlerBegin, handlerEnd, 0, filter⟩
        else pure ⟨c.flags, tryBegin, tryEnd, handlerBegin, handlerEnd, m, sentinel⟩ := by
    rw [importClause, htryBegin.read, ok_bind, uint32_add_sub32 htryEnd.lt htryBegin.lt,
      htryEnd.read, ok_bind, hhandlerBegin.read, ok_bind,
      uint32_add_sub32 hhandlerNext.lt hhandlerBegin.lt, hhandlerNext.read, ok_bind, hprev, deref,
      ok_bind]
  have hbounded (m : Nat) (hm : m < 2 ^ 32) :
      EHClauseFat.Bounded ⟨c.flags, a, sub32 b a, p, sub32 q p, m⟩ :=
    ⟨hc.flags, htryBegin.lt, sub32_lt b a, hhandlerBegin.lt, sub32_lt q p, hm⟩
  by_cases hfilter : isFilter c.flags = true
  · obtain ⟨filter, m, hm⟩ := exists_moved target hknown hlt hback (hc.filter hfilter)
    refine ⟨_, hwritten m (by rw [if_pos hfilter, hm.written]), hbounded m hm.lt,
      ⟨c.flags, tryBegin, tryEnd, handlerBegin, handlerEnd, 0, filter⟩, ?_, ?_⟩
    · rw [hread, if_pos hfilter, hm.read]
      rfl
    · simp only [EHClause.region, htryBegin.position_eq, htryEnd.position_eq,
        hhandlerBegin.position_eq, hhandlerEnd, hm.position_eq, hfilter, if_true]
  · have hfalse := Bool.eq_false_iff.mpr hfilter
    refine ⟨_, hwritten c.classToken (if_neg hfilter), hbounded c.classToken (hc.classToken hfalse),
      ⟨c.flags, tryBegin, tryEnd, handlerBegin, handlerEnd, c.classToken, sentinel⟩, ?_, ?_⟩
    · rw [hread, if_neg hfilter]
      rfl
    · simp only [EHClause.region, htryBegin.position_eq, htryEnd.position_eq,
        hhandlerBegin.position_eq, hhandlerEnd, hfilter, Bool.false_eq_true, if_false]

end DdTrace.Profiler
