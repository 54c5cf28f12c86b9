import Mathlib.Data.List.Forall2
import DdTrace.Profiler.ILCode

/-!
# The code that is written

The last pass of `Export` writes the code of the instructions, with the offsets that it assigned as
the offsets of the targets.

* `placed`: the instructions with their offsets.
* `patch_cons`: what the second loop does for one instruction.
* `Lengthened`: what the passes change: short branches are made long.
* `Coded`: what it means that bytes are the code of instructions.
* `exportPass_done`: what the last pass writes.
* `coded_of_retry`: what all passes together write.

Sources: `il_rewriter.cpp`, `Export`.
-/

namespace DdTrace.Profiler

open DdTrace.Lib DdTrace.Lib.Outcomes
open ILRewriter (fitsInt8 signExtend store storeBefore deref layOut patch offsetOf exportPass)

/-! ## Offsets -/

/-- The instructions with their offsets. -/
def placed : List ILInstr → Nat → List ILInstr
  | [], _ => []
  | i :: il, offset => { i with offset := offset } :: placed il (offset + i.size)

/-- The offset of the first instruction, or of the sentinel if there is none. -/
theorem head_placed (il : List ILInstr) (offset : Nat) :
    ((placed il offset).head?.map ILInstr.offset).getD (offset + totalSize il) = offset := by
  cases il with
  | nil => simp [placed, totalSize]
  | cons i il => rfl

/-- The offset that a pass assigned to a target. -/
def targetOf (offsets : InstrRef → Result Nat) (i : ILInstr) : Nat :=
  match offsets i.target with
  | .ok offset => offset
  | .error _ => 0

theorem deref_eq_ok {α : Type} {x : Option α} {a : α} (h : deref x = .ok a) : x = some a := by
  cases x with
  | none => cases h
  | some b => exact congrArg some (Except.ok.inj h)

variable {il js : List ILInstr} {offset total base maxSize : Nat} {out out' : ByteBuffer}
  {offsets : InstrRef → Result Nat}

theorem store_spec {bytes : List UInt8} (h : store out offset bytes = .ok out') :
    out.write offset bytes = some out' := deref_eq_ok h

theorem storeBefore_spec {bytes : List UInt8} (h : storeBefore out offset bytes = .ok out') :
    bytes.length ≤ offset ∧ out.write (offset - bytes.length) bytes = some out' := by
  unfold storeBefore at h
  split at h
  case isTrue => cases h
  case isFalse hle => exact ⟨Nat.not_lt.mp hle, store_spec h⟩

/-- What `layOut` does for one instruction. -/
theorem layOut_cons {i : ILInstr}
    (h : layOut maxSize (i :: il) offset out = .ok (js, total, out')) :
    ∃ out₁ js₁, out.write offset i.head = some out₁ ∧
      layOut maxSize il (uint32 (offset + i.size)) out₁ = .ok (js₁, total, out') ∧
      js = { i with offset := offset } :: js₁ ∧ offset < maxSize := by
  rw [layOut] at h
  split at h
  case isTrue => cases h
  case isFalse hlt =>
  split at h
  case isTrue => cases h
  case isFalse =>
  obtain ⟨out₁, hstore, h⟩ := bind_eq_ok.mp h
  obtain ⟨⟨js₁, total₁, out₂⟩, hrest, h⟩ := bind_eq_ok.mp h
  obtain ⟨rfl, heq⟩ := Prod.mk.inj (Except.ok.inj h)
  obtain ⟨rfl, rfl⟩ := Prod.mk.inj heq
  exact ⟨out₁, js₁, store_spec hstore, hrest, rfl, Nat.not_le.mp hlt⟩

/-- The first offset that `layOut` assigns, which is that of the sentinel if there is no
instruction. -/
theorem layOut_head (h : layOut maxSize il offset out = .ok (js, total, out')) :
    (js.head?.map ILInstr.offset).getD total = offset := by
  cases il with
  | nil =>
      obtain ⟨rfl, heq⟩ := Prod.mk.inj (Except.ok.inj h)
      obtain ⟨rfl, rfl⟩ := Prod.mk.inj heq
      rfl
  | cons i il =>
      obtain ⟨out₁, js₁, -, -, rfl, -⟩ := layOut_cons h
      rfl

/-- `layOut` keeps the size of the buffer. -/
theorem size_of_layOut (h : layOut maxSize il offset out = .ok (js, total, out')) :
    out'.size = out.size := by
  induction il generalizing offset out js with
  | nil =>
      obtain ⟨rfl, heq⟩ := Prod.mk.inj (Except.ok.inj h)
      obtain ⟨rfl, rfl⟩ := Prod.mk.inj heq
      rfl
  | cons i il ih =>
      obtain ⟨out₁, js₁, hwrite, hrest, -, -⟩ := layOut_cons h
      rw [ih hrest, ByteBuffer.size_write hwrite]

/-! ## One instruction of the second loop -/

/-- What the second loop does for an instruction that it does not make longer: it writes the rest of
the operand of a branch, and nothing else. -/
structure Patched (offsets : InstrRef → Result Nat) (next base : Nat) (out out' : ByteBuffer)
    (i : ILInstr) : Prop where
  written :
    if i.isArm then out.write i.offset (i.tail next base (targetOf offsets i)) = some out'
    else if i.isBranch then (i.tail next base (targetOf offsets i)).length ≤ next ∧
      out.write (next - (i.tail next base (targetOf offsets i)).length)
        (i.tail next base (targetOf offsets i)) = some out'
    else out' = out
  target : i.isBranch = true → offsets i.target = .ok (targetOf offsets i)
  fits : s_OpCodeFlags i.opcode = .shortBranch →
    fitsInt8 (sub32 (targetOf offsets i) next) = true

/-- An instruction that is made longer: a short branch that does not reach its target. -/
structure Widened (offsets : InstrRef → Result Nat) (next : Nat) (i j : ILInstr) : Prop where
  short : s_OpCodeFlags i.opcode = .shortBranch
  far : fitsInt8 (sub32 (targetOf offsets i) next) = false
  target : offsets i.target = .ok (targetOf offsets i)
  widen : ∃ opcode, widen i.opcode = some opcode ∧ j = { i with opcode := opcode }

/-- **The second loop, one instruction after the other.** -/
theorem patch_cons {i : ILInstr} {js' : List ILInstr} {again : Bool}
    (h : patch offsets total (i :: js) base out = .ok (js', out', again)) :
    let next := (js.head?.map ILInstr.offset).getD total
    (∃ out₁ js₁, patch offsets total js (baseAfter i i.offset base) out₁ = .ok (js₁, out', again) ∧
      js' = i :: js₁ ∧ Patched offsets next base out out₁ i) ∨
    ∃ j js₁ again₁, patch offsets total js base out = .ok (js₁, out', again₁) ∧
      js' = j :: js₁ ∧ again = true ∧ Widened offsets next i j := by
  have htargetOf : ∀ {t : Nat}, offsets i.target = .ok t → targetOf offsets i = t := by
    intro t ht
    rw [targetOf, ht]
  intro next
  rw [patch] at h
  simp only at h
  by_cases hswitch : i.opcode = Cee.switch
  · rw [if_pos hswitch] at h
    obtain ⟨⟨js₁, out₁, tryAgain⟩, hrest, h⟩ := bind_eq_ok.mp h
    obtain ⟨rfl, heq⟩ := Prod.mk.inj (Except.ok.inj h)
    obtain ⟨rfl, rfl⟩ := Prod.mk.inj heq
    have hflags : s_OpCodeFlags i.opcode = .switch := by
      rw [hswitch]
      decide
    have harm : i.isArm = false := by
      rw [← Bool.not_eq_true, ILInstr.isArm_iff, hswitch]
      decide
    have hbranch : i.isBranch = false := by
      rw [ILInstr.isBranch, hflags]
      rfl
    refine Or.inl ⟨out, js₁, ?_, rfl, ?_, ?_, ?_⟩
    · rw [baseAfter, if_pos hswitch]
      exact hrest
    · rw [harm, hbranch]
      rfl
    · simp [hbranch]
    · simp [hflags]
  rw [if_neg hswitch] at h
  have hbase : baseAfter i i.offset base = base := if_neg hswitch
  rw [hbase]
  by_cases harm : i.opcode = Cee.switchArg
  · rw [if_pos harm] at h
    obtain ⟨t, ht, h⟩ := bind_eq_ok.mp h
    obtain ⟨out₁, hstore, h⟩ := bind_eq_ok.mp h
    obtain ⟨⟨js₁, out₂, tryAgain⟩, hrest, h⟩ := bind_eq_ok.mp h
    obtain ⟨rfl, heq⟩ := Prod.mk.inj (Except.ok.inj h)
    obtain ⟨rfl, rfl⟩ := Prod.mk.inj heq
    have hisArm := ILInstr.isArm_iff.mpr harm
    have hflags := ILInstr.flags_of_isArm hisArm
    refine Or.inl ⟨out₁, js₁, hrest, rfl, ?_, ?_, ?_⟩
    · rw [if_pos hisArm, ILInstr.tail, hflags, htargetOf ht]
      simp only [hisArm, if_true]
      exact store_spec hstore
    · intro _
      rw [htargetOf ht, ht]
    · simp [hflags]
  rw [if_neg harm] at h
  have hisArm : ¬ i.isArm = true := fun heq => harm (ILInstr.isArm_iff.mp heq)
  cases hflags : s_OpCodeFlags i.opcode with
  | shortBranch =>
      simp only [hflags] at h
      obtain ⟨t, ht, h⟩ := bind_eq_ok.mp h
      have hbranch : i.isBranch = true := by
        rw [ILInstr.isBranch, hflags]
        rfl
      split at h
      case isFalse hfar =>
        cases hwiden : widen i.opcode with
        | none =>
            rw [hwiden] at h
            cases h
        | some opcode =>
            rw [hwiden] at h
            obtain ⟨⟨js₁, out₂, tryAgain⟩, hrest, h⟩ := bind_eq_ok.mp h
            obtain ⟨rfl, heq⟩ := Prod.mk.inj (Except.ok.inj h)
            obtain ⟨rfl, rfl⟩ := Prod.mk.inj heq
            refine Or.inr ⟨{ i with opcode := opcode }, js₁, tryAgain, hrest, rfl, rfl, hflags, ?_,
              ?_, opcode, hwiden, rfl⟩
            · rw [htargetOf ht]
              exact Bool.eq_false_iff.mpr hfar
            · rw [htargetOf ht, ht]
      case isTrue hfits =>
        obtain ⟨out₁, hstore, h⟩ := bind_eq_ok.mp h
        obtain ⟨⟨js₁, out₂, tryAgain⟩, hrest, h⟩ := bind_eq_ok.mp h
        obtain ⟨rfl, heq⟩ := Prod.mk.inj (Except.ok.inj h)
        obtain ⟨rfl, rfl⟩ := Prod.mk.inj heq
        refine Or.inl ⟨out₁, js₁, hrest, rfl, ?_, ?_, ?_⟩
        · rw [if_neg hisArm, if_pos hbranch, ILInstr.tail, hflags, htargetOf ht]
          exact storeBefore_spec hstore
        · intro _
          rw [htargetOf ht, ht]
        · intro _
          rw [htargetOf ht]
          exact hfits
  | branch =>
      simp only [hflags] at h
      obtain ⟨t, ht, h⟩ := bind_eq_ok.mp h
      obtain ⟨out₁, hstore, h⟩ := bind_eq_ok.mp h
      obtain ⟨⟨js₁, out₂, tryAgain⟩, hrest, h⟩ := bind_eq_ok.mp h
      obtain ⟨rfl, heq⟩ := Prod.mk.inj (Except.ok.inj h)
      obtain ⟨rfl, rfl⟩ := Prod.mk.inj heq
      have hbranch : i.isBranch = true := by
        rw [ILInstr.isBranch, hflags]
        rfl
      refine Or.inl ⟨out₁, js₁, hrest, rfl, ?_, ?_, by simp [hflags]⟩
      · rw [if_neg hisArm, if_pos hbranch, ILInstr.tail, hflags, htargetOf ht]
        simp only [if_neg hisArm]
        exact storeBefore_spec hstore
      · intro _
        rw [htargetOf ht, ht]
  | none | arg8 | arg16 | arg32 | arg64 | switch =>
      simp only [hflags] at h
      obtain ⟨⟨js₁, out₂, tryAgain⟩, hrest, h⟩ := bind_eq_ok.mp h
      obtain ⟨rfl, heq⟩ := Prod.mk.inj (Except.ok.inj h)
      obtain ⟨rfl, rfl⟩ := Prod.mk.inj heq
      have hbranch : i.isBranch = false := by
        rw [ILInstr.isBranch, hflags]
        rfl
      refine Or.inl ⟨out, js₁, hrest, rfl, ?_, ?_, by simp [hflags]⟩
      · rw [if_neg hisArm, hbranch]
        rfl
      · simp [hbranch]

/-- A pass that makes nothing longer writes the operands of all branches. -/
theorem patched_of_not_again {i : ILInstr} {js' : List ILInstr}
    (h : patch offsets total (i :: js) base out = .ok (js', out', false)) :
    ∃ out₁ js₁, patch offsets total js (baseAfter i i.offset base) out₁ = .ok (js₁, out', false) ∧
      js' = i :: js₁ ∧
      Patched offsets ((js.head?.map ILInstr.offset).getD total) base out out₁ i := by
  rcases patch_cons h with hpatched | ⟨j, js₁, again₁, -, -, hfalse, -⟩
  · exact hpatched
  · cases hfalse

/-! ## Inside the buffer -/

namespace ILInstr

variable {i : ILInstr}

/-- What has no target is written in one piece. -/
theorem tail_eq_nil (h : i.isBranch = false) (next base target : Nat) :
    i.tail next base target = [] := by
  rw [tail]
  cases hflags : s_OpCodeFlags i.opcode with
  | shortBranch =>
      rw [isBranch, hflags] at h
      cases h
  | branch =>
      rw [isBranch, hflags] at h
      cases h
  | none => rfl
  | arg8 => rfl
  | arg16 => rfl
  | arg32 => rfl
  | arg64 => rfl
  | switch => rfl

theorem flags_of_isBranch (h : i.isBranch = true) :
    s_OpCodeFlags i.opcode = .shortBranch ∨ s_OpCodeFlags i.opcode = .branch := by
  rw [isBranch] at h
  cases hflags : s_OpCodeFlags i.opcode with
  | shortBranch => exact Or.inl rfl
  | branch => exact Or.inr rfl
  | none | arg8 | arg16 | arg32 | arg64 | switch =>
      rw [hflags] at h
      cases h

/-- Of a branch only the opcode is written at first, which is one byte. -/
theorem length_head_of_isBranch (h : i.isBranch = true) (harm : i.isArm = false) :
    i.head.length = 1 := by
  have hne : i.opcode ≠ Cee.switchArg := by
    rw [ne_eq, ← isArm_iff, harm]
    exact Bool.false_ne_true
  have hshort := lt_of_control (Or.inl h) hne
  have hcount : i.opcode < Cee.count := Nat.lt_trans hshort (by decide)
  have hargs : i.argBytes = [] := by
    rw [argBytes]
    rcases flags_of_isBranch h with hflags | hflags
    · rw [hflags]
    · rw [hflags]
  rw [head, hargs, List.append_nil, length_opcodeBytes hcount, if_neg (Nat.not_le.mpr hshort)]

/-- The operand of a branch has at most four bytes. -/
theorem length_tail_le (next base target : Nat) : (i.tail next base target).length ≤ 4 := by
  rw [tail]
  cases s_OpCodeFlags i.opcode with
  | shortBranch =>
      rw [LittleEndian.length_encode]
      omega
  | branch => exact Nat.le_of_eq (LittleEndian.length_encode _ _)
  | none => exact Nat.zero_le _
  | arg8 => exact Nat.zero_le _
  | arg16 => exact Nat.zero_le _
  | arg32 => exact Nat.zero_le _
  | arg64 => exact Nat.zero_le _
  | switch => exact Nat.zero_le _

theorem length_head_add_tail (i : ILInstr) (next base target : Nat) :
    i.head.length + (i.tail next base target).length = i.size := by
  rw [← List.length_append]
  exact i.length_bytes next base target

end ILInstr

/-- What is written of an instruction by the two loops is inside the buffer. -/
theorem size_le_of_written {i : ILInstr} {out₁ out₂ : ByteBuffer} {next target : Nat}
    (hsame : out₁.size = out.size) (hsize : out.size < 2 ^ 32)
    (hhead : offset + i.head.length ≤ out.size) (hnext : next = uint32 (offset + i.size))
    (h : if i.isArm then out₁.write offset (i.tail next base target) = some out₂
      else if i.isBranch then (i.tail next base target).length ≤ next ∧
        out₁.write (next - (i.tail next base target).length) (i.tail next base target) = some out₂
      else out₂ = out₁) : offset + i.size ≤ out.size := by
  have hlength := i.length_head_add_tail next base target
  by_cases harm : i.isArm = true
  · rw [if_pos harm] at h
    have hle := ByteBuffer.le_of_write h
    have hnil : i.head.length = 0 := by
      rw [ILInstr.head, ILInstr.opcodeBytes_of_isArm harm, ILInstr.argBytes,
        ILInstr.flags_of_isArm harm]
      rfl
    omega
  · rw [if_neg harm] at h
    by_cases hbranch : i.isBranch = true
    · rw [if_pos hbranch] at h
      have hone := ILInstr.length_head_of_isBranch hbranch (Bool.not_eq_true _ ▸ harm)
      have hfour := i.length_tail_le next base target
      obtain ⟨hle, hwrite⟩ := h
      have hinside := ByteBuffer.le_of_write hwrite
      -- an offset that wraps around is too small for the operand to end there
      generalize (i.tail next base target).length = length at hle hlength hfour hinside
      rw [hnext, uint32] at hle hinside
      omega
    · rw [ILInstr.tail_eq_nil (Bool.not_eq_true _ ▸ hbranch), List.length_nil] at hlength
      omega

/-- All that a pass writes which lengthens nothing is inside the buffer, so that its offsets do not
wrap around. -/
theorem totalSize_le_of_pass {out₁ out₂ : ByteBuffer} {js' : List ILInstr}
    (hsame : out₁.size = out.size) (hsize : out.size < 2 ^ 32)
    (hoffset : offset ≤ out.size) (hlay : layOut maxSize il offset out = .ok (js, total, out'))
    (hpatch : patch offsets total js base out₁ = .ok (js', out₂, false)) :
    offset + totalSize il ≤ out.size := by
  induction il generalizing offset out out₁ js js' base with
  | nil =>
      rw [totalSize, List.map_nil, List.sum_nil]
      exact hoffset
  | cons i il ih =>
      obtain ⟨mid, js₁, hwrite, hrest, rfl, -⟩ := layOut_cons hlay
      obtain ⟨mid₁, js₂, hpatch, -, ⟨hwritten, -, -⟩⟩ := patched_of_not_again hpatch
      have hnext := layOut_head hrest
      have hhead := ByteBuffer.le_of_write hwrite
      have hle : offset + i.size ≤ out.size :=
        size_le_of_written hsame hsize hhead hnext hwritten
      have hmid : mid.size = out.size := ByteBuffer.size_write hwrite
      have hmid₁ : mid₁.size = out₁.size := by
        split at hwritten
        · exact ByteBuffer.size_write hwritten
        · split at hwritten
          · exact ByteBuffer.size_write hwritten.2
          · rw [hwritten]
      rw [uint32_of_lt (by omega)] at hrest
      rw [totalSize_cons, ← Nat.add_assoc, ← hmid]
      exact ih (by rw [hmid₁, hmid]; exact hsame) (by rw [hmid]; exact hsize) (by rw [hmid]; exact hle)
        hrest hpatch

/-! ## What is written -/

/-- Offsets that do not wrap around are the sums of the sizes. -/
theorem placed_of_layOut (hlt : offset + totalSize il < 2 ^ 32)
    (h : layOut maxSize il offset out = .ok (js, total, out')) :
    js = placed il offset ∧ total = offset + totalSize il := by
  induction il generalizing offset out js with
  | nil =>
      obtain ⟨rfl, heq⟩ := Prod.mk.inj (Except.ok.inj h)
      obtain ⟨rfl, rfl⟩ := Prod.mk.inj heq
      exact ⟨rfl, rfl⟩
  | cons i il ih =>
      rw [totalSize_cons, ← Nat.add_assoc] at hlt ⊢
      obtain ⟨out₁, js₁, -, hrest, rfl, -⟩ := layOut_cons h
      rw [uint32_of_lt (by omega)] at hrest
      obtain ⟨rfl, htotal⟩ := ih hlt hrest
      exact ⟨rfl, htotal⟩

/-- The bytes before the first offset are not written. -/
theorem bytes_of_layOut (hlt : offset + totalSize il < 2 ^ 32)
    (h : layOut maxSize il offset out = .ok (js, total, out')) {p : Nat} (hp : p < offset) :
    out'.bytes p = out.bytes p := by
  induction il generalizing offset out js with
  | nil =>
      obtain ⟨rfl, heq⟩ := Prod.mk.inj (Except.ok.inj h)
      obtain ⟨rfl, rfl⟩ := Prod.mk.inj heq
      rfl
  | cons i il ih =>
      rw [totalSize_cons, ← Nat.add_assoc] at hlt
      obtain ⟨out₁, js₁, hwrite, hrest, -, -⟩ := layOut_cons h
      rw [uint32_of_lt (by omega)] at hrest
      rw [ih hlt hrest (by omega), ByteBuffer.bytes_write_of_notMem hwrite (Or.inl hp)]

/-- What is written in one piece is where it belongs. -/
def HeadsAt (out : ByteBuffer) : List ILInstr → Nat → Prop
  | [], _ => True
  | i :: il, offset => out.slice offset i.head.length = i.head ∧ HeadsAt out il (offset + i.size)

theorem HeadsAt.congr (h : HeadsAt out il offset)
    (heq : ∀ p, offset ≤ p → out'.bytes p = out.bytes p) : HeadsAt out' il offset := by
  induction il generalizing offset with
  | nil => trivial
  | cons i il ih =>
      refine ⟨?_, ih h.2 fun p hp => heq p (by omega)⟩
      rw [ByteBuffer.slice_congr fun p hp _ => heq p hp]
      exact h.1

theorem length_head_le (i : ILInstr) : i.head.length ≤ i.size := by
  have hlength := i.length_head_add_tail 0 0 0
  omega

theorem headsAt_of_layOut (hlt : offset + totalSize il < 2 ^ 32)
    (h : layOut maxSize il offset out = .ok (js, total, out')) : HeadsAt out' il offset := by
  induction il generalizing offset out js with
  | nil => trivial
  | cons i il ih =>
      rw [totalSize_cons, ← Nat.add_assoc] at hlt
      obtain ⟨out₁, js₁, hwrite, hrest, -, -⟩ := layOut_cons h
      rw [uint32_of_lt (by omega)] at hrest
      have hle := length_head_le i
      refine ⟨?_, ih hlt hrest⟩
      rw [ByteBuffer.slice_congr fun p _ hp => bytes_of_layOut hlt hrest (by omega)]
      exact ByteBuffer.slice_write_self hwrite

/-- The second loop writes the operand behind the opcode. -/
theorem tail_of_written {i : ILInstr} {out₁ : ByteBuffer} {next target : Nat}
    (hnext : next = offset + i.size)
    (h : if i.isArm then out.write offset (i.tail next base target) = some out₁
      else if i.isBranch then (i.tail next base target).length ≤ next ∧
        out.write (next - (i.tail next base target).length) (i.tail next base target) = some out₁
      else out₁ = out) :
    (∀ p, p < offset + i.head.length ∨ next ≤ p → out₁.bytes p = out.bytes p) ∧
      out₁.slice (offset + i.head.length) (i.tail next base target).length =
        i.tail next base target := by
  have hlength := i.length_head_add_tail next base target
  have hwrite (hw : out.write (offset + i.head.length) (i.tail next base target) = some out₁) :
      (∀ p, p < offset + i.head.length ∨ next ≤ p → out₁.bytes p = out.bytes p) ∧
        out₁.slice (offset + i.head.length) (i.tail next base target).length =
          i.tail next base target := by
    refine ⟨fun p hp => ?_, ByteBuffer.slice_write_self hw⟩
    apply ByteBuffer.bytes_write_of_notMem hw
    omega
  by_cases harm : i.isArm = true
  · rw [if_pos harm] at h
    have hnil : i.head.length = 0 := by
      rw [ILInstr.head, ILInstr.opcodeBytes_of_isArm harm, ILInstr.argBytes,
        ILInstr.flags_of_isArm harm]
      rfl
    apply hwrite
    rw [hnil]
    exact h
  · rw [if_neg harm] at h
    by_cases hbranch : i.isBranch = true
    · rw [if_pos hbranch] at h
      apply hwrite
      have heq : offset + i.head.length = next - (i.tail next base target).length := by omega
      rw [heq]
      exact h.2
    · rw [if_neg hbranch] at h
      rw [ILInstr.tail_eq_nil (Bool.not_eq_true _ ▸ hbranch), h]
      exact ⟨fun _ _ => rfl, ByteBuffer.slice_zero _ _⟩

/-- **What the second loop leaves behind** is the code, for the offsets that were assigned to the
targets, and all short branches reach them. -/
theorem code_of_patch {out₁ : ByteBuffer} {js' : List ILInstr} (hheads : HeadsAt out il offset)
    (h : patch offsets (offset + totalSize il) (placed il offset) base out = .ok (js', out₁, false)) :
    js' = placed il offset ∧ (∀ p < offset, out₁.bytes p = out.bytes p) ∧
      out₁.slice offset (totalSize il) = codeFrom (targetOf offsets) il offset base ∧
      Reaches (targetOf offsets) il offset ∧
      ∀ i ∈ il, i.isBranch = true → offsets i.target = .ok (targetOf offsets i) := by
  induction il generalizing offset out js' base with
  | nil =>
      obtain ⟨rfl, heq⟩ := Prod.mk.inj (Except.ok.inj h)
      obtain ⟨rfl, -⟩ := Prod.mk.inj heq
      exact ⟨rfl, fun _ _ => rfl, rfl, trivial, fun i hi => absurd hi List.not_mem_nil⟩
  | cons i il ih =>
      obtain ⟨mid, js₁, hrest, rfl, ⟨hwritten, htarget, hfits⟩⟩ := patched_of_not_again h
      have hnext : ((placed il (offset + i.size)).head?.map ILInstr.offset).getD
          (offset + totalSize (i :: il)) = offset + i.size := by
        rw [totalSize_cons, ← Nat.add_assoc, head_placed]
      rw [hnext] at hwritten hfits
      obtain ⟨hframe, htail⟩ :
          (∀ p, p < offset + i.head.length ∨ offset + i.size ≤ p → mid.bytes p = out.bytes p) ∧
          mid.slice (offset + i.head.length)
              (i.tail (offset + i.size) base (targetOf offsets i)).length =
            i.tail (offset + i.size) base (targetOf offsets i) := tail_of_written rfl hwritten
      have htotal : offset + totalSize (i :: il) = offset + i.size + totalSize il := by
        rw [totalSize_cons, Nat.add_assoc]
      rw [htotal] at hrest
      have hheads₁ : HeadsAt mid il (offset + i.size) :=
        hheads.2.congr fun p hp => hframe p (Or.inr hp)
      obtain ⟨rfl, hbefore, hcode, hreaches, htargets⟩ :=
        ih hheads₁ hrest
      have hle := length_head_le i
      refine ⟨rfl, fun p hp => ?_, ?_, ⟨hfits, hreaches⟩, List.forall_mem_cons.mpr
        ⟨htarget, htargets⟩⟩
      · rw [hbefore p (by omega), hframe p (Or.inl (by omega))]
      · have hown : out₁.slice offset i.size =
            i.head ++ i.tail (offset + i.size) base (targetOf offsets i) := by
          rw [ByteBuffer.slice_congr fun p _ hp => hbefore p hp,
            ← i.length_head_add_tail (offset + i.size) base (targetOf offsets i),
            ByteBuffer.slice_add, i.length_head_add_tail]
          refine congrArg₂ (· ++ ·) ?_ htail
          rw [ByteBuffer.slice_congr fun p _ hp => hframe p (Or.inl hp)]
          exact hheads.1
        rw [totalSize_cons, ByteBuffer.slice_add, hown, hcode, codeFrom]
        rfl

/-! ## What the passes change -/

/-- What the passes make of an instruction: it gets an offset, and a short branch may get its long
form. -/
structure Lengthened (i j : ILInstr) : Prop where
  ref : j.ref = i.ref
  arg : j.arg = i.arg
  target : j.target = i.target
  opcode : j.opcode = i.opcode ∨
    s_OpCodeFlags i.opcode = .shortBranch ∧ widen i.opcode = some j.opcode

namespace Lengthened

variable {i j k : ILInstr}

theorem refl (i : ILInstr) : Lengthened i i := ⟨rfl, rfl, rfl, Or.inl rfl⟩

theorem withOffset (i : ILInstr) (offset : Nat) : Lengthened i { i with offset := offset } :=
  ⟨rfl, rfl, rfl, Or.inl rfl⟩

/-- The long form is no short branch. -/
theorem flags_of_widened (hshort : s_OpCodeFlags i.opcode = .shortBranch)
    (h : widen i.opcode = some j.opcode) : s_OpCodeFlags j.opcode = .branch ∧ IsOpcode j.opcode := by
  obtain ⟨long, hlong, hflags, hop⟩ := widen_shortBranch hshort
  obtain rfl := Option.some.inj (h.symm.trans hlong)
  exact ⟨hflags, hop⟩

theorem trans (h : Lengthened i j) (h' : Lengthened j k) : Lengthened i k := by
  refine ⟨h'.ref.trans h.ref, h'.arg.trans h.arg, h'.target.trans h.target, ?_⟩
  rcases h'.opcode with heq | ⟨hshort, hwiden⟩
  · rw [heq]
    exact h.opcode
  · rcases h.opcode with heq | ⟨hshort', hwiden'⟩
    · rw [heq] at hshort hwiden
      exact Or.inr ⟨hshort, hwiden⟩
    · rw [(flags_of_widened hshort' hwiden').1] at hshort
      cases hshort

/-- An arm stays an arm, and nothing becomes one. -/
theorem isArm_eq (h : Lengthened i j) : j.isArm = i.isArm := by
  rcases h.opcode with heq | ⟨hshort, hwiden⟩
  · rw [ILInstr.isArm, ILInstr.isArm, heq]
  · have harm : i.isArm = false := by
      rw [← Bool.not_eq_true]
      intro harm
      rw [ILInstr.flags_of_isArm harm] at hshort
      cases hshort
    rw [ILInstr.isArm_eq_false (flags_of_widened hshort hwiden).2, harm]

/-- A switch stays a switch, and nothing becomes one. -/
theorem switch_iff (h : Lengthened i j) : j.opcode = Cee.switch ↔ i.opcode = Cee.switch := by
  rcases h.opcode with heq | ⟨hshort, hwiden⟩
  · rw [heq]
  · refine iff_of_false (fun hswitch => ?_) fun hswitch => ?_
    · have hflags := (flags_of_widened hshort hwiden).1
      rw [hswitch] at hflags
      exact absurd hflags (by decide)
    · rw [hswitch] at hshort
      exact absurd hshort (by decide)

theorem known (h : Lengthened i j) (hi : i.Known) : j.Known := by
  rcases h.opcode with heq | ⟨hshort, hwiden⟩
  · rw [ILInstr.Known, h.isArm_eq, heq]
    exact hi
  · exact Or.inl (flags_of_widened hshort hwiden).2

/-- A branch stays a branch, and nothing becomes one. -/
theorem isBranch_eq (h : Lengthened i j) : j.isBranch = i.isBranch := by
  rcases h.opcode with heq | ⟨hshort, hwiden⟩
  · rw [ILInstr.isBranch, ILInstr.isBranch, heq]
  · rw [ILInstr.isBranch, ILInstr.isBranch, (flags_of_widened hshort hwiden).1, hshort]
    rfl

end Lengthened

/-- The instructions after some passes. -/
abbrev AllLengthened (il js : List ILInstr) : Prop := List.Forall₂ Lengthened il js

theorem AllLengthened.trans {ks : List ILInstr} (h : AllLengthened il js)
    (h' : AllLengthened js ks) : AllLengthened il ks := by
  induction h generalizing ks with
  | nil => exact h'
  | cons hij _ ih =>
      obtain ⟨k, ks, hjk, hks, rfl⟩ := List.forall₂_cons_left_iff.mp h'
      exact .cons (hij.trans hjk) (ih hks)

theorem AllLengthened.refl (il : List ILInstr) : AllLengthened il il :=
  List.forall₂_same.mpr fun i _ => Lengthened.refl i

/-- The number of short branches. -/
def shortBranches (il : List ILInstr) : Nat :=
  il.countP fun i => s_OpCodeFlags i.opcode = .shortBranch

theorem allLengthened_of_layOut (h : layOut maxSize il offset out = .ok (js, total, out')) :
    AllLengthened il js ∧ shortBranches js = shortBranches il := by
  induction il generalizing offset out js with
  | nil =>
      obtain ⟨rfl, -⟩ := Prod.mk.inj (Except.ok.inj h)
      exact ⟨.nil, rfl⟩
  | cons i il ih =>
      obtain ⟨out₁, js₁, -, hrest, rfl, -⟩ := layOut_cons h
      obtain ⟨hjs, hcount⟩ := ih hrest
      refine ⟨.cons (Lengthened.withOffset i offset) hjs, ?_⟩
      rw [shortBranches, shortBranches, List.countP_cons, List.countP_cons]
      exact congrArg₂ (· + ·) hcount rfl

/-- The second loop makes short branches longer, if any, and asks for another pass then. -/
theorem allLengthened_of_patch {js' : List ILInstr} {again : Bool}
    (h : patch offsets total js base out = .ok (js', out', again)) :
    AllLengthened js js' ∧ out'.size = out.size ∧
      shortBranches js' + (if again then 1 else 0) ≤ shortBranches js := by
  induction js generalizing out js' base again with
  | nil =>
      obtain ⟨rfl, heq⟩ := Prod.mk.inj (Except.ok.inj h)
      obtain ⟨rfl, rfl⟩ := Prod.mk.inj heq
      exact ⟨.nil, rfl, Nat.le_refl _⟩
  | cons i js ih =>
      rcases patch_cons h with ⟨out₁, js₁, hrest, rfl, hpatched⟩ |
        ⟨j, js₁, again₁, hrest, rfl, rfl, hwidened⟩
      · obtain ⟨hjs, hsize, hcount⟩ := ih hrest
        refine ⟨.cons (Lengthened.refl i) hjs, ?_, ?_⟩
        · rw [hsize]
          have hwritten := hpatched.written
          split at hwritten
          · exact ByteBuffer.size_write hwritten
          · split at hwritten
            · exact ByteBuffer.size_write hwritten.2
            · rw [hwritten]
        · rw [shortBranches, List.countP_cons, shortBranches, List.countP_cons]
          unfold shortBranches at hcount
          omega
      · obtain ⟨hjs, hsize, hcount⟩ := ih hrest
        obtain ⟨opcode, hwiden, rfl⟩ := hwidened.widen
        have hlong := (Lengthened.flags_of_widened (j := { i with opcode := opcode })
          hwidened.short hwiden).1
        refine ⟨.cons ⟨rfl, rfl, rfl, Or.inr ⟨hwidened.short, hwiden⟩⟩ hjs, hsize, ?_⟩
        have hi : decide (s_OpCodeFlags i.opcode = .shortBranch) = true :=
          decide_eq_true hwidened.short
        have hj : decide (s_OpCodeFlags opcode = .shortBranch) = false := by
          rw [hlong]
          rfl
        rw [shortBranches, List.countP_cons, shortBranches, List.countP_cons, hi, hj]
        unfold shortBranches at hcount
        simp only [if_true, Bool.false_eq_true, if_false]
        split at hcount
        · omega
        · omega

/-! ## The passes -/

/-- A pass that asks for another one has made a short branch longer. -/
theorem exportPass_again {il' : List ILInstr}
    (h : exportPass maxSize (il, out) = .ok (.again (il', out'))) :
    AllLengthened il il' ∧ out'.size = out.size ∧ shortBranches il' < shortBranches il := by
  rw [exportPass] at h
  obtain ⟨⟨js, total, mid⟩, hlay, h⟩ := bind_eq_ok.mp h
  obtain ⟨⟨js', out₁, tryAgain⟩, hpatch, h⟩ := bind_eq_ok.mp h
  cases tryAgain with
  | false => cases Except.ok.inj h
  | true =>
      cases Except.ok.inj h
      obtain ⟨hjs, hsize, hcount⟩ := allLengthened_of_patch hpatch
      obtain ⟨hil, hsame⟩ := allLengthened_of_layOut hlay
      refine ⟨hil.trans hjs, hsize.trans (size_of_layOut hlay), ?_⟩
      rw [← hsame]
      exact hcount

/-- What the last pass writes: the code of instructions, with the offsets of the targets. -/
structure Coded (il : List ILInstr) (target : ILInstr → Nat) (code : List UInt8) : Prop where
  code : code = codeFrom target il 0 0
  lt : totalSize il + 1 < 2 ^ 32
  reaches : Reaches target il 0
  target : ∀ i ∈ il, i.isBranch = true →
    offsetOf (placed il 0) (totalSize il) i.target = .ok (target i)

/-- **The last pass** writes the code of the instructions, for the offsets that it assigned. -/
theorem exportPass_done (hsize : out.size + 1 < 2 ^ 32)
    {code : List UInt8} (h : exportPass maxSize (il, out) = .ok (.done (js, total, code))) :
    js = placed il 0 ∧ total = totalSize il ∧
      Coded il (targetOf (offsetOf (placed il 0) (totalSize il))) code := by
  rw [exportPass] at h
  obtain ⟨⟨js₁, total₁, mid⟩, hlay, h⟩ := bind_eq_ok.mp h
  obtain ⟨⟨js₂, out₁, tryAgain⟩, hpatch, hend⟩ := bind_eq_ok.mp h
  cases tryAgain with
  | true => cases Except.ok.inj hend
  | false =>
      have hle := totalSize_le_of_pass (size_of_layOut hlay)
        (Nat.lt_of_succ_lt hsize) (Nat.zero_le _) hlay
        hpatch
      have hle : 0 + totalSize il ≤ out.size := hle
      have hlt : 0 + totalSize il < 2 ^ 32 := by omega
      obtain ⟨rfl, rfl⟩ := placed_of_layOut hlt hlay
      obtain ⟨hjs, -, hcode, hreaches, htarget⟩ :=
        code_of_patch (headsAt_of_layOut hlt hlay) hpatch
      rw [hjs] at hend
      have heq : (placed il 0, 0 + totalSize il, out₁.slice 0 (0 + totalSize il)) =
          (js, total, code) := Round.done.inj (Except.ok.inj hend)
      obtain ⟨rfl, hpair⟩ := Prod.mk.inj heq
      obtain ⟨rfl, rfl⟩ := Prod.mk.inj hpair
      rw [Nat.zero_add] at hcode hreaches htarget hlt ⊢
      exact ⟨rfl, rfl, hcode, by omega, hreaches, htarget⟩

/-- **What `Export` writes** is the code of the instructions, but for short branches that got their
long form. -/
theorem coded_of_retry (hsize : out.size + 1 < 2 ^ 32) {fuel : Nat}
    {code : List UInt8} (h : retry (exportPass maxSize) .undefined fuel (il, out) =
      .ok (js, total, code)) :
    ∃ il', AllLengthened il il' ∧ js = placed il' 0 ∧ total = totalSize il' ∧
      Coded il' (targetOf (offsetOf (placed il' 0) (totalSize il'))) code := by
  have hstep : ∀ state state' : List ILInstr × ByteBuffer,
      AllLengthened il state.1 ∧ state.2.size = out.size →
      exportPass maxSize state = .ok (.again state') →
      AllLengthened il state'.1 ∧ state'.2.size = out.size := by
    rintro ⟨js, mid⟩ ⟨js', mid'⟩ ⟨hjs, hmid⟩ hpass
    obtain ⟨hjs', hmid', -⟩ := exportPass_again hpass
    exact ⟨hjs.trans hjs', hmid'.trans hmid⟩
  obtain ⟨⟨il', mid⟩, ⟨hil', hmid⟩, hdone⟩ := retry_eq_ok hstep ⟨AllLengthened.refl il, rfl⟩ h
  have hmid : mid.size + 1 < 2 ^ 32 := by
    have hmid : mid.size = out.size := hmid
    rw [hmid]
    exact hsize
  exact ⟨il', hil', exportPass_done hmid hdone⟩

end DdTrace.Profiler
