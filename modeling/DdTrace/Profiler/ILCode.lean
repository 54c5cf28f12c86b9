import DdTrace.Profiler.ILRewriter

/-!
# The code of a list of instructions

What the bytes of a list of instructions are, and that the reader finds the list in them.

* `codeFrom`: the bytes, for given offsets of the targets.
* `Shaped`: every switch is followed by its arms, and there are no others.
* `decodedFrom`: what the reader makes of the bytes.
* `importLoop_codeFrom`: the reader does find it.
* `codeFrom_of_importLoop`: whatever the reader accepts is the code of the list it finds.

Sources: `il_rewriter.cpp`, `ImportIL`.
-/

namespace DdTrace.Profiler

open DdTrace.Lib DdTrace.Lib.Outcomes
open ILRewriter (fitsInt8 signExtend)

/-! ## Numbers of 32 bits -/

theorem uint32_lt (n : Nat) : uint32 n < 2 ^ 32 := Nat.mod_lt _ (by decide)

theorem uint32_of_lt {n : Nat} (h : n < 2 ^ 32) : uint32 n = n := Nat.mod_eq_of_lt h

theorem sub32_lt (a b : Nat) : sub32 a b < 2 ^ 32 := uint32_lt _

/-- A difference is added back. -/
theorem uint32_add_sub32 {a b : Nat} (ha : a < 2 ^ 32) (hb : b < 2 ^ 32) :
    uint32 (b + sub32 a b) = a := by
  unfold sub32 uint32
  omega

/-- The difference from a sum is what was added. -/
theorem sub32_uint32_add {a b : Nat} (ha : a < 2 ^ 32) (hb : b < 2 ^ 32) :
    sub32 (uint32 (b + a)) b = a := by
  unfold sub32 uint32
  omega

/-- The last byte of a small difference determines it. -/
theorem signExtend_mod {d : Nat} (hd : d < 2 ^ 32) (h : fitsInt8 d = true) :
    signExtend (d % 256) = d := by
  unfold signExtend
  simp only [fitsInt8, Bool.or_eq_true, decide_eq_true_eq] at h
  split
  · omega
  · omega

/-- A byte is a small difference, and its own last byte. -/
theorem fitsInt8_signExtend {b : Nat} (hb : b < 256) :
    fitsInt8 (signExtend b) = true ∧ signExtend b < 2 ^ 32 ∧
      signExtend b % 256 = b := by
  unfold signExtend fitsInt8
  simp only [Bool.or_eq_true, decide_eq_true_eq]
  split
  · omega
  · omega

/-! ## The bytes of a list of instructions -/

namespace ILInstr

/-- An arm of a switch. -/
def isArm (i : ILInstr) : Bool := i.opcode = Cee.switchArg

/-- An instruction with a target. -/
def isBranch (i : ILInstr) : Bool := (s_OpCodeFlags i.opcode).isBranch

/-- The opcode is one of the table or that of an arm. -/
def Known (i : ILInstr) : Prop := IsOpcode i.opcode ∨ i.isArm = true

/-- The bytes of the operand of a branch: `next` is the offset behind it, `base` that of its switch,
`target` that of its target. -/
def tail (i : ILInstr) (next base target : Nat) : List UInt8 :=
  match s_OpCodeFlags i.opcode with
  | .shortBranch => LittleEndian.encode 1 (sub32 target next)
  | .branch => LittleEndian.encode 4 (sub32 target (if i.isArm then base else next))
  | _ => []

/-- The operand, as the reader finds it. -/
def operand (i : ILInstr) (target : Nat) : Nat :=
  match s_OpCodeFlags i.opcode with
  | .shortBranch => target
  | .branch => target
  | .switch => i.arg % 256 ^ 4
  | flags => i.arg % 256 ^ flags.size

theorem length_argBytes_add_tail (i : ILInstr) (next base target : Nat) :
    (opcodeBytes i.opcode).length + i.argBytes.length + (i.tail next base target).length =
      i.size := by
  unfold argBytes tail size
  cases s_OpCodeFlags i.opcode with
  | none => simp
  | arg8 => simp
  | arg16 => simp
  | arg32 => simp
  | arg64 => simp
  | shortBranch => simp
  | branch => simp
  | switch => simp

theorem length_bytes (i : ILInstr) (next base target : Nat) :
    (i.head ++ i.tail next base target).length = i.size := by
  rw [head, List.length_append, List.length_append]
  exact i.length_argBytes_add_tail next base target

theorem isArm_iff {i : ILInstr} : i.isArm = true ↔ i.opcode = Cee.switchArg := decide_eq_true_iff

/-- The flags of an arm. -/
theorem flags_of_isArm {i : ILInstr} (h : i.isArm = true) : s_OpCodeFlags i.opcode = .branch := by
  have harm := isArm_iff.mp h
  rw [harm]
  decide

theorem opcodeBytes_of_isArm {i : ILInstr} (h : i.isArm = true) : opcodeBytes i.opcode = [] := by
  have harm := isArm_iff.mp h
  rw [harm]
  decide

/-- An arm has four bytes. -/
theorem size_of_isArm {i : ILInstr} (h : i.isArm = true) : i.size = 4 := by
  rw [size, flags_of_isArm h, opcodeBytes_of_isArm h]
  rfl

theorem isArm_eq_false {i : ILInstr} (h : IsOpcode i.opcode) : i.isArm = false := by
  have hlt : i.opcode < Cee.count := h.1
  rw [← Bool.not_eq_true, isArm_iff]
  simp only [Cee.count, Cee.switchArg] at hlt ⊢
  omega

/-- An opcode of the table has one byte or two. -/
theorem length_opcodeBytes {opcode : Nat} (h : opcode < Cee.count) :
    (opcodeBytes opcode).length = if 0x100 ≤ opcode then 2 else 1 := by
  rw [opcodeBytes, if_pos h]
  split
  · rfl
  · rfl

/-- An instruction is not empty. -/
theorem Known.pos_size {i : ILInstr} (h : i.Known) : 0 < i.size := by
  rcases h with hop | harm
  · rw [size, length_opcodeBytes hop.1]
    split
    · omega
    · omega
  · rw [size_of_isArm harm]
    omega

end ILInstr

/-- The base of the arms behind an instruction. -/
def baseAfter (i : ILInstr) (offset base : Nat) : Nat :=
  if i.opcode = Cee.switch then uint32 (offset + 1 + 4 * (i.arg + 1)) else base

/-- The bytes of instructions from an offset on, for given offsets of the targets; `base` is the
base of the arms at the beginning. -/
def codeFrom (target : ILInstr → Nat) : List ILInstr → Nat → Nat → List UInt8
  | [], _, _ => []
  | i :: il, offset, base =>
      i.head ++ i.tail (offset + i.size) base (target i) ++
        codeFrom target il (offset + i.size) (baseAfter i offset base)

/-- Every switch is followed by its arms, and there are no others but `pending` ones at the
beginning. -/
def Shaped : List ILInstr → Nat → Prop
  | [], pending => pending = 0
  | i :: il, pending =>
      if i.isArm then 0 < pending ∧ Shaped il (pending - 1)
      else pending = 0 ∧ Shaped il (if i.opcode = Cee.switch then uint32 i.arg else 0)

/-- The short branches reach their targets. -/
def Reaches (target : ILInstr → Nat) : List ILInstr → Nat → Prop
  | [], _ => True
  | i :: il, offset =>
      (s_OpCodeFlags i.opcode = .shortBranch →
        fitsInt8 (sub32 (target i) (offset + i.size)) = true) ∧
      Reaches target il (offset + i.size)

/-- What the reader makes of the bytes of instructions; `n` instructions were made before. -/
def decodedFrom (target : ILInstr → Nat) : List ILInstr → Nat → Nat → List (Option Nat × ILInstr)
  | [], _, _ => []
  | i :: il, offset, n =>
      (if i.isArm then none else some offset,
        { ref := n + 1, opcode := i.opcode, arg := i.operand (target i) }) ::
        decodedFrom target il (offset + i.size) (n + 1)

/-- The number of bytes of instructions. -/
def totalSize (il : List ILInstr) : Nat := (il.map ILInstr.size).sum

@[simp] theorem totalSize_cons (i : ILInstr) (il : List ILInstr) :
    totalSize (i :: il) = i.size + totalSize il := by simp [totalSize]

@[simp] theorem totalSize_append (il il' : List ILInstr) :
    totalSize (il ++ il') = totalSize il + totalSize il' := by simp [totalSize]

variable {target : ILInstr → Nat} {il il' : List ILInstr} {offset base n : Nat}

theorem length_codeFrom : (codeFrom target il offset base).length = totalSize il := by
  induction il generalizing offset base with
  | nil => rfl
  | cons i il ih =>
      rw [codeFrom, List.length_append, i.length_bytes, ih, totalSize_cons]

theorem length_le_totalSize (h : ∀ i ∈ il, i.Known) : il.length ≤ totalSize il := by
  induction il with
  | nil => exact Nat.zero_le _
  | cons i il ih =>
      have hpos := (h i (List.mem_cons_self ..)).pos_size
      have hle := ih fun j hj => h j (List.mem_cons_of_mem i hj)
      rw [List.length_cons, totalSize_cons]
      omega

theorem length_decodedFrom : (decodedFrom target il offset n).length = il.length := by
  induction il generalizing offset n with
  | nil => rfl
  | cons i il ih => rw [decodedFrom, List.length_cons, ih, List.length_cons]

theorem decodedFrom_append : decodedFrom target (il ++ il') offset n =
    decodedFrom target il offset n ++
      decodedFrom target il' (offset + totalSize il) (n + il.length) := by
  induction il generalizing offset n with
  | nil => rfl
  | cons i il ih =>
      have hlen : n + (il.length + 1) = n + 1 + il.length := by omega
      rw [List.cons_append, decodedFrom, ih, totalSize_cons, List.length_cons,
        ← Nat.add_assoc offset, hlen]
      rfl

/-- The arms at the beginning. -/
theorem Shaped.split {pending : Nat} (h : Shaped il pending) : ∃ arms rest, il = arms ++ rest ∧
    arms.length = pending ∧ (∀ i ∈ arms, i.isArm = true) ∧ Shaped rest 0 := by
  induction il generalizing pending with
  | nil => exact ⟨[], [], rfl, h.symm, by simp, rfl⟩
  | cons i il ih =>
      rw [Shaped] at h
      split at h
      case isTrue harm =>
        obtain ⟨arms, rest, rfl, hlen, harms, hrest⟩ := ih h.2
        refine ⟨i :: arms, rest, rfl, ?_, ?_, hrest⟩
        · rw [List.length_cons, hlen]
          omega
        · intro j hj
          rcases List.mem_cons.mp hj with rfl | hj
          · exact harm
          · exact harms j hj
      case isFalse harm =>
        obtain rfl := h.1
        refine ⟨[], i :: il, rfl, rfl, by simp, ?_⟩
        rw [Shaped, if_neg harm]
        exact h

theorem codeFrom_arms_append (harms : ∀ i ∈ il, i.isArm = true) :
    codeFrom target (il ++ il') offset base =
      codeFrom target il offset base ++ codeFrom target il' (offset + 4 * il.length) base := by
  induction il generalizing offset with
  | nil => rfl
  | cons i il ih =>
      have harm := harms i (List.mem_cons_self ..)
      have hbase : baseAfter i offset base = base := by
        rw [baseAfter, ILInstr.isArm_iff.mp harm]
        rfl
      rw [List.cons_append, codeFrom, codeFrom, hbase,
        ih fun j hj => harms j (List.mem_cons_of_mem i hj), ILInstr.size_of_isArm harm,
        List.length_cons, List.append_assoc, List.append_assoc, List.append_assoc,
        show offset + 4 + 4 * il.length = offset + 4 * (il.length + 1) by omega]

theorem totalSize_arms (harms : ∀ i ∈ il, i.isArm = true) : totalSize il = 4 * il.length := by
  induction il with
  | nil => rfl
  | cons i il ih =>
      rw [totalSize_cons, ih fun j hj => harms j (List.mem_cons_of_mem i hj),
        ILInstr.size_of_isArm (harms i (List.mem_cons_self ..)), List.length_cons]
      omega

/-! ## The reader finds the instructions -/

variable {code rest : List UInt8} {i : ILInstr} {fuel : Nat}

/-- The low bytes of a number, found at a position, are read there. -/
theorem readNat_encode {k m : Nat} (hk : 0 < k)
    (h : code.drop offset = LittleEndian.encode k m ++ rest) :
    readNat code offset k = .ok (m % 256 ^ k) ∧ code.drop (offset + k) = rest := by
  rw [← LittleEndian.encode_mod] at h
  exact readNat_of_drop hk (Nat.mod_lt _ (Nat.pow_pos (by decide))) h

theorem length_of_drop {bs : List UInt8} (h : code.drop offset = bs ++ rest) (hne : 0 < bs.length) :
    offset + bs.length ≤ code.length := by
  have hlen := congrArg List.length h
  rw [List.length_drop, List.length_append] at hlen
  omega

/-- The opcode is read. -/
theorem importOpcode_opcodeBytes {opcode : Nat} (hop : IsOpcode opcode)
    (h : code.drop offset = ILInstr.opcodeBytes opcode ++ rest) :
    ILRewriter.importOpcode code offset =
      .ok (opcode, offset + (ILInstr.opcodeBytes opcode).length) := by
  obtain ⟨hlt, hprefix⟩ := hop
  have hencode : ∀ m : Nat, [UInt8.ofNat m] = LittleEndian.encode 1 m := fun _ => rfl
  rw [ILInstr.length_opcodeBytes hlt]
  rw [ILInstr.opcodeBytes, if_pos hlt] at h
  have hprefixed : ¬(Cee.prefix7 ≤ opcode ∧ opcode ≤ Cee.prefix2) := by
    simp only [Cee.prefix7, Cee.prefix1, Cee.prefix2] at hprefix ⊢
    omega
  have hcheck : ∀ off : Nat, ILRewriter.checkOpcode opcode off = .ok (opcode, off) := by
    intro off
    rw [ILRewriter.checkOpcode, if_neg hprefixed, if_neg (Nat.not_le.mpr hlt)]
    rfl
  simp only [Cee.count, Cee.prefix7, Cee.prefix1] at hlt hprefix
  by_cases hlong : 0x100 ≤ opcode
  · rw [if_pos hlong, List.append_assoc, hencode, hencode] at h
    obtain ⟨hlead, h⟩ := readNat_encode Nat.one_pos h
    obtain ⟨hread, -⟩ := readNat_encode Nat.one_pos h
    have hmore := length_of_drop h (by simp)
    rw [LittleEndian.length_encode] at hmore
    have hlow : 0x100 + opcode % 256 ^ 1 = opcode := by omega
    have hlead' : Cee.prefix1 % 256 ^ 1 = Cee.prefix1 := by decide
    have hshort : ¬ code.length ≤ offset + 1 := by omega
    rw [ILRewriter.importOpcode, hlead, if_pos hlong, hlead']
    simp only [bind, Except.bind, if_pos, if_neg hshort, hread, hlow, hcheck]
  · rw [if_neg hlong, List.nil_append, hencode] at h
    obtain ⟨hread, -⟩ := readNat_encode Nat.one_pos h
    have hlow : opcode % 256 ^ 1 = opcode := by omega
    rw [hlow] at hread
    have hne : opcode ≠ Cee.prefix1 := by
      simp only [Cee.prefix1]
      omega
    rw [ILRewriter.importOpcode, hread, if_neg hlong]
    simp only [bind, Except.bind, if_neg hne, hcheck]

/-- The operand is read; `offset` is that behind the opcode. -/
theorem importArg_bytes (harm : i.isArm = false) {t : Nat} (ht : t < 2 ^ 32)
    (hcode : code.length < 2 ^ 32)
    (hfits : s_OpCodeFlags i.opcode = .shortBranch → fitsInt8 (sub32 t (offset + 1)) = true)
    (h : code.drop offset =
      i.argBytes ++ i.tail (offset + (s_OpCodeFlags i.opcode).size) base t ++ rest) :
    ILRewriter.importArg code offset (s_OpCodeFlags i.opcode) = .ok (i.operand t) := by
  rw [ILInstr.argBytes, ILInstr.tail, harm] at h
  rw [ILInstr.operand]
  cases hflags : s_OpCodeFlags i.opcode with
  | none => simp [ILRewriter.importArg, pure, Except.pure, Nat.mod_one]
  | arg8 =>
      simp only [hflags, OpCodeFlags.size, List.append_nil] at h
      exact (readNat_encode (by omega) h).1
  | arg16 =>
      simp only [hflags, OpCodeFlags.size, List.append_nil] at h
      exact (readNat_encode (by omega) h).1
  | arg32 =>
      simp only [hflags, OpCodeFlags.size, List.append_nil] at h
      exact (readNat_encode (by omega) h).1
  | arg64 =>
      simp only [hflags, OpCodeFlags.size, List.append_nil] at h
      exact (readNat_encode (by omega) h).1
  | shortBranch =>
      simp only [hflags, OpCodeFlags.size, List.nil_append] at h
      have hmore := length_of_drop h (by simp)
      rw [LittleEndian.length_encode] at hmore
      obtain ⟨hread, -⟩ := readNat_encode Nat.one_pos h
      have hdelta : sub32 t (offset + 1) % 256 ^ 1 = sub32 t (offset + 1) % 256 := rfl
      rw [ILRewriter.importArg, hread, hdelta]
      simp only [bind, Except.bind, pure, Except.pure]
      rw [signExtend_mod (sub32_lt _ _) (hfits hflags), uint32_add_sub32 ht (by omega)]
  | branch =>
      simp only [hflags, OpCodeFlags.size, List.nil_append, Bool.false_eq_true, if_false] at h
      have hmore := length_of_drop h (by simp)
      rw [LittleEndian.length_encode] at hmore
      obtain ⟨hread, -⟩ := readNat_encode (by omega) h
      have hdelta : sub32 t (offset + 4) % 256 ^ 4 = sub32 t (offset + 4) :=
        Nat.mod_eq_of_lt (sub32_lt _ _)
      rw [ILRewriter.importArg, hread, hdelta]
      simp only [bind, Except.bind, pure, Except.pure]
      rw [uint32_add_sub32 ht (by omega)]
  | switch =>
      simp only [hflags, List.append_nil] at h
      have hmore := length_of_drop h (by simp)
      rw [LittleEndian.length_encode] at hmore
      rw [ILRewriter.importArg, if_neg (by omega)]
      exact (readNat_encode (by omega) h).1

/-- The arms are read. -/
theorem importArms_codeFrom (harms : ∀ i ∈ il, i.isArm = true)
    (htarget : ∀ i ∈ il, target i < 2 ^ 32)
    (hbase : base < 2 ^ 32) (h : code.drop offset = codeFrom target il offset base ++ rest) :
    ILRewriter.importArms code base il.length offset n =
      .ok ((decodedFrom target il offset n).map Prod.snd) := by
  induction il generalizing offset n with
  | nil => rfl
  | cons i il ih =>
      have harm := harms i (List.mem_cons_self ..)
      have hflags := ILInstr.flags_of_isArm harm
      have hbytes : i.head ++ i.tail (offset + i.size) base (target i) =
          LittleEndian.encode 4 (sub32 (target i) base) := by
        rw [ILInstr.head, ILInstr.opcodeBytes_of_isArm harm, ILInstr.argBytes, ILInstr.tail, hflags,
          harm]
        rfl
      have hbase' : baseAfter i offset base = base := by
        rw [baseAfter, ILInstr.isArm_iff.mp harm]
        rfl
      rw [codeFrom, hbytes, hbase', ILInstr.size_of_isArm harm, List.append_assoc] at h
      have hmore := length_of_drop h (by simp)
      rw [LittleEndian.length_encode] at hmore
      obtain ⟨hread, h⟩ := readNat_encode (by omega) h
      have hdelta : sub32 (target i) base % 256 ^ 4 = sub32 (target i) base :=
        Nat.mod_eq_of_lt (sub32_lt _ _)
      have hrest := ih (n := n + 1) (fun j hj => harms j (List.mem_cons_of_mem i hj))
        (fun j hj => htarget j (List.mem_cons_of_mem i hj)) h
      have hoperand : i.operand (target i) = target i := by rw [ILInstr.operand, hflags]
      rw [List.length_cons, ILRewriter.importArms, if_neg (by omega), hread, hdelta]
      simp only [bind, Except.bind, pure, Except.pure]
      rw [hrest, uint32_add_sub32 (htarget i (List.mem_cons_self ..)) hbase, decodedFrom,
        ILInstr.size_of_isArm harm, List.map_cons, hoperand, ILInstr.isArm_iff.mp harm]

/-- Arms are at no offset. -/
theorem decodedFrom_arms (harms : ∀ i ∈ il, i.isArm = true) :
    ((decodedFrom target il offset n).map Prod.snd).map (fun arm => (none, arm)) =
      decodedFrom target il offset n := by
  induction il generalizing offset n with
  | nil => rfl
  | cons i il ih =>
      rw [decodedFrom, List.map_cons, List.map_cons, harms i (List.mem_cons_self ..),
        ih fun j hj => harms j (List.mem_cons_of_mem i hj)]
      rfl

theorem Reaches.of_append (h : Reaches target (il ++ il') offset) :
    Reaches target il' (offset + totalSize il) := by
  induction il generalizing offset with
  | nil => exact h
  | cons i il ih =>
      rw [totalSize_cons, ← Nat.add_assoc]
      exact ih h.2

theorem Reaches.append (h : Reaches target il offset)
    (h' : Reaches target il' (offset + totalSize il)) : Reaches target (il ++ il') offset := by
  induction il generalizing offset with
  | nil => exact h'
  | cons i il ih =>
      rw [totalSize_cons, ← Nat.add_assoc] at h'
      exact ⟨h.1, ih h.2 h'⟩

theorem Shaped.arms_append (harms : ∀ i ∈ il, i.isArm = true) (h : Shaped il' 0) :
    Shaped (il ++ il') il.length := by
  induction il with
  | nil => exact h
  | cons i il ih =>
      rw [List.cons_append, Shaped, if_pos (harms i (List.mem_cons_self ..)), List.length_cons]
      exact ⟨by omega, ih fun j hj => harms j (List.mem_cons_of_mem i hj)⟩

/-- The size of an instruction that is no switch. -/
theorem ILInstr.size_eq (h : s_OpCodeFlags i.opcode ≠ .switch) :
    i.size = (opcodeBytes i.opcode).length + (s_OpCodeFlags i.opcode).size := by
  unfold size
  cases hflags : s_OpCodeFlags i.opcode with
  | switch => exact absurd hflags h
  | none => rfl
  | arg8 => rfl
  | arg16 => rfl
  | arg32 => rfl
  | arg64 => rfl
  | shortBranch => rfl
  | branch => rfl

/-- A switch without its arms has five bytes. -/
theorem ILInstr.size_switch (h : i.opcode = Cee.switch) : i.size = 5 := by
  rw [size, h]
  decide

/-- **The reader finds the instructions** in their code. -/
theorem importLoop_codeFrom (hknown : ∀ i ∈ il, i.Known) (htarget : ∀ i ∈ il, target i < 2 ^ 32)
    (hshape : Shaped il 0) (hreach : Reaches target il offset) (hcode : code.length < 2 ^ 32)
    (hfuel : il.length ≤ fuel) (hoffset : offset ≤ code.length)
    (h : code.drop offset = codeFrom target il offset base) :
    ILRewriter.importLoop code fuel offset n = .ok (decodedFrom target il offset n) := by
  induction fuel generalizing il offset n base with
  | zero =>
      obtain rfl := List.eq_nil_of_length_eq_zero (Nat.le_zero.mp hfuel)
      have hend := List.drop_eq_nil_iff.mp h
      have heq : offset = code.length := by omega
      rw [ILRewriter.importLoop, if_pos hend, ILRewriter.importEnd, if_neg (not_not.mpr heq)]
      rfl
  | succ fuel ih =>
      cases il with
      | nil =>
          have hend := List.drop_eq_nil_iff.mp h
          have heq : offset = code.length := by omega
          rw [ILRewriter.importLoop, if_pos hend, ILRewriter.importEnd, if_neg (not_not.mpr heq)]
          rfl
      | cons i il =>
          have hi := hknown i (List.mem_cons_self ..)
          have hil : ∀ j ∈ il, j.Known := fun j hj => hknown j (List.mem_cons_of_mem i hj)
          have ht := htarget i (List.mem_cons_self ..)
          have htil : ∀ j ∈ il, target j < 2 ^ 32 := fun j hj => htarget j (List.mem_cons_of_mem i hj)
          rw [Shaped] at hshape
          split at hshape
          case isTrue => exact absurd hshape.1 (Nat.lt_irrefl 0)
          case isFalse harm =>
          have hop : IsOpcode i.opcode := hi.resolve_right harm
          rw [Bool.not_eq_true] at harm
          have hshape := hshape.2
          -- the bytes of the instruction, and what follows it
          rw [codeFrom, List.append_assoc] at h
          have hbytes := i.length_bytes (offset + i.size) base (target i)
          have hpos := hi.pos_size
          rw [← List.append_assoc] at h
          have hmore := length_of_drop h (by omega)
          have hnext := LittleEndian.drop_add_of_drop h
          rw [hbytes] at hmore hnext
          rw [ILInstr.head, List.append_assoc, List.append_assoc] at h
          have hread := importOpcode_opcodeBytes hop h
          have harg := LittleEndian.drop_add_of_drop h
          rw [← List.append_assoc] at harg
          rw [ILRewriter.importLoop, if_neg (by omega), hread]
          simp only [bind, Except.bind]
          by_cases hswitch : s_OpCodeFlags i.opcode = .switch
          · have hopcode := switch_eq hswitch
            have hlen : (ILInstr.opcodeBytes i.opcode).length = 1 := by
              rw [hopcode]
              decide
            have hsize := ILInstr.size_switch hopcode
            have htail : ∀ next : Nat, i.tail next base (target i) = [] := by
              intro next
              rw [ILInstr.tail, hswitch]
            rw [htail, ← htail (offset + 1 + (s_OpCodeFlags i.opcode).size), hlen] at harg
            have hargument := importArg_bytes harm ht hcode (by simp [hswitch]) harg
            have hcount : i.operand (target i) = uint32 i.arg := by
              rw [ILInstr.operand, hswitch]
              rfl
            rw [if_pos hopcode] at hshape
            obtain ⟨arms, rest, rfl, hk, harms, hrest⟩ := hshape.split
            have hbase : baseAfter i offset base =
                uint32 (offset + 1 + 4 + uint32 i.arg * 4) := by
              rw [baseAfter, if_pos hopcode]
              unfold uint32
              omega
            rw [hsize, codeFrom_arms_append harms, hbase] at hnext
            have hreadArms := importArms_codeFrom (n := n + 1) harms
              (fun j hj => htil j (List.mem_append_left _ hj)) (uint32_lt _) hnext
            have hbehind := LittleEndian.drop_add_of_drop hnext
            rw [length_codeFrom, totalSize_arms harms] at hbehind
            have hreach := hreach.2.of_append
            rw [hsize, totalSize_arms harms] at hreach
            have hcovered := congrArg List.length hnext
            rw [List.length_drop, List.length_append, length_codeFrom, totalSize_arms harms]
              at hcovered
            rw [List.length_cons, List.length_append] at hfuel
            have hreadRest := ih (n := n + 1 + arms.length)
              (fun j hj => hil j (List.mem_append_right _ hj))
              (fun j hj => htil j (List.mem_append_right _ hj)) hrest hreach (by omega) (by omega)
              hbehind
            have hinside : ¬ code.length < uint32 (offset + 1 + (s_OpCodeFlags i.opcode).size) := by
              rw [hswitch, uint32_of_lt (by simp only [OpCodeFlags.size]; omega)]
              simp only [OpCodeFlags.size]
              omega
            have hbehindOffset : offset + 1 + 4 + uint32 i.arg * 4 = offset + 5 + 4 * arms.length := by
              omega
            rw [show offset + 5 = offset + 1 + 4 by rfl, hk] at hreadArms
            rw [← hbehindOffset, hk] at hreadRest
            rw [hlen, if_neg hinside, hargument, hcount]
            simp only [hswitch, if_true]
            rw [hreadArms]
            simp only
            rw [hreadRest]
            simp only [pure, Except.pure]
            rw [decodedFrom_arms harms, decodedFrom, decodedFrom_append, totalSize_arms harms, hsize,
              harm, hcount, hk, Nat.mul_comm 4 (uint32 i.arg)]
            rfl
          · have hsize := ILInstr.size_eq hswitch
            have hlen : offset + (ILInstr.opcodeBytes i.opcode).length +
                (s_OpCodeFlags i.opcode).size = offset + i.size := by omega
            rw [← hlen] at harg
            have hfits : s_OpCodeFlags i.opcode = .shortBranch →
                fitsInt8 (sub32 (target i)
                  (offset + (ILInstr.opcodeBytes i.opcode).length + 1)) = true := by
              intro hshort
              rw [hshort] at hlen
              simp only [OpCodeFlags.size] at hlen
              rw [hlen]
              exact hreach.1 hshort
            have hargument := importArg_bytes harm ht hcode hfits harg
            have hne : i.opcode ≠ Cee.switch := by
              intro heq
              rw [heq] at hswitch
              exact hswitch (by decide)
            rw [if_neg hne] at hshape
            rw [List.length_cons] at hfuel
            have hreadRest := ih (n := n + 1) hil htil hshape hreach.2 (by omega) hmore hnext
            rw [hlen, if_neg (by rw [uint32_of_lt (by omega)]; omega), hargument]
            simp only [if_neg hswitch]
            rw [hreadRest]
            simp only [pure, Except.pure]
            rw [decodedFrom, harm]
            rfl

/-! ## What the reader accepts -/

/-- A number that was read is in the code. -/
theorem drop_of_readNat {k m : Nat} (h : readNat code offset k = .ok m) : m < 256 ^ k ∧
    offset + k ≤ code.length ∧
      code.drop offset = LittleEndian.encode k m ++ code.drop (offset + k) := by
  unfold readNat at h
  cases hread : LittleEndian.readAt code offset k with
  | none => simp [hread] at h
  | some m' =>
      rw [hread] at h
      obtain rfl := Except.ok.inj h
      obtain ⟨hle, hlt, rest, hrest⟩ := LittleEndian.readAt_eq_some hread
      refine ⟨hlt, hle, ?_⟩
      have hbehind := LittleEndian.drop_add_of_drop hrest.symm
      rw [LittleEndian.length_encode] at hbehind
      rw [hbehind, hrest]

/-- The opcodes that are accepted, and their bytes. -/
theorem opcodeBytes_of_importOpcode {opcode offset' : Nat}
    (h : ILRewriter.importOpcode code offset = .ok (opcode, offset')) : IsOpcode opcode ∧
      offset' = offset + (ILInstr.opcodeBytes opcode).length ∧ offset' ≤ code.length ∧
      code.drop offset = ILInstr.opcodeBytes opcode ++ code.drop offset' := by
  have hencode : ∀ m : Nat, [UInt8.ofNat m] = LittleEndian.encode 1 m := fun _ => rfl
  have hcheck : ∀ {o off : Nat}, ILRewriter.checkOpcode o off = .ok (opcode, offset') →
      ¬(0xF8 ≤ o ∧ o ≤ 0xFD) ∧ o < 0x126 ∧ o = opcode ∧ off = offset' := by
    intro o off hcheck
    unfold ILRewriter.checkOpcode at hcheck
    split at hcheck
    case isTrue => cases hcheck
    case isFalse hprefixed =>
    split at hcheck
    case isTrue => cases hcheck
    case isFalse hcount =>
    obtain ⟨rfl, rfl⟩ := Prod.mk.inj (Except.ok.inj hcheck)
    exact ⟨hprefixed, Nat.not_le.mp hcount, rfl, rfl⟩
  rw [ILRewriter.importOpcode] at h
  obtain ⟨first, hfirst, h⟩ := bind_eq_ok.mp h
  obtain ⟨hlt, hle, hdrop⟩ := drop_of_readNat hfirst
  simp only at h
  split at h
  case isTrue hlead =>
    split at h
    case isTrue => cases h
    case isFalse =>
      obtain ⟨second, hread, h⟩ := bind_eq_ok.mp h
      obtain ⟨hprefixed, hcount, rfl, rfl⟩ := hcheck h
      obtain ⟨hlt', hle', hdrop'⟩ := drop_of_readNat hread
      have hop : 0x100 + second < Cee.count := hcount
      have hlong : 0x100 ≤ 0x100 + second := by omega
      have hmod : (0x100 + second) % 256 ^ 1 = second % 256 ^ 1 := by omega
      refine ⟨⟨hop, ?_⟩, ?_, hle', ?_⟩
      · simp only [Cee.prefix7, Cee.prefix1]
        omega
      · rw [ILInstr.length_opcodeBytes hop, if_pos hlong]
      · rw [ILInstr.opcodeBytes, if_pos hop, if_pos hlong, hdrop, hdrop', hlead, hencode, hencode,
          ← LittleEndian.encode_mod 1 (0x100 + second), hmod, LittleEndian.encode_mod,
          List.append_assoc]
  case isFalse hlead =>
    obtain ⟨hprefixed, hcount, rfl, rfl⟩ := hcheck h
    simp only [Cee.prefix1] at hlead
    have hop : first < Cee.count := hcount
    have hshort : ¬ 0x100 ≤ first := by omega
    refine ⟨⟨hop, ?_⟩, ?_, hle, ?_⟩
    · simp only [Cee.prefix7, Cee.prefix1]
      omega
    · rw [ILInstr.length_opcodeBytes hop, if_neg hshort]
    · rw [ILInstr.opcodeBytes, if_pos hop, if_neg hshort, List.nil_append, hencode]
      exact hdrop

/-- The number of bytes of an operand. -/
def ILInstr.argSize (i : ILInstr) : Nat :=
  match s_OpCodeFlags i.opcode with
  | .switch => 4
  | flags => flags.size

theorem ILInstr.size_eq_add (i : ILInstr) :
    i.size = (opcodeBytes i.opcode).length + i.argSize := rfl

/-- What holds of an operand that was read behind an opcode. -/
structure ArgRead (code : List UInt8) (i : ILInstr) (offset : Nat) : Prop where
  operand : i.operand i.arg = i.arg
  lt : i.isBranch = true → i.arg < 2 ^ 32
  fits : s_OpCodeFlags i.opcode = .shortBranch →
    fitsInt8 (sub32 i.arg (offset + i.argSize)) = true
  le : offset + i.argSize ≤ code.length
  drop : ∀ base, code.drop offset =
    i.argBytes ++ i.tail (offset + i.argSize) base i.arg ++ code.drop (offset + i.argSize)

/-- The operands that are accepted, and their bytes. -/
theorem argRead_of_importArg (hoffset : offset ≤ code.length) (hcode : code.length < 2 ^ 32)
    (harm : i.isArm = false)
    (h : ILRewriter.importArg code offset (s_OpCodeFlags i.opcode) = .ok i.arg) :
    ArgRead code i offset := by
  -- an operand that is no target is read as it stands there
  have hplain : ∀ {k : Nat}, readNat code offset k = .ok i.arg →
      i.operand i.arg = i.arg % 256 ^ k → i.isBranch = false →
      s_OpCodeFlags i.opcode ≠ .shortBranch → i.argBytes = LittleEndian.encode k i.arg →
      (∀ next base, i.tail next base i.arg = []) → i.argSize = k → ArgRead code i offset := by
    intro k hread hoperand hbranch hshort hbytes htail hsize
    obtain ⟨hlt, hle, hdrop⟩ := drop_of_readNat hread
    refine ⟨?_, ?_, fun heq => absurd heq hshort, ?_, ?_⟩
    · rw [hoperand, Nat.mod_eq_of_lt hlt]
    · simp [hbranch]
    · rw [hsize]
      exact hle
    · intro base
      rw [hsize, hbytes, htail, List.append_nil]
      exact hdrop
  cases hflags : s_OpCodeFlags i.opcode with
  | none =>
      rw [hflags] at h
      have harg : 0 = i.arg := Except.ok.inj h
      refine ⟨?_, ?_, ?_, ?_, ?_⟩
      · rw [ILInstr.operand, hflags, ← harg]
        rfl
      · simp [ILInstr.isBranch, hflags]
      · simp [hflags]
      · rw [ILInstr.argSize, hflags]
        exact hoffset
      · intro base
        rw [ILInstr.argBytes, ILInstr.tail, ILInstr.argSize, hflags]
        rfl
  | arg8 =>
      rw [hflags] at h
      exact hplain h (by rw [ILInstr.operand, hflags]; rfl) (by rw [ILInstr.isBranch, hflags]; rfl)
        (by simp [hflags]) (by rw [ILInstr.argBytes, hflags]; rfl)
        (fun _ _ => by rw [ILInstr.tail, hflags]) (by rw [ILInstr.argSize, hflags]; rfl)
  | arg16 =>
      rw [hflags] at h
      exact hplain h (by rw [ILInstr.operand, hflags]; rfl) (by rw [ILInstr.isBranch, hflags]; rfl)
        (by simp [hflags]) (by rw [ILInstr.argBytes, hflags]; rfl)
        (fun _ _ => by rw [ILInstr.tail, hflags]) (by rw [ILInstr.argSize, hflags]; rfl)
  | arg32 =>
      rw [hflags] at h
      exact hplain h (by rw [ILInstr.operand, hflags]; rfl) (by rw [ILInstr.isBranch, hflags]; rfl)
        (by simp [hflags]) (by rw [ILInstr.argBytes, hflags]; rfl)
        (fun _ _ => by rw [ILInstr.tail, hflags]) (by rw [ILInstr.argSize, hflags]; rfl)
  | arg64 =>
      rw [hflags] at h
      exact hplain h (by rw [ILInstr.operand, hflags]; rfl) (by rw [ILInstr.isBranch, hflags]; rfl)
        (by simp [hflags]) (by rw [ILInstr.argBytes, hflags]; rfl)
        (fun _ _ => by rw [ILInstr.tail, hflags]) (by rw [ILInstr.argSize, hflags]; rfl)
  | switch =>
      rw [hflags, ILRewriter.importArg] at h
      split at h
      case isTrue => cases h
      case isFalse =>
      exact hplain h (by rw [ILInstr.operand, hflags]) (by rw [ILInstr.isBranch, hflags]; rfl)
        (by simp [hflags]) (by rw [ILInstr.argBytes, hflags])
        (fun _ _ => by rw [ILInstr.tail, hflags]) (by rw [ILInstr.argSize, hflags])
  | shortBranch =>
      rw [hflags] at h
      obtain ⟨delta, hread, h⟩ := bind_eq_ok.mp h
      have harg : uint32 (offset + 1 + signExtend delta) = i.arg := Except.ok.inj h
      obtain ⟨hlt, hle, hdrop⟩ := drop_of_readNat hread
      obtain ⟨hfits, hsmall, hmod⟩ := fitsInt8_signExtend hlt
      have hsize : i.argSize = 1 := by rw [ILInstr.argSize, hflags]; rfl
      have hsub : sub32 i.arg (offset + 1) = signExtend delta := by
        rw [← harg]
        exact sub32_uint32_add hsmall (by omega)
      refine ⟨?_, ?_, ?_, ?_, ?_⟩
      · rw [ILInstr.operand, hflags]
      · intro _
        rw [← harg]
        exact uint32_lt _
      · intro _
        rw [hsize, hsub]
        exact hfits
      · rw [hsize]
        exact hle
      · intro base
        have hbyte : LittleEndian.encode 1 (signExtend delta) = LittleEndian.encode 1 delta := by
          rw [← LittleEndian.encode_mod]
          exact congrArg _ hmod
        rw [hsize, ILInstr.argBytes, ILInstr.tail, hflags]
        simp only [List.nil_append]
        rw [hsub, hbyte]
        exact hdrop
  | branch =>
      rw [hflags] at h
      obtain ⟨delta, hread, h⟩ := bind_eq_ok.mp h
      have harg : uint32 (offset + 4 + delta) = i.arg := Except.ok.inj h
      obtain ⟨hlt, hle, hdrop⟩ := drop_of_readNat hread
      have hsize : i.argSize = 4 := by rw [ILInstr.argSize, hflags]; rfl
      have hsub : sub32 i.arg (offset + 4) = delta := by
        rw [← harg]
        exact sub32_uint32_add hlt (by omega)
      refine ⟨?_, ?_, ?_, ?_, ?_⟩
      · rw [ILInstr.operand, hflags]
      · intro _
        rw [← harg]
        exact uint32_lt _
      · simp [hflags]
      · rw [hsize]
        exact hle
      · intro base
        rw [hsize, ILInstr.argBytes, ILInstr.tail, hflags, harm]
        simp only [List.nil_append, Bool.false_eq_true, if_false]
        rw [hsub]
        exact hdrop

/-- What holds of instructions that were read from an offset on; `fin` is the offset behind them. -/
structure Parsed (code : List UInt8) (il : List ILInstr) (offset fin n : Nat) : Prop where
  known : ∀ i ∈ il, i.Known
  lt : ∀ i ∈ il, i.isBranch = true → i.arg < 2 ^ 32
  reaches : Reaches ILInstr.arg il offset
  decoded : il = (decodedFrom ILInstr.arg il offset n).map Prod.snd
  fin_eq : fin = offset + totalSize il
  fin_le : fin ≤ code.length

namespace Parsed

variable {fin mid : Nat}

theorem append (h : Parsed code il offset mid n) (h' : Parsed code il' mid fin (n + il.length)) :
    Parsed code (il ++ il') offset fin n := by
  obtain rfl := h.fin_eq
  refine ⟨?_, ?_, ?_, ?_, ?_, h'.fin_le⟩
  · intro i hi
    rcases List.mem_append.mp hi with hi | hi
    · exact h.known i hi
    · exact h'.known i hi
  · intro i hi
    rcases List.mem_append.mp hi with hi | hi
    · exact h.lt i hi
    · exact h'.lt i hi
  · exact h.reaches.append h'.reaches
  · rw [decodedFrom_append, List.map_append, ← h.decoded, ← h'.decoded]
  · rw [h'.fin_eq, totalSize_append, Nat.add_assoc]

theorem cons (h : Parsed code il (offset + i.size) fin (n + 1)) (hop : IsOpcode i.opcode)
    (hread : ArgRead code i (offset + (ILInstr.opcodeBytes i.opcode).length))
    (hi : i = { ref := n + 1, opcode := i.opcode, arg := i.operand i.arg }) :
    Parsed code (i :: il) offset fin n := by
  refine ⟨?_, ?_, ⟨?_, h.reaches⟩, ?_, ?_, h.fin_le⟩
  · intro j hj
    rcases List.mem_cons.mp hj with rfl | hj
    · exact Or.inl hop
    · exact h.known j hj
  · intro j hj
    rcases List.mem_cons.mp hj with rfl | hj
    · exact hread.lt
    · exact h.lt j hj
  · have hfits := hread.fits
    rw [Nat.add_assoc, ← i.size_eq_add] at hfits
    exact hfits
  · rw [decodedFrom, List.map_cons, ← h.decoded, ← hi]
  · rw [h.fin_eq, totalSize_cons, Nat.add_assoc]

end Parsed

/-- The arms that are accepted, and their bytes. -/
theorem parsed_of_importArms {k : Nat} {arms : List ILInstr} (hbase : base < 2 ^ 32)
    (hoffset : offset ≤ code.length)
    (h : ILRewriter.importArms code base k offset n = .ok arms) :
    Parsed code arms offset (offset + 4 * k) n ∧ arms.length = k ∧ (∀ i ∈ arms, i.isArm = true) ∧
      code.drop offset = codeFrom ILInstr.arg arms offset base ++ code.drop (offset + 4 * k) := by
  induction k generalizing offset n arms with
  | zero =>
      obtain rfl := Except.ok.inj h
      refine ⟨⟨by simp, by simp, trivial, rfl, rfl, hoffset⟩, rfl, by simp, rfl⟩
  | succ k ih =>
      rw [ILRewriter.importArms] at h
      split at h
      case isTrue => cases h
      case isFalse =>
      obtain ⟨delta, hread, h⟩ := bind_eq_ok.mp h
      obtain ⟨rest, hrest, h⟩ := bind_eq_ok.mp h
      obtain rfl := Except.ok.inj h
      obtain ⟨hlt, hle, hdrop⟩ := drop_of_readNat hread
      obtain ⟨hparsed, hlen, harms, hcodeRest⟩ := ih hle hrest
      generalize hi : ({ ref := n + 1, opcode := Cee.switchArg, arg := uint32 (base + delta) } :
        ILInstr) = i
      have harm : i.isArm = true := by
        rw [← hi]
        rfl
      have harg : i.arg = uint32 (base + delta) := by rw [← hi]
      have hflags := ILInstr.flags_of_isArm harm
      have hsize := ILInstr.size_of_isArm harm
      have hoperand : i.operand i.arg = i.arg := by rw [ILInstr.operand, hflags]
      have hfin : offset + 4 + 4 * k = offset + 4 * (k + 1) := by omega
      have hbytes : ∀ next : Nat, i.head ++ i.tail next base i.arg =
          LittleEndian.encode 4 delta := by
        intro next
        rw [ILInstr.head, ILInstr.opcodeBytes_of_isArm harm, ILInstr.argBytes, ILInstr.tail, hflags,
          harm, harg]
        exact congrArg (LittleEndian.encode 4) (sub32_uint32_add hlt hbase)
      have hbaseAfter : baseAfter i offset base = base := by
        rw [baseAfter, ILInstr.isArm_iff.mp harm]
        rfl
      refine ⟨⟨?_, ?_, ⟨?_, ?_⟩, ?_, ?_, ?_⟩, ?_, ?_, ?_⟩
      · intro j hj
        rcases List.mem_cons.mp hj with rfl | hj
        · exact Or.inr harm
        · exact hparsed.known j hj
      · intro j hj
        rcases List.mem_cons.mp hj with rfl | hj
        · intro _
          rw [harg]
          exact uint32_lt _
        · exact hparsed.lt j hj
      · simp [hflags]
      · rw [hsize]
        exact hparsed.reaches
      · rw [decodedFrom, List.map_cons, hsize, ← hparsed.decoded, hoperand, harg, ← hi]
      · rw [totalSize_cons, hsize, ← Nat.add_assoc, ← hparsed.fin_eq, hfin]
      · rw [← hfin]
        exact hparsed.fin_le
      · rw [List.length_cons, hlen]
      · intro j hj
        rcases List.mem_cons.mp hj with rfl | hj
        · exact harm
        · exact harms j hj
      · rw [codeFrom, hbytes, hbaseAfter, hsize, hdrop, hcodeRest, hfin, List.append_assoc]

/-- What holds of everything that the reader finds from an offset on. -/
structure Found (code : List UInt8) (entries : List (Option Nat × ILInstr)) (offset n : Nat) :
    Prop where
  parsed : Parsed code (entries.map Prod.snd) offset code.length n
  decoded : entries = decodedFrom ILInstr.arg (entries.map Prod.snd) offset n
  shaped : Shaped (entries.map Prod.snd) 0
  drop : ∀ base, code.drop offset = codeFrom ILInstr.arg (entries.map Prod.snd) offset base

theorem found_of_importEnd {entries : List (Option Nat × ILInstr)}
    (h : ILRewriter.importEnd code offset = .ok entries) : Found code entries offset n := by
  unfold ILRewriter.importEnd at h
  split at h
  case isTrue => cases h
  case isFalse heq =>
    obtain rfl := Except.ok.inj h
    have heq : offset = code.length := not_not.mp heq
    refine ⟨⟨by simp, by simp, trivial, rfl, ?_, Nat.le_refl _⟩, rfl, rfl, ?_⟩
    · simpa [totalSize] using heq.symm
    · intro _
      exact List.drop_eq_nil_of_le (Nat.le_of_eq heq.symm)

/-- **What the reader accepts** is the code of the instructions it finds. -/
theorem found_of_importLoop {entries : List (Option Nat × ILInstr)}
    (hcode : code.length < 2 ^ 32) (hoffset : offset ≤ code.length)
    (h : ILRewriter.importLoop code fuel offset n = .ok entries) :
    Found code entries offset n := by
  induction fuel generalizing offset n entries with
  | zero =>
      rw [ILRewriter.importLoop] at h
      split at h
      case isTrue => exact found_of_importEnd h
      case isFalse => cases h
  | succ fuel ih =>
      rw [ILRewriter.importLoop] at h
      split at h
      case isTrue => exact found_of_importEnd h
      case isFalse =>
      obtain ⟨⟨opcode, offset₁⟩, hopcode, h⟩ := bind_eq_ok.mp h
      obtain ⟨hop, rfl, hle₁, hdropOpcode⟩ := opcodeBytes_of_importOpcode hopcode
      simp only at h
      split at h
      case isTrue => cases h
      case isFalse =>
      obtain ⟨arg, harg, h⟩ := bind_eq_ok.mp h
      generalize hi : ({ ref := n + 1, opcode := opcode, arg := arg } : ILInstr) = i at h
      obtain rfl : i.opcode = opcode := by rw [← hi]
      obtain rfl : i.arg = arg := by rw [← hi]
      have harm := ILInstr.isArm_eq_false hop
      have hread := argRead_of_importArg hle₁ hcode harm harg
      have hsize := i.size_eq_add
      have hle := hread.le
      rw [Nat.add_assoc, ← hsize] at hle
      have hdrop : ∀ base, code.drop offset =
          i.head ++ i.tail (offset + i.size) base i.arg ++ code.drop (offset + i.size) := by
        intro base
        have hdropArg := hread.drop base
        rw [Nat.add_assoc, ← hsize] at hdropArg
        rw [hdropOpcode, hdropArg, ILInstr.head, List.append_assoc, List.append_assoc,
          List.append_assoc]
      have hentry : (some offset, i) = ((if i.isArm then none else some offset,
          { ref := n + 1, opcode := i.opcode, arg := i.operand i.arg }) :
            Option Nat × ILInstr) := by
        rw [harm, hread.operand, ← hi]
        rfl
      by_cases hswitch : s_OpCodeFlags i.opcode = .switch
      · rw [if_pos hswitch] at h
        obtain ⟨arms, harms, h⟩ := bind_eq_ok.mp h
        obtain ⟨rest, hrest, h⟩ := bind_eq_ok.mp h
        obtain rfl := Except.ok.inj h
        have hopcode := switch_eq hswitch
        have hsize5 := ILInstr.size_switch hopcode
        have hlen : (ILInstr.opcodeBytes i.opcode).length = 1 := by
          rw [hopcode]
          decide
        have hcount : uint32 i.arg = i.arg := by
          have hoperand := hread.operand
          rw [ILInstr.operand, hswitch] at hoperand
          exact hoperand
        have hbehind : offset + (ILInstr.opcodeBytes i.opcode).length + 4 = offset + i.size := by
          omega
        rw [hbehind] at harms hrest
        obtain ⟨hparsedArms, hk, hisArm, hdropArms⟩ := parsed_of_importArms (uint32_lt _) hle harms
        have hfin : offset + i.size + i.arg * 4 = offset + i.size + 4 * i.arg := by omega
        rw [hfin] at hrest
        have hfound := ih hparsedArms.fin_le hrest
        have hparsed : Parsed code (arms ++ rest.map Prod.snd) (offset + i.size) code.length (n + 1) :=
          hparsedArms.append (by rw [hk]; exact hfound.parsed)
        have hmap : ((some offset, i) :: arms.map (fun arm => (none, arm)) ++ rest).map Prod.snd =
            i :: (arms ++ rest.map Prod.snd) := by
          simp [Function.comp_def]
        refine ⟨?_, ?_, ?_, ?_⟩
        · rw [hmap]
          exact hparsed.cons hop hread (hi.symm.trans (by rw [hread.operand]))
        · rw [hmap, decodedFrom, ← hentry, decodedFrom_append, ← decodedFrom_arms hisArm,
            ← hparsedArms.decoded, totalSize_arms hisArm, hk, ← hfound.decoded]
          rfl
        · rw [hmap, Shaped, harm, if_pos hopcode, hcount, ← hk]
          exact ⟨rfl, hfound.shaped.arms_append hisArm⟩
        · intro base
          have hbase : baseAfter i offset base = uint32 (offset + i.size + i.arg * 4) := by
            rw [baseAfter, if_pos hopcode, hsize5]
            congr 1
            omega
          rw [hmap, codeFrom, codeFrom_arms_append hisArm, hk, ← hfound.drop, hdrop base, hbase,
            hdropArms]
      · rw [if_neg hswitch] at h
        obtain ⟨rest, hrest, h⟩ := bind_eq_ok.mp h
        obtain rfl := Except.ok.inj h
        have hargSize : i.argSize = (s_OpCodeFlags i.opcode).size := by
          have hsize' := ILInstr.size_eq hswitch
          omega
        rw [Nat.add_assoc, ← hargSize, ← hsize] at hrest
        have hfound := ih hle hrest
        have hne : i.opcode ≠ Cee.switch := by
          intro heq
          rw [heq] at hswitch
          exact hswitch (by decide)
        refine ⟨?_, ?_, ?_, ?_⟩
        · exact hfound.parsed.cons hop hread (hi.symm.trans (by rw [hread.operand]))
        · rw [List.map_cons, decodedFrom, ← hentry, ← hfound.decoded]
        · rw [List.map_cons, Shaped, harm, if_neg hne]
          exact ⟨rfl, hfound.shaped⟩
        · intro base
          rw [List.map_cons, codeFrom, ← hfound.drop, hdrop base]

end DdTrace.Profiler
