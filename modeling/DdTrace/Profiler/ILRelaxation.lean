import Mathlib.Data.Finset.Card
import Mathlib.Order.Interval.Finset.Nat
import DdTrace.Profiler.ILExport

/-!
# The passes of the writer

`Export` starts over as long as it makes short branches long, in a buffer that it allocates once.

* `Contained`: the passes end, they write inside the buffer, and the short branches that are left
  reach their targets.
* `contained_iff`: for which numbers of instructions that is so.

The buffer has ten bytes for each instruction that was made. An instruction has at most nine, but the
product is an `unsigned`.

Sources: `il_rewriter.cpp`, `Export`.
-/

namespace DdTrace.Profiler

open DdTrace.Lib DdTrace.Lib.Outcomes
open ILRewriter (fitsInt8 store storeBefore deref layOut patch offsetOf exportPass)

variable {il js : List ILInstr} {offset total base maxSize : Nat} {out out' : ByteBuffer}
  {offsets : InstrRef → Result Nat} {ref : InstrRef}

/-! ## A buffer that is large enough -/

/-- An instruction has at most nine bytes. -/
theorem ILInstr.size_le (i : ILInstr) : i.size ≤ 9 := by
  have hsize := DdTrace.Profiler.size_le (s_OpCodeFlags i.opcode)
  by_cases hcount : i.opcode < Cee.count
  · have hlength := ILInstr.length_opcodeBytes hcount
    by_cases hswitch : s_OpCodeFlags i.opcode = .switch
    · rw [i.size_switch (switch_eq hswitch)]
      omega
    · rw [i.size_eq hswitch]
      split at hlength
      case isTrue hprefixed =>
        have hsmall := size_le_of_prefixed hprefixed
        omega
      case isFalse => omega
  · have hbytes : opcodeBytes i.opcode = [] := if_neg hcount
    by_cases hswitch : s_OpCodeFlags i.opcode = .switch
    · rw [i.size_switch (switch_eq hswitch)]
      omega
    · rw [i.size_eq hswitch, hbytes, List.length_nil]
      omega

theorem totalSize_le (il : List ILInstr) : totalSize il ≤ 9 * il.length := by
  induction il with
  | nil => exact Nat.le_refl 0
  | cons i il ih =>
      have hsize := i.size_le
      rw [totalSize_cons, List.length_cons]
      omega

/-- The first loop comes to its end, in a buffer with ten bytes for each instruction. -/
theorem exists_layOut (hop : ∀ i ∈ il, i.opcode ≤ Cee.switchArg)
    (hroom : offset + 10 * il.length ≤ maxSize) (hmax : maxSize ≤ out.size)
    (hsize : out.size < 2 ^ 32) :
    ∃ out', layOut maxSize il offset out =
      .ok (placed il offset, offset + totalSize il, out') ∧ out'.size = out.size := by
  induction il generalizing offset out with
  | nil => exact ⟨out, rfl, rfl⟩
  | cons i il ih =>
      obtain ⟨hi, hil⟩ := List.forall_mem_cons.mp hop
      have hle := i.size_le
      have hhead := length_head_le i
      rw [List.length_cons] at hroom
      obtain ⟨mid, hmid⟩ : ∃ mid, out.write offset i.head = some mid :=
        ByteBuffer.exists_write (by omega)
      have hmidSize := ByteBuffer.size_write hmid
      have hnext : offset + i.size + 10 * il.length ≤ maxSize := by omega
      have hmax' : maxSize ≤ mid.size := by omega
      obtain ⟨out', hrest, hout'⟩ := ih hil hnext hmax' (by omega)
      refine ⟨out', ?_, hout'.trans hmidSize⟩
      rw [layOut, if_neg (by omega), if_neg (Nat.not_lt.mpr hi), store, hmid, deref, ok_bind,
        uint32_of_lt (by omega), hrest, placed, totalSize_cons, ← Nat.add_assoc]
      rfl

/-- An opcode behind the tables is refused. -/
theorem layOut_of_unknown (hop : ∃ i ∈ il, Cee.switchArg < i.opcode)
    (hroom : offset + 10 * il.length ≤ maxSize) (hmax : maxSize ≤ out.size)
    (hsize : out.size < 2 ^ 32) : layOut maxSize il offset out = .error .invalidProgram := by
  induction il generalizing offset out with
  | nil =>
      obtain ⟨i, hi, -⟩ := hop
      exact absurd hi List.not_mem_nil
  | cons i il ih =>
      rw [List.length_cons] at hroom
      rw [layOut, if_neg (by omega)]
      by_cases hi : Cee.switchArg < i.opcode
      · rw [if_pos hi]
      · have hle := i.size_le
        have hhead := length_head_le i
        obtain ⟨mid, hmid⟩ : ∃ mid, out.write offset i.head = some mid :=
          ByteBuffer.exists_write (by omega)
        have hmidSize := ByteBuffer.size_write hmid
        have hrest : ∃ j ∈ il, Cee.switchArg < j.opcode := by
          obtain ⟨j, hj, hunknown⟩ := hop
          rcases List.mem_cons.mp hj with rfl | hj
          · exact absurd hunknown hi
          · exact ⟨j, hj, hunknown⟩
        have hnext : offset + i.size + 10 * il.length ≤ maxSize := by omega
        have hmax' : maxSize ≤ mid.size := by omega
        rw [if_neg hi, store, hmid, deref, ok_bind, uint32_of_lt (by omega),
          ih hrest hnext hmax' (by omega)]
        rfl

/-- The second loop comes to its end if it can write one instruction after the other. -/
theorem exists_patch
    (htarget : ∀ i ∈ il, i.isBranch = true → ∃ target, offsets i.target = .ok target)
    (hroom : offset + totalSize il ≤ out.size) :
    ∃ js out' again,
      patch offsets (offset + totalSize il) (placed il offset) base out = .ok (js, out', again) := by
  induction il generalizing offset base out with
  | nil => exact ⟨[], out, false, rfl⟩
  | cons i il ih =>
      obtain ⟨hti, htil⟩ := List.forall_mem_cons.mp htarget
      have htotal : offset + totalSize (i :: il) = offset + i.size + totalSize il := by
        rw [totalSize_cons, Nat.add_assoc]
      rw [htotal] at hroom ⊢
      have hrest (base : Nat) (mid : ByteBuffer) (hmid : mid.size = out.size) : ∃ js out' again,
          patch offsets (offset + i.size + totalSize il) (placed il (offset + i.size)) base mid =
            .ok (js, out', again) := ih htil (by omega)
      have hwrite (at' : Nat) (bytes : List UInt8) (hfits : at' + bytes.length ≤ out.size) :
          ∃ mid, store out at' bytes = .ok mid ∧ mid.size = out.size := by
        obtain ⟨mid, hmid⟩ := ByteBuffer.exists_write hfits
        exact ⟨mid, by rw [store, hmid, deref], ByteBuffer.size_write hmid⟩
      have hwriteBefore (bytes : List UInt8) (hfits : bytes.length ≤ i.size) :
          ∃ mid, storeBefore out (offset + i.size) bytes = .ok mid ∧ mid.size = out.size := by
        rw [storeBefore, if_neg (by omega)]
        exact hwrite _ bytes (by omega)
      rw [placed, patch]
      simp only [head_placed]
      by_cases hswitch : i.opcode = Cee.switch
      · obtain ⟨js, out', again, hjs⟩ := hrest (uint32 (offset + 1 + 4 * (i.arg + 1))) out rfl
        rw [if_pos hswitch, hjs, ok_bind]
        exact ⟨_, _, _, rfl⟩
      rw [if_neg hswitch]
      by_cases harm : i.opcode = Cee.switchArg
      · have hisArm := ILInstr.isArm_iff.mpr harm
        have hbranch : i.isBranch = true := by
          rw [ILInstr.isBranch, ILInstr.flags_of_isArm hisArm]
          rfl
        obtain ⟨target, ht⟩ := hti hbranch
        have hfour := ILInstr.size_of_isArm hisArm
        obtain ⟨mid, hmid, hsize⟩ := hwrite offset (LittleEndian.encode 4 (sub32 target base)) (by
          rw [LittleEndian.length_encode]
          omega)
        obtain ⟨js, out', again, hjs⟩ := hrest base mid hsize
        rw [if_pos harm, ht, ok_bind, hmid, ok_bind, hjs, ok_bind]
        exact ⟨_, _, _, rfl⟩
      rw [if_neg harm]
      cases hflags : s_OpCodeFlags i.opcode with
      | shortBranch =>
          have hsize : i.size = (ILInstr.opcodeBytes i.opcode).length + 1 := by
            rw [i.size_eq (by rw [hflags]; decide), hflags]
            rfl
          obtain ⟨target, ht⟩ := hti (by rw [ILInstr.isBranch, hflags]; rfl)
          simp only [ht, ok_bind]
          by_cases hfits : fitsInt8 (sub32 target (offset + i.size)) = true
          · obtain ⟨mid, hmid, hmidSize⟩ := hwriteBefore
              (LittleEndian.encode 1 (sub32 target (offset + i.size))) (by
                rw [LittleEndian.length_encode]
                omega)
            obtain ⟨js, out', again, hjs⟩ := hrest base mid hmidSize
            rw [if_pos hfits, hmid, ok_bind, hjs, ok_bind]
            exact ⟨_, _, _, rfl⟩
          · obtain ⟨long, hlong, -⟩ := widen_shortBranch hflags
            obtain ⟨js, out', again, hjs⟩ := hrest base out rfl
            simp only [if_neg hfits, hlong, hjs, ok_bind]
            exact ⟨_, _, _, rfl⟩
      | branch =>
          have hsize : i.size = (ILInstr.opcodeBytes i.opcode).length + 4 := by
            rw [i.size_eq (by rw [hflags]; decide), hflags]
            rfl
          obtain ⟨target, ht⟩ := hti (by rw [ILInstr.isBranch, hflags]; rfl)
          obtain ⟨mid, hmid, hmidSize⟩ := hwriteBefore
            (LittleEndian.encode 4 (sub32 target (offset + i.size))) (by
              rw [LittleEndian.length_encode]
              omega)
          obtain ⟨js, out', again, hjs⟩ := hrest base mid hmidSize
          simp only [ht, hmid, hjs, ok_bind]
          exact ⟨_, _, _, rfl⟩
      | none | arg8 | arg16 | arg32 | arg64 | switch =>
          obtain ⟨js, out', again, hjs⟩ := hrest base out rfl
          simp only [hjs, ok_bind]
          exact ⟨_, _, _, rfl⟩

/-! ## All passes -/

/-- The pointer is that of the sentinel or of an instruction of the list. -/
def Listed (il : List ILInstr) (ref : InstrRef) : Prop :=
  ref = sentinel ∨ ref ∈ il.map ILInstr.ref

/-- The instructions were made by `NewILInstr`, which numbers them. -/
structure ILRewriter.Made (s : ILRewriter) : Prop where
  nodup : (s.il.map ILInstr.ref).Nodup
  pos : ∀ i ∈ s.il, 0 < i.ref
  le : ∀ i ∈ s.il, i.ref ≤ s.nInstrs

/-- The bytes that are allocated. -/
def ILRewriter.bufferSize (s : ILRewriter) : Nat := uint32 (s.nInstrs * 10)

/-- The state before the first pass. -/
def ILRewriter.start (s : ILRewriter) (fill : Nat → UInt8) : List ILInstr × ByteBuffer :=
  (s.il, ⟨s.bufferSize, fill⟩)

/-- The short branches of a list with offsets reach their targets: the difference is a byte of type
`INT8`. -/
def ShortFits (il : List ILInstr) (total : Nat) : Prop :=
  ∀ (k : Nat) (i : ILInstr), il[k]? = some i → s_OpCodeFlags i.opcode = .shortBranch →
    ∃ target, offsetOf il total i.target = .ok target ∧
      fitsInt8 (sub32 target ((il[k + 1]?.map ILInstr.offset).getD total)) = true

/-- **The passes stay inside the buffer and end.** -/
structure Contained (s : ILRewriter) (fill : Nat → UInt8) : Prop where
  /-- There are no more repetitions than short branches. -/
  ends : ∀ n state, Rounds (exportPass s.bufferSize) n (s.start fill) state → n ≤ shortBranches s.il
  /-- A repetition makes a short branch long, and nothing shorter. -/
  widens : ∀ n state state', Rounds (exportPass s.bufferSize) n (s.start fill) state →
    exportPass s.bufferSize state = .ok (.again state') →
    AllLengthened state.1 state'.1 ∧ shortBranches state'.1 < shortBranches state.1
  /-- No pass writes outside the buffer. -/
  inside : ∀ n state, Rounds (exportPass s.bufferSize) n (s.start fill) state →
    exportPass s.bufferSize state ≠ .error .undefined
  /-- The short branches that are left reach their targets. -/
  fits : ∀ n state il total code, Rounds (exportPass s.bufferSize) n (s.start fill) state →
    exportPass s.bufferSize state = .ok (.done (il, total, code)) → ShortFits il total

/-- What the second loop leaves short reaches its target. -/
theorem fits_of_patch {js' : List ILInstr}
    (h : patch offsets total js base out = .ok (js', out', false)) :
    js' = js ∧ ∀ (k : Nat) (i : ILInstr), js[k]? = some i →
      s_OpCodeFlags i.opcode = .shortBranch → ∃ target, offsets i.target = .ok target ∧
        fitsInt8 (sub32 target ((js[k + 1]?.map ILInstr.offset).getD total)) = true := by
  induction js generalizing base out js' with
  | nil =>
      obtain ⟨rfl, -⟩ := Prod.mk.inj (Except.ok.inj h)
      refine ⟨rfl, fun k i hi => ?_⟩
      rw [List.getElem?_nil] at hi
      cases hi
  | cons j js ih =>
      obtain ⟨out₁, js₁, hrest, rfl, hpatched⟩ := patched_of_not_again h
      obtain ⟨rfl, hfits⟩ := ih hrest
      refine ⟨rfl, fun k i hi hshort => ?_⟩
      cases k with
      | zero =>
          obtain rfl := Option.some.inj hi
          have hbranch : j.isBranch = true := by
            rw [ILInstr.isBranch, hshort]
            rfl
          refine ⟨_, hpatched.target hbranch, ?_⟩
          have hnext := hpatched.fits hshort
          rw [List.head?_eq_getElem?] at hnext
          exact hnext
      | succ k => exact hfits k i hi hshort

theorem shortFits_of_done {code : List UInt8}
    (h : exportPass maxSize (il, out) = .ok (.done (js, total, code))) : ShortFits js total := by
  rw [exportPass] at h
  obtain ⟨⟨js₁, total₁, mid⟩, hlay, h⟩ := bind_eq_ok.mp h
  obtain ⟨⟨js₂, out₁, tryAgain⟩, hpatch, hend⟩ := bind_eq_ok.mp h
  cases tryAgain with
  | true => cases Except.ok.inj hend
  | false =>
      obtain ⟨rfl, hfits⟩ := fits_of_patch hpatch
      have heq : (js₂, total₁, out₁.slice 0 total₁) = (js, total, code) :=
        Round.done.inj (Except.ok.inj hend)
      obtain ⟨rfl, hpair⟩ := Prod.mk.inj heq
      obtain ⟨rfl, -⟩ := Prod.mk.inj hpair
      exact hfits

/-- What stays true from pass to pass. -/
structure Roomy (maxSize : Nat) (state : List ILInstr × ByteBuffer) : Prop where
  room : 10 * state.1.length ≤ maxSize
  size : state.2.size = maxSize
  lt : maxSize < 2 ^ 32
  targets : ∀ i ∈ state.1, i.isBranch = true → Listed state.1 i.target

theorem AllLengthened.map_ref (h : AllLengthened il js) :
    js.map ILInstr.ref = il.map ILInstr.ref := by
  induction h with
  | nil => rfl
  | cons hij _ ih => rw [List.map_cons, List.map_cons, hij.ref, ih]

/-- What comes from a lengthened list comes from an instruction. -/
theorem AllLengthened.exists_of_mem (h : AllLengthened il js) {j : ILInstr} (hj : j ∈ js) :
    ∃ i ∈ il, Lengthened i j := by
  induction h with
  | nil => cases hj
  | @cons a b as bs hab _ ih =>
      rcases List.mem_cons.mp hj with rfl | hj
      · exact ⟨a, List.mem_cons_self, hab⟩
      · obtain ⟨i, hi, hij⟩ := ih hj
        exact ⟨i, List.mem_cons_of_mem a hi, hij⟩

theorem allLengthened_placed (il : List ILInstr) (offset : Nat) :
    AllLengthened il (placed il offset) := by
  induction il generalizing offset with
  | nil => exact .nil
  | cons i il ih => exact .cons (Lengthened.withOffset i offset) (ih _)

/-- A pointer of the list has an offset. -/
theorem Listed.exists_offsetOf (h : Listed il ref) (total : Nat) :
    ∃ n, offsetOf il total ref = .ok n := by
  rw [offsetOf]
  by_cases href : ref = sentinel
  · exact ⟨_, if_pos href⟩
  · obtain ⟨i, hi, heq⟩ := List.mem_map.mp (h.resolve_left href)
    have hsome : (il.find? fun i => i.ref = ref).isSome := by
      rw [List.find?_isSome]
      exact ⟨i, hi, decide_eq_true heq⟩
    obtain ⟨j, hj⟩ := Option.isSome_iff_exists.mp hsome
    rw [if_neg href, hj]
    exact ⟨j.offset, rfl⟩

theorem Roomy.again {state state' : List ILInstr × ByteBuffer} (h : Roomy maxSize state)
    (hpass : exportPass maxSize state = .ok (.again state')) : Roomy maxSize state' := by
  obtain ⟨hlengthened, hsize, -⟩ := exportPass_again hpass
  refine ⟨?_, hsize.trans h.size, h.lt, fun j hj hbranch => ?_⟩
  · rw [← hlengthened.length_eq]
    exact h.room
  · obtain ⟨i, hi, hij⟩ := hlengthened.exists_of_mem hj
    rw [hij.isBranch_eq] at hbranch
    rw [Listed, hij.target, hlengthened.map_ref]
    exact h.targets i hi hbranch

/-- A pass in a buffer with room comes to its end, if the opcodes are those of the tables. -/
theorem Roomy.exists_pass (h : Roomy maxSize (il, out))
    (hop : ∀ i ∈ il, i.opcode ≤ Cee.switchArg) : ∃ r, exportPass maxSize (il, out) = .ok r := by
  have hroom : 0 + 10 * il.length ≤ maxSize := by
    have hroom : 10 * il.length ≤ maxSize := h.room
    omega
  have hsize : out.size = maxSize := h.size
  have hlt := h.lt
  obtain ⟨mid, hlay, hmid⟩ := exists_layOut hop hroom (Nat.le_of_eq hsize.symm) (by omega)
  have hfits : 0 + totalSize il ≤ mid.size := by
    have hle := totalSize_le il
    omega
  have htarget : ∀ i ∈ il, i.isBranch = true →
      ∃ target, offsetOf (placed il 0) (0 + totalSize il) i.target = .ok target := by
    intro i hi hbranch
    have hlisted : Listed (placed il 0) i.target := by
      rw [Listed, (allLengthened_placed il 0).map_ref]
      exact h.targets i hi hbranch
    exact hlisted.exists_offsetOf _
  obtain ⟨js, out', again, hpatch⟩ : ∃ js out' again,
      patch (offsetOf (placed il 0) (0 + totalSize il)) (0 + totalSize il) (placed il 0) 0 mid =
        .ok (js, out', again) := exists_patch htarget hfits
  rw [exportPass, hlay, ok_bind]
  simp only [hpatch, ok_bind]
  cases again with
  | false => exact ⟨_, rfl⟩
  | true => exact ⟨_, rfl⟩

/-- A pass in a buffer with room writes nowhere else. -/
theorem Roomy.inside {state : List ILInstr × ByteBuffer} (h : Roomy maxSize state) :
    exportPass maxSize state ≠ .error .undefined := by
  obtain ⟨il, out⟩ := state
  by_cases hop : ∀ i ∈ il, i.opcode ≤ Cee.switchArg
  · obtain ⟨r, hr⟩ := h.exists_pass hop
    rw [hr]
    intro hfail
    cases hfail
  · have hunknown : ∃ i ∈ il, Cee.switchArg < i.opcode := by
      obtain ⟨i, hi⟩ := not_forall.mp hop
      obtain ⟨hmem, hlt⟩ := Classical.not_imp.mp hi
      exact ⟨i, hmem, Nat.not_le.mp hlt⟩
    have hroom : 0 + 10 * il.length ≤ maxSize := by
      have hroom : 10 * il.length ≤ maxSize := h.room
      omega
    have hsize : out.size = maxSize := h.size
    have hlt := h.lt
    rw [exportPass, layOut_of_unknown hunknown hroom (Nat.le_of_eq hsize.symm) (by omega)]
    intro hfail
    cases hfail

/-- There are no more instructions than were made. -/
theorem ILRewriter.Made.length_le {s : ILRewriter} (h : s.Made) : s.il.length ≤ s.nInstrs := by
  have hsubset : (s.il.map ILInstr.ref).toFinset ⊆ Finset.Icc 1 s.nInstrs := by
    intro ref href
    obtain ⟨i, hi, rfl⟩ := List.mem_map.mp (List.mem_toFinset.mp href)
    exact Finset.mem_Icc.mpr ⟨h.pos i hi, h.le i hi⟩
  have hcard := Finset.card_le_card hsubset
  rw [List.toFinset_card_of_nodup h.nodup, List.length_map, Nat.card_Icc] at hcard
  exact hcard

/-- All but that the passes stay inside the buffer holds whatever its size is. -/
theorem contained_of_inside {s : ILRewriter} {fill : Nat → UInt8}
    (h : ∀ n state, Rounds (exportPass s.bufferSize) n (s.start fill) state →
      exportPass s.bufferSize state ≠ .error .undefined) : Contained s fill := by
  refine ⟨fun n state hrounds => ?_, fun n state state' _ hpass => ?_, h,
    fun n state il total code _ hdone => shortFits_of_done hdone⟩
  · have hmeasure : True ∧ shortBranches state.1 + n ≤ shortBranches (s.start fill).1 := by
      refine hrounds.measure_le (m := fun state => shortBranches state.1)
        (fun state state' _ hpass => ⟨trivial, ?_⟩) trivial
      exact (exportPass_again hpass).2.2
    have hstart : (s.start fill).1 = s.il := rfl
    rw [hstart] at hmeasure
    omega
  · obtain ⟨hlengthened, -, hlt⟩ := exportPass_again hpass
    exact ⟨hlengthened, hlt⟩

/-- **With room for all instructions the passes stay inside the buffer.** -/
theorem contained_of_room {s : ILRewriter} (hmade : s.Made) (hroom : 10 * s.nInstrs < 2 ^ 32)
    (htargets : ∀ i ∈ s.il, i.isBranch = true → Listed s.il i.target) (fill : Nat → UInt8) :
    Contained s fill := by
  have hsize : s.bufferSize = 10 * s.nInstrs := by
    rw [ILRewriter.bufferSize, uint32_of_lt (by omega), Nat.mul_comm]
  have hstart : Roomy s.bufferSize (s.start fill) := by
    have hle := hmade.length_le
    refine ⟨?_, rfl, uint32_lt _, htargets⟩
    show 10 * s.il.length ≤ s.bufferSize
    omega
  refine contained_of_inside fun n state hrounds => ?_
  have hroomy : Roomy s.bufferSize state ∧ shortBranches state.1 + n ≤ _ :=
    hrounds.measure_le (m := fun state => shortBranches state.1)
      (fun state state' h hpass => ⟨h.again hpass, (exportPass_again hpass).2.2⟩) hstart
  exact hroomy.1.inside

theorem ILInstr.Known.opcode_le {i : ILInstr} (h : i.Known) : i.opcode ≤ Cee.switchArg := by
  rcases h with hop | harm
  · have hlt := hop.1
    simp only [Cee.count, Cee.switchArg] at hlt ⊢
    omega
  · exact Nat.le_of_eq (ILInstr.isArm_iff.mp harm)

/-- **With room for all instructions the code is written.** -/
theorem exists_code {s : ILRewriter} (hknown : ∀ i ∈ s.il, i.Known)
    (hlength : s.il.length ≤ s.nInstrs) (hroom : 10 * s.nInstrs < 2 ^ 32)
    (htargets : ∀ i ∈ s.il, i.isBranch = true → Listed s.il i.target) (fill : Nat → UInt8) :
    ∃ r, retry (exportPass s.bufferSize) .undefined (s.il.length + 1) (s.start fill) = .ok r := by
  have hsize : s.bufferSize = 10 * s.nInstrs := by
    rw [ILRewriter.bufferSize, uint32_of_lt (by omega), Nat.mul_comm]
  have hstart : Roomy s.bufferSize (s.start fill) := by
    refine ⟨?_, rfl, uint32_lt _, htargets⟩
    show 10 * s.il.length ≤ s.bufferSize
    omega
  refine exists_retry (P := fun state => Roomy s.bufferSize state ∧ ∀ i ∈ state.1, i.Known)
    (m := fun state => shortBranches state.1) ?_ ?_ ⟨hstart, hknown⟩ ?_
  · rintro ⟨il, out⟩ ⟨hroomy, hknown⟩
    exact hroomy.exists_pass fun i hi => (hknown i hi).opcode_le
  · rintro state state' ⟨hroomy, hknown⟩ hpass
    obtain ⟨hlengthened, -, hlt⟩ := exportPass_again hpass
    refine ⟨⟨hroomy.again hpass, fun j hj => ?_⟩, hlt⟩
    obtain ⟨i, hi, hij⟩ := hlengthened.exists_of_mem hj
    exact hij.known (hknown i hi)
  · exact Nat.lt_succ_of_le List.countP_le_length

/-! ## Buffers that are too small -/

/-- An instruction that loads an eight-byte number and does not fit is written all the same. -/
theorem layOut_overrun (hop : ∀ i ∈ il, i.opcode = 0x21) (hoffset : offset < maxSize)
    (hmod : (maxSize - offset) % 9 ≠ 0) (hlong : maxSize < offset + 9 * il.length)
    (hsize : out.size = maxSize) (hmax : maxSize < 2 ^ 32) :
    layOut maxSize il offset out = .error .undefined := by
  induction il generalizing offset out with
  | nil =>
      rw [List.length_nil] at hlong
      omega
  | cons i il ih =>
      obtain ⟨hi, hil⟩ := List.forall_mem_cons.mp hop
      have hhead : i.head.length = 9 := by
        have hflags : s_OpCodeFlags i.opcode = .arg64 := by
          rw [hi]
          decide
        rw [ILInstr.head, List.length_append, ILInstr.length_opcodeBytes (by rw [hi]; decide),
          ILInstr.argBytes, hflags, hi]
        simp
      have hnine : i.size = 9 := by
        rw [ILInstr.size, hi]
        decide
      have hknown : ¬Cee.switchArg < i.opcode := by
        rw [hi]
        decide
      rw [List.length_cons] at hlong
      rw [layOut, if_neg (Nat.not_le.mpr hoffset), if_neg hknown, store]
      by_cases hfits : offset + 9 ≤ maxSize
      · obtain ⟨mid, hmid⟩ : ∃ mid, out.write offset i.head = some mid :=
          ByteBuffer.exists_write (by omega)
        have hmidSize := (ByteBuffer.size_write hmid).trans hsize
        rw [hmid, deref, ok_bind, hnine, uint32_of_lt (by omega),
          ih hil (by omega) (by omega) (by omega) hmidSize]
        rfl
      · have hnone : out.write offset i.head = none := if_neg (by omega)
        rw [hnone]
        rfl

/-- A buffer of no bytes is never written to. -/
theorem exportPass_zero (state : List ILInstr × ByteBuffer) :
    exportPass 0 state ≠ .error .undefined := by
  obtain ⟨il, out⟩ := state
  cases il with
  | nil =>
      intro hfail
      cases hfail
  | cons i il =>
      rw [exportPass, layOut, if_pos (Nat.zero_le _)]
      intro hfail
      cases hfail

/-- So many instructions, which load eight-byte numbers; the first is a `nop` where the buffer would
end behind one of them otherwise. -/
def overrunning (n : Nat) : ILRewriter where
  il := (List.range n).map fun k =>
    { ref := k + 1, opcode := if k = 0 ∧ uint32 (n * 10) % 9 = 0 then 0x00 else 0x21 }
  nInstrs := n

theorem made_overrunning (n : Nat) : (overrunning n).Made := by
  refine ⟨?_, fun i hi => ?_, fun i hi => ?_⟩
  · have hrefs : (overrunning n).il.map ILInstr.ref = (List.range n).map (· + 1) := by
      rw [overrunning, List.map_map]
      rfl
    rw [hrefs]
    exact List.nodup_range.map fun _ _ h => Nat.succ.inj h
  · obtain ⟨k, -, rfl⟩ := List.mem_map.mp hi
    exact Nat.succ_pos k
  · obtain ⟨k, hk, rfl⟩ := List.mem_map.mp hi
    exact List.mem_range.mp hk

theorem isBranch_overrunning {n : Nat} {i : ILInstr} (hi : i ∈ (overrunning n).il) :
    i.isBranch = false := by
  obtain ⟨k, -, rfl⟩ := List.mem_map.mp hi
  have hplain (opcode : Nat) (h : s_OpCodeFlags opcode = .none ∨ s_OpCodeFlags opcode = .arg64) :
      (s_OpCodeFlags opcode).isBranch = false := by
    rcases h with h | h
    · rw [h]
      rfl
    · rw [h]
      rfl
  have hnop : s_OpCodeFlags 0x00 = .none := by decide
  have hldc : s_OpCodeFlags 0x21 = .arg64 := by decide
  apply hplain
  split
  · exact Or.inl hnop
  · exact Or.inr hldc

/-- **A product that wraps around** to something is too small a buffer. -/
theorem overrunning_overruns {n : Nat} (hwraps : 2 ^ 32 ≤ 10 * n) (hsome : n * 10 % 2 ^ 32 ≠ 0)
    (fill : Nat → UInt8) :
    exportPass (overrunning n).bufferSize ((overrunning n).start fill) = .error .undefined := by
  have hmax : (overrunning n).bufferSize = uint32 (n * 10) := rfl
  have hlt := uint32_lt (n * 10)
  have hpos : 0 < uint32 (n * 10) := Nat.pos_of_ne_zero hsome
  have hlong : uint32 (n * 10) < 9 * n - 8 := by
    have hle : n * 10 % 2 ^ 32 ≤ n * 10 - 2 ^ 32 := by
      rw [Nat.mod_eq_sub_mod (by omega)]
      exact Nat.mod_le _ _
    rw [uint32]
    omega
  obtain ⟨m, rfl⟩ : ∃ m, n = m + 1 := ⟨n - 1, by omega⟩
  have hil : (overrunning (m + 1)).il =
      { ref := 1, opcode := if uint32 ((m + 1) * 10) % 9 = 0 then 0x00 else 0x21 } ::
        (List.range m).map fun k => { ref := k + 1 + 1, opcode := 0x21 } := by
    rw [overrunning, List.range_succ_eq_map, List.map_cons, List.map_map]
    simp
  have hrest : ∀ i ∈ (List.range m).map fun k => ({ ref := k + 1 + 1, opcode := 0x21 } : ILInstr),
      i.opcode = 0x21 := by
    intro i hi
    obtain ⟨k, -, rfl⟩ := List.mem_map.mp hi
    rfl
  have hlay : layOut (uint32 ((m + 1) * 10)) (overrunning (m + 1)).il 0
      ⟨uint32 ((m + 1) * 10), fill⟩ = .error .undefined := by
    by_cases hnine : uint32 ((m + 1) * 10) % 9 = 0
    · rw [hil, if_pos hnine, layOut, if_neg (Nat.not_le.mpr hpos), if_neg (by decide), store]
      obtain ⟨mid, hmid⟩ : ∃ mid, ByteBuffer.write ⟨uint32 ((m + 1) * 10), fill⟩ 0
          (ILInstr.head { ref := 1, opcode := 0x00 }) = some mid :=
        ByteBuffer.exists_write (by
          show 0 + 1 ≤ uint32 ((m + 1) * 10)
          omega)
      have hone : uint32 (0 + ILInstr.size { ref := 1, opcode := 0x00 }) = 1 := by decide
      have hlength : uint32 ((m + 1) * 10) <
          1 + 9 * ((List.range m).map fun k =>
            ({ ref := k + 1 + 1, opcode := 0x21 } : ILInstr)).length := by
        rw [List.length_map, List.length_range]
        omega
      have hmidSize : mid.size = uint32 ((m + 1) * 10) := ByteBuffer.size_write hmid
      rw [hmid, deref, ok_bind, hone,
        layOut_overrun hrest (by omega) (by omega) hlength hmidSize hlt]
      rfl
    · rw [hil, if_neg hnine]
      refine layOut_overrun (List.forall_mem_cons.mpr ⟨rfl, hrest⟩) hpos (by omega) ?_ rfl hlt
      rw [List.length_cons, List.length_map, List.length_range]
      omega
  rw [ILRewriter.start, hmax, exportPass, hlay]
  rfl

/-- **The passes of all lists of so many instructions stay inside the buffer** exactly if ten times
their number is an `unsigned`, or if it wraps around to nothing, where no pass writes at all. -/
theorem contained_iff (n : Nat) :
    (∀ (s : ILRewriter) (fill : Nat → UInt8), s.nInstrs = n → s.Made →
      (∀ i ∈ s.il, i.isBranch = true → Listed s.il i.target) → Contained s fill) ↔
      10 * n < 2 ^ 32 ∨ n * 10 % 2 ^ 32 = 0 := by
  constructor
  · intro h
    by_contra hneither
    rw [not_or] at hneither
    have hoverruns := overrunning_overruns (Nat.not_lt.mp hneither.1) hneither.2 fun _ => 0
    refine (h (overrunning n) (fun _ => 0) rfl (made_overrunning n) fun i hi hbranch => ?_).inside 0 _
      (.refl _) hoverruns
    rw [isBranch_overrunning hi] at hbranch
    cases hbranch
  · rintro (hroom | hnone) s fill rfl hmade htargets
    · exact contained_of_room hmade hroom htargets fill
    · have hzero : s.bufferSize = 0 := hnone
      refine contained_of_inside fun n state _ => ?_
      rw [hzero]
      exact exportPass_zero state

/-- Not all lists of 429496730 instructions are written inside their buffer of four bytes. -/
theorem overrunning_not_contained : (overrunning 429496730).Made ∧
    (∀ i ∈ (overrunning 429496730).il, i.isBranch = true →
      Listed (overrunning 429496730).il i.target) ∧
    ¬Contained (overrunning 429496730) fun _ => 0 := by
  refine ⟨made_overrunning _, fun i hi hbranch => ?_, fun h => ?_⟩
  · rw [isBranch_overrunning hi] at hbranch
    cases hbranch
  · exact h.inside 0 _ (.refl _) (overrunning_overruns (by decide) (by decide) _)

end DdTrace.Profiler
