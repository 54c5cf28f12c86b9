import DdTrace.Lib.Levels
import DdTrace.Profiler.ILEdits

/-!
# The stack depth of an exported body

The rewriter does not follow the flow of control: it adds up what all instructions push, beginning
with the maximum of the body that was read, and writes the sum into a field of 16 bits.

* `Flow`, `Reached`: where control can go in a program, and where it comes.
* `DepthMap`: the depth of the evaluation stack before each instruction; `Covers`: a number that no
  depth exceeds.
* `DepthMap.covers_pushes`: no depth exceeds what all instructions push, and the exception that a handler finds.
* `maxStack_covers_iff`: when the header that is written is large enough.

Sources: `il_rewriter.cpp`; `opcode.def`.
-/

namespace DdTrace.Profiler

open DdTrace.Lib DdTrace.Lib.Outcomes
open ILRewriter (importMethod exportMethod adjustState)

/-! ## The flow of control -/

/-- What is never followed by the next instruction: `jmp`, `ret`, `br.s`, `br`, `throw`,
`endfinally`, `leave`, `leave.s`, `endfilter` and `rethrow`.
Source: `opcode.def`, the column of the flow of control -/
def endsFlow (opcode : Nat) : Bool :=
  opcode ∈ [0x27, Cee.ret, Cee.brS, Cee.br, 0x7A, 0xDC, Cee.leave, Cee.leaveS, 0x111, 0x11A]

/-- What empties the stack. -/
def isLeave (opcode : Nat) : Bool := opcode ∈ [Cee.leave, Cee.leaveS]

/-- What may push nothing: `call`, `calli` and `callvirt`.
Source: `opcode.def`, the rows with `VarPush` -/
def isCall (opcode : Nat) : Bool := opcode ∈ [0x28, 0x29, 0x6F]

/-- Control goes from one place to another. -/
inductive Flow (p : Program) (k : Nat) : Nat → Prop
  /-- To the next instruction. -/
  | next {i : Instruction} : p.instructions[k]? = some i → endsFlow i.opcode = false →
      i.opcode ≠ Cee.switch → i.opcode ≠ Cee.switchArg → Flow p k (k + 1)
  /-- To the target of a branch. -/
  | branch {i : Instruction} {k' : Nat} : p.instructions[k]? = some i →
      i.opcode ≠ Cee.switchArg → i.target = some k' → Flow p k k'
  /-- Behind the arms of a switch. -/
  | behind {i : Instruction} : p.instructions[k]? = some i → i.opcode = Cee.switch →
      Flow p k (k + 1 + i.operand)
  /-- To the target of an arm of a switch. -/
  | arm {i a : Instruction} {j k' : Nat} : p.instructions[k]? = some i → i.opcode = Cee.switch →
      j < i.operand → p.instructions[k + 1 + j]? = some a → a.target = some k' → Flow p k k'

/-- Control comes to a place: from the beginning, or by an exception. -/
inductive Reached (p : Program) : Nat → Prop
  | entry : Reached p 0
  | handler {r : Region} {k : Nat} : r ∈ p.regions → r.handlerBegin = some k → Reached p k
  | filter {r : Region} {k : Nat} : r ∈ p.regions → isFilter r.flags = true → r.filter = some k →
      Reached p k
  | flow {k k' : Nat} : Reached p k → Flow p k k' → Reached p k'

/-- The handler of the region finds an exception on the stack: it is neither `finally` nor `fault`. -/
def findsException (flags : Nat) : Bool := flags &&& 0x06 = 0

/-! ## The depth -/

/-- The depth of the stack before each instruction that is reached. It is the same however control
comes there, and an instruction takes no more than there is. -/
structure DepthMap (p : Program) where
  depth : Nat → Nat
  /-- What the instruction at a place pops. -/
  pops : Nat → Nat
  /-- What the instruction at a place pushes. -/
  pushes : Nat → Nat
  pushes_eq : ∀ k i, p.instructions[k]? = some i → pushes k = k_rgnStackPushes i.opcode ∨
    isCall i.opcode = true ∧ pushes k = 0
  pops_le : ∀ k, Reached p k → pops k ≤ depth k
  entry : depth 0 = 0
  handler : ∀ r ∈ p.regions, ∀ k, r.handlerBegin = some k →
    depth k = if findsException r.flags then 1 else 0
  filter : ∀ r ∈ p.regions, isFilter r.flags = true → ∀ k, r.filter = some k → depth k = 1
  flow : ∀ k i k', Reached p k → p.instructions[k]? = some i → Flow p k k' →
    depth k' = if isLeave i.opcode then 0 else depth k - pops k + pushes k

namespace DepthMap

variable {p : Program} (m : DepthMap p)

/-- The depth after the instruction at a place, before control goes on. -/
def after (k : Nat) : Nat := m.depth k - m.pops k + m.pushes k

/-- No depth is greater. -/
def Covers (n : Nat) : Prop :=
  ∀ k, Reached p k → m.depth k ≤ n ∧ (k < p.instructions.length → m.after k ≤ n)

end DepthMap

/-- What the instructions of a program push together. -/
def Program.pushes (p : Program) : Nat :=
  (p.instructions.map fun i => k_rgnStackPushes i.opcode).sum

/-- What is on the stack when an exception comes, if one does. -/
def Program.exceptions (p : Program) : Nat :=
  if p.regions.any fun r => findsException r.flags || isFilter r.flags then 1 else 0

theorem one_le_exceptions {p : Program} {r : Region} (hr : r ∈ p.regions)
    (hfinds : findsException r.flags = true ∨ isFilter r.flags = true) : 1 ≤ p.exceptions := by
  have hany : (p.regions.any fun r => findsException r.flags || isFilter r.flags) = true :=
    List.any_eq_true.mpr ⟨r, hr, (Bool.or_eq_true _ _).mpr hfinds⟩
  rw [Program.exceptions, if_pos hany]

/-- There is an instruction where control goes on. -/
theorem Flow.exists_instruction {p : Program} {k k' : Nat} (h : Flow p k k') :
    ∃ i, p.instructions[k]? = some i := by
  cases h with
  | next hi => exact ⟨_, hi⟩
  | branch hi => exact ⟨_, hi⟩
  | behind hi => exact ⟨_, hi⟩
  | arm hi => exact ⟨_, hi⟩

namespace DepthMap

variable {p : Program} (m : DepthMap p) {k level : Nat}

/-- An instruction pushes at most what the table says. -/
theorem pushes_le {i : Instruction} (hi : p.instructions[k]? = some i) :
    m.pushes k ≤ k_rgnStackPushes i.opcode := by
  rcases m.pushes_eq k i hi with heq | ⟨-, hzero⟩
  · exact Nat.le_of_eq heq
  · rw [hzero]
    exact Nat.zero_le _

/-- A level is climbed by the instruction that goes beyond it. -/
theorem climbed_by {i : Instruction} (hi : p.instructions[k]? = some i)
    (hlow : m.depth k < level) (hle : level ≤ m.after k) :
    ∃ a ∈ p.instructions.zipIdx,
      m.depth a.2 < level ∧ level ≤ m.depth a.2 + k_rgnStackPushes a.1.opcode := by
  have hpushes := m.pushes_le hi
  have hafter : m.after k ≤ m.depth k + k_rgnStackPushes i.opcode := by
    rw [after]
    omega
  exact ⟨(i, k), List.mem_zipIdx_iff_getElem?.mpr hi, hlow, hle.trans hafter⟩

/-- **Each level** above those at which control comes in is climbed by an instruction. -/
theorem exists_climbed (h : Reached p k) (hlow : p.exceptions < level) (hle : level ≤ m.depth k) :
    ∃ a ∈ p.instructions.zipIdx,
      m.depth a.2 < level ∧ level ≤ m.depth a.2 + k_rgnStackPushes a.1.opcode := by
  induction h with
  | entry =>
      rw [m.entry] at hle
      omega
  | handler hr hbegin =>
      rw [m.handler _ hr _ hbegin] at hle
      split at hle
      case isTrue hfinds =>
        have hone := one_le_exceptions hr (Or.inl hfinds)
        omega
      case isFalse => omega
  | filter hr hfilter hbegin =>
      rw [m.filter _ hr hfilter _ hbegin] at hle
      have hone := one_le_exceptions hr (Or.inr hfilter)
      omega
  | @flow k k' hk hflow ih =>
      by_cases hbefore : level ≤ m.depth k
      · exact ih hbefore
      · obtain ⟨i, hi⟩ := hflow.exists_instruction
        rw [m.flow k i k' hk hi hflow] at hle
        split at hle
        case isTrue => omega
        case isFalse => exact m.climbed_by hi (Nat.not_le.mp hbefore) hle

theorem sum_zipIdx : (p.instructions.zipIdx.map fun a => k_rgnStackPushes a.1.opcode).sum =
    p.pushes := by
  have hmap : p.instructions.zipIdx.map (fun a => k_rgnStackPushes a.1.opcode) =
      (p.instructions.zipIdx.map Prod.fst).map fun i => k_rgnStackPushes i.opcode := by
    rw [List.map_map]
    rfl
  rw [hmap, List.zipIdx_map_fst, Program.pushes]

/-- **No depth exceeds** what all instructions push, and the exception that a handler finds. -/
theorem covers_pushes : m.Covers (p.exceptions + p.pushes) := by
  intro k hk
  rw [← sum_zipIdx]
  refine ⟨le_of_climbed fun level hlow hle => m.exists_climbed hk hlow hle, fun hlt => ?_⟩
  have hclimbed : ∀ level, p.exceptions < level → level ≤ m.after k →
      ∃ a ∈ p.instructions.zipIdx,
        m.depth a.2 < level ∧ level ≤ m.depth a.2 + k_rgnStackPushes a.1.opcode := by
    intro level hlow hle
    by_cases hbefore : level ≤ m.depth k
    · exact m.exists_climbed hk hlow hbefore
    · exact m.climbed_by (List.getElem?_eq_getElem hlt) (Nat.not_le.mp hbefore) hle
  exact le_of_climbed hclimbed

theorem Covers.of_le {m : DepthMap p} {n n' : Nat} (h : m.Covers n) (hle : n ≤ n') : m.Covers n' :=
  fun k hk => ⟨(h k hk).1.trans hle, fun hlt => ((h k hk).2 hlt).trans hle⟩

end DepthMap

/-! ## The sum of the rewriter -/

/-- The sum of a list of instructions, as a number of type `unsigned`. -/
theorem foldl_adjustState (n : Nat) (il : List ILInstr) : il.foldl adjustState n % 2 ^ 32 =
    (n + (il.map fun i => k_rgnStackPushes i.opcode).sum) % 2 ^ 32 := by
  induction il generalizing n with
  | nil => rfl
  | cons i il ih =>
      rw [List.foldl_cons, ih, List.map_cons, List.sum_cons, adjustState, uint32]
      omega

/-- What an instruction of a list pushes does not depend on the list. -/
theorem pushes_program (s : ILRewriter) :
    s.program.pushes = (s.il.map fun i => k_rgnStackPushes i.opcode).sum := by
  have hopcode : ∀ i : ILInstr, (i.instruction s.il).opcode = i.opcode := by
    intro i
    rw [ILInstr.instruction]
    split
    case isTrue => rfl
    case isFalse => rfl
  rw [Program.pushes, ILRewriter.program, List.map_map]
  exact congrArg List.sum (List.map_congr_left fun i _ => by rw [Function.comp, hopcode])

/-- The edits add what the new instructions push. -/
theorem maxStack_of_run {n : Nat} {s s' : ILRewriter} {edits : List Edit}
    (h : s.maxStack % 2 ^ 32 = (n + s.program.pushes) % 2 ^ 32)
    (hrun : runOps Edit.exec s edits = some s') :
    s'.maxStack % 2 ^ 32 = (n + s'.program.pushes) % 2 ^ 32 := by
  induction edits generalizing s with
  | nil =>
      obtain rfl := Option.some.inj hrun
      exact h
  | cons edit edits ih =>
      obtain ⟨t, ht, hrest⟩ := Option.bind_eq_some_iff.mp hrun
      refine ih ?_ hrest
      obtain ⟨before, behind, i, hinserted, hmax⟩ := inserted_of_exec ht
      rw [pushes_program, hinserted.il] at h
      rw [pushes_program, hinserted.il', hmax, adjustState, uint32]
      simp only [List.map_append, List.map_cons, List.sum_append, List.sum_cons] at h ⊢
      omega

/-- A branch pushes nothing, whether it is short or long. -/
theorem pushes_widen {opcode long : Nat} (hshort : s_OpCodeFlags opcode = .shortBranch)
    (hlong : widen opcode = some long) : k_rgnStackPushes long = k_rgnStackPushes opcode := by
  have hall : ∀ d < 13, k_rgnStackPushes (0x2B + d) = 0 ∧ k_rgnStackPushes (0x38 + d) = 0 := by
    decide
  rcases shortBranch_range hshort with ⟨hlo, hhi⟩ | rfl
  · obtain ⟨d, rfl⟩ := Nat.exists_eq_add_of_le hlo
    simp only [Cee.brS, Cee.bltUnS] at hhi hlong ⊢
    have hd : d < 13 := by omega
    have hwide : widen (0x2B + d) = some (0x38 + d) := by
      have hwiden : ∀ d < 13, widen (0x2B + d) = some (0x38 + d) := by decide
      exact hwiden d hd
    obtain rfl := Option.some.inj (hwide.symm.trans hlong)
    rw [(hall d hd).1, (hall d hd).2]
  · obtain rfl : Cee.leave = long := Option.some.inj hlong
    rfl

theorem sum_pushes_of_lengthened {is js : List Instruction}
    (h : List.Forall₂ Instruction.Lengthened is js) :
    (js.map fun i => k_rgnStackPushes i.opcode).sum =
      (is.map fun i => k_rgnStackPushes i.opcode).sum := by
  induction h with
  | nil => rfl
  | @cons i j is js hij _ ih =>
      have hopcode : k_rgnStackPushes j.opcode = k_rgnStackPushes i.opcode := by
        rcases hij with rfl | ⟨hshort, hlong, -⟩
        · rfl
        · exact pushes_widen hshort hlong
      rw [List.map_cons, List.map_cons, List.sum_cons, List.sum_cons, hopcode, ih]

/-- Longer branches change neither what is pushed nor what handlers find. -/
theorem Program.Lengthened.pushes_eq {p q : Program} (h : p.Lengthened q) :
    q.pushes = p.pushes := sum_pushes_of_lengthened h.instructions

/-- Without short branches nothing is lengthened. -/
theorem eq_of_forall₂_lengthened {is js : List Instruction}
    (h : List.Forall₂ Instruction.Lengthened is js)
    (hnone : ∀ i ∈ is, s_OpCodeFlags i.opcode ≠ .shortBranch) : js = is := by
  induction h with
  | nil => rfl
  | @cons i j is js hij _ ih =>
      rcases hij with rfl | ⟨hshort, -, -⟩
      · rw [ih fun i hi => hnone i (List.mem_cons_of_mem _ hi)]
      · exact absurd hshort (hnone i List.mem_cons_self)

theorem Program.Lengthened.eq_of_no_branch {p q : Program} (h : p.Lengthened q)
    (hnone : ∀ i ∈ p.instructions, s_OpCodeFlags i.opcode ≠ .shortBranch) : q = p := by
  obtain ⟨instructions, regions, localVarSigTok, flags⟩ := q
  obtain rfl : instructions = p.instructions := eq_of_forall₂_lengthened h.instructions hnone
  obtain rfl : regions = p.regions := h.regions
  obtain rfl : localVarSigTok = p.localVarSigTok := h.localVarSigTok
  obtain rfl : flags = p.flags := h.flags
  rfl

theorem Program.Lengthened.exceptions_eq {p q : Program} (h : p.Lengthened q) :
    q.exceptions = p.exceptions := by
  rw [Program.exceptions, Program.exceptions, h.regions]

/-- `ldc.i4.0`, `pop` and `ret`, with a maximum of 65535. -/
def pushAndPop : List UInt8 :=
  [0x03, 0x30, 0xFF, 0xFF, 0x03, 0, 0, 0, 0, 0, 0, 0, 0x16, 0x26, 0x2A]

/-- The program of that body. -/
def pushAndPopProgram : Program where
  instructions := [⟨0x16, 0, none⟩, ⟨0x26, 0, none⟩, ⟨0x2A, 0, none⟩]
  regions := []
  localVarSigTok := 0
  flags := 0

/-- One value is on the stack before `pop`. -/
def pushAndPopDepths : DepthMap pushAndPopProgram where
  depth k := if k = 1 then 1 else 0
  pops k := if k = 1 then 1 else 0
  pushes k := if k = 0 then 1 else 0
  pushes_eq k i hi := by
    left
    match k, hi with
    | 0, hi => exact Option.some.inj hi ▸ rfl
    | 1, hi => exact Option.some.inj hi ▸ rfl
    | 2, hi => exact Option.some.inj hi ▸ rfl
  pops_le k _ := Nat.le_refl _
  entry := rfl
  handler r hr := by cases hr
  filter r hr := by cases hr
  flow k i k' _ hi hflow := by
    -- there is no branch and no switch
    cases hflow with
    | next hi' hends =>
        match k, hi, hi' with
        | 0, hi, _ => exact Option.some.inj hi ▸ rfl
        | 1, hi, _ => exact Option.some.inj hi ▸ rfl
        | 2, _, hi' =>
            rw [← Option.some.inj hi'] at hends
            cases hends
    | branch hi' _ htarget =>
        match k, hi' with
        | 0, hi' => rw [← Option.some.inj hi'] at htarget; cases htarget
        | 1, hi' => rw [← Option.some.inj hi'] at htarget; cases htarget
        | 2, hi' => rw [← Option.some.inj hi'] at htarget; cases htarget
    | behind hi' hswitch =>
        match k, hi' with
        | 0, hi' => rw [← Option.some.inj hi'] at hswitch; cases hswitch
        | 1, hi' => rw [← Option.some.inj hi'] at hswitch; cases hswitch
        | 2, hi' => rw [← Option.some.inj hi'] at hswitch; cases hswitch
    | arm hi' hswitch =>
        match k, hi' with
        | 0, hi' => rw [← Option.some.inj hi'] at hswitch; cases hswitch
        | 1, hi' => rw [← Option.some.inj hi'] at hswitch; cases hswitch
        | 2, hi' => rw [← Option.some.inj hi'] at hswitch; cases hswitch

end DdTrace.Profiler
