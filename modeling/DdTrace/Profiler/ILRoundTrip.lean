import Mathlib.Data.Nat.Bitwise
import DdTrace.Profiler.ILProgram

/-!
# What is written is read back

A method body that was read, edited and written has the program of the edited list, but for short
branches that got their long form.

* `ILRewriter.Sound`: what the writer relies on.
* `ILRewriter.Sound.read_back`: what was written is read back.

Sources: `il_rewriter.h`; `il_rewriter.cpp`.
-/

namespace DdTrace.Profiler

open DdTrace.Lib DdTrace.Lib.Outcomes
open ILRewriter (offsetOf importIL OffsetToInstr importClause exportClause exportPass importMethod
  exportMethod)

variable {il js : List ILInstr} {ref : InstrRef} {k : Nat}

/-! ## The body -/

/-- What the writer relies on. -/
structure ILRewriter.Sound (s : ILRewriter) : Prop where
  exportable : Exportable s.il
  distinct : Distinct s.il
  stands : ∀ c ∈ s.eh, c.Stands s.il
  length_eh : s.eh.length ≤ maxClauses
  flags : s.flags = 0 ∨ s.flags = 0x10
  localVarSigTok : s.tkLocalVarSig < 2 ^ 32
  fat : s.generateTinyHeader = false
  nInstrs : s.nInstrs = s.il.length

theorem Lengthened.instruction (hall : AllLengthened il js) {i j : ILInstr} (h : Lengthened i j) :
    Instruction.Lengthened (i.instruction il) (j.instruction js) := by
  rw [ILInstr.instruction, ILInstr.instruction, h.isBranch_eq, h.arg, h.target, hall.position_eq]
  rcases h.opcode with heq | ⟨hshort, hwiden⟩
  · rw [heq]
    exact Or.inl rfl
  · have hbranch : i.isBranch = true := by
      rw [ILInstr.isBranch, hshort]
      rfl
    rw [if_pos hbranch, if_pos hbranch]
    exact Or.inr ⟨hshort, hwiden, rfl⟩

theorem AllLengthened.shaped (h : AllLengthened il js) {pending : Nat}
    (hshape : Shaped il pending) :
    Shaped js pending := by
  induction h generalizing pending with
  | nil => exact hshape
  | @cons i j is js hij _ ih =>
      rw [Shaped] at hshape ⊢
      rw [hij.isArm_eq, hij.arg]
      split
      case isTrue harm =>
        rw [if_pos harm] at hshape
        exact ⟨hshape.1, ih hshape.2⟩
      case isFalse harm =>
        rw [if_neg harm] at hshape
        refine ⟨hshape.1, ?_⟩
        have hswitch := hij.switch_iff
        by_cases hi : i.opcode = Cee.switch
        · rw [if_pos (hswitch.mpr hi)]
          rw [if_pos hi] at hshape
          exact ih hshape.2
        · rw [if_neg fun hj => hi (hswitch.mp hj)]
          rw [if_neg hi] at hshape
          exact ih hshape.2

theorem AllLengthened.exportable (h : AllLengthened il js) (he : Exportable il) :
    Exportable js := by
  refine ⟨fun j hj => ?_, h.shaped he.shaped, fun j hj hbranch => ?_, fun j hj hbranch => ?_⟩
  · obtain ⟨i, hi, hij⟩ := h.exists_of_mem hj
    exact hij.known (he.known i hi)
  · obtain ⟨i, hi, hij⟩ := h.exists_of_mem hj
    rw [hij.isBranch_eq] at hbranch
    rcases hij.opcode with heq | ⟨hshort, -⟩
    · have hoperand := he.operands i hi hbranch
      rw [ILInstr.operand] at hoperand ⊢
      rw [heq, hij.arg]
      exact hoperand
    · rw [ILInstr.isBranch, hshort] at hbranch
      cases hbranch
  · obtain ⟨i, hi, hij⟩ := h.exists_of_mem hj
    rw [hij.isBranch_eq] at hbranch
    rw [hij.target]
    exact h.lands (he.targets i hi hbranch)

theorem AllLengthened.distinct (h : AllLengthened il js) (hd : Distinct il) : Distinct js := by
  refine ⟨by rw [h.map_ref]; exact hd.nodup, fun j hj => ?_⟩
  obtain ⟨i, hi, hij⟩ := h.exists_of_mem hj
  rw [hij.ref]
  exact hd.ne_sentinel i hi

theorem AllLengthened.stands (h : AllLengthened il js) {c : EHClause} (hc : c.Stands il) :
    c.Stands js := by
  refine ⟨h.lands hc.tryBegin, h.lands hc.tryEnd, h.lands hc.handlerBegin, ?_,
    fun hfilter => h.lands (hc.filter hfilter), hc.flags, hc.classToken⟩
  obtain ⟨k, hk, hlands⟩ := hc.handlerEnd
  refine ⟨k, ?_, ?_⟩
  · rw [h.following_eq]
    exact hk
  · rw [h.pointerAt_eq]
    exact h.lands hlands

theorem AllLengthened.region (h : AllLengthened il js) (c : EHClause) :
    c.region js = c.region il := by
  simp only [EHClause.region, h.position_eq]

/-- The clauses are written and read back. -/
theorem exportClauses_spec (hdistinct : Distinct il) (hknown : ∀ i ∈ il, i.Known)
    (hlt : totalSize il + 1 < 2 ^ 32) (hback : IsReadBack il js) (target : ILInstr → Nat)
    {eh : List EHClause} (heh : ∀ c ∈ eh, c.Stands il) :
    ∃ fats, eh.mapM (exportClause (placed il 0) (totalSize il)) = .ok fats ∧
      fats.length = eh.length ∧ (∀ fat ∈ fats, fat.Bounded) ∧
      ∃ eh', fats.mapM (importClause (tableOf il target) js) = .ok eh' ∧
        eh'.map (EHClause.region js) = eh.map (EHClause.region il) := by
  induction eh with
  | nil => exact ⟨[], rfl, rfl, fun fat hfat => absurd hfat List.not_mem_nil, [], rfl, rfl⟩
  | cons c eh ih =>
      obtain ⟨hc, heh⟩ := List.forall_mem_cons.mp heh
      obtain ⟨fat, hfat, hbounded, c', hc', hregion⟩ :=
        exportClause_spec hdistinct hknown hlt hback hc
      obtain ⟨fats, hfats, hlength, hall, eh', heh', hregions⟩ := ih heh
      refine ⟨fat :: fats, ?_, congrArg (· + 1) hlength, List.forall_mem_cons.mpr ⟨hbounded, hall⟩,
        c' :: eh', ?_, ?_⟩
      · rw [List.mapM_cons, hfat, ok_bind, hfats]
        rfl
      · rw [List.mapM_cons, hc', ok_bind, heh']
        rfl
      · rw [List.map_cons, List.map_cons, hregion, hregions]

/-- A body is read exactly if its header, its code and its clauses are. -/
theorem importMethod_eq_ok_iff {body : List UInt8} {s : ILRewriter} :
    importMethod body = .ok s ↔ ∃ d table il eh, decoderInit body = .ok d ∧
      importIL d.code = .ok (table, il) ∧ d.eh.mapM (importClause table il) = .ok eh ∧
      s = { tkLocalVarSig := d.localVarSigTok
            maxStack := il.foldl ILRewriter.adjustState d.maxStack
            flags := d.flags &&& 0x10, il := il, eh := eh, nInstrs := il.length } := by
  rw [importMethod, bind_eq_ok]
  constructor
  · rintro ⟨d, hd, h⟩
    obtain ⟨⟨table, il⟩, hil, h⟩ := bind_eq_ok.mp h
    obtain ⟨eh, heh, h⟩ := bind_eq_ok.mp h
    exact ⟨d, table, il, eh, hd, hil, heh, (Except.ok.inj h).symm⟩
  · rintro ⟨d, table, il, eh, hd, hil, heh, rfl⟩
    exact ⟨d, hd, bind_eq_ok.mpr ⟨_, hil, bind_eq_ok.mpr ⟨eh, heh, rfl⟩⟩⟩

/-- A body with a fat header is written exactly if the code is, the clauses are, and its size is an
`unsigned`. -/
theorem exportMethod_eq_ok_iff {s : ILRewriter} (hfat : s.generateTinyHeader = false)
    {fill : Nat → UInt8} {body : List UInt8} :
    exportMethod fill s = .ok body ↔ ∃ il total code eh,
      retry (exportPass (uint32 (s.nInstrs * 10))) .undefined (s.il.length + 1)
        (s.il, ⟨uint32 (s.nInstrs * 10), fill⟩) = .ok (il, total, code) ∧
      s.eh.mapM (exportClause il total) = .ok eh ∧ fatSize code.length eh.length < 2 ^ 32 ∧
      body = fatBody ⟨s.flags, s.maxStack, s.tkLocalVarSig, code, eh⟩ fill := by
  rw [exportMethod, bind_eq_ok]
  constructor
  · rintro ⟨⟨il, total, code⟩, hretry, h⟩
    simp only [hfat, Bool.false_eq_true, if_false] at h
    obtain ⟨eh, heh, h⟩ := bind_eq_ok.mp h
    split at h
    case isTrue => cases h
    case isFalse hsize =>
      exact ⟨il, total, code, eh, hretry, heh, Nat.not_le.mp hsize, (Except.ok.inj h).symm⟩
  · rintro ⟨il, total, code, eh, hretry, heh, hsize, rfl⟩
    refine ⟨_, hretry, ?_⟩
    simp only [hfat, Bool.false_eq_true, if_false]
    rw [heh, ok_bind, if_neg (Nat.not_le.mpr hsize)]
    rfl

/-- **What was written is read back**, with the program of the list, but for short branches that got
their long form. -/
theorem ILRewriter.Sound.read_back {s : ILRewriter} (h : s.Sound) {fill : Nat → UInt8}
    {body : List UInt8} (hbody : exportMethod fill s = .ok body) :
    ∃ d s', decoderInit body = .ok d ∧ d.maxStack = s.maxStack % 2 ^ 16 ∧
      importMethod body = .ok s' ∧ s.program.Lengthened s'.program := by
  obtain ⟨placedIL, total, code, fats, hretry, hfats, -, rfl⟩ :=
    (exportMethod_eq_ok_iff h.fat).mp hbody
  have hsize : uint32 (s.nInstrs * 10) + 1 < 2 ^ 32 := by
    rw [uint32]
    omega
  obtain ⟨il, hil, rfl, rfl, hcoded⟩ := coded_of_retry hsize hretry
  have hexportable := hil.exportable h.exportable
  obtain ⟨js, hjs, hback⟩ := importIL_of_coded hexportable hcoded
  obtain ⟨fats', hfats', hlength, hbounded, eh, heh, hregions⟩ :=
    exportClauses_spec (hil.distinct h.distinct) hexportable.known hcoded.lt hback (assigned il)
      fun c hc => hil.stands (h.stands c hc)
  obtain rfl := Except.ok.inj (hfats.symm.trans hfats')
  have hvalid : MethodDecoder.Valid ⟨s.flags, s.maxStack, s.tkLocalVarSig, code, fats⟩ := by
    refine ⟨h.localVarSigTok, ?_, ?_, hbounded⟩
    · have hlength : code.length = totalSize il := by rw [hcoded.code, length_codeFrom]
      have hlt := hcoded.lt
      show code.length < 2 ^ 32
      omega
    · rw [hlength]
      exact h.length_eh
  obtain ⟨d, hd, hflags, hmax, hlocals, hcode, hclauses⟩ :=
    decoderInit_fatBody hvalid h.flags fill
  have hjs : importIL d.code = .ok (tableOf il (assigned il), js) := by rw [hcode, hjs]
  have heh : d.eh.mapM (importClause (tableOf il (assigned il)) js) = .ok eh := by
    rw [hclauses, heh]
  refine ⟨d, _, hd, hmax, importMethod_eq_ok_iff.mpr ⟨d, _, js, eh, hd, hjs, heh, rfl⟩, ?_⟩
  refine ⟨?_, ?_, hlocals, hflags⟩
  · show List.Forall₂ _ (s.il.map (ILInstr.instruction s.il)) (js.map (ILInstr.instruction js))
    rw [hback.instructions, List.forall₂_map_left_iff, List.forall₂_map_right_iff]
    exact hil.imp fun i j hij => hij.instruction hil
  · show eh.map (EHClause.region js) = s.eh.map (EHClause.region s.il)
    rw [hregions]
    exact List.map_congr_left fun c _ => hil.region c

/-- A pointer that lands is that of an instruction of the list. -/
theorem Lands.listed (h : Lands il ref) : Listed il ref := by
  rcases h with href | ⟨i, hi, -⟩
  · exact Or.inl href
  · have href : i.ref = ref := by simpa using List.find?_some hi
    rw [← href]
    exact Or.inr (List.mem_map_of_mem (List.mem_of_find?_eq_some hi))

/-- **A list with room in the buffer is written.** -/
theorem ILRewriter.Sound.exists_exportMethod {s : ILRewriter} (h : s.Sound)
    (hroom : 10 * s.nInstrs < 2 ^ 32) (fill : Nat → UInt8) :
    ∃ body, exportMethod fill s = .ok body := by
  obtain ⟨⟨placedIL, total, code⟩, hretry⟩ := exists_code h.exportable.known
    (Nat.le_of_eq h.nInstrs.symm) hroom (fun i hi hbranch =>
      (h.exportable.targets i hi hbranch).listed) fill
  have hsize : uint32 (s.nInstrs * 10) + 1 < 2 ^ 32 := by
    rw [uint32]
    omega
  obtain ⟨il, hil, rfl, rfl, hcoded⟩ := coded_of_retry hsize hretry
  have hexportable := hil.exportable h.exportable
  obtain ⟨js, -, hback⟩ := importIL_of_coded hexportable hcoded
  obtain ⟨fats, hfats, hlength, -⟩ :=
    exportClauses_spec (hil.distinct h.distinct) hexportable.known hcoded.lt hback (assigned il)
      fun c hc => hil.stands (h.stands c hc)
  refine ⟨_, (exportMethod_eq_ok_iff h.fat).mpr
    ⟨placed il 0, totalSize il, code, fats, hretry, hfats, ?_, rfl⟩⟩
  have hcode : code.length = totalSize il := by rw [hcoded.code, length_codeFrom]
  have hle := totalSize_le il
  have hclauses := h.length_eh
  rw [← hil.length_eq, ← h.nInstrs] at hle
  rw [hcode, hlength, fatSize, align4]
  simp only [maxClauses] at hclauses
  split
  · omega
  · omega

/-! ## What the reader makes -/

/-- What is found at an offset is an instruction that is no arm, and the offset is that of its
place. -/
theorem eq_of_find?_decodedFrom {target : ILInstr → Nat} {offset n m : Nat}
    {entry : Option Nat × ILInstr}
    (h : ((decodedFrom target il offset m).find? fun entry => entry.1 = some n) = some entry) :
    ∃ k i, il[k]? = some i ∧ i.isArm = false ∧ n = offset + totalSize (il.take k) ∧
      entry.2.ref = m + k + 1 := by
  induction il generalizing offset m with
  | nil => cases h
  | cons i il ih =>
      rw [decodedFrom, List.find?_cons] at h
      by_cases hfirst : (if i.isArm then none else some offset) = some n
      · rw [decide_eq_true hfirst] at h
        obtain rfl := Option.some.inj h
        split at hfirst
        case isTrue => cases hfirst
        case isFalse harm =>
          exact ⟨0, i, rfl, Bool.eq_false_iff.mpr harm, (Option.some.inj hfirst).symm, rfl⟩
      · rw [decide_eq_false hfirst] at h
        obtain ⟨k, j, hj, harm, hn, href⟩ := ih h
        refine ⟨k + 1, j, hj, harm, ?_, ?_⟩
        · rw [hn, List.take_succ_cons, totalSize_cons, Nat.add_assoc]
        · rw [href, Nat.add_right_comm m 1 k]
          rfl

/-- What the reader finds at an offset is at the place of that offset. -/
theorem place_of_getInstrFromOffset {target : ILInstr → Nat} {n : Nat}
    (h : (tableOf il target).getInstrFromOffset n = .ok ref) : ∃ k ≤ il.length,
      n = totalSize (il.take k) ∧ ref = refAt il.length k ∧
      ∀ i, il[k]? = some i → i.isArm = false := by
  rw [OffsetToInstr.getInstrFromOffset] at h
  split at h
  case isTrue hn =>
    obtain rfl := Except.ok.inj h
    refine ⟨il.length, Nat.le_refl _, ?_, (if_pos rfl).symm, fun i hi => ?_⟩
    · rw [List.take_length]
      exact hn
    · rw [List.getElem?_eq_none (Nat.le_refl _)] at hi
      cases hi
  case isFalse =>
    split at h
    case h_1 entry hfind =>
      obtain ⟨k, i, hi, harm, hn, href⟩ := eq_of_find?_decodedFrom hfind
      obtain ⟨hlt, -⟩ := List.getElem?_eq_some_iff.mp hi
      refine ⟨k, Nat.le_of_lt hlt, ?_, ?_, fun j hj => ?_⟩
      · rw [hn, Nat.zero_add]
      · rw [← Except.ok.inj h, href, refAt, if_neg (Nat.ne_of_lt hlt), Nat.zero_add]
      · obtain rfl := Option.some.inj (hi.symm.trans hj)
        exact harm
    case h_2 => cases h

/-- Two instructions have the same code, for given offsets of the targets. -/
structure SameCode (target target' : ILInstr → Nat) (i j : ILInstr) : Prop where
  opcode : j.opcode = i.opcode
  arg : j.arg = i.arg
  target : i.isBranch = true → target' j = target i

namespace SameCode

variable {target target' : ILInstr → Nat} {i j : ILInstr}

theorem size_eq (h : SameCode target target' i j) : j.size = i.size := by
  rw [ILInstr.size, ILInstr.size, h.opcode]

theorem isArm_eq (h : SameCode target target' i j) : j.isArm = i.isArm := by
  rw [ILInstr.isArm, ILInstr.isArm, h.opcode]

theorem isBranch_eq (h : SameCode target target' i j) : j.isBranch = i.isBranch := by
  rw [ILInstr.isBranch, ILInstr.isBranch, h.opcode]

theorem head_eq (h : SameCode target target' i j) : j.head = i.head := by
  rw [ILInstr.head, ILInstr.head, ILInstr.argBytes, ILInstr.argBytes, h.opcode, h.arg]

theorem baseAfter_eq (h : SameCode target target' i j) (offset base : Nat) :
    baseAfter j offset base = baseAfter i offset base := by
  rw [baseAfter, baseAfter, h.opcode, h.arg]

theorem tail_eq (h : SameCode target target' i j) (next base : Nat) :
    j.tail next base (target' j) = i.tail next base (target i) := by
  by_cases hbranch : i.isBranch = true
  · rw [ILInstr.tail, ILInstr.tail, h.opcode, h.isArm_eq, h.target hbranch]
  · have hfalse := Bool.eq_false_iff.mpr hbranch
    rw [ILInstr.tail_eq_nil hfalse, ILInstr.tail_eq_nil (h.isBranch_eq.trans hfalse)]

theorem operand_eq (h : SameCode target target' i j) :
    j.operand (target' j) = i.operand (target i) := by
  by_cases hbranch : i.isBranch = true
  · rw [ILInstr.operand, ILInstr.operand, h.opcode, h.arg, h.target hbranch]
  · rw [ILInstr.operand_congr (Bool.eq_false_iff.mpr hbranch) (target i) (target' j),
      ILInstr.operand, ILInstr.operand, h.opcode, h.arg]

variable (h : List.Forall₂ (SameCode target target') il js)

include h

theorem totalSize_eq : totalSize js = totalSize il := by
  induction h with
  | nil => rfl
  | cons hij _ ih => rw [totalSize_cons, totalSize_cons, hij.size_eq, ih]

theorem shaped {pending : Nat} (hshape : Shaped il pending) : Shaped js pending := by
  induction h generalizing pending with
  | nil => exact hshape
  | cons hij _ ih =>
      rw [Shaped] at hshape ⊢
      rw [hij.isArm_eq, hij.opcode, hij.arg]
      split
      case isTrue harm =>
        rw [if_pos harm] at hshape
        exact ⟨hshape.1, ih hshape.2⟩
      case isFalse harm =>
        rw [if_neg harm] at hshape
        exact ⟨hshape.1, ih hshape.2⟩

theorem codeFrom_eq (offset base : Nat) :
    codeFrom target' js offset base = codeFrom target il offset base := by
  induction h generalizing offset base with
  | nil => rfl
  | cons hij _ ih =>
      rw [codeFrom, codeFrom, hij.head_eq, hij.tail_eq, hij.size_eq, hij.baseAfter_eq, ih]

theorem reaches {offset : Nat} (hreaches : Reaches target il offset) :
    Reaches target' js offset := by
  induction h generalizing offset with
  | nil => trivial
  | @cons i j _ _ hij _ ih =>
      rw [Reaches, hij.opcode, hij.size_eq]
      refine ⟨fun hshort => ?_, ih hreaches.2⟩
      have hbranch : i.isBranch = true := by
        rw [ILInstr.isBranch, hshort]
        rfl
      rw [hij.target hbranch]
      exact hreaches.1 hshort

theorem decodedFrom_eq (offset n : Nat) :
    decodedFrom target' js offset n = decodedFrom target il offset n := by
  induction h generalizing offset n with
  | nil => rfl
  | cons hij _ ih =>
      rw [decodedFrom, decodedFrom, hij.isArm_eq, hij.opcode, hij.operand_eq, hij.size_eq, ih]

end SameCode

/-- What holds of the instructions that were read. -/
structure Imported (code : List UInt8) (il : List ILInstr) : Prop where
  known : ∀ i ∈ il, i.Known
  shaped : Shaped il 0
  numbered : Numbered il
  operands : ∀ i ∈ il, i.operand i.arg = i.arg
  reaches : Reaches ILInstr.arg il 0
  code : code = codeFrom ILInstr.arg il 0 0
  targets : ∀ i ∈ il, i.isBranch = true →
    (tableOf il ILInstr.arg).getInstrFromOffset i.arg = .ok i.target

/-- The reader gives a branch its target, and changes nothing else. -/
theorem sameCode_of_resolve {table : OffsetToInstr} {i j : ILInstr} (h : table.resolve i = .ok j) :
    SameCode ILInstr.arg ILInstr.arg i j ∧ j.ref = i.ref ∧
      (j.isBranch = true → table.getInstrFromOffset j.arg = .ok j.target) := by
  rw [OffsetToInstr.resolve] at h
  split at h
  case isTrue =>
    obtain ⟨target, htarget, h⟩ := bind_eq_ok.mp h
    obtain rfl := Except.ok.inj h
    exact ⟨⟨rfl, rfl, fun _ => rfl⟩, rfl, fun _ => htarget⟩
  case isFalse hbranch =>
    obtain rfl := Except.ok.inj h
    exact ⟨⟨rfl, rfl, fun _ => rfl⟩, rfl, fun hj => absurd hj hbranch⟩

/-- **What the reader accepts** is the code of its list, with the offsets that it found there as the
offsets of the targets. -/
theorem imported_of_importIL {code : List UInt8} {table : OffsetToInstr}
    (hcode : code.length < 2 ^ 32) (h : importIL code = .ok (table, il)) :
    table = tableOf il ILInstr.arg ∧ Imported code il := by
  rw [ILRewriter.importIL] at h
  split at h
  case isTrue => cases h
  case isFalse =>
    obtain ⟨entries, hentries, h⟩ := bind_eq_ok.mp h
    obtain ⟨js, hjs, h⟩ := bind_eq_ok.mp h
    obtain ⟨rfl, rfl⟩ := Prod.mk.inj (Except.ok.inj h)
    have hfound := found_of_importLoop hcode (Nat.zero_le _) hentries
    have hforall := mapM_eq_ok_iff.mp hjs
    have hsame : List.Forall₂ (SameCode ILInstr.arg ILInstr.arg) (entries.map Prod.snd) js := by
      rw [List.forall₂_map_left_iff]
      exact hforall.imp fun _ _ hresolve => (sameCode_of_resolve hresolve).1
    have htotal : code.length = totalSize js := by
      rw [SameCode.totalSize_eq hsame, hfound.parsed.fin_eq, Nat.zero_add]
    have htable : (⟨entries, code.length⟩ : OffsetToInstr) = tableOf js ILInstr.arg := by
      rw [tableOf, SameCode.decodedFrom_eq hsame, ← hfound.decoded, htotal]
    have hplace (k : Nat) (j : ILInstr) (hj : js[k]? = some j) : ∃ i, i.Known ∧ i.ref = k + 1 ∧
        i.operand i.arg = i.arg ∧ (⟨entries, code.length⟩ : OffsetToInstr).resolve i = .ok j := by
      obtain ⟨hlt, rfl⟩ := List.getElem?_eq_some_iff.mp hj
      have hlt' : k < entries.length := by
        rw [hforall.length_eq]
        exact hlt
      have hentry := List.getElem?_eq_getElem hlt'
      have hdecoded := getElem?_decodedFrom ILInstr.arg (entries.map Prod.snd) 0 0 k
      rw [← hfound.decoded, List.getElem?_map, hentry] at hdecoded
      have hi := Option.some.inj hdecoded
      refine ⟨entries[k].2,
        hfound.parsed.known _ (List.mem_map_of_mem (List.getElem_mem hlt')), ?_,
        (congrArg ILInstr.arg hi).symm, hforall.get hlt' hlt⟩
      rw [hi, Nat.zero_add]
    have hmem (j : ILInstr) (hj : j ∈ js) : ∃ i, i.Known ∧ i.operand i.arg = i.arg ∧
        (⟨entries, code.length⟩ : OffsetToInstr).resolve i = .ok j := by
      obtain ⟨k, hk⟩ := List.mem_iff_getElem?.mp hj
      obtain ⟨i, hknown, -, hi⟩ := hplace k j hk
      exact ⟨i, hknown, hi⟩
    refine ⟨htable, ?_, SameCode.shaped hsame hfound.shaped, ?_, ?_,
      SameCode.reaches hsame hfound.parsed.reaches, ?_, ?_⟩
    · intro j hj
      obtain ⟨i, hknown, -, hresolve⟩ := hmem j hj
      obtain ⟨hij, -, -⟩ := sameCode_of_resolve hresolve
      rw [ILInstr.Known, hij.isArm_eq, hij.opcode]
      exact hknown
    · intro k j hj
      obtain ⟨i, -, href, -, hresolve⟩ := hplace k j hj
      obtain ⟨-, hsameRef, -⟩ := sameCode_of_resolve hresolve
      rw [hsameRef, href]
    · intro j hj
      obtain ⟨i, -, hoperand, hresolve⟩ := hmem j hj
      obtain ⟨hij, -, -⟩ := sameCode_of_resolve hresolve
      rw [hij.operand_eq, hij.arg, hoperand]
    · rw [SameCode.codeFrom_eq hsame, ← hfound.drop 0, List.drop_zero]
    · intro j hj hbranch
      obtain ⟨i, -, -, hresolve⟩ := hmem j hj
      obtain ⟨-, -, htarget⟩ := sameCode_of_resolve hresolve
      rw [← htable]
      exact htarget hbranch

/-- An instruction of the list is found. -/
theorem Distinct.find?_eq (h : Distinct il) {i : ILInstr} (hi : i ∈ il) :
    (il.find? fun j => j.ref = i.ref) = some i := by
  have hnodup := h.nodup
  clear h
  induction il with
  | nil => cases hi
  | cons j il ih =>
      rw [List.map_cons, List.nodup_cons] at hnodup
      rw [List.find?_cons]
      rcases List.mem_cons.mp hi with rfl | hi
      · rw [decide_eq_true rfl]
      · have hne : ¬j.ref = i.ref := by
          intro href
          rw [href] at hnodup
          exact hnodup.1 (List.mem_map_of_mem hi)
        rw [decide_eq_false hne]
        exact ih hi hnodup.2

/-- A pointer to a place where no arm is lands there. -/
theorem Distinct.lands_pointerAt (h : Distinct il) (harm : ∀ i, il[k]? = some i → i.isArm = false) :
    Lands il (pointerAt il k) := by
  rw [pointerAt]
  cases hi : il[k]? with
  | none => exact Or.inl rfl
  | some i => exact Or.inr ⟨i, h.find?_eq (List.mem_of_getElem? hi), harm i hi⟩

/-- What is found at an offset is where that offset is. -/
theorem Numbered.exists_of_getInstrFromOffset (h : Numbered il) {target : ILInstr → Nat} {n : Nat}
    (hget : (tableOf il target).getInstrFromOffset n = .ok ref) :
    Lands il ref ∧ ∃ k ≤ il.length, ref = pointerAt il k ∧ position il ref = some k ∧
      n = totalSize (il.take k) := by
  obtain ⟨k, hk, hn, href, harm⟩ := place_of_getInstrFromOffset hget
  rw [← h.pointerAt_eq hk] at href
  refine ⟨by rw [href]; exact h.distinct.lands_pointerAt harm, k, hk, href, ?_, hn⟩
  rw [href]
  exact h.distinct.position_pointerAt hk

theorem Imported.exportable {code : List UInt8} (h : Imported code il) : Exportable il := by
  refine ⟨h.known, h.shaped, fun i hi hbranch => ?_, fun i hi hbranch => ?_⟩
  · rw [ILInstr.operand_congr hbranch 0 i.arg, h.operands i hi]
  · obtain ⟨hlands, -⟩ := h.numbered.exists_of_getInstrFromOffset (h.targets i hi hbranch)
    exact hlands

/-- What the reader makes of a clause. -/
structure ClauseRead (table : OffsetToInstr) (il : List ILInstr) (fat : EHClauseFat)
    (c : EHClause) :
    Prop where
  flags : c.flags = fat.flags
  tryBegin : table.getInstrFromOffset fat.tryOffset = .ok c.tryBegin
  tryEnd : table.getInstrFromOffset (uint32 (fat.tryOffset + fat.tryLength)) = .ok c.tryEnd
  handlerBegin : table.getInstrFromOffset fat.handlerOffset = .ok c.handlerBegin
  handlerEnd : ∃ handlerNext, ILRewriter.prev il handlerNext = some c.handlerEnd ∧
    table.getInstrFromOffset (uint32 (fat.handlerOffset + fat.handlerLength)) = .ok handlerNext
  filter : isFilter fat.flags = true → table.getInstrFromOffset fat.classToken = .ok c.filter
  classToken : isFilter fat.flags = false → c.classToken = fat.classToken

theorem clauseRead_of_importClause {table : OffsetToInstr} {fat : EHClauseFat} {c : EHClause}
    (h : importClause table il fat = .ok c) : ClauseRead table il fat c := by
  rw [ILRewriter.importClause] at h
  obtain ⟨tryBegin, htryBegin, h⟩ := bind_eq_ok.mp h
  obtain ⟨tryEnd, htryEnd, h⟩ := bind_eq_ok.mp h
  obtain ⟨handlerBegin, hhandlerBegin, h⟩ := bind_eq_ok.mp h
  obtain ⟨handlerNext, hhandlerNext, h⟩ := bind_eq_ok.mp h
  obtain ⟨handlerEnd, hhandlerEnd, h⟩ := bind_eq_ok.mp h
  have hprev := deref_eq_ok hhandlerEnd
  split at h
  case isTrue hfilter =>
    obtain ⟨filter, hfound, h⟩ := bind_eq_ok.mp h
    obtain rfl := Except.ok.inj h
    refine ⟨rfl, htryBegin, htryEnd, hhandlerBegin, ⟨handlerNext, hprev, hhandlerNext⟩,
      fun _ => hfound, fun hfalse => ?_⟩
    rw [hfilter] at hfalse
    cases hfalse
  case isFalse hfilter =>
    obtain rfl := Except.ok.inj h
    exact ⟨rfl, htryBegin, htryEnd, hhandlerBegin, ⟨handlerNext, hprev, hhandlerNext⟩,
      fun htrue => absurd htrue hfilter, fun _ => rfl⟩

/-- The end of a handler that was read is what precedes an instruction of the list. -/
theorem Numbered.following_of_prev (h : Numbered il) {e : InstrRef} (hk : k ≤ il.length)
    (hprev : ILRewriter.prev il (pointerAt il k) = some e) : following il e = some k := by
  obtain ⟨e', he', hfollowing⟩ := h.distinct.exists_prev hk
  rw [Option.some.inj (hprev.symm.trans he')]
  exact hfollowing

theorem ClauseRead.stands {fat : EHClauseFat} {c : EHClause} (hnum : Numbered il)
    {target : ILInstr → Nat} (h : ClauseRead (tableOf il target) il fat c) (hfat : fat.Bounded) :
    c.Stands il := by
  refine ⟨(hnum.exists_of_getInstrFromOffset h.tryBegin).1,
    (hnum.exists_of_getInstrFromOffset h.tryEnd).1,
    (hnum.exists_of_getInstrFromOffset h.handlerBegin).1, ?_, fun hfilter => ?_, ?_, fun hfilter => ?_⟩
  · obtain ⟨handlerNext, hprev, hnext⟩ := h.handlerEnd
    obtain ⟨hlands, k, hk, rfl, -⟩ := hnum.exists_of_getInstrFromOffset hnext
    exact ⟨k, hnum.following_of_prev hk hprev, hlands⟩
  · rw [h.flags] at hfilter
    exact (hnum.exists_of_getInstrFromOffset (h.filter hfilter)).1
  · rw [h.flags]
    exact hfat.flags
  · rw [h.flags] at hfilter
    rw [h.classToken hfilter]
    exact hfat.classToken

/-- **What the reader makes can be written.** -/
theorem sound_of_importMethod {body : List UInt8} {s : ILRewriter}
    (h : importMethod body = .ok s) : s.Sound := by
  obtain ⟨d, table, il, eh, hd, hil, heh, rfl⟩ := importMethod_eq_ok_iff.mp h
  have hvalid := decoderInit_valid hd
  obtain ⟨rfl, himported⟩ := imported_of_importIL hvalid.code hil
  have hforall := mapM_eq_ok_iff.mp heh
  refine ⟨himported.exportable, himported.numbered.distinct, fun c hc => ?_, ?_, ?_,
    hvalid.localVarSigTok, rfl, rfl⟩
  · obtain ⟨k, hlt, rfl⟩ := List.mem_iff_getElem.mp hc
    have hlt' : k < d.eh.length := by
      rw [hforall.length_eq]
      exact hlt
    exact (clauseRead_of_importClause (hforall.get hlt' hlt)).stands himported.numbered
      (hvalid.eh _ (List.getElem_mem hlt'))
  · show eh.length ≤ maxClauses
    rw [← hforall.length_eq]
    exact hvalid.length_eh
  · show d.flags &&& 2 ^ 4 = 0 ∨ d.flags &&& 2 ^ 4 = 0x10
    rw [Nat.and_two_pow]
    cases d.flags.testBit 4 with
    | false => exact Or.inl rfl
    | true => exact Or.inr rfl

end DdTrace.Profiler
