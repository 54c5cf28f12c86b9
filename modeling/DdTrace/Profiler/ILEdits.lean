import DdTrace.Profiler.ILRoundTrip

/-!
# Edited bodies

* `exportMethod_unchanged`: a body that was not edited keeps its code and its clauses.
* `WellInserted`: insertions that leave a list of instructions.
* `exportMethod_edited`: what is read after a body was read, edited and written.

Sources: `il_rewriter.h`; `il_rewriter.cpp`.
-/

namespace DdTrace.Profiler

open DdTrace.Lib DdTrace.Lib.Outcomes
open ILRewriter (offsetOf importIL OffsetToInstr importClause exportClause exportPass importMethod
  exportMethod layOut patch)

variable {il js : List ILInstr} {ref : InstrRef} {k : Nat}

/-! ## No insertion -/

/-- Where all short branches reach their targets none is made longer. -/
theorem not_again_of_reaches {offsets : InstrRef → Result Nat} {offset base : Nat}
    {out out' : ByteBuffer} {again : Bool} (hreaches : Reaches (targetOf offsets) il offset)
    (h : patch offsets (offset + totalSize il) (placed il offset) base out = .ok (js, out', again)) :
    again = false := by
  induction il generalizing offset base out js with
  | nil =>
      obtain ⟨-, heq⟩ := Prod.mk.inj (Except.ok.inj h)
      exact (Prod.mk.inj heq).2.symm
  | cons i il ih =>
      have hnext : ((placed il (offset + i.size)).head?.map ILInstr.offset).getD
          (offset + totalSize (i :: il)) = offset + i.size := by
        rw [totalSize_cons, ← Nat.add_assoc, head_placed]
      have htotal : offset + totalSize (i :: il) = offset + i.size + totalSize il := by
        rw [totalSize_cons, Nat.add_assoc]
      rcases patch_cons h with ⟨out₁, js₁, hrest, -, -⟩ | ⟨j, js₁, again₁, -, -, -, hwidened⟩
      · rw [htotal] at hrest
        exact ih hreaches.2 hrest
      · have hfar := hwidened.far
        rw [hnext] at hfar
        have hfits : ILRewriter.fitsInt8 (sub32 (targetOf offsets i) (offset + i.size)) = true :=
          hreaches.1 hwidened.short
        have hsame : targetOf offsets { i with offset := offset } = targetOf offsets i := rfl
        rw [hsame, hfits] at hfar
        cases hfar

/-- One pass is enough where all short branches reach their targets. -/
theorem coded_of_reaches {maxSize fuel total : Nat} {out : ByteBuffer} {code : List UInt8}
    (hsize : out.size + 1 < 2 ^ 32) (hlt : totalSize il < 2 ^ 32)
    (hreaches : Reaches (assigned il) il 0)
    (h : retry (exportPass maxSize) .undefined fuel (il, out) = .ok (js, total, code)) :
    js = placed il 0 ∧ total = totalSize il ∧ Coded il (assigned il) code := by
  have hstep : ∀ state state' : List ILInstr × ByteBuffer, state = (il, out) →
      exportPass maxSize state = .ok (.again state') → state' = (il, out) := by
    rintro state state' rfl hpass
    rw [ILRewriter.exportPass] at hpass
    obtain ⟨⟨js₁, total₁, mid⟩, hlay, hpass⟩ := bind_eq_ok.mp hpass
    obtain ⟨⟨js₂, out₁, tryAgain⟩, hpatch, hpass⟩ := bind_eq_ok.mp hpass
    obtain ⟨rfl, rfl⟩ := placed_of_layOut (by rw [Nat.zero_add]; exact hlt) hlay
    rw [Nat.zero_add] at hpatch
    have hpatch : patch (offsetOf (placed il 0) (totalSize il)) (0 + totalSize il) (placed il 0) 0 mid =
        .ok (js₂, out₁, tryAgain) := by rw [Nat.zero_add, hpatch]
    obtain rfl := not_again_of_reaches hreaches hpatch
    cases Except.ok.inj hpass
  obtain ⟨state, rfl, hdone⟩ := retry_eq_ok hstep rfl h
  exact exportPass_done hsize hdone

/-- What was found at an offset is written with that offset. -/
theorem Numbered.offsetOf_eq (h : Numbered il) {target : ILInstr → Nat} {n : Nat}
    (hget : (tableOf il target).getInstrFromOffset n = .ok ref) :
    offsetOf (placed il 0) (totalSize il) ref = .ok n := by
  obtain ⟨hlands, k, -, -, hk, rfl⟩ := h.exists_of_getInstrFromOffset hget
  obtain ⟨k', hk', hoffset⟩ := hlands.offsetOf_eq
  rw [Option.some.inj (hk.symm.trans hk')]
  exact hoffset

/-- The targets that were read are assigned the offsets they were read from. -/
theorem Imported.assigned_eq {code : List UInt8} (h : Imported code il) {i : ILInstr} (hi : i ∈ il)
    (hbranch : i.isBranch = true) : assigned il i = i.arg := by
  rw [assigned, targetOf, h.numbered.offsetOf_eq (h.targets i hi hbranch)]

theorem Imported.sameCode {code : List UInt8} (h : Imported code il) :
    List.Forall₂ (SameCode ILInstr.arg (assigned il)) il il :=
  List.forall₂_same.mpr fun _ hi => ⟨rfl, rfl, h.assigned_eq hi⟩

/-- **A clause that was read** is written as it was. -/
theorem ClauseRead.exportClause_eq (hnum : Numbered il) {target : ILInstr → Nat}
    {fat : EHClauseFat} {c : EHClause} (h : ClauseRead (tableOf il target) il fat c)
    (hfat : fat.Bounded) : exportClause (placed il 0) (totalSize il) c = .ok fat := by
  obtain ⟨handlerNext, hprev, hhandlerNext⟩ := h.handlerEnd
  obtain ⟨-, k, hk, rfl, -⟩ := hnum.exists_of_getInstrFromOffset hhandlerNext
  have hnext := next_placed (hnum.following_of_prev hk hprev)
  rw [ILRewriter.exportClause, hnum.offsetOf_eq h.tryBegin, ok_bind, hnum.offsetOf_eq h.tryEnd,
    ok_bind, hnum.offsetOf_eq h.handlerBegin, ok_bind, hnext, ILRewriter.deref, ok_bind,
    hnum.offsetOf_eq hhandlerNext, ok_bind, sub32_uint32_add hfat.tryLength hfat.tryOffset,
    sub32_uint32_add hfat.handlerLength hfat.handlerOffset, h.flags]
  by_cases hfilter : isFilter fat.flags = true
  · simp only [if_pos hfilter, hnum.offsetOf_eq (h.filter hfilter)]
    rfl
  · simp only [if_neg hfilter, h.classToken (Bool.eq_false_iff.mpr hfilter)]
    rfl

/-- **A body that was not edited** keeps its code and its clauses. -/
theorem exportMethod_unchanged {body out : List UInt8} {s : ILRewriter} {fill : Nat → UInt8}
    (himport : importMethod body = .ok s) (hexport : exportMethod fill s = .ok out) :
    ∃ d d', decoderInit body = .ok d ∧ decoderInit out = .ok d' ∧ d'.code = d.code ∧
      d'.eh = d.eh := by
  have hsound := sound_of_importMethod himport
  obtain ⟨d, table, il, eh, hd, hil, heh, rfl⟩ := importMethod_eq_ok_iff.mp himport
  have hvalid := decoderInit_valid hd
  obtain ⟨rfl, himported⟩ := imported_of_importIL hvalid.code hil
  obtain ⟨placedIL, total, code, fats, hretry, hfats, -, rfl⟩ :=
    (exportMethod_eq_ok_iff rfl).mp hexport
  have hlength : d.code.length = totalSize il := by
    rw [himported.code, length_codeFrom]
  have hreaches := SameCode.reaches himported.sameCode himported.reaches
  have hsize : uint32 (il.length * 10) + 1 < 2 ^ 32 := by
    rw [uint32]
    omega
  have hlt := hvalid.code
  rw [hlength] at hlt
  obtain ⟨rfl, rfl, hcoded⟩ := coded_of_reaches hsize hlt hreaches hretry
  have hcode : code = d.code := by
    rw [hcoded.code, SameCode.codeFrom_eq himported.sameCode, himported.code]
  have hclauses : fats = d.eh := by
    have hread := (List.forall₂_and_left d.eh eh).mpr ⟨hvalid.eh, mapM_eq_ok_iff.mp heh⟩
    have hwritten : eh.mapM (exportClause (placed il 0) (totalSize il)) = .ok d.eh :=
      mapM_eq_ok_iff.mpr (List.Forall₂.flip (hread.imp fun fat c hfat =>
        (clauseRead_of_importClause hfat.2).exportClause_eq himported.numbered hfat.1))
    exact Except.ok.inj (hfats.symm.trans hwritten)
  subst hcode hclauses
  have hvalid' : MethodDecoder.Valid
      ⟨d.flags &&& 0x10, il.foldl ILRewriter.adjustState d.maxStack, d.localVarSigTok, d.code, d.eh⟩ :=
    ⟨hvalid.localVarSigTok, hvalid.code, hvalid.length_eh, hvalid.eh⟩
  obtain ⟨d', hd', -, -, -, hcode', hclauses'⟩ := decoderInit_fatBody hvalid' hsound.flags fill
  exact ⟨d, d', hd, hd', hcode', hclauses'⟩

/-! ## Insertions -/

theorem exists_of_insertRefBefore {pWhere : InstrRef} {i : ILInstr}
    (h : ILRewriter.insertRefBefore pWhere i il = some js) :
    ∃ before behind, il = before ++ behind ∧ js = before ++ i :: behind := by
  induction il generalizing js with
  | nil =>
      rw [ILRewriter.insertRefBefore] at h
      split at h
      case isTrue => exact ⟨[], [], rfl, (Option.some.inj h).symm⟩
      case isFalse => cases h
  | cons j il ih =>
      rw [ILRewriter.insertRefBefore] at h
      split at h
      case isTrue => exact ⟨[], j :: il, rfl, (Option.some.inj h).symm⟩
      case isFalse =>
        obtain ⟨js', hjs', rfl⟩ := Option.map_eq_some_iff.mp h
        obtain ⟨before, behind, rfl, rfl⟩ := ih hjs'
        exact ⟨j :: before, behind, rfl, rfl⟩

theorem exists_of_insertRefAfter {pWhere : InstrRef} {i : ILInstr}
    (h : ILRewriter.insertRefAfter pWhere i il = some js) :
    ∃ before behind, il = before ++ behind ∧ js = before ++ i :: behind := by
  induction il generalizing js with
  | nil => cases h
  | cons j il ih =>
      rw [ILRewriter.insertRefAfter] at h
      split at h
      case isTrue => exact ⟨[j], il, rfl, (Option.some.inj h).symm⟩
      case isFalse =>
        obtain ⟨js', hjs', rfl⟩ := Option.map_eq_some_iff.mp h
        obtain ⟨before, behind, rfl, rfl⟩ := ih hjs'
        exact ⟨j :: before, behind, rfl, rfl⟩

/-- What an edit changes: there is one instruction more, and it is new. -/
structure Inserted (s s' : ILRewriter) (before behind : List ILInstr) (i : ILInstr) : Prop where
  il : s.il = before ++ behind
  il' : s'.il = before ++ i :: behind
  ref : i.ref = s.nInstrs + 1
  nInstrs : s'.nInstrs = s.nInstrs + 1
  eh : s'.eh = s.eh
  flags : s'.flags = s.flags
  tkLocalVarSig : s'.tkLocalVarSig = s.tkLocalVarSig
  generateTinyHeader : s'.generateTinyHeader = s.generateTinyHeader

theorem inserted_of_exec {s s' : ILRewriter} {edit : Edit} (h : edit.exec s = some s') :
    ∃ before behind i, Inserted s s' before behind i ∧
      s'.maxStack = ILRewriter.adjustState s.maxStack i := by
  cases edit with
  | insertBefore pWhere opcode arg target =>
      obtain ⟨il, hil, rfl⟩ := Option.map_eq_some_iff.mp h
      obtain ⟨before, behind, hbefore, rfl⟩ := exists_of_insertRefBefore hil
      exact ⟨before, behind, _, ⟨hbefore, rfl, rfl, rfl, rfl, rfl, rfl, rfl⟩, rfl⟩
  | insertAfter pWhere opcode arg target =>
      obtain ⟨il, hil, rfl⟩ := Option.map_eq_some_iff.mp h
      split at hil
      case isTrue =>
        obtain rfl := Option.some.inj hil
        exact ⟨[], s.il, _, ⟨rfl, rfl, rfl, rfl, rfl, rfl, rfl, rfl⟩, rfl⟩
      case isFalse =>
        obtain ⟨before, behind, hbefore, rfl⟩ := exists_of_insertRefAfter hil
        exact ⟨before, behind, _, ⟨hbefore, rfl, rfl, rfl, rfl, rfl, rfl, rfl⟩, rfl⟩

/-- The pointers are counted. -/
structure Counted (s : ILRewriter) : Prop where
  distinct : Distinct s.il
  le : ∀ i ∈ s.il, i.ref ≤ s.nInstrs
  nInstrs : s.nInstrs = s.il.length

/-- What edits leave as it was. -/
structure Edited (s s' : ILRewriter) : Prop where
  sublist : s.il.Sublist s'.il
  eh : s'.eh = s.eh
  flags : s'.flags = s.flags
  tkLocalVarSig : s'.tkLocalVarSig = s.tkLocalVarSig
  generateTinyHeader : s'.generateTinyHeader = s.generateTinyHeader

theorem Counted.step {s s' : ILRewriter} {before behind : List ILInstr} {i : ILInstr}
    (hs : Counted s) (h : Inserted s s' before behind i) : Counted s' := by
  have hmem (j : ILInstr) (hj : j ∈ s'.il) : j = i ∨ j ∈ s.il := by
    rw [h.il', List.mem_append, List.mem_cons] at hj
    rw [h.il, List.mem_append]
    rcases hj with hj | hj | hj
    · exact Or.inr (Or.inl hj)
    · exact Or.inl hj
    · exact Or.inr (Or.inr hj)
  refine ⟨⟨?_, fun j hj => ?_⟩, fun j hj => ?_, ?_⟩
  · have hnew : i.ref ∉ s.il.map ILInstr.ref := by
      intro hold
      obtain ⟨j, hj, href⟩ := List.mem_map.mp hold
      have hle := hs.le j hj
      rw [href, h.ref] at hle
      exact Nat.not_succ_le_self _ hle
    have hnodup := hs.distinct.nodup
    rw [h.il, List.map_append] at hnodup hnew
    rw [h.il', List.map_append, List.map_cons, List.nodup_middle, List.nodup_cons]
    exact ⟨hnew, hnodup⟩
  · rcases hmem j hj with rfl | hj
    · rw [h.ref]
      exact Nat.succ_ne_zero _
    · exact hs.distinct.ne_sentinel j hj
  · rcases hmem j hj with rfl | hj
    · rw [h.ref, h.nInstrs]
    · rw [h.nInstrs]
      exact Nat.le_succ_of_le (hs.le j hj)
  · rw [h.nInstrs, hs.nInstrs, h.il, h.il', List.length_append, List.length_append,
      List.length_cons, Nat.add_assoc]

theorem Edited.step {s s' s'' : ILRewriter} {before behind : List ILInstr} {i : ILInstr}
    (hs : Edited s s') (h : Inserted s' s'' before behind i) : Edited s s'' := by
  refine ⟨hs.sublist.trans ?_, h.eh.trans hs.eh, h.flags.trans hs.flags,
    h.tkLocalVarSig.trans hs.tkLocalVarSig, h.generateTinyHeader.trans hs.generateTinyHeader⟩
  rw [h.il, h.il']
  exact (List.Sublist.refl before).append (List.sublist_cons_self i behind)

/-- **Edits** keep the pointers distinct, and all that was there in its order. -/
theorem edited_of_run {s s' s'' : ILRewriter} {edits : List Edit} (hedited : Edited s s')
    (hcounted : Counted s') (h : runOps Edit.exec s' edits = some s'') :
    Edited s s'' ∧ Counted s'' := by
  induction edits generalizing s' with
  | nil =>
      obtain rfl := Option.some.inj h
      exact ⟨hedited, hcounted⟩
  | cons edit edits ih =>
      obtain ⟨t, ht, hrun⟩ := Option.bind_eq_some_iff.mp h
      obtain ⟨before, behind, i, hinserted, -⟩ := inserted_of_exec ht
      exact ih (hedited.step hinserted) (hcounted.step hinserted) hrun

/-- The arms that stand directly behind an instruction. -/
def armsBehind (il : List ILInstr) (ref : InstrRef) : List ILInstr :=
  match position il ref with
  | some k => (il.drop (k + 1)).takeWhile ILInstr.isArm
  | none => []

/-- **The insertions are well-formed**: the new instructions are instructions of the table with
operands of their sizes and with targets in the list, every switch has its arms, and nothing was
inserted between a switch that was there and its arms. -/
structure WellInserted (s s' : ILRewriter) : Prop where
  known : ∀ i ∈ s'.il, i ∉ s.il → i.Known
  operands : ∀ i ∈ s'.il, i ∉ s.il → i.isBranch = false → i.operand 0 = i.arg
  targets : ∀ i ∈ s'.il, i ∉ s.il → i.isBranch = true → Lands s'.il i.target
  shaped : Shaped s'.il 0
  arms : ∀ i ∈ s.il, armsBehind s'.il i.ref = armsBehind s.il i.ref

theorem armsBehind_eq_nil_iff (hk : position il ref = some k) :
    armsBehind il ref = [] ↔ ∀ i, il[k + 1]? = some i → i.isArm = false := by
  rw [armsBehind, hk, ← List.head?_drop]
  cases hdrop : il.drop (k + 1) with
  | nil => simp [hdrop]
  | cons i rest => simp [hdrop, List.takeWhile_cons]

/-- A member of the list has a place. -/
theorem Distinct.exists_position (h : Distinct il) {i : ILInstr} (hi : i ∈ il) :
    ∃ k, position il i.ref = some k ∧ il[k]? = some i := by
  obtain ⟨k, hk⟩ := List.mem_iff_getElem?.mp hi
  obtain ⟨hlt, -⟩ := List.getElem?_eq_some_iff.mp hk
  have hpointer : pointerAt il k = i.ref := by
    rw [pointerAt, hk]
    rfl
  refine ⟨k, ?_, hk⟩
  rw [← hpointer]
  exact h.position_pointerAt (Nat.le_of_lt hlt)

/-- A pointer lands at a place only if there is no arm. -/
theorem Distinct.isArm_of_lands (h : Distinct il) (hlands : Lands il (pointerAt il k)) {i : ILInstr}
    (hi : il[k]? = some i) : i.isArm = false := by
  have hpointer : pointerAt il k = i.ref := by
    rw [pointerAt, hi]
    rfl
  rw [hpointer] at hlands
  have hmem := List.mem_of_getElem? hi
  obtain ⟨j, hj, harm⟩ := hlands.resolve_left (h.ne_sentinel i hmem)
  obtain rfl := Option.some.inj (hj.symm.trans (h.find?_eq hmem))
  exact harm

/-- A pointer that landed lands in a list that has more. -/
theorem Lands.mono (h : Lands il ref) (hsublist : il.Sublist js) (hdistinct : Distinct js) :
    Lands js ref := by
  rcases h with href | ⟨i, hfind, harm⟩
  · exact Or.inl href
  · have hi : i.ref = ref := by simpa using List.find?_some hfind
    have hmem := hsublist.subset (List.mem_of_find?_eq_some hfind)
    rw [← hi]
    exact Or.inr ⟨i, hdistinct.find?_eq hmem, harm⟩

/-- The end of a handler is not followed by an arm. -/
theorem following_of_edited {s s' : ILRewriter} (hdistinct : Distinct s.il)
    (hdistinct' : Distinct s'.il) (hedited : Edited s s') (hwell : WellInserted s s')
    (hk : following s.il ref = some k) (hlands : Lands s.il (pointerAt s.il k)) :
    ∃ k', following s'.il ref = some k' ∧ Lands s'.il (pointerAt s'.il k') := by
  rw [following] at hk
  split at hk
  case isTrue href =>
    refine ⟨0, if_pos href, hdistinct'.lands_pointerAt fun i hi => ?_⟩
    have hshape := hwell.shaped
    cases hil : s'.il with
    | nil =>
        rw [hil] at hi
        cases hi
    | cons j il =>
        rw [hil] at hi hshape
        obtain rfl := Option.some.inj hi
        by_contra harm
        rw [Shaped, if_pos (Bool.not_eq_false _ ▸ harm)] at hshape
        exact Nat.lt_irrefl 0 hshape.1
  case isFalse href =>
    obtain ⟨k, hposition, rfl⟩ := Option.map_eq_some_iff.mp hk
    obtain ⟨i, hi, rfl⟩ : ∃ i ∈ s.il, i.ref = ref := by
      have hposition' := hposition
      rw [position, if_neg href, List.findIdx?_eq_some_iff_getElem] at hposition'
      obtain ⟨hlt, hrefk, -⟩ := hposition'
      exact ⟨_, List.getElem_mem hlt, of_decide_eq_true hrefk⟩
    obtain ⟨k', hposition', -⟩ := hdistinct'.exists_position (hedited.sublist.subset hi)
    have hnone : armsBehind s.il i.ref = [] :=
      (armsBehind_eq_nil_iff hposition).mpr fun j hj => hdistinct.isArm_of_lands hlands hj
    rw [← hwell.arms i hi] at hnone
    refine ⟨k' + 1, ?_, hdistinct'.lands_pointerAt ((armsBehind_eq_nil_iff hposition').mp hnone)⟩
    rw [following, if_neg href, hposition']
    rfl

/-- **Well-formed edits** leave a list that can be written. -/
theorem sound_of_edited {s s' : ILRewriter} (hs : s.Sound) (hcounted : Counted s')
    (hedited : Edited s s') (hwell : WellInserted s s') : s'.Sound := by
  have hdistinct := hcounted.distinct
  have hmono {ref : InstrRef} (h : Lands s.il ref) : Lands s'.il ref :=
    h.mono hedited.sublist hdistinct
  refine ⟨⟨fun i hi => ?_, hwell.shaped, fun i hi hbranch => ?_, fun i hi hbranch => ?_⟩, hdistinct,
    fun c hc => ?_, ?_, ?_, ?_, ?_, hcounted.nInstrs⟩
  · by_cases hold : i ∈ s.il
    · exact hs.exportable.known i hold
    · exact hwell.known i hi hold
  · by_cases hold : i ∈ s.il
    · exact hs.exportable.operands i hold hbranch
    · exact hwell.operands i hi hold hbranch
  · by_cases hold : i ∈ s.il
    · exact hmono (hs.exportable.targets i hold hbranch)
    · exact hwell.targets i hi hold hbranch
  · rw [hedited.eh] at hc
    have hstands := hs.stands c hc
    obtain ⟨k, hk, hlands⟩ := hstands.handlerEnd
    exact ⟨hmono hstands.tryBegin, hmono hstands.tryEnd, hmono hstands.handlerBegin,
      following_of_edited hs.distinct hdistinct hedited hwell hk hlands,
      fun hfilter => hmono (hstands.filter hfilter), hstands.flags, hstands.classToken⟩
  · rw [hedited.eh]
    exact hs.length_eh
  · rw [hedited.flags]
    exact hs.flags
  · rw [hedited.tkLocalVarSig]
    exact hs.localVarSigTok
  · rw [hedited.generateTinyHeader]
    exact hs.fat

theorem counted_of_sound {s : ILRewriter} (hs : s.Sound) (hnum : Numbered s.il) : Counted s := by
  refine ⟨hs.distinct, fun i hi => ?_, hs.nInstrs⟩
  obtain ⟨k, hk⟩ := List.mem_iff_getElem?.mp hi
  obtain ⟨hlt, -⟩ := List.getElem?_eq_some_iff.mp hk
  rw [hnum k i hk, hs.nInstrs]
  exact hlt

theorem numbered_of_importMethod {body : List UInt8} {s : ILRewriter}
    (h : importMethod body = .ok s) : Numbered s.il := by
  obtain ⟨d, table, il, eh, hd, hil, -, rfl⟩ := importMethod_eq_ok_iff.mp h
  obtain ⟨-, himported⟩ := imported_of_importIL (decoderInit_valid hd).code hil
  exact himported.numbered

/-- What was read and edited can be written, if the edits are well-formed. -/
theorem sound_of_run {body : List UInt8} {s s' : ILRewriter} {edits : List Edit}
    (himport : importMethod body = .ok s) (hrun : runOps Edit.exec s edits = some s')
    (hwell : WellInserted s s') : s'.Sound ∧ Edited s s' := by
  have hs := sound_of_importMethod himport
  have hstart : Edited s s := ⟨List.Sublist.refl _, rfl, rfl, rfl, rfl⟩
  obtain ⟨hedited, hcounted⟩ :=
    edited_of_run hstart (counted_of_sound hs (numbered_of_importMethod himport)) hrun
  exact ⟨sound_of_edited hs hcounted hedited hwell, hedited⟩

/-- **A body that was read, edited and written** has the program of the edited list, with the clauses
that were read, but for short branches that got their long form; it is written if there is room for
all instructions, and without edits it has its code and its clauses as they were. -/
theorem exportMethod_edited {body : List UInt8} {s s' : ILRewriter} {edits : List Edit}
    (himport : importMethod body = .ok s) (hrun : runOps Edit.exec s edits = some s')
    (hwell : WellInserted s s') (fill : Nat → UInt8) :
    s'.eh = s.eh ∧ (10 * s'.nInstrs < 2 ^ 32 → ∃ out, exportMethod fill s' = .ok out) ∧
      ∀ out, exportMethod fill s' = .ok out →
        (∃ s'', importMethod out = .ok s'' ∧ s'.program.Lengthened s''.program) ∧
        (edits = [] → ∃ d d', decoderInit body = .ok d ∧ decoderInit out = .ok d' ∧
          d'.code = d.code ∧ d'.eh = d.eh) := by
  obtain ⟨hs', hedited⟩ := sound_of_run himport hrun hwell
  refine ⟨hedited.eh, fun hroom => hs'.exists_exportMethod hroom fill, fun out hout => ?_⟩
  obtain ⟨-, s'', -, -, hback, hlengthened⟩ := hs'.read_back hout
  refine ⟨⟨s'', hback, hlengthened⟩, fun hnone => ?_⟩
  subst hnone
  obtain rfl := Option.some.inj hrun
  exact exportMethod_unchanged himport hout

/-- A `nop` before the target of a branch is a well-formed edit. -/
theorem exists_run_nop : ∃ s s', importMethod [0x0E, 0x2B, 0x00, 0x2A] = .ok s ∧
    runOps Edit.exec s [.insertBefore 2 0x00 0 sentinel] = some s' ∧ WellInserted s s' ∧
    10 * s'.nInstrs < 2 ^ 32 := by
  have himport : importMethod [0x0E, 0x2B, 0x00, 0x2A] = .ok
      { maxStack := 8, nInstrs := 2, il := [⟨1, 0x2B, 0, 2, 2⟩, ⟨2, 0x2A, 0, 0, 0⟩] } := by rfl
  have hrun : runOps Edit.exec
      { maxStack := 8, nInstrs := 2, il := [⟨1, 0x2B, 0, 2, 2⟩, ⟨2, 0x2A, 0, 0, 0⟩] }
      [.insertBefore 2 0x00 0 sentinel] = some
      { maxStack := 8, nInstrs := 3
        il := [⟨1, 0x2B, 0, 2, 2⟩, ⟨3, 0x00, 0, 0, 0⟩, ⟨2, 0x2A, 0, 0, 0⟩] } := by rfl
  have hnew : ∀ i ∈ [⟨1, 0x2B, 0, 2, 2⟩, ⟨3, 0x00, 0, 0, 0⟩, ⟨2, 0x2A, 0, 0, 0⟩],
      i ∉ ([⟨1, 0x2B, 0, 2, 2⟩, ⟨2, 0x2A, 0, 0, 0⟩] : List ILInstr) → i = ⟨3, 0x00, 0, 0, 0⟩ := by
    decide
  refine ⟨_, _, himport, hrun, ⟨fun i hi hout => ?_, fun i hi hout _ => ?_,
    fun i hi hout hbranch => ?_, ?_, by decide⟩, by decide⟩
  · rw [hnew i hi hout]
    exact Or.inl (by decide)
  · rw [hnew i hi hout]
    rfl
  · rw [hnew i hi hout] at hbranch
    exact absurd hbranch (by decide)
  · simp [Shaped, ILInstr.isArm]

/-- A `nop` before the target of a branch. -/
theorem exportMethod_edited_nop : ∃ s s', importMethod [0x0E, 0x2B, 0x00, 0x2A] = .ok s ∧
    runOps Edit.exec s [.insertBefore 2 0x00 0 sentinel] = some s' ∧
    ∃ out, exportMethod (fun _ => 0) s' = .ok out ∧
      ∃ s'', importMethod out = .ok s'' ∧ s'.program.Lengthened s''.program := by
  obtain ⟨s, s', himport, hrun, hwell, hroom⟩ := exists_run_nop
  obtain ⟨-, hwritten, hread⟩ := exportMethod_edited himport hrun hwell fun _ => 0
  obtain ⟨out, hout⟩ := hwritten hroom
  exact ⟨s, s', himport, hrun, out, hout, (hread out hout).1⟩

end DdTrace.Profiler
