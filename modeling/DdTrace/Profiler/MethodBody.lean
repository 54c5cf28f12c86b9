import DdTrace.Lib.LittleEndian
import DdTrace.Lib.Outcomes

/-!
# Method bodies in memory

A method body is a header (tiny or fat), the code, and for a fat header with the flag
`CorILMethod_MoreSects` a section behind the code, aligned to four bytes. An exception section
holds small or fat clauses.

* `decoderInit`: the reader of the runtime's headers, `COR_ILMETHOD_DECODER`. A small clause is
  expanded to a fat one (`SectEH_EHClause`).
* `fatBody`: the body `ILRewriter::Export` writes, always with a fat header and fat clauses.
* `decoderInit_fatBody`: what the reader makes of such a body.

A read outside the memory of the body has no result that the source determines (`undefined`). The
address of the body is a multiple of four, as the runtime lays bodies out.

Sources: `lib/coreclr/src/inc/corhdr.h`, lines 1100 to 1260; `lib/coreclr/src/inc/corhlpr.h`;
`lib/coreclr/src/inc/corhlpr.cpp`, `DecoderInit` and `SectEH_EHClause`; `il_rewriter.cpp`,
lines 628 to 685.
-/

namespace DdTrace.Profiler

open DdTrace.Lib DdTrace.Lib.Outcomes

/-- The failures of the rewriter. -/
inductive HResult
  /-- `COR_E_INVALIDPROGRAM`. -/
  | invalidProgram
  /-- `COR_E_INVALIDOPERATION`. -/
  | invalidOperation
  /-- `COR_E_INDEXOUTOFRANGE`. -/
  | indexOutOfRange
  /-- `E_FAIL`. -/
  | fail
  /-- Memory outside an array was read or written. -/
  | undefined
  deriving DecidableEq, Repr

/-- The result of a function of the rewriter. -/
abbrev Result := Except HResult

/-- The `k`-byte number at position `off` of the memory `bs`. -/
def readNat (bs : List UInt8) (off k : Nat) : Result Nat :=
  match LittleEndian.readAt bs off k with
  | some n => .ok n
  | none => .error .undefined

/-- The `n` bytes at position `off` of the memory `bs`. -/
def readBytes (bs : List UInt8) (off n : Nat) : Result (List UInt8) :=
  if off + n ≤ bs.length then .ok ((bs.drop off).take n) else .error .undefined

/-- The next multiple of four. -/
def align4 (n : Nat) : Nat := (n + 3) / 4 * 4

/-! ## Exception clauses -/

/-- A clause in its fat form.
Source: `corhdr.h`, `IMAGE_COR_ILMETHOD_SECT_EH_CLAUSE_FAT` -/
structure EHClauseFat where
  /-- `Flags`. -/
  flags : Nat
  /-- `TryOffset`. -/
  tryOffset : Nat
  /-- `TryLength`. -/
  tryLength : Nat
  /-- `HandlerOffset`. -/
  handlerOffset : Nat
  /-- `HandlerLength`. -/
  handlerLength : Nat
  /-- `ClassToken` or `FilterOffset`, which share their memory. -/
  classToken : Nat
  deriving DecidableEq, Repr

namespace EHClauseFat

/-- Every field is a `DWORD`. -/
structure Bounded (c : EHClauseFat) : Prop where
  flags : c.flags < 2 ^ 32
  tryOffset : c.tryOffset < 2 ^ 32
  tryLength : c.tryLength < 2 ^ 32
  handlerOffset : c.handlerOffset < 2 ^ 32
  handlerLength : c.handlerLength < 2 ^ 32
  classToken : c.classToken < 2 ^ 32

/-- The clause in memory. -/
def bytes (c : EHClauseFat) : List UInt8 :=
  LittleEndian.encode 4 c.flags ++ (LittleEndian.encode 4 c.tryOffset ++
    (LittleEndian.encode 4 c.tryLength ++ (LittleEndian.encode 4 c.handlerOffset ++
      (LittleEndian.encode 4 c.handlerLength ++ LittleEndian.encode 4 c.classToken))))

/-- A fat clause at position `off`. -/
def readFat (bs : List UInt8) (off : Nat) : Result EHClauseFat := do
  let flags ← readNat bs off 4
  let tryOffset ← readNat bs (off + 4) 4
  let tryLength ← readNat bs (off + 8) 4
  let handlerOffset ← readNat bs (off + 12) 4
  let handlerLength ← readNat bs (off + 16) 4
  let classToken ← readNat bs (off + 20) 4
  pure { flags, tryOffset, tryLength, handlerOffset, handlerLength, classToken }

/-- A small clause at position `off`, expanded to its fat form.
Source: `corhlpr.cpp`, `SectEH_EHClause`; `corhdr.h`,
`IMAGE_COR_ILMETHOD_SECT_EH_CLAUSE_SMALL` -/
def readSmall (bs : List UInt8) (off : Nat) : Result EHClauseFat := do
  let flags ← readNat bs off 2
  let tryOffset ← readNat bs (off + 2) 2
  let tryLength ← readNat bs (off + 4) 1
  let handlerOffset ← readNat bs (off + 5) 2
  let handlerLength ← readNat bs (off + 7) 1
  let classToken ← readNat bs (off + 8) 4
  pure { flags, tryOffset, tryLength, handlerOffset, handlerLength, classToken }

end EHClauseFat

/-- `n` clauses from position `off`, each `stride` bytes after the one before. -/
def readClauses (read : Nat → Result EHClauseFat) (stride : Nat) :
    Nat → Nat → Result (List EHClauseFat)
  | 0, _ => .ok []
  | n + 1, off => do
      let c ← read off
      let cs ← readClauses read stride n (off + stride)
      pure (c :: cs)

/-- The clauses of the section at position `off`; a section of another kind has none.
Source: `corhlpr.h`, `COR_ILMETHOD_SECT` and `COR_ILMETHOD_SECT_EH` -/
def readSect (bs : List UInt8) (off : Nat) : Result (List EHClauseFat) := do
  let kind ← readNat bs off 1
  if kind &&& 0x3F = 1 then
    if kind &&& 0x40 ≠ 0 then
      let dataSize ← readNat bs (off + 1) 3
      readClauses (EHClauseFat.readFat bs) 24 (dataSize / 24) (off + 4)
    else
      let dataSize ← readNat bs (off + 1) 1
      readClauses (EHClauseFat.readSmall bs) 12 (dataSize / 12) (off + 4)
  else pure []

/-! ## The decoder -/

/-- What the decoder finds in a body.
Source: `corhlpr.h`, `COR_ILMETHOD_DECODER` -/
structure MethodDecoder where
  /-- `GetFlags()`. -/
  flags : Nat
  /-- `GetMaxStack()`. -/
  maxStack : Nat
  /-- `GetLocalVarSigTok()`. -/
  localVarSigTok : Nat
  /-- The `GetCodeSize()` bytes at `Code`. -/
  code : List UInt8
  /-- The `EHCount()` clauses of `EH`, each in its fat form. -/
  eh : List EHClauseFat
  deriving DecidableEq, Repr

/-- The clauses of a body with a fat header of `size` words whose first byte is `b0`: those of the
first section, if there is one.
Source: `corhlpr.cpp`, `DecoderInit`; `corhlpr.h`, `tagCOR_ILMETHOD_FAT::GetSect` -/
def readEH (body : List UInt8) (size b0 codeSize : Nat) : Result (List EHClauseFat) :=
  if 3 ≤ size ∧ b0 &&& 8 ≠ 0 then readSect body (align4 (4 * size + codeSize)) else .ok []

/-- Decode a method body.
Source: `corhlpr.cpp`, `DecoderInit` -/
def decoderInit (body : List UInt8) : Result MethodDecoder := do
  let b0 ← readNat body 0 1
  if b0 &&& 3 = 2 then
    let code ← readBytes body 1 (b0 / 4)
    pure { flags := 2, maxStack := 8, localVarSigTok := 0, code, eh := [] }
  else if b0 &&& 7 = 3 then
    let b1 ← readNat body 1 1
    let size := b1 / 16
    let maxStack ← readNat body 2 2
    let codeSize ← readNat body 4 4
    let localVarSigTok ← readNat body 8 4
    let code ← readBytes body (4 * size) codeSize
    let eh ← readEH body size b0 codeSize
    pure { flags := b0 + b1 % 16 * 256, maxStack, localVarSigTok, code, eh }
  else pure { flags := 0, maxStack := 0, localVarSigTok := 0, code := [], eh := [] }

/-! ## What the decoder finds -/

/-- A number that was read has its width. -/
theorem lt_of_readNat {bs : List UInt8} {off k n : Nat} (h : readNat bs off k = .ok n) :
    n < 256 ^ k := by
  unfold readNat at h
  cases hr : LittleEndian.readAt bs off k with
  | none => simp [hr] at h
  | some m =>
      rw [hr] at h
      obtain rfl := Except.ok.inj h
      exact (LittleEndian.readAt_eq_some hr).2.1

/-- Clauses that were read are as many as asked for, and have every property a read clause has. -/
theorem readClauses_spec {read : Nat → Result EHClauseFat} {P : EHClauseFat → Prop}
    (hread : ∀ off c, read off = .ok c → P c) {stride n off : Nat} {cs : List EHClauseFat}
    (h : readClauses read stride n off = .ok cs) : cs.length = n ∧ ∀ c ∈ cs, P c := by
  induction n generalizing off cs with
  | zero =>
      obtain rfl := Except.ok.inj h
      simp
  | succ n ih =>
      rw [readClauses] at h
      obtain ⟨c, hc, h⟩ := bind_eq_ok.mp h
      obtain ⟨cs', hcs', h⟩ := bind_eq_ok.mp h
      obtain rfl := Except.ok.inj h
      obtain ⟨hlen, hall⟩ := ih hcs'
      refine ⟨by simp [hlen], ?_⟩
      intro c' hc'
      rcases List.mem_cons.mp hc' with rfl | hc'
      · exact hread _ _ hc
      · exact hall c' hc'

/-- The fields of a fat clause that was read are `DWORD`s. -/
theorem EHClauseFat.bounded_readFat {bs : List UInt8} {off : Nat} {c : EHClauseFat}
    (h : readFat bs off = .ok c) : c.Bounded := by
  simp only [readFat, bind_eq_ok] at h
  obtain ⟨a₁, h₁, a₂, h₂, a₃, h₃, a₄, h₄, a₅, h₅, a₆, h₆, h⟩ := h
  obtain rfl := Except.ok.inj h
  exact ⟨lt_of_readNat h₁, lt_of_readNat h₂, lt_of_readNat h₃, lt_of_readNat h₄,
    lt_of_readNat h₅, lt_of_readNat h₆⟩

/-- The fields of an expanded small clause are `DWORD`s. -/
theorem EHClauseFat.bounded_readSmall {bs : List UInt8} {off : Nat} {c : EHClauseFat}
    (h : readSmall bs off = .ok c) : c.Bounded := by
  simp only [readSmall, bind_eq_ok] at h
  obtain ⟨a₁, h₁, a₂, h₂, a₃, h₃, a₄, h₄, a₅, h₅, a₆, h₆, h⟩ := h
  obtain rfl := Except.ok.inj h
  have hlt : ∀ {off k n : Nat}, readNat bs off k = .ok n → k ≤ 4 → n < 2 ^ 32 := by
    intro off k n hr hk
    have hn := lt_of_readNat hr
    have hpow : 256 ^ k ≤ 256 ^ 4 := Nat.pow_le_pow_right (by omega) hk
    omega
  exact ⟨hlt h₁ (by omega), hlt h₂ (by omega), hlt h₃ (by omega), hlt h₄ (by omega),
    hlt h₅ (by omega), hlt h₆ (by omega)⟩

/-- The number of clauses a section can hold: the size of a section has 24 bits. -/
def maxClauses : Nat := 699050

/-- A section that was read has at most `maxClauses` clauses, with fields of 32 bits. -/
theorem readSect_spec {bs : List UInt8} {off : Nat} {cs : List EHClauseFat}
    (h : readSect bs off = .ok cs) : cs.length ≤ maxClauses ∧ ∀ c ∈ cs, c.Bounded := by
  rw [readSect] at h
  obtain ⟨kind, hkind, h⟩ := bind_eq_ok.mp h
  split at h
  · split at h
    · obtain ⟨dataSize, hsize, h⟩ := bind_eq_ok.mp h
      have hlt := lt_of_readNat hsize
      obtain ⟨hlen, hall⟩ := readClauses_spec (fun _ _ => EHClauseFat.bounded_readFat) h
      refine ⟨?_, hall⟩
      simp only [maxClauses]
      omega
    · obtain ⟨dataSize, hsize, h⟩ := bind_eq_ok.mp h
      have hlt := lt_of_readNat hsize
      obtain ⟨hlen, hall⟩ := readClauses_spec (fun _ _ => EHClauseFat.bounded_readSmall) h
      refine ⟨?_, hall⟩
      simp only [maxClauses]
      omega
  · obtain rfl := Except.ok.inj h
    simp

/-- What holds of everything the decoder finds in a body. -/
structure MethodDecoder.Valid (d : MethodDecoder) : Prop where
  localVarSigTok : d.localVarSigTok < 2 ^ 32
  code : d.code.length < 2 ^ 32
  length_eh : d.eh.length ≤ maxClauses
  eh : ∀ c ∈ d.eh, c.Bounded

/-- Bytes that were read are as many as asked for. -/
theorem length_readBytes {bs cs : List UInt8} {off n : Nat} (h : readBytes bs off n = .ok cs) :
    cs.length = n := by
  unfold readBytes at h
  split at h
  case isTrue hle =>
    obtain rfl := Except.ok.inj h
    rw [List.length_take, List.length_drop]
    omega
  case isFalse => cases h

/-- What the decoder finds is valid. -/
theorem decoderInit_valid {body : List UInt8} {d : MethodDecoder} (h : decoderInit body = .ok d) :
    d.Valid := by
  rw [decoderInit] at h
  obtain ⟨b0, hb0, h⟩ := bind_eq_ok.mp h
  have hlt0 := lt_of_readNat hb0
  split at h
  · obtain ⟨code, hcode, h⟩ := bind_eq_ok.mp h
    obtain rfl := Except.ok.inj h
    have hlen := length_readBytes hcode
    refine ⟨by simp, ?_, by simp, by simp⟩
    simp only
    omega
  · split at h
    · obtain ⟨b1, hb1, h⟩ := bind_eq_ok.mp h
      obtain ⟨maxStack, hmax, h⟩ := bind_eq_ok.mp h
      obtain ⟨codeSize, hsize, h⟩ := bind_eq_ok.mp h
      obtain ⟨tok, htok, h⟩ := bind_eq_ok.mp h
      obtain ⟨code, hcode, h⟩ := bind_eq_ok.mp h
      obtain ⟨eh, heh, h⟩ := bind_eq_ok.mp h
      obtain rfl := Except.ok.inj h
      have hlen := length_readBytes hcode
      have hlt := lt_of_readNat hsize
      have hspec : eh.length ≤ maxClauses ∧ ∀ c ∈ eh, c.Bounded := by
        unfold readEH at heh
        split at heh
        · exact readSect_spec heh
        · obtain rfl := Except.ok.inj heh
          simp
      refine ⟨lt_of_readNat htok, ?_, hspec.1, hspec.2⟩
      simp only
      omega
    · obtain rfl := Except.ok.inj h
      refine ⟨by simp, by simp, by simp, by simp⟩

/-! ## The body the rewriter writes -/

/-- The bytes of the exception section.
Source: `il_rewriter.cpp`, lines 661 to 684 -/
def sectBytes (eh : List EHClauseFat) : List UInt8 :=
  LittleEndian.encode 1 (0x01 ||| 0x40) ++
    (LittleEndian.encode 3 (4 + 24 * eh.length) ++ eh.flatMap EHClauseFat.bytes)

/-- The size of the body with a fat header.
Source: `il_rewriter.cpp`, `totalSize` -/
def fatSize (codeSize nEH : Nat) : Nat :=
  12 + align4 codeSize + if nEH ≠ 0 then 4 + 24 * nEH else 0

/-- The body with a fat header. The memory it is written to holds `fill` before, which stays
between the code and the section.
Source: `il_rewriter.cpp`, lines 631 to 685 -/
def fatBody (d : MethodDecoder) (fill : Nat → UInt8) : List UInt8 :=
  LittleEndian.encode 2
      ((d.flags ||| (if d.eh ≠ [] then 0x08 else 0) ||| 0x03) % 4096 + 3 * 4096) ++
    (LittleEndian.encode 2 d.maxStack ++ (LittleEndian.encode 4 d.code.length ++
      (LittleEndian.encode 4 d.localVarSigTok ++ (d.code ++
        ((List.range (align4 d.code.length - d.code.length)).map
            (fun i => fill (12 + d.code.length + i)) ++
          if d.eh ≠ [] then sectBytes d.eh else [])))))

/-! ## Reading the body back -/

/-- A number found at a position is read there, and what follows it is behind it. -/
theorem readNat_of_drop {bs rest : List UInt8} {off k n : Nat} (hk : 0 < k) (hn : n < 256 ^ k)
    (h : bs.drop off = LittleEndian.encode k n ++ rest) :
    readNat bs off k = .ok n ∧ bs.drop (off + k) = rest := by
  have hrest := LittleEndian.drop_add_of_drop h
  rw [LittleEndian.length_encode] at hrest
  rw [readNat, LittleEndian.readAt_of_drop hk hn h]
  exact ⟨rfl, hrest⟩

/-- Bytes found at a position are read there. -/
theorem readBytes_of_drop {bs cs rest : List UInt8} {off : Nat} (hoff : off ≤ bs.length)
    (h : bs.drop off = cs ++ rest) : readBytes bs off cs.length = .ok cs := by
  have hlen := congrArg List.length h
  rw [List.length_drop, List.length_append] at hlen
  rw [readBytes, if_pos (by omega), h, List.take_left]

@[simp] theorem EHClauseFat.length_bytes (c : EHClauseFat) : c.bytes.length = 24 := by
  simp [bytes]

/-- A fat clause is read back. -/
theorem EHClauseFat.readFat_of_drop {bs rest : List UInt8} {off : Nat} {c : EHClauseFat}
    (h : bs.drop off = c.bytes ++ rest) (hc : c.Bounded) : readFat bs off = .ok c := by
  simp only [bytes, List.append_assoc] at h
  obtain ⟨hflags, h⟩ := readNat_of_drop (by omega) hc.flags h
  obtain ⟨htryOffset, h⟩ := readNat_of_drop (by omega) hc.tryOffset h
  obtain ⟨htryLength, h⟩ := readNat_of_drop (by omega) hc.tryLength h
  obtain ⟨hhandlerOffset, h⟩ := readNat_of_drop (by omega) hc.handlerOffset h
  obtain ⟨hhandlerLength, h⟩ := readNat_of_drop (by omega) hc.handlerLength h
  obtain ⟨hclassToken, -⟩ := readNat_of_drop (by omega) hc.classToken h
  simp only [readFat, bind_eq_ok]
  exact ⟨_, hflags, _, htryOffset, _, htryLength, _, hhandlerOffset, _, hhandlerLength, _,
    hclassToken, rfl⟩

/-- The clauses of a section are read back. -/
theorem readClauses_of_drop {bs rest : List UInt8} {off : Nat} {cs : List EHClauseFat}
    (h : bs.drop off = cs.flatMap EHClauseFat.bytes ++ rest) (hcs : ∀ c ∈ cs, c.Bounded) :
    readClauses (EHClauseFat.readFat bs) 24 cs.length off = .ok cs := by
  induction cs generalizing off with
  | nil => rfl
  | cons c cs ih =>
      rw [List.flatMap_cons, List.append_assoc] at h
      have hc : c.Bounded := hcs c (List.mem_cons_self ..)
      have hread := EHClauseFat.readFat_of_drop h hc
      have htail := LittleEndian.drop_add_of_drop h
      rw [EHClauseFat.length_bytes] at htail
      have hrest := ih htail fun c' hc' => hcs c' (List.mem_cons_of_mem c hc')
      rw [List.length_cons, readClauses, bind_eq_ok]
      refine ⟨c, hread, ?_⟩
      rw [bind_eq_ok]
      exact ⟨cs, hrest, rfl⟩

/-- The exception section is read back. -/
theorem readSect_of_drop {bs rest : List UInt8} {off : Nat} {cs : List EHClauseFat}
    (h : bs.drop off = sectBytes cs ++ rest) (hlen : cs.length ≤ maxClauses)
    (hcs : ∀ c ∈ cs, c.Bounded) : readSect bs off = .ok cs := by
  simp only [sectBytes, List.append_assoc] at h
  simp only [maxClauses] at hlen
  obtain ⟨hkind, h⟩ := readNat_of_drop (by omega) (by decide) h
  obtain ⟨hsize, h⟩ := readNat_of_drop (by omega) (by omega) h
  have hcount : (4 + 24 * cs.length) / 24 = cs.length := by omega
  have hclauses := readClauses_of_drop h hcs
  rw [readSect, bind_eq_ok]
  refine ⟨_, hkind, ?_⟩
  rw [if_pos (by decide), if_pos (by decide), bind_eq_ok]
  refine ⟨_, hsize, ?_⟩
  rw [hcount]
  exact hclauses

/-- The flags in the header of a body without and with a section. -/
theorem header_flags {flags : Nat} (hflags : flags = 0 ∨ flags = 0x10) (more : Bool) :
    let word := (flags ||| (if more then 0x08 else 0) ||| 0x03) % 4096 + 3 * 4096
    word < 2 ^ 16 ∧ word % 256 &&& 3 ≠ 2 ∧ word % 256 &&& 7 = 3 ∧ word / 256 / 16 = 3 ∧
      (word % 256 &&& 8 ≠ 0 ↔ more) ∧
      word % 256 + word / 256 % 16 * 256 &&& 0x10 = flags := by
  rcases hflags with rfl | rfl <;> cases more <;> decide

/-- The clauses are found behind the code and its padding. -/
theorem readEH_of_drop {bs pad : List UInt8} {b0 codeSize : Nat} {cs : List EHClauseFat}
    (h : bs.drop (12 + codeSize) = pad ++ if cs ≠ [] then sectBytes cs else [])
    (hpad : pad.length = align4 codeSize - codeSize) (hmore : b0 &&& 8 ≠ 0 ↔ cs ≠ [])
    (hlen : cs.length ≤ maxClauses) (hcs : ∀ c ∈ cs, c.Bounded) :
    readEH bs 3 b0 codeSize = .ok cs := by
  rw [readEH]
  by_cases hne : cs ≠ []
  · rw [if_pos ⟨by omega, hmore.mpr hne⟩]
    have hsect := LittleEndian.drop_add_of_drop h
    have hoff : 12 + codeSize + pad.length = align4 (4 * 3 + codeSize) := by
      simp only [hpad, align4]
      omega
    rw [hoff, if_pos hne, ← List.append_nil (sectBytes cs)] at hsect
    exact readSect_of_drop hsect hlen hcs
  · rw [if_neg fun hboth => hne (hmore.mp hboth.2)]
    rw [not_not.mp hne]

/-- **The body is read back**: the decoder finds in the body `Export` writes the code, the
signature of the locals, the initialisation flag and the clauses it was written from. -/
theorem decoderInit_fatBody {d : MethodDecoder} (hd : d.Valid)
    (hflags : d.flags = 0 ∨ d.flags = 0x10) (fill : Nat → UInt8) :
    ∃ d', decoderInit (fatBody d fill) = .ok d' ∧ d'.flags &&& 0x10 = d.flags ∧
      d'.maxStack = d.maxStack % 2 ^ 16 ∧ d'.localVarSigTok = d.localVarSigTok ∧
      d'.code = d.code ∧ d'.eh = d.eh := by
  obtain ⟨hlt, htiny, hfat, hsize, hmore, hinit⟩ := header_flags hflags (decide (d.eh ≠ []))
  simp only [decide_eq_true_eq] at hlt htiny hfat hsize hmore hinit
  generalize hword : (d.flags ||| (if d.eh ≠ [] then 0x08 else 0) ||| 0x03) % 4096 + 3 * 4096 = word
    at hlt htiny hfat hsize hmore hinit
  have h : (fatBody d fill).drop 0 = fatBody d fill := List.drop_zero
  conv at h => rhs; rw [fatBody]
  rw [hword, show 2 = 1 + 1 by rfl, LittleEndian.encode_add, ← LittleEndian.encode_mod 1 word,
    ← LittleEndian.encode_mod (1 + 1) d.maxStack, List.append_assoc] at h
  obtain ⟨hb0, h⟩ := readNat_of_drop (by omega) (Nat.mod_lt _ (by decide)) h
  obtain ⟨hb1, h⟩ := readNat_of_drop (by omega) (by omega) h
  obtain ⟨hmax, h⟩ := readNat_of_drop (by omega) (Nat.mod_lt _ (by decide)) h
  obtain ⟨hcodeSize, h⟩ := readNat_of_drop (by omega) hd.code h
  obtain ⟨htok, h⟩ := readNat_of_drop (by omega) hd.localVarSigTok h
  have hoff : 12 ≤ (fatBody d fill).length := by
    rw [fatBody]
    simp only [List.length_append, LittleEndian.length_encode]
    omega
  have hcode : readBytes (fatBody d fill) (4 * 3) d.code.length = .ok d.code :=
    readBytes_of_drop hoff h
  have heh : readEH (fatBody d fill) 3 (word % 256) d.code.length = .ok d.eh :=
    readEH_of_drop (LittleEndian.drop_add_of_drop h) (by simp) (by simpa using hmore)
      hd.length_eh hd.eh
  rw [← hsize] at hcode heh
  have hb0 : readNat (fatBody d fill) 0 1 = .ok (word % 256) := hb0
  refine ⟨⟨word % 256 + word / 256 % 16 * 256, d.maxStack % 2 ^ 16, d.localVarSigTok, d.code, d.eh⟩,
    ?_, hinit, rfl, rfl, rfl, rfl⟩
  rw [decoderInit, bind_eq_ok]
  refine ⟨_, hb0, ?_⟩
  rw [if_neg htiny, if_pos hfat]
  simp only [bind_eq_ok]
  exact ⟨_, hb1, _, hmax, _, hcodeSize, _, htok, _, hcode, _, heh, rfl⟩

end DdTrace.Profiler
