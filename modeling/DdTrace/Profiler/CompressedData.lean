import DdTrace.Profiler.SignatureParser

/-!
# Compressed numbers and tokens

The numbers and tokens in the signatures that the native profiler writes.

* `CorSigCompressData`: a number in its shortest form; `encodes_compress`, `compress_shortest`.
* `CorSigUncompressData`: the number at the start of a signature; `uncompress_of_encodes`.
* `tokenBytes`: a token, whose row number always fits.

Sources: `lib/coreclr/src/inc/cor.h`, `CorSigCompressData`, `CorSigCompressToken` and
`CorSigUncompressData`; `lib/coreclr/src/inc/corhdr.h`, `CorTokenType`.
-/

namespace DdTrace.Profiler

open DdTrace.Lib

/-! ## Numbers -/

/-- A number in one, two or four bytes; `none` is the length `(ULONG) -1` of a number that is too
large.
Source: `cor.h`, `CorSigCompressData` -/
def CorSigCompressData (iLen : Nat) : Option (List UInt8) :=
  if iLen ≤ 0x7F then some [UInt8.ofNat iLen]
  else if iLen ≤ 0x3FFF then
    some [UInt8.ofNat (iLen >>> 8 ||| 0x80), UInt8.ofNat (iLen &&& 0xff)]
  else if iLen ≤ 0x1FFFFFFF then
    some [UInt8.ofNat (iLen >>> 24 ||| 0xC0), UInt8.ofNat (iLen >>> 16 &&& 0xff),
      UInt8.ofNat (iLen >>> 8 &&& 0xff), UInt8.ofNat (iLen &&& 0xff)]
  else none

/-- The number at the start of a signature, with its length; `none` if there is none.
Source: `cor.h`, `CorSigUncompressData` -/
def CorSigUncompressData : List UInt8 → Option (Nat × Nat)
  | [] => none
  | b₁ :: rest =>
      if b₁ &&& 0x80 = 0x00 then some (b₁.toNat, 1)
      else if b₁ &&& 0xC0 = 0x80 then
        match rest with
        | b₂ :: _ => some ((b₁.toNat &&& 0x3f) <<< 8 ||| b₂.toNat, 2)
        | [] => none
      else if b₁ &&& 0xE0 = 0xC0 then
        match rest with
        | b₂ :: b₃ :: b₄ :: _ =>
            some ((b₁.toNat &&& 0x1f) <<< 24 ||| b₂.toNat <<< 16 ||| b₃.toNat <<< 8 ||| b₄.toNat, 4)
        | _ => none
      else none

theorem toNat_ofNat_or {n k a : Nat} (hk : 2 ^ k * (a + 1) ≤ 256) (hn : n < 2 ^ k) :
    (UInt8.ofNat (n ||| 2 ^ k * a)).toNat = 2 ^ k * a + n := by
  rw [Nat.or_comm, ← Nat.two_pow_add_eq_or_of_lt hn, UInt8.toNat_ofNat']
  rw [Nat.mul_add, Nat.mul_one] at hk
  exact Nat.mod_eq_of_lt (by omega)

theorem toNat_ofNat_and (n : Nat) : (UInt8.ofNat (n &&& 0xff)).toNat = n % 256 := by
  rw [Nat.and_two_pow_sub_one_eq_mod n 8, UInt8.toNat_ofNat']
  exact Nat.mod_mod _ _

/-- A number that is written is the number that is read. -/
theorem encodes_compress {n : Nat} {w : List UInt8} (h : CorSigCompressData n = some w) :
    Encodes w n := by
  unfold CorSigCompressData at h
  split at h
  · rename_i hn
    obtain rfl := Option.some.inj h
    have hlt : n < 128 := Nat.lt_succ_of_le hn
    have hnat : (UInt8.ofNat n).toNat = n := by
      rw [UInt8.toNat_ofNat']
      exact Nat.mod_eq_of_lt (by omega)
    have hone := Encodes.one (UInt8.ofNat n) (by rw [UInt8.lt_iff_toNat_lt, hnat]; exact hlt)
    rwa [hnat] at hone
  split at h
  · rename_i hn
    obtain rfl := Option.some.inj h
    have hfirst : (UInt8.ofNat (n >>> 8 ||| 0x80)).toNat = 128 + n >>> 8 :=
      toNat_ofNat_or (k := 7) (a := 1) (by decide) (by rw [Nat.shiftRight_eq_div_pow]; omega)
    have hshift : n >>> 8 = n / 256 := Nat.shiftRight_eq_div_pow n 8
    have htwo := Encodes.two (UInt8.ofNat (n >>> 8 ||| 0x80)) (UInt8.ofNat (n &&& 0xff))
      (by rw [UInt8.le_iff_toNat_le, hfirst]; exact Nat.le_add_right _ _)
      (by rw [UInt8.lt_iff_toNat_lt, hfirst, hshift]; show _ < 192; omega)
    have hvalue : (128 + n >>> 8 - 0x80) * 2 ^ 8 + n % 256 = n := by
      rw [hshift]
      omega
    rwa [hfirst, toNat_ofNat_and, hvalue] at htwo
  split at h
  · rename_i hn
    obtain rfl := Option.some.inj h
    have hfirst : (UInt8.ofNat (n >>> 24 ||| 0xC0)).toNat = 192 + n >>> 24 :=
      toNat_ofNat_or (k := 6) (a := 3) (by decide) (by rw [Nat.shiftRight_eq_div_pow]; omega)
    have hshift : n >>> 24 = n / 2 ^ 24 := Nat.shiftRight_eq_div_pow n 24
    have hfour := Encodes.four (UInt8.ofNat (n >>> 24 ||| 0xC0)) (UInt8.ofNat (n >>> 16 &&& 0xff))
      (UInt8.ofNat (n >>> 8 &&& 0xff)) (UInt8.ofNat (n &&& 0xff))
      (by rw [UInt8.le_iff_toNat_le, hfirst]; exact Nat.le_add_right _ _)
      (by rw [UInt8.lt_iff_toNat_lt, hfirst, hshift]; show _ < 224; omega)
    have hvalue : (192 + n >>> 24 - 0xC0) * 2 ^ 24 + n >>> 16 % 256 * 2 ^ 16 +
        n >>> 8 % 256 * 2 ^ 8 + n % 256 = n := by
      rw [hshift, Nat.shiftRight_eq_div_pow, Nat.shiftRight_eq_div_pow]
      omega
    rwa [hfirst, toNat_ofNat_and, toNat_ofNat_and, toNat_ofNat_and, hvalue] at hfour
  · cases h

theorem compress_isSome {n : Nat} (h : n ≤ 0x1FFFFFFF) : (CorSigCompressData n).isSome = true := by
  unfold CorSigCompressData
  split
  · rfl
  split
  · rfl
  · rfl

/-- The lengths of numbers. -/
theorem Encodes.length_cases {n : Nat} {w : List UInt8} (h : Encodes w n) :
    (w.length = 1 ∧ n ≤ 0x7F) ∨ (w.length = 2 ∧ n ≤ 0x3FFF) ∨ (w.length = 4 ∧ n ≤ 0x1FFFFFFF) := by
  cases h with
  | one b hb =>
      rw [UInt8.lt_iff_toNat_lt] at hb
      exact Or.inl ⟨rfl, Nat.le_of_lt_succ hb⟩
  | two b₁ b₂ hle hlt =>
      rw [UInt8.lt_iff_toNat_lt] at hlt
      have hlt : b₁.toNat < 192 := hlt
      have hb₂ := b₂.toNat_lt
      exact Or.inr (Or.inl ⟨rfl, by omega⟩)
  | four b₁ b₂ b₃ b₄ hle hlt =>
      rw [UInt8.lt_iff_toNat_lt] at hlt
      have hlt : b₁.toNat < 224 := hlt
      have hb₂ := b₂.toNat_lt
      have hb₃ := b₃.toNat_lt
      have hb₄ := b₄.toNat_lt
      exact Or.inr (Or.inr ⟨rfl, by omega⟩)

/-- No form of a number is shorter than the one that is written. -/
theorem compress_shortest {n : Nat} {w w' : List UInt8} (h : CorSigCompressData n = some w)
    (h' : Encodes w' n) : w.length ≤ w'.length := by
  have hcases := h'.length_cases
  unfold CorSigCompressData at h
  split at h
  · obtain rfl := Option.some.inj h
    exact List.length_pos_iff.mpr h'.ne_nil
  split at h
  · obtain rfl := Option.some.inj h
    show 2 ≤ w'.length
    omega
  split at h
  · obtain rfl := Option.some.inj h
    show 4 ≤ w'.length
    omega
  · cases h

/-- A number is read back, whatever stands behind it. -/
theorem uncompress_of_encodes {n : Nat} {w : List UInt8} (h : Encodes w n) (rest : List UInt8) :
    CorSigUncompressData (w ++ rest) = some (n, w.length) := by
  have hmask : ∀ b : UInt8, 0x80 ≤ b → (b &&& 0xC0 = 0x80 ↔ b < 0xC0) :=
    forall_byte (by decide +kernel)
  have hmask' : ∀ b : UInt8, 0xC0 ≤ b → (b &&& 0xE0 = 0xC0 ↔ b < 0xE0) :=
    forall_byte (by decide +kernel)
  cases h with
  | one b hb =>
      rw [List.singleton_append, CorSigUncompressData.eq_def]
      dsimp only
      rw [if_pos ((oneByte_iff b).mpr hb)]
      rfl
  | two b₁ b₂ hle hlt =>
      have hone : ¬b₁ &&& 0x80 = 0 := fun h => absurd ((oneByte_iff b₁).mp h) (UInt8.not_lt.mpr hle)
      rw [List.cons_append, CorSigUncompressData.eq_def]
      dsimp only
      rw [if_neg hone, if_pos ((hmask b₁ hle).mpr hlt)]
      simp only [List.cons_append]
      rw [join_two, and_mask_two b₁ hle hlt]
      rfl
  | four b₁ b₂ b₃ b₄ hle hlt =>
      have hle' : 0x80 ≤ b₁ := UInt8.le_trans (show (0x80 : UInt8) ≤ 0xC0 by decide) hle
      have hone : ¬b₁ &&& 0x80 = 0 := fun h => absurd ((oneByte_iff b₁).mp h) (UInt8.not_lt.mpr hle')
      have htwo : ¬b₁ &&& 0xC0 = 0x80 := fun h => absurd ((hmask b₁ hle').mp h) (UInt8.not_lt.mpr hle)
      rw [List.cons_append, CorSigUncompressData.eq_def]
      dsimp only
      rw [if_neg hone, if_neg htwo, if_pos ((hmask' b₁ hle).mpr hlt)]
      simp only [List.cons_append]
      rw [join_four, and_mask_four b₁ hle hlt]
      rfl

/-! ## Tokens -/

/-- A metadata token: the table in the high byte and the row. -/
abbrev mdToken := UInt32

/-- Source: `corhdr.h`, `RidFromToken` -/
def RidFromToken (tk : mdToken) : UInt32 := tk &&& 0x00ffffff

/-- Source: `corhdr.h`, `TypeFromToken` -/
def TypeFromToken (tk : mdToken) : UInt32 := tk &&& 0xff000000

/-- `mdtTypeRef`. -/
abbrev mdtTypeRef : UInt32 := 0x01000000
/-- `mdtTypeDef`. -/
abbrev mdtTypeDef : UInt32 := 0x02000000
/-- `mdtTypeSpec`. -/
abbrev mdtTypeSpec : UInt32 := 0x1b000000
/-- `mdtBaseType`. -/
abbrev mdtBaseType : UInt32 := 0x72000000

/-- A token as a number: the row, with the table in the low bits.
Source: `cor.h`, `CorSigCompressToken`, which calls `CorSigCompressData` with it -/
def encodedToken (tk : mdToken) : UInt32 :=
  let rid := RidFromToken tk <<< 2
  if TypeFromToken tk = mdtTypeRef then rid ||| 0x1
  else if TypeFromToken tk = mdtTypeSpec then rid ||| 0x2
  else if TypeFromToken tk = mdtBaseType then rid ||| 0x3
  else rid

/-- Source: `cor.h`, `CorSigCompressToken` -/
def CorSigCompressToken (tk : mdToken) : Option (List UInt8) :=
  if RidFromToken tk > 0x3FFFFFF then none else CorSigCompressData (encodedToken tk).toNat

theorem toNat_rid_lt (tk : mdToken) : (RidFromToken tk).toNat < 2 ^ 24 := by
  rw [RidFromToken, UInt32.toNat_and]
  exact Nat.and_lt_two_pow _ (by decide)

theorem toNat_encodedToken_lt (tk : mdToken) : (encodedToken tk).toNat < 2 ^ 26 := by
  have hrid : (RidFromToken tk <<< 2).toNat < 2 ^ 26 := by
    rw [UInt32.toNat_shiftLeft]
    have hlt := toNat_rid_lt tk
    have hshift : (RidFromToken tk).toNat <<< ((2 : UInt32).toNat % 32) =
        (RidFromToken tk).toNat * 4 := Nat.shiftLeft_eq _ 2
    rw [hshift]
    have hmul : (RidFromToken tk).toNat * 4 < 2 ^ 26 := by omega
    exact Nat.lt_of_le_of_lt (Nat.mod_le _ _) hmul
  unfold encodedToken
  dsimp only
  split
  · rw [UInt32.toNat_or]
    exact Nat.or_lt_two_pow hrid (by decide)
  split
  · rw [UInt32.toNat_or]
    exact Nat.or_lt_two_pow hrid (by decide)
  split
  · rw [UInt32.toNat_or]
    exact Nat.or_lt_two_pow hrid (by decide)
  · exact hrid

/-- A token is never too big. -/
theorem CorSigCompressToken_isSome (tk : mdToken) : (CorSigCompressToken tk).isSome = true := by
  have hrid : ¬RidFromToken tk > 0x3FFFFFF := by
    have hlt := toNat_rid_lt tk
    rw [gt_iff_lt, UInt32.lt_iff_toNat_lt]
    show ¬0x3FFFFFF < _
    omega
  rw [CorSigCompressToken, if_neg hrid]
  have hlt := toNat_encodedToken_lt tk
  exact compress_isSome (by omega)

/-- The bytes of a token in a signature. -/
def tokenBytes (tk : mdToken) : List UInt8 :=
  (CorSigCompressToken tk).get (CorSigCompressToken_isSome tk)

theorem tokenBytes_eq (tk : mdToken) :
    CorSigCompressData (encodedToken tk).toNat = some (tokenBytes tk) := by
  have h : CorSigCompressToken tk = some (tokenBytes tk) := (Option.some_get _).symm
  rw [CorSigCompressToken] at h
  split at h
  · cases h
  · exact h

/-- A token has one to four bytes. -/
theorem length_tokenBytes (tk : mdToken) :
    0 < (tokenBytes tk).length ∧ (tokenBytes tk).length ≤ 4 := by
  have h := (encodes_compress (tokenBytes_eq tk)).length_cases
  omega

end DdTrace.Profiler
