import Mathlib.Algebra.Group.Int.Defs
import Mathlib.Algebra.Ring.Nat
import Mathlib.Data.List.Basic
import Mathlib.Tactic.Common

/-!
# Little-endian numbers in byte lists

`LittleEndian.encode k n` is the `k`-byte little-endian image of `n` (its low `8 * k` bits), and
`LittleEndian.decode` reads such an image back. `readAt` is the partial read of a `k`-byte number
at a position of a byte list: it has no value where the list is too short. The two are inverse
wherever a read is possible, which is what a round trip over a binary format needs from its number
fields.
-/

namespace DdTrace.Lib.LittleEndian

/-! ## Encoding and decoding -/

/-- The `k` low bytes of `n`, least significant first. -/
def encode : Nat → Nat → List UInt8
  | 0, _ => []
  | k + 1, n => UInt8.ofNat n :: encode k (n / 256)

/-- The number a little-endian byte list stands for. -/
def decode : List UInt8 → Nat
  | [] => 0
  | b :: bs => b.toNat + 256 * decode bs

@[simp] theorem length_encode (k n : Nat) : (encode k n).length = k := by
  induction k generalizing n with
  | zero => rfl
  | succ k ih => simp [encode, ih]

/-- Reading an image back gives the number modulo the width. -/
theorem decode_encode (k n : Nat) : decode (encode k n) = n % 256 ^ k := by
  induction k generalizing n with
  | zero => simp [encode, decode, Nat.mod_one]
  | succ k ih =>
      have hhead : (UInt8.ofNat n).toNat = n % 256 := by simp
      rw [encode, decode, ih, hhead, Nat.pow_succ', Nat.mod_mul]

/-- A number that fits its width is read back unchanged. -/
theorem decode_encode_of_lt {k n : Nat} (h : n < 256 ^ k) : decode (encode k n) = n := by
  rw [decode_encode, Nat.mod_eq_of_lt h]

/-- A byte list stands for a number below the power of its length. -/
theorem decode_lt (bs : List UInt8) : decode bs < 256 ^ bs.length := by
  induction bs with
  | nil => simp [decode]
  | cons b bs ih =>
      have hb : b.toNat < 256 := b.toNat_lt
      have hpow : 256 ^ (b :: bs).length = 256 * 256 ^ bs.length := by
        rw [List.length_cons, Nat.pow_succ']
      rw [decode, hpow]
      omega

/-- Every byte list is the image of the number it stands for. -/
theorem encode_decode (bs : List UInt8) : encode bs.length (decode bs) = bs := by
  induction bs with
  | nil => rfl
  | cons b bs ih =>
      have hb : b.toNat < 256 := b.toNat_lt
      have hhead : UInt8.ofNat (b.toNat + 256 * decode bs) = b := by
        apply UInt8.toNat_inj.mp
        simp
      have htail : (b.toNat + 256 * decode bs) / 256 = decode bs := by omega
      rw [List.length_cons, decode, encode, hhead, htail, ih]

/-- The image depends on the number modulo its width only. -/
theorem encode_mod (k n : Nat) : encode k (n % 256 ^ k) = encode k n := by
  have h := encode_decode (encode k n)
  rwa [length_encode, decode_encode] at h

/-- The image of a number is the images of its low and its high part. -/
theorem encode_add (j k n : Nat) : encode (j + k) n = encode j n ++ encode k (n / 256 ^ j) := by
  induction j generalizing n with
  | zero => simp [encode]
  | succ j ih =>
      have hdiv : n / 256 / 256 ^ j = n / 256 ^ (j + 1) := by
        rw [Nat.div_div_eq_div_mul, Nat.pow_succ']
      rw [Nat.succ_add, encode, ih, hdiv, encode, List.cons_append]

/-! ## Reading at a position -/

/-- The `k`-byte number at position `off`, where the list is long enough. -/
def readAt (bs : List UInt8) (off k : Nat) : Option Nat :=
  if off + k ≤ bs.length then some (decode ((bs.drop off).take k)) else none

/-- A successful read found the image of its result at that position. -/
theorem readAt_eq_some {bs : List UInt8} {off k n : Nat} (h : readAt bs off k = some n) :
    off + k ≤ bs.length ∧ n < 256 ^ k ∧ encode k n <+: bs.drop off := by
  unfold readAt at h
  split at h
  case isFalse => cases h
  case isTrue hlen =>
    have hk : ((bs.drop off).take k).length = k := by
      rw [List.length_take, List.length_drop]
      omega
    obtain rfl := Option.some.inj h
    refine ⟨hlen, ?_, ?_⟩
    · have hlt := decode_lt ((bs.drop off).take k)
      rwa [hk] at hlt
    · have himage := encode_decode ((bs.drop off).take k)
      rw [hk] at himage
      rw [himage]
      exact List.take_prefix k _

/-- The image of a number, found at a position, is read back there. -/
theorem readAt_of_image {bs : List UInt8} {off k n : Nat} (hoff : off ≤ bs.length)
    (h : encode k n <+: bs.drop off) : readAt bs off k = some (n % 256 ^ k) := by
  have hlen : off + k ≤ bs.length := by
    have hle := h.length_le
    rw [length_encode, List.length_drop] at hle
    omega
  have htake : (bs.drop off).take k = encode k n := by
    have heq := List.prefix_iff_eq_take.mp h
    rw [length_encode] at heq
    exact heq.symm
  rw [readAt, if_pos hlen, htake, decode_encode]

/-- What follows a part of a list is behind that part. -/
theorem drop_add_of_drop {bs as rest : List UInt8} {off : Nat} (h : bs.drop off = as ++ rest) :
    bs.drop (off + as.length) = rest := by
  rw [← List.drop_drop, h, List.drop_left]

/-- A number that fits its width, found at a position, is read back there. -/
theorem readAt_of_drop {bs rest : List UInt8} {off k n : Nat} (hk : 0 < k) (hn : n < 256 ^ k)
    (h : bs.drop off = encode k n ++ rest) : readAt bs off k = some n := by
  have hoff : off ≤ bs.length := by
    have hlen := congrArg List.length h
    rw [List.length_drop, List.length_append, length_encode] at hlen
    omega
  have himage : encode k n <+: bs.drop off := by
    rw [h]
    exact List.prefix_append _ _
  rw [readAt_of_image hoff himage, Nat.mod_eq_of_lt hn]

end DdTrace.Lib.LittleEndian
