import Mathlib.Tactic.Common
import DdTrace.Lib.LittleEndian

/-!
# MessagePack

* `Value`: the values of the format.
* `readValue`: the reader of the specification: the first byte selects a format (`format`), which
  says how the rest of the value is laid out. Its first argument bounds the nesting.
* `Decodes`: a byte list is read as a value, whatever follows it, and how the formats in use are
  read (`decodes_uint`, `decodes_int`, `decodes_str`, `decodes_float64`, `decodes_map`).

Numbers are big-endian. A floating-point number stands for itself by its bits.
-/

namespace DdTrace.Lib.MessagePack

/-- A value of the format. -/
inductive Value where
  | nil
  | bool (b : Bool)
  | int (n : Int)
  | float32 (bits : Nat)
  | float64 (bits : Nat)
  | str (s : String)
  | bin (bytes : List UInt8)
  | array (items : List Value)
  | map (entries : List (Value × Value))
  | ext (type : Int) (bytes : List UInt8)

/-! ## Reading -/

/-- A big-endian number of `k` bytes. -/
def bigEndian (k n : Nat) : List UInt8 := (LittleEndian.encode k n).reverse

@[simp] theorem length_bigEndian (k n : Nat) : (bigEndian k n).length = k := by
  simp [bigEndian]

/-- `n` bytes. -/
def readBytes (n : Nat) (bs : List UInt8) : Option (List UInt8 × List UInt8) :=
  if n ≤ bs.length then some (bs.take n, bs.drop n) else none

/-- An unsigned number of `k` bytes. -/
def readNat (k : Nat) (bs : List UInt8) : Option (Nat × List UInt8) :=
  (readBytes k bs).map fun p => (LittleEndian.decode p.1.reverse, p.2)

/-- A number of `k` bytes in two's complement. -/
def readInt (k : Nat) (bs : List UInt8) : Option (Int × List UInt8) :=
  (readNat k bs).map fun p =>
    (if 2 * p.1 < 256 ^ k then (p.1 : Int) else (p.1 : Int) - (256 ^ k : Nat), p.2)

/-- A length: in the first byte of the value, or as a number of `k` bytes behind it. -/
inductive Length where
  | fixed (n : Nat)
  | prefixed (k : Nat)
  deriving DecidableEq, Repr

/-- Read a length. -/
def readLength : Length → List UInt8 → Option (Nat × List UInt8)
  | .fixed n, bs => some (n, bs)
  | .prefixed k, bs => readNat k bs

/-- How the rest of a value is laid out. -/
inductive Format where
  | nil
  | bool (b : Bool)
  | fixint (n : Int)
  | uint (k : Nat)
  | int (k : Nat)
  | float32
  | float64
  | str (length : Length)
  | bin (length : Length)
  | array (length : Length)
  | map (length : Length)
  | ext (length : Length)
  deriving DecidableEq, Repr

/-- The format that a first byte selects; one byte is never used. -/
def format (b : Nat) : Option Format :=
  if b < 0x80 then some (.fixint b)
  else if b < 0x90 then some (.map (.fixed (b - 0x80)))
  else if b < 0xA0 then some (.array (.fixed (b - 0x90)))
  else if b < 0xC0 then some (.str (.fixed (b - 0xA0)))
  else if 0xE0 ≤ b then some (.fixint (b - 256))
  else match b with
    | 0xC0 => some .nil
    | 0xC2 => some (.bool false)
    | 0xC3 => some (.bool true)
    | 0xC4 => some (.bin (.prefixed 1))
    | 0xC5 => some (.bin (.prefixed 2))
    | 0xC6 => some (.bin (.prefixed 4))
    | 0xC7 => some (.ext (.prefixed 1))
    | 0xC8 => some (.ext (.prefixed 2))
    | 0xC9 => some (.ext (.prefixed 4))
    | 0xCA => some .float32
    | 0xCB => some .float64
    | 0xCC => some (.uint 1)
    | 0xCD => some (.uint 2)
    | 0xCE => some (.uint 4)
    | 0xCF => some (.uint 8)
    | 0xD0 => some (.int 1)
    | 0xD1 => some (.int 2)
    | 0xD2 => some (.int 4)
    | 0xD3 => some (.int 8)
    | 0xD4 => some (.ext (.fixed 1))
    | 0xD5 => some (.ext (.fixed 2))
    | 0xD6 => some (.ext (.fixed 4))
    | 0xD7 => some (.ext (.fixed 8))
    | 0xD8 => some (.ext (.fixed 16))
    | 0xD9 => some (.str (.prefixed 1))
    | 0xDA => some (.str (.prefixed 2))
    | 0xDB => some (.str (.prefixed 4))
    | 0xDC => some (.array (.prefixed 2))
    | 0xDD => some (.array (.prefixed 4))
    | 0xDE => some (.map (.prefixed 2))
    | 0xDF => some (.map (.prefixed 4))
    | _ => none

/-- `n` things, one after another. -/
def readMany {α : Type} (read : List UInt8 → Option (α × List UInt8)) :
    Nat → List UInt8 → Option (List α × List UInt8)
  | 0, bs => some ([], bs)
  | n + 1, bs => do
      let (a, bs) ← read bs
      let (as, bs) ← readMany read n bs
      some (a :: as, bs)

/-- A key and its value. -/
def readPair (read : List UInt8 → Option (Value × List UInt8)) (bs : List UInt8) :
    Option ((Value × Value) × List UInt8) := do
  let (key, bs) ← read bs
  let (value, bs) ← read bs
  some ((key, value), bs)

/-- The rest of a value of a format; `read` reads the values it contains. -/
def readFormat (read : List UInt8 → Option (Value × List UInt8)) (bs : List UInt8) :
    Format → Option (Value × List UInt8)
  | .nil => some (.nil, bs)
  | .bool b => some (.bool b, bs)
  | .fixint n => some (.int n, bs)
  | .uint k => (readNat k bs).map fun p => (.int p.1, p.2)
  | .int k => (readInt k bs).map fun p => (.int p.1, p.2)
  | .float32 => (readNat 4 bs).map fun p => (.float32 p.1, p.2)
  | .float64 => (readNat 8 bs).map fun p => (.float64 p.1, p.2)
  | .str length => do
      let (n, bs) ← readLength length bs
      let (bytes, bs) ← readBytes n bs
      let s ← String.fromUTF8? ⟨bytes.toArray⟩
      some (.str s, bs)
  | .bin length => do
      let (n, bs) ← readLength length bs
      let (bytes, bs) ← readBytes n bs
      some (.bin bytes, bs)
  | .array length => do
      let (n, bs) ← readLength length bs
      let (items, bs) ← readMany read n bs
      some (.array items, bs)
  | .map length => do
      let (n, bs) ← readLength length bs
      let (entries, bs) ← readMany (readPair read) n bs
      some (.map entries, bs)
  | .ext length => do
      let (n, bs) ← readLength length bs
      let (type, bs) ← readInt 1 bs
      let (bytes, bs) ← readBytes n bs
      some (.ext type bytes, bs)

/-- The value at the front of a byte list, if it is not nested deeper than the bound. -/
def readValue : Nat → List UInt8 → Option (Value × List UInt8)
  | depth + 1, b :: bs => (format b.toNat).bind (readFormat (readValue depth) bs)
  | _, _ => none

/-- The value that a byte list is. -/
def decode (bs : List UInt8) : Option Value :=
  match readValue bs.length bs with
  | some (v, []) => some v
  | _ => none

/-! ## What is read -/

/-- The byte list is read as the value, whatever follows it, wherever the bound on the nesting
allows it. -/
def Decodes (depth : Nat) (v : Value) (bs : List UInt8) : Prop :=
  ∀ d rest, depth ≤ d → readValue d (bs ++ rest) = some (v, rest)

theorem Decodes.mono {depth depth' : Nat} {v : Value} {bs : List UInt8} (h : Decodes depth v bs)
    (hle : depth ≤ depth') : Decodes depth' v bs :=
  fun d rest hd => h d rest (Nat.le_trans hle hd)

/-- A byte list that is read as a value decodes to it. -/
theorem Decodes.decode {depth : Nat} {v : Value} {bs : List UInt8} (h : Decodes depth v bs)
    (hle : depth ≤ bs.length) : decode bs = some v := by
  have hread := h bs.length [] hle
  rw [List.append_nil] at hread
  rw [MessagePack.decode, hread]

theorem readBytes_append (bytes rest : List UInt8) :
    readBytes bytes.length (bytes ++ rest) = some (bytes, rest) := by
  rw [readBytes, if_pos (by simp), List.take_left, List.drop_left]

theorem readNat_bigEndian {k n : Nat} (h : n < 256 ^ k) (rest : List UInt8) :
    readNat k (bigEndian k n ++ rest) = some (n, rest) := by
  have hbytes := readBytes_append (bigEndian k n) rest
  rw [length_bigEndian] at hbytes
  rw [readNat, hbytes, Option.map_some, bigEndian, List.reverse_reverse,
    LittleEndian.decode_encode_of_lt h]

/-- A number in two's complement. -/
theorem readInt_bigEndian {k : Nat} {n : Int} (hlo : -(256 ^ k : Nat) ≤ 2 * n)
    (hhi : 2 * n < (256 ^ k : Nat)) (rest : List UInt8) :
    readInt k (bigEndian k (n % (256 ^ k : Nat)).toNat ++ rest) = some (n, rest) := by
  have hpos : (0 : Int) < (256 ^ k : Nat) := by
    have := Nat.pow_pos (n := k) (show 0 < 256 by decide)
    omega
  have hlt := Int.emod_lt_of_pos n hpos
  have hnonneg := Int.emod_nonneg n (Int.ne_of_gt hpos)
  rw [readInt, readNat_bigEndian (by omega), Option.map_some]
  rcases Int.lt_or_le n 0 with hneg | hn
  · have hmod : n % (256 ^ k : Nat) = n + (256 ^ k : Nat) := by
      rw [← Int.add_emod_right, Int.emod_eq_of_lt (by omega) (by omega)]
    rw [hmod, if_neg (by omega)]
    congr
    omega
  · rw [Int.emod_eq_of_lt hn (by omega), if_pos (by omega)]
    congr
    omega

/-- A value whose format contains no other values. -/
theorem decodes_of_format {b : UInt8} {f : Format} {v : Value} {bytes : List UInt8}
    (hformat : format b.toNat = some f)
    (hread : ∀ read rest, readFormat read (bytes ++ rest) f = some (v, rest)) :
    Decodes 1 v (b :: bytes) := by
  intro d rest hd
  obtain ⟨d, rfl⟩ := Nat.exists_eq_add_of_le' hd
  rw [List.cons_append, readValue, hformat, Option.bind_some, hread]

theorem decodes_nil : Decodes 1 .nil [0xC0] :=
  decodes_of_format (f := .nil) rfl fun _ _ => rfl

/-- A number in the first byte. -/
theorem decodes_fixint {b : UInt8} {n : Int} (hformat : format b.toNat = some (.fixint n)) :
    Decodes 1 (.int n) [b] :=
  decodes_of_format hformat fun _ _ => rfl

/-- An unsigned number. -/
theorem decodes_uint {b : UInt8} {k n : Nat} (hformat : format b.toNat = some (.uint k))
    (hn : n < 256 ^ k) : Decodes 1 (.int n) (b :: bigEndian k n) := by
  refine decodes_of_format hformat fun read rest => ?_
  rw [readFormat, readNat_bigEndian hn, Option.map_some]

/-- A number in two's complement. -/
theorem decodes_int {b : UInt8} {k : Nat} {n : Int} (hformat : format b.toNat = some (.int k))
    (hlo : -(256 ^ k : Nat) ≤ 2 * n) (hhi : 2 * n < (256 ^ k : Nat)) :
    Decodes 1 (.int n) (b :: bigEndian k (n % (256 ^ k : Nat)).toNat) := by
  refine decodes_of_format hformat fun read rest => ?_
  rw [readFormat, readInt_bigEndian hlo hhi, Option.map_some]

theorem decodes_float64 {n : Nat} (hn : n < 256 ^ 8) :
    Decodes 1 (.float64 n) (0xCB :: bigEndian 8 n) := by
  refine decodes_of_format (f := .float64) rfl fun read rest => ?_
  rw [readFormat, readNat_bigEndian hn, Option.map_some]

/-- The bytes of a length behind the first byte of a value. -/
def Length.bytes (length : Length) (n : Nat) : List UInt8 :=
  match length with
  | .fixed _ => []
  | .prefixed k => bigEndian k n

/-- The length can hold the number. -/
def Length.Holds (length : Length) (n : Nat) : Prop :=
  match length with
  | .fixed m => n = m
  | .prefixed k => n < 256 ^ k

theorem readLength_bytes {length : Length} {n : Nat} (h : length.Holds n) (rest : List UInt8) :
    readLength length (length.bytes n ++ rest) = some (n, rest) := by
  cases length with
  | fixed m =>
      obtain rfl : n = m := h
      rfl
  | prefixed k => exact readNat_bigEndian h rest

/-- The bytes of a string. -/
def utf8 (s : String) : List UInt8 := s.toByteArray.data.toList

theorem fromUTF8?_utf8 (s : String) : String.fromUTF8? ⟨(utf8 s).toArray⟩ = some s := by
  have hbytes : (⟨(utf8 s).toArray⟩ : ByteArray) = s.toByteArray := by simp [utf8]
  rw [hbytes, String.fromUTF8?, dif_pos s.isValidUTF8]
  rfl

/-- A string. -/
theorem decodes_str (length : Length) {b : UInt8} {s : String}
    (hformat : format b.toNat = some (.str length)) (hlength : length.Holds (utf8 s).length) :
    Decodes 1 (.str s) (b :: (length.bytes (utf8 s).length ++ utf8 s)) := by
  refine decodes_of_format hformat fun read rest => ?_
  rw [readFormat, List.append_assoc, readLength_bytes hlength]
  simp only [Option.bind_eq_bind, Option.bind_some, readBytes_append, fromUTF8?_utf8]

/-! ## Maps -/

/-- The entries of a map, each a key and its value with the bytes of both. -/
structure Entry where
  key : Value
  value : Value
  keyBytes : List UInt8
  valueBytes : List UInt8

/-- The bytes of an entry. -/
def Entry.bytes (e : Entry) : List UInt8 := e.keyBytes ++ e.valueBytes

/-- The bytes of the entry are read as its key and its value. -/
structure Entry.Decodes (depth : Nat) (e : Entry) : Prop where
  key : MessagePack.Decodes depth e.key e.keyBytes
  value : MessagePack.Decodes depth e.value e.valueBytes

theorem length_bytes_le_of_mem {es : List Entry} {e : Entry} (he : e ∈ es) :
    e.bytes.length ≤ (es.flatMap Entry.bytes).length := by
  obtain ⟨before, after, rfl⟩ := List.append_of_mem he
  simp only [List.flatMap_append, List.flatMap_cons, List.length_append]
  omega

/-- Entries that are not empty are no more than their bytes. -/
theorem length_le_length_flatMap {es : List Entry} (h : ∀ e ∈ es, 0 < e.bytes.length) :
    es.length ≤ (es.flatMap Entry.bytes).length := by
  induction es with
  | nil => exact Nat.zero_le _
  | cons e es ih =>
      have hhead := h e (List.mem_cons_self ..)
      have htail := ih fun e' he' => h e' (List.mem_cons_of_mem e he')
      rw [List.flatMap_cons, List.length_append, List.length_cons]
      omega

theorem readPair_entry {depth d : Nat} {e : Entry} (h : e.Decodes depth) (hd : depth ≤ d)
    (rest : List UInt8) :
    readPair (readValue d) (e.bytes ++ rest) = some ((e.key, e.value), rest) := by
  rw [readPair, Entry.bytes, List.append_assoc, h.key d _ hd]
  simp only [Option.bind_eq_bind, Option.bind_some, h.value d _ hd]

/-- Entries are read one after another. -/
theorem readMany_entries {depth d : Nat} {es : List Entry} (h : ∀ e ∈ es, e.Decodes depth)
    (hd : depth ≤ d) (rest : List UInt8) :
    readMany (readPair (readValue d)) es.length (es.flatMap Entry.bytes ++ rest) =
      some (es.map fun e => (e.key, e.value), rest) := by
  induction es with
  | nil => rfl
  | cons e es ih =>
      have hhead := readPair_entry (h e (List.mem_cons_self ..)) hd
      have htail := ih fun e' he' => h e' (List.mem_cons_of_mem e he')
      rw [List.length_cons, readMany, List.flatMap_cons, List.append_assoc, hhead]
      simp only [Option.bind_eq_bind, Option.bind_some, htail, List.map_cons]

/-- **A map**: its header counts the entries that follow. -/
theorem decodes_map (length : Length) {b : UInt8} {depth : Nat} {es : List Entry}
    (hformat : format b.toNat = some (.map length)) (hlength : length.Holds es.length)
    (hes : ∀ e ∈ es, e.Decodes depth) :
    Decodes (depth + 1) (.map (es.map fun e => (e.key, e.value)))
      (b :: length.bytes es.length ++ es.flatMap Entry.bytes) := by
  intro d rest hd
  obtain ⟨d, rfl⟩ := Nat.exists_eq_add_of_le' (Nat.le_of_add_left_le hd)
  have hentries := readMany_entries hes (show depth ≤ d by omega) rest
  rw [List.cons_append, List.cons_append, readValue, hformat, Option.bind_some, readFormat,
    List.append_assoc, readLength_bytes hlength]
  simp only [Option.bind_eq_bind, Option.bind_some, hentries]

end DdTrace.Lib.MessagePack
