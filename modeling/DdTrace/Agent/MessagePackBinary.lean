import DdTrace.Agent.SpanPayload
import DdTrace.Lib.MessagePack

/-!
# The writers of `MessagePackBinary`

Each writer puts an image at an offset of an array, which `EnsureCapacity` makes long enough, and
returns the length of the image.

* `writeNil` to `writeString`: the images, as the writers choose among the formats.
* `decodes_writeUInt64` to `decodes_writeString`: each is read as what was written.
* `Output`: an array with the offset behind what was written so far. `Output.write` writes an image
  there, and `Output.overwrite` writes one again further ahead.

Source: `Vendors/MessagePack/MessagePackBinary.cs`.
-/

namespace DdTrace.Agent.MessagePack

open DdTrace.Lib DdTrace.Lib.MessagePack

/-! ## The images -/

/-- Source: `MessagePackBinary.cs`, `WriteNil` -/
def writeNil : List UInt8 := [0xC0]

/-- Source: `MessagePackBinary.cs`, `WriteMapHeader` -/
def writeMapHeader (count : Nat) : List UInt8 :=
  if count ≤ 15 then [UInt8.ofNat (0x80 ||| count)]
  else if count ≤ 0xFFFF then 0xDE :: bigEndian 2 count
  else 0xDF :: bigEndian 4 count

/-- Source: `MessagePackBinary.cs`, `WriteMapHeaderForceMap32Block` -/
def writeMapHeaderForceMap32Block (count : Nat) : List UInt8 := 0xDF :: bigEndian 4 count

/-- Source: `MessagePackBinary.cs`, `WriteByte` -/
def writeByte (value : UInt8) : List UInt8 := if value ≤ 127 then [value] else [0xCC, value]

/-- Source: `MessagePackBinary.cs`, `WriteUInt64` -/
def writeUInt64 (value : Nat) : List UInt8 :=
  if value ≤ 127 then [UInt8.ofNat value]
  else if value ≤ 0xFF then 0xCC :: bigEndian 1 value
  else if value ≤ 0xFFFF then 0xCD :: bigEndian 2 value
  else if value ≤ 0xFFFFFFFF then 0xCE :: bigEndian 4 value
  else 0xCF :: bigEndian 8 value

/-- The low `k` bytes of a number in two's complement. -/
def twosComplement (k : Nat) (value : Int) : List UInt8 :=
  bigEndian k (value % (256 ^ k : Nat)).toNat

/-- Source: `MessagePackBinary.cs`, `WriteInt64` -/
def writeInt64 (value : Int) : List UInt8 :=
  if 0 ≤ value then writeUInt64 value.toNat
  else if -32 ≤ value then twosComplement 1 value
  else if -128 ≤ value then 0xD0 :: twosComplement 1 value
  else if -32768 ≤ value then 0xD1 :: twosComplement 2 value
  else if -2147483648 ≤ value then 0xD2 :: twosComplement 4 value
  else 0xD3 :: twosComplement 8 value

/-- Source: `MessagePackBinary.cs`, `WriteDouble` -/
def writeDouble (value : Float) : List UInt8 := 0xCB :: bigEndian 8 value.toBits.toNat

/-- Source: `MessagePackBinary.cs`, `WriteStringBytes` -/
def writeStringBytes (utf8stringBytes : List UInt8) : List UInt8 :=
  let byteCount := utf8stringBytes.length
  if byteCount ≤ 31 then UInt8.ofNat (0xA0 ||| byteCount) :: utf8stringBytes
  else if byteCount ≤ 0xFF then 0xD9 :: (bigEndian 1 byteCount ++ utf8stringBytes)
  else if byteCount ≤ 0xFFFF then 0xDA :: (bigEndian 2 byteCount ++ utf8stringBytes)
  else 0xDB :: (bigEndian 4 byteCount ++ utf8stringBytes)

/-- Source: `MessagePackBinary.cs`, `WriteString` -/
def writeString : Option String → List UInt8
  | none => writeNil
  | some value => writeStringBytes (utf8 value)

/-! ## What the images are read as -/

/-- A string, or null. -/
def ofString : Option String → Value
  | none => .nil
  | some s => .str s

theorem format_fixint {n : Nat} (h : n ≤ 127) :
    format (UInt8.ofNat n).toNat = some (.fixint n) := by
  have hcases : ∀ n : Fin 128, format (UInt8.ofNat n.val).toNat = some (.fixint n.val) := by decide
  exact hcases ⟨n, by omega⟩

theorem format_negative {n : Nat} (h : n ≤ 31) :
    format (UInt8.ofNat (224 + n)).toNat = some (.fixint ((n : Int) - 32)) := by
  have hcases : ∀ n : Fin 32, format (UInt8.ofNat (224 + n.val)).toNat =
      some (.fixint ((n.val : Int) - 32)) := by decide
  exact hcases ⟨n, by omega⟩

theorem format_fixstr {n : Nat} (h : n ≤ 31) :
    format (UInt8.ofNat (0xA0 ||| n)).toNat = some (.str (.fixed n)) := by
  have hcases : ∀ n : Fin 32, format (UInt8.ofNat (0xA0 ||| n.val)).toNat =
      some (.str (.fixed n.val)) := by decide
  exact hcases ⟨n, by omega⟩

theorem format_fixmap {n : Nat} (h : n ≤ 15) :
    format (UInt8.ofNat (0x80 ||| n)).toNat = some (.map (.fixed n)) := by
  have hcases : ∀ n : Fin 16, format (UInt8.ofNat (0x80 ||| n.val)).toNat =
      some (.map (.fixed n.val)) := by decide
  exact hcases ⟨n, by omega⟩

theorem decodes_writeUInt64 {n : Nat} (h : n < 2 ^ 64) : Decodes 1 (.int n) (writeUInt64 n) := by
  unfold writeUInt64
  split
  · exact decodes_fixint (format_fixint ‹_›)
  split
  · exact decodes_uint rfl (by omega)
  split
  · exact decodes_uint rfl (by omega)
  split
  · exact decodes_uint rfl (by omega)
  · exact decodes_uint rfl h

theorem decodes_writeByte_one : Decodes 1 (.int 1) (writeByte 1) :=
  decodes_fixint (format_fixint (n := 1) (by omega))

theorem decodes_writeInt64 {n : Int} (hlo : -2 ^ 63 ≤ n) (hhi : n < 2 ^ 63) :
    Decodes 1 (.int n) (writeInt64 n) := by
  unfold writeInt64 twosComplement
  split
  · rename_i hnonneg
    have hread := decodes_writeUInt64 (n := n.toNat) (by omega)
    rwa [Int.toNat_of_nonneg hnonneg] at hread
  split
  · obtain ⟨m, hm⟩ : ∃ m : Nat, n = (m : Int) - 32 := ⟨(n + 32).toNat, by omega⟩
    have hbyte : (n % (256 ^ 1 : Nat)).toNat = 224 + m := by omega
    rw [hbyte, hm]
    exact decodes_fixint (format_negative (by omega))
  split
  · exact decodes_int rfl (by omega) (by omega)
  split
  · exact decodes_int rfl (by omega) (by omega)
  split
  · exact decodes_int rfl (by omega) (by omega)
  · exact decodes_int rfl (by omega) (by omega)

theorem decodes_writeDouble (x : Float) :
    Decodes 1 (.float64 x.toBits.toNat) (writeDouble x) :=
  decodes_float64 (UInt64.toNat_lt _)

theorem decodes_writeStringBytes {s : String} (h : (utf8 s).length < 2 ^ 32) :
    Decodes 1 (.str s) (writeStringBytes (utf8 s)) := by
  unfold writeStringBytes
  dsimp only
  split
  · exact decodes_str (.fixed (utf8 s).length) (format_fixstr ‹_›) rfl
  split
  · exact decodes_str (.prefixed 1) rfl (show _ < 256 ^ 1 by omega)
  split
  · exact decodes_str (.prefixed 2) rfl (show _ < 256 ^ 2 by omega)
  · exact decodes_str (.prefixed 4) rfl (show _ < 256 ^ 4 by omega)

/-- A string is shorter than its image. -/
theorem length_lt_writeStringBytes (bytes : List UInt8) :
    bytes.length < (writeStringBytes bytes).length := by
  have htail : ∀ b : UInt8, ∀ k n : Nat,
      bytes.length < (b :: (bigEndian k n ++ bytes)).length := by
    intro b k n
    rw [List.length_cons, List.length_append]
    omega
  unfold writeStringBytes
  dsimp only
  split
  · simp
  split
  · exact htail _ _ _
  split
  · exact htail _ _ _
  · exact htail _ _ _

theorem decodes_writeString {s : Option String} (h : ∀ v ∈ s, (utf8 v).length < 2 ^ 32) :
    Decodes 1 (ofString s) (writeString s) := by
  cases s with
  | none => exact decodes_nil
  | some v => exact decodes_writeStringBytes (h v rfl)

theorem pos_length_writeMapHeader (count : Nat) : 0 < (writeMapHeader count).length := by
  unfold writeMapHeader
  split
  · exact Nat.one_pos
  split
  · exact Nat.succ_pos _
  · exact Nat.succ_pos _

/-- A map with the shortest header. -/
theorem decodes_writeMapHeader {depth : Nat} {es : List Entry} (h : es.length < 2 ^ 32)
    (hes : ∀ e ∈ es, e.Decodes depth) :
    Decodes (depth + 1) (.map (es.map fun e => (e.key, e.value)))
      (writeMapHeader es.length ++ es.flatMap Entry.bytes) := by
  unfold writeMapHeader
  split
  · exact decodes_map (.fixed es.length) (format_fixmap ‹_›) rfl hes
  split
  · exact decodes_map (.prefixed 2) rfl (show _ < 256 ^ 2 by omega) hes
  · exact decodes_map (.prefixed 4) rfl (show _ < 256 ^ 4 by omega) hes

/-- A map with a header of fixed size. -/
theorem decodes_writeMapHeaderForceMap32Block {depth : Nat} {es : List Entry}
    (h : es.length < 2 ^ 32) (hes : ∀ e ∈ es, e.Decodes depth) :
    Decodes (depth + 1) (.map (es.map fun e => (e.key, e.value)))
      (writeMapHeaderForceMap32Block es.length ++ es.flatMap Entry.bytes) :=
  decodes_map (.prefixed 4) rfl (show _ < 256 ^ 4 by omega) hes

/-! ## The array -/

/-- An array and the offset behind what was written so far. -/
structure Output where
  /-- `bytes`. -/
  bytes : List UInt8
  /-- `offset`. -/
  offset : Nat

namespace Output

variable {o o' o'' : Output} {image image' : List UInt8}

/-- `offset += Write…(ref bytes, offset, …)`. -/
def write (o : Output) (image : List UInt8) : Output where
  bytes := Payload.putAt o.bytes o.offset image
  offset := o.offset + image.length

/-- `Write…(ref bytes, position, …)`. -/
def overwrite (o : Output) (position : Nat) (image : List UInt8) : Output :=
  { o with bytes := Payload.putAt o.bytes position image }

/-- What the array holds up to the offset. -/
def front (o : Output) : List UInt8 :=
  o.bytes.take o.offset ++ List.replicate (o.offset - o.bytes.length) 0

@[simp] theorem length_front (o : Output) : o.front.length = o.offset := by
  rw [front, List.length_append, List.length_take, List.length_replicate]
  omega

/-- What the array begins with, up to the offset. -/
theorem front_eq {written rest : List UInt8} (hbytes : o.bytes = written ++ rest)
    (hoffset : o.offset = written.length) : o.front = written ∧ o.offset ≤ o.bytes.length := by
  have hle : o.offset ≤ o.bytes.length := by
    rw [hbytes, hoffset, List.length_append]
    omega
  refine ⟨?_, hle⟩
  rw [front, Nat.sub_eq_zero_of_le hle, hbytes, hoffset, List.take_left, List.replicate_zero,
    List.append_nil]

/-- The image was written, and nothing before it was changed. -/
structure Wrote (o o' : Output) (image : List UInt8) : Prop where
  front : o'.front = o.front ++ image
  offset_le : o'.offset ≤ o'.bytes.length

theorem Wrote.offset (h : Wrote o o' image) : o'.offset = o.offset + image.length := by
  have hlen := congrArg List.length h.front
  simpa using hlen

theorem wrote_write (o : Output) (image : List UInt8) : Wrote o (o.write image) image := by
  have hbytes : (o.write image).bytes =
      o.front ++ image ++ o.bytes.drop (o.offset + image.length) := rfl
  obtain ⟨hfront, hle⟩ := front_eq hbytes (by simp [write])
  exact ⟨hfront, hle⟩

theorem Wrote.trans (h : Wrote o o' image) (h' : Wrote o' o'' image') :
    Wrote o o'' (image ++ image') := by
  refine ⟨?_, h'.offset_le⟩
  rw [h'.front, h.front, List.append_assoc]

/-- One more image. -/
theorem Wrote.write (h : Wrote o o' image) (image' : List UInt8) :
    Wrote o (o'.write image') (image ++ image') :=
  h.trans (wrote_write o' image')

/-- An image of the same length replaces one in the array. -/
theorem putAt_append {before old image rest : List UInt8} (hlen : image.length = old.length) :
    Payload.putAt (before ++ old ++ rest) before.length image = before ++ image ++ rest := by
  have htake : (before ++ old ++ rest).take before.length = before := by
    rw [List.append_assoc, List.take_left]
  have hdrop : (before ++ old ++ rest).drop (before.length + image.length) = rest := by
    rw [hlen, ← List.length_append, List.drop_left]
  have hroom : before.length - (before ++ old ++ rest).length = 0 := by
    simp only [List.length_append]
    omega
  rw [Payload.putAt, htake, hdrop, hroom, List.replicate_zero, List.append_nil]

/-- An image of the same length replaces one that was written. -/
theorem Wrote.overwrite {before old after : List UInt8}
    (h : Wrote o o' (before ++ old ++ after)) (hlen : image.length = old.length) :
    Wrote o (o'.overwrite (o.offset + before.length) image) (before ++ image ++ after) := by
  obtain ⟨rest, hrest⟩ : ∃ rest, o'.bytes.drop o'.offset = rest := ⟨_, rfl⟩
  have hfront : o'.bytes.take o'.offset = o.front ++ (before ++ old ++ after) := by
    rw [← h.front, Output.front, Nat.sub_eq_zero_of_le h.offset_le, List.replicate_zero,
      List.append_nil]
  have hbytes : o'.bytes = o.front ++ before ++ old ++ (after ++ rest) := by
    rw [← List.take_append_drop o'.offset o'.bytes, hfront, hrest]
    simp
  have hnew : (o'.overwrite (o.offset + before.length) image).bytes =
      o.front ++ (before ++ image ++ after) ++ rest := by
    have hposition : o.offset + before.length = (o.front ++ before).length := by simp
    rw [Output.overwrite, hbytes, hposition, putAt_append hlen]
    simp
  have hoffset : (o'.overwrite (o.offset + before.length) image).offset =
      (o.front ++ (before ++ image ++ after)).length := by
    rw [show (o'.overwrite (o.offset + before.length) image).offset = o'.offset from rfl, h.offset]
    simp [hlen]
  obtain ⟨hfront, hle⟩ := front_eq hnew hoffset
  exact ⟨hfront, hle⟩

/-- The image is found between the two offsets. -/
theorem Wrote.slice (h : Wrote o o' image) :
    (o'.bytes.drop o.offset).take (o'.offset - o.offset) = image := by
  have hfront : o'.bytes.take o'.offset = o.front ++ image := by
    rw [← h.front, Output.front, Nat.sub_eq_zero_of_le h.offset_le, List.replicate_zero,
      List.append_nil]
  rw [← List.drop_take, hfront, List.drop_left' (length_front o)]

end Output

end DdTrace.Agent.MessagePack
