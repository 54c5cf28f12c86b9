import DdTrace.Ci.GitInfo
import DdTrace.Lib.FiniteChecks
import DdTrace.Lib.FixedWidth
import DdTrace.Lib.Outcomes

/-!
# Indexes of git packs

A pack index of version 2 as a value with its bytes, and what the lookup finds in it.

* `PackIndex`: the tables; `bytes` and `lookup`.
* `CommitSha`: a commit id of 40 hexadecimal digits.
* `finds_iff`: when the lookup returns what the index assigns.

For a first byte other than 0 the lookup reaches the right entry, but reads the 8-byte table the
wrong way round. For the first byte 0 it searches among the names that start with 1, from a place
that is 4 bytes too far on.

Source: `GitInfo.cs`, lines 542 to 686.
-/

namespace DdTrace.Ci

open DdTrace.Lib DdTrace.Lib.FixedWidth DdTrace.Lib.Outcomes

/-! ## Indexes -/

/-- A big-endian number. -/
def bigEndian (width n : Nat) : List UInt8 := (LittleEndian.encode width n).reverse

@[simp] theorem length_bigEndian (width n : Nat) : (bigEndian width n).length = width := by
  rw [bigEndian, List.length_reverse, LittleEndian.length_encode]

/-- An object of a pack. -/
structure PackEntry where
  /-- Its name. -/
  name : List UInt8
  /-- A name has 20 bytes. -/
  name_length : name.length = 20
  /-- The checksum of its packed data. -/
  crc : List UInt8
  /-- A checksum has 4 bytes. -/
  crc_length : crc.length = 4
  /-- Its entry in the 4-byte table. -/
  offset : Nat
  /-- The entry fits. -/
  offset_lt : offset < 2 ^ 32

/-- The first byte of the name. -/
def PackEntry.folder (e : PackEntry) : Nat := (e.name.headD 0).toNat

/-- The index of a pack. -/
structure PackIndex where
  /-- The objects. -/
  entries : List PackEntry
  /-- They are sorted by name. -/
  sorted : entries.Pairwise fun a b => a.name < b.name
  /-- Their number fits into the first table. -/
  count_lt : entries.length < 2 ^ 32
  /-- The 8-byte table. -/
  largeOffsets : List Nat
  /-- An offset is a position in a file. -/
  large_lt : ∀ n ∈ largeOffsets, n < 2 ^ 63
  /-- An entry with the high bit refers to the 8-byte table. -/
  large_mem : ∀ e ∈ entries, 2 ^ 31 ≤ e.offset → e.offset - 2 ^ 31 < largeOffsets.length
  /-- The checksums of the pack and of the index. -/
  trailer : List UInt8
  /-- They have 20 bytes each. -/
  trailer_length : trailer.length = 40

namespace PackIndex

variable (index : PackIndex)

/-- The number of objects. -/
def count : Nat := index.entries.length

/-- The number of objects whose first byte is at most `i`. -/
def upTo (i : Nat) : Nat := index.entries.countP fun e => e.folder ≤ i

/-- The magic number and the version. -/
def header : List UInt8 := [0xFF, 0x74, 0x4F, 0x63, 0, 0, 0, 2]

/-- The first table. -/
def fanout : List UInt8 := (List.range 256).flatMap fun i => bigEndian 4 (index.upTo i)

/-- The tables behind the first. -/
def tables : List UInt8 :=
  index.entries.flatMap PackEntry.name ++ (index.entries.flatMap PackEntry.crc ++
    (index.entries.flatMap (fun e => bigEndian 4 e.offset) ++
      (index.largeOffsets.flatMap (bigEndian 8) ++ index.trailer)))

/-- The content of the file. -/
def bytes : List UInt8 := header ++ (index.fanout ++ index.tables)

/-- The entry of the 8-byte table that an object refers to. -/
def largeOffset (e : PackEntry) : Nat := index.largeOffsets.getD (e.offset - 2 ^ 31) 0

/-- The offset that the index assigns to an object. -/
def offsetOf (e : PackEntry) : Nat := if e.offset < 2 ^ 31 then e.offset else index.largeOffset e

/-- The offset that the index assigns to a name. -/
def lookup (name : List UInt8) : Option Nat :=
  (index.entries.find? fun e => e.name = name).map index.offsetOf

end PackIndex

/-! ## Commit ids -/

/-- The bytes that pairs of hexadecimal digits stand for. -/
def hexBytes : List Char → List UInt8
  | c :: d :: cs => UInt8.ofNat (16 * hexValue c + hexValue d) :: hexBytes cs
  | _ => []

/-- A commit id. -/
structure CommitSha where
  /-- The characters. -/
  chars : List Char
  /-- There are 40. -/
  length : chars.length = 40
  /-- They are hexadecimal digits. -/
  hex : ∀ c ∈ chars, c ∈ hexChars

namespace CommitSha

/-- The name of the commit. -/
def bytes (sha : CommitSha) : List UInt8 := hexBytes sha.chars

/-- The first byte of the name. -/
def folder (sha : CommitSha) : Nat := (sha.bytes.headD 0).toNat

end CommitSha

namespace PackIndex

variable (index : PackIndex)

/-- The lookup returns what the index assigns. -/
def Finds (idxFilePath : String) (sha : CommitSha) : Prop :=
  tryGetPackageOffset idxFilePath index.bytes sha.chars =
    .ok ((index.lookup sha.bytes).map fun offset => ⟨idxFilePath, offset⟩)

/-- No distance in the file is cut off. -/
structure InRange (sha : CommitSha) : Prop where
  /-- The distance to the names with the first byte. -/
  names : 20 * index.upTo (sha.folder - 1) < 2 ^ 31
  /-- The distances behind the name. -/
  entry : ∀ k e, index.entries[k]? = some e → e.name = sha.bytes →
    20 * (index.count - (k + 1)) < 2 ^ 32 ∧ 4 * index.count < 2 ^ 32 ∧
      (2 ^ 31 ≤ e.offset → 8 * (e.offset - 2 ^ 31) < 2 ^ 32)

/-- Where names that start with 1 are taken to be, 4 bytes too far on, the name does not stand by
accident. -/
structure NoAccident (sha : CommitSha) : Prop where
  /-- The distance to the first such place. -/
  names : 20 * index.upTo 0 < 2 ^ 31
  /-- The places. -/
  shifted : ∀ j, index.upTo 0 ≤ j → j < index.upTo 1 →
    (index.bytes.drop (1036 + 20 * j)).take 20 ≠ sha.bytes

/-- What the lookup reads is determined by the tables. -/
def Readable (sha : CommitSha) : Prop :=
  if sha.folder = 0 then index.NoAccident sha else index.InRange sha

/-- The name is not listed, or it does not start with 0 and its offset is in the 4-byte table or reads
the same both ways. -/
def Served (sha : CommitSha) : Prop :=
  ∀ e ∈ index.entries, e.name = sha.bytes → sha.folder ≠ 0 ∧
    (2 ^ 31 ≤ e.offset → (bigEndian 8 (index.largeOffset e)).reverse =
      bigEndian 8 (index.largeOffset e))

end PackIndex

/-! ## Hexadecimal text -/

theorem parseHexNumber_pair : ∀ c ∈ hexChars, ∀ d ∈ hexChars,
    parseHexNumber [c, d] = some (16 * hexValue c + hexValue d) := by
  have hall : (hexChars.all fun c => hexChars.all fun d =>
      decide (parseHexNumber [c, d] = some (16 * hexValue c + hexValue d))) = true := by
    decide +kernel
  intro c hc
  exact forall_mem_of_all (List.all_eq_true.mp hall c hc)

theorem hexValue_lt : ∀ c ∈ hexChars, hexValue c < 16 := forall_mem_of_all (by decide)

/-- A written digit is a hexadecimal digit up to case exactly if it has its value. -/
theorem toUpper_hexChar : ∀ c ∈ hexChars, ∀ n : Fin 16,
    (hexChars.getD n '0').toUpper = c.toUpper ↔ (n : Nat) = hexValue c :=
  forall_mem_of_all (by decide +kernel)

theorem hexChar_ne_dash : ∀ n : Fin 16, hexChars.getD n '0' ≠ '-' := by decide

theorem removeDashes_hexByte (b : UInt8) (s : List Char) :
    removeDashes (hexByte b ++ s) = hexByte b ++ removeDashes s := by
  have hhi : b.toNat / 16 < 16 := by
    have := b.toNat_lt
    omega
  have hlo : b.toNat % 16 < 16 := Nat.mod_lt _ (by decide)
  have h₁ := hexChar_ne_dash ⟨_, hhi⟩
  have h₂ := hexChar_ne_dash ⟨_, hlo⟩
  simp only [removeDashes, hexByte, List.cons_append, List.nil_append, List.filter_cons, h₁, h₂, ne_eq,
    not_false_iff, decide_true, if_true]

/-- Without the dashes, the digits of the bytes. -/
theorem removeDashes_toString (bytes : List UInt8) :
    removeDashes (bitConverterToString bytes) = bytes.flatMap hexByte := by
  induction bytes with
  | nil => rfl
  | cons b bytes ih =>
      cases bytes with
      | nil =>
          have h := removeDashes_hexByte b []
          rw [List.append_nil] at h
          rw [List.flatMap_cons, List.flatMap_nil]
          simpa [bitConverterToString, List.intercalate, removeDashes] using h
      | cons b' bytes =>
          have hjoin : bitConverterToString (b :: b' :: bytes) =
              hexByte b ++ '-' :: bitConverterToString (b' :: bytes) := by
            simp [bitConverterToString, List.intercalate]
          have hdash : ∀ s, removeDashes ('-' :: s) = removeDashes s := fun s => rfl
          rw [hjoin, removeDashes_hexByte, hdash, ih]
          rfl

/-- The text of a name is a commit id up to case exactly if it is the name of the commit. -/
theorem equals_hexBytes (bytes : List UInt8) (cs : List Char) (hlen : cs.length = 2 * bytes.length)
    (hhex : ∀ c ∈ cs, c ∈ hexChars) :
    equalsIgnoreCase (bytes.flatMap hexByte) cs = true ↔ bytes = hexBytes cs := by
  induction bytes generalizing cs with
  | nil =>
      have hnil : cs = [] := List.eq_nil_of_length_eq_zero hlen
      subst hnil
      simp [equalsIgnoreCase, hexBytes]
  | cons b bytes ih =>
      obtain ⟨c, d, cs, rfl⟩ : ∃ c d t, cs = c :: d :: t := by
        rcases cs with _ | ⟨c, _ | ⟨d, t⟩⟩
        · simp at hlen
        · simp at hlen
          omega
        · exact ⟨c, d, t, rfl⟩
      rw [List.forall_mem_cons, List.forall_mem_cons] at hhex
      obtain ⟨hc, hd, hcs⟩ := hhex
      have hlen' : cs.length = 2 * bytes.length := by
        simp only [List.length_cons] at hlen
        omega
      have hb := b.toNat_lt
      have hhi : b.toNat / 16 < 16 := by omega
      have hlo : b.toNat % 16 < 16 := Nat.mod_lt _ (by decide)
      have hcv := hexValue_lt c hc
      have hdv := hexValue_lt d hd
      have h₁ := toUpper_hexChar c hc ⟨_, hhi⟩
      have h₂ := toUpper_hexChar d hd ⟨_, hlo⟩
      have hrest := ih cs hlen' hcs
      simp only [equalsIgnoreCase, beq_iff_eq] at hrest
      have hbyte : (b.toNat / 16 = hexValue c ∧ b.toNat % 16 = hexValue d) ↔
          b = UInt8.ofNat (16 * hexValue c + hexValue d) := by
        rw [← UInt8.toNat_inj, UInt8.toNat_ofNat']
        omega
      simp only [equalsIgnoreCase, List.flatMap_cons, hexByte, List.cons_append, List.nil_append,
        List.map_cons, beq_iff_eq, List.cons.injEq, hexBytes, hrest, ← hbyte]
      simp only [h₁, h₂, and_assoc]

theorem length_hexBytes :
    (cs : List Char) → cs.length % 2 = 0 → cs.length = 2 * (hexBytes cs).length
  | [], _ => rfl
  | [_], h => absurd h Nat.one_ne_zero
  | _ :: _ :: cs, h => by
      have hrest : cs.length % 2 = 0 := by
        simp only [List.length_cons] at h
        omega
      rw [hexBytes, List.length_cons, List.length_cons, List.length_cons,
        length_hexBytes cs hrest]
      omega

namespace CommitSha

variable (sha : CommitSha)

theorem chars_eq : ∃ c d t, sha.chars = c :: d :: t ∧ c ∈ hexChars ∧ d ∈ hexChars := by
  have hlen := sha.length
  have hhex := sha.hex
  cases hchars : sha.chars with
  | nil => simp [hchars] at hlen
  | cons c t =>
      cases t with
      | nil => simp [hchars] at hlen
      | cons d t =>
          rw [hchars, List.forall_mem_cons, List.forall_mem_cons] at hhex
          exact ⟨c, d, t, rfl, hhex.1, hhex.2.1⟩

theorem folder_lt : sha.folder < 256 := UInt8.toNat_lt _

/-- The first two digits are the first byte. -/
theorem parseHexNumber_take : parseHexNumber (sha.chars.take 2) = some sha.folder := by
  obtain ⟨c, d, t, hchars, hc, hd⟩ := sha.chars_eq
  have hcv := hexValue_lt c hc
  have hdv := hexValue_lt d hd
  have hfolder : sha.folder = 16 * hexValue c + hexValue d := by
    rw [folder, bytes, hchars]
    change (UInt8.ofNat _).toNat = _
    rw [UInt8.toNat_ofNat']
    omega
  rw [hchars, hfolder]
  exact parseHexNumber_pair c hc d hd

/-- The text of some bytes is the commit id up to case exactly if they are its name. -/
theorem equals_iff (name : List UInt8) :
    equalsIgnoreCase (removeDashes (bitConverterToString name)) sha.chars = true ↔
      name = sha.bytes := by
  rw [removeDashes_toString, bytes]
  by_cases hlen : sha.chars.length = 2 * name.length
  · exact equals_hexBytes name sha.chars hlen sha.hex
  · refine ⟨fun h => absurd ?_ hlen, fun h => absurd ?_ hlen⟩
    · have hmap := congrArg List.length (eq_of_beq h)
      have htext : (name.flatMap hexByte).length = 2 * name.length :=
        length_flatMap_of_width fun b _ => rfl
      rw [List.length_map, List.length_map, htext] at hmap
      exact hmap.symm
    · rw [h]
      exact length_hexBytes sha.chars (by rw [sha.length])

end CommitSha

/-! ## Steps in a file -/

namespace FileStream

/-- A seek to a place in the file. -/
theorem seek_eq {fs : FileStream} {offset : Int} {position : Nat}
    (h : (fs.position : Int) + offset = position) :
    fs.seek offset = .ok ⟨fs.bytes, position⟩ := by
  rw [seek, h, if_neg (by omega), Int.toNat_natCast]

/-- A seek forwards. -/
theorem seek_forward (bytes : List UInt8) (position distance : Nat) :
    seek ⟨bytes, position⟩ (distance : Int) = .ok ⟨bytes, position + distance⟩ :=
  seek_eq (Int.natCast_add position distance).symm

theorem readBytes_of_drop {fs : FileStream} {w v : List UInt8}
    (h : fs.bytes.drop fs.position = w ++ v) :
    fs.readBytes w.length = (w, ⟨fs.bytes, fs.position + w.length⟩) := by
  rw [readBytes, h, List.take_left]

theorem readBytes_full {fs : FileStream} {count : Nat}
    (h : fs.position + count ≤ fs.bytes.length) :
    fs.readBytes count =
      ((fs.bytes.drop fs.position).take count, ⟨fs.bytes, fs.position + count⟩) := by
  have hlen : ((fs.bytes.drop fs.position).take count).length = count := by
    rw [List.length_take, List.length_drop]
    omega
  rw [readBytes, hlen]

/-- A big-endian number is read back. -/
theorem readUInt32_of_drop {fs : FileStream} {n : Nat} {v : List UInt8} (hn : n < 2 ^ 32)
    (h : fs.bytes.drop fs.position = bigEndian 4 n ++ v) :
    fs.readUInt32 = .ok (n, ⟨fs.bytes, fs.position + 4⟩) := by
  have hread := readBytes_of_drop h
  rw [length_bigEndian] at hread
  have hvalue : LittleEndian.decode (bigEndian 4 n).reverse = n := by
    rw [bigEndian, List.reverse_reverse]
    exact LittleEndian.decode_encode_of_lt hn
  rw [readUInt32, hread]
  simp only [length_bigEndian, Nat.lt_irrefl, if_false, hvalue]

theorem readUInt32_of_le {bytes : List UInt8} {position : Nat} (h : position + 4 ≤ bytes.length) :
    ∃ n, readUInt32 ⟨bytes, position⟩ = .ok (n, ⟨bytes, position + 4⟩) := by
  have hread : readBytes ⟨bytes, position⟩ 4 = _ := readBytes_full h
  have hlen : ((bytes.drop position).take 4).length = 4 := by
    rw [List.length_take, List.length_drop]
    omega
  rw [readUInt32, hread]
  simp only [hlen, Nat.lt_irrefl, if_false]
  exact ⟨_, rfl⟩

/-- Of a big-endian number the bytes are read in the other order. -/
theorem readUInt64_of_drop {fs : FileStream} {n : Nat} {v : List UInt8}
    (h : fs.bytes.drop fs.position = bigEndian 8 n ++ v) :
    fs.readUInt64 = .ok (LittleEndian.decode (bigEndian 8 n), ⟨fs.bytes, fs.position + 8⟩) := by
  have hread := readBytes_of_drop h
  rw [length_bigEndian] at hread
  rw [readUInt64, hread]
  simp only [length_bigEndian, Nat.lt_irrefl, if_false]

end FileStream

theorem toUInt_of_lt {n : Nat} (h : n < 2 ^ 32) : toUInt n = n := by
  unfold toUInt
  omega

theorem toUInt_sub {m n : Nat} (hle : n ≤ m) (h : m < 2 ^ 32) : toUInt (m - n) = m - n := by
  unfold toUInt
  omega

theorem toUInt_names {k n : Nat} (hk : k < n) (h : 20 * (n - (k + 1)) < 2 ^ 32) :
    toUInt (20 * ((n : Int) - (k + 1))) = 20 * (n - (k + 1)) := by
  have hcast : 20 * ((n : Int) - (k + 1)) = ((20 * (n - (k + 1)) : Nat) : Int) := by omega
  rw [hcast]
  exact toUInt_of_lt h

theorem toInt_of_lt {n : Int} (h₀ : 0 ≤ n) (h : n < 2 ^ 31) : toInt n = n := by
  rw [toInt, Int.bmod_eq_of_le (by omega) (by omega)]

/-! ## The places of the tables -/

namespace PackIndex

variable (index : PackIndex)

theorem length_fanout : index.fanout.length = 1024 := by
  rw [fanout, length_flatMap_of_width fun i _ => length_bigEndian 4 _, List.length_range]

theorem drop_tables (position : Nat) : index.bytes.drop (1032 + position) =
    index.tables.drop position := by
  have hfront : (header ++ index.fanout).length = 1032 := by
    rw [List.length_append, length_fanout]
    rfl
  rw [bytes, ← List.append_assoc, ← List.drop_drop, ← hfront, List.drop_left]

/-- The entries of the first table. -/
theorem drop_fanout {i : Nat} (hi : i < 256) :
    ∃ u, index.bytes.drop (8 + 4 * i) = bigEndian 4 (index.upTo i) ++ u := by
  have hget : (List.range 256)[i]? = some i := List.getElem?_range hi
  have hheader : header.length = 8 := rfl
  rw [bytes, ← List.drop_drop, ← hheader, List.drop_left]
  exact drop_record_of_width (fun i _ => length_bigEndian 4 _) hget index.tables

theorem upTo_le (i : Nat) : index.upTo i ≤ index.count := List.countP_le_length

theorem upTo_lt (i : Nat) : index.upTo i < 2 ^ 32 :=
  Nat.lt_of_le_of_lt (index.upTo_le i) index.count_lt

/-- The last entry of the first table counts all objects. -/
theorem upTo_last : index.upTo 255 = index.count := by
  refine List.countP_eq_length.mpr fun e _ => decide_eq_true ?_
  have : e.folder < 256 := UInt8.toNat_lt _
  omega

theorem upTo_mono {i j : Nat} (h : i ≤ j) : index.upTo i ≤ index.upTo j := by
  refine List.countP_mono_left fun e _ he => ?_
  exact decide_eq_true (Nat.le_trans (of_decide_eq_true he) h)

/-- The names. -/
theorem drop_name {k : Nat} {e : PackEntry} (h : index.entries[k]? = some e) :
    ∃ u, index.bytes.drop (1032 + 20 * k) = e.name ++ u := by
  rw [drop_tables]
  exact drop_record_of_width (fun e _ => e.name_length) h _

theorem length_names : (index.entries.flatMap PackEntry.name).length = 20 * index.count :=
  length_flatMap_of_width fun e _ => e.name_length

theorem length_crcs : (index.entries.flatMap PackEntry.crc).length = 4 * index.count :=
  length_flatMap_of_width fun e _ => e.crc_length

theorem length_offsets :
    (index.entries.flatMap fun e => bigEndian 4 e.offset).length = 4 * index.count :=
  length_flatMap_of_width fun e _ => length_bigEndian 4 e.offset

/-- The 4-byte table. -/
theorem drop_offset {k : Nat} {e : PackEntry} (h : index.entries[k]? = some e) :
    ∃ u, index.bytes.drop (1032 + (20 * index.count + (4 * index.count + 4 * k))) =
      bigEndian 4 e.offset ++ u := by
  rw [drop_tables, tables, ← index.length_names, List.drop_length_add_append, ← index.length_crcs,
    List.drop_length_add_append]
  exact drop_record_of_width (fun e _ => length_bigEndian 4 e.offset) h _

/-- The 8-byte table. -/
theorem drop_largeOffset {e : PackEntry} (he : e ∈ index.entries) (hlarge : 2 ^ 31 ≤ e.offset) :
    ∃ u, index.bytes.drop (1032 + (20 * index.count + (4 * index.count + (4 * index.count +
      8 * (e.offset - 2 ^ 31))))) = bigEndian 8 (index.largeOffset e) ++ u := by
  have hget : index.largeOffsets[e.offset - 2 ^ 31]? = some (index.largeOffset e) := by
    have hlt := index.large_mem e he hlarge
    rw [largeOffset, List.getD_eq_getElem?_getD, List.getElem?_eq_getElem hlt]
    rfl
  rw [drop_tables, tables, ← index.length_names, List.drop_length_add_append, ← index.length_crcs,
    List.drop_length_add_append, index.length_crcs, ← index.length_offsets,
    List.drop_length_add_append]
  exact drop_record_of_width (fun n _ => length_bigEndian 8 n) hget index.trailer

/-! ## Groups of names -/

theorem folder_mono {a b : PackEntry} (h : a.name < b.name) : a.folder ≤ b.folder := by
  have ha := a.name_length
  have hb := b.name_length
  rw [PackEntry.folder, PackEntry.folder]
  cases hna : a.name with
  | nil => simp [hna] at ha
  | cons x xs =>
      cases hnb : b.name with
      | nil => simp [hnb] at hb
      | cons y ys =>
          rw [hna, hnb, List.cons_lt_cons_iff] at h
          rcases h with hlt | ⟨rfl, -⟩
          · exact Nat.le_of_lt (UInt8.lt_iff_toNat_lt.mp hlt)
          · exact Nat.le_refl _

/-- The objects before a count of the first table are the ones it counts. -/
theorem lt_upTo {k : Nat} {e : PackEntry} (h : index.entries[k]? = some e) (i : Nat) :
    k < index.upTo i ↔ e.folder ≤ i := by
  have hmono : index.entries.Pairwise fun a b =>
      decide (b.folder ≤ i) = true → decide (a.folder ≤ i) = true :=
    index.sorted.imp fun hab hb =>
      decide_eq_true (Nat.le_trans (folder_mono hab) (of_decide_eq_true hb))
  constructor
  · intro hk
    have hmem : e ∈ index.entries.take (index.upTo i) :=
      List.mem_of_getElem? ((List.getElem?_take_of_lt hk).trans h)
    exact of_decide_eq_true (take_countP hmono e hmem)
  · intro hle
    by_contra hk
    have hmem : e ∈ index.entries.drop (index.upTo i) := by
      refine List.mem_of_getElem? (i := k - index.upTo i) ?_
      rw [List.getElem?_drop, Nat.add_sub_cancel' (by omega)]
      exact h
    exact of_decide_eq_false (drop_countP hmono e hmem) hle

/-- Two objects have different names. -/
theorem name_ne {j k : Nat} {a b : PackEntry} (ha : index.entries[j]? = some a)
    (hb : index.entries[k]? = some b) (hne : j ≠ k) : a.name ≠ b.name := by
  obtain ⟨hj, rfl⟩ := List.getElem?_eq_some_iff.mp ha
  obtain ⟨hk, rfl⟩ := List.getElem?_eq_some_iff.mp hb
  intro heq
  rcases Nat.lt_or_gt_of_ne hne with hlt | hlt
  · have h := List.pairwise_iff_getElem.mp index.sorted j k hj hk hlt
    rw [heq] at h
    exact List.lt_irrefl _ h
  · have h := List.pairwise_iff_getElem.mp index.sorted k j hk hj hlt
    rw [heq] at h
    exact List.lt_irrefl _ h

/-! ## The search -/

theorem length_bytes : 1072 + 20 * index.count ≤ index.bytes.length := by
  have hheader : header.length = 8 := rfl
  simp only [bytes, tables, List.length_append, length_fanout, length_names, hheader,
    index.trailer_length]
  omega

/-- Where the name does not stand the search finds nothing. -/
theorem searchLoop_none {sha : CommitSha} {previous total count i : Nat} {fs : FileStream}
    (hroom : fs.position + 20 * count ≤ fs.bytes.length)
    (hnone : ∀ j < count, (fs.bytes.drop (fs.position + 20 * j)).take 20 ≠ sha.bytes) :
    ∃ fs', searchLoop sha.chars previous total count i fs = .ok (none, fs') := by
  induction count generalizing i fs with
  | zero => exact ⟨fs, rfl⟩
  | succ count ih =>
      have hread := FileStream.readBytes_full
        (show fs.position + 20 ≤ fs.bytes.length by omega)
      have hfirst : ¬ equalsIgnoreCase (removeDashes (bitConverterToString
          ((fs.bytes.drop fs.position).take 20))) sha.chars = true := by
        rw [sha.equals_iff]
        exact hnone 0 (Nat.succ_pos count)
      have hroom' : fs.position + 20 + 20 * count ≤ fs.bytes.length := by omega
      rw [searchLoop, hread]
      simp only [hfirst]
      have hnone' : ∀ j < count,
          (fs.bytes.drop (fs.position + 20 + 20 * j)).take 20 ≠ sha.bytes := by
        intro j hj
        have hnext := hnone (j + 1) (Nat.succ_lt_succ hj)
        rwa [Nat.mul_succ, Nat.add_comm (20 * j), ← Nat.add_assoc] at hnext
      exact ih hroom' hnone'

/-- The search finds the name where it stands. -/
theorem searchLoop_found {sha : CommitSha} {previous count i k : Nat} {e : PackEntry}
    (he : index.entries[k]? = some e) (hname : e.name = sha.bytes) (hlow : previous + i ≤ k)
    (hhigh : k < previous + i + count) :
    searchLoop sha.chars previous index.count count i
        ⟨index.bytes, 1032 + 20 * (previous + i)⟩ =
      .ok (some k, ⟨index.bytes, 1032 + 20 * (k + 1) +
        toUInt (20 * ((index.count : Int) - (k + 1)))⟩) := by
  have hk : k < index.count := (List.getElem?_eq_some_iff.mp he).1
  have hcount : index.count < 2 ^ 32 := index.count_lt
  induction count generalizing i with
  | zero => omega
  | succ count ih =>
      obtain ⟨a, ha⟩ : ∃ a, index.entries[previous + i]? = some a :=
        ⟨_, List.getElem?_eq_getElem (Nat.lt_of_le_of_lt hlow hk)⟩
      obtain ⟨u, hdrop⟩ := index.drop_name ha
      have hread : FileStream.readBytes ⟨index.bytes, 1032 + 20 * (previous + i)⟩ a.name.length = _ :=
        FileStream.readBytes_of_drop hdrop
      rw [a.name_length] at hread
      rw [searchLoop, hread]
      by_cases hhere : previous + i = k
      · subst hhere
        obtain rfl : e = a := Option.some.inj (he.symm.trans ha)
        have hequal : equalsIgnoreCase (removeDashes (bitConverterToString e.name)) sha.chars = true :=
          (sha.equals_iff _).mpr hname
        have hindex : toUInt ((previous : Int) + i) = previous + i := by
          unfold toUInt
          omega
        refine (if_pos hequal).trans ?_
        rw [hindex, Nat.mul_succ, ← Nat.add_assoc]
        exact congrArg (fun r => r >>= fun fs => pure (some (previous + i), fs))
          (FileStream.seek_forward _ _ _)
      · have hother : ¬ equalsIgnoreCase (removeDashes (bitConverterToString a.name)) sha.chars =
            true := by
          rw [sha.equals_iff, ← hname]
          exact index.name_ne ha he hhere
        refine (if_neg hother).trans ?_
        exact ih (i := i + 1) (by omega) (by omega)

/-! ## The offset -/

theorem highBit_eq_zero_iff {n : Nat} (h : n < 2 ^ 32) : (n >>> 31) &&& 1 = 0 ↔ n < 2 ^ 31 := by
  rw [Nat.and_one_is_mod, Nat.shiftRight_eq_div_pow]
  omega

theorem clear_highBit {n : Nat} (h : n < 2 ^ 32) (hhigh : 2 ^ 31 ≤ n) :
    n &&& 0x7FFFFFFF = n - 2 ^ 31 := by
  have hmask : (0x7FFFFFFF : Nat) = 2 ^ 31 - 1 := by decide
  rw [hmask, Nat.and_two_pow_sub_one_eq_mod]
  omega

/-- What is read in the 4-byte table. -/
theorem readUInt32_offset {k : Nat} {e : PackEntry} (he : index.entries[k]? = some e) :
    FileStream.readUInt32
        ⟨index.bytes, 1032 + 20 * index.count + 4 * index.count + 4 * k⟩ =
      .ok (e.offset, ⟨index.bytes, 1032 + 20 * index.count + 4 * index.count + 4 * k + 4⟩) := by
  obtain ⟨u, hdrop⟩ := index.drop_offset he
  rw [← Nat.add_assoc, ← Nat.add_assoc] at hdrop
  exact FileStream.readUInt32_of_drop e.offset_lt hdrop

/-- The steps up to the 4-byte table. -/
theorem readOffset_eq {k : Nat} {e : PackEntry} (he : index.entries[k]? = some e)
    (hrange : 4 * index.count < 2 ^ 32) :
    readOffset index.count k ⟨index.bytes, 1032 + 20 * index.count⟩ =
      if e.offset < 2 ^ 31 then .ok (toLong e.offset)
      else (do
        let fs ← FileStream.seek
          ⟨index.bytes, 1032 + 20 * index.count + 4 * index.count + 4 * k + 4⟩
          (toUInt (4 * ((index.count : Int) - (k + 1))))
        let fs ← fs.seek (toUInt (8 * ((e.offset - 2 ^ 31 : Nat) : Int)))
        let (packOffset, _) ← fs.readUInt64
        pure (toLong packOffset)) := by
  have hk : k < index.count := (List.getElem?_eq_some_iff.mp he).1
  have hcrcs : toUInt (4 * (index.count : Int)) = 4 * index.count :=
    toUInt_of_lt (n := 4 * index.count) hrange
  have hbefore : toUInt (4 * (k : Int)) = 4 * k := toUInt_of_lt (n := 4 * k) (by omega)
  rw [readOffset, hcrcs, hbefore, FileStream.seek_forward, ok_bind, FileStream.seek_forward, ok_bind,
    index.readUInt32_offset he, ok_bind]
  change (if (e.offset >>> 31) &&& 1 = 0 then _ else _) = _
  by_cases hlow : e.offset < 2 ^ 31
  · rw [if_pos ((highBit_eq_zero_iff e.offset_lt).mpr hlow), if_pos hlow]
    rfl
  · rw [if_neg fun h => hlow ((highBit_eq_zero_iff e.offset_lt).mp h), if_neg hlow,
      clear_highBit e.offset_lt (Nat.le_of_not_lt hlow)]

theorem toLong_of_lt {n : Nat} (h : n < 2 ^ 63) : toLong n = n := by
  rw [toLong, Int.bmod_eq_of_le (by omega) (by omega)]

/-- The offset of an object in the 4-byte table. -/
theorem readOffset_small {k : Nat} {e : PackEntry} (he : index.entries[k]? = some e)
    (hrange : 4 * index.count < 2 ^ 32) (hlow : e.offset < 2 ^ 31) :
    readOffset index.count k ⟨index.bytes, 1032 + 20 * index.count⟩ = .ok (index.offsetOf e) := by
  rw [index.readOffset_eq he hrange, if_pos hlow, offsetOf, if_pos hlow,
    toLong_of_lt (Nat.lt_trans hlow (by decide))]

/-- The offset of an object in the 8-byte table, read the wrong way round. -/
theorem readOffset_large {k : Nat} {e : PackEntry} (he : index.entries[k]? = some e)
    (hrange : 4 * index.count < 2 ^ 32) (hhigh : 2 ^ 31 ≤ e.offset)
    (hlarge : 8 * (e.offset - 2 ^ 31) < 2 ^ 32) :
    readOffset index.count k ⟨index.bytes, 1032 + 20 * index.count⟩ =
      .ok (toLong (LittleEndian.decode (bigEndian 8 (index.largeOffset e)))) := by
  have hk : k < index.count := (List.getElem?_eq_some_iff.mp he).1
  have hrest : toUInt (4 * ((index.count : Int) - (k + 1))) = 4 * (index.count - (k + 1)) := by
    unfold toUInt
    omega
  have hentry : toUInt (8 * ((e.offset - 2 ^ 31 : Nat) : Int)) = 8 * (e.offset - 2 ^ 31) := by
    unfold toUInt
    omega
  obtain ⟨u, hdrop⟩ := index.drop_largeOffset (List.mem_of_getElem? he) hhigh
  have hplace : 1032 + (20 * index.count + (4 * index.count + (4 * index.count +
      8 * (e.offset - 2 ^ 31)))) = 1032 + 20 * index.count + 4 * index.count + 4 * k + 4 +
        4 * (index.count - (k + 1)) + 8 * (e.offset - 2 ^ 31) := by
    omega
  rw [hplace] at hdrop
  have hread : FileStream.readUInt64 ⟨index.bytes, _⟩ = _ := FileStream.readUInt64_of_drop hdrop
  rw [index.readOffset_eq he hrange, if_neg (Nat.not_lt.mpr hhigh), hrest, hentry,
    FileStream.seek_forward, ok_bind, FileStream.seek_forward, ok_bind, hread]
  rfl

/-- Read the wrong way round, an entry is right exactly if it is the same both ways. -/
theorem toLong_decode_eq_iff {n : Nat} (h : n < 2 ^ 63) :
    toLong (LittleEndian.decode (bigEndian 8 n)) = n ↔
      (bigEndian 8 n).reverse = bigEndian 8 n := by
  have hlt : LittleEndian.decode (bigEndian 8 n) < 2 ^ 64 := by
    have h' := LittleEndian.decode_lt (bigEndian 8 n)
    rwa [length_bigEndian] at h'
  have hvalue : LittleEndian.decode (bigEndian 8 n).reverse = n := by
    rw [bigEndian, List.reverse_reverse]
    exact LittleEndian.decode_encode_of_lt (Nat.lt_trans h (by decide))
  have hlong : toLong (LittleEndian.decode (bigEndian 8 n)) = n ↔
      LittleEndian.decode (bigEndian 8 n) = n := by
    rw [toLong, Int.bmod_def]
    split
    · omega
    · omega
  rw [hlong]
  constructor
  · intro heq
    have hback := LittleEndian.encode_decode (bigEndian 8 n)
    have hback' := LittleEndian.encode_decode (bigEndian 8 n).reverse
    rw [List.length_reverse, hvalue] at hback'
    rw [heq] at hback
    exact hback'.symm.trans hback
  · intro heq
    rw [← heq]
    exact hvalue

/-! ## The lookup -/

theorem lookup_eq_some {k : Nat} {e : PackEntry} (he : index.entries[k]? = some e) :
    index.lookup e.name = some (index.offsetOf e) := by
  have hfind : index.entries.find? (fun a => a.name = e.name) = some e := by
    have hsome : (index.entries.find? fun a => a.name = e.name).isSome :=
      List.find?_isSome.mpr ⟨e, List.mem_of_getElem? he, decide_eq_true rfl⟩
    obtain ⟨a, ha⟩ := Option.isSome_iff_exists.mp hsome
    have hname : a.name = e.name := by simpa using List.find?_some ha
    obtain ⟨j, hj⟩ := List.getElem?_of_mem (List.mem_of_find?_eq_some ha)
    by_cases hjk : j = k
    · subst hjk
      rw [ha, ← hj, he]
    · exact absurd hname (index.name_ne hj he hjk)
  rw [lookup, hfind]
  rfl

theorem lookup_eq_none {name : List UInt8} (h : ∀ e ∈ index.entries, e.name ≠ name) :
    index.lookup name = none := by
  rw [lookup, List.find?_eq_none.mpr fun e he => by simpa using h e he]
  rfl

/-- The lookup is the body of the `try`, with the folder of the id. -/
theorem tryGetPackageOffset_eq (idxFilePath : String) (sha : CommitSha) :
    tryGetPackageOffset idxFilePath index.bytes sha.chars =
      match readPackageOffset index.bytes sha.chars sha.folder with
      | .error _ => .ok none
      | .ok offset => .ok (offset.map fun offset => ⟨idxFilePath, offset⟩) := by
  have hparse := sha.parseHexNumber_take
  have hlen : ¬ sha.chars.length < 2 := by
    rw [sha.length]
    decide
  unfold tryGetPackageOffset
  generalize parseHexNumber (sha.chars.take 2) = parsed at hparse ⊢
  subst hparse
  exact if_neg hlen

/-- What is read of the first table. -/
theorem readUInt32_fanout {i : Nat} (hi : i < 256) :
    FileStream.readUInt32 ⟨index.bytes, 8 + 4 * i⟩ =
      .ok (index.upTo i, ⟨index.bytes, 8 + 4 * i + 4⟩) := by
  obtain ⟨u, hdrop⟩ := index.drop_fanout hi
  exact FileStream.readUInt32_of_drop (index.upTo_lt i) hdrop

/-- Up to the last entry of the first table. -/
theorem readPackageOffset_eq (sha : CommitSha) {folder previous : Nat}
    (hprevious : (if folder > 0 then (folder : Int) - 1 else folder) = previous)
    (hlt : previous + 1 < 256) (hrange : 20 * index.upTo previous < 2 ^ 31) :
    readPackageOffset index.bytes sha.chars folder = (do
      let fs ← FileStream.seek ⟨index.bytes, 8 + 4 * previous + 4 + 4⟩
        ((255 - ((folder : Int) + 1)) * 4)
      let (total, fs) ← fs.readUInt32
      let fs ← fs.seek ((20 * index.upTo previous : Nat) : Int)
      let found ← searchLoop sha.chars (index.upTo previous) total
        (index.upTo (previous + 1) - index.upTo previous) 0 fs
      readFound total found) := by
  have hmono := index.upTo_mono (Nat.le_add_right previous 1)
  have hbound := index.upTo_lt (previous + 1)
  have hseek : FileStream.seek ⟨index.bytes, 8⟩ ((previous : Int) * 4) =
      .ok ⟨index.bytes, 8 + 4 * previous⟩ :=
    FileStream.seek_eq (by change ((8 : Nat) : Int) + _ = _; omega)
  have hgroup : toUInt ((index.upTo (previous + 1) : Int) - index.upTo previous) =
      index.upTo (previous + 1) - index.upTo previous := toUInt_sub hmono hbound
  have hnames : toInt (20 * toInt (index.upTo previous)) = ((20 * index.upTo previous : Nat) : Int) := by
    have hinner : toInt (index.upTo previous) = index.upTo previous :=
      toInt_of_lt (by omega) (by omega)
    rw [hinner, toInt_of_lt (by omega) (by omega)]
    rfl
  rw [readPackageOffset]
  simp only [hprevious]
  have hsecond := index.readUInt32_fanout hlt
  rw [Nat.mul_succ, ← Nat.add_assoc] at hsecond
  rw [if_pos (by omega), hseek, ok_bind, index.readUInt32_fanout (by omega), ok_bind]
  dsimp only
  rw [hsecond, ok_bind]
  dsimp only
  rw [hnames, hgroup]

/-- Up to the names, for a first byte other than 0. -/
theorem readPackageOffset_of_pos (sha : CommitSha) (hpos : sha.folder ≠ 0)
    (hrange : 20 * index.upTo (sha.folder - 1) < 2 ^ 31) :
    readPackageOffset index.bytes sha.chars sha.folder = (do
      let found ← searchLoop sha.chars (index.upTo (sha.folder - 1)) index.count
        (index.upTo sha.folder - index.upTo (sha.folder - 1)) 0
        ⟨index.bytes, 1032 + 20 * index.upTo (sha.folder - 1)⟩
      readFound index.count found) := by
  have hlt := sha.folder_lt
  obtain ⟨f, hf⟩ := Nat.exists_eq_succ_of_ne_zero hpos
  rw [hf, Nat.succ_eq_add_one, Nat.add_sub_cancel] at hrange ⊢
  have hprevious : (if f + 1 > 0 then ((f + 1 : Nat) : Int) - 1 else ((f + 1 : Nat) : Int)) = f := by
    rw [if_pos (Nat.succ_pos f)]
    omega
  have hlast : FileStream.seek ⟨index.bytes, 8 + 4 * f + 4 + 4⟩
      ((255 - (((f + 1 : Nat) : Int) + 1)) * 4) = .ok ⟨index.bytes, 8 + 4 * 255⟩ :=
    FileStream.seek_eq (by change ((8 + 4 * f + 4 + 4 : Nat) : Int) + _ = _; omega)
  have hend : FileStream.readUInt32 ⟨index.bytes, 8 + 4 * 255⟩ =
      .ok (index.count, ⟨index.bytes, 1032⟩) := by
    rw [index.readUInt32_fanout (by decide), upTo_last]
  rw [index.readPackageOffset_eq sha hprevious (by omega) hrange, hlast, ok_bind, hend, ok_bind]
  exact congrArg (fun r => r >>= fun fs => searchLoop sha.chars (index.upTo f) index.count
      (index.upTo (f + 1) - index.upTo f) 0 fs >>= readFound index.count)
    (FileStream.seek_forward _ _ _)

/-- Up to the names, for the first byte 0: the group is the next one, the number of objects is taken
from the first name, and the names are taken to start behind that. -/
theorem readPackageOffset_of_zero (sha : CommitSha) (hzero : sha.folder = 0)
    (hrange : 20 * index.upTo 0 < 2 ^ 31) :
    ∃ total, readPackageOffset index.bytes sha.chars sha.folder = (do
      let found ← searchLoop sha.chars (index.upTo 0) total (index.upTo 1 - index.upTo 0) 0
        ⟨index.bytes, 1036 + 20 * index.upTo 0⟩
      readFound total found) := by
  have hlength := index.length_bytes
  obtain ⟨total, htotal⟩ := FileStream.readUInt32_of_le
    (show 1032 + 4 ≤ index.bytes.length by omega)
  have hlast : FileStream.seek ⟨index.bytes, 8 + 4 * 0 + 4 + 4⟩
      ((255 - (((0 : Nat) : Int) + 1)) * 4) = .ok ⟨index.bytes, 1032⟩ :=
    FileStream.seek_eq rfl
  refine ⟨total, ?_⟩
  rw [hzero, index.readPackageOffset_eq sha rfl (by decide) hrange, hlast, ok_bind, htotal, ok_bind]
  exact congrArg (fun r => r >>= fun fs => searchLoop sha.chars (index.upTo 0) total
      (index.upTo 1 - index.upTo 0) 0 fs >>= readFound total)
    (FileStream.seek_forward _ _ _)

/-- For a first byte other than 0 the search ends at the object with the name. -/
theorem search_of_pos {sha : CommitSha} {k : Nat} {e : PackEntry}
    (he : index.entries[k]? = some e) (hname : e.name = sha.bytes) (hpos : sha.folder ≠ 0)
    (hrange : index.InRange sha) :
    readPackageOffset index.bytes sha.chars sha.folder =
      (readOffset index.count k ⟨index.bytes, 1032 + 20 * index.count⟩).map some := by
  have hfolder : e.folder = sha.folder := by rw [PackEntry.folder, hname, CommitSha.folder]
  have hlow : ¬ k < index.upTo (sha.folder - 1) := by
    rw [index.lt_upTo he, hfolder]
    omega
  have hlow' : index.upTo (sha.folder - 1) + 0 ≤ k := Nat.le_of_not_lt hlow
  have hhigh : k < index.upTo sha.folder := by
    rw [index.lt_upTo he, hfolder]
  have hk : k < index.count := (List.getElem?_eq_some_iff.mp he).1
  have hskip := toUInt_names hk (hrange.entry k e he hname).1
  have hplace : 1032 + 20 * (k + 1) + 20 * (index.count - (k + 1)) = 1032 + 20 * index.count := by
    omega
  have hhigh' : k < index.upTo (sha.folder - 1) + 0 +
      (index.upTo sha.folder - index.upTo (sha.folder - 1)) := by
    omega
  have hfound := index.searchLoop_found he hname hlow' hhigh'
  rw [hskip, hplace, Nat.add_zero] at hfound
  rw [index.readPackageOffset_of_pos sha hpos hrange.names, hfound, ok_bind, readFound]
  cases readOffset index.count k ⟨index.bytes, 1032 + 20 * index.count⟩ with
  | error _ => rfl
  | ok _ => rfl

/-- For a first byte other than 0, a name that is not listed is not found. -/
theorem search_of_not_listed {sha : CommitSha} (hnone : ∀ e ∈ index.entries, e.name ≠ sha.bytes)
    (hpos : sha.folder ≠ 0) (hrange : index.InRange sha) :
    readPackageOffset index.bytes sha.chars sha.folder = .ok none := by
  have hlength := index.length_bytes
  have hle := index.upTo_le sha.folder
  have hmono := index.upTo_mono (Nat.sub_le sha.folder 1)
  have hnames : ∀ j < index.upTo sha.folder - index.upTo (sha.folder - 1),
      (index.bytes.drop (1032 + 20 * index.upTo (sha.folder - 1) + 20 * j)).take 20 ≠ sha.bytes := by
    intro j hj
    have hget := List.getElem?_eq_getElem
      (show index.upTo (sha.folder - 1) + j < index.entries.length by
        unfold count at hle
        omega)
    obtain ⟨u, hdrop⟩ := index.drop_name hget
    rw [Nat.mul_add, ← Nat.add_assoc] at hdrop
    rw [hdrop, List.take_left' (PackEntry.name_length _)]
    exact hnone _ (List.getElem_mem _)
  have hroom : 1032 + 20 * index.upTo (sha.folder - 1) +
      20 * (index.upTo sha.folder - index.upTo (sha.folder - 1)) ≤ index.bytes.length := by
    omega
  obtain ⟨fs, hsearch⟩ : ∃ fs, searchLoop sha.chars (index.upTo (sha.folder - 1)) index.count
      (index.upTo sha.folder - index.upTo (sha.folder - 1)) 0
      ⟨index.bytes, 1032 + 20 * index.upTo (sha.folder - 1)⟩ = .ok (none, fs) :=
    searchLoop_none hroom hnames
  rw [index.readPackageOffset_of_pos sha hpos hrange.names, hsearch, ok_bind, readFound]

/-- For the first byte 0 nothing is found, unless by accident. -/
theorem search_of_zero {sha : CommitSha} (hzero : sha.folder = 0) (hno : index.NoAccident sha) :
    readPackageOffset index.bytes sha.chars sha.folder = .ok none := by
  have hlength := index.length_bytes
  have hle := index.upTo_le 1
  have hmono := index.upTo_mono (Nat.zero_le 1)
  have hplaces : ∀ j < index.upTo 1 - index.upTo 0,
      (index.bytes.drop (1036 + 20 * index.upTo 0 + 20 * j)).take 20 ≠ sha.bytes := by
    intro j hj
    have h := hno.shifted (index.upTo 0 + j) (Nat.le_add_right _ _) (by omega)
    rwa [Nat.mul_add, ← Nat.add_assoc] at h
  have hroom : 1036 + 20 * index.upTo 0 + 20 * (index.upTo 1 - index.upTo 0) ≤
      index.bytes.length := by
    omega
  obtain ⟨total, hread⟩ := index.readPackageOffset_of_zero sha hzero hno.names
  obtain ⟨fs, hsearch⟩ : ∃ fs, searchLoop sha.chars (index.upTo 0) total
      (index.upTo 1 - index.upTo 0) 0 ⟨index.bytes, 1036 + 20 * index.upTo 0⟩ = .ok (none, fs) :=
    searchLoop_none hroom hplaces
  rw [hread, hsearch, ok_bind, readFound]

/-- What the lookup is to return for an object. -/
theorem finds_iff_of_entry (idxFilePath : String) {sha : CommitSha} {k : Nat} {e : PackEntry}
    (he : index.entries[k]? = some e) (hname : e.name = sha.bytes) :
    index.Finds idxFilePath sha ↔
      readPackageOffset index.bytes sha.chars sha.folder =
        .ok (some (index.offsetOf e : Int)) := by
  rw [Finds, tryGetPackageOffset_eq, ← hname, index.lookup_eq_some he]
  cases readPackageOffset index.bytes sha.chars sha.folder with
  | error _ => simp
  | ok offset =>
      cases offset with
      | none => simp
      | some offset => simp

/-- What the lookup is to return for a name that is not listed. -/
theorem finds_of_not_listed (idxFilePath : String) {sha : CommitSha}
    (hnone : ∀ e ∈ index.entries, e.name ≠ sha.bytes)
    (hread : readPackageOffset index.bytes sha.chars sha.folder = .ok none) :
    index.Finds idxFilePath sha := by
  rw [Finds, tryGetPackageOffset_eq, index.lookup_eq_none hnone, hread]
  rfl

theorem offsetOf_lt {e : PackEntry} (he : e ∈ index.entries) : index.offsetOf e < 2 ^ 63 := by
  rw [offsetOf]
  split
  · omega
  · next hlow =>
      have hlt := index.large_mem e he (Nat.le_of_not_lt hlow)
      rw [largeOffset, List.getD_eq_getElem?_getD, List.getElem?_eq_getElem hlt]
      exact index.large_lt _ (List.getElem_mem hlt)

/-- For the first byte 0 a listed name is not found. -/
theorem finds_iff_of_zero (idxFilePath : String) {sha : CommitSha} (hzero : sha.folder = 0)
    (hno : index.NoAccident sha) :
    index.Finds idxFilePath sha ↔ ∀ e ∈ index.entries, e.name ≠ sha.bytes := by
  have hread := index.search_of_zero hzero hno
  constructor
  · intro hfinds e he hname
    obtain ⟨k, hk⟩ := List.getElem?_of_mem he
    rw [index.finds_iff_of_entry idxFilePath hk hname, hread] at hfinds
    cases hfinds
  · intro hnone
    exact index.finds_of_not_listed idxFilePath hnone hread

/-- For another first byte a listed name is found, with its offset if that is read the right way
round. -/
theorem finds_iff_of_pos (idxFilePath : String) {sha : CommitSha} (hpos : sha.folder ≠ 0)
    (hrange : index.InRange sha) {k : Nat} {e : PackEntry} (he : index.entries[k]? = some e)
    (hname : e.name = sha.bytes) :
    index.Finds idxFilePath sha ↔ (2 ^ 31 ≤ e.offset →
      (bigEndian 8 (index.largeOffset e)).reverse = bigEndian 8 (index.largeOffset e)) := by
  obtain ⟨-, hcount, hlarge⟩ := hrange.entry k e he hname
  rw [index.finds_iff_of_entry idxFilePath he hname, index.search_of_pos he hname hpos hrange]
  by_cases hlow : e.offset < 2 ^ 31
  · rw [index.readOffset_small he hcount hlow]
    exact ⟨fun _ hhigh => absurd hlow (Nat.not_lt.mpr hhigh), fun _ => rfl⟩
  · have hhigh := Nat.le_of_not_lt hlow
    have hlt := index.offsetOf_lt (List.mem_of_getElem? he)
    rw [index.readOffset_large he hcount hhigh (hlarge hhigh)]
    rw [offsetOf, if_neg hlow] at hlt ⊢
    rw [← toLong_decode_eq_iff hlt]
    constructor
    · intro heq _
      exact Option.some.inj (Except.ok.inj heq)
    · intro heq
      rw [heq hhigh]
      rfl

/-- **The lookup** returns what the index assigns, where what it reads is determined by the tables,
exactly if the name is not listed, or does not start with 0 and has an offset that is in the 4-byte
table or reads the same both ways. -/
theorem finds_iff (idxFilePath : String) (sha : CommitSha) :
    (index.Readable sha ∧ index.Served sha → index.Finds idxFilePath sha) ∧
      (index.Readable sha → index.Finds idxFilePath sha → index.Served sha) := by
  suffices h : index.Readable sha → (index.Finds idxFilePath sha ↔ index.Served sha) from
    ⟨fun hboth => (h hboth.1).mpr hboth.2, fun hread hfinds => (h hread).mp hfinds⟩
  intro hread
  rw [Readable] at hread
  by_cases hzero : sha.folder = 0
  · rw [if_pos hzero] at hread
    rw [index.finds_iff_of_zero idxFilePath hzero hread]
    constructor
    · intro hnone e he hname
      exact absurd hname (hnone e he)
    · intro hserved e he hname
      exact (hserved e he hname).1 hzero
  · rw [if_neg hzero] at hread
    by_cases hlisted : ∃ e ∈ index.entries, e.name = sha.bytes
    · obtain ⟨e, he, hname⟩ := hlisted
      obtain ⟨k, hk⟩ := List.getElem?_of_mem he
      rw [index.finds_iff_of_pos idxFilePath hzero hread hk hname]
      constructor
      · intro hright a ha hname'
        obtain ⟨j, hj⟩ := List.getElem?_of_mem ha
        have hjk : j = k := by
          by_contra hne
          exact index.name_ne hj hk hne (hname'.trans hname.symm)
        subst hjk
        obtain rfl : a = e := Option.some.inj (hj.symm.trans hk)
        exact ⟨hzero, hright⟩
      · intro hserved
        exact (hserved e he hname).2
    · have hnone : ∀ e ∈ index.entries, e.name ≠ sha.bytes :=
        fun e he hname => hlisted ⟨e, he, hname⟩
      refine ⟨fun _ e he hname => absurd hname (hnone e he), fun _ => ?_⟩
      exact index.finds_of_not_listed idxFilePath hnone
        (index.search_of_not_listed hnone hzero hread)

/-- The index of a pack with one object, at offset 12. -/
def single (b : UInt8) : PackIndex where
  entries := [{
    name := b :: List.replicate 19 0
    name_length := rfl
    crc := [0, 0, 0, 0]
    crc_length := rfl
    offset := 12
    offset_lt := by decide }]
  sorted := List.pairwise_singleton _ _
  count_lt := Nat.one_lt_two_pow (by decide)
  largeOffsets := []
  large_lt := fun n hn => absurd hn List.not_mem_nil
  large_mem := fun e he hlarge => by
    rw [List.mem_singleton.mp he] at hlarge
    change 2 ^ 31 ≤ 12 at hlarge
    omega
  trailer := List.replicate 40 0
  trailer_length := rfl

/-- The commit `0d00…00`. -/
def singleSha (d : Char) (hd : d ∈ hexChars) : CommitSha where
  chars := '0' :: d :: List.replicate 38 '0'
  length := rfl
  hex := by
    rw [List.forall_mem_cons, List.forall_mem_cons]
    exact ⟨by decide, hd, fun c hc => by rw [List.eq_of_mem_replicate hc]; decide⟩

theorem finds_iff_single :
    tryGetPackageOffset "pack.idx" (single 1).bytes (singleSha '1' (by decide)).chars =
      .ok (some ⟨"pack.idx", 12⟩) := by
  have hrange : (single 1).InRange (singleSha '1' (by decide)) :=
    { names := by decide
      entry := fun k e he _ => by
        obtain ⟨hk, rfl⟩ := List.getElem?_eq_some_iff.mp he
        obtain rfl : k = 0 := Nat.lt_one_iff.mp hk
        change 20 * (1 - (0 + 1)) < 2 ^ 32 ∧ 4 * 1 < 2 ^ 32 ∧
          (2 ^ 31 ≤ 12 → 8 * (12 - 2 ^ 31) < 2 ^ 32)
        decide }
  have hreadable : (single 1).Readable (singleSha '1' (by decide)) := by
    rw [Readable, if_neg (by decide)]
    exact hrange
  have hserved : (single 1).Served (singleSha '1' (by decide)) := by
    intro e he _
    rw [List.mem_singleton.mp he]
    exact ⟨by decide, fun hhigh => absurd hhigh (by decide)⟩
  exact ((single 1).finds_iff "pack.idx" _).1 ⟨hreadable, hserved⟩

/-- The only object of a pack is not found if its name starts with 0. -/
theorem not_finds_zero :
    ¬ ∀ (index : PackIndex) (idxFilePath : String) (sha : CommitSha),
      index.Finds idxFilePath sha := by
  intro hall
  have hno : (single 0).NoAccident (singleSha '0' (by decide)) :=
    { names := by decide
      shifted := fun j hlow hhigh => by
        have hgroup : (single 0).upTo 1 = (single 0).upTo 0 := by decide
        omega }
  have hfinds := hall (single 0) "pack.idx" (singleSha '0' (by decide))
  rw [(single 0).finds_iff_of_zero "pack.idx" (by decide) hno] at hfinds
  exact hfinds _ List.mem_cons_self (by decide)

end PackIndex

end DdTrace.Ci
