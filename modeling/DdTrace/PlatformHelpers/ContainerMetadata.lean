import DdTrace.Lib.FiniteChecks
import DdTrace.Lib.RegexLanguage
import DdTrace.Lib.Texts

/-!
# The id of the container

* `containerIdRegex`, `parseCgroupLines`: the code.
* `Shape`, `IsIdOf`: the ids, and what they are surrounded by in the last segment of a path.
* `parseCgroupLine_text`: what the expression captures of a line.
* `parseCgroupLines_right_iff`: the lines for which the id is the right one.

Source: `PlatformHelpers/ContainerMetadata.cs`
-/

namespace DdTrace.PlatformHelpers

open DdTrace.Lib DdTrace.Lib.Regex

/-! ## The code -/

/-- `[0-9a-f]`. -/
def hexDigit (c : Char) : Bool := ('0' ≤ c && c ≤ '9') || ('a' ≤ c && c ≤ 'f')

/-- `[-_]`. -/
def dash (c : Char) : Bool := c == '-' || c == '_'

/-- `[0-9a-f]{n}`. -/
def hexDigits (n : Nat) : Regex := times n (one hexDigit)

/-- Source: `ContainerMetadata.cs`, `ContainerRegex` -/
def containerRegex : Regex := hexDigits 64

/-- Source: `ContainerMetadata.cs`, `UuidRegex` -/
def uuidRegex : Regex :=
  seq (hexDigits 8) <| seq (one dash) <| seq (hexDigits 4) <| seq (one dash) <|
    seq (hexDigits 4) <| seq (one dash) <| seq (hexDigits 4) <| seq (one dash) (hexDigits 12)

/-- Source: `ContainerMetadata.cs`, `TaskRegex` -/
def taskRegex : Regex := seq (hexDigits 32) (seq (literal ['-']) (plus Texts.isDecimalDigit))

/-- What stands in front of the group: the number and the controllers, and a path up to a slash. -/
def pathRegex : Regex :=
  seq (plus Texts.isDecimalDigit) <| seq (literal [':']) <| seq (many (· ≠ ':')) <|
    seq (literal [':']) <| seq (optional (literal ['/'])) <|
      seq (plus (· ≠ '\n')) (literal ['/'])

/-- The alternatives of the group. `(?:\.scope)?` belongs to the last one of them. -/
def idRegex : Regex :=
  alt uuidRegex (alt containerRegex (seq taskRegex (optional (literal ".scope".toList))))

/-- Source: `ContainerMetadata.cs`, `ContainerIdRegex` -/
def containerIdRegex : Regex := captured pathRegex 1 idRegex

/-- Source: `ContainerMetadata.cs`, `ParseCgroupLine` -/
def parseCgroupLine (line : String) : Option String :=
  (containerIdRegex.find line.toList).map fun lineMatch => String.ofList (lineMatch.value 1)

/-- Source: `ContainerMetadata.cs`, `ParseCgroupLines` -/
def parseCgroupLines (lines : List String) : Option String :=
  ((lines.map parseCgroupLine).find? fun id => !Texts.isNullOrWhiteSpace id).getD none

/-! ## The lines, and their ids -/

/-- A line of a cgroup file. -/
structure CgroupLine where
  /-- The number of the hierarchy. -/
  number : Nat
  /-- The controllers. -/
  controllers : List Char
  /-- The path without its last segment. -/
  directory : List Char
  /-- The last segment of the path. -/
  name : List Char
  controllers_colon : ':' ∉ controllers
  controllers_line : '\n' ∉ controllers
  directory_rooted : ∀ c ∈ directory.head?, c = '/'
  directory_line : '\n' ∉ directory
  name_slash : '/' ∉ name
  name_line : '\n' ∉ name

namespace CgroupLine

/-- The line, up to the last slash of it. -/
def head (l : CgroupLine) : List Char :=
  Nat.toDigits 10 l.number ++ ':' :: (l.controllers ++ ':' :: l.directory)

/-- The characters of the line. -/
def chars (l : CgroupLine) : List Char := l.head ++ '/' :: l.name

/-- The text of the line. -/
def text (l : CgroupLine) : String := String.ofList l.chars

end CgroupLine

/-- So many hexadecimal digits. -/
def Hex (n : Nat) (s : List Char) : Prop := s.length = n ∧ ∀ c ∈ s, hexDigit c = true

instance (n : Nat) (s : List Char) : Decidable (Hex n s) := inferInstanceAs (Decidable (_ ∧ _))

/-- A number behind the digits of a task. -/
def TaskNumber (s : List Char) : Prop := s ≠ [] ∧ ∀ c ∈ s, Texts.isDecimalDigit c = true

instance (s : List Char) : Decidable (TaskNumber s) := inferInstanceAs (Decidable (_ ∧ _))

/-- The ids of containers. -/
inductive Shape : List Char → Prop
  /-- Dashed or underscored. -/
  | uuid {a b c d e : List Char} {s₁ s₂ s₃ s₄ : Char} : Hex 8 a → dash s₁ = true → Hex 4 b →
      dash s₂ = true → Hex 4 c → dash s₃ = true → Hex 4 d → dash s₄ = true → Hex 12 e →
      Shape (a ++ s₁ :: (b ++ s₂ :: (c ++ s₃ :: (d ++ s₄ :: e))))
  /-- `[0-9a-f]{64}`. -/
  | container {s : List Char} : Hex 64 s → Shape s
  /-- Digits, a dash and a number. -/
  | task {s number : List Char} : Hex 32 s → TaskNumber number → Shape (s ++ '-' :: number)

/-- What may stand in front of an id: the name of a runtime and a dash. -/
def RuntimePrefix (s : List Char) : Prop := s = [] ∨ ∃ runtime, runtime ≠ [] ∧ s = runtime ++ ['-']

/-- What may stand behind an id. -/
def ScopeSuffix (s : List Char) : Prop := s = [] ∨ s = ".scope".toList

/-- The id of the container that the segment of a path is named after. -/
def IsIdOf (id name : List Char) : Prop :=
  Shape id ∧ ∃ before after, RuntimePrefix before ∧ ScopeSuffix after ∧
    name = before ++ (id ++ after)

/-- The line has an id. -/
def CgroupLine.HasId (l : CgroupLine) : Prop := ∃ id, IsIdOf id l.name

/-- The first of some lines that has a property. -/
def FirstWith (P : CgroupLine → Prop) (lines : List CgroupLine) (l : CgroupLine) : Prop :=
  ∃ earlier later, lines = earlier ++ l :: later ∧ P l ∧ ∀ e ∈ earlier, ¬P e

/-- The result is an id of the first line that has one, or null when there is no such line. -/
def Right (lines : List CgroupLine) : Option String → Prop
  | none => ∀ l ∈ lines, ¬l.HasId
  | some id => ∃ l, FirstWith CgroupLine.HasId lines l ∧ IsIdOf id.toList l.name

/-- The digits of a task and a number, with `.scope` behind them. -/
def ScopedTask (name : List Char) : Prop :=
  ∃ s number, Hex 32 s ∧ TaskNumber number ∧ name = s ++ '-' :: (number ++ ".scope".toList)

/-- The last segment, which is not the only one, is an id with nothing around it, or it is a task
with `.scope` behind it. -/
structure CgroupLine.Bare (l : CgroupLine) : Prop where
  nested : l.directory ≠ []
  name : Shape l.name ∨ ScopedTask l.name

/-! ## What the expression reads -/

theorem plain_hexDigits (n : Nat) : (hexDigits n).Plain :=
  plain_times (show (one hexDigit).Plain from trivial) n

theorem reads_hexDigits {n : Nat} {s : List Char} : (hexDigits n).Reads s ↔ Hex n s :=
  reads_times_one

theorem reads_one_seq {p : Char → Bool} {r : Regex} {s : List Char} :
    (seq (one p) r).Reads s ↔ ∃ c v, s = c :: v ∧ p c = true ∧ r.Reads v := by
  constructor
  · rintro ⟨_, v, rfl, ⟨c, hc, rfl⟩, hv⟩
    exact ⟨c, v, rfl, hc, hv⟩
  · rintro ⟨c, v, rfl, hc, hv⟩
    exact ⟨[c], v, rfl, ⟨c, hc, rfl⟩, hv⟩

theorem reads_char_seq {c : Char} {r : Regex} {s : List Char} :
    (seq (literal [c]) r).Reads s ↔ ∃ v, s = c :: v ∧ r.Reads v := by
  constructor
  · rintro ⟨_, v, rfl, rfl, hv⟩
    exact ⟨v, rfl, hv⟩
  · rintro ⟨v, rfl, hv⟩
    exact ⟨[c], v, rfl, rfl, hv⟩

theorem reads_taskRegex {s : List Char} :
    taskRegex.Reads s ↔ ∃ digits number, s = digits ++ '-' :: number ∧ Hex 32 digits ∧
      TaskNumber number := by
  constructor
  · rintro ⟨digits, v, rfl, hdigits, hv⟩
    obtain ⟨number, rfl, hnumber⟩ := reads_char_seq.mp hv
    exact ⟨digits, number, rfl, reads_hexDigits.mp hdigits, reads_plus.mp hnumber⟩
  · rintro ⟨digits, number, rfl, hdigits, hnumber⟩
    exact ⟨digits, _, rfl, reads_hexDigits.mpr hdigits,
      reads_char_seq.mpr ⟨number, rfl, reads_plus.mpr hnumber⟩⟩

theorem reads_uuidRegex {s : List Char} :
    uuidRegex.Reads s ↔ ∃ a s₁ b s₂ c s₃ d s₄ e,
      s = a ++ s₁ :: (b ++ s₂ :: (c ++ s₃ :: (d ++ s₄ :: e))) ∧ Hex 8 a ∧ dash s₁ = true ∧
        Hex 4 b ∧ dash s₂ = true ∧ Hex 4 c ∧ dash s₃ = true ∧ Hex 4 d ∧ dash s₄ = true ∧
          Hex 12 e := by
  constructor
  · rintro ⟨a, v, rfl, ha, hv⟩
    obtain ⟨s₁, v, rfl, h₁, b, w, rfl, hb, hw⟩ := reads_one_seq.mp hv
    obtain ⟨s₂, v, rfl, h₂, c, w, rfl, hc, hw⟩ := reads_one_seq.mp hw
    obtain ⟨s₃, v, rfl, h₃, d, w, rfl, hd, hw⟩ := reads_one_seq.mp hw
    obtain ⟨s₄, e, rfl, h₄, he⟩ := reads_one_seq.mp hw
    exact ⟨a, s₁, b, s₂, c, s₃, d, s₄, e, rfl, reads_hexDigits.mp ha, h₁, reads_hexDigits.mp hb, h₂,
      reads_hexDigits.mp hc, h₃, reads_hexDigits.mp hd, h₄, reads_hexDigits.mp he⟩
  · rintro ⟨a, s₁, b, s₂, c, s₃, d, s₄, e, rfl, ha, h₁, hb, h₂, hc, h₃, hd, h₄, he⟩
    refine ⟨a, _, rfl, reads_hexDigits.mpr ha, reads_one_seq.mpr ⟨s₁, _, rfl, h₁, ?_⟩⟩
    refine ⟨b, _, rfl, reads_hexDigits.mpr hb, reads_one_seq.mpr ⟨s₂, _, rfl, h₂, ?_⟩⟩
    refine ⟨c, _, rfl, reads_hexDigits.mpr hc, reads_one_seq.mpr ⟨s₃, _, rfl, h₃, ?_⟩⟩
    exact ⟨d, _, rfl, reads_hexDigits.mpr hd,
      reads_one_seq.mpr ⟨s₄, e, rfl, h₄, reads_hexDigits.mpr he⟩⟩

theorem plain_taskRegex : taskRegex.Plain :=
  ⟨plain_hexDigits 32, trivial, plain_plus _⟩

theorem plain_idRegex : idRegex.Plain := by
  have huuid : uuidRegex.Plain :=
    ⟨plain_hexDigits 8, trivial, plain_hexDigits 4, trivial, plain_hexDigits 4, trivial,
      plain_hexDigits 4, trivial, plain_hexDigits 12⟩
  exact ⟨huuid, plain_hexDigits 64, plain_taskRegex, plain_optional trivial⟩

theorem plain_pathRegex : pathRegex.Plain :=
  ⟨plain_plus _, trivial, trivial, trivial, plain_optional trivial, plain_plus _, trivial⟩

/-- **What the group reads**: an id, or a task with `.scope` behind it. -/
theorem reads_idRegex {s : List Char} : idRegex.Reads s ↔ Shape s ∨ ScopedTask s := by
  constructor
  · rintro (huuid | hcontainer | ⟨u, v, rfl, hu, hv⟩)
    · obtain ⟨a, s₁, b, s₂, c, s₃, d, s₄, e, rfl, ha, h₁, hb, h₂, hc, h₃, hd, h₄, he⟩ :=
        reads_uuidRegex.mp huuid
      exact .inl (.uuid ha h₁ hb h₂ hc h₃ hd h₄ he)
    · exact .inl (.container (reads_hexDigits.mp hcontainer))
    · obtain ⟨digits, number, rfl, hdigits, hnumber⟩ := reads_taskRegex.mp hu
      rcases hv with rfl | rfl
      · exact .inr ⟨digits, number, hdigits, hnumber, List.append_assoc _ _ _⟩
      · rw [List.append_nil]
        exact .inl (.task hdigits hnumber)
  · rintro (hshape | ⟨digits, number, hdigits, hnumber, rfl⟩)
    · cases hshape with
      | uuid ha h₁ hb h₂ hc h₃ hd h₄ he =>
          exact .inl (reads_uuidRegex.mpr
            ⟨_, _, _, _, _, _, _, _, _, rfl, ha, h₁, hb, h₂, hc, h₃, hd, h₄, he⟩)
      | container h => exact .inr (.inl (reads_hexDigits.mpr h))
      | task hdigits hnumber =>
          refine .inr (.inr ⟨_, [], (List.append_nil _).symm, ?_, .inr rfl⟩)
          exact reads_taskRegex.mpr ⟨_, _, rfl, hdigits, hnumber⟩
    · refine .inr (.inr ⟨digits ++ '-' :: number, ".scope".toList, ?_, ?_, .inl rfl⟩)
      · rw [List.append_assoc]
        rfl
      · exact reads_taskRegex.mpr ⟨digits, number, rfl, hdigits, hnumber⟩

theorem hexDigit_ne {c d : Char} (hc : hexDigit c = true) (hd : hexDigit d = false) : c ≠ d := by
  rintro rfl
  rw [hc] at hd
  cases hd

theorem Hex.notMem {n : Nat} {s : List Char} {d : Char} (h : Hex n s) (hd : hexDigit d = false) :
    d ∉ s :=
  fun hmem => hexDigit_ne (h.2 d hmem) hd rfl

theorem TaskNumber.slash_notMem {s : List Char} (h : TaskNumber s) : '/' ∉ s := by
  intro hmem
  have hslash : Texts.isDecimalDigit '/' = false := by decide
  rw [h.2 _ hmem] at hslash
  cases hslash

/-- There is no slash in what the group reads. -/
theorem slash_notMem_of_shape {s : List Char} (h : Shape s ∨ ScopedTask s) : '/' ∉ s := by
  have hhex {n : Nat} {t : List Char} (ht : Hex n t) : '/' ∉ t := ht.notMem (by decide)
  have hdash {c : Char} (hc : dash c = true) : '/' ≠ c := by
    rintro rfl
    cases hc
  rcases h with hshape | ⟨digits, number, hdigits, hnumber, rfl⟩
  · cases hshape with
    | uuid ha h₁ hb h₂ hc h₃ hd h₄ he =>
        simp only [List.mem_append, List.mem_cons, not_or]
        exact ⟨hhex ha, hdash h₁, hhex hb, hdash h₂, hhex hc, hdash h₃, hhex hd, hdash h₄, hhex he⟩
    | container h => exact hhex h
    | task hdigits hnumber =>
        simp only [List.mem_append, List.mem_cons, not_or]
        exact ⟨hhex hdigits, by decide, hnumber.slash_notMem⟩
  · simp only [List.mem_append, List.mem_cons, not_or]
    exact ⟨hhex hdigits, by decide, hnumber.slash_notMem, by decide⟩

/-- What the group reads begins with eight digits. -/
theorem hex_take_of_shape {s : List Char} (h : Shape s ∨ ScopedTask s) : Hex 8 (s.take 8) := by
  have htake {n : Nat} {t : List Char} (ht : Hex n t) (hn : 8 ≤ n) (rest : List Char) :
      Hex 8 ((t ++ rest).take 8) := by
    have hlength : 8 ≤ t.length := ht.1 ▸ hn
    rw [List.take_append_of_le_length hlength]
    exact ⟨List.length_take_of_le hlength, fun c hc => ht.2 c (List.mem_of_mem_take hc)⟩
  rcases h with hshape | ⟨digits, number, hdigits, hnumber, rfl⟩
  · cases hshape with
    | uuid ha => exact htake ha (by decide) _
    | container h =>
        rw [← List.append_nil s]
        exact htake h (by decide) []
    | task hdigits => exact htake hdigits (by decide) _
  · exact htake hdigits (by decide) _

theorem isWhiteSpace_of_hexDigit {c : Char} (hc : hexDigit c = true) :
    Texts.isWhiteSpace c = false := by
  simp only [hexDigit, Bool.or_eq_true, Bool.and_eq_true, decide_eq_true_eq, Char.le_def,
    UInt32.le_iff_toNat_le] at hc
  have hval : c.val.toNat = c.toNat := rfl
  simp at hc
  simp [Texts.isWhiteSpace]
  omega

theorem isBlank_of_shape {s : List Char} (h : Shape s ∨ ScopedTask s) :
    Texts.isBlank s = false := by
  have htake := hex_take_of_shape h
  cases s with
  | nil => cases htake.1
  | cons c s =>
      have hc := isWhiteSpace_of_hexDigit (htake.2 c List.mem_cons_self)
      rw [Texts.isBlank, List.all_cons, hc]
      rfl

/-! ## What the code finds -/

namespace CgroupLine

variable (l : CgroupLine)

theorem line : '\n' ∉ l.chars := by
  have hdigits : '\n' ∉ Nat.toDigits 10 l.number := by
    intro hmem
    have hdigit := Nat.isDigit_of_mem_toDigits (by decide) (by decide) hmem
    cases hdigit
  simp only [chars, head, List.mem_append, List.mem_cons, not_or]
  exact ⟨⟨hdigits, by decide, l.controllers_line, by decide, l.directory_line⟩, by decide,
    l.name_line⟩

/-- The part of the expression in front of the group reads a line up to its last slash, if the last
segment is not the only one. -/
theorem reads_head_iff : pathRegex.Reads (l.head ++ ['/']) ↔ l.directory ≠ [] := by
  have hdigit : ∀ c ∈ Nat.toDigits 10 l.number, c.isDigit = true := fun c hc =>
    Nat.isDigit_of_mem_toDigits (by decide) (by decide) hc
  have hdecimal : ∀ c ∈ Nat.toDigits 10 l.number, Texts.isDecimalDigit c = true := fun c hc =>
    Texts.isDecimalDigit_of_isDigit (hdigit c hc)
  have hcolon {s : List Char} (hs : ∀ c ∈ s, Texts.isDecimalDigit c = true) : ':' ∉ s := by
    intro hmem
    have hno : Texts.isDecimalDigit ':' = false := by decide
    rw [hs _ hmem] at hno
    cases hno
  constructor
  · rintro ⟨digits, v, hline, hdigits, hv⟩
    obtain ⟨v, rfl, controllers, w, rfl, hcontrollers, hw⟩ := reads_char_seq.mp hv
    obtain ⟨w, rfl, slash, v, rfl, hslash, path, end', rfl, hpath, rfl⟩ := reads_char_seq.mp hw
    rw [head, List.append_assoc, List.cons_append] at hline
    obtain ⟨-, hline⟩ :=
      Texts.eq_of_first (hcolon hdecimal) (hcolon (reads_plus.mp hdigits).2) hline
    rw [List.append_assoc, List.cons_append] at hline
    have hnot : ':' ∉ controllers := fun hmem => by simpa using hcontrollers _ hmem
    obtain ⟨-, hline⟩ := Texts.eq_of_first l.controllers_colon hnot hline
    rintro hnil
    have hlength := congrArg List.length hline
    rw [hnil] at hlength
    simp only [List.nil_append, List.length_append, List.length_singleton] at hlength
    have hpos := List.length_pos_iff.mpr (reads_plus.mp hpath).1
    omega
  · intro hne
    have hpath : (plus (· ≠ '\n')).Reads l.directory := reads_plus.mpr
      ⟨hne, fun c hc => decide_eq_true fun heq => l.directory_line (heq ▸ hc)⟩
    refine ⟨Nat.toDigits 10 l.number, _, ?_, reads_plus.mpr ⟨Nat.toDigits_ne_nil, hdecimal⟩,
      reads_char_seq.mpr ⟨_, rfl, l.controllers, _, rfl, ?_, reads_char_seq.mpr
        ⟨_, rfl, [], _, rfl, .inr rfl, l.directory, ['/'], rfl, hpath, rfl⟩⟩⟩
    · simp [head]
    · exact fun c hc => decide_eq_true fun heq => l.controllers_colon (heq ▸ hc)

end CgroupLine

/-- **What the expression reads of a line**: the last segment, if the line is a bare one. -/
theorem reads_line_iff (l : CgroupLine) {u v : List Char} (htext : l.chars = u ++ v)
    (hv : Shape v ∨ ScopedTask v) :
    pathRegex.Reads u ↔ v = l.name ∧ l.directory ≠ [] := by
  constructor
  · intro hu
    obtain ⟨start, rfl⟩ : ∃ start, u = start ++ ['/'] := by
      obtain ⟨a, _, rfl, -, b, _, rfl, -, c, _, rfl, -, d, _, rfl, -, e, _, rfl, -, f, _, rfl, -,
        rfl⟩ := hu
      exact ⟨a ++ (b ++ (c ++ (d ++ (e ++ f)))), by simp⟩
    rw [CgroupLine.chars, List.append_assoc, List.singleton_append] at htext
    obtain ⟨rfl, rfl⟩ := Texts.eq_of_last l.name_slash (slash_notMem_of_shape hv) htext
    exact ⟨rfl, l.reads_head_iff.mp hu⟩
  · rintro ⟨rfl, hne⟩
    have hu : u = l.head ++ ['/'] := by
      apply List.append_cancel_right
      rw [← htext, CgroupLine.chars, List.append_assoc]
      rfl
    rw [hu]
    exact l.reads_head_iff.mpr hne

/-- **The id of a bare line** is its last segment. -/
theorem parseCgroupLine_of_bare {l : CgroupLine} (h : l.Bare) :
    parseCgroupLine l.text = some (String.ofList l.name) := by
  have hsome : (containerIdRegex.find l.chars).isSome = true := by
    refine (isSome_find_captured plain_pathRegex plain_idRegex 1 l.line).mpr
      ⟨l.head ++ ['/'], l.name, ?_, l.reads_head_iff.mpr h.nested, reads_idRegex.mpr h.name⟩
    rw [CgroupLine.chars, List.append_assoc]
    rfl
  obtain ⟨place, hplace⟩ := Option.isSome_iff_exists.mp hsome
  obtain ⟨u, v, htext, hu, hv, hvalue⟩ :=
    exists_of_find_captured plain_pathRegex plain_idRegex 1 l.line hplace
  obtain ⟨rfl, -⟩ := (reads_line_iff l htext (reads_idRegex.mp hv)).mp hu
  rw [parseCgroupLine, CgroupLine.text, String.toList_ofList, hplace, Option.map_some, hvalue]

/-- There is no id in a line that is not a bare one. -/
theorem parseCgroupLine_of_not_bare {l : CgroupLine} (h : ¬l.Bare) :
    parseCgroupLine l.text = none := by
  rw [parseCgroupLine, CgroupLine.text, String.toList_ofList, Option.map_eq_none_iff,
    ← Option.not_isSome_iff_eq_none]
  intro hsome
  obtain ⟨u, v, htext, hu, hv⟩ :=
    (isSome_find_captured plain_pathRegex plain_idRegex 1 l.line).mp hsome
  have hname := reads_idRegex.mp hv
  obtain ⟨rfl, hne⟩ := (reads_line_iff l htext hname).mp hu
  exact h ⟨hne, hname⟩

/-- The result is the last segment of the first bare line. -/
theorem parseCgroupLines_of_firstWith {lines : List CgroupLine} {l : CgroupLine}
    (h : FirstWith CgroupLine.Bare lines l) :
    parseCgroupLines (lines.map CgroupLine.text) = some (String.ofList l.name) := by
  obtain ⟨earlier, later, rfl, hl, hearlier⟩ := h
  have hnull : Texts.isNullOrWhiteSpace (some (String.ofList l.name)) = false := by
    rw [Texts.isNullOrWhiteSpace, Option.getD_some, String.toList_ofList]
    exact isBlank_of_shape hl.name
  have hfind : (((earlier ++ l :: later).map CgroupLine.text).map parseCgroupLine).find?
      (fun id => !Texts.isNullOrWhiteSpace id) = some (some (String.ofList l.name)) := by
    rw [List.find?_eq_some_iff_append]
    refine ⟨by rw [hnull]; rfl, (earlier.map CgroupLine.text).map parseCgroupLine,
      (later.map CgroupLine.text).map parseCgroupLine, ?_, ?_⟩
    · rw [List.map_append, List.map_append, List.map_cons, List.map_cons,
        parseCgroupLine_of_bare hl]
    · intro id hid
      obtain ⟨text, htext, rfl⟩ := List.mem_map.mp hid
      obtain ⟨e, he, rfl⟩ := List.mem_map.mp htext
      rw [parseCgroupLine_of_not_bare (hearlier e he)]
      rfl
  rw [parseCgroupLines, hfind]
  rfl

/-- Without a bare line the result is null. -/
theorem parseCgroupLines_of_forall {lines : List CgroupLine} (h : ∀ l ∈ lines, ¬l.Bare) :
    parseCgroupLines (lines.map CgroupLine.text) = none := by
  have hfind : ((lines.map CgroupLine.text).map parseCgroupLine).find?
      (fun id => !Texts.isNullOrWhiteSpace id) = none := by
    rw [List.find?_eq_none]
    intro id hid
    obtain ⟨text, htext, rfl⟩ := List.mem_map.mp hid
    obtain ⟨l, hl, rfl⟩ := List.mem_map.mp htext
    rw [parseCgroupLine_of_not_bare (h l hl)]
    exact Bool.false_ne_true
  rw [parseCgroupLines, hfind]
  rfl

/-! ## When the id is the right one -/

/-- A bare line has an id. -/
theorem CgroupLine.Bare.hasId {l : CgroupLine} (h : l.Bare) : l.HasId := by
  rcases h.name with hshape | ⟨digits, number, hdigits, hnumber, hname⟩
  · exact ⟨l.name, hshape, [], [], .inl rfl, .inl rfl, (List.append_nil _).symm⟩
  · refine ⟨digits ++ '-' :: number, .task hdigits hnumber, [], ".scope".toList, .inl rfl, .inr rfl,
      ?_⟩
    rw [hname, List.nil_append, List.append_assoc]
    rfl

/-- There is a first line with a property, or no line has it. -/
theorem firstWith_or (P : CgroupLine → Prop) (lines : List CgroupLine) :
    (∀ l ∈ lines, ¬P l) ∨ ∃ l, FirstWith P lines l := by
  induction lines with
  | nil => exact .inl (List.forall_mem_nil _)
  | cons e lines ih =>
      by_cases he : P e
      · exact .inr ⟨e, [], lines, rfl, he, List.forall_mem_nil _⟩
      · rcases ih with hnone | ⟨l, earlier, later, rfl, hl, hearlier⟩
        · exact .inl (List.forall_mem_cons.mpr ⟨he, hnone⟩)
        · exact .inr ⟨l, e :: earlier, later, rfl, hl, List.forall_mem_cons.mpr ⟨he, hearlier⟩⟩

theorem FirstWith.mem {P : CgroupLine → Prop} {lines : List CgroupLine} {l : CgroupLine}
    (h : FirstWith P lines l) : l ∈ lines := by
  obtain ⟨earlier, later, rfl, -, -⟩ := h
  exact List.mem_append_right _ List.mem_cons_self

theorem FirstWith.holds {P : CgroupLine → Prop} {lines : List CgroupLine} {l : CgroupLine}
    (h : FirstWith P lines l) : P l := by
  obtain ⟨earlier, later, -, hl, -⟩ := h
  exact hl

/-- **The id of the container** is the right one exactly if no line has an id, or if the last
segment of the first bare line is an id of the first line that has one. -/
theorem parseCgroupLines_right_iff (lines : List CgroupLine) :
    Right lines (parseCgroupLines (lines.map CgroupLine.text)) ↔
      (∀ l ∈ lines, ¬l.HasId) ∨
        ∃ bare first, FirstWith CgroupLine.Bare lines bare ∧
          FirstWith CgroupLine.HasId lines first ∧ IsIdOf bare.name first.name := by
  rcases firstWith_or CgroupLine.Bare lines with hnone | ⟨bare, hbare⟩
  · rw [parseCgroupLines_of_forall hnone]
    constructor
    · exact Or.inl
    · rintro (hno | ⟨bare, -, hbare, -, -⟩)
      · exact hno
      · exact absurd hbare.holds (hnone bare hbare.mem)
  · rw [parseCgroupLines_of_firstWith hbare]
    constructor
    · rintro ⟨first, hfirst, hid⟩
      rw [String.toList_ofList] at hid
      exact .inr ⟨bare, first, hbare, hfirst, hid⟩
    · rintro (hno | ⟨bare', first, hbare', hfirst, hid⟩)
      · exact absurd hbare.holds.hasId (hno bare hbare.mem)
      · have hname : String.ofList bare.name = String.ofList bare'.name := Option.some.inj
          ((parseCgroupLines_of_firstWith hbare).symm.trans (parseCgroupLines_of_firstWith hbare'))
        refine ⟨first, hfirst, ?_⟩
        rw [hname, String.toList_ofList]
        exact hid

/-- The id of a container of Kubernetes. -/
def systemdId : List Char :=
  "3e74d3fd9db4c9dd921ae05c2502fb984d0cde1b36e581b13f79c639da4518a1".toList

/-- The line of the container on systemd. -/
def systemdLine : CgroupLine where
  number := 1
  controllers := "name=systemd".toList
  directory := "/kubepods.slice/kubepods-burstable.slice".toList ++
    "/kubepods-burstable-pod2d3da189_6407_48e3_9ab6_78188d75e609.slice".toList
  name := ("docker".toList ++ ['-']) ++ (systemdId ++ ".scope".toList)
  controllers_colon := by decide
  controllers_line := by decide
  directory_rooted _ h := (Option.some.inj h).symm
  directory_line := by decide
  name_slash := by decide
  name_line := by decide

theorem isIdOf_systemdId : IsIdOf systemdId systemdLine.name :=
  ⟨.container ⟨by decide, forall_mem_of_all (by decide)⟩, _, _,
    .inr ⟨"docker".toList, by decide, rfl⟩, .inr rfl, rfl⟩

/-- The id behind the name of a runtime is not found. -/
theorem systemdLine_not_right :
    ¬Right [systemdLine] (parseCgroupLines ([systemdLine].map CgroupLine.text)) := by
  have hbare : ¬systemdLine.Bare := by
    intro h
    have ho := (hex_take_of_shape h.name).2 'o' (by decide)
    exact absurd ho (by decide)
  rw [parseCgroupLines_of_forall (List.forall_mem_singleton.mpr hbare)]
  intro h
  exact h systemdLine List.mem_cons_self ⟨systemdId, isIdOf_systemdId⟩

end DdTrace.PlatformHelpers
