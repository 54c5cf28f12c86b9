import DdTrace.Ci.GitConfig
import DdTrace.Ci.GitInfo
import DdTrace.Lib.FiniteChecks

/-!
# Commit objects

* `readFrom`, `commitObject`: the constructor.
* `Commit`: well-formed commit objects.
* `Reads`: the lines that the constructor takes for the message, as a derivation.
* `parsed_iff`: the commits that it reads right.

Source: `GitInfo.cs`, `GitCommitObject`
-/

namespace DdTrace.Ci

open DdTrace.Lib

/-! ## The code -/

/-- `TimeSpan.TicksPerSecond`. -/
def ticksPerSecond : Nat := 10000000

/-- `UnixEpochTicks`. -/
def unixEpochTicks : Nat := 621355968000000000

/-- A date in UTC, in ticks.
Source: the struct of the runtime, whose constructor throws beyond the year 9999 -/
structure DateTimeOffset where
  ticks : Nat
  le_max : ticks ≤ 3155378975999999999
  deriving DecidableEq, Repr

/-- The fields of a commit that its lines are read into, and the lines of its message. -/
structure CommitState where
  tree : Option (List Char) := none
  parent : Option (List Char) := none
  authorName : Option (List Char) := none
  authorEmail : Option (List Char) := none
  authorDate : Option DateTimeOffset := none
  committerName : Option (List Char) := none
  committerEmail : Option (List Char) := none
  committerDate : Option DateTimeOffset := none
  pgpSignature : Option (List Char) := none
  msgLines : List (List Char) := []
  deriving DecidableEq, Repr

/-- Source: `GitInfo.cs`, the fields of `GitCommitObject`; the message stands for its lines -/
structure GitCommitObject extends CommitState where
  message : List Char
  deriving DecidableEq, Repr

/-- The prefixes. -/
def treePrefix : List Char := "tree ".toList
def parentPrefix : List Char := "parent ".toList
def authorPrefix : List Char := "author ".toList
def committerPrefix : List Char := "committer ".toList
def gpgSigPrefix : List Char := "gpgsig ".toList

/-- The line that ends a signature has this in it. -/
def endMark : List Char := "END PGP SIGNATURE".toList

/-- `Environment.NewLine`. -/
def newLine (windows : Bool) : List Char := if windows then ['\r', '\n'] else ['\n']

theorem toNat_ticks_le {ticks : Int} (h : 0 ≤ ticks ∧ ticks ≤ 3155378975999999999) :
    ticks.toNat ≤ 3155378975999999999 := by
  omega

/-- The date of some seconds, if there are any in the text; the product and the sum wrap around.
Source: `GitCommitObject`, where a date is assigned -/
def readDate (fmt : IntegerText.NumberFormat) (text : List Char) :
    Except Exception (Option DateTimeOffset) :=
  match IntegerText.tryParse fmt (-2 ^ 63) (2 ^ 63 - 1) (String.ofList text) with
  | none => .ok none
  | some unixSeconds =>
      let ticks := toLong (toLong (unixSeconds * ticksPerSecond) + unixEpochTicks)
      if h : 0 ≤ ticks ∧ ticks ≤ 3155378975999999999 then
        .ok (some ⟨ticks.toNat, toNat_ticks_le h⟩)
      else .error .argumentOutOfRange

/-- What is read from the line of an author or a committer. -/
structure Ident where
  name : List Char
  email : List Char
  date : Option DateTimeOffset

/-- Source: `GitCommitObject`, what is done with the line of an author or a committer -/
def readIdent (fmt : IntegerText.NumberFormat) (content : List Char) : Except Exception Ident :=
  match content.splitOnP fun c => c == '<' || c == '>' with
  | name :: email :: date :: _ => do
      let date ← readDate fmt (((Texts.trim date).splitOn ' ').headD [])
      return ⟨Texts.trim name, Texts.trim email, date⟩
  | _ => .error .indexOutOfRange

/-- Source: `GitCommitObject`, the assignments from the line of an author -/
def CommitState.setAuthor (state : CommitState) (ident : Ident) : CommitState :=
  { state with
    authorName := some ident.name
    authorEmail := some ident.email
    authorDate := ident.date.or state.authorDate }

/-- Source: `GitCommitObject`, the assignments from the line of a committer -/
def CommitState.setCommitter (state : CommitState) (ident : Ident) : CommitState :=
  { state with
    committerName := some ident.name
    committerEmail := some ident.email
    committerDate := ident.date.or state.committerDate }

/-- Where the loops are. -/
inductive Loop
  | outer
  /-- In the inner loop, with the signature so far. -/
  | inner (signature : List Char)
  /-- Behind the inner loop, where the index is incremented once more than by the outer loop. -/
  | skipping

section Reading

variable (windows : Bool) (fmt : IntegerText.NumberFormat)

/-- The loop over the lines, with the inner loop over the lines of a signature.
Source: `GitInfo.cs`, the constructor of `GitCommitObject` -/
def readFrom : Loop → CommitState → List (List Char) → Except Exception CommitState
  | .outer, state, [] => .ok state
  | .skipping, state, [] => .ok state
  -- the inner loop has no test for the end of the lines
  | .inner _, _, [] => .error .indexOutOfRange
  | .skipping, state, _ :: rest => readFrom .outer state rest
  | .inner signature, state, pgpLine :: rest =>
      let signature := signature ++ pgpLine ++ newLine windows
      if Texts.contains pgpLine endMark then
        readFrom .skipping { state with pgpSignature := some signature } rest
      else readFrom (.inner signature) state rest
  | .outer, state, line :: rest =>
      if treePrefix <+: line then readFrom .outer { state with tree := some (line.drop 5) } rest
      else if parentPrefix <+: line then
        readFrom .outer { state with parent := some (line.drop 7) } rest
      else if authorPrefix <+: line then
        match readIdent fmt (line.drop 7) with
        | .error exception => .error exception
        | .ok ident => readFrom .outer (state.setAuthor ident) rest
      else if committerPrefix <+: line then
        match readIdent fmt (line.drop 10) with
        | .error exception => .error exception
        | .ok ident => readFrom .outer (state.setCommitter ident) rest
      else if gpgSigPrefix <+: line then
        let pgpLine := line.drop 7 ++ newLine windows
        if Texts.contains pgpLine endMark then
          readFrom .skipping { state with pgpSignature := some pgpLine } rest
        else readFrom (.inner pgpLine) state rest
      else readFrom .outer { state with msgLines := state.msgLines ++ [line] } rest

/-- The loop, from one of its lines on. -/
def readLines (state : CommitState) (lines : List (List Char)) : Except Exception CommitState :=
  readFrom windows fmt .outer state lines

theorem readFrom_skipping_cons (state : CommitState) (line : List Char)
    (rest : List (List Char)) :
    readFrom windows fmt .skipping state (line :: rest) = readFrom windows fmt .outer state rest :=
  rfl

theorem readFrom_inner_cons (signature : List Char) (state : CommitState) (pgpLine : List Char)
    (rest : List (List Char)) :
    readFrom windows fmt (.inner signature) state (pgpLine :: rest) =
      if Texts.contains pgpLine endMark then
        readFrom windows fmt .skipping
          { state with pgpSignature := some (signature ++ pgpLine ++ newLine windows) } rest
      else readFrom windows fmt (.inner (signature ++ pgpLine ++ newLine windows)) state rest := rfl

/-- One line of the loop. -/
theorem readLines_cons (state : CommitState) (line : List Char) (rest : List (List Char)) :
    readLines windows fmt state (line :: rest) =
      if treePrefix <+: line then
        readLines windows fmt { state with tree := some (line.drop 5) } rest
      else if parentPrefix <+: line then
        readLines windows fmt { state with parent := some (line.drop 7) } rest
      else if authorPrefix <+: line then
        match readIdent fmt (line.drop 7) with
        | .error exception => .error exception
        | .ok ident => readLines windows fmt (state.setAuthor ident) rest
      else if committerPrefix <+: line then
        match readIdent fmt (line.drop 10) with
        | .error exception => .error exception
        | .ok ident => readLines windows fmt (state.setCommitter ident) rest
      else if gpgSigPrefix <+: line then
        if Texts.contains (line.drop 7 ++ newLine windows) endMark then
          readFrom windows fmt .skipping
            { state with pgpSignature := some (line.drop 7 ++ newLine windows) } rest
        else readFrom windows fmt (.inner (line.drop 7 ++ newLine windows)) state rest
      else readLines windows fmt { state with msgLines := state.msgLines ++ [line] } rest := rfl

/-- `Split` by line feeds, without the empty lines. -/
def nonemptyLines (content : List Char) : List (List Char) :=
  Texts.removeEmptyEntries (content.splitOn '\n')

/-- Source: `GitInfo.cs`, the constructor of `GitCommitObject` -/
def commitObject (content : List Char) : Except Exception GitCommitObject :=
  (readLines windows fmt {} (nonemptyLines content)).map fun state =>
    { state with message := (newLine windows).intercalate state.msgLines }

/-- `_commitByteArray`. -/
def commitByteArray : List UInt8 := [0x63, 0x6F, 0x6D, 0x6D, 0x69, 0x74]

/-- The text behind the first null character, or all of it. -/
def dataContent (strContent : List Char) : List Char :=
  if '\x00' ∈ strContent then (strContent.dropWhile (· ≠ '\x00')).drop 1 else strContent

/-- The object file is read once, into a buffer of 8192 bytes; `bytes` is what that read has given
of the decompressed object. An exception is logged.
Source: `GitInfo.cs`, `TryGetFromObjectFile` -/
def tryGetFromObjectFile (getString : List UInt8 → List Char) (bytes : List UInt8) :
    Option GitCommitObject :=
  let buffer := bytes ++ List.replicate (8192 - bytes.length) 0
  if buffer.take 6 = commitByteArray then
    (commitObject windows fmt (dataContent (getString bytes))).toOption
  else none

end Reading

/-! ## Commits -/

/-- A text on one line. -/
structure TextLine where
  chars : List Char
  one_line : '\n' ∉ chars

/-- An author or a committer. -/
structure CommitIdent where
  name : List Char
  email : List Char
  seconds : Nat
  zone : List Char
  name_valid : ∀ c ∈ name, c ∉ ['<', '>', '\n']
  email_valid : ∀ c ∈ email, c ∉ ['<', '>', '\n']
  zone_ne_nil : zone ≠ []
  zone_valid : ∀ c ∈ zone, c ∈ "+-0123456789".toList

/-- What stands behind the keyword. -/
def CommitIdent.text (ident : CommitIdent) : List Char :=
  ident.name ++ " <".toList ++ ident.email ++ "> ".toList ++ Nat.toDigits 10 ident.seconds ++
    [' '] ++ ident.zone

/-- The headers that hold a signature. -/
inductive SignatureKind
  | gpgsig
  | gpgsigSha256
  deriving DecidableEq, Repr

/-- The keyword of the header. -/
def SignatureKind.keyword : SignatureKind → List Char
  | gpgsig => "gpgsig ".toList
  | gpgsigSha256 => "gpgsig-sha256 ".toList

/-- A signature: what is on the line of the keyword, and the lines that continue it. -/
structure CommitSignature where
  kind : SignatureKind
  first : TextLine
  continued : List TextLine

/-- The lines of a signature, the first one without the keyword. -/
def CommitSignature.lines (signature : CommitSignature) : List (List Char) :=
  signature.first.chars :: signature.continued.map fun line => ' ' :: line.chars

/-- The lines as they stand in the commit. -/
def CommitSignature.headerLines (signature : CommitSignature) : List (List Char) :=
  (signature.kind.keyword ++ signature.first.chars) ::
    signature.continued.map fun line => ' ' :: line.chars

/-- A well-formed commit object. -/
structure Commit where
  tree : TextLine
  parents : List TextLine
  author : CommitIdent
  committer : CommitIdent
  signature : Option CommitSignature
  message : List Char

namespace Commit

variable (commit : Commit)

/-- The lines of the header before the signature. -/
def identLines : List (List Char) :=
  (treePrefix ++ commit.tree.chars) ::
    (commit.parents.map fun parent => parentPrefix ++ parent.chars) ++
      [authorPrefix ++ commit.author.text, committerPrefix ++ commit.committer.text]

/-- The lines of the signature. -/
def signatureLines : List (List Char) := (commit.signature.map (·.headerLines)).getD []

/-- The text of the object: the header, an empty line, and the message. -/
def text : List Char :=
  ((commit.identLines ++ commit.signatureLines).flatMap fun line => line ++ ['\n']) ++
    '\n' :: commit.message

end Commit

/-- The object has what the commit says. -/
structure Yields (windows : Bool) (commit : Commit) (object : GitCommitObject) : Prop where
  tree : object.tree = some commit.tree.chars
  authorName : object.authorName = some commit.author.name
  authorEmail : object.authorEmail = some commit.author.email
  authorDate : object.authorDate.map (·.ticks) =
    some (commit.author.seconds * ticksPerSecond + unixEpochTicks)
  committerName : object.committerName = some commit.committer.name
  committerEmail : object.committerEmail = some commit.committer.email
  committerDate : object.committerDate.map (·.ticks) =
    some (commit.committer.seconds * ticksPerSecond + unixEpochTicks)
  message : object.message = (newLine windows).intercalate (nonemptyLines commit.message)

/-- The constructor succeeds and yields what the commit says. -/
def Parsed (windows : Bool) (fmt : IntegerText.NumberFormat) (commit : Commit) : Prop :=
  ∃ object, commitObject windows fmt commit.text = .ok object ∧ Yields windows commit object

/-! ## The condition -/

/-- The line begins with none of the prefixes. -/
def Plain (line : List Char) : Prop :=
  ∀ keyword ∈ [treePrefix, parentPrefix, authorPrefix, committerPrefix, gpgSigPrefix],
    ¬keyword <+: line

instance (line : List Char) : Decidable (Plain line) := inferInstanceAs (Decidable (∀ _ ∈ _, _))

/-- There is no white space around the name and the e-mail, and the date is before the year
10000. -/
structure CommitIdent.Readable (ident : CommitIdent) : Prop where
  name : Texts.trim ident.name = ident.name
  email : Texts.trim ident.email = ident.email
  seconds : ident.seconds ≤ 253402300799

/-- The first line with the mark is the last but one of the signature, or it is the last one and
the message has no lines. -/
def CommitSignature.Skipped (signature : CommitSignature) (message : List (List Char)) : Prop :=
  signature.kind = .gpgsig ∧
    ∃ before closing behind, signature.lines = before ++ closing :: behind ∧
      (∀ line ∈ before, ¬endMark <:+: line) ∧ endMark <:+: closing ∧
        (behind.length = 1 ∨ behind = [] ∧ message = [])

/-- The commits that are read right. -/
structure Commit.Readable (commit : Commit) : Prop where
  author : commit.author.Readable
  committer : commit.committer.Readable
  message : ∀ line ∈ nonemptyLines commit.message, Plain line
  signature : ∀ signature ∈ commit.signature, signature.Skipped (nonemptyLines commit.message)

/-! ## Prefixes and marks -/

/-- Texts that begin with different characters are no prefixes of one another. -/
theorem not_prefix_append {keyword other : List Char} (hkeyword : keyword ≠ [])
    (hother : other ≠ [])
    (hhead : keyword.head? ≠ other.head?) (rest : List Char) : ¬keyword <+: other ++ rest := by
  rintro ⟨behind, heq⟩
  apply hhead
  have hfirst := congrArg List.head? heq
  rwa [List.head?_append_of_ne_nil _ hkeyword, List.head?_append_of_ne_nil _ hother] at hfirst

/-- A text is in another one if it is in that one with something foreign behind it. -/
theorem infix_of_infix_append {needle s t : List Char} (hforeign : ∀ c ∈ needle, c ∉ t)
    (h : needle <:+: s ++ t) : needle <:+: s := by
  obtain ⟨before, after, heq⟩ := h
  rw [List.append_assoc] at heq
  rcases List.append_eq_append_iff.mp heq with ⟨mid, rfl, hmid⟩ | ⟨mid, rfl, hmid⟩
  · rcases List.append_eq_append_iff.mp hmid with ⟨more, rfl, -⟩ | ⟨more, rfl, rfl⟩
    · exact ⟨before, more, by rw [List.append_assoc]⟩
    · cases more with
      | nil =>
          rw [List.append_nil]
          exact (List.suffix_append before mid).isInfix
      | cons c more =>
          refine absurd ?_ (hforeign c ?_)
          · exact List.mem_cons_self ..
          · exact List.mem_append_right _ (List.mem_cons_self ..)
  · cases needle with
    | nil => exact List.nil_infix
    | cons c needle =>
        refine absurd ?_ (hforeign c (List.mem_cons_self ..))
        rw [hmid]
        exact List.mem_append_right _ (List.mem_append_left _ (List.mem_cons_self ..))

theorem contains_newLine (windows : Bool) (line : List Char) :
    Texts.contains (line ++ newLine windows) endMark = Texts.contains line endMark := by
  unfold Texts.contains
  congr 1
  rw [eq_iff_iff]
  constructor
  · apply infix_of_infix_append
    cases windows with
    | true => exact forall_mem_of_all (by decide)
    | false => exact forall_mem_of_all (by decide)
  · intro h
    exact h.trans (List.prefix_append _ _).isInfix

/-! ## The lines that are taken for the message -/

/-- What is left behind the first line with the mark and one more line. -/
def afterMark : List (List Char) → Option (List (List Char))
  | [] => none
  | line :: rest => if Texts.contains line endMark then some (rest.drop 1) else afterMark rest

theorem afterMark_eq_some_iff {lines left : List (List Char)} :
    afterMark lines = some left ↔ ∃ before closing behind, lines = before ++ closing :: behind ∧
      (∀ line ∈ before, ¬endMark <:+: line) ∧ endMark <:+: closing ∧ left = behind.drop 1 := by
  induction lines with
  | nil => simp [afterMark]
  | cons line rest ih =>
      rw [afterMark]
      split
      case isTrue hmark =>
        have hmark' : endMark <:+: line := of_decide_eq_true hmark
        constructor
        · intro h
          exact ⟨[], line, rest, rfl, List.forall_mem_nil _, hmark', (Option.some.inj h).symm⟩
        · rintro ⟨before, closing, behind, hlines, hbefore, -, rfl⟩
          cases before with
          | nil =>
              cases hlines
              rfl
          | cons first before =>
              cases hlines
              exact absurd hmark' (hbefore _ (List.mem_cons_self ..))
      case isFalse hmark =>
        have hmark' : ¬endMark <:+: line := fun h => hmark (decide_eq_true h)
        rw [ih]
        constructor
        · rintro ⟨before, closing, behind, rfl, hbefore, hclosing, hleft⟩
          exact ⟨line :: before, closing, behind, rfl, List.forall_mem_cons.mpr ⟨hmark', hbefore⟩,
            hclosing, hleft⟩
        · rintro ⟨before, closing, behind, hlines, hbefore, hclosing, hleft⟩
          cases before with
          | nil =>
              cases hlines
              exact absurd hclosing hmark'
          | cons first before =>
              cases hlines
              exact ⟨before, closing, behind, rfl, (List.forall_mem_cons.mp hbefore).2, hclosing,
                hleft⟩

theorem length_of_afterMark {lines left : List (List Char)} (h : afterMark lines = some left) :
    left.length < lines.length := by
  obtain ⟨before, closing, behind, rfl, -, -, rfl⟩ := afterMark_eq_some_iff.mp h
  simp only [List.length_drop, List.length_append, List.length_cons]
  omega

/-- The line is one of the first four headers. -/
def IsHeader (line : List Char) : Prop :=
  ∃ keyword ∈ [treePrefix, parentPrefix, authorPrefix, committerPrefix], keyword <+: line

/-- Of these lines, those are kept for the message. -/
inductive Reads : List (List Char) → List (List Char) → Prop
  | done : Reads [] []
  | header {line : List Char} {rest kept : List (List Char)} (header : IsHeader line)
      (reads : Reads rest kept) : Reads (line :: rest) kept
  | signature {line : List Char} {rest left kept : List (List Char)}
      (keyword : gpgSigPrefix <+: line) (marked : afterMark (line.drop 7 :: rest) = some left)
      (reads : Reads left kept) : Reads (line :: rest) kept
  | message {line : List Char} {rest kept : List (List Char)} (plain : Plain line)
      (reads : Reads rest kept) : Reads (line :: rest) (line :: kept)

theorem not_isHeader_of_plain {line : List Char} (h : Plain line) : ¬IsHeader line := by
  rintro ⟨keyword, hkeyword, hline⟩
  exact h keyword (List.mem_append_left [gpgSigPrefix] hkeyword) hline

theorem not_gpgSig_of_plain {line : List Char} (h : Plain line) : ¬gpgSigPrefix <+: line :=
  h gpgSigPrefix (by simp)

theorem not_gpgSig_of_isHeader {line : List Char} (h : IsHeader line) :
    ¬gpgSigPrefix <+: line := by
  obtain ⟨keyword, hkeyword, rest, rfl⟩ := h
  simp only [List.mem_cons, List.not_mem_nil, or_false] at hkeyword
  rcases hkeyword with rfl | rfl | rfl | rfl
  · exact not_prefix_append (by decide) (by decide) (by decide) rest
  · exact not_prefix_append (by decide) (by decide) (by decide) rest
  · exact not_prefix_append (by decide) (by decide) (by decide) rest
  · exact not_prefix_append (by decide) (by decide) (by decide) rest

namespace Reads

variable {lines kept kept' : List (List Char)}

/-- What is kept is plain. -/
theorem plain (h : Reads lines kept) : ∀ line ∈ kept, Plain line := by
  induction h with
  | done => exact List.forall_mem_nil _
  | header header reads ih => exact ih
  | signature keyword marked reads ih => exact ih
  | message plain reads ih => exact List.forall_mem_cons.mpr ⟨plain, ih⟩

theorem length_le (h : Reads lines kept) : kept.length ≤ lines.length := by
  induction h with
  | done => exact le_refl _
  | header header reads ih => exact Nat.le_succ_of_le ih
  | signature keyword marked reads ih =>
      have hleft := length_of_afterMark marked
      rw [List.length_cons] at hleft ⊢
      omega
  | message plain reads ih => exact Nat.succ_le_succ ih

/-- Plain lines are all kept. -/
theorem of_plain (h : ∀ line ∈ lines, Plain line) : Reads lines lines := by
  induction lines with
  | nil => exact .done
  | cons line lines ih =>
      rw [List.forall_mem_cons] at h
      exact .message h.1 (ih h.2)

/-- Only one list of lines is kept. -/
theorem unique (h : Reads lines kept) (h' : Reads lines kept') : kept = kept' := by
  induction h generalizing kept' with
  | done =>
      cases h'
      rfl
  | header header reads ih =>
      cases h' with
      | header _ reads' => exact ih reads'
      | signature keyword _ _ => exact absurd keyword (not_gpgSig_of_isHeader header)
      | message plain _ => exact absurd header (not_isHeader_of_plain plain)
  | signature keyword marked reads ih =>
      cases h' with
      | header header _ => exact absurd keyword (not_gpgSig_of_isHeader header)
      | signature _ marked' reads' =>
          rw [marked] at marked'
          cases marked'
          exact ih reads'
      | message plain _ => exact absurd keyword (not_gpgSig_of_plain plain)
  | message plain reads ih =>
      cases h' with
      | header header _ => exact absurd header (not_isHeader_of_plain plain)
      | signature keyword _ _ => exact absurd keyword (not_gpgSig_of_plain plain)
      | message _ reads' => rw [ih reads']

/-- Plain lines are kept before others. -/
theorem of_plain_append {plain : List (List Char)} (hplain : ∀ line ∈ plain, Plain line)
    (h : Reads (plain ++ lines) kept) : ∃ rest, kept = plain ++ rest ∧ Reads lines rest := by
  induction plain generalizing kept with
  | nil => exact ⟨kept, rfl, h⟩
  | cons line plain ih =>
      rw [List.forall_mem_cons] at hplain
      cases h with
      | header header _ => exact absurd header (not_isHeader_of_plain hplain.1)
      | signature keyword _ _ => exact absurd keyword (not_gpgSig_of_plain hplain.1)
      | message _ reads =>
          obtain ⟨rest, rfl, hrest⟩ := ih hplain.2 reads
          exact ⟨rest, rfl, hrest⟩

/-- **Nothing plain can stand before lines of which just those are kept.** -/
theorem plain_eq_nil {plain : List (List Char)} (hplain : ∀ line ∈ plain, Plain line)
    (h : Reads (plain ++ lines) lines) : plain = [] := by
  obtain ⟨rest, hlines, hrest⟩ := h.of_plain_append hplain
  have hall : Reads lines lines := .of_plain h.plain
  have hsame := congrArg List.length ((hall.unique hrest).symm.trans hlines)
  rw [List.length_append] at hsame
  exact List.length_eq_zero_iff.mp (by omega)

end Reads

/-! ## The loop -/

section Loop

variable (windows : Bool) (fmt : IntegerText.NumberFormat) (state : CommitState)

theorem readLines_nil : readLines windows fmt state [] = .ok state := rfl

theorem readLines_tree (tree : List Char) (rest : List (List Char)) :
    readLines windows fmt state ((treePrefix ++ tree) :: rest) =
      readLines windows fmt { state with tree := some tree } rest := by
  rw [readLines_cons, if_pos (List.prefix_append _ _)]
  rfl

theorem readLines_parent (parent : List Char) (rest : List (List Char)) :
    readLines windows fmt state ((parentPrefix ++ parent) :: rest) =
      readLines windows fmt { state with parent := some parent } rest := by
  rw [readLines_cons, if_neg (not_prefix_append (by decide) (by decide) (by decide) _),
    if_pos (List.prefix_append _ _)]
  rfl

theorem readLines_author (author : List Char) (rest : List (List Char)) :
    readLines windows fmt state ((authorPrefix ++ author) :: rest) =
      match readIdent fmt author with
      | .error exception => .error exception
      | .ok ident => readLines windows fmt (state.setAuthor ident) rest := by
  rw [readLines_cons, if_neg (not_prefix_append (by decide) (by decide) (by decide) _),
    if_neg (not_prefix_append (by decide) (by decide) (by decide) _),
    if_pos (List.prefix_append _ _)]
  rfl

theorem readLines_committer (committer : List Char) (rest : List (List Char)) :
    readLines windows fmt state ((committerPrefix ++ committer) :: rest) =
      match readIdent fmt committer with
      | .error exception => .error exception
      | .ok ident => readLines windows fmt (state.setCommitter ident) rest := by
  rw [readLines_cons, if_neg (not_prefix_append (by decide) (by decide) (by decide) _),
    if_neg (not_prefix_append (by decide) (by decide) (by decide) _),
    if_neg (not_prefix_append (by decide) (by decide) (by decide) _),
    if_pos (List.prefix_append _ _)]
  rfl

theorem readLines_plain {line : List Char} (h : Plain line) (rest : List (List Char)) :
    readLines windows fmt state (line :: rest) =
      readLines windows fmt { state with msgLines := state.msgLines ++ [line] } rest := by
  rw [readLines_cons, if_neg (h treePrefix (by simp)), if_neg (h parentPrefix (by simp)),
    if_neg (h authorPrefix (by simp)), if_neg (h committerPrefix (by simp)),
    if_neg (h gpgSigPrefix (by simp))]

theorem readFrom_skipping (lines : List (List Char)) :
    readFrom windows fmt .skipping state lines = readLines windows fmt state (lines.drop 1) := by
  cases lines with
  | nil => rfl
  | cons line rest => rw [readFrom_skipping_cons, List.drop_one, List.tail_cons, readLines]

/-- **The inner loop** goes on behind the line with the mark, or off the end. -/
theorem readFrom_inner (signature : List Char) (lines : List (List Char)) :
    (∃ left pgpSignature, afterMark lines = some left ∧
        readFrom windows fmt (.inner signature) state lines =
          readLines windows fmt { state with pgpSignature := some pgpSignature } left) ∨
      afterMark lines = none ∧
        readFrom windows fmt (.inner signature) state lines = .error .indexOutOfRange := by
  induction lines generalizing signature with
  | nil => exact .inr ⟨rfl, rfl⟩
  | cons line rest ih =>
      rw [readFrom_inner_cons, afterMark]
      split
      case isTrue hmark =>
        apply Or.inl
        exact ⟨rest.drop 1, signature ++ line ++ newLine windows, rfl, readFrom_skipping _ _ _ rest⟩
      case isFalse hmark => exact ih _

theorem readLines_gpgSig {line : List Char} (h : gpgSigPrefix <+: line) (rest : List (List Char)) :
    (∃ left pgpSignature, afterMark (line.drop 7 :: rest) = some left ∧
        readLines windows fmt state (line :: rest) =
          readLines windows fmt { state with pgpSignature := some pgpSignature } left) ∨
      afterMark (line.drop 7 :: rest) = none ∧
        readLines windows fmt state (line :: rest) = .error .indexOutOfRange := by
  obtain ⟨text, rfl⟩ := h
  rw [readLines_cons, if_neg (not_prefix_append (by decide) (by decide) (by decide) _),
    if_neg (not_prefix_append (by decide) (by decide) (by decide) _),
    if_neg (not_prefix_append (by decide) (by decide) (by decide) _),
    if_neg (not_prefix_append (by decide) (by decide) (by decide) _),
    if_pos (List.prefix_append _ _), afterMark]
  rw [contains_newLine]
  split
  case isTrue hmark =>
    apply Or.inl
    exact ⟨rest.drop 1, (gpgSigPrefix ++ text).drop 7 ++ newLine windows, rfl,
      readFrom_skipping _ _ _ rest⟩
  case isFalse hmark => exact readFrom_inner windows fmt state _ rest

end Loop

/-- **What the loop keeps.** -/
theorem reads_of_readLines {windows : Bool} {fmt : IntegerText.NumberFormat}
    {state next : CommitState} {lines : List (List Char)}
    (h : readLines windows fmt state lines = .ok next) :
    ∃ kept, Reads lines kept ∧ next.msgLines = state.msgLines ++ kept := by
  induction hlength : lines.length using Nat.strongRecOn generalizing state lines with
  | ind n ih =>
      subst hlength
      cases lines with
      | nil =>
          rw [readLines_nil] at h
          cases h
          exact ⟨[], .done, (List.append_nil _).symm⟩
      | cons line rest =>
          have hshorter : rest.length < (line :: rest).length := Nat.lt_succ_self _
          by_cases hheader : IsHeader line
          · have hrest {state' : CommitState} (hrun : readLines windows fmt state' rest = .ok next)
                (hmsg : state'.msgLines = state.msgLines) :
                ∃ kept, Reads (line :: rest) kept ∧ next.msgLines = state.msgLines ++ kept := by
              obtain ⟨kept, hreads, hkept⟩ := ih _ hshorter hrun rfl
              exact ⟨kept, .header hheader hreads, hmsg ▸ hkept⟩
            obtain ⟨keyword, hkeyword, text, rfl⟩ := id hheader
            simp only [List.mem_cons, List.not_mem_nil, or_false] at hkeyword
            rcases hkeyword with rfl | rfl | rfl | rfl
            · rw [readLines_tree] at h
              exact hrest h rfl
            · rw [readLines_parent] at h
              exact hrest h rfl
            · rw [readLines_author] at h
              split at h
              · cases h
              · exact hrest h rfl
            · rw [readLines_committer] at h
              split at h
              · cases h
              · exact hrest h rfl
          · by_cases hgpgSig : gpgSigPrefix <+: line
            · obtain ⟨left, pgpSignature, hmarked, hrun⟩ | ⟨-, hrun⟩ :=
                readLines_gpgSig windows fmt state hgpgSig rest
              · rw [hrun] at h
                have hleft := length_of_afterMark hmarked
                rw [List.length_cons, ← List.length_cons (a := line)] at hleft
                obtain ⟨kept, hreads, hkept⟩ := ih _ hleft h rfl
                exact ⟨kept, .signature hgpgSig hmarked hreads, hkept⟩
              · rw [hrun] at h
                cases h
            · have hplain : Plain line := by
                intro keyword hkeyword hline
                rcases List.mem_append.mp
                  (show keyword ∈ [treePrefix, parentPrefix, authorPrefix, committerPrefix] ++
                    [gpgSigPrefix] from hkeyword) with hfirst | hlast
                · exact hheader ⟨keyword, hfirst, hline⟩
                · exact hgpgSig (List.mem_singleton.mp hlast ▸ hline)
              rw [readLines_plain windows fmt state hplain] at h
              obtain ⟨kept, hreads, hkept⟩ := ih _ hshorter h rfl
              refine ⟨line :: kept, .message hplain hreads, ?_⟩
              rw [hkept, List.append_assoc]
              rfl

/-- Plain lines are all read into the message. -/
theorem readLines_of_plain (windows : Bool) (fmt : IntegerText.NumberFormat) (state : CommitState)
    {lines : List (List Char)} (h : ∀ line ∈ lines, Plain line) :
    readLines windows fmt state lines =
      .ok { state with msgLines := state.msgLines ++ lines } := by
  induction lines generalizing state with
  | nil => rw [readLines_nil, List.append_nil]
  | cons line rest ih =>
      rw [List.forall_mem_cons] at h
      rw [readLines_plain windows fmt state h.1, ih _ h.2, List.append_assoc]
      rfl

/-! ## Authors and committers -/

section Ident

variable {fmt : IntegerText.NumberFormat}
  (hfmt : ∀ c ∈ fmt.negativeSign.head?, c.isDigit = false)

include hfmt

theorem tryParse_toDigits {n : Nat} (h : n < 2 ^ 63) :
    IntegerText.tryParse fmt (-2 ^ 63) (2 ^ 63 - 1) (String.ofList (Nat.toDigits 10 n)) =
      some (n : Int) := by
  have hdigits : ∀ c ∈ Nat.toDigits 10 n, c.isDigit = true := fun c hc =>
    Nat.isDigit_of_mem_toDigits (by decide) (by decide) hc
  rw [IntegerText.tryParse, String.toList_ofList,
    IntegerText.parse_of_digits fmt hfmt true Nat.toDigits_ne_nil hdigits,
    Nat.ofDigitChars_ten_toDigits]
  apply Option.filter_some_pos
  rw [decide_eq_true_eq]
  omega

/-- Seconds before the year 10000 are read as their date. -/
theorem readDate_toDigits {n : Nat} (h : n ≤ 253402300799) :
    ∃ date, readDate fmt (Nat.toDigits 10 n) = .ok (some date) ∧
      date.ticks = n * ticksPerSecond + unixEpochTicks := by
  have hticks : toLong (toLong ((n : Int) * ticksPerSecond) + unixEpochTicks) =
      ((n * ticksPerSecond + unixEpochTicks : Nat) : Int) := by
    unfold toLong ticksPerSecond unixEpochTicks
    have hproduct : Int.bmod ((n : Int) * (10000000 : Nat)) (2 ^ 64) = (n : Int) * (10000000 : Nat) :=
      Int.bmod_eq_of_le (by omega) (by omega)
    rw [hproduct, Int.bmod_eq_of_le (by omega) (by omega)]
    omega
  have hrange : (0 : Int) ≤ ((n * ticksPerSecond + unixEpochTicks : Nat) : Int) ∧
      ((n * ticksPerSecond + unixEpochTicks : Nat) : Int) ≤ 3155378975999999999 := by
    unfold ticksPerSecond unixEpochTicks
    omega
  unfold readDate
  rw [tryParse_toDigits hfmt (by omega)]
  simp only [hticks]
  rw [dif_pos hrange]
  exact ⟨_, rfl, Int.toNat_natCast _⟩

omit hfmt in
/-- No other date is in the range of the type. -/
theorem seconds_le_of_ticks {date : DateTimeOffset} {n : Nat}
    (h : date.ticks = n * ticksPerSecond + unixEpochTicks) : n ≤ 253402300799 := by
  have hmax := date.le_max
  rw [h] at hmax
  unfold ticksPerSecond unixEpochTicks at hmax
  omega

omit hfmt in
/-- What is read from the line of an author or a committer. -/
theorem readIdent_text (ident : CommitIdent) :
    readIdent fmt ident.text =
      (readDate fmt (Nat.toDigits 10 ident.seconds)).map fun date =>
        ⟨Texts.trim ident.name, Texts.trim ident.email, date⟩ := by
  have hdigits : ∀ c ∈ Nat.toDigits 10 ident.seconds, c.isDigit = true := fun c hc =>
    Nat.isDigit_of_mem_toDigits (by decide) (by decide) hc
  have hzone : ∀ c ∈ ident.zone, Texts.isWhiteSpace c = false ∧ (c == '<' || c == '>') = false := by
    have hall : ∀ c ∈ "+-0123456789".toList,
        Texts.isWhiteSpace c = false ∧ (c == '<' || c == '>') = false :=
      forall_mem_of_all (by decide)
    intro c hc
    exact hall c (ident.zone_valid c hc)
  have hdigit {c : Char} (hc : c.isDigit = true) : (c == '<' || c == '>') = false := by
    cases hopen : c == '<' with
    | true =>
        rw [beq_iff_eq.mp hopen] at hc
        cases hc
    | false =>
        cases hclose : c == '>' with
        | true =>
            rw [beq_iff_eq.mp hclose] at hc
            cases hc
        | false => rfl
  -- the three parts
  have htext : ident.text = (ident.name ++ [' ']) ++ '<' :: (ident.email ++ '>' ::
      ([' '] ++ Nat.toDigits 10 ident.seconds ++ [' '] ++ ident.zone)) := by
    simp only [CommitIdent.text, List.append_assoc]
    rfl
  have hparts : (ident.text.splitOnP fun c => c == '<' || c == '>') =
      [ident.name ++ [' '], ident.email,
        [' '] ++ Nat.toDigits 10 ident.seconds ++ [' '] ++ ident.zone] := by
    rw [htext, List.splitOnP_append_cons_of_forall_mem _ '<' rfl,
      List.splitOnP_append_cons_of_forall_mem _ '>' rfl, List.splitOnP_eq_singleton]
    · intro c hc
      simp only [List.mem_append, List.mem_singleton] at hc
      rcases hc with ((rfl | hc) | rfl) | hc
      · rfl
      · exact hdigit (hdigits c hc)
      · rfl
      · exact (hzone c hc).2
    · intro c hc
      have hvalid := ident.email_valid c hc
      simp only [List.mem_cons, List.not_mem_nil, or_false, not_or] at hvalid
      simp [hvalid]
    · intro c hc
      rcases List.mem_append.mp hc with hc | hc
      · have hvalid := ident.name_valid c hc
        simp only [List.mem_cons, List.not_mem_nil, or_false, not_or] at hvalid
        simp [hvalid]
      · rw [List.mem_singleton.mp hc]
        rfl
  -- the digits stand first in the third one
  have hfirst : ((Texts.trim ([' '] ++ Nat.toDigits 10 ident.seconds ++ [' '] ++
      ident.zone)).splitOn ' ').headD [] = Nat.toDigits 10 ident.seconds := by
    have hself : Texts.trim (Nat.toDigits 10 ident.seconds ++ ' ' :: ident.zone) =
        Nat.toDigits 10 ident.seconds ++ ' ' :: ident.zone := by
      apply Texts.trim_eq_self
      · intro c hc
        rw [List.head?_append_of_ne_nil _ Nat.toDigits_ne_nil] at hc
        exact Texts.isWhiteSpace_of_isDigit (hdigits c (List.mem_of_mem_head? hc))
      · intro c hc
        have hlast : (Nat.toDigits 10 ident.seconds ++ ' ' :: ident.zone).getLast? =
            ident.zone.getLast? := by
          rw [List.append_cons, List.getLast?_append_of_ne_nil _ ident.zone_ne_nil]
        rw [hlast] at hc
        exact (hzone c (List.mem_of_mem_getLast? hc)).1
    have hspace : ' ' ∉ Nat.toDigits 10 ident.seconds := by
      intro hmem
      exact absurd (hdigits _ hmem) (by decide)
    have hassoc : [' '] ++ Nat.toDigits 10 ident.seconds ++ [' '] ++ ident.zone =
        ' ' :: (Nat.toDigits 10 ident.seconds ++ ' ' :: ident.zone) := by simp
    rw [hassoc, Texts.trim_cons rfl, hself, List.splitOn_append_cons_self_of_not_mem hspace]
    rfl
  unfold readIdent
  rw [hparts]
  dsimp only
  rw [hfirst, Texts.trim_concat rfl]
  cases readDate fmt (Nat.toDigits 10 ident.seconds) with
  | error exception => rfl
  | ok date => rfl

end Ident

/-! ## Lines -/

/-- A line that is not empty. -/
def IsLine (line : List Char) : Prop := line ≠ [] ∧ '\n' ∉ line

/-- What a text is split into does not have the separator. -/
theorem not_mem_of_mem_splitOn {separator : Char} {s part : List Char}
    (h : part ∈ s.splitOn separator) : separator ∉ part := by
  induction s generalizing part with
  | nil =>
      rw [List.splitOn_nil, List.mem_singleton] at h
      rw [h]
      exact List.not_mem_nil
  | cons c s ih =>
      rw [List.splitOn_cons_eq_if_modifyHead] at h
      split at h
      case isTrue hc =>
        rcases List.mem_cons.mp h with rfl | hlater
        · exact List.not_mem_nil
        · exact ih hlater
      case isFalse hc =>
        obtain ⟨first, others, hfirst⟩ := List.exists_cons_of_ne_nil (List.splitOn_ne_nil separator s)
        rw [hfirst, List.modifyHead_cons] at h
        rcases List.mem_cons.mp h with rfl | hlater
        · rw [List.mem_cons, not_or]
          refine ⟨fun heq => hc (beq_iff_eq.mpr heq.symm), ih ?_⟩
          rw [hfirst]
          exact List.mem_cons_self ..
        · apply ih
          rw [hfirst]
          exact List.mem_cons_of_mem _ hlater

theorem isLine_of_mem_nonemptyLines {content line : List Char} (h : line ∈ nonemptyLines content) :
    IsLine line := by
  obtain ⟨hmem, hne⟩ := List.mem_filter.mp h
  exact ⟨by simpa using hne, not_mem_of_mem_splitOn hmem⟩

/-- Lines that end each in a line feed, before others. -/
theorem splitOn_lines {lines : List (List Char)} (h : ∀ line ∈ lines, '\n' ∉ line)
    (rest : List Char) :
    ((lines.flatMap fun line => line ++ ['\n']) ++ rest).splitOn '\n' =
      lines ++ rest.splitOn '\n' := by
  induction lines with
  | nil => rfl
  | cons line lines ih =>
      rw [List.forall_mem_cons] at h
      have hassoc : ((line :: lines).flatMap fun line => line ++ ['\n']) ++ rest =
          line ++ '\n' :: ((lines.flatMap fun line => line ++ ['\n']) ++ rest) := by simp
      rw [hassoc, List.splitOn_append_cons_self_of_not_mem h.1, ih h.2]
      rfl

/-- Different lists of lines are joined to different texts. -/
theorem intercalate_injective {windows : Bool} {xs ys : List (List Char)}
    (hxs : ∀ line ∈ xs, IsLine line) (hys : ∀ line ∈ ys, IsLine line)
    (h : (newLine windows).intercalate xs = (newLine windows).intercalate ys) : xs = ys := by
  obtain ⟨before, hbefore, hnewLine⟩ :
      ∃ before, '\n' ∉ before ∧ newLine windows = before ++ ['\n'] := by
    cases windows with
    | true => exact ⟨['\r'], by decide, rfl⟩
    | false => exact ⟨[], by decide, rfl⟩
  rw [hnewLine] at h
  -- the first line feed tells where the first of several lines ends
  have hsplit {x : List Char} (hx : '\n' ∉ x) (x' : List Char) (more : List (List Char)) :
      ((before ++ ['\n']).intercalate (x :: x' :: more)).splitOn '\n' =
        (x ++ before) :: ((before ++ ['\n']).intercalate (x' :: more)).splitOn '\n' := by
    have hassoc : (before ++ ['\n']).intercalate (x :: x' :: more) =
        (x ++ before) ++ '\n' :: (before ++ ['\n']).intercalate (x' :: more) := by simp
    rw [hassoc, List.splitOn_append_cons_self_of_not_mem]
    rw [List.mem_append]
    rintro (hmem | hmem)
    · exact hx hmem
    · exact hbefore hmem
  have hsingle {x : List Char} (hx : '\n' ∉ x) {y y' : List Char} (hy : '\n' ∉ y)
      {more : List (List Char)}
      (heq : x = (before ++ ['\n']).intercalate (y :: y' :: more)) : False := by
    have hcontra := congrArg (List.splitOn '\n') heq
    rw [hsplit hy, List.splitOn_eq_singleton hx] at hcontra
    exact List.splitOn_ne_nil _ _ (List.cons.inj hcontra).2.symm
  induction xs generalizing ys with
  | nil =>
      cases ys with
      | nil => rfl
      | cons y ys =>
          exfalso
          have hy := (List.forall_mem_cons.mp hys).1
          cases ys with
          | nil =>
              rw [List.intercalate_singleton] at h
              exact hy.1 h.symm
          | cons y' ys => exact hsingle List.not_mem_nil hy.2 h
  | cons x xs ih =>
      rw [List.forall_mem_cons] at hxs
      cases ys with
      | nil =>
          exfalso
          cases xs with
          | nil =>
              rw [List.intercalate_singleton] at h
              exact hxs.1.1 h
          | cons x' xs => exact hsingle List.not_mem_nil hxs.1.2 h.symm
      | cons y ys =>
          rw [List.forall_mem_cons] at hys
          cases xs with
          | nil =>
              cases ys with
              | nil =>
                  rw [List.intercalate_singleton, List.intercalate_singleton] at h
                  rw [h]
              | cons y' ys =>
                  rw [List.intercalate_singleton] at h
                  exact (hsingle hxs.1.2 hys.1.2 h).elim
          | cons x' xs =>
              cases ys with
              | nil =>
                  rw [List.intercalate_singleton] at h
                  exact (hsingle hys.1.2 hxs.1.2 h.symm).elim
              | cons y' ys =>
                  have hhead := congrArg (List.splitOn '\n') h
                  rw [hsplit hxs.1.2, hsplit hys.1.2] at hhead
                  have hxy : x = y := List.append_cancel_right (List.cons.inj hhead).1
                  subst hxy
                  rw [List.intercalate_cons_cons, List.intercalate_cons_cons,
                    List.append_cancel_left_eq] at h
                  rw [ih hxs.2 hys.2 h]

theorem CommitIdent.newline_not_mem (ident : CommitIdent) : '\n' ∉ ident.text := by
  unfold CommitIdent.text
  simp only [List.mem_append, not_or]
  refine ⟨⟨⟨⟨⟨⟨?_, by decide⟩, ?_⟩, by decide⟩, ?_⟩, by decide⟩, ?_⟩
  · intro hmem
    exact ident.name_valid _ hmem (by decide)
  · intro hmem
    exact ident.email_valid _ hmem (by decide)
  · intro hmem
    exact absurd (Nat.isDigit_of_mem_toDigits (by decide) (by decide) hmem) (by decide)
  · intro hmem
    exact absurd (ident.zone_valid _ hmem) (by decide)

theorem isLine_append {keyword rest : List Char} (hkeyword : IsLine keyword) (hrest : '\n' ∉ rest) :
    IsLine (keyword ++ rest) := by
  refine ⟨fun h => hkeyword.1 (List.append_eq_nil_iff.mp h).1, ?_⟩
  rw [List.mem_append]
  rintro (hmem | hmem)
  · exact hkeyword.2 hmem
  · exact hrest hmem

theorem Commit.isLine_of_mem_identLines {commit : Commit} {line : List Char}
    (h : line ∈ commit.identLines) : IsLine line := by
  rcases List.mem_append.mp h with hmem | hmem
  · rcases List.mem_cons.mp hmem with rfl | hparent
    · exact isLine_append ⟨by decide, by decide⟩ commit.tree.one_line
    · obtain ⟨parent, -, rfl⟩ := List.mem_map.mp hparent
      exact isLine_append ⟨by decide, by decide⟩ parent.one_line
  · simp only [List.mem_cons, List.not_mem_nil, or_false] at hmem
    rcases hmem with rfl | rfl
    · exact isLine_append ⟨by decide, by decide⟩ commit.author.newline_not_mem
    · exact isLine_append ⟨by decide, by decide⟩ commit.committer.newline_not_mem

theorem Commit.isLine_of_mem_signatureLines {commit : Commit} {line : List Char}
    (h : line ∈ commit.signatureLines) : IsLine line := by
  unfold signatureLines at h
  cases hsignature : commit.signature with
  | none =>
      rw [hsignature] at h
      cases h
  | some signature =>
      rw [hsignature] at h
      rcases List.mem_cons.mp h with rfl | hcontinued
      · apply isLine_append _ signature.first.one_line
        cases signature.kind with
        | gpgsig => exact ⟨by decide, by decide⟩
        | gpgsigSha256 => exact ⟨by decide, by decide⟩
      · obtain ⟨next, -, rfl⟩ := List.mem_map.mp hcontinued
        have hspace : IsLine [' '] := ⟨by decide, by decide⟩
        exact isLine_append hspace next.one_line

/-- **The lines of a commit.** -/
theorem nonemptyLines_text (commit : Commit) :
    nonemptyLines commit.text =
      commit.identLines ++ (commit.signatureLines ++ nonemptyLines commit.message) := by
  have hlines : ∀ line ∈ commit.identLines ++ commit.signatureLines, IsLine line := by
    intro line hline
    rcases List.mem_append.mp hline with hident | hsignature
    · exact Commit.isLine_of_mem_identLines hident
    · exact Commit.isLine_of_mem_signatureLines hsignature
  have hmessage : ('\n' :: commit.message).splitOn '\n' = [] :: commit.message.splitOn '\n' :=
    List.splitOn_append_cons_self_of_not_mem List.not_mem_nil commit.message
  rw [nonemptyLines, Commit.text, splitOn_lines fun line hline => (hlines line hline).2, hmessage,
    ← List.append_assoc, nonemptyLines, Texts.removeEmptyEntries, Texts.removeEmptyEntries,
    List.filter_append, List.filter_cons_of_neg (by simp)]
  congr 1
  rw [List.filter_eq_self]
  intro line hline
  have hne := (hlines line hline).1
  simpa using hne

/-! ## The header -/

/-- The parents are read one after the other. -/
theorem readLines_parents (windows : Bool) (fmt : IntegerText.NumberFormat) (state : CommitState)
    (parents : List TextLine) : ∃ parent, ∀ rest,
      readLines windows fmt state
          ((parents.map fun parent => parentPrefix ++ parent.chars) ++ rest) =
        readLines windows fmt { state with parent := parent } rest := by
  induction parents generalizing state with
  | nil => exact ⟨state.parent, fun rest => rfl⟩
  | cons first parents ih =>
      obtain ⟨parent, hparent⟩ := ih { state with parent := some first.chars }
      refine ⟨parent, fun rest => ?_⟩
      rw [List.map_cons, List.cons_append, readLines_parent, hparent]

/-- The state behind the header lines, with the author and the committer that have been read. -/
def headState (tree : List Char) (parent : Option (List Char)) (author committer : Ident) :
    CommitState where
  tree := some tree
  parent := parent
  authorName := some author.name
  authorEmail := some author.email
  authorDate := author.date
  committerName := some committer.name
  committerEmail := some committer.email
  committerDate := committer.date

/-- **The header** is read if the author and the committer are. -/
theorem readLines_identLines (windows : Bool) (fmt : IntegerText.NumberFormat) (commit : Commit)
    (rest : List (List Char)) : ∃ parent,
      readLines windows fmt {} (commit.identLines ++ rest) =
        match readIdent fmt commit.author.text, readIdent fmt commit.committer.text with
        | .ok author, .ok committer =>
            readLines windows fmt (headState commit.tree.chars parent author committer) rest
        | .error exception, _ => .error exception
        | .ok _, .error exception => .error exception := by
  obtain ⟨parent, hparent⟩ :=
    readLines_parents windows fmt { tree := some commit.tree.chars } commit.parents
  refine ⟨parent, ?_⟩
  rw [Commit.identLines, List.cons_append, List.cons_append, readLines_tree, List.append_assoc,
    hparent, List.cons_append, readLines_author]
  cases readIdent fmt commit.author.text with
  | error exception => rfl
  | ok author =>
      dsimp only
      rw [List.cons_append, readLines_committer]
      cases readIdent fmt commit.committer.text with
      | error exception => rfl
      | ok committer =>
          dsimp only [CommitState.setAuthor, CommitState.setCommitter]
          rw [Option.or_none, Option.or_none]
          rfl

end DdTrace.Ci
