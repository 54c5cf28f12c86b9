import DdTrace.Ci.CommitObject

/-!
# Which commits are read right

* `skipped_of_reads`, `readLines_signatureLines`: what has to hold of a signature, and that it is
  enough.
* `parsed_iff`: the commits that the constructor reads right.
* `tryGetFromObjectFile_text`: object files, where one read gives all of them.

Source: `GitInfo.cs`, `GitCommitObject`
-/

namespace DdTrace.Ci

open DdTrace.Lib

/-! ## Lines that are kept are lines of the commit -/

theorem suffix_of_afterMark {lines left : List (List Char)} (h : afterMark lines = some left) :
    left <:+ lines := by
  induction lines with
  | nil => cases h
  | cons line rest ih =>
      rw [afterMark] at h
      split at h
      · cases h
        exact (List.drop_suffix 1 rest).trans (List.suffix_cons line rest)
      · exact (ih h).trans (List.suffix_cons line rest)

theorem suffix_of_afterMark_cons {first : List Char} {rest left : List (List Char)}
    (h : afterMark (first :: rest) = some left) : left <:+ rest := by
  rw [afterMark] at h
  split at h
  · cases h
    exact List.drop_suffix 1 rest
  · exact suffix_of_afterMark h

theorem Reads.sublist {lines kept : List (List Char)} (h : Reads lines kept) :
    kept.Sublist lines := by
  induction h with
  | done => exact List.Sublist.refl _
  | header header reads ih => exact ih.trans (List.sublist_cons_self _ _)
  | signature keyword marked reads ih =>
      exact (ih.trans (suffix_of_afterMark_cons marked).sublist).trans (List.sublist_cons_self _ _)
  | message plain reads ih => exact ih.cons_cons _

/-! ## Signatures -/

theorem plain_of_space (line : List Char) : Plain (' ' :: line) := by
  intro keyword hkeyword
  simp only [List.mem_cons, List.not_mem_nil, or_false] at hkeyword
  have hspace {keyword : List Char} (hne : keyword ≠ []) (hhead : keyword.head? ≠ some ' ') :
      ¬keyword <+: [' '] ++ line := not_prefix_append hne (List.cons_ne_nil ' ' []) hhead line
  rcases hkeyword with rfl | rfl | rfl | rfl | rfl
  · exact hspace (by decide) (by decide)
  · exact hspace (by decide) (by decide)
  · exact hspace (by decide) (by decide)
  · exact hspace (by decide) (by decide)
  · exact hspace (by decide) (by decide)

theorem plain_of_continued {signature : CommitSignature} {line : List Char}
    (h : line ∈ signature.continued.map fun line => ' ' :: line.chars) : Plain line := by
  obtain ⟨next, -, rfl⟩ := List.mem_map.mp h
  exact plain_of_space next.chars

/-- The header of the other kind is no header for the constructor. -/
theorem plain_sha256 (text : List Char) : Plain (SignatureKind.gpgsigSha256.keyword ++ text) := by
  have hother {keyword : List Char} (hne : keyword ≠ [])
      (hhead : keyword.head? ≠ SignatureKind.gpgsigSha256.keyword.head?) :
      ¬keyword <+: SignatureKind.gpgsigSha256.keyword ++ text :=
    not_prefix_append hne (by decide) hhead text
  intro keyword hkeyword
  simp only [List.mem_cons, List.not_mem_nil, or_false] at hkeyword
  rcases hkeyword with rfl | rfl | rfl | rfl | rfl
  · exact hother (by decide) (by decide)
  · exact hother (by decide) (by decide)
  · exact hother (by decide) (by decide)
  · exact hother (by decide) (by decide)
  · intro hprefix
    have hkeyword : gpgSigPrefix <+: SignatureKind.gpgsigSha256.keyword :=
      List.prefix_of_prefix_length_le hprefix (List.prefix_append _ text) (by decide)
    exact absurd hkeyword (by decide)

/-- **What a signature has to be**, if just the lines behind it are kept. -/
theorem skipped_of_reads {signature : CommitSignature} {lines : List (List Char)}
    (h : Reads (signature.headerLines ++ lines) lines) : signature.Skipped lines := by
  cases hkind : signature.kind with
  | gpgsigSha256 =>
      have hplain : ∀ line ∈ signature.headerLines, Plain line := by
        unfold CommitSignature.headerLines
        rw [hkind, List.forall_mem_cons]
        exact ⟨plain_sha256 _, fun line hline => plain_of_continued hline⟩
      exact absurd (h.plain_eq_nil hplain) (List.cons_ne_nil _ _)
  | gpgsig =>
      refine ⟨hkind, ?_⟩
      have hkeyword : gpgSigPrefix <+: signature.kind.keyword ++ signature.first.chars := by
        rw [hkind]
        exact List.prefix_append _ _
      have hdrop : (signature.kind.keyword ++ signature.first.chars).drop 7 =
          signature.first.chars := by
        rw [hkind]
        rfl
      rw [CommitSignature.headerLines, List.cons_append] at h
      cases h with
      | header header _ => exact absurd hkeyword (not_gpgSig_of_isHeader header)
      | message plain _ => exact absurd hkeyword (not_gpgSig_of_plain plain)
      | signature _ marked reads =>
          rw [hdrop, afterMark_eq_some_iff] at marked
          obtain ⟨before, closing, behind, hlines, hbefore, hclosing, rfl⟩ := marked
          have hall : signature.lines ++ lines = before ++ closing :: behind := hlines
          have hlength := reads.length_le
          rw [List.length_drop] at hlength
          rcases List.append_eq_append_iff.mp hall with ⟨more, rfl, hmore⟩ | ⟨more, hsignature, hmore⟩
          · -- the mark would be in the message
            have hsame := congrArg List.length hmore
            rw [List.length_append, List.length_cons] at hsame
            omega
          · cases more with
            | nil =>
                have hsame := congrArg List.length hmore
                rw [List.length_cons, List.nil_append] at hsame
                omega
            | cons closing' more =>
                obtain ⟨rfl, rfl⟩ := List.cons.inj hmore
                refine ⟨before, closing, more, hsignature, hbefore, hclosing, ?_⟩
                cases more with
                | nil =>
                    apply Or.inr
                    refine ⟨rfl, List.length_eq_zero_iff.mp ?_⟩
                    change lines.length ≤ lines.length - 1 at hlength
                    omega
                | cons skipped more =>
                    apply Or.inl
                    have hplain : ∀ line ∈ more, Plain line := by
                      intro line hline
                      refine plain_of_continued (?_ : line ∈ signature.continued.map _)
                      unfold CommitSignature.lines at hsignature
                      cases before with
                      | nil =>
                          rw [(List.cons.inj hsignature).2]
                          exact List.mem_cons_of_mem _ hline
                      | cons first before =>
                          rw [(List.cons.inj hsignature).2]
                          simp [hline]
                    have hnil : more = [] := reads.plain_eq_nil hplain
                    rw [hnil]
                    rfl

/-- Such a signature is read, and nothing else. -/
theorem readLines_signature (windows : Bool) (fmt : IntegerText.NumberFormat)
    (state : CommitState) {signature : CommitSignature} {lines : List (List Char)}
    (h : signature.Skipped lines) : ∃ pgpSignature,
      readLines windows fmt state (signature.headerLines ++ lines) =
        readLines windows fmt { state with pgpSignature := some pgpSignature } lines := by
  obtain ⟨hkind, before, closing, behind, hlines, hbefore, hclosing, hbehind⟩ := h
  have hkeyword : gpgSigPrefix <+: signature.kind.keyword ++ signature.first.chars := by
    rw [hkind]
    exact List.prefix_append _ _
  have hdrop : (signature.kind.keyword ++ signature.first.chars).drop 7 =
      signature.first.chars := by
    rw [hkind]
    rfl
  have hmarked : afterMark (signature.lines ++ lines) = some lines := by
    rw [afterMark_eq_some_iff]
    refine ⟨before, closing, behind ++ lines, ?_, hbefore, hclosing, ?_⟩
    · rw [hlines, List.append_assoc, List.cons_append]
    · rcases hbehind with hone | ⟨rfl, rfl⟩
      · obtain ⟨skipped, rfl⟩ := List.length_eq_one_iff.mp hone
        rfl
      · rfl
  rw [CommitSignature.headerLines, List.cons_append]
  obtain ⟨left, pgpSignature, hleft, hrun⟩ | ⟨hnone, -⟩ :=
    readLines_gpgSig windows fmt state hkeyword
      ((signature.continued.map fun line => ' ' :: line.chars) ++ lines)
  · rw [hdrop] at hleft
    have hsame : left = lines := Option.some.inj (hleft.symm.trans hmarked)
    exact ⟨pgpSignature, hsame ▸ hrun⟩
  · rw [hdrop] at hnone
    cases hnone.symm.trans hmarked

theorem readLines_signatureLines (windows : Bool) (fmt : IntegerText.NumberFormat)
    (state : CommitState) {commit : Commit}
    (h : ∀ signature ∈ commit.signature, signature.Skipped (nonemptyLines commit.message)) :
    ∃ pgpSignature, readLines windows fmt state
        (commit.signatureLines ++ nonemptyLines commit.message) =
      readLines windows fmt { state with pgpSignature := pgpSignature }
        (nonemptyLines commit.message) := by
  unfold Commit.signatureLines
  cases hsignature : commit.signature with
  | none => exact ⟨state.pgpSignature, rfl⟩
  | some signature =>
      obtain ⟨pgpSignature, hrun⟩ := readLines_signature windows fmt state (h signature hsignature)
      exact ⟨some pgpSignature, hrun⟩

theorem skipped_of_reads_signatureLines {commit : Commit}
    (h : Reads (commit.signatureLines ++ nonemptyLines commit.message)
      (nonemptyLines commit.message)) :
    ∀ signature ∈ commit.signature, signature.Skipped (nonemptyLines commit.message) := by
  intro signature hsignature
  apply skipped_of_reads
  rw [Commit.signatureLines, Option.mem_def.mp hsignature] at h
  exact h

/-! ## The result -/

theorem readIdent_eq_ok {fmt : IntegerText.NumberFormat} {ident : CommitIdent} {found : Ident}
    (h : readIdent fmt ident.text = .ok found) :
    found.name = Texts.trim ident.name ∧ found.email = Texts.trim ident.email := by
  rw [readIdent_text] at h
  cases hdate : readDate fmt (Nat.toDigits 10 ident.seconds) with
  | error exception =>
      rw [hdate] at h
      cases h
  | ok date =>
      rw [hdate] at h
      cases h
      exact ⟨rfl, rfl⟩

theorem readIdent_of_readable {fmt : IntegerText.NumberFormat}
    (hfmt : ∀ c ∈ fmt.negativeSign.head?, c.isDigit = false) {ident : CommitIdent}
    (h : ident.Readable) : ∃ date, readIdent fmt ident.text = .ok ⟨ident.name, ident.email, some date⟩ ∧
      date.ticks = ident.seconds * ticksPerSecond + unixEpochTicks := by
  obtain ⟨date, hdate, hticks⟩ := readDate_toDigits hfmt h.seconds
  refine ⟨date, ?_, hticks⟩
  rw [readIdent_text, hdate, h.name, h.email]
  rfl

/-- What the header says of somebody is right only if it can be read. -/
theorem readable_of_yields {fmt : IntegerText.NumberFormat} {ident : CommitIdent} {found : Ident}
    (h : readIdent fmt ident.text = .ok found) (hname : some found.name = some ident.name)
    (hemail : some found.email = some ident.email)
    (hdate : found.date.map (·.ticks) =
      some (ident.seconds * ticksPerSecond + unixEpochTicks)) : ident.Readable := by
  obtain ⟨hname', hemail'⟩ := readIdent_eq_ok h
  obtain ⟨date, -, hticks⟩ := Option.map_eq_some_iff.mp hdate
  refine ⟨?_, ?_, seconds_le_of_ticks hticks⟩
  · rw [← hname', Option.some.inj hname]
  · rw [← hemail', Option.some.inj hemail]

/-- An object file of which everything has been read: `commit`, a size, and the text. -/
theorem tryGetFromObjectFile_text (windows : Bool) (fmt : IntegerText.NumberFormat)
    {getString : List UInt8 → List Char} {bytes : List UInt8} {size text : List Char}
    (hbytes : commitByteArray <+: bytes) (hsize : '\x00' ∉ size)
    (hdecoded : getString bytes = "commit ".toList ++ size ++ '\x00' :: text) :
    tryGetFromObjectFile windows fmt getString bytes =
      (commitObject windows fmt text).toOption := by
  have hbuffer : (bytes ++ List.replicate (8192 - bytes.length) 0).take 6 = commitByteArray := by
    obtain ⟨rest, rfl⟩ := hbytes
    rw [List.append_assoc]
    rfl
  have hdata : dataContent (getString bytes) = text := by
    have hheader : ∀ c ∈ "commit ".toList ++ size, decide (c ≠ '\x00') = true := by
      intro c hc
      rw [decide_eq_true_eq]
      rintro rfl
      rcases List.mem_append.mp hc with hword | hc
      · exact absurd hword (by decide)
      · exact hsize hc
    rw [dataContent, hdecoded, if_pos (by simp), List.dropWhile_append_of_pos hheader]
    rfl
  rw [tryGetFromObjectFile, if_pos hbuffer, hdata]

/-- Somebody. -/
def someone : CommitIdent where
  name := "A".toList
  email := "a@b".toList
  seconds := 1
  zone := "+0000".toList
  name_valid := forall_mem_of_all (by decide)
  email_valid := forall_mem_of_all (by decide)
  zone_ne_nil := by decide
  zone_valid := forall_mem_of_all (by decide)

/-- A commit without parents and without a signature. -/
def commitOf (message : String) : Commit where
  tree := ⟨"4b82".toList, by decide⟩
  parents := []
  author := someone
  committer := someone
  signature := none
  message := message.toList

theorem someone_readable : someone.Readable := ⟨by decide, by decide, by decide⟩

end DdTrace.Ci
