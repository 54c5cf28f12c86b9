import DdTrace.Lib.Regex
import DdTrace.Lib.Texts

/-!
# Cleaning branches and tags

* `refRegex`, `cleanBranchAndTag`: the code.
* `findRef`: what the expression finds in a text of one line.
* `cleans_iff`: the branches and tags whose names come out, and stay.

Source: `CIEnvironmentValues.cs`, `CleanBranchAndTag`
-/

namespace DdTrace.Ci

open DdTrace.Lib DdTrace.Lib.Regex

/-! ## The code -/

/-- `Branch` and `Tag`. -/
@[ext]
structure Refs where
  branch : Option String := none
  tag : Option String := none
  deriving DecidableEq, Repr

/-- The regular expression; only its first alternative is anchored at the start of the text, and
only its last one at the end. -/
def refRegex : Regex :=
  .alt (.seq .start (textThen "refs/heads/tags/".toList 1)) <|
  .alt (textThen "refs/heads/".toList 2) <|
  .alt (textThen "refs/tags/".toList 3) <|
  .alt (textThen "refs/".toList 4) <|
  .alt (textThen "origin/tags/".toList 5)
    (.seq (textThen "origin/".toList 6) .finish)

/-- The value of the first of these groups that is not blank, or else of the last group. -/
def chooseGroup (place : Place) (numbers : List Nat) (last : Nat) : String :=
  String.ofList (place.value
    ((numbers.find? fun number => !Texts.isBlank (place.value number)).getD last))

/-- The match of a name that is not empty. -/
def refMatch (name : Option String) : Option Place :=
  if Texts.isNullOrEmpty name then none else refRegex.find (name.getD "").toList

/-- Source: `CIEnvironmentValues.cs`, the first half of `CleanBranchAndTag` -/
def cleanTag (refs : Refs) : Refs :=
  match refMatch refs.tag with
  | some place => { refs with tag := some (chooseGroup place [1, 3, 5, 2] 4) }
  | none => refs

/-- Source: `CIEnvironmentValues.cs`, the second half of `CleanBranchAndTag` -/
def cleanBranch (refs : Refs) : Refs :=
  match refMatch refs.branch with
  | some place =>
      { branch := some (chooseGroup place [2, 4] 6)
        tag :=
          if Texts.isNullOrEmpty refs.tag then some (chooseGroup place [1, 3] 5) else refs.tag }
  | none => refs

/-- The expression has six groups, so that `Groups.Count` is 7 for every match; matching does not
throw.
Source: `CIEnvironmentValues.cs`, `CleanBranchAndTag` -/
def cleanBranchAndTag (refs : Refs) : Refs := cleanBranch (cleanTag refs)

/-! ## What the expression finds -/

/-- The rest of a text behind a literal. -/
def strip (text after : List Char) : Option (List Char) :=
  if text.isPrefixOf after then some (after.drop text.length) else none

/-- What a literal and the rest of the text capture, as the group of this number. -/
def readKind (text after : List Char) (number : Nat) : Option (Nat × List Char) :=
  (strip text after).map (number, ·)

/-- The group that captures something at a place, and what it captures. -/
def readRef (atStart : Bool) (after : List Char) : Option (Nat × List Char) :=
  (if atStart then readKind "refs/heads/tags/".toList after 1 else none).or <|
  (readKind "refs/heads/".toList after 2).or <|
  (readKind "refs/tags/".toList after 3).or <|
  (readKind "refs/".toList after 4).or <|
  (readKind "origin/tags/".toList after 5).or
    (readKind "origin/".toList after 6)

/-- The same at the leftmost place where there is one. -/
def findRef (atStart : Bool) (after : List Char) : Option (Nat × List Char) :=
  match readRef atStart after with
  | some found => some found
  | none =>
      match after with
      | [] => none
      | _ :: rest => findRef false rest

theorem strip_append (text rest : List Char) : strip text (text ++ rest) = some rest := by
  rw [strip, if_pos (List.isPrefixOf_iff_prefix.mpr ⟨rest, rfl⟩), List.drop_left]

theorem strip_eq_some_iff {text after rest : List Char} :
    strip text after = some rest ↔ after = text ++ rest := by
  constructor
  · intro h
    unfold strip at h
    split at h
    case isTrue hpre =>
      obtain ⟨rest', rfl⟩ := List.isPrefixOf_iff_prefix.mp hpre
      rw [List.drop_left] at h
      rw [Option.some.inj h]
    case isFalse => cases h
  · rintro rfl
    exact strip_append text rest

section Reading

variable {place : Place} (hgroups : place.groups = []) (hline : '\n' ∉ place.after)

include hgroups hline

/-- What a literal and the rest of the text capture. -/
theorem groups_textThen (text : List Char) (number : Nat) :
    ((textThen text number).run place).head?.map Place.groups =
      (readKind text place.after number).map ([·]) := by
  unfold readKind
  cases hstrip : strip text place.after with
  | none =>
      have hnot : ¬text <+: place.after := by
        rintro ⟨rest, hrest⟩
        rw [strip_eq_some_iff.mpr hrest.symm] at hstrip
        cases hstrip
      rw [textThen, run_eq_nil_of_not_prefix hnot]
      rfl
  | some rest =>
      have hafter := strip_eq_some_iff.mp hstrip
      have hrest : '\n' ∉ rest := fun hmem => hline (hafter ▸ List.mem_append_right _ hmem)
      rw [head?_run_textThen hafter hrest, hgroups]
      rfl

/-- The end of the text is where the rest of it ends. -/
theorem groups_textThen_finish (text : List Char) (number : Nat) :
    ((Regex.seq (textThen text number) .finish).run place).head?.map Place.groups =
      (readKind text place.after number).map ([·]) := by
  unfold readKind
  cases hstrip : strip text place.after with
  | none =>
      have hnot : ¬text <+: place.after := by
        rintro ⟨rest, hrest⟩
        rw [strip_eq_some_iff.mpr hrest.symm] at hstrip
        cases hstrip
      rw [Regex.run_seq, textThen, run_eq_nil_of_not_prefix hnot]
      rfl
  | some rest =>
      have hafter := strip_eq_some_iff.mp hstrip
      have hrest : '\n' ∉ rest := fun hmem => hline (hafter ▸ List.mem_append_right _ hmem)
      rw [head?_run_seq_finish (head?_run_textThen hafter hrest number) rfl, hgroups]
      rfl

/-- The start of the text is asked for first. -/
theorem groups_start_textThen (text : List Char) (number : Nat) :
    ((Regex.seq .start (textThen text number)).run place).head?.map Place.groups =
      (if decide (place.before = []) = true then readKind text place.after number
        else none).map ([·]) := by
  by_cases hbefore : place.before = []
  · have hrun : (Regex.seq .start (textThen text number)).run place =
        (textThen text number).run place := by
      rw [Regex.run_seq, Regex.run_start, if_pos hbefore, List.flatMap_singleton]
    rw [hrun, if_pos (decide_eq_true hbefore)]
    exact groups_textThen hgroups hline text number
  · have hrun : (Regex.seq .start (textThen text number)).run place = [] := by
      rw [Regex.run_seq, Regex.run_start, if_neg hbefore, List.flatMap_nil]
    rw [hrun, if_neg (by simpa using hbefore)]
    rfl

/-- **At one place.** -/
theorem groups_refRegex :
    (refRegex.run place).head?.map Place.groups =
      (readRef (place.before = []) place.after).map ([·]) := by
  have halt (r s : Regex) : ((Regex.alt r s).run place).head?.map Place.groups =
      ((r.run place).head?.map Place.groups).or ((s.run place).head?.map Place.groups) := by
    rw [Regex.run_alt, List.head?_append, Option.map_or]
  simp only [refRegex, halt, groups_start_textThen hgroups hline, groups_textThen hgroups hline,
    groups_textThen_finish hgroups hline, readRef, Option.map_or]

end Reading

/-- **The match of a line.** -/
theorem groups_search (before : List Char) {after : List Char} (hline : '\n' ∉ after) :
    (refRegex.search before after).map Place.groups =
      (findRef (before = []) after).map ([·]) := by
  induction after generalizing before with
  | nil =>
      have hplace := @groups_refRegex ⟨before, [], []⟩ rfl hline
      rw [search, findRef]
      cases hread : readRef (before = []) [] with
      | none =>
          rw [hread, Option.map_none, Option.map_eq_none_iff] at hplace
          rw [hplace]
          rfl
      | some found =>
          rw [hread] at hplace
          obtain ⟨place, hrun, hgroups⟩ := Option.map_eq_some_iff.mp hplace
          rw [hrun]
          exact congrArg some hgroups
  | cons c rest ih =>
      have hplace := @groups_refRegex ⟨before, c :: rest, []⟩ rfl hline
      rw [search, findRef]
      cases hread : readRef (before = []) (c :: rest) with
      | none =>
          rw [hread, Option.map_none, Option.map_eq_none_iff] at hplace
          rw [hplace]
          exact ih (c :: before) fun hmem => hline (List.mem_cons_of_mem _ hmem)
      | some found =>
          rw [hread] at hplace
          obtain ⟨place, hrun, hgroups⟩ := Option.map_eq_some_iff.mp hplace
          rw [hrun]
          exact congrArg some hgroups

/-- Neither of the two words is in the text. -/
def NoRef (s : List Char) : Prop := ¬"refs/".toList <:+: s ∧ ¬"origin/".toList <:+: s

/-- What is read at a place stands behind one of the two words. -/
theorem readRef_eq_some {atStart : Bool} {s v : List Char} {n : Nat}
    (h : readRef atStart s = some (n, v)) :
    ∃ rest, s = "refs/".toList ++ rest ++ v ∨ s = "origin/".toList ++ rest ++ v := by
  have hkind {text : List Char} {number : Nat} (hread : readKind text s number = some (n, v)) :
      s = text ++ v := by
    obtain ⟨rest, hstrip, heq⟩ := Option.map_eq_some_iff.mp hread
    cases heq
    exact strip_eq_some_iff.mp hstrip
  simp only [readRef, Option.or_eq_some_iff] at h
  rcases h with h | ⟨-, h | ⟨-, h | ⟨-, h | ⟨-, h | ⟨-, h⟩⟩⟩⟩⟩
  · cases atStart with
    | true => exact ⟨"heads/tags/".toList, .inl (hkind h)⟩
    | false => cases h
  · exact ⟨"heads/".toList, .inl (hkind h)⟩
  · exact ⟨"tags/".toList, .inl (hkind h)⟩
  · exact ⟨[], .inl (hkind h)⟩
  · exact ⟨"tags/".toList, .inr (hkind h)⟩
  · exact ⟨[], .inr (hkind h)⟩

/-- One of the two words at a place is read. -/
theorem readRef_isSome {atStart : Bool} {s : List Char}
    (h : "refs/".toList <+: s ∨ "origin/".toList <+: s) : (readRef atStart s).isSome := by
  simp only [readRef, Option.isSome_or, Bool.or_eq_true]
  rcases h with ⟨rest, rfl⟩ | ⟨rest, rfl⟩
  · exact .inr (.inr (.inr (.inl rfl)))
  · exact .inr (.inr (.inr (.inr (.inr rfl))))

/-- **What is found** is shorter than the text. -/
theorem findRef_eq_some {atStart : Bool} {s v : List Char} {n : Nat}
    (h : findRef atStart s = some (n, v)) : v.length < s.length := by
  induction s generalizing atStart with
  | nil => cases atStart <;> cases h
  | cons c rest ih =>
      rw [findRef] at h
      cases hread : readRef atStart (c :: rest) with
      | none =>
          rw [hread] at h
          exact (ih h).trans (Nat.lt_succ_self _)
      | some found =>
          rw [hread] at h
          cases Option.some.inj h
          obtain ⟨between, heq | heq⟩ := readRef_eq_some hread
          · rw [heq, List.length_append, List.length_append]
            have hlength : "refs/".toList.length = 5 := rfl
            omega
          · rw [heq, List.length_append, List.length_append]
            have hlength : "origin/".toList.length = 7 := rfl
            omega

/-- Nothing is found exactly if neither word is there. -/
theorem findRef_eq_none_iff (atStart : Bool) (s : List Char) :
    findRef atStart s = none ↔ NoRef s := by
  induction s generalizing atStart with
  | nil =>
      have hnone : findRef atStart [] = none := by cases atStart <;> rfl
      rw [hnone]
      refine iff_of_true rfl ⟨fun h => ?_, fun h => ?_⟩
      · cases List.infix_nil.mp h
      · cases List.infix_nil.mp h
  | cons c rest ih =>
      have hsplit : NoRef (c :: rest) ↔
          ¬("refs/".toList <+: c :: rest ∨ "origin/".toList <+: c :: rest) ∧ NoRef rest := by
        simp only [NoRef, List.infix_cons_iff]
        tauto
      rw [findRef, hsplit, ← ih false]
      cases hread : readRef atStart (c :: rest) with
      | none =>
          have hnot : ¬("refs/".toList <+: c :: rest ∨ "origin/".toList <+: c :: rest) := by
            intro h
            have hsome : (readRef atStart (c :: rest)).isSome := readRef_isSome h
            rw [hread] at hsome
            cases hsome
          exact ⟨fun h => ⟨hnot, h⟩, fun h => h.2⟩
      | some found =>
          obtain ⟨n, v⟩ := found
          refine iff_of_false (by simp) fun h => h.1 ?_
          obtain ⟨between, heq | heq⟩ := readRef_eq_some hread
          · exact .inl ⟨between ++ v, by rw [heq, List.append_assoc]⟩
          · exact .inr ⟨between ++ v, by rw [heq, List.append_assoc]⟩

/-! ## What is chosen -/

/-- The match of a line captures one group. -/
theorem refMatch_groups {name : String} (hline : '\n' ∉ name.toList) :
    (refMatch (some name)).map Place.groups = (findRef true name.toList).map ([·]) := by
  unfold refMatch
  split
  case isTrue hempty =>
    have hname : name = "" := by simpa [Texts.isNullOrEmpty] using hempty
    rw [hname]
    rfl
  case isFalse => exact groups_search [] hline

/-- The value of the only group that captured something, if it is one of these and not blank, or
else the last one of them. -/
def chosen (numbers : List Nat) (last n : Nat) (v : List Char) : List Char :=
  if n ∈ numbers ∧ Texts.isBlank v = false then v else if n = last then v else []

theorem chooseGroup_eq {place : Place} {n : Nat} {v : List Char} (h : place.groups = [(n, v)])
    (numbers : List Nat) (last : Nat) :
    chooseGroup place numbers last = String.ofList (chosen numbers last n v) := by
  have hvalue (k : Nat) : place.value k = if k = n then v else [] := by
    rw [Place.value, h]
    by_cases hk : k = n
    · subst hk
      simp
    · simp [List.lookup_cons, beq_eq_false_iff_ne.mpr hk, hk]
  unfold chooseGroup chosen
  congr 1
  by_cases hin : n ∈ numbers ∧ Texts.isBlank v = false
  · -- no other group has a value
    have hfind : numbers.find? (fun k => !Texts.isBlank (place.value k)) = some n := by
      obtain ⟨k, hk⟩ : ∃ k, numbers.find? (fun k => !Texts.isBlank (place.value k)) = some k := by
        rw [← Option.isSome_iff_exists, List.find?_isSome]
        refine ⟨n, hin.1, ?_⟩
        rw [hvalue, if_pos rfl, hin.2]
        rfl
      have hkind := List.find?_some hk
      rw [hvalue] at hkind
      by_cases hsame : k = n
      · rw [hk, hsame]
      · rw [if_neg hsame] at hkind
        cases hkind
    rw [hfind, if_pos hin, Option.getD_some, hvalue, if_pos rfl]
  · have hfind : numbers.find? (fun k => !Texts.isBlank (place.value k)) = none := by
      rw [List.find?_eq_none]
      intro k hk
      rw [hvalue]
      by_cases hsame : k = n
      · rw [if_pos hsame, Bool.not_eq_true']
        exact fun hblank => hin ⟨hsame ▸ hk, hblank⟩
      · rw [if_neg hsame]
        exact Bool.false_ne_true
    rw [hfind, if_neg hin, Option.getD_none, hvalue]
    by_cases hsame : last = n
    · rw [if_pos hsame, if_pos hsame.symm]
    · rw [if_neg hsame, if_neg (Ne.symm hsame)]

theorem length_chosen_le (numbers : List Nat) (last n : Nat) (v : List Char) :
    (chosen numbers last n v).length ≤ v.length := by
  unfold chosen
  split
  · exact le_refl _
  · split
    · exact le_refl _
    · exact Nat.zero_le _

/-! ## One cleaning -/

/-- The branch that comes out, of a line. -/
def cleanedBranch (s : List Char) : List Char :=
  match findRef true s with
  | some (n, v) => chosen [2, 4] 6 n v
  | none => s

/-- The tag that comes out, of a line. -/
def cleanedTag (s : List Char) : List Char :=
  match findRef true s with
  | some (n, v) => chosen [1, 3, 5, 2] 4 n v
  | none => s

theorem cleanTag_tag {branch : Option String} {t : String} (hline : '\n' ∉ t.toList) :
    cleanTag ⟨branch, some t⟩ = ⟨branch, some (String.ofList (cleanedTag t.toList))⟩ := by
  have hgroups := refMatch_groups hline
  unfold cleanTag cleanedTag
  cases hfind : findRef true t.toList with
  | none =>
      rw [hfind, Option.map_none, Option.map_eq_none_iff] at hgroups
      rw [hgroups, String.ofList_toList]
  | some found =>
      rw [hfind] at hgroups
      obtain ⟨place, hmatch, hplace⟩ := Option.map_eq_some_iff.mp hgroups
      rw [hmatch]
      simp only [chooseGroup_eq hplace]

theorem cleanTag_branch (refs : Refs) : (cleanTag refs).branch = refs.branch := by
  unfold cleanTag
  split <;> rfl

theorem cleanBranch_branch {b : String} {tag : Option String} (hline : '\n' ∉ b.toList) :
    (cleanBranch ⟨some b, tag⟩).branch = some (String.ofList (cleanedBranch b.toList)) := by
  have hgroups := refMatch_groups hline
  unfold cleanBranch cleanedBranch
  cases hfind : findRef true b.toList with
  | none =>
      rw [hfind, Option.map_none, Option.map_eq_none_iff] at hgroups
      rw [hgroups, String.ofList_toList]
  | some found =>
      rw [hfind] at hgroups
      obtain ⟨place, hmatch, hplace⟩ := Option.map_eq_some_iff.mp hgroups
      rw [hmatch]
      simp only [chooseGroup_eq hplace]

/-- A tag that is there and not empty stays. -/
theorem cleanBranch_tag {branch : Option String} {t : String} (ht : t ≠ "") :
    (cleanBranch ⟨branch, some t⟩).tag = some t := by
  have hnot : Texts.isNullOrEmpty (some t) = false := by simpa [Texts.isNullOrEmpty] using ht
  unfold cleanBranch
  split
  · simp only [hnot, Bool.false_eq_true, if_false]
  · rfl

/-- Where there is no tag, the branch may give one. -/
theorem cleanBranch_tag_null {b : String} (hline : '\n' ∉ b.toList) :
    (cleanBranch ⟨some b, none⟩).tag =
      (findRef true b.toList).map fun found =>
        String.ofList (chosen [1, 3] 5 found.1 found.2) := by
  have hgroups := refMatch_groups hline
  unfold cleanBranch
  cases hfind : findRef true b.toList with
  | none =>
      rw [hfind, Option.map_none, Option.map_eq_none_iff] at hgroups
      rw [hgroups, Option.map_none]
  | some found =>
      rw [hfind] at hgroups
      obtain ⟨place, hmatch, hplace⟩ := Option.map_eq_some_iff.mp hgroups
      rw [hmatch, Option.map_some]
      simp only [chooseGroup_eq hplace]
      rfl

/-- A branch without either word is left alone, and so is the tag. -/
theorem cleanBranch_of_noRef {b : String} (hline : '\n' ∉ b.toList) (h : NoRef b.toList)
    (tag : Option String) : cleanBranch ⟨some b, tag⟩ = ⟨some b, tag⟩ := by
  have hgroups := refMatch_groups hline
  rw [(findRef_eq_none_iff true _).mpr h, Option.map_none, Option.map_eq_none_iff] at hgroups
  unfold cleanBranch
  rw [hgroups]

theorem cleanBranch_null (tag : Option String) : cleanBranch ⟨none, tag⟩ = ⟨none, tag⟩ := rfl

theorem cleanTag_null (branch : Option String) : cleanTag ⟨branch, none⟩ = ⟨branch, none⟩ := rfl

/-! ## Names behind their prefixes -/

theorem strip_append_append (p q s : List Char) : strip (p ++ q) (p ++ s) = strip q s := by
  cases h : strip q s with
  | some rest =>
      rw [strip_eq_some_iff, strip_eq_some_iff.mp h, List.append_assoc]
  | none =>
      cases h' : strip (p ++ q) (p ++ s) with
      | none => rfl
      | some rest =>
          rw [strip_eq_some_iff, List.append_assoc, List.append_cancel_left_eq] at h'
          rw [strip_eq_some_iff.mpr h'] at h
          cases h

theorem findRef_of_readRef {atStart : Bool} {s : List Char} {found : Nat × List Char}
    (h : readRef atStart s = some found) : findRef atStart s = some found := by
  unfold findRef
  rw [h]

/-- Behind `refs/heads/` there is a branch, unless it looks like a tag. -/
theorem findRef_refsHeads (name : List Char) :
    findRef true ("refs/heads/".toList ++ name) =
      match strip "tags/".toList name with
      | some tag => some (1, tag)
      | none => some (2, name) := by
  have hstrip : strip "refs/heads/tags/".toList ("refs/heads/".toList ++ name) =
      strip "tags/".toList name := strip_append_append "refs/heads/".toList "tags/".toList name
  have hread : readRef true ("refs/heads/".toList ++ name) =
      ((strip "tags/".toList name).map (1, ·)).or (some (2, name)) := by
    rw [readRef, if_pos rfl, readKind, hstrip]
    rfl
  cases htags : strip "tags/".toList name with
  | some tag => exact findRef_of_readRef (by rw [hread, htags]; rfl)
  | none => exact findRef_of_readRef (by rw [hread, htags]; rfl)

/-- Behind `origin/` there is a branch, unless it looks like a tag. -/
theorem findRef_origin (name : List Char) :
    findRef true ("origin/".toList ++ name) =
      match strip "tags/".toList name with
      | some tag => some (5, tag)
      | none => some (6, name) := by
  have hstrip : strip "origin/tags/".toList ("origin/".toList ++ name) =
      strip "tags/".toList name := strip_append_append "origin/".toList "tags/".toList name
  have hread : readRef true ("origin/".toList ++ name) =
      ((strip "tags/".toList name).map (5, ·)).or (some (6, name)) := by
    have hskip : readRef true ("origin/".toList ++ name) =
        (readKind "origin/tags/".toList ("origin/".toList ++ name) 5).or (some (6, name)) := rfl
    rw [hskip, readKind, hstrip]
  cases htags : strip "tags/".toList name with
  | some tag => exact findRef_of_readRef (by rw [hread, htags]; rfl)
  | none => exact findRef_of_readRef (by rw [hread, htags]; rfl)

theorem findRef_refsTags (name : List Char) :
    findRef true ("refs/tags/".toList ++ name) = some (3, name) := findRef_of_readRef rfl

theorem findRef_refsHeadsTags (name : List Char) :
    findRef true ("refs/heads/tags/".toList ++ name) = some (1, name) := findRef_of_readRef rfl

/-- The tag behind its prefix comes out, unless it is blank. -/
theorem cleanedTag_eq {p name : List Char}
    (hp : p = "refs/tags/".toList ∨ p = "refs/heads/tags/".toList) :
    cleanedTag (p ++ name) = if Texts.isBlank name then [] else name := by
  have hchosen {n : Nat} (hn : n ∈ [1, 3]) :
      chosen [1, 3, 5, 2] 4 n name = if Texts.isBlank name then [] else name := by
    unfold chosen
    cases Texts.isBlank name with
    | true =>
        rw [if_neg (by simp), if_neg (by rintro rfl; simp at hn)]
        rfl
    | false =>
        rw [if_pos ⟨by simp at hn ⊢; tauto, rfl⟩]
        rfl
  rcases hp with rfl | rfl
  · rw [cleanedTag, findRef_refsTags]
    exact hchosen (by simp)
  · rw [cleanedTag, findRef_refsHeadsTags]
    exact hchosen (by simp)

/-- The branch behind `refs/heads/` comes out, unless it is blank or looks like a tag. -/
theorem cleanedBranch_refsHeads (name : List Char) :
    cleanedBranch ("refs/heads/".toList ++ name) =
      if (strip "tags/".toList name).isSome ∨ Texts.isBlank name then [] else name := by
  rw [cleanedBranch, findRef_refsHeads]
  cases strip "tags/".toList name with
  | some tag => simp [chosen]
  | none =>
      by_cases hblank : Texts.isBlank name = true
      · simp [chosen, hblank]
      · simp [chosen, hblank]

/-- The branch behind `origin/` comes out, unless it looks like a tag. -/
theorem cleanedBranch_origin (name : List Char) :
    cleanedBranch ("origin/".toList ++ name) =
      if (strip "tags/".toList name).isSome then [] else name := by
  rw [cleanedBranch, findRef_origin]
  cases strip "tags/".toList name with
  | some tag => simp [chosen]
  | none => simp [chosen]

theorem cleanedBranch_of_noRef {s : List Char} (h : NoRef s) : cleanedBranch s = s := by
  rw [cleanedBranch, (findRef_eq_none_iff true s).mpr h]

theorem cleanedTag_of_noRef {s : List Char} (h : NoRef s) : cleanedTag s = s := by
  rw [cleanedTag, (findRef_eq_none_iff true s).mpr h]

/-- What has one of the two words in it does not stay. -/
theorem noRef_of_cleanedBranch {s : List Char} (h : cleanedBranch s = s) : NoRef s := by
  cases hfind : findRef true s with
  | none => exact (findRef_eq_none_iff true s).mp hfind
  | some found =>
      have hlt := findRef_eq_some hfind
      have hle := length_chosen_le [2, 4] 6 found.1 found.2
      rw [cleanedBranch, hfind] at h
      have hsame := congrArg List.length h
      change (chosen [2, 4] 6 found.1 found.2).length = s.length at hsame
      omega

theorem noRef_of_cleanedTag {s : List Char} (h : cleanedTag s = s) : NoRef s := by
  cases hfind : findRef true s with
  | none => exact (findRef_eq_none_iff true s).mp hfind
  | some found =>
      have hlt := findRef_eq_some hfind
      have hle := length_chosen_le [1, 3, 5, 2] 4 found.1 found.2
      rw [cleanedTag, hfind] at h
      have hsame := congrArg List.length h
      change (chosen [1, 3, 5, 2] 4 found.1 found.2).length = s.length at hsame
      omega

/-! ## Names that come out and stay -/

/-- The branch `B` as the providers write it. -/
def branchRefs (B : String) : List String := [B, "refs/heads/" ++ B, "origin/" ++ B]

/-- The tag `T` as the providers write it. -/
def tagRefs (T : String) : List String := ["refs/tags/" ++ T, "refs/heads/tags/" ++ T]

/-- The branch `B` and the tag `T` come out, and another cleaning changes nothing. -/
structure Cleans (B T : String) : Prop where
  branch : ∀ ref ∈ branchRefs B, ∀ tag, (cleanBranchAndTag ⟨some ref, tag⟩).branch = some B
  tag : ∀ ref ∈ tagRefs T, ∀ branch, (cleanBranchAndTag ⟨branch, some ref⟩).tag = some T
  again : ∀ branch ∈ none :: (branchRefs B).map some, ∀ tag ∈ none :: (tagRefs T).map some,
    cleanBranchAndTag (cleanBranchAndTag ⟨branch, tag⟩) = cleanBranchAndTag ⟨branch, tag⟩

/-- The branches that come out and stay. -/
structure PlainBranch (B : String) : Prop where
  noRef : NoRef B.toList
  noTag : ¬"tags/".toList <+: B.toList
  notBlank : B = "" ∨ Texts.isBlank B.toList = false

/-- The tags that come out and stay. -/
structure PlainTag (T : String) : Prop where
  noRef : NoRef T.toList
  notBlank : Texts.isBlank T.toList = false

section Plain

variable {B T : String} (hB : '\n' ∉ B.toList) (hT : '\n' ∉ T.toList)

include hB in
theorem newline_not_mem_branchRefs {ref : String} (href : ref ∈ branchRefs B) :
    '\n' ∉ ref.toList := by
  simp only [branchRefs, List.mem_cons, List.not_mem_nil, or_false] at href
  rcases href with rfl | rfl | rfl
  · exact hB
  · rw [String.toList_append, List.mem_append]
    rintro (h | h)
    · simp at h
    · exact hB h
  · rw [String.toList_append, List.mem_append]
    rintro (h | h)
    · simp at h
    · exact hB h

include hT in
theorem newline_not_mem_tagRefs {ref : String} (href : ref ∈ tagRefs T) : '\n' ∉ ref.toList := by
  simp only [tagRefs, List.mem_cons, List.not_mem_nil, or_false] at href
  rcases href with rfl | rfl
  · rw [String.toList_append, List.mem_append]
    rintro (h | h)
    · simp at h
    · exact hT h
  · rw [String.toList_append, List.mem_append]
    rintro (h | h)
    · simp at h
    · exact hT h

theorem cleanedBranch_eq_of_plain (h : PlainBranch B) {ref : String} (href : ref ∈ branchRefs B) :
    cleanedBranch ref.toList = B.toList := by
  have hstrip : strip "tags/".toList B.toList = none := by
    rw [strip, if_neg fun hpre => h.noTag (List.isPrefixOf_iff_prefix.mp hpre)]
  simp only [branchRefs, List.mem_cons, List.not_mem_nil, or_false] at href
  rcases href with rfl | rfl | rfl
  · exact cleanedBranch_of_noRef h.noRef
  · rw [String.toList_append, cleanedBranch_refsHeads, hstrip]
    rcases h.notBlank with rfl | hblank
    · rfl
    · rw [if_neg (by simp [hblank])]
  · rw [String.toList_append, cleanedBranch_origin, hstrip]
    rfl

theorem cleanedTag_eq_of_plain (h : PlainTag T) {ref : String} (href : ref ∈ tagRefs T) :
    cleanedTag ref.toList = T.toList := by
  simp only [tagRefs, List.mem_cons, List.not_mem_nil, or_false] at href
  rcases href with rfl | rfl
  · rw [String.toList_append, cleanedTag_eq (.inl rfl), if_neg (by simp [h.notBlank])]
  · rw [String.toList_append, cleanedTag_eq (.inr rfl), if_neg (by simp [h.notBlank])]

theorem PlainTag.ne_empty (h : PlainTag T) : T ≠ "" := by
  rintro rfl
  exact absurd h.notBlank (by decide)

include hB in
/-- What a plain branch gives, whatever the tag is. -/
theorem cleanBranchAndTag_branch (h : PlainBranch B) {ref : String} (href : ref ∈ branchRefs B)
    (tag : Option String) : (cleanBranchAndTag ⟨some ref, tag⟩).branch = some B := by
  have hbranch : (cleanTag ⟨some ref, tag⟩).branch = some ref := cleanTag_branch _
  rw [cleanBranchAndTag]
  generalize cleanTag ⟨some ref, tag⟩ = refs at hbranch ⊢
  obtain ⟨branch, tag'⟩ := refs
  change branch = some ref at hbranch
  rw [hbranch, cleanBranch_branch (newline_not_mem_branchRefs hB href),
    cleanedBranch_eq_of_plain h href, String.ofList_toList]

include hT in
/-- What a plain tag gives, whatever the branch is. -/
theorem cleanBranchAndTag_tag (h : PlainTag T) {ref : String} (href : ref ∈ tagRefs T)
    (branch : Option String) : (cleanBranchAndTag ⟨branch, some ref⟩).tag = some T := by
  rw [cleanBranchAndTag, cleanTag_tag (newline_not_mem_tagRefs hT href),
    cleanedTag_eq_of_plain h href, String.ofList_toList, cleanBranch_tag h.ne_empty]

include hB in
/-- A plain branch gives no tag. -/
theorem cleanBranchAndTag_tag_null (h : PlainBranch B) {ref : String} (href : ref ∈ branchRefs B) :
    (cleanBranchAndTag ⟨some ref, none⟩).tag = none ∨
      (cleanBranchAndTag ⟨some ref, none⟩).tag = some "" := by
  have hstrip : strip "tags/".toList B.toList = none := by
    rw [strip, if_neg fun hpre => h.noTag (List.isPrefixOf_iff_prefix.mp hpre)]
  rw [cleanBranchAndTag, cleanTag_null, cleanBranch_tag_null (newline_not_mem_branchRefs hB href)]
  simp only [branchRefs, List.mem_cons, List.not_mem_nil, or_false] at href
  rcases href with rfl | rfl | rfl
  · rw [(findRef_eq_none_iff true _).mpr h.noRef]
    exact .inl rfl
  · rw [String.toList_append, findRef_refsHeads, hstrip]
    exact .inr (by simp [chosen])
  · rw [String.toList_append, findRef_origin, hstrip]
    exact .inr (by simp [chosen])

include hB hT in
/-- A plain branch and a tag that is plain, empty or not there are left alone. -/
theorem cleanBranchAndTag_plain (hbranch : PlainBranch B) (htag : NoRef T.toList) :
    cleanBranchAndTag ⟨some B, some T⟩ = ⟨some B, some T⟩ := by
  rw [cleanBranchAndTag, cleanTag_tag hT, cleanedTag_of_noRef htag, String.ofList_toList,
    cleanBranch_of_noRef hB hbranch.noRef]

end Plain

theorem PlainBranch.of_cleans {B T : String} (hB : '\n' ∉ B.toList) (h : Cleans B T) :
    PlainBranch B := by
  have hcleaned (ref : String) (href : ref ∈ branchRefs B) : cleanedBranch ref.toList = B.toList := by
    have hbranch := h.branch ref href none
    rw [cleanBranchAndTag, cleanTag_null,
      cleanBranch_branch (newline_not_mem_branchRefs hB href)] at hbranch
    rw [← Option.some.inj hbranch, String.toList_ofList]
  have hsame := hcleaned B (List.mem_cons_self ..)
  have hheads := hcleaned ("refs/heads/" ++ B) (by simp [branchRefs])
  rw [String.toList_append, cleanedBranch_refsHeads] at hheads
  refine ⟨noRef_of_cleanedBranch hsame, ?_, ?_⟩
  · rintro ⟨rest, hrest⟩
    have hstrip := strip_eq_some_iff.mpr hrest.symm
    rw [if_pos (.inl (by rw [hstrip]; rfl)), ← hrest] at hheads
    cases hheads
  · by_cases hblank : Texts.isBlank B.toList = true
    · rw [if_pos (.inr hblank)] at hheads
      exact .inl (String.toList_eq_nil_iff.mp hheads.symm)
    · exact .inr (Bool.not_eq_true _ ▸ hblank)

theorem PlainTag.of_cleans {B T : String} (hT : '\n' ∉ T.toList) (h : Cleans B T) : PlainTag T := by
  have href : "refs/tags/" ++ T ∈ tagRefs T := List.mem_cons_self ..
  have hclean : cleanBranchAndTag ⟨none, some ("refs/tags/" ++ T)⟩ =
      ⟨none, some (String.ofList (cleanedTag ("refs/tags/" ++ T).toList))⟩ := by
    rw [cleanBranchAndTag, cleanTag_tag (newline_not_mem_tagRefs hT href), cleanBranch_null]
  have htag := h.tag _ href none
  rw [hclean] at htag
  have hcleaned := Option.some.inj htag
  refine ⟨?_, ?_⟩
  · have hagain := h.again none (by simp) (some ("refs/tags/" ++ T)) (by simp [tagRefs])
    rw [hclean, hcleaned, cleanBranchAndTag, cleanTag_tag hT, cleanBranch_null] at hagain
    have hsame := congrArg String.toList (Option.some.inj (congrArg Refs.tag hagain))
    exact noRef_of_cleanedTag (by rwa [String.toList_ofList] at hsame)
  · by_contra hblank
    have hcleanedTag := @cleanedTag_eq _ T.toList (.inl rfl)
    rw [if_pos (Bool.of_not_eq_false hblank), ← String.toList_append] at hcleanedTag
    have hempty : T = "" := by
      rw [← hcleaned]
      exact congrArg String.ofList hcleanedTag
    subst hempty
    -- a branch that looks like a tag takes the place of the empty tag
    have hother := h.tag "refs/tags/" (List.mem_cons_self ..) (some "refs/tags/x")
    exact absurd hother (by decide)

/-- **Ref cleaning.** Exactly the plain names come out and stay. -/
theorem cleans_iff {B T : String} (hB : '\n' ∉ B.toList) (hT : '\n' ∉ T.toList) :
    Cleans B T ↔ PlainBranch B ∧ PlainTag T := by
  constructor
  · exact fun h => ⟨.of_cleans hB h, .of_cleans hT h⟩
  · rintro ⟨hbranch, htag⟩
    refine ⟨fun ref href tag => cleanBranchAndTag_branch hB hbranch href tag,
      fun ref href branch => cleanBranchAndTag_tag hT htag href branch, ?_⟩
    intro branch hmemBranch tag hmemTag
    rcases List.mem_cons.mp hmemBranch with rfl | hmemBranch
    · rcases List.mem_cons.mp hmemTag with rfl | hmemTag
      · rfl
      · obtain ⟨ref, href, rfl⟩ := List.mem_map.mp hmemTag
        have hclean : cleanBranchAndTag ⟨none, some ref⟩ = ⟨none, some T⟩ := by
          rw [cleanBranchAndTag, cleanTag_tag (newline_not_mem_tagRefs hT href),
            cleanedTag_eq_of_plain htag href, String.ofList_toList, cleanBranch_null]
        rw [hclean, cleanBranchAndTag, cleanTag_tag hT, cleanedTag_of_noRef htag.noRef,
          String.ofList_toList, cleanBranch_null]
    · obtain ⟨ref, href, rfl⟩ := List.mem_map.mp hmemBranch
      have hclean (tag : Option String) := cleanBranchAndTag_branch hB hbranch href tag
      rcases List.mem_cons.mp hmemTag with rfl | hmemTag
      · obtain hnone | hempty := cleanBranchAndTag_tag_null hB hbranch href
        · have hrefs : cleanBranchAndTag ⟨some ref, none⟩ = ⟨some B, none⟩ :=
            Refs.ext (hclean none) hnone
          rw [hrefs, cleanBranchAndTag, cleanTag_null, cleanBranch_of_noRef hB hbranch.noRef]
        · have hrefs : cleanBranchAndTag ⟨some ref, none⟩ = ⟨some B, some ""⟩ :=
            Refs.ext (hclean none) hempty
          rw [hrefs]
          exact cleanBranchAndTag_plain hB (by simp) hbranch
            ((findRef_eq_none_iff true _).mp rfl)
      · obtain ⟨ref', href', rfl⟩ := List.mem_map.mp hmemTag
        have htag' := cleanBranchAndTag_tag hT htag href' (some ref)
        have hrefs : cleanBranchAndTag ⟨some ref, some ref'⟩ = ⟨some B, some T⟩ :=
          Refs.ext (hclean (some ref')) htag'
        rw [hrefs]
        exact cleanBranchAndTag_plain hB hT hbranch htag.noRef

/-- A branch and a tag that come out and stay. -/
theorem cleans_iff_main : Cleans "feature/x" "v1.0" :=
  (cleans_iff (by decide) (by decide)).mpr
    ⟨⟨by unfold NoRef; decide, by decide, .inr (by decide)⟩,
      ⟨by unfold NoRef; decide, by decide⟩⟩

/-- A branch with `origin/` in its name loses what stands before it. -/
theorem not_cleans_inner_origin : ¬Cleans "feature/origin/x" "v1.0" := by
  intro h
  exact absurd (h.branch "feature/origin/x" (List.mem_cons_self ..) none) (by decide)

end DdTrace.Ci
