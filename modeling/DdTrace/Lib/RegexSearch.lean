import DdTrace.Lib.RegexLanguage

/-!
# Searching a text in parts

* `Regex.fullMatch`: the match of a text as a whole.
* `Avoids`: no text of the expression has a character.
* `search_append`: the parts of a text between such characters are searched one after another.
* `head?_run_seq`, `head?_run_captureOf`, `head?_run_capturePlus`: the first way.
* `search_eq_none`: a literal that does not occur.
* `reads_value_of_fullMatch`: what is captured is a text of the group.
-/

namespace DdTrace.Lib.Regex

/-- The match of a text as a whole. -/
def fullMatch (r : Regex) (text : List Char) : Option Place :=
  (r.run ⟨[], text, []⟩).find? fun next => next.after.isEmpty

/-! ## Characters that an expression does not read -/

/-- No text of the expression has the character. -/
def Avoids (c : Char) : Regex → Prop
  | literal text => c ∉ text
  | start | finish => False
  | one p | many p => p c = false
  | group _ body => body.Avoids c
  | seq first second | alt first second => first.Avoids c ∧ second.Avoids c

/-- A place in a longer text. -/
def Place.extend (place : Place) (more : List Char) : Place :=
  { place with after := place.after ++ more }

section avoids

variable {c : Char} (rest : List Char)

theorem runMany_extend {p : Char → Bool} (h : p c = false) (before after : List Char)
    (groups : List (Nat × List Char)) :
    runMany p before (after ++ c :: rest) groups =
      (runMany p before after groups).map (·.extend (c :: rest)) := by
  induction after generalizing before with
  | nil =>
      have hrun : runMany p before (c :: rest) groups = [⟨before, c :: rest, groups⟩] :=
        if_neg (Bool.eq_false_iff.mp h)
      rw [List.nil_append, hrun]
      rfl
  | cons d after ih =>
      rw [List.cons_append, runMany, runMany]
      by_cases hd : p d = true
      · rw [if_pos hd, if_pos hd, ih, List.map_append]
        rfl
      · rw [if_neg hd, if_neg hd]
        rfl

/-- A text without the character is a prefix where it was one before. -/
theorem isPrefixOf_extend {text : List Char} (h : c ∉ text) (after : List Char) :
    text.isPrefixOf (after ++ c :: rest) = text.isPrefixOf after := by
  induction text generalizing after with
  | nil => rw [List.isPrefixOf_nil_left, List.isPrefixOf_nil_left]
  | cons d text ih =>
      rw [List.mem_cons, not_or] at h
      cases after with
      | nil =>
          have hne : (d == c) = false := beq_eq_false_iff_ne.mpr (Ne.symm h.1)
          rw [List.nil_append, List.isPrefixOf_cons_cons, hne]
          rfl
      | cons e after =>
          rw [List.cons_append, List.isPrefixOf_cons_cons, List.isPrefixOf_cons_cons, ih h.2]

/-- **The ways of an expression** end in front of a character that it does not read. -/
theorem run_extend {r : Regex} (h : r.Avoids c) (place : Place) :
    r.run (place.extend (c :: rest)) = (r.run place).map (·.extend (c :: rest)) := by
  induction r generalizing place with
  | literal text =>
      have hinitial := isPrefixOf_extend rest h place.after
      rw [run_literal, run_literal]
      show (if text.isPrefixOf (place.after ++ c :: rest) then _ else _) = _
      rw [hinitial]
      split
      case isTrue hpre =>
        obtain ⟨more, hmore⟩ := List.isPrefixOf_iff_prefix.mp hpre
        have hdrop : (place.after ++ c :: rest).drop text.length =
            place.after.drop text.length ++ c :: rest := by
          rw [← hmore, List.append_assoc, List.drop_left, List.drop_left]
        simp only [List.map_cons, List.map_nil, Place.extend, Place.skip, hdrop]
      case isFalse => rfl
  | start => exact h.elim
  | finish => exact h.elim
  | one p =>
      rw [run_one, run_one]
      obtain ⟨before, after, groups⟩ := place
      cases after with
      | nil =>
          have hc : ¬p c = true := Bool.eq_false_iff.mp h
          simp [Place.extend, runOne, hc]
      | cons d after =>
          simp only [Place.extend, List.cons_append, runOne]
          split <;> rfl
  | many p => exact runMany_extend rest h place.before place.after place.groups
  | group number body ih =>
      rw [run_group, run_group, ih h, List.map_map, List.map_map]
      rfl
  | seq first second ih₁ ih₂ =>
      rw [run_seq, run_seq, ih₁ h.1, List.flatMap_map, List.map_flatMap]
      exact congrArg (List.flatMap · (first.run place)) (funext fun next => ih₂ h.2 next)
  | alt first second ih₁ ih₂ =>
      rw [run_alt, run_alt, ih₁ h.1, ih₂ h.2, List.map_append]

/-- **A text is searched in parts**, up to a character that the expression does not read and from
there on. -/
theorem search_append {r : Regex} (h : r.Avoids c) (before s : List Char) :
    r.search before (s ++ c :: rest) =
      ((r.search before s).map (·.extend (c :: rest))).or
        (r.search (c :: (s.reverse ++ before)) rest) := by
  induction s generalizing before with
  | nil =>
      have hrun := run_extend rest h ⟨before, [], []⟩
      rw [List.nil_append, search.eq_def r before (c :: rest), search.eq_def r before []]
      simp only [Place.extend, List.nil_append] at hrun
      rw [hrun, List.head?_map]
      cases (r.run ⟨before, [], []⟩).head? with
      | none => rfl
      | some place => rfl
  | cons d s ih =>
      have hrun := run_extend rest h ⟨before, d :: s, []⟩
      rw [List.cons_append, search.eq_def r before (d :: (s ++ c :: rest)),
        search.eq_def r before (d :: s)]
      simp only [Place.extend, List.cons_append] at hrun
      rw [hrun, List.head?_map]
      cases (r.run ⟨before, d :: s, []⟩).head? with
      | none =>
          simp only [Option.map_none]
          rw [ih, List.reverse_cons, List.append_assoc]
          rfl
      | some place => rfl

/-- A text with such a character does not match as a whole. -/
theorem fullMatch_eq_none {r : Regex} (h : r.Avoids c) {text : List Char} (hc : c ∈ text) :
    r.fullMatch text = none := by
  obtain ⟨s, more, rfl⟩ := List.append_of_mem hc
  rw [fullMatch, List.find?_eq_none]
  intro next hnext
  have hrun := run_extend more h ⟨[], s, []⟩
  rw [Place.extend] at hrun
  rw [hrun, List.mem_map] at hnext
  obtain ⟨place, -, rfl⟩ := hnext
  simp [Place.extend]

end avoids

/-! ## The first way -/

theorem head?_run_seq {first second : Regex} {place mid next : Place}
    (hmid : (first.run place).head? = some mid) (hnext : (second.run mid).head? = some next) :
    ((seq first second).run place).head? = some next := by
  obtain ⟨others, hothers⟩ := List.head?_eq_some_iff.mp hmid
  rw [run_seq, hothers, List.flatMap_cons, List.head?_append, hnext]
  rfl

theorem head?_run_literal {text rest : List Char} {place : Place} (h : place.after = text ++ rest) :
    ((literal text).run place).head? =
      some ⟨text.reverse ++ place.before, rest, place.groups⟩ := by
  have hpre : text.isPrefixOf place.after = true := List.isPrefixOf_iff_prefix.mpr ⟨rest, h.symm⟩
  rw [run_literal, if_pos hpre, Place.skip, h, List.drop_left]
  rfl

/-- What a group captures. -/
theorem head?_run_captureOf {body : Regex} {s rest : List Char} {place : Place}
    (h : (body.run place).head? = some ⟨s.reverse ++ place.before, rest, place.groups⟩)
    (number : Nat) :
    ((group number body).run place).head? =
      some ⟨s.reverse ++ place.before, rest, (number, s) :: place.groups⟩ := by
  rw [run_group, List.head?_map, h]
  simp

/-- A run of characters of a class is read to its end. -/
theorem head?_run_many {p : Char → Bool} {s rest : List Char} (hs : ∀ c ∈ s, p c = true)
    (hrest : ∀ c ∈ rest.head?, p c = false) (before : List Char)
    (groups : List (Nat × List Char)) :
    ((many p).run ⟨before, s ++ rest, groups⟩).head? =
      some ⟨s.reverse ++ before, rest, groups⟩ := by
  cases rest with
  | nil =>
      rw [List.append_nil]
      exact head?_runMany hs before groups
  | cons c rest =>
      have hhead : (runMany p before (s ++ c :: rest) groups).head? =
          ((runMany p before s groups).map (·.extend (c :: rest))).head? :=
        congrArg List.head? (runMany_extend rest (hrest c rfl) before s groups)
      rw [List.head?_map, head?_runMany hs] at hhead
      exact hhead

/-- A group reads a run of characters of a class to its end. -/
theorem head?_run_capturePlus {p : Char → Bool} {s rest : List Char} (hne : s ≠ [])
    (hs : ∀ c ∈ s, p c = true) (hrest : ∀ c ∈ rest.head?, p c = false) (before : List Char)
    (groups : List (Nat × List Char)) (number : Nat) :
    ((group number (plus p)).run ⟨before, s ++ rest, groups⟩).head? =
      some ⟨s.reverse ++ before, rest, (number, s) :: groups⟩ := by
  refine head?_run_captureOf ?_ number
  cases s with
  | nil => exact absurd rfl hne
  | cons c s =>
      rw [List.forall_mem_cons] at hs
      have hone : ((one p).run ⟨before, c :: (s ++ rest), groups⟩).head? =
          some ⟨c :: before, s ++ rest, groups⟩ := by
        rw [run_one, runOne, if_pos hs.1]
        rfl
      refine head?_run_seq hone ?_
      rw [head?_run_many hs.2 hrest, List.reverse_cons, List.append_assoc]
      rfl

theorem search_of_head? {r : Regex} {before s : List Char} {place : Place}
    (h : (r.run ⟨before, s, []⟩).head? = some place) : r.search before s = some place := by
  unfold search
  rw [h]

/-- A literal that does not begin here is looked for behind the next character. -/
theorem search_cons {text : List Char} {c : Char} {s : List Char} (h : ¬text <+: c :: s) (r : Regex)
    (before : List Char) :
    (seq (literal text) r).search before (c :: s) =
      (seq (literal text) r).search (c :: before) s := by
  rw [search.eq_def, run_eq_nil_of_not_prefix h]
  rfl

/-- A literal that does not occur is not found. -/
theorem search_eq_none {text s : List Char} (h : ¬text <:+: s) (r : Regex) (before : List Char) :
    (seq (literal text) r).search before s = none := by
  induction s generalizing before with
  | nil =>
      rw [search.eq_def, run_eq_nil_of_not_prefix fun hpre => h hpre.isInfix]
      rfl
  | cons c s ih =>
      rw [search_cons fun hpre => h hpre.isInfix]
      exact ih (fun hin => h (hin.trans (List.suffix_cons c s).isInfix)) _

/-! ## What is captured -/

theorem mem_run_of_search {r : Regex} {before s : List Char} {place : Place}
    (h : r.search before s = some place) :
    ∃ before after, place ∈ r.run ⟨before, after, []⟩ := by
  induction s generalizing before with
  | nil =>
      rw [search.eq_def] at h
      cases hhead : (r.run ⟨before, [], []⟩).head? with
      | none =>
          rw [hhead] at h
          cases h
      | some found =>
          rw [hhead] at h
          obtain rfl := Option.some.inj h
          exact ⟨before, [], List.mem_of_mem_head? hhead⟩
  | cons c s ih =>
      rw [search.eq_def] at h
      cases hhead : (r.run ⟨before, c :: s, []⟩).head? with
      | none =>
          rw [hhead] at h
          exact ih h
      | some found =>
          rw [hhead] at h
          obtain rfl := Option.some.inj h
          exact ⟨before, c :: s, List.mem_of_mem_head? hhead⟩

section captures

variable {text : List Char} {body : Regex} (hbody : body.Plain) {number : Nat} {place : Place}

include hbody

theorem reads_value_of_mem {start : Place}
    (h : place ∈ (seq (literal text) (group number body)).run start) :
    body.Reads (place.value number) := by
  rw [run_seq, List.mem_flatMap] at h
  obtain ⟨mid, -, hplace⟩ := h
  rw [run_group, List.mem_map] at hplace
  obtain ⟨inner, hinner, rfl⟩ := hplace
  obtain ⟨s, rest, -, hs, rfl⟩ := (mem_run_iff hbody).mp hinner
  have hvalue : s = ((s.reverse ++ mid.before).take
      ((s.reverse ++ mid.before).length - mid.before.length)).reverse := by
    simp
  simp only [Place.value, List.lookup_cons_self, Option.getD_some]
  rw [← hvalue]
  exact hs

end captures

end DdTrace.Lib.Regex
