import Mathlib.Data.List.Infix
import Mathlib.Tactic.Common

/-!
# Regular expressions that backtrack

Regular expressions with numbered groups, as an engine reads them that tries alternatives in order
and repetitions from the longest on. What is repeated is a character of a class.

* `Regex.run`: all ways to go on from a place, in the order in which they are tried.
* `Regex.find`: the match: the first way from the leftmost place that has one.
* `head?_run_textThen`, `head?_run_seq_finish`: the first way to read a literal and capture the rest
  of the text.
* `run_eq_nil_of_not_prefix`: a literal that is not there.
* `suffix_of_mem_run`: a way goes forward in the text.
* `find_of_anchored`, `find_start`: an expression that begins with `^`.
* `run_times_one`: a number of characters of a class.
-/

namespace DdTrace.Lib

/-- A regular expression. -/
inductive Regex
  /-- These characters. -/
  | literal (text : List Char)
  /-- `^`. -/
  | start
  /-- `$`. -/
  | finish
  /-- One character of a class. -/
  | one (p : Char → Bool)
  /-- Any number of characters of a class. -/
  | many (p : Char → Bool)
  /-- A numbered group. -/
  | group (number : Nat) (body : Regex)
  /-- One after the other. -/
  | seq (first second : Regex)
  /-- One or else the other. -/
  | alt (first second : Regex)

namespace Regex

/-- `.*`. -/
def dots : Regex := many (· ≠ '\n')

/-- `{n}`. -/
def times : Nat → Regex → Regex
  | 0, _ => literal []
  | n + 1, body => seq body (times n body)

/-- `(.*)`. -/
def capture (number : Nat) : Regex := group number dots

/-- A place in a text, with what the groups have captured on the way to it, the last one first. -/
structure Place where
  /-- The text before it, in reverse. -/
  before : List Char
  /-- The text behind it. -/
  after : List Char
  /-- The captures. -/
  groups : List (Nat × List Char)
  deriving DecidableEq, Repr

/-- The value of a group, which is empty for one that captured nothing. -/
def Place.value (place : Place) (number : Nat) : List Char :=
  (place.groups.lookup number).getD []

/-- The place behind a literal. -/
def Place.skip (place : Place) (text : List Char) : Place :=
  { place with
    before := text.reverse ++ place.before
    after := place.after.drop text.length }

/-- The places behind any number of characters of a class, the last one first. -/
def runMany (p : Char → Bool) (before after : List Char) (groups : List (Nat × List Char)) :
    List Place :=
  match after with
  | [] => [⟨before, [], groups⟩]
  | c :: rest =>
      if p c then runMany p (c :: before) rest groups ++ [⟨before, c :: rest, groups⟩]
      else [⟨before, c :: rest, groups⟩]

/-- The place behind a character of a class. -/
def runOne (p : Char → Bool) (before after : List Char) (groups : List (Nat × List Char)) :
    List Place :=
  match after with
  | [] => []
  | c :: rest => if p c then [⟨c :: before, rest, groups⟩] else []

/-- The ways to go on, in the order in which they are tried. -/
def run : Regex → Place → List Place
  | literal text, place => if text.isPrefixOf place.after then [place.skip text] else []
  | start, place => if place.before = [] then [place] else []
  | finish, place => if place.after = [] ∨ place.after = ['\n'] then [place] else []
  | one p, place => runOne p place.before place.after place.groups
  | many p, place => runMany p place.before place.after place.groups
  | group number body, place =>
      (body.run place).map fun next =>
        { next with
          groups := (number,
            (next.before.take (next.before.length - place.before.length)).reverse) :: next.groups }
  | seq first second, place => (first.run place).flatMap second.run
  | alt first second, place => first.run place ++ second.run place

theorem run_literal (text : List Char) (place : Place) : (literal text).run place =
    if text.isPrefixOf place.after then [place.skip text] else [] := rfl

theorem run_start (place : Place) :
    start.run place = if place.before = [] then [place] else [] := rfl

theorem run_finish (place : Place) : finish.run place =
    if place.after = [] ∨ place.after = ['\n'] then [place] else [] := rfl

theorem run_one (p : Char → Bool) (place : Place) :
    (one p).run place = runOne p place.before place.after place.groups := rfl

theorem run_group (number : Nat) (body : Regex) (place : Place) :
    (group number body).run place = (body.run place).map fun next =>
      { next with
        groups := (number,
          (next.before.take (next.before.length - place.before.length)).reverse) :: next.groups } :=
  rfl

theorem run_seq (first second : Regex) (place : Place) :
    (seq first second).run place = (first.run place).flatMap second.run := rfl

theorem run_alt (first second : Regex) (place : Place) :
    (alt first second).run place = first.run place ++ second.run place := rfl

/-- The first way from the leftmost place that has one, from this place on. -/
def search (r : Regex) (before after : List Char) : Option Place :=
  match (r.run ⟨before, after, []⟩).head? with
  | some place => some place
  | none =>
      match after with
      | [] => none
      | c :: rest => search r (c :: before) rest

/-- The match of a text. -/
def find (r : Regex) (text : List Char) : Option Place := r.search [] text

/-- There is a match. -/
def isMatch (r : Regex) (text : List Char) : Bool := (r.find text).isSome

/-! ## A literal and the rest of the text -/

theorem head?_runMany {p : Char → Bool} {after : List Char}
    (h : ∀ c ∈ after, p c = true) (before : List Char) (groups : List (Nat × List Char)) :
    (runMany p before after groups).head? = some ⟨after.reverse ++ before, [], groups⟩ := by
  induction after generalizing before with
  | nil => rfl
  | cons c rest ih =>
      rw [List.forall_mem_cons] at h
      rw [runMany, if_pos h.1, List.head?_append, ih h.2]
      simp

/-- The rest of the text is captured. -/
theorem head?_run_capture_only {place : Place} (h : '\n' ∉ place.after) (number : Nat) :
    ((capture number).run place).head? = some
      ⟨place.after.reverse ++ place.before, [], (number, place.after) :: place.groups⟩ := by
  have hdots : (dots.run place).head? =
      some ⟨place.after.reverse ++ place.before, [], place.groups⟩ := by
    apply head?_runMany
    intro c hc
    exact decide_eq_true fun heq => h (heq ▸ hc)
  have htake : ((place.after.reverse ++ place.before).take
      ((place.after.reverse ++ place.before).length - place.before.length)).reverse =
      place.after := by
    rw [List.length_append, Nat.add_sub_cancel, List.take_left', List.reverse_reverse]
    rfl
  rw [capture, run_group, List.head?_map, hdots, Option.map_some, htake]

/-- The literal `text` and a group for what follows it. -/
def textThen (text : List Char) (number : Nat) : Regex := seq (literal text) (capture number)

theorem run_eq_nil_of_not_prefix {text : List Char} {place : Place} (h : ¬text <+: place.after)
    (r : Regex) : (seq (literal text) r).run place = [] := by
  have hnot : text.isPrefixOf place.after ≠ true := fun hpre => h (List.isPrefixOf_iff_prefix.mp hpre)
  rw [run_seq, run_literal, if_neg hnot, List.flatMap_nil]

theorem run_of_after_eq {text rest : List Char} {place : Place} (h : place.after = text ++ rest)
    (r : Regex) :
    (seq (literal text) r).run place =
      r.run ⟨text.reverse ++ place.before, rest, place.groups⟩ := by
  have hpre : text.isPrefixOf place.after = true :=
    List.isPrefixOf_iff_prefix.mpr ⟨rest, h.symm⟩
  have hskip : place.skip text = ⟨text.reverse ++ place.before, rest, place.groups⟩ := by
    rw [Place.skip, h, List.drop_left]
  rw [run_seq, run_literal, if_pos hpre, hskip, List.flatMap_singleton]

/-- **A literal and the rest.** -/
theorem head?_run_textThen {text rest : List Char} {place : Place} (h : place.after = text ++ rest)
    (hline : '\n' ∉ rest) (number : Nat) :
    ((textThen text number).run place).head? =
      some ⟨rest.reverse ++ (text.reverse ++ place.before), [],
        (number, rest) :: place.groups⟩ := by
  rw [textThen, run_of_after_eq h]
  exact head?_run_capture_only hline number

/-- It makes no difference to ask for the end of the text behind it. -/
theorem head?_run_seq_finish {r : Regex} {place next : Place}
    (h : (r.run place).head? = some next) (hend : next.after = []) :
    ((seq r finish).run place).head? = some next := by
  obtain ⟨others, hrun⟩ : ∃ others, r.run place = next :: others := by
    cases hcases : r.run place with
    | nil =>
        rw [hcases] at h
        cases h
    | cons first others =>
        rw [hcases] at h
        cases h
        exact ⟨others, rfl⟩
  have hfinish : finish.run next = [next] := if_pos (.inl hend)
  rw [run_seq, hrun, List.flatMap_cons, hfinish]
  rfl

/-! ## Ways through a text -/

theorem suffix_of_mem_runMany {p : Char → Bool} {after : List Char} {next : Place}
    (before : List Char) (groups : List (Nat × List Char))
    (h : next ∈ runMany p before after groups) : next.after <:+ after := by
  induction after generalizing before with
  | nil =>
      rw [List.mem_singleton.mp h]
  | cons c rest ih =>
      rw [runMany] at h
      split at h
      case isTrue =>
        rcases List.mem_append.mp h with hmore | hhere
        · exact (ih _ hmore).trans (List.suffix_cons c rest)
        · rw [List.mem_singleton.mp hhere]
      case isFalse => rw [List.mem_singleton.mp h]

/-- **A way goes forward in the text.** -/
theorem suffix_of_mem_run {r : Regex} {place next : Place} (h : next ∈ r.run place) :
    next.after <:+ place.after := by
  induction r generalizing place next with
  | literal text =>
      rw [run_literal] at h
      split at h
      case isTrue =>
        rw [List.mem_singleton.mp h]
        exact List.drop_suffix _ _
      case isFalse => cases h
  | start =>
      rw [run_start] at h
      split at h
      case isTrue => rw [List.mem_singleton.mp h]
      case isFalse => cases h
  | finish =>
      rw [run_finish] at h
      split at h
      case isTrue => rw [List.mem_singleton.mp h]
      case isFalse => cases h
  | one p =>
      rw [run_one] at h
      cases hafter : place.after with
      | nil =>
          rw [hafter] at h
          cases h
      | cons c rest =>
          rw [hafter, runOne] at h
          split at h
          case isTrue =>
            rw [List.mem_singleton.mp h]
            exact List.suffix_cons c rest
          case isFalse => cases h
  | many p => exact suffix_of_mem_runMany place.before place.groups h
  | group number body ih =>
      obtain ⟨inner, hinner, rfl⟩ := List.mem_map.mp h
      have hsuffix : inner.after <:+ place.after := ih hinner
      exact hsuffix
  | seq first second ih₁ ih₂ =>
      obtain ⟨mid, hmid, hnext⟩ := List.mem_flatMap.mp h
      exact (ih₂ hnext).trans (ih₁ hmid)
  | alt first second ih₁ ih₂ =>
      rcases List.mem_append.mp h with hfirst | hsecond
      · exact ih₁ hfirst
      · exact ih₂ hsecond

/-- A literal is read only where it stands. -/
theorem prefix_of_mem_run_literal {text : List Char} {place next : Place}
    (h : next ∈ (literal text).run place) : text <+: place.after := by
  rw [run_literal] at h
  split at h
  case isTrue hpre => exact List.isPrefixOf_iff_prefix.mp hpre
  case isFalse => cases h

theorem exists_mem_runMany {p : Char → Bool} {s : List Char} (h : ∀ c ∈ s, p c = true)
    (before rest : List Char) (groups : List (Nat × List Char)) :
    ∃ next ∈ runMany p before (s ++ rest) groups, next.after = rest := by
  induction s generalizing before with
  | nil =>
      cases rest with
      | nil => exact ⟨_, List.mem_singleton_self _, rfl⟩
      | cons c rest =>
          rw [List.nil_append, runMany]
          split
          case isTrue => exact ⟨_, List.mem_append_right _ (List.mem_singleton_self _), rfl⟩
          case isFalse => exact ⟨_, List.mem_singleton_self _, rfl⟩
  | cons c s ih =>
      rw [List.forall_mem_cons] at h
      obtain ⟨next, hmem, hnext⟩ := ih h.2 (c :: before)
      rw [List.cons_append, runMany, if_pos h.1]
      exact ⟨next, List.mem_append_left _ hmem, hnext⟩

/-- A group of any characters can end anywhere in a line. -/
theorem exists_mem_run_capture {s rest : List Char} {place : Place} (h : place.after = s ++ rest)
    (hline : '\n' ∉ s) (number : Nat) :
    ∃ next ∈ (capture number).run place, next.after = rest := by
  have hdots : ∀ c ∈ s, (decide (c ≠ '\n')) = true := by
    intro c hc
    exact decide_eq_true fun heq => hline (heq ▸ hc)
  obtain ⟨next, hmem, hnext⟩ := exists_mem_runMany hdots place.before rest place.groups
  rw [← h] at hmem
  rw [capture, run_group]
  exact ⟨_, List.mem_map.mpr ⟨next, hmem, rfl⟩, hnext⟩

/-- A literal that is there can be read. -/
theorem exists_mem_run_literal {text rest : List Char} {place : Place}
    (h : place.after = text ++ rest) : ∃ next ∈ (literal text).run place, next.after = rest := by
  have hpre : text.isPrefixOf place.after = true := List.isPrefixOf_iff_prefix.mpr ⟨rest, h.symm⟩
  rw [run_literal, if_pos hpre]
  refine ⟨_, List.mem_singleton_self _, ?_⟩
  rw [Place.skip, h, List.drop_left]

theorem exists_mem_run_seq {first second : Regex} {place mid : Place}
    (hmid : mid ∈ first.run place) {rest : List Char}
    (h : ∃ next ∈ second.run mid, next.after = rest) :
    ∃ next ∈ (seq first second).run place, next.after = rest := by
  obtain ⟨next, hmem, hnext⟩ := h
  exact ⟨next, List.mem_flatMap.mpr ⟨mid, hmid, hmem⟩, hnext⟩

/-- An expression that has no way from later places matches at the start or not at all. -/
theorem find_of_anchored {r : Regex} (h : ∀ place : Place, place.before ≠ [] → r.run place = [])
    (text : List Char) : r.find text = (r.run ⟨[], text, []⟩).head? := by
  have hlater (before after : List Char) (hbefore : before ≠ []) :
      r.search before after = none := by
    induction after generalizing before with
    | nil =>
        rw [search, h ⟨before, [], []⟩ hbefore]
        rfl
    | cons c rest ih =>
        rw [search, h ⟨before, c :: rest, []⟩ hbefore]
        exact ih (c :: before) (List.cons_ne_nil c before)
  rw [find]
  unfold search
  cases (r.run ⟨[], text, []⟩).head? with
  | some place => rfl
  | none =>
      cases text with
      | nil => rfl
      | cons c rest => exact hlater [c] rest (List.cons_ne_nil c [])

theorem run_seq_start_of_before {place : Place} (h : place.before ≠ []) (r : Regex) :
    (seq start r).run place = [] := by
  rw [run_seq, run_start, if_neg h]
  rfl

theorem run_seq_start (r : Regex) (text : List Char) :
    (seq start r).run ⟨[], text, []⟩ = r.run ⟨[], text, []⟩ := by
  rw [run_seq, run_start, if_pos rfl, List.flatMap_singleton]

/-- An expression that begins with `^` matches at the start or not at all. -/
theorem find_start (r : Regex) (text : List Char) :
    (seq start r).find text = (r.run ⟨[], text, []⟩).head? := by
  rw [find_of_anchored (fun place h => run_seq_start_of_before h r), run_seq_start]

/-! ## A number of characters of a class -/

/-- A number of characters of a class are read where as many stand. -/
theorem run_times_one {p : Char → Bool} (n : Nat) (before after : List Char)
    (groups : List (Nat × List Char)) :
    (times n (one p)).run ⟨before, after, groups⟩ =
      if (after.take n).length = n ∧ (after.take n).all p = true then
        [⟨(after.take n).reverse ++ before, after.drop n, groups⟩]
      else [] := by
  induction n generalizing before after with
  | zero =>
      have hnil : ([] : List Char).isPrefixOf after = true := List.isPrefixOf_nil_left
      rw [times, run_literal, if_pos hnil, if_pos ⟨rfl, rfl⟩]
      rfl
  | succ n ih =>
      rw [times, run_seq, run_one]
      cases after with
      | nil =>
          rw [if_neg fun h => Nat.succ_ne_zero n h.1.symm]
          rfl
      | cons c rest =>
          simp only [runOne, List.take_succ_cons, List.length_cons, Nat.add_right_cancel_iff,
            List.all_cons, Bool.and_eq_true, List.drop_succ_cons]
          by_cases hc : p c = true
          · rw [if_pos hc, List.flatMap_singleton, ih]
            simp only [hc, true_and, List.reverse_cons, List.append_assoc, List.singleton_append]
          · rw [if_neg hc, if_neg fun h => hc h.2.1]
            rfl

end Regex

end DdTrace.Lib
