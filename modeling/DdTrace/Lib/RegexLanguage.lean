import DdTrace.Lib.Regex

/-!
# The texts that an expression reads

An expression without `^`, `$` and groups has a language, and the ways that an engine goes on from a
place are the texts of the language that stand there, in some order.

* `Regex.Plain`, `Regex.Reads`: the expressions, and their texts.
* `mem_run_iff`: the ways of an engine.
* `reads_times_one`, `reads_plus`: repetitions.
* `isSome_find_captured`, `exists_of_find_captured`: an expression between `^` and `$` whose last
  part is a group.
-/

namespace DdTrace.Lib.Regex

/-- `+`. -/
def plus (p : Char → Bool) : Regex := seq (one p) (many p)

/-- `?`. -/
def optional (body : Regex) : Regex := alt body (literal [])

/-- There is no `^`, no `$` and no group in the expression. -/
def Plain : Regex → Prop
  | literal _ | one _ | many _ => True
  | start | finish | group _ _ => False
  | seq first second | alt first second => first.Plain ∧ second.Plain

/-- The texts of an expression, where `^`, `$` and groups do not matter. -/
def Reads : Regex → List Char → Prop
  | literal text, s => s = text
  | start, s | finish, s => s = []
  | one p, s => ∃ c, p c = true ∧ s = [c]
  | many p, s => ∀ c ∈ s, p c = true
  | group _ body, s => body.Reads s
  | seq first second, s => ∃ u v, s = u ++ v ∧ first.Reads u ∧ second.Reads v
  | alt first second, s => first.Reads s ∨ second.Reads s

theorem reads_literal {text s : List Char} : (literal text).Reads s ↔ s = text := Iff.rfl

theorem reads_seq {first second : Regex} {s : List Char} :
    (seq first second).Reads s ↔ ∃ u v, s = u ++ v ∧ first.Reads u ∧ second.Reads v := Iff.rfl

/-! ## The ways of an engine -/

theorem mem_runMany_iff {p : Char → Bool} {before after : List Char}
    {groups : List (Nat × List Char)} {next : Place} :
    next ∈ runMany p before after groups ↔
      ∃ s rest, after = s ++ rest ∧ (∀ c ∈ s, p c = true) ∧
        next = ⟨s.reverse ++ before, rest, groups⟩ := by
  induction after generalizing before with
  | nil =>
      rw [runMany, List.mem_singleton]
      constructor
      · rintro rfl
        exact ⟨[], [], rfl, List.forall_mem_nil _, rfl⟩
      · rintro ⟨s, rest, hnil, -, rfl⟩
        obtain ⟨rfl, rfl⟩ := List.append_eq_nil_iff.mp hnil.symm
        rfl
  | cons c after ih =>
      have hsplit : (∃ s rest, c :: after = s ++ rest ∧ (∀ d ∈ s, p d = true) ∧
          next = ⟨s.reverse ++ before, rest, groups⟩) ↔
          (p c = true ∧ next ∈ runMany p (c :: before) after groups) ∨
            next = ⟨before, c :: after, groups⟩ := by
        rw [ih]
        constructor
        · rintro ⟨s, rest, heq, hs, rfl⟩
          cases s with
          | nil =>
              right
              rw [heq]
              rfl
          | cons d s =>
              obtain ⟨rfl, rfl⟩ := List.cons.inj heq
              rw [List.forall_mem_cons] at hs
              exact .inl ⟨hs.1, s, rest, rfl, hs.2, by simp⟩
        · rintro (⟨hc, s, rest, rfl, hs, rfl⟩ | rfl)
          · exact ⟨c :: s, rest, rfl, List.forall_mem_cons.mpr ⟨hc, hs⟩, by simp⟩
          · exact ⟨[], c :: after, rfl, List.forall_mem_nil _, rfl⟩
      rw [hsplit, runMany]
      by_cases hc : p c = true
      · rw [if_pos hc, List.mem_append, List.mem_singleton, and_iff_right hc]
      · rw [if_neg hc, List.mem_singleton, iff_false_intro hc, false_and, false_or]

/-- **The ways of an engine** are the texts of the language that stand at the place. -/
theorem mem_run_iff {r : Regex} (h : r.Plain) {place next : Place} :
    next ∈ r.run place ↔
      ∃ s rest, place.after = s ++ rest ∧ r.Reads s ∧
        next = ⟨s.reverse ++ place.before, rest, place.groups⟩ := by
  induction r generalizing place next with
  | literal text =>
      rw [run_literal]
      constructor
      · intro hmem
        split at hmem
        case isTrue hpre =>
          obtain ⟨rest, hrest⟩ := List.isPrefixOf_iff_prefix.mp hpre
          refine ⟨text, rest, hrest.symm, rfl, ?_⟩
          rw [List.mem_singleton.mp hmem, Place.skip, ← hrest, List.drop_left]
        case isFalse => cases hmem
      · rintro ⟨s, rest, hafter, rfl, rfl⟩
        rw [if_pos (List.isPrefixOf_iff_prefix.mpr ⟨rest, hafter.symm⟩), List.mem_singleton,
          Place.skip, hafter, List.drop_left]
  | start => exact h.elim
  | finish => exact h.elim
  | one p =>
      rw [run_one]
      constructor
      · intro hmem
        cases hafter : place.after with
        | nil =>
            rw [hafter] at hmem
            cases hmem
        | cons c rest =>
            rw [hafter, runOne] at hmem
            split at hmem
            case isTrue hc => exact ⟨[c], rest, rfl, ⟨c, hc, rfl⟩, List.mem_singleton.mp hmem⟩
            case isFalse => cases hmem
      · rintro ⟨s, rest, hafter, ⟨c, hc, rfl⟩, rfl⟩
        rw [hafter, List.singleton_append, runOne, if_pos hc]
        exact List.mem_singleton_self _
  | many p => exact mem_runMany_iff
  | group number body => exact h.elim
  | seq first second ih₁ ih₂ =>
      rw [run_seq, List.mem_flatMap]
      constructor
      · rintro ⟨mid, hmid, hnext⟩
        obtain ⟨s, rest, hafter, hs, rfl⟩ := (ih₁ h.1).mp hmid
        obtain ⟨t, rest', hrest, ht, rfl⟩ := (ih₂ h.2).mp hnext
        refine ⟨s ++ t, rest', ?_, ⟨s, t, rfl, hs, ht⟩, ?_⟩
        · rw [hafter, List.append_assoc]
          exact congrArg (s ++ ·) hrest
        · rw [List.reverse_append, List.append_assoc]
      · rintro ⟨_, rest, hafter, ⟨s, t, rfl, hs, ht⟩, rfl⟩
        rw [List.append_assoc] at hafter
        refine ⟨_, (ih₁ h.1).mpr ⟨s, t ++ rest, hafter, hs, rfl⟩, ?_⟩
        refine (ih₂ h.2).mpr ⟨t, rest, rfl, ht, ?_⟩
        rw [List.reverse_append, List.append_assoc]
  | alt first second ih₁ ih₂ =>
      rw [run_alt, List.mem_append, ih₁ h.1, ih₂ h.2]
      constructor
      · rintro (⟨s, rest, hafter, hs, hnext⟩ | ⟨s, rest, hafter, hs, hnext⟩)
        · exact ⟨s, rest, hafter, .inl hs, hnext⟩
        · exact ⟨s, rest, hafter, .inr hs, hnext⟩
      · rintro ⟨s, rest, hafter, hs | hs, hnext⟩
        · exact .inl ⟨s, rest, hafter, hs, hnext⟩
        · exact .inr ⟨s, rest, hafter, hs, hnext⟩

/-! ## Repetitions -/

theorem plain_times {body : Regex} (h : body.Plain) (n : Nat) : (times n body).Plain := by
  induction n with
  | zero => trivial
  | succ n ih => exact ⟨h, ih⟩

theorem plain_plus (p : Char → Bool) : (plus p).Plain := ⟨trivial, trivial⟩

theorem plain_optional {body : Regex} (h : body.Plain) : (optional body).Plain := ⟨h, trivial⟩

theorem reads_times_one {p : Char → Bool} {n : Nat} {s : List Char} :
    (times n (one p)).Reads s ↔ s.length = n ∧ ∀ c ∈ s, p c = true := by
  induction n generalizing s with
  | zero =>
      rw [times, reads_literal, List.length_eq_zero_iff]
      constructor
      · rintro rfl
        exact ⟨rfl, List.forall_mem_nil _⟩
      · exact And.left
  | succ n ih =>
      rw [times, reads_seq]
      constructor
      · rintro ⟨_, v, rfl, ⟨c, hc, rfl⟩, hv⟩
        obtain ⟨hlength, hall⟩ := ih.mp hv
        exact ⟨congrArg Nat.succ hlength, List.forall_mem_cons.mpr ⟨hc, hall⟩⟩
      · rintro ⟨hlength, hall⟩
        cases s with
        | nil => cases hlength
        | cons c s =>
            rw [List.forall_mem_cons] at hall
            exact ⟨[c], s, rfl, ⟨c, hall.1, rfl⟩, ih.mpr ⟨Nat.succ.inj hlength, hall.2⟩⟩

theorem reads_plus {p : Char → Bool} {s : List Char} :
    (plus p).Reads s ↔ s ≠ [] ∧ ∀ c ∈ s, p c = true := by
  rw [plus, reads_seq]
  constructor
  · rintro ⟨_, v, rfl, ⟨c, hc, rfl⟩, hv⟩
    exact ⟨List.cons_ne_nil c v, List.forall_mem_cons.mpr ⟨hc, hv⟩⟩
  · rintro ⟨hne, hall⟩
    cases s with
    | nil => exact absurd rfl hne
    | cons c s =>
        rw [List.forall_mem_cons] at hall
        exact ⟨[c], s, rfl, ⟨c, hall.1, rfl⟩, hall.2⟩

/-! ## A captured end of the text -/

section captured

variable {pre body : Regex} (hpre : pre.Plain) (hbody : body.Plain) (number : Nat)

/-- `^`, an expression, a group and `$`. -/
def captured (pre : Regex) (number : Nat) (body : Regex) : Regex :=
  seq start (seq pre (seq (group number body) finish))

include hpre hbody

theorem mem_run_captured_iff {text : List Char} (hline : '\n' ∉ text) {next : Place} :
    next ∈ (seq pre (seq (group number body) finish)).run ⟨[], text, []⟩ ↔
      ∃ u v, text = u ++ v ∧ pre.Reads u ∧ body.Reads v ∧
        next = ⟨text.reverse, [], [(number, v)]⟩ := by
  rw [run_seq, List.mem_flatMap]
  constructor
  · rintro ⟨mid, hmid, hnext⟩
    obtain ⟨u, rest, rfl, hu, rfl⟩ := (mem_run_iff hpre).mp hmid
    rw [run_seq, List.mem_flatMap] at hnext
    obtain ⟨last, hlast, hnext⟩ := hnext
    rw [run_group, List.mem_map] at hlast
    obtain ⟨inner, hinner, rfl⟩ := hlast
    obtain ⟨v, rest', hrest, hv, rfl⟩ := (mem_run_iff hbody).mp hinner
    obtain rfl : rest = v ++ rest' := hrest
    rw [run_finish] at hnext
    split at hnext
    case isTrue hend =>
      obtain rfl : rest' = [] := by
        refine hend.resolve_right fun heq => hline ?_
        rw [show rest' = ['\n'] from heq]
        simp
      refine ⟨u, v, by simp, hu, hv, ?_⟩
      rw [List.mem_singleton.mp hnext]
      simp
    case isFalse => cases hnext
  · rintro ⟨u, v, rfl, hu, hv, rfl⟩
    refine ⟨_, (mem_run_iff hpre).mpr ⟨u, v, rfl, hu, rfl⟩, ?_⟩
    rw [run_seq, List.mem_flatMap]
    refine ⟨_, List.mem_map.mpr ⟨_, (mem_run_iff hbody).mpr ⟨v, [], by simp, hv, rfl⟩, rfl⟩, ?_⟩
    rw [run_finish, if_pos (.inl rfl), List.mem_singleton]
    simp

theorem isSome_find_captured {text : List Char} (hline : '\n' ∉ text) :
    ((captured pre number body).find text).isSome = true ↔
      ∃ u v, text = u ++ v ∧ pre.Reads u ∧ body.Reads v := by
  rw [captured, find_start, List.isSome_head?]
  constructor
  · intro hne
    obtain ⟨next, hnext⟩ := List.exists_mem_of_ne_nil _ hne
    obtain ⟨u, v, htext, hu, hv, -⟩ := (mem_run_captured_iff hpre hbody number hline).mp hnext
    exact ⟨u, v, htext, hu, hv⟩
  · rintro ⟨u, v, htext, hu, hv⟩
    exact List.ne_nil_of_mem
      ((mem_run_captured_iff hpre hbody number hline).mpr ⟨u, v, htext, hu, hv, rfl⟩)

/-- **What a match has captured** is the end of the text that is read by the group. -/
theorem exists_of_find_captured {text : List Char} (hline : '\n' ∉ text) {place : Place}
    (h : (captured pre number body).find text = some place) :
    ∃ u v, text = u ++ v ∧ pre.Reads u ∧ body.Reads v ∧ place.value number = v := by
  rw [captured, find_start] at h
  obtain ⟨u, v, htext, hu, hv, rfl⟩ :=
    (mem_run_captured_iff hpre hbody number hline).mp (List.mem_of_mem_head? h)
  refine ⟨u, v, htext, hu, hv, ?_⟩
  simp [Place.value]

end captured

end DdTrace.Lib.Regex
