import DdTrace.Lib.Backtracking
import DdTrace.Lib.Utf16

/-!
# Custom sampling rules

* `RegexEngine`: the regular expressions of the runtime, and `RegexEngine.Documented`, what is known
  of a `^` before a pattern and of a `$` behind it.
* `wrapWithLineCharacters`, `CustomSamplingRule.isMatch`: the rule.
* `MatchesWhole`: a pattern matches a whole name, and `Stray`: it matches a part of it that the two
  characters do not rule out.
* `isMatch_wrapped_iff`: what a pattern between the two characters matches.
* `isMatch_exact_iff`: for which spans the rule matches whole names.

Source: `Sampling/CustomSamplingRule.cs`.
-/

namespace DdTrace.Sampling

open DdTrace.Lib DdTrace.Lib.Utf16 DdTrace.Lib.Backtracking

/-! ## The regular expressions -/

/-- `^`. -/
def caret : List CodeUnit := ascii "^"

/-- `$`. -/
def dollar : List CodeUnit := ascii "$"

/-- What a `$` behind a pattern is. -/
inductive Dollar
  /-- It is at the end of the text, or before a newline at the end. -/
  | endOfText
  /-- It is at the end of a line: `(?m)` is on. -/
  | endOfLine
  /-- It belongs to a comment: `(?x)` is on. -/
  | comment
  deriving DecidableEq, Repr

/-- A `$` lets a position pass. -/
def Dollar.holds : Dollar → List CodeUnit → Nat → Bool
  | endOfText, text, position =>
      position = text.length || (position + 1 = text.length && text[position]? = some (unit '\n'))
  | endOfLine, text, position =>
      position = text.length || text[position]? = some (unit '\n')
  | comment, _, _ => true

/-- What a `$` adds to an alternative. -/
def Dollar.items {γ : Type} : Dollar → List (Item CodeUnit γ)
  | endOfText => [test endOfText.holds]
  | endOfLine => [test endOfLine.holds]
  | comment => []

/-- What a `^` adds to an alternative, if `(?m)` is not on. -/
def beginning {γ : Type} : Item CodeUnit γ := test fun _ position => position = 0

/-- The regular expressions of the runtime. -/
structure RegexEngine where
  /-- What can be captured. -/
  Captures : Type
  nothing : Captures
  /-- The alternatives of a pattern, if it is accepted. -/
  parse : List CodeUnit → Option (List (List (Item CodeUnit Captures)))
  /-- What a `$` is behind a pattern. -/
  dollarBehind : List CodeUnit → Dollar

namespace RegexEngine

/-- Alternatives bind weaker than anything else, so that a `^` before a pattern belongs to its first
alternative and a `$` behind it to its last one. -/
structure Documented (E : RegexEngine) : Prop where
  caretBefore : ∀ {pattern alternatives}, E.parse pattern = some alternatives →
    E.parse (caret ++ pattern) = some (alternatives.modify 0 (beginning :: ·))
  dollarBehind : ∀ {pattern alternatives}, E.parse pattern = some alternatives →
    E.parse (pattern ++ dollar) =
      some (alternatives.modify (alternatives.length - 1) (· ++ (E.dollarBehind pattern).items))

variable (E : RegexEngine)

/-- `Regex.IsMatch` but the timeout. It raises an exception for a pattern that is not accepted, and
for no input. -/
def isMatch (input : Option (List CodeUnit)) (pattern : List CodeUnit) : Option Bool :=
  match E.parse pattern, input with
  | some alternatives, some text => some (Backtracking.isMatch E.nothing alternatives text)
  | _, _ => none

theorem isMatch_none (pattern : List CodeUnit) : E.isMatch none pattern = none := by
  cases h : E.parse pattern with
  | none => simp only [isMatch, h]
  | some alternatives => simp only [isMatch, h]

/-- The pattern matches all of a name. -/
def MatchesWhole (pattern name : List CodeUnit) : Prop :=
  ∃ items ∈ (E.parse pattern).getD [], Stretch E.nothing items name 0 name.length

instance (pattern name : List CodeUnit) : Decidable (E.MatchesWhole pattern name) :=
  inferInstanceAs (Decidable (∃ items ∈ _, _))

end RegexEngine

/-! ## The rule -/

/-- Comparison of strings in a culture. -/
structure Culture where
  /-- `StartsWith`. -/
  startsWith : List CodeUnit → List CodeUnit → Bool
  /-- `EndsWith`. -/
  endsWith : List CodeUnit → List CodeUnit → Bool

/-- The culture that compares the code units. -/
def Culture.invariantMode : Culture where
  startsWith text part := part.isPrefixOf text
  endsWith text part := part.isSuffixOf text

/-- The first step of `wrapWithLineCharacters`. -/
def wrapStart (culture : Culture) (regex : List CodeUnit) : List CodeUnit :=
  if !culture.startsWith regex caret then caret ++ regex else regex

/-- The second step of `wrapWithLineCharacters`. -/
def wrapEnd (culture : Culture) (regex : List CodeUnit) : List CodeUnit :=
  if !culture.endsWith regex dollar then regex ++ dollar else regex

/-- Source: `CustomSamplingRule.cs`, `WrapWithLineCharacters` -/
def wrapWithLineCharacters (culture : Culture) (regex : Option (List CodeUnit)) :
    Option (List CodeUnit) :=
  regex.map fun regex => wrapEnd culture (wrapStart culture regex)

/-- The names of a span that the rule reads. -/
structure SpanNames where
  /-- `ServiceName`. -/
  serviceName : Option (List CodeUnit)
  /-- `OperationName`. -/
  operationName : Option (List CodeUnit)

/-- The matches that take longer than the timeout. -/
structure Timeouts where
  service : Bool
  operation : Bool

/-- Source: `CustomSamplingRule.cs`, the fields that `IsMatch` reads -/
structure CustomSamplingRule where
  serviceNameRegex : Option (List CodeUnit)
  operationNameRegex : Option (List CodeUnit)
  hasPoisonedRegex : Bool := false

namespace CustomSamplingRule

/-- Source: `CustomSamplingRule.cs`, the constructor -/
def new (culture : Culture) (serviceNameRegex operationNameRegex : Option (List CodeUnit)) :
    CustomSamplingRule where
  serviceNameRegex := wrapWithLineCharacters culture serviceNameRegex
  operationNameRegex := wrapWithLineCharacters culture operationNameRegex

/-- The result, if no exception is raised, and the rule after the call.
Source: `CustomSamplingRule.cs`, `DoesNotMatch` -/
def doesNotMatch (E : RegexEngine) (rule : CustomSamplingRule) (timesOut : Bool)
    (input pattern : Option (List CodeUnit)) : Option Bool × CustomSamplingRule :=
  match pattern with
  | none => (some false, rule)
  | some pattern =>
      match E.isMatch input pattern with
      | none => (none, rule)
      | some answer =>
          -- the exception of the timeout is caught, and `false` is returned
          if timesOut then (some false, { rule with hasPoisonedRegex := true })
          else (some !answer, rule)

/-- The result, if no exception is raised, and the rule after the call.
Source: `CustomSamplingRule.cs`, `IsMatch` -/
def isMatch (E : RegexEngine) (rule : CustomSamplingRule) (timeouts : Timeouts)
    (span : SpanNames) : Option Bool × CustomSamplingRule :=
  if rule.hasPoisonedRegex then (some false, rule)
  else
    match rule.doesNotMatch E timeouts.service span.serviceName rule.serviceNameRegex with
    | (none, rule) => (none, rule)
    | (some true, rule) => (some false, rule)
    | (some false, rule) =>
        match rule.doesNotMatch E timeouts.operation span.operationName rule.operationNameRegex with
        | (none, rule) => (none, rule)
        | (some true, rule) => (some false, rule)
        | (some false, rule) => (some true, rule)

end CustomSamplingRule

/-! ## What a pattern between the two characters matches -/

/-- An alternative of the pattern matches a stretch that is not the whole name, though it begins at
the beginning if a `^` was put before the alternative, and ends where a `$` lets it if one was put
behind it. -/
def Stray (E : RegexEngine) (culture : Culture) (pattern name : List CodeUnit) : Prop :=
  ∃ first ≤ name.length, ∃ (k last : Nat) (items : List (Item CodeUnit E.Captures)),
    ((E.parse pattern).getD [])[k]? = some items ∧ Stretch E.nothing items name first last ∧
    ¬(first = 0 ∧ last = name.length) ∧
    (culture.startsWith pattern caret = false → k = 0 → first = 0) ∧
    (culture.endsWith (wrapStart culture pattern) dollar = false →
      k + 1 = ((E.parse pattern).getD []).length →
      (E.dollarBehind (wrapStart culture pattern)).holds name last = true)

section Wrapped

variable {E : RegexEngine} {culture : Culture} {pattern name : List CodeUnit}
  {alternatives : List (List (Item CodeUnit E.Captures))}

/-- A `$` of any kind is a test of the last alternative. -/
theorem stretch_modify_dollar {d : Dollar} {first last k : Nat} :
    (∃ items, (alternatives.modify (alternatives.length - 1) (· ++ d.items))[k]? = some items ∧
        Stretch E.nothing items name first last) ↔
      ∃ items, alternatives[k]? = some items ∧ Stretch E.nothing items name first last ∧
        (k + 1 = alternatives.length → d.holds name last = true) := by
  cases d with
  | endOfText => exact stretch_modify_last
  | endOfLine => exact stretch_modify_last
  | comment => simp [Dollar.items, Dollar.holds, List.getElem?_modify]

/-- The first character is a test of the first alternative, if it is put there. -/
theorem stretch_wrapStart (culture : Culture) (name : List CodeUnit) (hE : E.Documented)
    (h : E.parse pattern = some alternatives) :
    ∃ wrapped, E.parse (wrapStart culture pattern) = some wrapped ∧
      wrapped.length = alternatives.length ∧
      ∀ first last k, (∃ items, wrapped[k]? = some items ∧
          Stretch E.nothing items name first last) ↔
        ∃ items, alternatives[k]? = some items ∧ Stretch E.nothing items name first last ∧
          (culture.startsWith pattern caret = false → k = 0 → first = 0) := by
  rw [wrapStart]
  cases hstarts : culture.startsWith pattern caret with
  | true =>
      refine ⟨alternatives, h, rfl, fun first last k => ?_⟩
      simp
  | false =>
      refine ⟨_, hE.caretBefore h, List.length_modify _ _ _, fun first last k => ?_⟩
      rw [beginning, stretch_modify_first]
      simp

/-- The last character is a test of the last alternative, if it is put there. -/
theorem stretch_wrapEnd (culture : Culture) (name : List CodeUnit) (hE : E.Documented)
    (h : E.parse pattern = some alternatives) :
    ∃ wrapped, E.parse (wrapEnd culture pattern) = some wrapped ∧
      ∀ first last k, (∃ items, wrapped[k]? = some items ∧
          Stretch E.nothing items name first last) ↔
        ∃ items, alternatives[k]? = some items ∧ Stretch E.nothing items name first last ∧
          (culture.endsWith pattern dollar = false → k + 1 = alternatives.length →
            (E.dollarBehind pattern).holds name last = true) := by
  rw [wrapEnd]
  cases hends : culture.endsWith pattern dollar with
  | true =>
      refine ⟨alternatives, h, fun first last k => ?_⟩
      simp
  | false =>
      refine ⟨_, hE.dollarBehind h, fun first last k => ?_⟩
      rw [stretch_modify_dollar]
      simp

/-- A `$` lets the end of a text pass. -/
theorem Dollar.holds_length (d : Dollar) (text : List CodeUnit) :
    d.holds text text.length = true := by
  cases d with
  | endOfText => simp [Dollar.holds]
  | endOfLine => simp [Dollar.holds]
  | comment => rfl

/-- **A pattern between the two characters** matches whole names, and others that have a stretch the
two characters do not rule out. -/
theorem isMatch_wrapped_iff (culture : Culture) (name : List CodeUnit) (hE : E.Documented)
    (h : (E.parse pattern).isSome = true) :
    ∃ answer, E.isMatch (some name) (wrapEnd culture (wrapStart culture pattern)) = some answer ∧
      (answer = true ↔ E.MatchesWhole pattern name ∨ Stray E culture pattern name) := by
  obtain ⟨alternatives, hparse⟩ := Option.isSome_iff_exists.mp h
  obtain ⟨started, hstarted, hlength, hstart⟩ :=
    stretch_wrapStart culture name hE hparse
  obtain ⟨wrapped, hwrapped, hend⟩ :=
    stretch_wrapEnd culture name hE hstarted
  have hstretch (first last k : Nat) : (∃ items, wrapped[k]? = some items ∧
      Stretch E.nothing items name first last) ↔
      ∃ items, alternatives[k]? = some items ∧ Stretch E.nothing items name first last ∧
        (culture.startsWith pattern caret = false → k = 0 → first = 0) ∧
        (culture.endsWith (wrapStart culture pattern) dollar = false →
          k + 1 = alternatives.length →
          (E.dollarBehind (wrapStart culture pattern)).holds name last = true) := by
    constructor
    · intro hitems
      obtain ⟨items, hk, hitems, hdollar⟩ := (hend first last k).mp hitems
      obtain ⟨items, hk, hitems, hcaret⟩ := (hstart first last k).mp ⟨items, hk, hitems⟩
      rw [hlength] at hdollar
      exact ⟨items, hk, hitems, hcaret, hdollar⟩
    · rintro ⟨items, hk, hitems, hcaret, hdollar⟩
      obtain ⟨items, hk, hitems⟩ := (hstart first last k).mpr ⟨items, hk, hitems, hcaret⟩
      rw [← hlength] at hdollar
      exact (hend first last k).mpr ⟨items, hk, hitems, hdollar⟩
  refine ⟨Backtracking.isMatch E.nothing wrapped name, by
    simp only [RegexEngine.isMatch, hwrapped], ?_⟩
  rw [isMatch_iff, RegexEngine.MatchesWhole, Stray, hparse, Option.getD_some]
  constructor
  · rintro ⟨first, hfirst, k, last, items, hk, hitems⟩
    obtain ⟨items, hk, hitems, hcaret, hdollar⟩ := (hstretch first last k).mp ⟨items, hk, hitems⟩
    by_cases hwhole : first = 0 ∧ last = name.length
    · obtain ⟨rfl, rfl⟩ := hwhole
      exact Or.inl ⟨items, List.mem_iff_getElem?.mpr ⟨k, hk⟩, hitems⟩
    · exact Or.inr ⟨first, hfirst, k, last, items, hk, hitems, hwhole, hcaret, hdollar⟩
  · rintro (⟨items, hmem, hitems⟩ | ⟨first, hfirst, k, last, items, hk, hitems, -, hcaret, hdollar⟩)
    · obtain ⟨k, hk⟩ := List.mem_iff_getElem?.mp hmem
      obtain ⟨items, hk, hitems⟩ := (hstretch 0 name.length k).mpr
        ⟨items, hk, hitems, fun _ _ => rfl, fun _ _ => Dollar.holds_length _ name⟩
      exact ⟨0, Nat.zero_le _, k, name.length, items, hk, hitems⟩
    · obtain ⟨items, hk, hitems⟩ := (hstretch first last k).mpr ⟨items, hk, hitems, hcaret, hdollar⟩
      exact ⟨first, hfirst, k, last, items, hk, hitems⟩

/-- There is nothing stray about a pattern of one alternative that gets both characters, for a name
that does not end with a newline. -/
theorem not_stray_of_single (h : E.parse pattern = some alternatives)
    (hsingle : alternatives.length = 1) (hstarts : culture.startsWith pattern caret = false)
    (hends : culture.endsWith (wrapStart culture pattern) dollar = false)
    (hdollar : E.dollarBehind (wrapStart culture pattern) = .endOfText)
    (hname : name.getLast? ≠ some (unit '\n')) : ¬Stray E culture pattern name := by
  rintro ⟨first, hfirst, k, last, items, hk, hitems, hnot, hcaret, hlast⟩
  rw [h, Option.getD_some] at hk hlast
  obtain ⟨hlt, -⟩ := List.getElem?_eq_some_iff.mp hk
  have hzero : k = 0 := by omega
  have hlast := hlast hends (by rw [hzero, hsingle])
  rw [hdollar, Dollar.holds, Bool.or_eq_true, Bool.and_eq_true, decide_eq_true_eq,
    decide_eq_true_eq, decide_eq_true_eq] at hlast
  rcases hlast with hlast | ⟨hlength, hnewline⟩
  · exact hnot ⟨hcaret hstarts hzero, hlast⟩
  · apply hname
    rw [List.getLast?_eq_getElem?, ← hlength]
    exact hnewline

end Wrapped

/-! ## Which spans the rule matches -/

/-- A pattern, if it is given, matches all of a name. -/
def Whole (E : RegexEngine) (pattern name : Option (List CodeUnit)) : Prop :=
  ∀ p, pattern = some p → ∃ n, name = some n ∧ E.MatchesWhole p n

/-- A pattern does not match all of a name, but there is something stray about it, or the match
takes too long. -/
def Astray (E : RegexEngine) (culture : Culture) (timesOut : Bool)
    (pattern name : Option (List CodeUnit)) : Prop :=
  ∃ p n, pattern = some p ∧ name = some n ∧ ¬E.MatchesWhole p n ∧
    (timesOut = true ∨ Stray E culture p n)

/-- The rule is not spoilt by a timeout before, or would not have matched anyway; and no pattern goes
astray, or the other one does not match, nor goes astray. -/
structure Fitting (E : RegexEngine) (culture : Culture)
    (serviceNameRegex operationNameRegex : Option (List CodeUnit)) (poisoned : Bool)
    (timeouts : Timeouts) (span : SpanNames) : Prop where
  unspoilt : poisoned = true →
    ¬(Whole E serviceNameRegex span.serviceName ∧ Whole E operationNameRegex span.operationName)
  service : poisoned = false → Astray E culture timeouts.service serviceNameRegex span.serviceName →
    ¬Whole E operationNameRegex span.operationName ∧
      ¬Astray E culture timeouts.operation operationNameRegex span.operationName
  operation : poisoned = false →
    Astray E culture timeouts.operation operationNameRegex span.operationName →
    ¬Whole E serviceNameRegex span.serviceName ∧
      ¬Astray E culture timeouts.service serviceNameRegex span.serviceName

section Rule

variable {E : RegexEngine} {culture : Culture} {pattern name : Option (List CodeUnit)}

theorem Astray.not_whole {timesOut : Bool} (h : Astray E culture timesOut pattern name) :
    ¬Whole E pattern name := by
  obtain ⟨p, n, hpattern, hname, hnot, -⟩ := h
  intro hwhole
  obtain ⟨n', hname', hmatches⟩ := hwhole p hpattern
  rw [hname] at hname'
  cases hname'
  exact hnot hmatches

/-- A name gets past a pattern that matches all of it, or goes astray. -/
theorem doesNotMatch_iff (hE : E.Documented)
    (h : ∀ p, pattern = some p → (E.parse p).isSome = true) (rule : CustomSamplingRule)
    (timesOut : Bool) :
    (rule.doesNotMatch E timesOut name (wrapWithLineCharacters culture pattern)).1 = some false ↔
      Whole E pattern name ∨ Astray E culture timesOut pattern name := by
  cases pattern with
  | none => exact iff_of_true rfl (Or.inl fun p hp => by cases hp)
  | some p =>
      have hwrapped : wrapWithLineCharacters culture (some p) =
          some (wrapEnd culture (wrapStart culture p)) := rfl
      rw [hwrapped, CustomSamplingRule.doesNotMatch]
      cases name with
      | none =>
          rw [E.isMatch_none]
          refine iff_of_false (fun hfalse => by cases hfalse) ?_
          rintro (hwhole | ⟨_, n, -, hname, -⟩)
          · obtain ⟨n, hname, -⟩ := hwhole p rfl
            cases hname
          · cases hname
      | some n =>
          obtain ⟨answer, hanswer, hmatches⟩ :=
            isMatch_wrapped_iff culture n hE (h p rfl)
          have hwhole : Whole E (some p) (some n) ↔ E.MatchesWhole p n := by
            constructor
            · intro hwhole
              obtain ⟨n', hname, hp⟩ := hwhole p rfl
              cases hname
              exact hp
            · intro hp p' hp'
              cases hp'
              exact ⟨n, rfl, hp⟩
          have hastray : Astray E culture timesOut (some p) (some n) ↔
              ¬E.MatchesWhole p n ∧ (timesOut = true ∨ Stray E culture p n) := by
            constructor
            · rintro ⟨p', n', hp', hn', hastray⟩
              cases hp'
              cases hn'
              exact hastray
            · intro hastray
              exact ⟨p, n, rfl, rfl, hastray⟩
          rw [hanswer, hwhole, hastray]
          cases timesOut with
          | true =>
              refine iff_of_true rfl ?_
              by_cases hp : E.MatchesWhole p n
              · exact Or.inl hp
              · exact Or.inr ⟨hp, Or.inl rfl⟩
          | false =>
              have hresult : some (!answer) = some false ↔ answer = true := by
                cases answer <;> decide
              refine hresult.trans (hmatches.trans ?_)
              by_cases hp : E.MatchesWhole p n
              · exact iff_of_true (Or.inl hp) (Or.inl hp)
              · simp [hp]

/-- A call changes only whether the rule is poisoned, and its result does not depend on that. -/
theorem doesNotMatch_congr (E : RegexEngine) (rule rule' : CustomSamplingRule) (timesOut : Bool)
    (name pattern : Option (List CodeUnit)) :
    (rule.doesNotMatch E timesOut name pattern).2.operationNameRegex = rule.operationNameRegex ∧
      (rule.doesNotMatch E timesOut name pattern).1 =
        (rule'.doesNotMatch E timesOut name pattern).1 := by
  cases pattern with
  | none => exact ⟨rfl, rfl⟩
  | some p =>
      rw [CustomSamplingRule.doesNotMatch, CustomSamplingRule.doesNotMatch]
      cases E.isMatch name p with
      | none => exact ⟨rfl, rfl⟩
      | some answer =>
          cases timesOut with
          | true => exact ⟨rfl, rfl⟩
          | false => exact ⟨rfl, rfl⟩

/-- The rule matches if no pattern keeps it from it. -/
theorem isMatch_iff_doesNotMatch (rule : CustomSamplingRule) (timeouts : Timeouts)
    (span : SpanNames) : (rule.isMatch E timeouts span).1 = some true ↔
      rule.hasPoisonedRegex = false ∧
      (rule.doesNotMatch E timeouts.service span.serviceName rule.serviceNameRegex).1 =
        some false ∧
      (rule.doesNotMatch E timeouts.operation span.operationName rule.operationNameRegex).1 =
        some false := by
  rw [CustomSamplingRule.isMatch]
  cases hpoisoned : rule.hasPoisonedRegex with
  | true =>
      rw [if_pos rfl]
      exact iff_of_false (fun h => by cases h) fun h => Bool.noConfusion h.1
  | false =>
      rw [if_neg Bool.false_ne_true, and_iff_right rfl]
      obtain ⟨hregex, -⟩ := doesNotMatch_congr E rule rule timeouts.service span.serviceName
        rule.serviceNameRegex
      rcases hservice : rule.doesNotMatch E timeouts.service span.serviceName
        rule.serviceNameRegex with ⟨_ | _ | _, rule'⟩
      · exact iff_of_false (fun h => by cases h) fun h => by cases h.1
      · rw [hservice] at hregex
        obtain ⟨-, hoperation⟩ := doesNotMatch_congr E rule rule' timeouts.operation
          span.operationName rule.operationNameRegex
        have hregex : rule'.operationNameRegex = rule.operationNameRegex := hregex
        rw [and_iff_right rfl, hoperation]
        simp only [hregex]
        rcases rule'.doesNotMatch E timeouts.operation span.operationName
          rule.operationNameRegex with ⟨_ | _ | _, rule''⟩
        · exact iff_of_false (fun h => by cases h) fun h => by cases h
        · exact iff_of_true rfl rfl
        · exact iff_of_false (fun h => by cases h) fun h => by cases h
      · exact iff_of_false (fun h => by cases h) fun h => by cases h.1

/-- **The rule matches whole names**, exactly for fitting spans. -/
theorem isMatch_exact_iff (hE : E.Documented)
    {serviceNameRegex operationNameRegex : Option (List CodeUnit)}
    (hservice : ∀ p, serviceNameRegex = some p → (E.parse p).isSome = true)
    (hoperation : ∀ p, operationNameRegex = some p → (E.parse p).isSome = true)
    (poisoned : Bool) (timeouts : Timeouts) (span : SpanNames) :
    (({ CustomSamplingRule.new culture serviceNameRegex operationNameRegex with
        hasPoisonedRegex := poisoned }.isMatch E timeouts span).1 = some true ↔
      Whole E serviceNameRegex span.serviceName ∧
        Whole E operationNameRegex span.operationName) ↔
      Fitting E culture serviceNameRegex operationNameRegex poisoned timeouts span := by
  rw [isMatch_iff_doesNotMatch]
  simp only [CustomSamplingRule.new]
  rw [doesNotMatch_iff hE hservice, doesNotMatch_iff hE hoperation]
  constructor
  · intro hiff
    refine ⟨fun hpoisoned hwhole => ?_, fun hpoisoned hastray => ?_, fun hpoisoned hastray => ?_⟩
    · obtain ⟨hfalse, -⟩ := hiff.mpr hwhole
      rw [hpoisoned] at hfalse
      cases hfalse
    · refine ⟨fun hother => ?_, fun hother => ?_⟩
      · exact hastray.not_whole (hiff.mp ⟨hpoisoned, Or.inr hastray, Or.inl hother⟩).1
      · exact hastray.not_whole (hiff.mp ⟨hpoisoned, Or.inr hastray, Or.inr hother⟩).1
    · refine ⟨fun hother => ?_, fun hother => ?_⟩
      · exact hastray.not_whole (hiff.mp ⟨hpoisoned, Or.inl hother, Or.inr hastray⟩).2
      · exact hastray.not_whole (hiff.mp ⟨hpoisoned, Or.inr hother, Or.inr hastray⟩).2
  · intro hfit
    constructor
    · rintro ⟨hpoisoned, hs | hs, ho | ho⟩
      · exact ⟨hs, ho⟩
      · exact absurd hs (hfit.operation hpoisoned ho).1
      · exact absurd ho (hfit.service hpoisoned hs).1
      · exact absurd ho (hfit.service hpoisoned hs).2
    · intro hwhole
      refine ⟨?_, Or.inl hwhole.1, Or.inl hwhole.2⟩
      rw [← Bool.not_eq_true]
      exact fun hpoisoned => hfit.unspoilt hpoisoned hwhole

end Rule

/-! ## Patterns of characters, alternatives and anchors -/

/-- The characters that mean something in a pattern. -/
def metacharacters : List CodeUnit := ascii "\\*+?|{}[]()^$.#"

/-- A character of a text. -/
def character (c : CodeUnit) : Item CodeUnit Unit := fun text place =>
  if text[place.position]? = some c then [⟨place.position + 1, ()⟩] else []

/-- What a character of a pattern stands for. -/
inductive PlainToken
  | bar
  | reads (item : Item CodeUnit Unit)

/-- A character that is not escaped. -/
def readToken (c : CodeUnit) : Option PlainToken :=
  if c = unit '|' then some .bar
  else if c = unit '^' then some (.reads beginning)
  else if c = unit '$' then some (.reads (test Dollar.endOfText.holds))
  else if c ∈ metacharacters then none
  else some (.reads (character c))

/-- A token before the alternatives that are read already. -/
def PlainToken.before (alternatives : List (List (Item CodeUnit Unit))) :
    PlainToken → List (List (Item CodeUnit Unit))
  | bar => [] :: alternatives
  | reads item => alternatives.modify 0 (item :: ·)

/-- The alternatives of a pattern of characters, escaped metacharacters, `|`, `^` and `$`. -/
def parsePlain : List CodeUnit → Option (List (List (Item CodeUnit Unit)))
  | [] => some [[]]
  | [c] => (readToken c).map (PlainToken.before [[]])
  | c :: d :: rest =>
      if c = unit '\\' then
        if d ∈ metacharacters then
          (parsePlain rest).map fun alternatives =>
            (PlainToken.reads (character d)).before alternatives
        else none
      else
        (parsePlain (d :: rest)).bind fun alternatives =>
          (readToken c).map (PlainToken.before alternatives)

/-- The regular expressions of these patterns. -/
def RegexEngine.plain : RegexEngine where
  Captures := Unit
  nothing := ()
  parse := parsePlain
  dollarBehind _ := .endOfText

/-- The items are put behind the last alternative. -/
def putBehind {ι : Type} (items : List ι) (alternatives : List (List ι)) : List (List ι) :=
  alternatives.modify (alternatives.length - 1) (· ++ items)

theorem putBehind_cons {ι : Type} (items first : List ι) {alternatives : List (List ι)}
    (h : alternatives ≠ []) :
    putBehind items (first :: alternatives) = first :: putBehind items alternatives := by
  obtain ⟨second, rest, rfl⟩ := List.exists_cons_of_ne_nil h
  rfl

/-- What is put before the alternatives and behind them does not meet. -/
theorem PlainToken.before_putBehind (token : PlainToken) (items : List (Item CodeUnit Unit))
    {alternatives : List (List (Item CodeUnit Unit))} (hne : alternatives ≠ []) :
    token.before alternatives ≠ [] ∧
      token.before (putBehind items alternatives) = putBehind items (token.before alternatives) := by
  obtain ⟨first, rest, rfl⟩ := List.exists_cons_of_ne_nil hne
  cases token with
  | bar => exact ⟨List.cons_ne_nil _ _, (putBehind_cons items [] hne).symm⟩
  | reads item =>
      refine ⟨List.cons_ne_nil _ _, ?_⟩
      cases rest with
      | nil => rfl
      | cons second rest => rfl

/-- The characters of a pattern do not change what a `$` behind it is. -/
theorem parsePlain_append_dollar (pattern : List CodeUnit) :
    ∀ alternatives, parsePlain pattern = some alternatives → alternatives ≠ [] ∧
      parsePlain (pattern ++ dollar) =
        some (putBehind [test Dollar.endOfText.holds] alternatives) := by
  have hdollar : dollar = [unit '$'] := rfl
  induction pattern using parsePlain.induct with
  | case1 =>
      intro alternatives h
      cases h
      exact ⟨List.cons_ne_nil _ _, rfl⟩
  | case2 c =>
      intro alternatives h
      rw [parsePlain, Option.map_eq_some_iff] at h
      obtain ⟨token, htoken, rfl⟩ := h
      obtain ⟨hne, hbefore⟩ := token.before_putBehind [test Dollar.endOfText.holds]
        (List.cons_ne_nil ([] : List (Item CodeUnit Unit)) [])
      have hplain : c ≠ unit '\\' := by
        rintro rfl
        cases htoken
      have hparse : parsePlain [unit '$'] =
          some (putBehind [test Dollar.endOfText.holds] [[]]) := rfl
      refine ⟨hne, ?_⟩
      rw [hdollar, List.singleton_append, parsePlain, if_neg hplain, hparse, Option.bind_some,
        htoken, Option.map_some, hbefore]
  | case3 d rest hd ih =>
      intro alternatives h
      rw [parsePlain, if_pos rfl, if_pos hd, Option.map_eq_some_iff] at h
      obtain ⟨before, hrest, rfl⟩ := h
      obtain ⟨hne, hparse⟩ := ih before hrest
      obtain ⟨hne, hbefore⟩ :=
        (PlainToken.reads (character d)).before_putBehind [test Dollar.endOfText.holds] hne
      refine ⟨hne, ?_⟩
      rw [List.cons_append, List.cons_append, parsePlain, if_pos rfl, if_pos hd, hparse,
        Option.map_some, hbefore]
  | case4 d rest hd =>
      intro alternatives h
      rw [parsePlain, if_pos rfl, if_neg hd] at h
      cases h
  | case5 c d rest hc ih =>
      intro alternatives h
      rw [parsePlain, if_neg hc, Option.bind_eq_some_iff] at h
      obtain ⟨before, hrest, h⟩ := h
      obtain ⟨token, htoken, rfl⟩ := Option.map_eq_some_iff.mp h
      obtain ⟨hne, hparse⟩ := ih before hrest
      obtain ⟨hne, hbefore⟩ := token.before_putBehind [test Dollar.endOfText.holds] hne
      refine ⟨hne, ?_⟩
      rw [List.cons_append, List.cons_append, parsePlain, if_neg hc, ← List.cons_append, hparse,
        Option.bind_some, htoken, Option.map_some, hbefore]

/-- A `^` before a pattern is put before its first alternative. -/
theorem parsePlain_caret_append {pattern : List CodeUnit}
    {alternatives : List (List (Item CodeUnit Unit))} (h : parsePlain pattern = some alternatives) :
    parsePlain (caret ++ pattern) = some (alternatives.modify 0 (beginning :: ·)) := by
  have hcaret : caret = [unit '^'] := rfl
  rw [hcaret, List.singleton_append]
  cases pattern with
  | nil =>
      cases h
      rfl
  | cons d rest =>
      have htoken : readToken (unit '^') = some (.reads beginning) := rfl
      have hplain : unit '^' ≠ unit '\\' := by decide
      rw [parsePlain, if_neg hplain, h, Option.bind_some, htoken]
      rfl

theorem plain_documented : RegexEngine.plain.Documented where
  caretBefore := parsePlain_caret_append
  dollarBehind := fun {pattern alternatives} h =>
    (parsePlain_append_dollar pattern alternatives h).2

/-- **A pattern of two alternatives** matches names that begin as the first one, and a `$` that is
escaped is not put behind a pattern once more. -/
theorem isMatch_not_whole :
    (((CustomSamplingRule.new .invariantMode (some (ascii "a|b")) none).isMatch .plain
        ⟨false, false⟩ ⟨some (ascii "ax"), none⟩).1 = some true ∧
      ¬Whole .plain (some (ascii "a|b")) (some (ascii "ax"))) ∧
    (((CustomSamplingRule.new .invariantMode none (some (ascii "a\\$"))).isMatch .plain
        ⟨false, false⟩ ⟨none, some (ascii "a$b")⟩).1 = some true ∧
      ¬Whole .plain (some (ascii "a\\$")) (some (ascii "a$b"))) := by
  have hwhole {p n : List CodeUnit} (h : ¬RegexEngine.plain.MatchesWhole p n) :
      ¬Whole .plain (some p) (some n) := by
    intro hwhole
    obtain ⟨n', hn, hmatches⟩ := hwhole p rfl
    cases hn
    exact h hmatches
  exact ⟨⟨by decide, hwhole (by decide)⟩, by decide, hwhole (by decide)⟩

/-- A pattern of one alternative, and a name that it matches. -/
theorem isMatch_exact_single :
    (((CustomSamplingRule.new .invariantMode (some (ascii "a")) none).isMatch .plain
        ⟨false, false⟩ ⟨some (ascii "a"), none⟩).1 = some true ↔
      Whole .plain (some (ascii "a")) (some (ascii "a")) ∧ Whole .plain none none) ↔
      Fitting .plain .invariantMode (some (ascii "a")) none false ⟨false, false⟩
        ⟨some (ascii "a"), none⟩ :=
  have haccepted : ∀ p, some (ascii "a") = some p → (RegexEngine.plain.parse p).isSome = true := by
    intro p hp
    cases hp
    decide
  have hnone : ∀ p, (none : Option (List CodeUnit)) = some p →
      (RegexEngine.plain.parse p).isSome = true := fun p hp => by cases hp
  isMatch_exact_iff plain_documented haccepted hnone false ⟨false, false⟩ ⟨some (ascii "a"), none⟩

end DdTrace.Sampling
