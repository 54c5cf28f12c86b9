import DdTrace.Lib.FiniteChecks
import DdTrace.Lib.Texts

/-!
# Simplified routes

* `simplifyRoutePattern`, `simplifyRouteTemplate`: the two copies of the code.
* `printedRoute`: a route as it is to be printed.
* `count_route`: how many slashes too many the code prints.
* `prints_iff`: the routes that are printed as they are to be.

Source: `AspNetCoreDiagnosticObserver.cs`, `SimplifyRoutePattern`
-/

namespace DdTrace.DiagnosticListeners

open DdTrace.Lib

/-! ## Route patterns -/

/-- The content of a literal or a separator, which is never empty. -/
structure PartContent where
  chars : List Char
  ne_nil : chars ≠ []
  deriving DecidableEq, Repr

/-- The name of a parameter, as ASP.NET Core accepts it. -/
structure ParameterName where
  chars : List Char
  ne_nil : chars ≠ []
  valid : ∀ c ∈ chars, c ∉ ['/', '{', '}', '?', '*']
  deriving DecidableEq, Repr

/-- The kinds of a parameter; a catch-all is written with one star or with two. -/
inductive ParameterKind
  | standard
  | optional
  | catchAll (doubleStar : Bool)
  deriving DecidableEq, Repr

/-- The parts of a segment, without constraints and defaults. -/
inductive RoutePatternPart
  | literal (content : PartContent)
  | separator (content : PartContent)
  | parameter (name : ParameterName) (kind : ParameterKind)
  deriving DecidableEq, Repr

/-- Source: `RoutePattern.cs` -/
structure RoutePattern where
  rawText : Option (List Char)
  pathSegments : List (List RoutePatternPart)

/-- The kind is `Optional`. -/
def ParameterKind.isOptional : ParameterKind → Bool
  | optional => true
  | _ => false

/-- The kind is `CatchAll`. -/
def ParameterKind.isCatchAll : ParameterKind → Bool
  | catchAll _ => true
  | _ => false

/-- `EncodeSlashes`, which is false exactly for two stars. -/
def ParameterKind.encodeSlashes : ParameterKind → Bool
  | catchAll doubleStar => !doubleStar
  | _ => true

/-- What is passed beside the route: which route values there are, and the names. -/
structure RouteArguments where
  containsKey : List Char → Bool
  areaName : Option (List Char)
  controllerName : Option (List Char)
  actionName : Option (List Char)

/-! ## The code -/

section Code

variable (arguments : RouteArguments)

/-- Source: `SimplifyRoutePattern(RoutePattern)`, the body of its loops -/
def appendPart : RoutePatternPart → List Char
  | .literal content => '/' :: content.chars
  | .separator content => '/' :: content.chars
  | .parameter name kind =>
      if Texts.equalsIgnoreCase name.chars "area".toList then
        '/' :: arguments.areaName.getD []
      else if Texts.equalsIgnoreCase name.chars "controller".toList then
        '/' :: arguments.controllerName.getD []
      else if Texts.equalsIgnoreCase name.chars "action".toList then
        '/' :: arguments.actionName.getD []
      else if !kind.isOptional || arguments.containsKey name.chars then
        "/\x7b".toList ++
          (if kind.isCatchAll then if kind.encodeSlashes then "**".toList else ['*'] else []) ++
          name.chars ++ (if kind.isOptional then ['?'] else []) ++ ['}']
      else []

/-- The string of a builder, in lower case; an empty one is replaced by the root. -/
def finishRoute (casing : Texts.LowerCasing) (simplifiedRoute : List Char) : List Char :=
  if simplifiedRoute = [] then ['/'] else simplifiedRoute.map casing.lower

/-- `none` is a `NullReferenceException`: the raw text is asked for its length.
Source: `SimplifyRoutePattern(RoutePattern)` -/
def simplifyRoutePattern (casing : Texts.LowerCasing) (routePattern : RoutePattern) :
    Option (List Char) :=
  routePattern.rawText.map fun _ =>
    finishRoute casing
      (routePattern.pathSegments.flatMap fun pathSegment =>
        pathSegment.flatMap (appendPart arguments))

/-- The parts of a template, which has no separators and does not tell the stars apart. -/
inductive TemplatePart
  | literal (text : List Char)
  | parameter (name : List Char) (isOptional isCatchAll : Bool)
  deriving DecidableEq, Repr

/-- A parsed template. -/
structure RouteTemplate where
  templateText : Option (List Char)
  segments : List (List TemplatePart)

/-- Source: `SimplifyRoutePattern(RouteTemplate)`, the body of its loops -/
def appendTemplatePart : TemplatePart → List Char
  | .literal text => '/' :: text
  | .parameter name isOptional isCatchAll =>
      if Texts.equalsIgnoreCase name "area".toList then '/' :: arguments.areaName.getD []
      else if Texts.equalsIgnoreCase name "controller".toList then
        '/' :: arguments.controllerName.getD []
      else if Texts.equalsIgnoreCase name "action".toList then
        '/' :: arguments.actionName.getD []
      else if !isOptional || arguments.containsKey name then
        "/\x7b".toList ++ (if isCatchAll then ['*'] else []) ++ name ++
          (if isOptional then ['?'] else []) ++ ['}']
      else []

/-- Source: `SimplifyRoutePattern(RouteTemplate)` -/
def simplifyRouteTemplate (casing : Texts.LowerCasing) (routePattern : RouteTemplate) :
    Option (List Char) :=
  routePattern.templateText.map fun _ =>
    finishRoute casing
      (routePattern.segments.flatMap fun pathSegment =>
        pathSegment.flatMap (appendTemplatePart arguments))

end Code

/-- The part of the template for a part of the pattern. -/
def RoutePatternPart.toTemplatePart : RoutePatternPart → TemplatePart
  | literal content => .literal content.chars
  | separator content => .literal content.chars
  | parameter name kind => .parameter name.chars kind.isOptional kind.isCatchAll

/-- The same template in the other object model. -/
def RoutePattern.toTemplate (routePattern : RoutePattern) : RouteTemplate where
  templateText := routePattern.rawText
  segments := routePattern.pathSegments.map fun pathSegment =>
    pathSegment.map RoutePatternPart.toTemplatePart

/-! ## Routes as they are to be printed -/

/-- The stars of a parameter. -/
def ParameterKind.stars : ParameterKind → List Char
  | catchAll doubleStar => if doubleStar then "**".toList else ['*']
  | _ => []

section Printed

variable (arguments : RouteArguments)

/-- The name that an area, controller or action parameter is replaced by. -/
def replacement (name : ParameterName) : Option (List Char) :=
  if Texts.equalsIgnoreCase name.chars "area".toList then some (arguments.areaName.getD [])
  else if Texts.equalsIgnoreCase name.chars "controller".toList then
    some (arguments.controllerName.getD [])
  else if Texts.equalsIgnoreCase name.chars "action".toList then
    some (arguments.actionName.getD [])
  else none

/-- What a part is printed as. -/
def printedPart : RoutePatternPart → List Char
  | .literal content => content.chars
  | .separator content => content.chars
  | .parameter name kind =>
      match replacement arguments name with
      | some text => text
      | none =>
          if kind = .optional ∧ arguments.containsKey name.chars = false then []
          else
            ['{'] ++ kind.stars ++ name.chars ++ (if kind = .optional then ['?'] else []) ++ ['}']

/-- A segment of which nothing is left is not kept, and the others stand behind one slash each. -/
def printedSegment (pathSegment : List RoutePatternPart) : List Char :=
  let text := pathSegment.flatMap (printedPart arguments)
  if text = [] then [] else '/' :: text

/-- The route; the root is printed where no segment is kept. -/
def printedRoute (casing : Texts.LowerCasing) (routePattern : RoutePattern) : List Char :=
  finishRoute casing (routePattern.pathSegments.flatMap (printedSegment arguments))

/-- Both overloads print the route. -/
def Prints (casing : Texts.LowerCasing) (routePattern : RoutePattern) : Prop :=
  simplifyRoutePattern arguments casing routePattern =
      some (printedRoute arguments casing routePattern) ∧
    simplifyRouteTemplate arguments casing routePattern.toTemplate =
      simplifyRoutePattern arguments casing routePattern

/-! ## The condition -/

/-- The part is not an optional parameter without a value. -/
def isAppended : RoutePatternPart → Bool
  | .parameter name kind =>
      (replacement arguments name).isSome || !kind.isOptional || arguments.containsKey name.chars
  | _ => true

/-- The part is an area, controller or action parameter without a name. -/
def isNameless : RoutePatternPart → Bool
  | .parameter name _ => replacement arguments name == some []
  | _ => false

/-- The part is a catch-all parameter that is not replaced by a name. -/
def isStarred : RoutePatternPart → Bool
  | .parameter name kind => (replacement arguments name).isNone && kind.isCatchAll
  | _ => false

/-- At most one part of the segment is appended, with a name and without a star. -/
structure SimpleSegment (pathSegment : List RoutePatternPart) : Prop where
  single : (pathSegment.filter (isAppended arguments)).length ≤ 1
  named : ∀ part ∈ pathSegment, isNameless arguments part = false
  plain : ∀ part ∈ pathSegment, isStarred arguments part = false

/-- The routes that are printed right: all segments are simple, or there is nothing to print but
one part without a name. -/
structure Simple (routePattern : RoutePattern) : Prop where
  rawText : routePattern.rawText ≠ none
  segments : (∀ pathSegment ∈ routePattern.pathSegments, SimpleSegment arguments pathSegment) ∨
    ∃ part, routePattern.pathSegments.flatten.filter (isAppended arguments) = [part] ∧
      isNameless arguments part = true

end Printed

/-! ## Parts -/

section Parts

variable (arguments : RouteArguments)

/-- The branches of the code for a parameter, by the name that replaces it. -/
theorem appendPart_parameter (name : ParameterName) (kind : ParameterKind) :
    appendPart arguments (.parameter name kind) =
      match replacement arguments name with
      | some text => '/' :: text
      | none =>
          if !kind.isOptional || arguments.containsKey name.chars then
            "/\x7b".toList ++
              (if kind.isCatchAll then if kind.encodeSlashes then "**".toList else ['*'] else []) ++
              name.chars ++ (if kind.isOptional then ['?'] else []) ++ ['}']
          else [] := by
  unfold appendPart replacement
  dsimp only
  split
  · rfl
  · split
    · rfl
    · split <;> rfl

/-- The same for the other overload. -/
theorem appendTemplatePart_parameter (name : ParameterName) (isOptional isCatchAll : Bool) :
    appendTemplatePart arguments (.parameter name.chars isOptional isCatchAll) =
      match replacement arguments name with
      | some text => '/' :: text
      | none =>
          if !isOptional || arguments.containsKey name.chars then
            "/\x7b".toList ++ (if isCatchAll then ['*'] else []) ++ name.chars ++
              (if isOptional then ['?'] else []) ++ ['}']
          else [] := by
  unfold appendTemplatePart replacement
  dsimp only
  split
  · rfl
  · split
    · rfl
    · split <;> rfl

/-- **A part without a star** is printed behind a slash, or left out. -/
theorem appendPart_of_plain {part : RoutePatternPart} (h : isStarred arguments part = false) :
    appendPart arguments part =
      if isAppended arguments part then '/' :: printedPart arguments part else [] := by
  cases part with
  | literal content => rfl
  | separator content => rfl
  | parameter name kind =>
      cases hname : replacement arguments name with
      | some text => simp [appendPart_parameter, isAppended, printedPart, hname]
      | none =>
          cases kind with
          | standard =>
              simp [appendPart_parameter, isAppended, printedPart, hname, ParameterKind.isOptional,
                ParameterKind.isCatchAll, ParameterKind.stars]
          | optional =>
              cases hkey : arguments.containsKey name.chars with
              | true =>
                  simp [appendPart_parameter, isAppended, printedPart, hname, hkey,
                    ParameterKind.isOptional, ParameterKind.isCatchAll, ParameterKind.stars]
              | false =>
                  simp [appendPart_parameter, isAppended, hname, hkey, ParameterKind.isOptional]
          | catchAll doubleStar => simp [isStarred, hname, ParameterKind.isCatchAll] at h

/-- A part with a star has the wrong number of them. -/
theorem exists_of_starred {part : RoutePatternPart} (h : isStarred arguments part = true) :
    ∃ (name : ParameterName) (doubleStar : Bool),
      appendPart arguments part = "/\x7b".toList ++ (if doubleStar then ['*'] else "**".toList) ++
          name.chars ++ ['}'] ∧
        printedPart arguments part = ['{'] ++ (if doubleStar then "**".toList else ['*']) ++
          name.chars ++ ['}'] := by
  cases part with
  | literal content => cases h
  | separator content => cases h
  | parameter name kind =>
      dsimp only [isStarred] at h
      cases hname : replacement arguments name with
      | some text =>
          rw [hname] at h
          cases h
      | none =>
          rw [hname] at h
          cases kind with
          | standard => cases h
          | optional => cases h
          | catchAll doubleStar =>
              refine ⟨name, doubleStar, ?_, ?_⟩
              · rw [appendPart_parameter, hname]
                cases doubleStar <;> simp [ParameterKind.isOptional, ParameterKind.isCatchAll,
                  ParameterKind.encodeSlashes]
              · unfold printedPart
                dsimp only
                rw [hname]
                cases doubleStar <;> simp [ParameterKind.stars]

theorem isAppended_of_starred {part : RoutePatternPart} (h : isStarred arguments part = true) :
    isAppended arguments part = true := by
  cases part with
  | literal content => rfl
  | separator content => rfl
  | parameter name kind =>
      cases kind with
      | standard => simp [isAppended, ParameterKind.isOptional]
      | optional => simp [isStarred, ParameterKind.isCatchAll] at h
      | catchAll doubleStar => simp [isAppended, ParameterKind.isOptional]

theorem isAppended_of_nameless {part : RoutePatternPart} (h : isNameless arguments part = true) :
    isAppended arguments part = true := by
  cases part with
  | literal content => rfl
  | separator content => rfl
  | parameter name kind =>
      have hname : replacement arguments name = some [] := beq_iff_eq.mp h
      simp [isAppended, hname]

theorem not_starred_of_nameless {part : RoutePatternPart} (h : isNameless arguments part = true) :
    isStarred arguments part = false := by
  cases part with
  | literal content => rfl
  | separator content => rfl
  | parameter name kind =>
      have hname : replacement arguments name = some [] := beq_iff_eq.mp h
      simp [isStarred, hname]

/-- What is left out is not to be printed. -/
theorem printedPart_of_not_appended {part : RoutePatternPart}
    (h : isAppended arguments part = false) : printedPart arguments part = [] := by
  cases part with
  | literal content => cases h
  | separator content => cases h
  | parameter name kind =>
      unfold printedPart
      dsimp only [isAppended] at h ⊢
      cases hname : replacement arguments name with
      | some text =>
          rw [hname] at h
          cases h
      | none =>
          rw [hname] at h
          cases kind with
          | standard => cases h
          | optional => exact if_pos ⟨rfl, h⟩
          | catchAll doubleStar => cases h

/-- Nothing is printed for a part that is appended exactly if it has no name. -/
theorem printedPart_eq_nil_iff {part : RoutePatternPart} (h : isAppended arguments part = true) :
    printedPart arguments part = [] ↔ isNameless arguments part = true := by
  cases part with
  | literal content => exact iff_of_false content.ne_nil Bool.false_ne_true
  | separator content => exact iff_of_false content.ne_nil Bool.false_ne_true
  | parameter name kind =>
      unfold printedPart isNameless
      dsimp only [isAppended] at h ⊢
      cases hname : replacement arguments name with
      | some text => simp
      | none =>
          rw [hname] at h
          cases kind with
          | standard => simp
          | optional =>
              have hkey : arguments.containsKey name.chars = true := h
              simp [hkey]
          | catchAll doubleStar => simp

/-- **One slash** is put before every part that is appended. -/
theorem count_appendPart (part : RoutePatternPart) :
    (appendPart arguments part).count '/' =
      (if isAppended arguments part then 1 else 0) + (printedPart arguments part).count '/' := by
  cases hstarred : isStarred arguments part with
  | false =>
      rw [appendPart_of_plain arguments hstarred]
      cases happended : isAppended arguments part with
      | true =>
          rw [if_pos rfl, if_pos rfl, List.count_cons_self, Nat.add_comm]
      | false =>
          rw [printedPart_of_not_appended arguments happended]
          rfl
  | true =>
      obtain ⟨name, doubleStar, happend, hprinted⟩ := exists_of_starred arguments hstarred
      rw [isAppended_of_starred arguments hstarred, happend, hprinted]
      cases doubleStar <;> simp [List.count_append, Nat.add_comm]

/-- The two overloads treat a part without a star alike. -/
theorem appendTemplatePart_of_plain {part : RoutePatternPart}
    (h : isStarred arguments part = false) :
    appendTemplatePart arguments part.toTemplatePart = appendPart arguments part := by
  cases part with
  | literal content => rfl
  | separator content => rfl
  | parameter name kind =>
      rw [appendPart_parameter, RoutePatternPart.toTemplatePart, appendTemplatePart_parameter]
      dsimp only [isStarred] at h
      cases hname : replacement arguments name with
      | some text => rfl
      | none =>
          rw [hname] at h
          cases kind with
          | standard => rfl
          | optional => rfl
          | catchAll doubleStar => cases h

end Parts

/-! ## Segments -/

section Segments

variable (arguments : RouteArguments)

/-- What the code appends for a segment. -/
def appendSegment (pathSegment : List RoutePatternPart) : List Char :=
  pathSegment.flatMap (appendPart arguments)

/-- Only the parts that are appended matter. -/
theorem flatMap_filter_isAppended {f : RoutePatternPart → List Char}
    (h : ∀ part, isAppended arguments part = false → f part = []) (parts : List RoutePatternPart) :
    (parts.filter (isAppended arguments)).flatMap f = parts.flatMap f := by
  induction parts with
  | nil => rfl
  | cons part parts ih =>
      cases happended : isAppended arguments part with
      | true => rw [List.filter_cons_of_pos happended, List.flatMap_cons, List.flatMap_cons, ih]
      | false =>
          rw [List.filter_cons_of_neg (by simp [happended]), List.flatMap_cons, h part happended, ih]
          rfl

theorem appendPart_of_not_appended {part : RoutePatternPart}
    (h : isAppended arguments part = false) : appendPart arguments part = [] := by
  have hplain : isStarred arguments part = false := by
    rw [← Bool.not_eq_true]
    intro hstarred
    rw [isAppended_of_starred arguments hstarred] at h
    cases h
  rw [appendPart_of_plain arguments hplain, h]
  rfl

theorem count_appendSegment (pathSegment : List RoutePatternPart) :
    (appendSegment arguments pathSegment).count '/' =
      (pathSegment.filter (isAppended arguments)).length +
        (pathSegment.flatMap (printedPart arguments)).count '/' := by
  induction pathSegment with
  | nil => rfl
  | cons part parts ih =>
      have hsplit : appendSegment arguments (part :: parts) =
          appendPart arguments part ++ appendSegment arguments parts := rfl
      rw [hsplit, List.flatMap_cons, List.count_append, List.count_append, count_appendPart, ih,
        List.filter_cons]
      cases isAppended arguments part with
      | true => simp; omega
      | false => simp; omega

theorem count_printedSegment (pathSegment : List RoutePatternPart) :
    (printedSegment arguments pathSegment).count '/' =
      (if pathSegment.flatMap (printedPart arguments) = [] then 0 else 1) +
        (pathSegment.flatMap (printedPart arguments)).count '/' := by
  unfold printedSegment
  dsimp only
  split
  case isTrue hempty => rw [hempty]; rfl
  case isFalse hne => rw [List.count_cons_self, Nat.add_comm]

/-- Without a part that is appended there is nothing to print. -/
theorem flatMap_printedPart_eq_nil {pathSegment : List RoutePatternPart}
    (h : pathSegment.filter (isAppended arguments) = []) :
    pathSegment.flatMap (printedPart arguments) = [] := by
  rw [← flatMap_filter_isAppended arguments
    (fun part => printedPart_of_not_appended arguments) pathSegment, h]
  rfl

/-- The code never prints too few slashes. -/
theorem count_printedSegment_le (pathSegment : List RoutePatternPart) :
    (printedSegment arguments pathSegment).count '/' ≤
      (appendSegment arguments pathSegment).count '/' := by
  rw [count_appendSegment, count_printedSegment]
  split
  case isTrue hempty => omega
  case isFalse hne =>
    have hpos : (pathSegment.filter (isAppended arguments)).length ≠ 0 := by
      intro hzero
      exact hne (flatMap_printedPart_eq_nil arguments (List.length_eq_zero_iff.mp hzero))
    omega

/-- **A simple segment** is printed right. -/
theorem SimpleSegment.appendSegment_eq {arguments : RouteArguments}
    {pathSegment : List RoutePatternPart} (h : SimpleSegment arguments pathSegment) :
    appendSegment arguments pathSegment = printedSegment arguments pathSegment := by
  have happend := flatMap_filter_isAppended arguments
    (fun part => appendPart_of_not_appended arguments) pathSegment
  have hprinted := flatMap_filter_isAppended arguments
    (fun part => printedPart_of_not_appended arguments) pathSegment
  unfold appendSegment printedSegment
  rw [← happend, ← hprinted]
  cases hfilter : pathSegment.filter (isAppended arguments) with
  | nil => rfl
  | cons part others =>
      have hothers : others = [] := by
        have hsingle := h.single
        rw [hfilter, List.length_cons] at hsingle
        exact List.length_eq_zero_iff.mp (by omega)
      have hpart : part ∈ pathSegment.filter (isAppended arguments) := by
        rw [hfilter]
        exact List.mem_cons_self ..
      obtain ⟨hmem, happended⟩ := List.mem_filter.mp hpart
      have hne : printedPart arguments part ≠ [] := by
        intro hempty
        have hnameless := (printedPart_eq_nil_iff arguments happended).mp hempty
        rw [h.named part hmem] at hnameless
        cases hnameless
      subst hothers
      simp only [List.flatMap_singleton]
      rw [if_neg hne, appendPart_of_plain arguments (h.plain part hmem), if_pos happended]

/-- A segment with the right number of slashes appends nothing, or one part with something to
print. -/
theorem filter_of_count {pathSegment : List RoutePatternPart}
    (h : (appendSegment arguments pathSegment).count '/' =
      (printedSegment arguments pathSegment).count '/') :
    pathSegment.filter (isAppended arguments) = [] ∨
      ∃ part, pathSegment.filter (isAppended arguments) = [part] ∧
        isNameless arguments part = false := by
  rw [count_appendSegment, count_printedSegment] at h
  have hprinted := flatMap_filter_isAppended arguments
    (fun part => printedPart_of_not_appended arguments) pathSegment
  split at h
  case isTrue hempty => exact .inl (List.length_eq_zero_iff.mp (by omega))
  case isFalse hne =>
    obtain ⟨part, hpart⟩ := List.length_eq_one_iff.mp
      (show (pathSegment.filter (isAppended arguments)).length = 1 by omega)
    refine .inr ⟨part, hpart, ?_⟩
    rw [← Bool.not_eq_true]
    intro hnameless
    apply hne
    rw [← hprinted, hpart, List.flatMap_singleton]
    exact (printedPart_eq_nil_iff arguments (isAppended_of_nameless arguments hnameless)).mpr hnameless

/-- Such a segment is simple if it has no star. -/
theorem SimpleSegment.of_filter {arguments : RouteArguments} {pathSegment : List RoutePatternPart}
    (h : pathSegment.filter (isAppended arguments) = [] ∨
      ∃ part, pathSegment.filter (isAppended arguments) = [part] ∧
        isNameless arguments part = false)
    (hplain : ∀ part ∈ pathSegment, isStarred arguments part = false) :
    SimpleSegment arguments pathSegment := by
  have hmem {part : RoutePatternPart} (hpart : part ∈ pathSegment)
      (hnameless : isNameless arguments part = true) :
      part ∈ pathSegment.filter (isAppended arguments) :=
    List.mem_filter.mpr ⟨hpart, isAppended_of_nameless arguments hnameless⟩
  rcases h with hnone | ⟨only, hone, hnamed⟩
  · refine ⟨by rw [hnone]; exact Nat.zero_le 1, fun part hpart => ?_, hplain⟩
    rw [← Bool.not_eq_true]
    intro hnameless
    have hin := hmem hpart hnameless
    rw [hnone] at hin
    cases hin
  · refine ⟨by rw [hone]; exact le_refl 1, fun part hpart => ?_, hplain⟩
    rw [← Bool.not_eq_true]
    intro hnameless
    have hin := hmem hpart hnameless
    rw [hone, List.mem_singleton] at hin
    rw [hin, hnamed] at hnameless
    cases hnameless

end Segments

/-! ## Routes -/

section Routes

variable (arguments : RouteArguments) (casing : Texts.LowerCasing)

theorem count_lower (s : List Char) : (s.map casing.lower).count '/' = s.count '/' := by
  rw [List.count_eq_countP, List.countP_map, List.count_eq_countP]
  apply List.countP_congr
  intro c _
  rw [Function.comp_apply, beq_iff_eq, beq_iff_eq, casing.slash]

/-- **How many slashes too many** the code prints. -/
theorem count_route (pathSegments : List (List RoutePatternPart)) :
    (pathSegments.flatMap (printedSegment arguments)).count '/' ≤
      (pathSegments.flatMap (appendSegment arguments)).count '/' := by
  induction pathSegments with
  | nil => exact le_refl _
  | cons pathSegment rest ih =>
      rw [List.flatMap_cons, List.flatMap_cons, List.count_append, List.count_append]
      exact Nat.add_le_add (count_printedSegment_le arguments pathSegment) ih

/-- One star more or less makes a difference, since no name begins with one. -/
theorem stars_ne (name : ParameterName) (s t : List Char) :
    ('*' :: s).map casing.lower ≠ (name.chars ++ t).map casing.lower := by
  intro h
  cases hname : name.chars with
  | nil => exact name.ne_nil hname
  | cons c rest =>
      rw [hname, List.cons_append, List.map_cons, List.map_cons] at h
      have hc : casing.lower c = '*' :=
        (List.cons.inj h).1.symm.trans ((casing.star '*').mpr rfl)
      have hvalid := name.valid c (by rw [hname]; exact List.mem_cons_self ..)
      rw [(casing.star c).mp hc] at hvalid
      exact hvalid (by decide)

/-- A segment with a star is not printed right, whatever follows. -/
theorem starred_segment_ne {pathSegment : List RoutePatternPart} {part : RoutePatternPart}
    (hstarred : isStarred arguments part = true)
    (hone : pathSegment.filter (isAppended arguments) = [part]) (s t : List Char) :
    (appendSegment arguments pathSegment ++ s).map casing.lower ≠
      (printedSegment arguments pathSegment ++ t).map casing.lower := by
  obtain ⟨name, doubleStar, happend, hprinted⟩ := exists_of_starred arguments hstarred
  have hsegment : appendSegment arguments pathSegment = appendPart arguments part := by
    rw [appendSegment, ← flatMap_filter_isAppended arguments
      (fun part => appendPart_of_not_appended arguments) pathSegment, hone, List.flatMap_singleton]
  have htext : pathSegment.flatMap (printedPart arguments) = printedPart arguments part := by
    rw [← flatMap_filter_isAppended arguments
      (fun part => printedPart_of_not_appended arguments) pathSegment, hone, List.flatMap_singleton]
  have hne : printedPart arguments part ≠ [] := by
    rw [hprinted]
    exact List.append_ne_nil_of_right_ne_nil _ (List.cons_ne_nil _ _)
  unfold printedSegment
  rw [hsegment, htext, if_neg hne, happend, hprinted]
  intro h
  cases doubleStar with
  | true =>
      have hrest : (name.chars ++ (['}'] ++ s)).map casing.lower =
          ('*' :: (name.chars ++ (['}'] ++ t))).map casing.lower := by
        simpa using h
      exact stars_ne casing name _ _ hrest.symm
  | false =>
      have hrest : ('*' :: (name.chars ++ (['}'] ++ s))).map casing.lower =
          (name.chars ++ (['}'] ++ t)).map casing.lower := by
        simpa using h
      exact stars_ne casing name _ _ hrest

/-- **Only simple segments are printed right.** -/
theorem simple_of_lower_eq {pathSegments : List (List RoutePatternPart)}
    (h : (pathSegments.flatMap (appendSegment arguments)).map casing.lower =
      (pathSegments.flatMap (printedSegment arguments)).map casing.lower) :
    ∀ pathSegment ∈ pathSegments, SimpleSegment arguments pathSegment := by
  induction pathSegments with
  | nil => exact List.forall_mem_nil _
  | cons pathSegment rest ih =>
      rw [List.flatMap_cons, List.flatMap_cons] at h
      have hcount := congrArg (List.count '/') h
      rw [count_lower, count_lower, List.count_append, List.count_append] at hcount
      have hsegment := count_printedSegment_le arguments pathSegment
      have hrest := count_route arguments rest
      have hfilter := filter_of_count arguments
        (show (appendSegment arguments pathSegment).count '/' =
          (printedSegment arguments pathSegment).count '/' by omega)
      have hplain : ∀ part ∈ pathSegment, isStarred arguments part = false := by
        intro part hpart
        rw [← Bool.not_eq_true]
        intro hstarred
        have hin := List.mem_filter.mpr ⟨hpart, isAppended_of_starred arguments hstarred⟩
        rcases hfilter with hnone | ⟨only, hone, -⟩
        · rw [hnone] at hin
          cases hin
        · rw [hone, List.mem_singleton] at hin
          subst hin
          exact starred_segment_ne arguments casing hstarred hone _ _ h
      have hsimple := SimpleSegment.of_filter hfilter hplain
      rw [hsimple.appendSegment_eq, List.map_append, List.map_append,
        List.append_cancel_left_eq] at h
      exact List.forall_mem_cons.mpr ⟨hsimple, ih h⟩

theorem appendSegments_eq {pathSegments : List (List RoutePatternPart)}
    (h : ∀ pathSegment ∈ pathSegments, SimpleSegment arguments pathSegment) :
    pathSegments.flatMap (appendSegment arguments) =
      pathSegments.flatMap (printedSegment arguments) := by
  apply List.flatMap_congr
  intro pathSegment hmem
  exact (h pathSegment hmem).appendSegment_eq

/-- The overload for templates, where no part has a star. -/
theorem simplifyRouteTemplate_eq {routePattern : RoutePattern}
    (h : ∀ part ∈ routePattern.pathSegments.flatten, isStarred arguments part = false) :
    simplifyRouteTemplate arguments casing routePattern.toTemplate =
      simplifyRoutePattern arguments casing routePattern := by
  have hsegments : (routePattern.pathSegments.map fun pathSegment =>
        pathSegment.map RoutePatternPart.toTemplatePart).flatMap
          (fun pathSegment => pathSegment.flatMap (appendTemplatePart arguments)) =
      routePattern.pathSegments.flatMap (appendSegment arguments) := by
    rw [List.flatMap_map]
    apply List.flatMap_congr
    intro pathSegment hsegment
    rw [List.flatMap_map, appendSegment]
    apply List.flatMap_congr
    intro part hpart
    exact appendTemplatePart_of_plain arguments (h part (List.mem_flatten_of_mem hsegment hpart))
  unfold simplifyRouteTemplate simplifyRoutePattern RoutePattern.toTemplate
  dsimp only
  rw [hsegments]
  rfl

/-- The code does not look at the bounds of segments. -/
theorem appendSegments_flatten (pathSegments : List (List RoutePatternPart)) :
    pathSegments.flatMap (appendSegment arguments) =
      appendSegment arguments pathSegments.flatten := by
  rw [appendSegment, List.flatten_eq_flatMap, List.flatMap_assoc]
  rfl

/-- No segment is kept exactly if no part has anything to print. -/
theorem printedSegments_eq_nil_iff (pathSegments : List (List RoutePatternPart)) :
    pathSegments.flatMap (printedSegment arguments) = [] ↔
      ∀ part ∈ pathSegments.flatten, printedPart arguments part = [] := by
  have hsegment (pathSegment : List RoutePatternPart) : printedSegment arguments pathSegment = [] ↔
      ∀ part ∈ pathSegment, printedPart arguments part = [] := by
    rw [← List.flatMap_eq_nil_iff]
    unfold printedSegment
    dsimp only
    split
    case isTrue hempty => exact iff_of_true rfl hempty
    case isFalse hne => exact iff_of_false (List.cons_ne_nil _ _) hne
  rw [List.flatMap_eq_nil_iff]
  simp only [hsegment, List.mem_flatten]
  constructor
  · rintro h part ⟨pathSegment, hmem, hpart⟩
    exact h pathSegment hmem part hpart
  · intro h pathSegment hmem part hpart
    exact h part ⟨pathSegment, hmem, hpart⟩

/-- Where a single part without a name is appended, the code prints the root, as is right. -/
theorem appendSegments_of_nameless {pathSegments : List (List RoutePatternPart)}
    {part : RoutePatternPart}
    (hone : pathSegments.flatten.filter (isAppended arguments) = [part])
    (hnameless : isNameless arguments part = true) :
    pathSegments.flatMap (appendSegment arguments) = ['/'] ∧
      pathSegments.flatMap (printedSegment arguments) = [] := by
  have happended := isAppended_of_nameless arguments hnameless
  have hempty := (printedPart_eq_nil_iff arguments happended).mpr hnameless
  constructor
  · rw [appendSegments_flatten, appendSegment, ← flatMap_filter_isAppended arguments
      (fun part => appendPart_of_not_appended arguments), hone, List.flatMap_singleton,
      appendPart_of_plain arguments (not_starred_of_nameless arguments hnameless), if_pos happended,
      hempty]
  · rw [printedSegments_eq_nil_iff]
    intro other hother
    cases hcase : isAppended arguments other with
    | false => exact printedPart_of_not_appended arguments hcase
    | true =>
        have hin := List.mem_filter.mpr ⟨hother, hcase⟩
        rw [hone, List.mem_singleton] at hin
        rw [hin, hempty]

/-- The only other way to print a root. -/
theorem nameless_of_root {pathSegments : List (List RoutePatternPart)}
    (hroot : (pathSegments.flatMap (appendSegment arguments)).count '/' = 1)
    (hnothing : pathSegments.flatMap (printedSegment arguments) = []) :
    ∃ part, pathSegments.flatten.filter (isAppended arguments) = [part] ∧
      isNameless arguments part = true := by
  have hempty := (printedSegments_eq_nil_iff arguments pathSegments).mp hnothing
  rw [appendSegments_flatten, count_appendSegment, List.flatMap_eq_nil_iff.mpr hempty,
    List.count_nil, Nat.add_zero] at hroot
  obtain ⟨part, hpart⟩ := List.length_eq_one_iff.mp hroot
  have hmem : part ∈ pathSegments.flatten.filter (isAppended arguments) := by
    rw [hpart]
    exact List.mem_singleton_self part
  obtain ⟨hin, happended⟩ := List.mem_filter.mp hmem
  exact ⟨part, hpart, (printedPart_eq_nil_iff arguments happended).mp (hempty part hin)⟩

/-- **Simplified routes.** Both overloads print the route exactly if it is `Simple`. -/
theorem prints_iff (routePattern : RoutePattern) :
    Prints arguments casing routePattern ↔ Simple arguments routePattern := by
  constructor
  · rintro ⟨hprints, -⟩
    unfold simplifyRoutePattern printedRoute at hprints
    obtain ⟨text, htext, hroute⟩ := Option.map_eq_some_iff.mp hprints
    change finishRoute casing (routePattern.pathSegments.flatMap (appendSegment arguments)) = _
      at hroute
    refine ⟨by rw [htext]; exact Option.some_ne_none text, ?_⟩
    have hcount := count_route arguments routePattern.pathSegments
    unfold finishRoute at hroute
    by_cases happend : routePattern.pathSegments.flatMap (appendSegment arguments) = []
    · rw [if_pos happend] at hroute
      by_cases hprinted : routePattern.pathSegments.flatMap (printedSegment arguments) = []
      · exact .inl (simple_of_lower_eq arguments casing (by rw [happend, hprinted]))
      · rw [if_neg hprinted] at hroute
        have hslash := congrArg (List.count '/') hroute
        rw [count_lower] at hslash
        rw [happend, ← hslash] at hcount
        exact absurd hcount (by decide)
    · rw [if_neg happend] at hroute
      by_cases hprinted : routePattern.pathSegments.flatMap (printedSegment arguments) = []
      · rw [if_pos hprinted] at hroute
        have hslash := congrArg (List.count '/') hroute
        rw [count_lower] at hslash
        exact .inr (nameless_of_root arguments hslash hprinted)
      · rw [if_neg hprinted] at hroute
        exact .inl (simple_of_lower_eq arguments casing hroute)
  · rintro ⟨hrawText, hsegments⟩
    obtain ⟨text, htext⟩ := Option.ne_none_iff_exists'.mp hrawText
    have happend : simplifyRoutePattern arguments casing routePattern =
        some (finishRoute casing
          (routePattern.pathSegments.flatMap (appendSegment arguments))) := by
      rw [simplifyRoutePattern, htext]
      rfl
    rcases hsegments with hsimple | ⟨part, hone, hnameless⟩
    · refine ⟨?_, ?_⟩
      · rw [happend, appendSegments_eq arguments hsimple]
        rfl
      · apply simplifyRouteTemplate_eq
        intro part hpart
        obtain ⟨pathSegment, hsegment, hmem⟩ := List.mem_flatten.mp hpart
        exact (hsimple pathSegment hsegment).plain part hmem
    · obtain ⟨hroot, hnothing⟩ := appendSegments_of_nameless arguments hone hnameless
      refine ⟨?_, ?_⟩
      · rw [happend, printedRoute, hroot, hnothing]
        have hslash : casing.lower '/' = '/' := (casing.slash '/').mpr rfl
        simp [finishRoute, hslash]
      · apply simplifyRouteTemplate_eq
        intro other hother
        rw [← Bool.not_eq_true]
        intro hstarred
        have hin := List.mem_filter.mpr ⟨hother, isAppended_of_starred arguments hstarred⟩
        rw [hone, List.mem_singleton] at hin
        rw [hin, not_starred_of_nameless arguments hnameless] at hstarred
        cases hstarred

end Routes

/-- A catch-all with two stars is printed with one. -/
theorem not_prints_catchAll :
    ¬Prints ⟨fun _ => true, none, none, none⟩ Texts.LowerCasing.ascii
      { rawText := some "\x7b**slug\x7d".toList
        pathSegments :=
          [[.parameter ⟨"slug".toList, by decide, forall_mem_of_all (by decide)⟩ (.catchAll true)]] } := by
  rintro ⟨hprints, -⟩
  exact absurd hprints (by decide)

end DdTrace.DiagnosticListeners
