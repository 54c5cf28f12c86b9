import DdTrace.Lib.Outcomes
import DdTrace.Lib.Regex
import DdTrace.Lib.Texts

/-!
# The sections of a git configuration

* `readLine`, `getConfigItems`: the code.
* `ConfigLine`, `itemsOf`: configuration files, and the items that their named sections stand for.
* `length_of_foldlM`: what the code has recognised after some lines.
* `keepsSections_iff`: the files whose sections it keeps.

Source: `GitInfo.cs`, `GetConfigItems`
-/

namespace DdTrace.Ci

open DdTrace.Lib DdTrace.Lib.Regex

/-! ## The code -/

/-- The exceptions. -/
inductive Exception
  | nullReference
  | indexOutOfRange
  | argumentOutOfRange
  /-- The static constructor has thrown. -/
  | typeInitialization
  deriving DecidableEq, Repr

/-- Source: `GitInfo.cs`, `ConfigItem` -/
structure ConfigItem where
  type : List Char
  name : List Char
  url : Option (List Char) := none
  remote : Option (List Char) := none
  merge : Option (List Char) := none
  deriving DecidableEq, Repr

/-- `lstConfig` and `currentItem`. -/
structure ConfigState where
  items : List ConfigItem := []
  current : Option ConfigItem := none
  deriving DecidableEq, Repr

/-- The regular expression of a section with a quoted name. -/
def sectionRegex : Regex :=
  .seq .start <| .seq (.literal ['[']) <| .seq (capture 1) <| .seq (.literal " \"".toList) <|
    .seq (capture 2) (.literal "\"]".toList)

/-- Source: `GetConfigItems`, what is done with the rest of a line that begins with a tab -/
def readEntry (item : ConfigItem) (text : List Char) : Except Exception ConfigItem :=
  match Texts.removeEmptyEntries (Texts.split text " = ".toList) with
  | [] => .error .indexOutOfRange
  | key :: rest =>
      if key = "url".toList ∨ key = "remote".toList ∨ key = "merge".toList then
        match rest with
        | [] => .error .indexOutOfRange
        | value :: _ =>
            if key = "url".toList then .ok { item with url := some value }
            else if key = "remote".toList then .ok { item with remote := some value }
            else .ok { item with merge := some value }
      else .ok item

/-- Source: `GetConfigItems`, the body of its loop -/
def readLine (state : ConfigState) (line : List Char) : Except Exception ConfigState :=
  match line with
  | [] => .error .indexOutOfRange
  | c :: rest =>
      if c = '\t' then
        match state.current with
        | none => .ok state
        | some item => (readEntry item rest).map fun item => { state with current := some item }
      else
        match sectionRegex.find line with
        | none => .ok state
        | some place =>
            .ok
              { items := state.items ++ state.current.toList
                current := some { type := place.value 1, name := place.value 2 } }

/-- The lines of the file are given, if it exists; without one there is no list.
Source: `GitInfo.cs`, `GetConfigItems` -/
def getConfigItems (lines : Option (List (List Char))) :
    Except Exception (Option (List ConfigItem)) :=
  match lines with
  | none => .ok none
  | some lines => (lines.foldlM readLine {}).map fun state => some state.items

/-! ## Configuration files -/

/-- The lines that a configuration file is made of. -/
inductive ConfigLine
  /-- `[type "name"]`. -/
  | named (type name : List Char)
  /-- `[type]`. -/
  | unnamed (type : List Char)
  /-- A tab and `key = value`. -/
  | entry (key value : List Char)
  | blank (spaces : List Char)
  /-- A comment behind some white space. -/
  | comment (spaces : List Char) (mark : Char) (text : List Char)
  deriving DecidableEq, Repr

namespace ConfigLine

/-- The line as it is written. -/
def text : ConfigLine → List Char
  | named type name => ['['] ++ type ++ " \"".toList ++ name ++ "\"]".toList
  | unnamed type => ['['] ++ type ++ [']']
  | entry key value => ['\t'] ++ key ++ " = ".toList ++ value
  | blank spaces => spaces
  | comment spaces mark text => spaces ++ mark :: text

/-- A character of the type of a section. -/
def isTypeChar (c : Char) : Bool := c.isAlphanum || c == '-' || c == '.'

/-- The line is well formed: types are words, names are on one line, blank lines are white space,
and a comment begins with `#` or `;`. -/
def Valid : ConfigLine → Prop
  | named type name => type.all isTypeChar = true ∧ '\n' ∉ name
  | unnamed type => type.all isTypeChar = true
  | entry _ _ => True
  | blank spaces => Texts.isBlank spaces = true
  | comment spaces mark _ => Texts.isBlank spaces = true ∧ mark ∈ ['#', ';']

instance : DecidablePred Valid
  | named type name => inferInstanceAs (Decidable (type.all isTypeChar = true ∧ '\n' ∉ name))
  | unnamed type => inferInstanceAs (Decidable (type.all isTypeChar = true))
  | entry _ _ => isTrue trivial
  | blank spaces => inferInstanceAs (Decidable (Texts.isBlank spaces = true))
  | comment spaces mark _ =>
      inferInstanceAs (Decidable (Texts.isBlank spaces = true ∧ mark ∈ ['#', ';']))

/-- The line begins a section. -/
def isHeader : ConfigLine → Bool
  | named _ _ => true
  | unnamed _ => true
  | _ => false

/-- The line begins a section with a name. -/
def isNamed : ConfigLine → Bool
  | named _ _ => true
  | _ => false

/-- The value of a line for this key. -/
def valueOf (key : List Char) : ConfigLine → Option (List Char)
  | entry key' value => if key' = key then some value else none
  | _ => none

end ConfigLine

/-- The value of a key in the section that these lines begin with, the last one that is there. -/
def valueIn (key : String) (lines : List ConfigLine) : Option (List Char) :=
  ((lines.takeWhile fun line => !line.isHeader).filterMap (ConfigLine.valueOf key.toList)).getLast?

/-- One item for each named section. -/
def itemsOf : List ConfigLine → List ConfigItem
  | [] => []
  | .named type name :: rest =>
      { type := type
        name := name
        url := valueIn "url" rest
        remote := valueIn "remote" rest
        merge := valueIn "merge" rest } :: itemsOf rest
  | _ :: rest => itemsOf rest

/-- The items of a file are the ones of its named sections. -/
def KeepsSections (lines : List ConfigLine) : Prop :=
  getConfigItems (some (lines.map ConfigLine.text)) = .ok (some (itemsOf lines))

/-! ## What is recognised -/

/-- What stands between the brackets. -/
def sectionBody : Regex :=
  .seq (capture 1) <| .seq (.literal " \"".toList) <| .seq (capture 2) (.literal "\"]".toList)

theorem find_sectionRegex (line : List Char) :
    sectionRegex.find line =
      ((Regex.seq (.literal ['[']) sectionBody).run ⟨[], line, []⟩).head? := find_start _ line

/-- A section with a name is recognised. -/
theorem isSome_find_named {type name : List Char} (htype : '\n' ∉ type) (hname : '\n' ∉ name) :
    (sectionRegex.find (ConfigLine.text (.named type name))).isSome = true := by
  have hrun : ∃ next ∈ (Regex.seq (.literal ['[']) sectionBody).run
      ⟨[], ConfigLine.text (.named type name), []⟩, next.after = [] := by
    have htext : Place.after ⟨[], ConfigLine.text (.named type name), []⟩ =
        ['['] ++ (type ++ (" \"".toList ++ (name ++ ("\"]".toList ++ [])))) := by
      simp only [ConfigLine.text, List.append_assoc, List.append_nil]
    obtain ⟨next₁, hmem₁, hnext₁⟩ := exists_mem_run_literal htext
    apply exists_mem_run_seq hmem₁
    obtain ⟨next₂, hmem₂, hnext₂⟩ := exists_mem_run_capture hnext₁ htype 1
    apply exists_mem_run_seq hmem₂
    obtain ⟨next₃, hmem₃, hnext₃⟩ := exists_mem_run_literal hnext₂
    apply exists_mem_run_seq hmem₃
    obtain ⟨next₄, hmem₄, hnext₄⟩ := exists_mem_run_capture hnext₃ hname 2
    apply exists_mem_run_seq hmem₄
    exact exists_mem_run_literal hnext₄
  obtain ⟨next, hmem, -⟩ := hrun
  rw [find_sectionRegex, List.isSome_head?]
  exact List.ne_nil_of_mem hmem

/-- What does not begin with a bracket is not recognised. -/
theorem find_eq_none_of_bracket {line : List Char} (h : ¬['['] <+: line) :
    sectionRegex.find line = none := by
  rw [find_sectionRegex, run_eq_nil_of_not_prefix h]
  rfl

/-- What has no quotation mark is not recognised. -/
theorem find_eq_none_of_quote {line : List Char} (h : '"' ∉ line) :
    sectionRegex.find line = none := by
  rw [find_sectionRegex, List.head?_eq_none_iff]
  apply List.eq_nil_iff_forall_not_mem.mpr
  intro next hnext
  apply h
  obtain ⟨next₁, hmem₁, hnext⟩ := List.mem_flatMap.mp hnext
  obtain ⟨next₂, hmem₂, hnext⟩ := List.mem_flatMap.mp hnext
  obtain ⟨next₃, hmem₃, hnext⟩ := List.mem_flatMap.mp hnext
  -- the quotation mark of the literal is in what is left of the line
  have hquote : '"' ∈ next₂.after := (prefix_of_mem_run_literal hmem₃).subset (by decide)
  have hsuffix : next₂.after <:+ line := (suffix_of_mem_run hmem₂).trans (suffix_of_mem_run hmem₁)
  exact hsuffix.subset hquote

theorem newline_not_mem_of_type {type : List Char} (h : type.all ConfigLine.isTypeChar = true) :
    '\n' ∉ type := by
  intro hmem
  exact absurd (List.all_eq_true.mp h _ hmem) (by decide)

theorem quote_not_mem_unnamed {type : List Char} (h : type.all ConfigLine.isTypeChar = true) :
    '"' ∉ ConfigLine.text (.unnamed type) := by
  intro hmem
  simp only [ConfigLine.text, List.mem_append, List.mem_singleton] at hmem
  rcases hmem with (hopen | htype) | hclose
  · exact absurd hopen (by decide)
  · exact absurd (List.all_eq_true.mp h _ htype) (by decide)
  · exact absurd hclose (by decide)

/-- Behind white space there is no bracket. -/
theorem not_bracket_prefix {spaces rest : List Char} (h : Texts.isBlank spaces = true)
    (hrest : ¬['['] <+: rest) : ¬['['] <+: spaces ++ rest := by
  cases spaces with
  | nil => exact hrest
  | cons c spaces =>
      rintro ⟨t, ht⟩
      cases ht
      exact absurd (List.all_eq_true.mp h '[' (List.mem_cons_self ..)) (by decide)

/-- A line that begins an item. -/
def recognised (line : List Char) : Bool :=
  line.head? != some '\t' && (sectionRegex.find line).isSome

/-- **What is recognised**: the sections with a name. -/
theorem recognised_text {line : ConfigLine} (h : line.Valid) :
    recognised line.text = line.isNamed := by
  have hnone {text : List Char} (hfind : sectionRegex.find text = none) :
      recognised text = false := by
    rw [recognised, hfind]
    exact Bool.and_false _
  cases line with
  | named type name =>
      rw [recognised, isSome_find_named (newline_not_mem_of_type h.1) h.2]
      rfl
  | unnamed type => exact hnone (find_eq_none_of_quote (quote_not_mem_unnamed h))
  | entry key value => rfl
  | blank spaces =>
      have hblank : ¬['['] <+: spaces ++ [] := not_bracket_prefix h (by decide)
      rw [List.append_nil] at hblank
      exact hnone (find_eq_none_of_bracket hblank)
  | comment spaces mark text =>
      apply hnone
      apply find_eq_none_of_bracket
      apply not_bracket_prefix h.1
      rintro ⟨t, ht⟩
      cases ht
      exact absurd h.2 (by decide)

/-! ## Steps -/

/-- The items so far, with the current one. -/
def ConfigState.all (state : ConfigState) : List ConfigItem := state.items ++ state.current.toList

/-- **One line** leaves the state, changes the current item, or begins another one. -/
theorem readLine_cases {line : List Char} {state next : ConfigState}
    (h : readLine state line = .ok next) :
    (recognised line = false ∧ next = state) ∨
      (recognised line = false ∧ ∃ item item', state.current = some item ∧
        next = { state with current := some item' }) ∨
      (recognised line = true ∧ ∃ item, next = { items := state.all, current := some item }) := by
  cases line with
  | nil => cases h
  | cons c rest =>
      rw [readLine] at h
      split at h
      case isTrue htab =>
        have hnot : recognised (c :: rest) = false := by
          rw [htab]
          rfl
        cases hcurrent : state.current with
        | none =>
            rw [hcurrent] at h
            cases h
            exact .inl ⟨hnot, rfl⟩
        | some item =>
            rw [hcurrent] at h
            dsimp only at h
            cases hentry : readEntry item rest with
            | error exception =>
                rw [hentry] at h
                cases h
            | ok item' =>
                rw [hentry] at h
                cases h
                exact .inr (.inl ⟨hnot, item, item', rfl, rfl⟩)
      case isFalse htab =>
        have hrecognised : recognised (c :: rest) = (sectionRegex.find (c :: rest)).isSome := by
          rw [recognised, List.head?_cons, bne_iff_ne.mpr fun heq => htab (Option.some.inj heq)]
          rfl
        cases hfind : sectionRegex.find (c :: rest) with
        | none =>
            rw [hfind] at h hrecognised
            cases h
            exact .inl ⟨hrecognised, rfl⟩
        | some place =>
            rw [hfind] at h hrecognised
            cases h
            exact .inr (.inr ⟨hrecognised, _, rfl⟩)

/-- The state after lines of which `n` have been recognised: the last item is the current one. -/
structure ConfigState.After (state : ConfigState) (n : Nat) : Prop where
  length_all : state.all.length = n
  items_nil : state.current = none → state.items = []

theorem ConfigState.After.readLine {line : List Char} {state next : ConfigState} {n : Nat}
    (hstate : state.After n) (h : readLine state line = .ok next) :
    next.After (n + if recognised line then 1 else 0) := by
  obtain ⟨hnot, rfl⟩ | ⟨hnot, item, item', hcurrent, rfl⟩ | ⟨hrecognised, item, rfl⟩ :=
    readLine_cases h
  · rw [hnot]
    exact hstate
  · rw [hnot]
    refine ⟨?_, fun hnone => by cases hnone⟩
    rw [← hstate.length_all, ConfigState.all, ConfigState.all, hcurrent]
    simp
  · rw [hrecognised]
    refine ⟨?_, fun hnone => by cases hnone⟩
    rw [← hstate.length_all, ConfigState.all, List.length_append]
    rfl

/-- **All lines.** -/
theorem ConfigState.After.foldlM {lines : List (List Char)} {state next : ConfigState} {n : Nat}
    (hstate : state.After n) (h : lines.foldlM Ci.readLine state = .ok next) :
    next.After (n + lines.countP recognised) := by
  induction lines generalizing state n with
  | nil =>
      cases h
      exact hstate
  | cons line lines ih =>
      rw [List.foldlM_cons] at h
      obtain ⟨mid, hmid, hrest⟩ := Outcomes.bind_eq_ok.mp h
      have hafter := ih (hstate.readLine hmid) hrest
      rwa [Nat.add_assoc, Nat.add_comm _ (List.countP recognised lines), ← List.countP_cons]
        at hafter

/-! ## The files that it keeps -/

theorem itemsOf_cons_of_not_named {line : ConfigLine} (h : line.isNamed = false)
    (rest : List ConfigLine) : itemsOf (line :: rest) = itemsOf rest := by
  cases line with
  | named type name => cases h
  | unnamed type => rfl
  | entry key value => rfl
  | blank spaces => rfl
  | comment spaces mark text => rfl

theorem length_itemsOf (lines : List ConfigLine) :
    (itemsOf lines).length = lines.countP ConfigLine.isNamed := by
  induction lines with
  | nil => rfl
  | cons line lines ih =>
      by_cases hnamed : line.isNamed = true
      · cases line with
        | named type name => rw [itemsOf, List.length_cons, ih, List.countP_cons_of_pos hnamed]
        | _ => cases hnamed
      · rw [itemsOf_cons_of_not_named (Bool.not_eq_true _ ▸ hnamed), ih,
          List.countP_cons_of_neg hnamed]

theorem countP_recognised {lines : List ConfigLine} (h : ∀ line ∈ lines, line.Valid) :
    (lines.map ConfigLine.text).countP recognised = lines.countP ConfigLine.isNamed := by
  rw [List.countP_map]
  apply List.countP_congr
  intro line hline
  rw [Function.comp_apply, recognised_text (h line hline)]

/-- The list never has the item of the last section. -/
theorem length_of_getConfigItems {lines : List ConfigLine} (h : ∀ line ∈ lines, line.Valid)
    {items : List ConfigItem}
    (hitems : getConfigItems (some (lines.map ConfigLine.text)) = .ok (some items)) :
    items.length = (itemsOf lines).length - 1 := by
  rw [getConfigItems] at hitems
  cases hrun : (lines.map ConfigLine.text).foldlM readLine {} with
  | error exception =>
      rw [hrun] at hitems
      cases hitems
  | ok state =>
      rw [hrun] at hitems
      cases hitems
      have hstart : ConfigState.After {} 0 := ⟨rfl, fun _ => rfl⟩
      have hafter := hstart.foldlM hrun
      rw [Nat.zero_add, countP_recognised h, ← length_itemsOf] at hafter
      have hlength := hafter.length_all
      rw [ConfigState.all, List.length_append] at hlength
      cases hcurrent : state.current with
      | none =>
          rw [hafter.items_nil hcurrent] at hlength ⊢
          rw [hcurrent] at hlength
          rw [← hlength]
          rfl
      | some item =>
          rw [hcurrent] at hlength
          rw [← hlength]
          rfl

/-- Without an item, a line that is not empty and not recognised changes nothing. -/
theorem readLine_of_not_recognised {line : List Char} (hempty : line ≠ [])
    (h : recognised line = false) : readLine {} line = .ok {} := by
  cases line with
  | nil => exact absurd rfl hempty
  | cons c rest =>
      rw [readLine]
      split
      case isTrue htab => rfl
      case isFalse htab =>
        have hfind : sectionRegex.find (c :: rest) = none := by
          rw [recognised, List.head?_cons,
            bne_iff_ne.mpr fun heq => htab (Option.some.inj heq), Bool.true_and] at h
          exact Option.isSome_eq_false_iff.mp h |> Option.isNone_iff_eq_none.mp
        rw [hfind]

theorem foldlM_of_not_recognised {lines : List (List Char)} (hempty : [] ∉ lines)
    (h : ∀ line ∈ lines, recognised line = false) : lines.foldlM readLine {} = .ok {} := by
  induction lines with
  | nil => rfl
  | cons line lines ih =>
      rw [List.mem_cons, not_or] at hempty
      rw [List.forall_mem_cons] at h
      rw [List.foldlM_cons, readLine_of_not_recognised (Ne.symm hempty.1) h.1, Outcomes.ok_bind]
      exact ih hempty.2 h.2

/-- An empty line is not got through. -/
theorem foldlM_of_empty_line {lines : List (List Char)} (hempty : [] ∈ lines)
    (state next : ConfigState) : lines.foldlM readLine state ≠ .ok next := by
  induction lines generalizing state with
  | nil => cases hempty
  | cons line lines ih =>
      rw [List.foldlM_cons]
      intro h
      obtain ⟨mid, hmid, hrest⟩ := Outcomes.bind_eq_ok.mp h
      rcases List.mem_cons.mp hempty with rfl | hlater
      · cases hmid
      · exact ih hlater mid hrest

theorem ConfigLine.text_eq_nil_iff (line : ConfigLine) : line.text = [] ↔ line = .blank [] := by
  cases line with
  | named type name => simp [text]
  | unnamed type => simp [text]
  | entry key value => simp [text]
  | blank spaces => simp [text]
  | comment spaces mark text' => simp [text]

/-- **Git configurations.** The sections are kept exactly if there is none with a name to keep,
and no line is empty. -/
theorem keepsSections_iff {lines : List ConfigLine} (h : ∀ line ∈ lines, line.Valid) :
    KeepsSections lines ↔
      (∀ line ∈ lines, line.isNamed = false) ∧ ConfigLine.blank [] ∉ lines := by
  have hcount : (∀ line ∈ lines, line.isNamed = false) ↔ (itemsOf lines).length = 0 := by
    rw [length_itemsOf, List.countP_eq_zero]
    simp only [Bool.not_eq_true]
  have hempty : ConfigLine.blank [] ∈ lines ↔ [] ∈ lines.map ConfigLine.text := by
    simp only [List.mem_map, ConfigLine.text_eq_nil_iff, exists_eq_right]
  constructor
  · intro hkeeps
    have hlength := length_of_getConfigItems h hkeeps
    refine ⟨hcount.mpr (by omega), ?_⟩
    rw [hempty]
    intro hmem
    rw [KeepsSections, getConfigItems] at hkeeps
    cases hrun : (lines.map ConfigLine.text).foldlM readLine {} with
    | error exception =>
        rw [hrun] at hkeeps
        cases hkeeps
    | ok state => exact foldlM_of_empty_line hmem _ _ hrun
  · rintro ⟨hnamed, hnot⟩
    have hnone : itemsOf lines = [] := List.length_eq_zero_iff.mp (hcount.mp hnamed)
    have hrun : (lines.map ConfigLine.text).foldlM readLine {} = .ok {} := by
      apply foldlM_of_not_recognised
      · rwa [← hempty]
      · intro line hline
        obtain ⟨line', hline', rfl⟩ := List.mem_map.mp hline
        rw [recognised_text (h line' hline'), hnamed line' hline']
    rw [KeepsSections, getConfigItems, hrun, hnone]
    rfl

/-- A file with an unnamed section, an entry and a comment. -/
theorem keepsSections_core : KeepsSections
    [.unnamed "core".toList, .entry "bare".toList "false".toList, .comment [] '#' [],
      .blank [' ']] :=
  (keepsSections_iff (by decide)).mpr (by decide)

/-- The last section is not there. -/
theorem not_keepsSections_remote : ¬KeepsSections
    [.named "remote".toList "origin".toList, .entry "url".toList "git@host".toList] := by
  unfold KeepsSections
  decide

end DdTrace.Ci
