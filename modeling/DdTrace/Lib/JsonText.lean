import Mathlib.Algebra.Order.BigOperators.Group.List
import Mathlib.Algebra.Order.Ring.Nat
import Mathlib.Data.List.Perm.Basic
import Mathlib.Tactic.Common

/-!
# Objects of texts in JSON

The grammar of JSON objects whose members are strings, as a relation between a text and the members
it stands for.

* `Chars`: what stands between the quotes of a string, with its escapes.
* `IsObject`: an object; `render` writes one without escapes.
* `IsObject.weight_le`: an object is at least as long as what it stands for, with two characters for
  each one that has to be escaped.
* `isObject_render_iff`: what is written without escapes stands for its members, in any order,
  exactly if no character had to be escaped.
* `IsObject.exists_last`: the last member of an object can be read off its end.
-/

namespace DdTrace.Lib.JsonText

/-! ## The grammar -/

/-- The characters that may stand between tokens. -/
def isWhite (c : Char) : Bool := c == ' ' || c == '\t' || c == '\n' || c == '\r'

/-- The characters of a string that stand for themselves. -/
def isPlain (c : Char) : Bool := 0x20 ≤ c.toNat && c != '"' && c != '\\'

/-- What a character stands for behind a backslash. -/
def escaped : Char → Option Char
  | '"' => some '"'
  | '\\' => some '\\'
  | '/' => some '/'
  | 'b' => some '\x08'
  | 'f' => some '\x0C'
  | 'n' => some '\n'
  | 'r' => some '\r'
  | 't' => some '\t'
  | _ => none

/-- The value of a hexadecimal digit. -/
def hexDigit (c : Char) : Option Nat :=
  if c.isDigit then some (c.toNat - '0'.toNat)
  else if 'a' ≤ c ∧ c ≤ 'f' then some (c.toNat - 'a'.toNat + 10)
  else if 'A' ≤ c ∧ c ≤ 'F' then some (c.toNat - 'A'.toNat + 10)
  else none

/-- The value of four hexadecimal digits. -/
def hexFour (a b c d : Char) : Option Nat := do
  return (((← hexDigit a) * 16 + (← hexDigit b)) * 16 + (← hexDigit c)) * 16 + (← hexDigit d)

/-- A character of a string, as it is written. -/
inductive Written : List Char → Char → Prop
  /-- Itself. -/
  | plain {c : Char} : isPlain c = true → Written [c] c
  /-- Behind a backslash. -/
  | escape {e c : Char} : escaped e = some c → Written ['\\', e] c
  /-- Its number. -/
  | unicode {a b c d : Char} {n : Nat} : hexFour a b c d = some n → n.isValidChar →
      Written ['\\', 'u', a, b, c, d] (Char.ofNat n)
  /-- The two halves of its number. -/
  | surrogates {a b c d a' b' c' d' : Char} {high low : Nat} :
      hexFour a b c d = some high → 0xD800 ≤ high → high < 0xDC00 →
      hexFour a' b' c' d' = some low → 0xDC00 ≤ low → low < 0xE000 →
      Written ['\\', 'u', a, b, c, d, '\\', 'u', a', b', c', d']
        (Char.ofNat (0x10000 + (high - 0xD800) * 0x400 + (low - 0xDC00)))

/-- What stands between the quotes of a string. -/
inductive Chars : List Char → List Char → Prop
  | nil : Chars [] []
  | cons {text texts : List Char} {c : Char} {cs : List Char} :
      Written text c → Chars texts cs → Chars (text ++ texts) (c :: cs)

/-- White space. -/
def White (text : List Char) : Prop := ∀ c ∈ text, isWhite c = true

/-- A string, with white space around it. -/
def Quoted (text value : List Char) : Prop :=
  ∃ before body after, White before ∧ White after ∧ Chars body value ∧
    text = before ++ '"' :: body ++ '"' :: after

/-- A member: its name and its value. -/
def Member (text : List Char) (member : List Char × List Char) : Prop :=
  ∃ name value, Quoted name member.1 ∧ Quoted value member.2 ∧ text = name ++ ':' :: value

/-- Members with commas between them. -/
inductive Members : List Char → List (List Char × List Char) → Prop
  | single {text : List Char} {member : List Char × List Char} :
      Member text member → Members text [member]
  | cons {text texts : List Char} {member : List Char × List Char}
      {members : List (List Char × List Char)} :
      Member text member → Members texts members → Members (text ++ ',' :: texts) (member :: members)

/-- An object. -/
def IsObject (text : List Char) (members : List (List Char × List Char)) : Prop :=
  ∃ before body after, White before ∧ White after ∧ text = before ++ '{' :: body ++ '}' :: after ∧
    (White body ∧ members = [] ∨ Members body members)

/-! ## Writing without escapes -/

/-- A string of plain characters. -/
def quote (value : List Char) : List Char := '"' :: value ++ ['"']

/-- Members with a comma behind each one. -/
def renderMembers : List (List Char × List Char) → List Char
  | [] => []
  | member :: members =>
      quote member.1 ++ ':' :: quote member.2 ++ ',' :: renderMembers members

/-- An object, but for the escapes. -/
def render (members : List (List Char × List Char)) : List Char :=
  '{' :: (renderMembers members).dropLast ++ ['}']

theorem renderMembers_append (members members' : List (List Char × List Char)) :
    renderMembers (members ++ members') = renderMembers members ++ renderMembers members' := by
  induction members with
  | nil => rfl
  | cons member members ih =>
      simp only [List.cons_append, renderMembers, ih, List.append_assoc]

/-- The text of the last member. -/
theorem render_concat (members : List (List Char × List Char)) (member : List Char × List Char) :
    render (members ++ [member]) =
      '{' :: renderMembers members ++ quote member.1 ++ ':' :: quote member.2 ++ ['}'] := by
  have hlast : renderMembers [member] = quote member.1 ++ ':' :: quote member.2 ++ [','] := rfl
  rw [render, renderMembers_append, hlast, ← List.append_assoc, List.dropLast_concat,
    ← List.append_assoc, ← List.cons_append, ← List.cons_append]

theorem chars_plain {value : List Char} (h : ∀ c ∈ value, isPlain c = true) :
    Chars value value := by
  induction value with
  | nil => exact .nil
  | cons c cs ih =>
      rw [List.forall_mem_cons] at h
      exact .cons (.plain h.1) (ih h.2)

theorem quoted_quote {value : List Char} (h : ∀ c ∈ value, isPlain c = true) :
    Quoted (quote value) value :=
  ⟨[], value, [], fun _ hc => (List.not_mem_nil hc).elim, fun _ hc => (List.not_mem_nil hc).elim,
    chars_plain h, rfl⟩

/-- All characters of the members are plain. -/
def AllPlain (members : List (List Char × List Char)) : Prop :=
  ∀ member ∈ members, (∀ c ∈ member.1, isPlain c = true) ∧ ∀ c ∈ member.2, isPlain c = true

theorem members_render {members : List (List Char × List Char)} (h : AllPlain members)
    (hne : members ≠ []) : Members (renderMembers members).dropLast members := by
  induction members with
  | nil => exact absurd rfl hne
  | cons member members ih =>
      obtain ⟨hmember, hmembers⟩ := List.forall_mem_cons.mp h
      have hfirst : Member (quote member.1 ++ ':' :: quote member.2) member :=
        ⟨_, _, quoted_quote hmember.1, quoted_quote hmember.2, rfl⟩
      rw [renderMembers]
      cases members with
      | nil =>
          rw [renderMembers, List.dropLast_concat]
          exact .single hfirst
      | cons next rest =>
          have hne' : renderMembers (next :: rest) ≠ [] := by
            rw [renderMembers]
            exact List.cons_ne_nil _ _
          rw [List.dropLast_append_of_ne_nil (List.cons_ne_nil _ _),
            List.dropLast_cons_of_ne_nil hne']
          exact .cons hfirst (ih hmembers (List.cons_ne_nil _ _))

/-- **Plain members are read back.** -/
theorem isObject_render {members : List (List Char × List Char)} (h : AllPlain members)
    (hne : members ≠ []) : IsObject (render members) members :=
  ⟨[], _, [], fun _ hc => (List.not_mem_nil hc).elim, fun _ hc => (List.not_mem_nil hc).elim, rfl,
    .inr (members_render h hne)⟩

/-! ## Lengths -/

/-- The least number of characters that a character is written with. -/
def charWeight (c : Char) : Nat := if isPlain c then 1 else 2

/-- The least number of characters that a value is written with. -/
def weight (value : List Char) : Nat := (value.map charWeight).sum

@[simp] theorem weight_cons (c : Char) (cs : List Char) :
    weight (c :: cs) = charWeight c + weight cs := rfl

theorem charWeight_pos (c : Char) : 1 ≤ charWeight c := by
  unfold charWeight
  split <;> decide

theorem Written.weight_le {text : List Char} {c : Char} (h : Written text c) :
    charWeight c ≤ text.length := by
  cases h with
  | plain hc => simp [charWeight, hc]
  | escape => unfold charWeight; split <;> simp
  | unicode => unfold charWeight; split <;> simp
  | surrogates => unfold charWeight; split <;> simp

theorem Chars.weight_le {text value : List Char} (h : Chars text value) :
    weight value ≤ text.length := by
  induction h with
  | nil => exact Nat.zero_le _
  | cons hc _ ih =>
      have hle := hc.weight_le
      rw [weight_cons, List.length_append]
      omega

theorem Member.weight_le {text : List Char} {member : List Char × List Char}
    (h : Member text member) : weight member.1 + weight member.2 + 5 ≤ text.length := by
  obtain ⟨_, _, ⟨b, body, a, -, -, hname, rfl⟩, ⟨b', body', a', -, -, hvalue, rfl⟩, rfl⟩ := h
  have hle := hname.weight_le
  have hle' := hvalue.weight_le
  simp only [List.length_append, List.length_cons]
  omega

/-- The least number of characters that a member is written with, with a comma. -/
def memberWeight (member : List Char × List Char) : Nat := weight member.1 + weight member.2 + 6

theorem Members.weight_le {text : List Char} {members : List (List Char × List Char)}
    (h : Members text members) : (members.map memberWeight).sum ≤ text.length + 1 := by
  induction h with
  | single hmember =>
      have hle := hmember.weight_le
      simp only [List.map_cons, List.map_nil, List.sum_cons, List.sum_nil, memberWeight]
      omega
  | cons hmember _ ih =>
      have hle := hmember.weight_le
      simp only [List.map_cons, List.sum_cons, memberWeight, List.length_append, List.length_cons]
        at ih ⊢
      omega

/-- **An object is not shorter than what it stands for.** -/
theorem IsObject.weight_le {text : List Char} {members : List (List Char × List Char)}
    (h : IsObject text members) : (members.map memberWeight).sum + 1 ≤ text.length := by
  obtain ⟨before, body, after, -, -, rfl, hbody⟩ := h
  simp only [List.length_append, List.length_cons]
  rcases hbody with ⟨-, rfl⟩ | hbody
  · rw [List.map_nil, List.sum_nil]
    omega
  · have hle := hbody.weight_le
    omega

theorem length_le_weight (value : List Char) : value.length ≤ weight value := by
  induction value with
  | nil => exact le_refl _
  | cons c cs ih =>
      have hpos := charWeight_pos c
      rw [weight_cons, List.length_cons]
      omega

theorem plain_of_weight_le {value : List Char} (h : weight value ≤ value.length) :
    ∀ c ∈ value, isPlain c = true := by
  induction value with
  | nil => exact fun _ hc => (List.not_mem_nil hc).elim
  | cons c cs ih =>
      have hle := length_le_weight cs
      have hpos := charWeight_pos c
      rw [weight_cons, List.length_cons] at h
      refine List.forall_mem_cons.mpr ⟨?_, ih (by omega)⟩
      by_contra hc
      have htwo : charWeight c = 2 := if_neg hc
      omega

/-- The number of characters that a member is written with if none is escaped, with a comma. -/
def memberLength (member : List Char × List Char) : Nat := member.1.length + member.2.length + 6

theorem length_renderMembers (members : List (List Char × List Char)) :
    (renderMembers members).length = (members.map memberLength).sum := by
  induction members with
  | nil => rfl
  | cons member members ih =>
      simp only [renderMembers, quote, List.length_append, List.length_cons, List.length_nil, ih,
        List.map_cons, List.sum_cons, memberLength]
      omega

theorem length_render {members : List (List Char × List Char)} (hne : members ≠ []) :
    (render members).length = (members.map memberLength).sum + 1 := by
  have hlength := length_renderMembers members
  have hpos : 0 < (renderMembers members).length := by
    obtain ⟨member, rest, rfl⟩ := List.exists_cons_of_ne_nil hne
    rw [hlength, List.map_cons, List.sum_cons, memberLength]
    omega
  simp only [render, List.length_append, List.length_cons, List.length_nil, List.length_dropLast]
  omega

/-- **Without escapes.** What is written without escapes stands for its members, in whatever order,
exactly if no character has to be escaped. -/
theorem isObject_render_iff {members : List (List Char × List Char)} (hne : members ≠ []) :
    (∃ read, IsObject (render members) read ∧ read.Perm members) ↔ AllPlain members := by
  constructor
  · rintro ⟨read, hobject, hperm⟩
    have hle := hobject.weight_le
    rw [(hperm.map memberWeight).sum_eq, length_render hne] at hle
    intro member hmember
    have heach : ∀ m ∈ members, memberLength m ≤ memberWeight m := fun m _ => by
      have hname := length_le_weight m.1
      have hvalue := length_le_weight m.2
      unfold memberLength memberWeight
      omega
    have hsame : memberWeight member ≤ memberLength member := by
      by_contra hlt
      have hsum := List.sum_lt_sum memberLength memberWeight heach ⟨member, hmember, by omega⟩
      omega
    have hname := length_le_weight member.1
    have hvalue := length_le_weight member.2
    unfold memberLength memberWeight at hsame
    exact ⟨plain_of_weight_le (by omega), plain_of_weight_le (by omega)⟩
  · intro h
    exact ⟨members, isObject_render h hne, List.Perm.refl _⟩

/-! ## The end of an object -/

/-- White space at the end of a text that ends with another character. -/
theorem White.peel {text rest initial : List Char} {c x : Char} (h : White text)
    (heq : rest ++ c :: text = initial ++ [x]) (hx : isWhite x = false) :
    rest = initial ∧ c = x := by
  rcases List.eq_nil_or_concat text with rfl | ⟨text', d, rfl⟩
  · obtain ⟨hrest, hc⟩ := List.append_inj' heq rfl
    exact ⟨hrest, List.head_eq_of_cons_eq hc⟩
  · rw [List.concat_eq_append, ← List.cons_append, ← List.append_assoc] at heq
    obtain ⟨-, hd⟩ := List.append_inj' heq rfl
    obtain rfl := List.head_eq_of_cons_eq hd
    have hwhite := h d (by simp)
    rw [hx] at hwhite
    cases hwhite

/-- The last character of a string that is not empty. -/
theorem Chars.exists_last {text value : List Char} (h : Chars text value) (hne : text ≠ []) :
    ∃ texts text' values c, Written text' c ∧ text = texts ++ text' ∧ value = values ++ [c] := by
  induction h with
  | nil => exact absurd rfl hne
  | @cons text texts c cs hc hcs ih =>
      by_cases htexts : texts = []
      · subst htexts
        have hnone : cs = [] := by
          have hle := hcs.weight_le
          have hlength := length_le_weight cs
          rw [List.length_nil] at hle
          exact List.length_eq_zero_iff.mp (by omega)
        subst hnone
        exact ⟨[], text, [], c, hc, List.append_nil _, rfl⟩
      · obtain ⟨texts', text', values, c', hc', rfl, rfl⟩ := ih htexts
        exact ⟨text ++ texts', text', c :: values, c', hc', (List.append_assoc _ _ _).symm, rfl⟩

theorem hexDigit_of_hexFour {a b c d : Char} {n : Nat} (h : hexFour a b c d = some n) :
    (hexDigit d).isSome := by
  unfold hexFour at h
  cases hd : hexDigit d with
  | some _ => rfl
  | none =>
      rw [hd] at h
      simp at h

/-- How a character may end that is written in a string. -/
theorem Written.last {text : List Char} {c : Char} (h : Written text c) :
    ∃ rest x, text = rest ++ [x] ∧
      (x = c ∧ isPlain c = true ∨ rest = ['\\'] ∧ escaped x = some c ∨ (hexDigit x).isSome) := by
  cases h with
  | plain hc => exact ⟨[], c, rfl, .inl ⟨rfl, hc⟩⟩
  | @escape e _ he => exact ⟨['\\'], e, rfl, .inr (.inl ⟨rfl, he⟩)⟩
  | @unicode a b c d _ hn =>
      exact ⟨['\\', 'u', a, b, c], d, rfl, .inr (.inr (hexDigit_of_hexFour hn))⟩
  | @surrogates a b c d a' b' c' d' _ _ _ _ _ hlow =>
      exact ⟨['\\', 'u', a, b, c, d, '\\', 'u', a', b', c'], d', rfl,
        .inr (.inr (hexDigit_of_hexFour hlow))⟩

/-- The last character of what stands between the quotes. -/
theorem Chars.last {text value : List Char} {x : Char} (h : Chars (text ++ [x]) value)
    (hx : hexDigit x = none) :
    (∃ values, value = values ++ [x] ∧ isPlain x = true) ∨
      (escaped x).isSome ∧ ∃ rest, text = rest ++ ['\\'] := by
  obtain ⟨texts, last, values, c, hlast, heq, rfl⟩ :=
    h.exists_last (List.append_ne_nil_of_right_ne_nil _ (List.cons_ne_nil _ _))
  obtain ⟨rest, x', rfl, hkind⟩ := hlast.last
  rw [← List.append_assoc] at heq
  obtain ⟨rfl, hx'⟩ := List.append_inj' heq rfl
  obtain rfl := List.head_eq_of_cons_eq hx'
  rcases hkind with ⟨rfl, hplain⟩ | ⟨rfl, hescaped⟩ | hhex
  · exact .inl ⟨values, rfl, hplain⟩
  · exact .inr ⟨by rw [hescaped]; rfl, texts, rfl⟩
  · rw [hx] at hhex
    cases hhex

/-- The text of the last member. -/
theorem Members.exists_last {text : List Char} {members : List (List Char × List Char)}
    (h : Members text members) :
    ∃ rest text' member, text = rest ++ text' ∧ Member text' member ∧ member ∈ members := by
  induction h with
  | single hmember => exact ⟨[], _, _, rfl, hmember, List.mem_cons_self⟩
  | @cons text _ _ _ _ _ ih =>
      obtain ⟨rest, text', member, rfl, hmember, hmem⟩ := ih
      refine ⟨text ++ ',' :: rest, text', member, ?_, hmember, List.mem_cons_of_mem _ hmem⟩
      rw [List.append_assoc, List.cons_append]

/-- A quoted name in front of the last value. -/
theorem Quoted.last {text value rest initial : List Char} {x : Char} (h : Quoted text value)
    (heq : rest ++ text = initial ++ [x] ++ ['"']) (hhex : hexDigit x = none)
    (hescaped : escaped x = none) : ∃ values, value = values ++ [x] := by
  obtain ⟨white, body, white', -, hwhite', hbody, rfl⟩ := h
  rw [← List.append_assoc] at heq
  obtain ⟨heq, -⟩ := hwhite'.peel heq (by decide)
  rcases List.eq_nil_or_concat body with rfl | ⟨body', y, rfl⟩
  · rw [← List.append_assoc] at heq
    obtain ⟨-, hx⟩ := List.append_inj' heq rfl
    cases List.head_eq_of_cons_eq hx
    cases hescaped
  · rw [List.concat_eq_append] at heq hbody
    rw [← List.cons_append, ← List.append_assoc, ← List.append_assoc] at heq
    obtain ⟨-, hx⟩ := List.append_inj' heq rfl
    cases List.head_eq_of_cons_eq hx
    rcases hbody.last hhex with ⟨values, hvalue, -⟩ | ⟨hsome, -⟩
    · exact ⟨values, hvalue⟩
    · rw [hescaped] at hsome
      cases hsome

/-- A quoted value that is empty. -/
theorem Quoted.last_empty {text value rest initial : List Char} (h : Quoted text value)
    (heq : rest ++ ':' :: text = initial ++ [':'] ++ ['"'] ++ ['"']) : rest = initial := by
  obtain ⟨white, body, white', hwhite, hwhite', hbody, rfl⟩ := h
  rw [← List.cons_append, ← List.append_assoc] at heq
  obtain ⟨heq, -⟩ := hwhite'.peel heq (by decide)
  rcases List.eq_nil_or_concat body with rfl | ⟨body', y, rfl⟩
  · rw [← List.cons_append, ← List.append_assoc] at heq
    obtain ⟨heq, -⟩ := List.append_inj' heq rfl
    exact (hwhite.peel heq (by decide)).1
  · -- a quote in the value is behind a backslash, not behind a colon
    rw [List.concat_eq_append] at heq hbody
    rw [← List.cons_append, ← List.append_assoc, ← List.cons_append, ← List.append_assoc] at heq
    obtain ⟨hrest, hy⟩ := List.append_inj' heq rfl
    cases List.head_eq_of_cons_eq hy
    rcases hbody.last (by decide) with ⟨_, -, hplain⟩ | ⟨-, body'', rfl⟩
    · cases hplain
    · rw [← List.cons_append, ← List.append_assoc] at hrest
      obtain ⟨-, hcolon⟩ := List.append_inj' hrest rfl
      cases List.head_eq_of_cons_eq hcolon

/-- **The end of an object.** An object that ends with a name and the empty text has a member whose
name ends with the same letter. -/
theorem IsObject.exists_last {text : List Char} {members : List (List Char × List Char)} {x : Char}
    (h : IsObject (text ++ [x] ++ ['"'] ++ [':'] ++ ['"'] ++ ['"'] ++ ['}']) members)
    (hhex : hexDigit x = none) (hescaped : escaped x = none) :
    ∃ member ∈ members, ∃ rest, member.1 = rest ++ [x] := by
  obtain ⟨before, body, after, -, hafter, heq, hbody⟩ := h
  obtain ⟨heq, -⟩ := hafter.peel heq.symm (by decide)
  rcases hbody with ⟨hwhite, -⟩ | hmembers
  · obtain ⟨-, hquote⟩ := hwhite.peel heq (by decide)
    cases hquote
  · obtain ⟨rest, last, member, rfl, ⟨name, value, hname, hvalue, rfl⟩, hmem⟩ :=
      hmembers.exists_last
    rw [← List.cons_append, ← List.append_assoc, ← List.append_assoc] at heq
    exact ⟨member, hmem, hname.last (hvalue.last_empty heq) hhex hescaped⟩

end DdTrace.Lib.JsonText
