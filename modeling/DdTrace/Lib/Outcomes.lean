import Mathlib.Data.List.Forall2
import Mathlib.Tactic.Common

/-!
# Rules for computations that may fail

Postconditions of computations in `Except ε`, where one of the errors says that a computation was
given up before its end.

* `Returns x P`: `x` returns a value with `P`.
* `Ends stuck x P`: `x` comes to its end, with a value that has `P` or with an error that is not
  `stuck`.

Both have one rule for each way to build a computation, so that a program is taken apart along its
text.
-/

namespace DdTrace.Lib.Outcomes

variable {ε α β : Type}

/-- What has been computed is handed on. -/
theorem ok_bind (a : α) (f : α → Except ε β) : (.ok a >>= f) = f a := rfl

/-- An error ends the computation. -/
theorem error_bind (e : ε) (f : α → Except ε β) : (.error e >>= f) = .error e := rfl

/-- Two steps succeed exactly if both do. -/
theorem bind_eq_ok {x : Except ε α} {f : α → Except ε β} {b : β} :
    (x >>= f) = .ok b ↔ ∃ a, x = .ok a ∧ f a = .ok b := by
  cases x with
  | error e => simp [error_bind]
  | ok a => simp [ok_bind]

/-- What a computation for each member of a list returns. -/
theorem mapM_eq_ok_iff {f : α → Except ε β} {l : List α} {bs : List β} :
    l.mapM f = .ok bs ↔ List.Forall₂ (fun a b => f a = .ok b) l bs := by
  induction l generalizing bs with
  | nil =>
      rw [List.mapM_nil, List.forall₂_nil_left_iff]
      exact ⟨fun h => (Except.ok.inj h).symm, fun h => congrArg Except.ok h.symm⟩
  | cons a l ih =>
      rw [List.mapM_cons, bind_eq_ok, List.forall₂_cons_left_iff]
      constructor
      · rintro ⟨b, hb, hrest⟩
        obtain ⟨cs, hcs, hpure⟩ := bind_eq_ok.mp hrest
        exact ⟨b, cs, hb, ih.mp hcs, (Except.ok.inj hpure).symm⟩
      · rintro ⟨b, cs, hb, hcs, rfl⟩
        exact ⟨b, hb, bind_eq_ok.mpr ⟨cs, ih.mpr hcs, rfl⟩⟩

/-- A computation for each member of a list succeeds exactly if all of them do. -/
theorem mapM_ok_iff {f : α → Except ε β} {l : List α} :
    (∃ bs, l.mapM f = .ok bs) ↔ ∀ a ∈ l, ∃ b, f a = .ok b := by
  induction l with
  | nil =>
      rw [List.mapM_nil]
      exact iff_of_true ⟨[], rfl⟩ (List.forall_mem_nil _)
  | cons a l ih =>
      rw [List.mapM_cons, List.forall_mem_cons, ← ih]
      constructor
      · rintro ⟨bs, h⟩
        obtain ⟨b, hb, hrest⟩ := bind_eq_ok.mp h
        obtain ⟨cs, hcs, -⟩ := bind_eq_ok.mp hrest
        exact ⟨⟨b, hb⟩, cs, hcs⟩
      · rintro ⟨⟨b, hb⟩, cs, hcs⟩
        rw [hb, hcs]
        exact ⟨b :: cs, rfl⟩

/-- The computation returns a value with `P`. -/
def Returns (x : Except ε α) (P : α → Prop) : Prop := ∃ a, x = .ok a ∧ P a

/-- The computation comes to its end, and what it returns has `P`. -/
structure Ends (stuck : ε) (x : Except ε α) (P : α → Prop) : Prop where
  /-- It is not given up. -/
  ends : x ≠ .error stuck
  /-- What it returns. -/
  post : ∀ a, x = .ok a → P a

section Rules

variable {stuck : ε} {x : Except ε α} {f : α → Except ε β} {P P' : α → Prop} {Q : β → Prop}

theorem Returns.ok {a : α} (h : P a) : Returns (.ok a : Except ε α) P := ⟨a, rfl, h⟩

theorem Returns.pure {a : α} (h : P a) : Returns (pure a : Except ε α) P := ⟨a, rfl, h⟩

theorem Returns.bind (hx : Returns x P) (hf : ∀ a, P a → Returns (f a) Q) :
    Returns (x >>= f) Q := by
  obtain ⟨a, rfl, ha⟩ := hx
  exact hf a ha

theorem Returns.mono (hx : Returns x P) (h : ∀ a, P a → P' a) : Returns x P' := by
  obtain ⟨a, ha, hp⟩ := hx
  exact ⟨a, ha, h a hp⟩

theorem Ends.ok {a : α} (h : P a) : Ends stuck (.ok a) P where
  ends := fun hstuck => by cases hstuck
  post := fun b hb => by
    cases hb
    exact h

theorem Ends.pure {a : α} (h : P a) : Ends stuck (pure a) P := Ends.ok h

theorem Ends.error {e : ε} (h : e ≠ stuck) : Ends stuck (.error e) P where
  ends := fun hstuck => h (Except.error.inj hstuck)
  post := fun b hb => by cases hb

theorem Ends.bind (hx : Ends stuck x P) (hf : ∀ a, P a → Ends stuck (f a) Q) :
    Ends stuck (x >>= f) Q := by
  cases x with
  | error e => exact Ends.error fun h => hx.ends (congrArg Except.error h)
  | ok a => exact hf a (hx.post a rfl)

theorem Ends.mono (hx : Ends stuck x P) (h : ∀ a, P a → P' a) : Ends stuck x P' where
  ends := hx.ends
  post := fun a ha => h a (hx.post a ha)

end Rules

end DdTrace.Lib.Outcomes
