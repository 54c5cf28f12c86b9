import Mathlib.Data.List.Perm.Subperm
import Mathlib.Data.List.Nodup
import Mathlib.Logic.Function.Basic

/-!
# A ledger of tokens

Tokens that workers take and put somewhere, each at most once.

* `Ledger`: which tokens were taken, which worker has one in hand, which tokens have a place.
* `Ledger.Step`: a worker takes a fresh token, a worker places the token in its hand, the places are
  rearranged.
* `Ledger.Valid` is kept by every step (`Step.valid`): a token that was taken is in one hand or in
  one place, and never in both.
-/

namespace DdTrace.Lib

variable {ι τ : Type*} [DecidableEq ι]

/-- What the workers did with the tokens so far. -/
structure Ledger (ι τ : Type*) where
  /-- The tokens that were taken. -/
  taken : List τ
  /-- The token that a worker has in hand. -/
  hands : ι → Option τ
  /-- The tokens that have a place. -/
  placed : List τ

namespace Ledger

/-- What can happen. -/
inductive Step : Ledger ι τ → Ledger ι τ → Prop where
  /-- A worker takes a token that was never taken before. -/
  | take {l l' : Ledger ι τ} {i : ι} {t : τ} : t ∉ l.taken → l.hands i = none →
      l'.taken = l.taken ++ [t] → l'.hands = Function.update l.hands i (some t) →
      l'.placed = l.placed → Step l l'
  /-- A worker places the token in its hand. -/
  | place {l l' : Ledger ι τ} {i : ι} {t : τ} : l.hands i = some t → l'.taken = l.taken →
      l'.hands = Function.update l.hands i none → l'.placed.Perm (t :: l.placed) → Step l l'
  /-- Tokens go from one place to another. -/
  | rearrange {l l' : Ledger ι τ} : l'.taken = l.taken → l'.hands = l.hands →
      l'.placed.Perm l.placed → Step l l'

/-- No token is in two places, in two hands, or in a hand and a place, and none is missing. -/
structure Valid (l : Ledger ι τ) : Prop where
  /-- A token has one place. -/
  nodup : l.placed.Nodup
  /-- A token in a hand has no place. -/
  hand_not_placed : ∀ {i t}, l.hands i = some t → t ∉ l.placed
  /-- A token is in one hand. -/
  hand_unique : ∀ {i j t}, l.hands i = some t → l.hands j = some t → i = j
  /-- A token was taken if and only if it has a place or is in a hand. -/
  mem_taken : ∀ {t}, t ∈ l.taken ↔ t ∈ l.placed ∨ ∃ i, l.hands i = some t

variable {l l' : Ledger ι τ}

theorem Valid.take (h : l.Valid) {i : ι} {t : τ} (hfresh : t ∉ l.taken) (hidle : l.hands i = none) :
    Valid { l with taken := l.taken ++ [t], hands := Function.update l.hands i (some t) } := by
  have hplace : t ∉ l.placed := fun ht => hfresh (h.mem_taken.mpr (Or.inl ht))
  have hhand : ∀ j, l.hands j ≠ some t := fun j hj => hfresh (h.mem_taken.mpr (Or.inr ⟨j, hj⟩))
  -- what is in a hand now: the new token, or what was there before
  have hcases : ∀ {j u}, Function.update l.hands i (some t) j = some u →
      (j = i ∧ u = t) ∨ l.hands j = some u := by
    intro j u hj
    rcases eq_or_ne j i with rfl | hne
    · rw [Function.update_self, Option.some.injEq] at hj
      exact Or.inl ⟨rfl, hj.symm⟩
    · rw [Function.update_of_ne hne] at hj
      exact Or.inr hj
  constructor
  case nodup => exact h.nodup
  case hand_not_placed =>
    intro j u hj
    rcases hcases hj with ⟨-, rfl⟩ | hj
    · exact hplace
    · exact h.hand_not_placed hj
  case hand_unique =>
    intro j k u hj hk
    rcases hcases hj with ⟨rfl, rfl⟩ | hold
    · rcases hcases hk with ⟨rfl, -⟩ | hk
      · rfl
      · exact (hhand k hk).elim
    · rcases hcases hk with ⟨rfl, rfl⟩ | hk
      · exact (hhand j hold).elim
      · exact h.hand_unique hold hk
  case mem_taken =>
    intro u
    constructor
    · intro hu
      rcases List.mem_append.mp hu with hu | hu
      · rcases h.mem_taken.mp hu with hu | ⟨j, hj⟩
        · exact Or.inl hu
        · have hne : j ≠ i := by
            rintro rfl
            rw [hidle] at hj
            cases hj
          exact Or.inr ⟨j, (Function.update_of_ne hne ..).trans hj⟩
      · obtain rfl := List.mem_singleton.mp hu
        exact Or.inr ⟨i, Function.update_self ..⟩
    · rintro (hu | ⟨j, hj⟩)
      · exact List.mem_append_left _ (h.mem_taken.mpr (Or.inl hu))
      · rcases hcases hj with ⟨-, rfl⟩ | hj
        · exact List.mem_append_right _ (List.mem_singleton.mpr rfl)
        · exact List.mem_append_left _ (h.mem_taken.mpr (Or.inr ⟨j, hj⟩))

theorem Valid.place (h : l.Valid) {i : ι} {t : τ} {placed : List τ} (hhand : l.hands i = some t)
    (hplaced : placed.Perm (t :: l.placed)) :
    Valid { l with hands := Function.update l.hands i none, placed := placed } := by
  have hcases : ∀ {j u}, Function.update l.hands i none j = some u → j ≠ i ∧ l.hands j = some u := by
    intro j u hj
    rcases eq_or_ne j i with rfl | hne
    · rw [Function.update_self] at hj
      cases hj
    · rw [Function.update_of_ne hne] at hj
      exact ⟨hne, hj⟩
  constructor
  case nodup =>
    exact hplaced.nodup_iff.mpr (List.nodup_cons.mpr ⟨h.hand_not_placed hhand, h.nodup⟩)
  case hand_not_placed =>
    intro j u hj hu
    obtain ⟨hne, hj⟩ := hcases hj
    rcases List.mem_cons.mp (hplaced.mem_iff.mp hu) with rfl | hu
    · exact hne (h.hand_unique hj hhand)
    · exact h.hand_not_placed hj hu
  case hand_unique =>
    intro j k u hj hk
    exact h.hand_unique (hcases hj).2 (hcases hk).2
  case mem_taken =>
    intro u
    rw [h.mem_taken, hplaced.mem_iff, List.mem_cons]
    constructor
    · rintro (hu | ⟨j, hj⟩)
      · exact Or.inl (Or.inr hu)
      · rcases eq_or_ne j i with rfl | hne
        · rw [hhand, Option.some.injEq] at hj
          exact Or.inl (Or.inl hj.symm)
        · exact Or.inr ⟨j, (Function.update_of_ne hne ..).trans hj⟩
    · rintro ((rfl | hu) | ⟨j, hj⟩)
      · exact Or.inr ⟨i, hhand⟩
      · exact Or.inl hu
      · exact Or.inr ⟨j, (hcases hj).2⟩

omit [DecidableEq ι] in
theorem Valid.rearrange (h : l.Valid) {placed : List τ} (hplaced : placed.Perm l.placed) :
    Valid { l with placed := placed } := by
  constructor
  case nodup => exact hplaced.nodup_iff.mpr h.nodup
  case hand_not_placed =>
    intro i t hi ht
    exact h.hand_not_placed hi (hplaced.mem_iff.mp ht)
  case hand_unique => exact h.hand_unique
  case mem_taken =>
    intro t
    rw [h.mem_taken, hplaced.mem_iff]

/-- **Every step keeps the ledger valid.** -/
theorem Step.valid (hstep : Step l l') (h : l.Valid) : l'.Valid := by
  obtain ⟨taken, hands, placed⟩ := l'
  cases hstep with
  | take hfresh hidle htaken hhands hplaced =>
      obtain rfl : taken = _ := htaken
      obtain rfl : hands = _ := hhands
      obtain rfl : placed = _ := hplaced
      exact h.take hfresh hidle
  | place hhand htaken hhands hplaced =>
      obtain rfl : taken = _ := htaken
      obtain rfl : hands = _ := hhands
      exact h.place hhand hplaced
  | rearrange htaken hhands hplaced =>
      obtain rfl : taken = _ := htaken
      obtain rfl : hands = _ := hhands
      exact h.rearrange hplaced

/-- A token that was taken and is in no hand. -/
def Settled (l : Ledger ι τ) (t : τ) : Prop := t ∈ l.taken ∧ ∀ i, l.hands i ≠ some t

/-- A token that is in no hand any more stays so. -/
theorem Settled.step (h : l.Settled t) (hstep : Step l l') : l'.Settled t := by
  obtain ⟨htaken, hhands⟩ := h
  cases hstep with
  | @take i t' hfresh hidle htaken' hhands' hplaced =>
      refine ⟨by rw [htaken']; exact List.mem_append_left _ htaken, fun j => ?_⟩
      rw [hhands']
      rcases eq_or_ne j i with rfl | hne
      · rw [Function.update_self]
        rintro ⟨⟩
        exact hfresh htaken
      · rw [Function.update_of_ne hne]
        exact hhands j
  | @place i t' hhand htaken' hhands' hplaced =>
      refine ⟨by rw [htaken']; exact htaken, fun j => ?_⟩
      rw [hhands']
      rcases eq_or_ne j i with rfl | hne
      · rw [Function.update_self]
        simp
      · rw [Function.update_of_ne hne]
        exact hhands j
  | rearrange htaken' hhands' hplaced =>
      rw [Settled, htaken', hhands']
      exact ⟨htaken, hhands⟩

/-- A token that leaves its hand is settled. -/
theorem Valid.settled (h : l.Valid) {i : ι} {t : τ} (hhand : l.hands i = some t)
    (htaken : l'.taken = l.taken) (hhands : l'.hands = Function.update l.hands i none) :
    l'.Settled t := by
  refine ⟨by rw [htaken]; exact h.mem_taken.mpr (Or.inr ⟨i, hhand⟩), fun j => ?_⟩
  rw [hhands]
  rcases eq_or_ne j i with rfl | hne
  · rw [Function.update_self]
    simp
  · rw [Function.update_of_ne hne]
    exact fun hj => hne (h.hand_unique hj hhand)

end Ledger

end DdTrace.Lib
