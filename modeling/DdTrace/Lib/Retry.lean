import Mathlib.Logic.Relation
import Mathlib.Tactic.Common

/-!
# Passes that start over

`retry pass` repeats a fallible pass over a state until the pass says that it is done. A pass
either fails, asks for another round from a changed state, or is done with a result. The rules are
the ones a fix-point computation needs: an invariant kept by every repetition holds at the last
pass, and a measure that every repetition lowers bounds the number of passes.
-/

namespace DdTrace.Lib

variable {σ β ε : Type*}

/-- What a pass asks for when it did not fail. -/
inductive Round (σ β : Type*)
  /-- Start over from this state. -/
  | again (s : σ)
  /-- Done, with this result. -/
  | done (b : β)

/-- Repeat `pass` from `s`, at most `fuel` times; `exhausted` is the failure of a run that was
still going then. -/
def retry (pass : σ → Except ε (Round σ β)) (exhausted : ε) : Nat → σ → Except ε β
  | 0, _ => .error exhausted
  | fuel + 1, s =>
      match pass s with
      | .error e => .error e
      | .ok (.again s') => retry pass exhausted fuel s'
      | .ok (.done b) => .ok b

variable {pass : σ → Except ε (Round σ β)} {exhausted : ε} {P : σ → Prop} {m : σ → Nat}

/-- So many repetitions lead from one state to another. -/
inductive Rounds (pass : σ → Except ε (Round σ β)) : Nat → σ → σ → Prop
  | refl (s : σ) : Rounds pass 0 s s
  | again {n : Nat} {s s' s'' : σ} (h : Rounds pass n s s') (hpass : pass s' = .ok (.again s'')) :
      Rounds pass (n + 1) s s''

/-- An invariant of the repetition holds after all of them, and a measure that each of them lowers
bounds their number. -/
theorem Rounds.measure_le (hstep : ∀ s s', P s → pass s = .ok (.again s') → P s' ∧ m s' < m s)
    {n : Nat} {s s' : σ} (hs : P s) (h : Rounds pass n s s') : P s' ∧ m s' + n ≤ m s := by
  induction h with
  | refl s => exact ⟨hs, Nat.le_refl _⟩
  | again _ hpass ih =>
      obtain ⟨hs', hle⟩ := ih hs
      obtain ⟨hs'', hlt⟩ := hstep _ _ hs' hpass
      exact ⟨hs'', by omega⟩

/-- A result comes from one last pass, over a state with every invariant of the repetition. -/
theorem retry_eq_ok (hstep : ∀ s s', P s → pass s = .ok (.again s') → P s')
    {fuel : Nat} {s : σ} {b : β} (hs : P s) (h : retry pass exhausted fuel s = .ok b) :
    ∃ s', P s' ∧ pass s' = .ok (.done b) := by
  induction fuel generalizing s with
  | zero => cases h
  | succ fuel ih =>
      rw [retry] at h
      cases hp : pass s with
      | error e => simp [hp] at h
      | ok r =>
          rw [hp] at h
          cases r with
          | again s' => exact ih (hstep s s' hs hp) h
          | done b' =>
              obtain rfl := Except.ok.inj h
              exact ⟨s, hs, hp⟩

/-- With fuel above the measure the repetition is never cut short: it ends in a result or in a
failure of a pass. -/
theorem retry_ends (hstep : ∀ s s', P s → pass s = .ok (.again s') → P s' ∧ m s' < m s)
    {fuel : Nat} {s : σ} (hs : P s) (hfuel : m s < fuel) :
    (∃ b, retry pass exhausted fuel s = .ok b) ∨
      ∃ s' e, P s' ∧ pass s' = .error e ∧ retry pass exhausted fuel s = .error e := by
  induction fuel generalizing s with
  | zero => exact absurd hfuel (Nat.not_lt_zero _)
  | succ fuel ih =>
      rw [retry]
      cases hp : pass s with
      | error e => exact Or.inr ⟨s, e, hs, hp, rfl⟩
      | ok r =>
          cases r with
          | done b => exact Or.inl ⟨b, rfl⟩
          | again s' =>
              obtain ⟨hs', hm⟩ := hstep s s' hs hp
              exact ih hs' (by omega)

/-- Passes that never fail and always lower the measure end in a result. -/
theorem exists_retry (hok : ∀ s, P s → ∃ r, pass s = .ok r)
    (hstep : ∀ s s', P s → pass s = .ok (.again s') → P s' ∧ m s' < m s)
    {fuel : Nat} {s : σ} (hs : P s) (hfuel : m s < fuel) :
    ∃ b, retry pass exhausted fuel s = .ok b := by
  have hends : (∃ b, retry pass exhausted fuel s = .ok b) ∨ _ := retry_ends hstep hs hfuel
  rcases hends with hb | ⟨s', e, hs', he, -⟩
  · exact hb
  · obtain ⟨r, hr⟩ := hok s' hs'
    rw [hr] at he
    cases he

end DdTrace.Lib
