import Mathlib.Data.List.Basic
import Mathlib.Tactic.Common

/-!
# Routines that step over a word

A routine that has no end to compare with reads from the front of a memory, and its result is the
memory behind what it has read, or an error. Its language is what it steps over, whatever stands
behind it.

* `Takes n parse L`: on a memory of at most `n` symbols, `parse` steps over the words of `L`, and
  over nothing else.
* `Takes.bind`, `Takes.many`, `Takes.behind`, `Takes.orElse`: one rule for each way to build a
  routine.
-/

namespace DdTrace.Lib.Skipping

variable {σ ε : Type}

/-- One word behind another. -/
def Concat (L K : List σ → Prop) (w : List σ) : Prop := ∃ u v, w = u ++ v ∧ L u ∧ K v

/-- A number of words. -/
def Power (L : List σ → Prop) : Nat → List σ → Prop
  | 0 => fun w => w = []
  | n + 1 => Concat L (Power L n)

/-- The same routine again and again. -/
def many (parse : List σ → Except ε (List σ)) : Nat → List σ → Except ε (List σ)
  | 0, memory => .ok memory
  | n + 1, memory => (parse memory).bind (many parse n)

/-- On a memory of at most `n` symbols the routine steps over the words of a language, and over
nothing else. -/
def Takes (n : Nat) (parse : List σ → Except ε (List σ)) (L : List σ → Prop) : Prop :=
  ∀ m m', m.length ≤ n → (parse m = .ok m' ↔ ∃ w, m = w ++ m' ∧ L w)

namespace Takes

variable {n : Nat} {parse next : List σ → Except ε (List σ)} {L K : List σ → Prop}

theorem congr (h : Takes n parse L) (hL : ∀ w, L w ↔ K w) : Takes n parse K := by
  intro m m' hm
  rw [h m m' hm]
  exact exists_congr fun w => and_congr_right fun _ => hL w

theorem mono {k : Nat} (h : Takes n parse L) (hk : k ≤ n) : Takes k parse L :=
  fun m m' hm => h m m' (Nat.le_trans hm hk)

theorem ok : Takes n (.ok : List σ → Except ε (List σ)) (· = []) := by
  intro m m' hm
  constructor
  · intro h
    exact ⟨[], Except.ok.inj h, rfl⟩
  · rintro ⟨_, rfl, rfl⟩
    rfl

theorem error (e : ε) : Takes n (fun _ : List σ => .error e) fun _ => False := by
  intro m m' hm
  constructor
  · intro h
    cases h
  · rintro ⟨w, -, h⟩
    exact h.elim

/-- **One routine behind another.** -/
theorem bind (h : Takes n parse L) (hnext : Takes n next K) :
    Takes n (fun m => (parse m).bind next) (Concat L K) := by
  intro m m'' hm
  dsimp only
  constructor
  · intro hbind
    cases hparse : parse m with
    | error e =>
        rw [hparse] at hbind
        cases hbind
    | ok m' =>
        rw [hparse] at hbind
        obtain ⟨u, rfl, hu⟩ := (h m m' hm).mp hparse
        rw [List.length_append] at hm
        obtain ⟨v, rfl, hv⟩ := (hnext m' m'' (by omega)).mp hbind
        exact ⟨u ++ v, (List.append_assoc u v m'').symm, u, v, rfl, hu, hv⟩
  · rintro ⟨_, rfl, u, v, rfl, hu, hv⟩
    rw [List.append_assoc] at hm ⊢
    rw [(h _ (v ++ m'') hm).mpr ⟨u, rfl, hu⟩]
    rw [List.length_append] at hm
    exact (hnext _ m'' (by omega)).mpr ⟨v, rfl, hv⟩

/-- **A routine again and again.** -/
theorem many (h : Takes n parse L) (k : Nat) : Takes n (Skipping.many parse k) (Power L k) := by
  induction k with
  | zero => exact ok
  | succ k ih => exact h.bind ih

theorem ite {c : Prop} [Decidable c] (h : Takes n parse L) (hnext : Takes n next K) :
    Takes n (fun m => if c then parse m else next m) fun w => if c then L w else K w := by
  split
  · exact h
  · exact hnext

/-- A word that is not empty is behind its first symbol. -/
theorem exists_cons (hL : ¬L []) {b : σ} {rest m' : List σ} :
    (∃ w, b :: rest = w ++ m' ∧ L w) ↔ ∃ v, rest = v ++ m' ∧ L (b :: v) := by
  constructor
  · rintro ⟨w, hw, hLw⟩
    cases w with
    | nil => exact absurd hLw hL
    | cons c w =>
        obtain ⟨rfl, rfl⟩ := List.cons.inj hw
        exact ⟨w, rfl, hLw⟩
  · rintro ⟨v, rfl, hLv⟩
    exact ⟨b :: v, rfl, hLv⟩

/-- There is no word that is not empty in an empty memory. -/
theorem not_exists_nil (hL : ¬L []) {m' : List σ} : ¬∃ w, [] = w ++ m' ∧ L w := by
  rintro ⟨w, hw, hLw⟩
  rw [(List.append_eq_nil_iff.mp hw.symm).1] at hLw
  exact hL hLw

/-- **A routine that goes on behind the first symbol.** -/
theorem behind {f : σ → List σ → Except ε (List σ)} {e : ε} (hL : ¬L [])
    (h : ∀ b, Takes n (f b) fun v => L (b :: v)) (hnil : parse [] = .error e)
    (hcons : ∀ b rest, parse (b :: rest) = f b rest) : Takes (n + 1) parse L := by
  intro m m' hm
  cases m with
  | nil =>
      rw [hnil]
      exact iff_of_false (fun h => by cases h) (not_exists_nil hL)
  | cons b rest =>
      rw [hcons, exists_cons hL]
      exact h b rest m' (Nat.le_of_succ_le_succ hm)

/-- **A routine that looks at the first symbol**, and goes on behind it or calls another one. -/
theorem orElse {f : List σ → Except ε (List σ)} {M : List σ → Prop} {c : σ → Prop}
    [DecidablePred c] {e : ε} (hL : ¬L []) (hM : ¬M []) (hf : ∀ k < n, Takes k f K)
    (hnext : Takes n next M) (htrue : ∀ b v, c b → (L (b :: v) ↔ K v))
    (hfalse : ∀ b v, ¬c b → (L (b :: v) ↔ M (b :: v))) (hnil : parse [] = .error e)
    (hcons : ∀ b rest, parse (b :: rest) = if c b then f rest else next (b :: rest)) :
    Takes n parse L := by
  intro m m' hm
  cases m with
  | nil =>
      rw [hnil]
      exact iff_of_false (fun h => by cases h) (not_exists_nil hL)
  | cons b rest =>
      rw [hcons, exists_cons hL]
      by_cases hb : c b
      · rw [if_pos hb, hf rest.length hm rest m' (Nat.le_refl _)]
        exact exists_congr fun v => and_congr_right fun _ => (htrue b v hb).symm
      · rw [if_neg hb, hnext _ m' hm, exists_cons hM]
        exact exists_congr fun v => and_congr_right fun _ => (hfalse b v hb).symm

end Takes

end DdTrace.Lib.Skipping
