import Mathlib.Data.List.Basic
import Mathlib.Tactic.Common

/-!
# Recursive descent over memory

A parser that walks over an input with a pointer may look at the symbol under the pointer without
asking first whether the input ends there. So a parser here runs in a memory that goes on behind
the input, and its outcome records every place it reads.

* `Parser`: the parsers, with `item`, `peek`, `skip`, `atEnd`, `here` and `repeatN`.
* `Overruns`: some read is behind the end of the input.
* `Spec n p L O`: on a rest of at most `n` symbols, `p` succeeds exactly if the rest starts with a
  word of `L`, and overruns exactly if the rest is in `O`. What stands behind the input has no
  part in either.

There is one rule for each way to build a parser; the rule for `item` gives one symbol back, which
is what the induction over a fuel needs.
-/

namespace DdTrace.Lib.Descent

/-- Memory that holds an input, and goes on behind it. -/
structure Memory (σ : Type) where
  /-- The symbols of the input. -/
  input : List σ
  /-- What stands at the places behind the input. -/
  beyond : Nat → σ

/-- The symbol at place `i`. -/
def Memory.read {σ : Type} (m : Memory σ) (i : Nat) : σ := (m.input[i]?).getD (m.beyond i)

/-- The outcome of a parser: the places it read, and its value with the place it stopped at. -/
structure Outcome (α : Type) where
  /-- The places that were read, in order. -/
  reads : List Nat
  /-- The value and the place behind the last symbol used; `none` if the parser failed. -/
  result : Option (α × Nat)

/-- A parser with values in `α`, started in a memory at a place. -/
def Parser (σ α : Type) := Memory σ → Nat → Outcome α

variable {σ α β : Type}

/-- One parser after another. -/
def andThen (p : Parser σ α) (f : α → Parser σ β) : Parser σ β := fun m pos =>
  match (p m pos).result with
  | none => ⟨(p m pos).reads, none⟩
  | some (a, next) => ⟨(p m pos).reads ++ (f a m next).reads, (f a m next).result⟩

instance : Monad (Parser σ) where
  pure a := fun _ pos => ⟨[], some (a, pos)⟩
  bind := andThen

/-- Give up. -/
def fail : Parser σ α := fun _ _ => ⟨[], none⟩

/-- The place of the pointer. -/
def here : Parser σ Nat := fun _ pos => ⟨[], some (pos, pos)⟩

/-- Is the pointer at or behind the end of the input? -/
def atEnd : Parser σ Bool := fun m pos => ⟨[], some (decide (m.input.length ≤ pos), pos)⟩

/-- The symbol under the pointer, whether or not the input ends there. -/
def peek : Parser σ σ := fun m pos => ⟨[pos], some (m.read pos, pos)⟩

/-- Move the pointer by one symbol. -/
def skip : Parser σ Unit := fun _ pos => ⟨[], some ((), pos + 1)⟩

/-- The next symbol of the input, if there is one. -/
def item : Parser σ σ := do
  if ← atEnd then fail
  else do
    let a ← peek
    skip
    pure a

/-- `k` times the same parser. -/
def repeatN (p : Parser σ Unit) : Nat → Parser σ Unit
  | 0 => pure ()
  | k + 1 => do
      p
      repeatN p k

/-- Some read is behind the end of the input. -/
def Overruns (p : Parser σ α) (m : Memory σ) (pos : Nat) : Prop :=
  ∃ i ∈ (p m pos).reads, m.input.length ≤ i

/-! ## Outcomes of composed parsers -/

theorem read_of_drop {m : Memory σ} {pos : Nat} {a : σ} {v : List σ}
    (h : m.input.drop pos = a :: v) : m.read pos = a := by
  have hget : m.input[pos]? = some a := by
    have hhead := congrArg List.head? h
    rwa [List.head?_drop, List.head?_cons] at hhead
  rw [Memory.read, hget, Option.getD_some]

theorem lt_of_drop {m : Memory σ} {pos : Nat} {a : σ} {v : List σ}
    (h : m.input.drop pos = a :: v) : pos < m.input.length := by
  have hlen := congrArg List.length h
  rw [List.length_drop, List.length_cons] at hlen
  omega

theorem drop_succ_of_drop {m : Memory σ} {pos : Nat} {a : σ} {v : List σ}
    (h : m.input.drop pos = a :: v) : m.input.drop (pos + 1) = v := by
  rw [← List.drop_drop, h, List.drop_one, List.tail_cons]

theorem drop_add_of_drop {m : Memory σ} {pos : Nat} {u v : List σ}
    (h : m.input.drop pos = u ++ v) : m.input.drop (pos + u.length) = v := by
  rw [← List.drop_drop, h, List.drop_left]

@[simp] theorem pure_apply (a : α) (m : Memory σ) (pos : Nat) :
    (pure a : Parser σ α) m pos = ⟨[], some (a, pos)⟩ := rfl

theorem bind_result (p : Parser σ α) (f : α → Parser σ β) (m : Memory σ) (pos : Nat) :
    ((p >>= f) m pos).result = (p m pos).result.bind fun r => (f r.1 m r.2).result := by
  change (andThen p f m pos).result = _
  unfold andThen
  rcases (p m pos).result with _ | ⟨a, next⟩
  · rfl
  · rfl

/-- A sequence overruns in its first part or, if that succeeds, in its second. -/
theorem overruns_bind (p : Parser σ α) (f : α → Parser σ β) (m : Memory σ) (pos : Nat) :
    Overruns (p >>= f) m pos ↔
      Overruns p m pos ∨ ∃ a next, (p m pos).result = some (a, next) ∧ Overruns (f a) m next := by
  change Overruns (andThen p f) m pos ↔ _
  unfold Overruns andThen
  rcases hp : (p m pos).result with _ | ⟨a, next⟩
  · simp
  · simp only [List.mem_append, Option.some.injEq, Prod.mk.injEq]
    constructor
    · rintro ⟨i, hi | hi, hlen⟩
      · exact .inl ⟨i, hi, hlen⟩
      · exact .inr ⟨a, next, ⟨rfl, rfl⟩, i, hi, hlen⟩
    · rintro (⟨i, hi, hlen⟩ | ⟨a', next', ⟨rfl, rfl⟩, i, hi, hlen⟩)
      · exact ⟨i, .inl hi, hlen⟩
      · exact ⟨i, .inr hi, hlen⟩

theorem not_overruns_of_reads_nil {p : Parser σ α} {m : Memory σ} {pos : Nat}
    (h : (p m pos).reads = []) : ¬ Overruns p m pos := by
  rintro ⟨i, hi, -⟩
  rw [h] at hi
  exact List.not_mem_nil hi

theorem overruns_peek_bind (f : σ → Parser σ α) (m : Memory σ) (pos : Nat) :
    Overruns (peek >>= f) m pos ↔ m.input.length ≤ pos ∨ Overruns (f (m.read pos)) m pos := by
  rw [overruns_bind]
  simp [peek, Overruns]

theorem item_of_nil {m : Memory σ} {pos : Nat} (h : m.input.drop pos = []) :
    (item : Parser σ σ) m pos = ⟨[], none⟩ := by
  have hend : m.input.length ≤ pos := List.drop_eq_nil_iff.mp h
  simp [item, Bind.bind, andThen, atEnd, hend, fail]

theorem item_of_cons {m : Memory σ} {pos : Nat} {a : σ} {v : List σ}
    (h : m.input.drop pos = a :: v) :
    (item : Parser σ σ) m pos = ⟨[pos], some (a, pos + 1)⟩ := by
  have hend : ¬ m.input.length ≤ pos := Nat.not_le.mpr (lt_of_drop h)
  simp [item, Bind.bind, andThen, atEnd, hend, peek, skip, read_of_drop h]

/-! ## Specifications -/

/-- The words a parser accepts from a place, with its value on each. -/
abbrev Lang (σ α : Type) := Nat → List σ → α → Prop

/-- The rests on which a parser overruns, from a place. -/
abbrev Cut (σ : Type) := Nat → List σ → Prop

/-- What a parser does on a rest of at most `n` symbols. -/
structure Spec (n : Nat) (p : Parser σ α) (L : Lang σ α) (O : Cut σ) : Prop where
  /-- It succeeds exactly on the rests that start with a word of `L`, and stops behind it. -/
  accepts : ∀ (m : Memory σ) (pos : Nat), (m.input.drop pos).length ≤ n → ∀ a next,
    (p m pos).result = some (a, next) ↔
      ∃ w, L pos w a ∧ w <+: m.input.drop pos ∧ next = pos + w.length
  /-- It overruns exactly on the rests in `O`. -/
  overruns : ∀ (m : Memory σ) (pos : Nat), (m.input.drop pos).length ≤ n →
    (Overruns p m pos ↔ O pos (m.input.drop pos))

namespace Spec

variable {n : Nat} {p : Parser σ α} {L L' : Lang σ α} {O O' : Cut σ}

/-- Languages may be replaced by equivalent ones. -/
theorem congr (h : Spec n p L O) (hL : ∀ pos w a, L pos w a ↔ L' pos w a)
    (hO : ∀ pos r, O pos r ↔ O' pos r) : Spec n p L' O' where
  accepts m pos hn a next := by
    rw [h.accepts m pos hn a next]
    simp only [hL]
  overruns m pos hn := (h.overruns m pos hn).trans (hO pos _)

theorem pure (a : α) : Spec n (pure a : Parser σ α) (fun _ w b => w = [] ∧ b = a)
    (fun _ _ => False) where
  accepts m pos hn b next := by
    rw [pure_apply]
    constructor
    · intro h
      cases h
      exact ⟨[], ⟨rfl, rfl⟩, List.nil_prefix, rfl⟩
    · rintro ⟨w, ⟨rfl, rfl⟩, -, rfl⟩
      rfl
  overruns m pos hn := iff_of_false (not_overruns_of_reads_nil rfl) id

theorem fail : Spec n (fail : Parser σ α) (fun _ _ _ => False) (fun _ _ => False) where
  accepts m pos hn a next := by
    constructor
    · intro h
      cases h
    · rintro ⟨w, hw, -⟩
      exact hw.elim
  overruns m pos hn := iff_of_false (not_overruns_of_reads_nil rfl) id

/-- On the empty rest a parser of nonempty words may give up. -/
theorem of_nonempty (hL : ∀ pos a, ¬ L pos [] a) (hO : ∀ pos, ¬ O pos []) :
    Spec 0 (Descent.fail : Parser σ α) L O where
  accepts m pos hn a next := by
    have hr := List.length_eq_zero_iff.mp (Nat.le_zero.mp hn)
    refine iff_of_false (fun h => by cases h) ?_
    rintro ⟨w, hw, hpre, -⟩
    rw [hr, List.prefix_nil] at hpre
    rw [hpre] at hw
    exact hL pos a hw
  overruns m pos hn := by
    have hr := List.length_eq_zero_iff.mp (Nat.le_zero.mp hn)
    rw [hr]
    exact iff_of_false (not_overruns_of_reads_nil rfl) (hO pos)

/-- The place of the pointer is known to what follows. -/
theorem here_bind {f : Nat → Parser σ α} {M : Nat → Lang σ α} {P : Nat → Cut σ}
    (hf : ∀ i, Spec n (f i) (M i) (P i)) :
    Spec n (here >>= f) (fun pos w a => M pos pos w a) (fun pos r => P pos pos r) where
  accepts m pos hn a next := by
    rw [bind_result]
    exact (hf pos).accepts m pos hn a next
  overruns m pos hn := by
    rw [overruns_bind, ← (hf pos).overruns m pos hn]
    constructor
    · rintro (h | ⟨i, next, hi, h⟩)
      · exact absurd h (not_overruns_of_reads_nil rfl)
      · cases hi
        exact h
    · intro h
      exact .inr ⟨pos, pos, rfl, h⟩

/-- Two branches on a condition. -/
theorem ite {c : Prop} [Decidable c] {q : Parser σ α} {K : Lang σ α} {P : Cut σ}
    (hp : Spec n p L O) (hq : Spec n q K P) :
    Spec n (if c then p else q) (fun pos w a => if c then L pos w a else K pos w a)
      (fun pos r => if c then O pos r else P pos r) := by
  by_cases hc : c
  · simpa only [if_pos hc] using hp
  · simpa only [if_neg hc] using hq

/-- **Sequences.** The words are the concatenations; the second part overruns behind a word of the
first. -/
theorem bind {f : α → Parser σ β} {M : α → Lang σ β} {P : α → Cut σ}
    (hp : Spec n p L O) (hf : ∀ a, Spec n (f a) (M a) (P a)) :
    Spec n (p >>= f)
      (fun pos w b => ∃ u v a, w = u ++ v ∧ L pos u a ∧ M a (pos + u.length) v b)
      (fun pos r => O pos r ∨
        ∃ u v a, r = u ++ v ∧ L pos u a ∧ P a (pos + u.length) v) where
  accepts m pos hn b next := by
    rw [bind_result, Option.bind_eq_some_iff]
    constructor
    · rintro ⟨⟨a, mid⟩, hpa, hfb⟩
      obtain ⟨u, hu, ⟨t, ht⟩, rfl⟩ := (hp.accepts m pos hn a mid).mp hpa
      have hdrop : m.input.drop (pos + u.length) = t := drop_add_of_drop ht.symm
      have hshort : (m.input.drop (pos + u.length)).length ≤ n := by
        rw [List.length_drop] at hn ⊢
        omega
      obtain ⟨v, hv, hvt, rfl⟩ := ((hf a).accepts m _ hshort b next).mp hfb
      refine ⟨u ++ v, ⟨u, v, a, rfl, hu, hv⟩, ?_, ?_⟩
      · rw [hdrop] at hvt
        rw [← ht]
        exact (List.prefix_append_right_inj u).mpr hvt
      · rw [List.length_append, Nat.add_assoc]
    · rintro ⟨w, ⟨u, v, a, rfl, hu, hv⟩, ⟨t, ht⟩, rfl⟩
      rw [List.append_assoc] at ht
      have hdrop : m.input.drop (pos + u.length) = v ++ t := drop_add_of_drop ht.symm
      have hshort : (m.input.drop (pos + u.length)).length ≤ n := by
        rw [List.length_drop] at hn ⊢
        omega
      refine ⟨(a, pos + u.length), ?_, ?_⟩
      · exact (hp.accepts m pos hn a _).mpr ⟨u, hu, ⟨v ++ t, ht⟩, rfl⟩
      · refine ((hf a).accepts m _ hshort b _).mpr ⟨v, hv, ⟨t, hdrop.symm⟩, ?_⟩
        rw [List.length_append, Nat.add_assoc]
  overruns m pos hn := by
    rw [overruns_bind, hp.overruns m pos hn]
    refine or_congr Iff.rfl ?_
    constructor
    · rintro ⟨a, mid, hpa, hover⟩
      obtain ⟨u, hu, ⟨t, ht⟩, rfl⟩ := (hp.accepts m pos hn a mid).mp hpa
      have hdrop : m.input.drop (pos + u.length) = t := drop_add_of_drop ht.symm
      have hshort : (m.input.drop (pos + u.length)).length ≤ n := by
        rw [List.length_drop] at hn ⊢
        omega
      rw [(hf a).overruns m _ hshort, hdrop] at hover
      exact ⟨u, t, a, ht.symm, hu, hover⟩
    · rintro ⟨u, v, a, hr, hu, hv⟩
      have hdrop : m.input.drop (pos + u.length) = v := drop_add_of_drop hr
      have hshort : (m.input.drop (pos + u.length)).length ≤ n := by
        rw [List.length_drop] at hn ⊢
        omega
      refine ⟨a, pos + u.length, ?_, ?_⟩
      · exact (hp.accepts m pos hn a _).mpr ⟨u, hu, ⟨v, hr.symm⟩, rfl⟩
      · rw [(hf a).overruns m _ hshort, hdrop]
        exact hv

/-! ## Single symbols -/

/-- **One symbol.** What follows has one symbol less before it. -/
theorem item_bind {f : σ → Parser σ α} {M : σ → Lang σ α} {P : σ → Cut σ}
    (hf : ∀ a, Spec n (f a) (M a) (P a)) :
    Spec (n + 1) (item >>= f) (fun pos w b => ∃ a v, w = a :: v ∧ M a (pos + 1) v b)
      (fun pos r => ∃ a v, r = a :: v ∧ P a (pos + 1) v) where
  accepts m pos hn b next := by
    rw [bind_result]
    rcases hr : m.input.drop pos with _ | ⟨a, v⟩
    · rw [item_of_nil hr]
      constructor
      · intro h
        cases h
      · rintro ⟨w, ⟨a, v, rfl, -⟩, hw, -⟩
        exact absurd (List.prefix_nil.mp hw) (List.cons_ne_nil a v)
    · have hdrop := drop_succ_of_drop hr
      have hshort : (m.input.drop (pos + 1)).length ≤ n := by
        rw [List.length_drop] at hn ⊢
        omega
      rw [item_of_cons hr, Option.bind_some, (hf a).accepts m _ hshort, hdrop]
      constructor
      · rintro ⟨w, hw, hpre, rfl⟩
        refine ⟨a :: w, ⟨a, w, rfl, hw⟩, List.cons_prefix_cons.mpr ⟨rfl, hpre⟩, ?_⟩
        rw [List.length_cons]
        omega
      · rintro ⟨w, ⟨a', w', rfl, hw⟩, hpre, rfl⟩
        obtain ⟨rfl, htail⟩ := List.cons_prefix_cons.mp hpre
        refine ⟨w', hw, htail, ?_⟩
        rw [List.length_cons]
        omega
  overruns m pos hn := by
    rw [overruns_bind]
    rcases hr : m.input.drop pos with _ | ⟨a, v⟩
    · refine iff_of_false ?_ ?_
      · rintro (h | ⟨a, next, ha, -⟩)
        · exact not_overruns_of_reads_nil (by rw [item_of_nil hr]) h
        · rw [item_of_nil hr] at ha
          cases ha
      · rintro ⟨a, v, h, -⟩
        cases h
    · have hdrop := drop_succ_of_drop hr
      have hlt := lt_of_drop hr
      have hshort : (m.input.drop (pos + 1)).length ≤ n := by
        rw [List.length_drop] at hn ⊢
        omega
      have hitem := item_of_cons hr
      have hsafe : ¬ Overruns item m pos := by
        rintro ⟨i, hi, hlen⟩
        rw [hitem, List.mem_singleton] at hi
        omega
      constructor
      · rintro (h | ⟨a', next, ha, hover⟩)
        · exact absurd h hsafe
        · rw [hitem] at ha
          cases ha
          rw [(hf a).overruns m _ hshort, hdrop] at hover
          exact ⟨a, v, rfl, hover⟩
      · rintro ⟨a', v', heq, hP⟩
        obtain ⟨rfl, rfl⟩ := List.cons.inj heq
        refine .inr ⟨a, pos + 1, by rw [hitem], ?_⟩
        rw [(hf a).overruns m _ hshort, hdrop]
        exact hP

/-- One symbol, on a rest of any length. -/
theorem item : Spec n (item : Parser σ σ) (fun _ w a => w = [a]) (fun _ _ => False) where
  accepts m pos hn a next := by
    rcases hr : m.input.drop pos with _ | ⟨b, v⟩
    · rw [item_of_nil hr]
      constructor
      · intro h
        cases h
      · rintro ⟨w, rfl, hw, -⟩
        exact absurd (List.prefix_nil.mp hw) (List.cons_ne_nil a [])
    · rw [item_of_cons hr]
      constructor
      · intro h
        cases h
        exact ⟨[a], rfl, ⟨v, rfl⟩, rfl⟩
      · rintro ⟨w, rfl, hw, rfl⟩
        rw [(List.cons_prefix_cons.mp hw).1, List.length_singleton]
  overruns m pos hn := by
    refine iff_of_false ?_ id
    rintro ⟨i, hi, hlen⟩
    rcases hr : m.input.drop pos with _ | ⟨b, v⟩
    · rw [item_of_nil hr] at hi
      exact List.not_mem_nil hi
    · rw [item_of_cons hr, List.mem_singleton] at hi
      have hlt := lt_of_drop hr
      omega

/-- **A look at the next symbol.** It overruns on an empty rest; it is no part of the word. -/
theorem peek_bind {f : σ → Parser σ α} {M : σ → Lang σ α} {P : σ → Cut σ}
    (hf : ∀ a, Spec n (f a) (M a) (P a)) (hne : ∀ a pos b, ¬ M a pos [] b) :
    Spec n (peek >>= f) (fun pos w b => ∃ a v, w = a :: v ∧ M a pos w b)
      (fun pos r => r = [] ∨ ∃ a v, r = a :: v ∧ P a pos r) where
  accepts m pos hn b next := by
    rw [bind_result]
    change (f (m.read pos) m pos).result = some (b, next) ↔ _
    rw [(hf _).accepts m pos hn]
    constructor
    · rintro ⟨w, hw, ⟨t, ht⟩, rfl⟩
      rcases w with _ | ⟨a, v⟩
      · exact absurd hw (hne _ _ _)
      · rw [read_of_drop ht.symm] at hw
        exact ⟨a :: v, ⟨a, v, rfl, hw⟩, ⟨t, ht⟩, rfl⟩
    · rintro ⟨w, ⟨a, v, rfl, hw⟩, ⟨t, ht⟩, rfl⟩
      refine ⟨a :: v, ?_, ⟨t, ht⟩, rfl⟩
      rwa [read_of_drop ht.symm]
  overruns m pos hn := by
    rw [overruns_peek_bind, (hf _).overruns m pos hn]
    rcases hr : m.input.drop pos with _ | ⟨a, v⟩
    · exact iff_of_true (.inl (List.drop_eq_nil_iff.mp hr)) (.inl rfl)
    · have hlt := lt_of_drop hr
      rw [read_of_drop hr]
      constructor
      · rintro (hle | hP)
        · omega
        · exact .inr ⟨a, v, rfl, hP⟩
      · rintro (hnil | ⟨a', v', heq, hP⟩)
        · cases hnil
        · obtain ⟨rfl, rfl⟩ := List.cons.inj heq
          exact .inr hP

/-! ## A known next symbol -/

/-- What a parser does on a rest of at most `n` symbols that starts with `b`. -/
structure At (n : Nat) (b : σ) (p : Parser σ α) (L : Lang σ α) (O : Cut σ) : Prop where
  /-- It succeeds exactly on the rests that start with a word of `L`, and stops behind it. -/
  accepts : ∀ (m : Memory σ) (pos : Nat) (v : List σ), m.input.drop pos = b :: v →
    (b :: v).length ≤ n → ∀ a next, (p m pos).result = some (a, next) ↔
      ∃ w, L pos w a ∧ w <+: b :: v ∧ next = pos + w.length
  /-- It overruns exactly on the rests in `O`. -/
  overruns : ∀ (m : Memory σ) (pos : Nat) (v : List σ), m.input.drop pos = b :: v →
    (b :: v).length ≤ n → (Overruns p m pos ↔ O pos (b :: v))

theorem toAt (h : Spec n p L O) (b : σ) : At n b p L O where
  accepts m pos v hr hn a next := by
    rw [← hr] at hn ⊢
    exact h.accepts m pos hn a next
  overruns m pos v hr hn := by
    rw [← hr] at hn ⊢
    exact h.overruns m pos hn

/-- A specification for long rests holds for shorter ones. -/
theorem At.mono {k : Nat} {b : σ} (h : At n b p L O) (hk : k ≤ n) : At k b p L O where
  accepts m pos v hr hn := h.accepts m pos v hr (Nat.le_trans hn hk)
  overruns m pos v hr hn := h.overruns m pos v hr (Nat.le_trans hn hk)

/-- Two branches on a condition. -/
theorem At.ite {c : Prop} [Decidable c] {b : σ} {q : Parser σ α} {K : Lang σ α} {P : Cut σ}
    (hp : c → At n b p L O) (hq : ¬ c → At n b q K P) :
    At n b (if c then p else q) (fun pos w a => if c then L pos w a else K pos w a)
      (fun pos r => if c then O pos r else P pos r) := by
  by_cases hc : c
  · simpa only [if_pos hc] using hp hc
  · simpa only [if_neg hc] using hq hc

/-- A look at a symbol that is there. -/
theorem At.peek_bind {b : σ} {f : σ → Parser σ α} (h : At n b (f b) L O) :
    At n b (peek >>= f) L O where
  accepts m pos v hr hn a next := by
    rw [bind_result]
    change (f (m.read pos) m pos).result = some (a, next) ↔ _
    rw [read_of_drop hr]
    exact h.accepts m pos v hr hn a next
  overruns m pos v hr hn := by
    rw [overruns_peek_bind, read_of_drop hr, h.overruns m pos v hr hn]
    exact or_iff_right (Nat.not_le.mpr (lt_of_drop hr))

/-- A check for the end that the input passes. -/
theorem At.ifAtEnd {b : σ} (h : At n b p L O) :
    At n b (do if ← atEnd then Descent.fail else p) L O where
  accepts m pos v hr hn a next := by
    have hend : ¬ m.input.length ≤ pos := Nat.not_le.mpr (lt_of_drop hr)
    rw [bind_result]
    change ((if decide (m.input.length ≤ pos) then Descent.fail else p) m pos).result = _ ↔ _
    simp only [hend, decide_false]
    exact h.accepts m pos v hr hn a next
  overruns m pos v hr hn := by
    have hend : ¬ m.input.length ≤ pos := Nat.not_le.mpr (lt_of_drop hr)
    rw [overruns_bind, ← h.overruns m pos v hr hn]
    constructor
    · rintro (hover | ⟨a, next, ha, hover⟩)
      · exact absurd hover (not_overruns_of_reads_nil rfl)
      · cases ha
        rw [decide_eq_false hend] at hover
        exact hover
    · intro hover
      refine .inr ⟨false, pos, ?_, hover⟩
      change some (decide (m.input.length ≤ pos), pos) = _
      simp only [hend, decide_false]

/-- A step over a symbol that is there. -/
theorem At.skip_bind {b : σ} (h : Spec n p L O) :
    At (n + 1) b (skip >>= fun _ => p) (fun pos w a => ∃ v, w = b :: v ∧ L (pos + 1) v a)
      (fun pos r => O (pos + 1) r.tail) where
  accepts m pos v hr hn a next := by
    have hdrop := drop_succ_of_drop hr
    have hshort : (m.input.drop (pos + 1)).length ≤ n := by
      rw [hdrop]
      exact Nat.le_of_succ_le_succ hn
    rw [bind_result]
    change (p m (pos + 1)).result = some (a, next) ↔ _
    rw [h.accepts m _ hshort, hdrop]
    constructor
    · rintro ⟨w, hw, hpre, rfl⟩
      refine ⟨b :: w, ⟨w, rfl, hw⟩, List.cons_prefix_cons.mpr ⟨rfl, hpre⟩, ?_⟩
      rw [List.length_cons]
      omega
    · rintro ⟨w, ⟨w', rfl, hw⟩, hpre, rfl⟩
      refine ⟨w', hw, (List.cons_prefix_cons.mp hpre).2, ?_⟩
      rw [List.length_cons]
      omega
  overruns m pos v hr hn := by
    have hdrop := drop_succ_of_drop hr
    have hshort : (m.input.drop (pos + 1)).length ≤ n := by
      rw [hdrop]
      exact Nat.le_of_succ_le_succ hn
    rw [overruns_bind, List.tail_cons, ← hdrop, ← h.overruns m _ hshort]
    constructor
    · rintro (hover | ⟨a, next, ha, hover⟩)
      · exact absurd hover (not_overruns_of_reads_nil rfl)
      · cases ha
        exact hover
    · intro hover
      exact .inr ⟨(), pos + 1, rfl, hover⟩

/-- A step over a symbol that is there, and no more. -/
theorem At.skip {b : σ} :
    At n b (Descent.skip : Parser σ Unit) (fun _ w _ => w = [b]) (fun _ _ => False) where
  accepts m pos v hr hn a next := by
    constructor
    · intro h
      cases h
      exact ⟨[b], rfl, ⟨v, rfl⟩, rfl⟩
    · rintro ⟨w, rfl, -, rfl⟩
      rfl
  overruns m pos v hr hn := iff_of_false (not_overruns_of_reads_nil rfl) id

/-- With nothing left, a look at the next symbol overruns. -/
theorem peek_of_nil {f : σ → Parser σ α} {m : Memory σ} {pos : Nat}
    (h : m.input.drop pos = []) (hf : ∀ b, (f b m pos).result = none) :
    ((peek >>= f) m pos).result = none ∧ (Overruns (peek >>= f) m pos ↔ True) := by
  have hend : m.input.length ≤ pos := List.drop_eq_nil_iff.mp h
  constructor
  · rw [bind_result]
    exact hf _
  · rw [overruns_peek_bind]
    exact iff_true_intro (.inl hend)

/-- With nothing left, a check for the end gives up. -/
theorem ifAtEnd_of_nil {m : Memory σ} {pos : Nat} (h : m.input.drop pos = []) :
    ((do if ← atEnd then Descent.fail else p : Parser σ α) m pos).result = none ∧
      (Overruns (do if ← atEnd then Descent.fail else p : Parser σ α) m pos ↔ False) := by
  have hend : m.input.length ≤ pos := List.drop_eq_nil_iff.mp h
  constructor
  · rw [bind_result]
    simp [atEnd, hend, Descent.fail]
  · refine iff_of_false ?_ id
    rw [overruns_bind]
    rintro (hover | ⟨a, next, ha, hover⟩)
    · exact not_overruns_of_reads_nil rfl hover
    · cases ha
      rw [decide_eq_true hend] at hover
      exact not_overruns_of_reads_nil rfl hover

/-- **A case split on the rest.** On the empty rest the parser gives up, with or without an
overrun; a rest with a first symbol is specified symbol by symbol. -/
theorem of_at {e : Prop} {K : σ → Lang σ α} {P : σ → Cut σ}
    (hnil : ∀ (m : Memory σ) (pos : Nat), m.input.drop pos = [] →
      (p m pos).result = none ∧ (Overruns p m pos ↔ e))
    (hcons : ∀ b, At n b p (K b) (P b)) (hne : ∀ b pos a, ¬ K b pos [] a) :
    Spec n p (fun pos w a => ∃ b v, w = b :: v ∧ K b pos w a)
      (fun pos r => (r = [] ∧ e) ∨ ∃ b v, r = b :: v ∧ P b pos r) where
  accepts m pos hn a next := by
    rcases hr : m.input.drop pos with _ | ⟨b, v⟩
    · rw [(hnil m pos hr).1]
      refine iff_of_false (fun h => by cases h) ?_
      rintro ⟨w, ⟨b, v, rfl, -⟩, hpre, -⟩
      exact absurd (List.prefix_nil.mp hpre) (List.cons_ne_nil b v)
    · rw [hr] at hn
      rw [(hcons b).accepts m pos v hr hn]
      constructor
      · rintro ⟨w, hw, hpre, rfl⟩
        rcases w with _ | ⟨b', v'⟩
        · exact absurd hw (hne _ _ _)
        · obtain ⟨rfl, -⟩ := List.cons_prefix_cons.mp hpre
          exact ⟨b' :: v', ⟨b', v', rfl, hw⟩, hpre, rfl⟩
      · rintro ⟨w, ⟨b', v', rfl, hw⟩, hpre, rfl⟩
        obtain ⟨rfl, -⟩ := List.cons_prefix_cons.mp hpre
        exact ⟨b' :: v', hw, hpre, rfl⟩
  overruns m pos hn := by
    rcases hr : m.input.drop pos with _ | ⟨b, v⟩
    · rw [(hnil m pos hr).2]
      constructor
      · intro he
        exact .inl ⟨rfl, he⟩
      · rintro (⟨-, he⟩ | ⟨b, v, h, -⟩)
        · exact he
        · cases h
    · rw [hr] at hn
      rw [(hcons b).overruns m pos v hr hn]
      constructor
      · intro hP
        exact .inr ⟨b, v, rfl, hP⟩
      · rintro (⟨h, -⟩ | ⟨b', v', heq, hP⟩)
        · cases h
        · obtain ⟨rfl, rfl⟩ := List.cons.inj heq
          exact hP

/-! ## Repetition -/

/-- **Repetition.** The words are the concatenations of `k` words. -/
theorem repeatN {p : Parser σ Unit} {W : List σ → Prop} {D : List σ → Prop}
    (hp : Spec n p (fun _ w _ => W w) (fun _ r => D r)) (k : Nat) :
    Spec n (repeatN p k)
      (fun _ w _ => ∃ ws : List (List σ), ws.length = k ∧ (∀ w ∈ ws, W w) ∧ w = ws.flatten)
      (fun _ r => ∃ (ws : List (List σ)) (v : List σ),
        ws.length < k ∧ (∀ w ∈ ws, W w) ∧ D v ∧ r = ws.flatten ++ v) := by
  induction k with
  | zero =>
      refine (Spec.pure ()).congr (fun pos w a => ?_) (fun pos r => ?_)
      · constructor
        · rintro ⟨rfl, -⟩
          exact ⟨[], rfl, by simp, rfl⟩
        · rintro ⟨ws, hlen, -, rfl⟩
          rw [List.length_eq_zero_iff.mp hlen]
          exact ⟨rfl, rfl⟩
      · refine iff_of_false id ?_
        rintro ⟨ws, v, hlen, -⟩
        exact absurd hlen (Nat.not_lt_zero _)
  | succ k ih =>
      refine (hp.bind fun _ => ih).congr (fun pos w a => ?_) (fun pos r => ?_)
      · constructor
        · rintro ⟨u, v, -, rfl, hu, ws, hlen, hws, rfl⟩
          exact ⟨u :: ws, by rw [List.length_cons, hlen], List.forall_mem_cons.mpr ⟨hu, hws⟩, rfl⟩
        · rintro ⟨ws, hlen, hws, rfl⟩
          rcases ws with _ | ⟨u, ws⟩
          · cases hlen
          · rw [List.forall_mem_cons] at hws
            exact ⟨u, ws.flatten, (), rfl, hws.1, ws, Nat.succ.inj hlen, hws.2, rfl⟩
      · constructor
        · rintro (hD | ⟨u, v, -, rfl, hu, ws, v', hlen, hws, hD, rfl⟩)
          · exact ⟨[], r, Nat.succ_pos k, by simp, hD, rfl⟩
          · refine ⟨u :: ws, v', Nat.succ_lt_succ hlen, List.forall_mem_cons.mpr ⟨hu, hws⟩, hD, ?_⟩
            rw [List.flatten_cons, List.append_assoc]
        · rintro ⟨ws, v, hlen, hws, hD, rfl⟩
          rcases ws with _ | ⟨u, ws⟩
          · exact .inl hD
          · rw [List.forall_mem_cons] at hws
            refine .inr ⟨u, ws.flatten ++ v, (), ?_, hws.1, ws, v, Nat.lt_of_succ_lt_succ hlen,
              hws.2, hD, rfl⟩
            rw [List.flatten_cons, List.append_assoc]

end Spec

end DdTrace.Lib.Descent
