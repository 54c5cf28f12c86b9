import Mathlib.Data.List.Basic
import Mathlib.Order.Lattice
import Mathlib.Tactic.Common

/-!
# Lists by descending priority

* `insertByPriority`: an element goes before the first one of a lower priority.
* `insertAll`: elements that come one after another.
* `Descending.insertAll`, `perm_insertAll`, `filter_insertAll`: what is built so is ordered, has the
  elements that came and keeps the order in which those of one priority came.
* `isFirstHighest_of_find?`: the first match in it is the first to come of the highest matches.
-/

namespace DdTrace.Lib.StableInsertion

variable {α κ : Type} [LinearOrder κ] (priority : α → κ)

/-- Insert an element before the first one of a lower priority. -/
def insertByPriority (a : α) : List α → List α
  | [] => [a]
  | b :: rest => if priority b < priority a then a :: b :: rest else b :: insertByPriority a rest

/-- Insert elements one after another. -/
def insertAll (l : List α) (arrivals : List α) : List α :=
  arrivals.foldl (fun l a => insertByPriority priority a l) l

/-- No element has a lower priority than a later one. -/
def Descending (l : List α) : Prop := l.Pairwise fun a b => priority b ≤ priority a

variable {priority}

/-! ## One insertion -/

theorem perm_insertByPriority (a : α) (l : List α) :
    (insertByPriority priority a l).Perm (a :: l) := by
  induction l with
  | nil => exact List.Perm.refl _
  | cons b rest ih =>
      unfold insertByPriority
      split
      · exact List.Perm.refl _
      · exact (ih.cons b).trans (List.Perm.swap a b rest)

theorem Descending.insertByPriority {l : List α} (h : Descending priority l) (a : α) :
    Descending priority (insertByPriority priority a l) := by
  induction l with
  | nil => exact List.pairwise_singleton _ a
  | cons b rest ih =>
      obtain ⟨hb, hrest⟩ := List.pairwise_cons.mp h
      unfold StableInsertion.insertByPriority
      split
      · rename_i hlt
        refine List.pairwise_cons.mpr ⟨?_, h⟩
        intro c hc
        rcases List.mem_cons.mp hc with rfl | hc
        · exact hlt.le
        · exact (hb c hc).trans hlt.le
      · rename_i hle
        refine List.pairwise_cons.mpr ⟨?_, ih hrest⟩
        intro c hc
        rcases List.mem_cons.mp ((perm_insertByPriority a rest).mem_iff.mp hc) with rfl | hc
        · exact not_lt.mp hle
        · exact hb c hc

/-- The inserted element is the last one of its priority. -/
theorem filter_insertByPriority {l : List α} (h : Descending priority l) (a : α) (k : κ) :
    (insertByPriority priority a l).filter (fun b => priority b = k) =
      l.filter (fun b => priority b = k) ++ [a].filter (fun b => priority b = k) := by
  induction l with
  | nil => rfl
  | cons b rest ih =>
      obtain ⟨hb, hrest⟩ := List.pairwise_cons.mp h
      unfold insertByPriority
      split
      · rename_i hlt
        by_cases ha : priority a = k
        · -- All that follows has a lower priority.
          have hnone : (b :: rest).filter (fun c => priority c = k) = [] := by
            refine List.filter_eq_nil_iff.mpr fun c hc => ?_
            have hc' : priority c < priority a := by
              rcases List.mem_cons.mp hc with rfl | hc
              · exact hlt
              · exact (hb c hc).trans_lt hlt
            rw [ha] at hc'
            simpa using hc'.ne
          rw [List.filter_cons_of_pos (by simpa using ha), hnone]
          simp [ha]
        · rw [List.filter_cons_of_neg (by simpa using ha)]
          simp [ha]
      · by_cases hk : priority b = k
        · simp [hk, ih hrest]
        · simp [hk, ih hrest]

/-! ## All insertions -/

theorem perm_insertAll (l arrivals : List α) :
    (insertAll priority l arrivals).Perm (l ++ arrivals) := by
  induction arrivals generalizing l with
  | nil => rw [List.append_nil]; exact List.Perm.refl _
  | cons a rest ih =>
      have hinsert : (insertByPriority priority a l ++ rest).Perm (a :: l ++ rest) :=
        (perm_insertByPriority a l).append_right rest
      exact ((ih (insertByPriority priority a l)).trans hinsert).trans List.perm_middle.symm

theorem Descending.insertAll {l : List α} (h : Descending priority l) (arrivals : List α) :
    Descending priority (insertAll priority l arrivals) := by
  induction arrivals generalizing l with
  | nil => exact h
  | cons a rest ih => exact ih (h.insertByPriority a)

theorem filter_insertAll {l : List α} (h : Descending priority l) (arrivals : List α) (k : κ) :
    (insertAll priority l arrivals).filter (fun b => priority b = k) =
      (l ++ arrivals).filter (fun b => priority b = k) := by
  induction arrivals generalizing l with
  | nil => rw [List.append_nil]; rfl
  | cons a rest ih =>
      have hstep := ih (h.insertByPriority a)
      rw [List.filter_append, filter_insertByPriority h, List.append_assoc,
        ← List.filter_append] at hstep
      rw [List.filter_append]
      exact hstep

/-! ## The first match -/

/-- A match of which no other one has a higher priority, and no earlier one the same. -/
def IsFirstHighest (priority : α → κ) (isMatch : α → Bool) (arrivals : List α) (a : α) : Prop :=
  ∃ before after, arrivals = before ++ a :: after ∧ isMatch a = true ∧
    (∀ b ∈ before, isMatch b = true → priority b < priority a) ∧
    ∀ b ∈ after, isMatch b = true → priority b ≤ priority a

/-- The first match in the list is the first of the highest ones to come. -/
theorem isFirstHighest_of_find? {isMatch : α → Bool} {arrivals : List α} {a : α}
    (h : (insertAll priority [] arrivals).find? isMatch = some a) :
    IsFirstHighest priority isMatch arrivals a := by
  obtain ⟨hmatch, pre, post, hlist, hpre⟩ := List.find?_eq_some_iff_append.mp h
  have hnil : Descending priority ([] : List α) := List.Pairwise.nil
  -- Every match is the one found or behind it.
  have hle : ∀ b ∈ arrivals, isMatch b = true → priority b ≤ priority a := by
    intro b hb hbmatch
    have hmem : b ∈ pre ++ a :: post := by
      rw [← hlist, (perm_insertAll [] arrivals).mem_iff, List.nil_append]
      exact hb
    have hdesc := hnil.insertAll arrivals
    rw [hlist] at hdesc
    rcases List.mem_append.mp hmem with hb | hb
    · have hnot := hpre b hb
      rw [hbmatch] at hnot
      cases hnot
    · rcases List.mem_cons.mp hb with rfl | hb
      · exact le_refl _
      · exact (List.pairwise_cons.mp (List.pairwise_append.mp hdesc).2.1).1 b hb
  -- Of its priority the one found is the first match to come.
  have hfilter : arrivals.filter (fun b => isMatch b && priority b = priority a) =
      a :: post.filter (fun b => isMatch b && priority b = priority a) := by
    have hsame := congrArg (List.filter isMatch) (filter_insertAll hnil arrivals (priority a))
    rw [List.filter_filter, List.filter_filter, List.nil_append, hlist, List.filter_append] at hsame
    have hnone : pre.filter (fun b => isMatch b && decide (priority b = priority a)) = [] := by
      refine List.filter_eq_nil_iff.mpr fun b hb => ?_
      have hnot := hpre b hb
      simp only [Bool.not_eq_true'] at hnot
      simp [hnot]
    rw [hnone, List.nil_append, List.filter_cons_of_pos (by simp [hmatch])] at hsame
    exact hsame.symm
  obtain ⟨before, after, harrivals, hbefore, -, -⟩ := List.filter_eq_cons_iff.mp hfilter
  refine ⟨before, after, harrivals, hmatch, ?_, ?_⟩
  · intro b hb hbmatch
    have hbmem : b ∈ arrivals := harrivals ▸ List.mem_append_left _ hb
    have hne : priority b ≠ priority a := by
      intro heq
      exact hbefore b hb (by simp [hbmatch, heq])
    exact lt_of_le_of_ne (hle b hbmem hbmatch) hne
  · intro b hb hbmatch
    have hbmem : b ∈ arrivals := harrivals ▸ List.mem_append_right _ (List.mem_cons_of_mem a hb)
    exact hle b hbmem hbmatch

/-- Nothing in the list matches if nothing that came does. -/
theorem forall_of_find?_eq_none {isMatch : α → Bool} {arrivals : List α}
    (h : (insertAll priority [] arrivals).find? isMatch = none) :
    ∀ b ∈ arrivals, isMatch b = false := by
  intro b hb
  have hmem : b ∈ insertAll priority [] arrivals := by
    rw [(perm_insertAll [] arrivals).mem_iff, List.nil_append]
    exact hb
  simpa using List.find?_eq_none.mp h b hmem

end DdTrace.Lib.StableInsertion
