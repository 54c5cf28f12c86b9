import Mathlib.Data.List.Perm.Basic

/-!
# Searches that stop at one kind of entry and collect another

* `search`: the first entry to stop at, or else the only entry that is kept.
* `search_eq_filter`: without an entry to stop at, the kept entries decide.
* `orderFree_iff`: the lists that are searched with one outcome in every order.
* `decided_iff`: the lists of which, besides, nothing but what was found could have been found.
-/

namespace DdTrace.Lib.Searches

/-- What a search makes of an entry. -/
inductive Verdict
  | skip
  | stop
  | keep
  deriving DecidableEq, Repr

/-- How a search ends. -/
inductive Outcome (α : Type)
  | nothing
  | found (a : α)
  | ambiguous (first second : α)
  deriving DecidableEq, Repr

variable {α : Type} (judge : α → Verdict)

/-- The search, with the entry that was kept so far. -/
def searchFrom : Option α → List α → Outcome α
  | none, [] => .nothing
  | some a, [] => .found a
  | kept, b :: rest =>
      match judge b with
      | .skip => searchFrom kept rest
      | .stop => .found b
      | .keep =>
          match kept with
          | none => searchFrom (some b) rest
          | some a => .ambiguous a b

/-- The search of a list. -/
def search (l : List α) : Outcome α := searchFrom judge none l

/-- What was found, if there was no ambiguity. -/
def Outcome.answer : Outcome α → Option (Option α)
  | .nothing => some none
  | .found a => some (some a)
  | .ambiguous _ _ => none

/-- The answer to the entries that are kept. -/
def answerOf : List α → Option (Option α)
  | [] => some none
  | [a] => some (some a)
  | _ :: _ :: _ => none

/-- The entries that are kept. -/
def kept (l : List α) : List α := l.filter fun a => judge a = .keep

/-- The answer is the same in every order. -/
def OrderFree (l : List α) : Prop :=
  ∀ l' : List α, l'.Perm l → (search judge l').answer = (search judge l).answer

/-- Nothing but what is found could be found. -/
def Alone (l : List α) : Prop :=
  ∀ a, search judge l = .found a → ∀ b ∈ l, b ≠ a → judge b = .skip

/-- The entries of a verdict are no more than one. -/
def AtMostOne (verdict : Verdict) (l : List α) : Prop :=
  ∀ a ∈ l, ∀ b ∈ l, judge a = verdict → judge b = verdict → a = b

variable {judge}

/-! ## The entries that decide -/

/-- Equal entries have equal answers. -/
theorem answerOf_perm {l l' : List α} (h : l'.Perm l) : answerOf l' = answerOf l := by
  match l, l', h with
  | [], l', h => rw [List.Perm.eq_nil h]
  | [a], l', h => rw [List.perm_singleton.mp h]
  | a :: b :: rest, l', h =>
      have hlength : l'.length = rest.length + 2 := by simpa using h.length_eq
      match l', hlength with
      | _ :: _ :: _, _ => rfl

/-- A search that already keeps an entry. -/
theorem searchFrom_some {l : List α} (h : ∀ b ∈ l, judge b ≠ .stop) (a : α) :
    (searchFrom judge (some a) l).answer = answerOf (a :: kept judge l) := by
  induction l with
  | nil => rfl
  | cons b rest ih =>
      have hrest : ∀ c ∈ rest, judge c ≠ .stop := fun c hc => h c (List.mem_cons_of_mem b hc)
      cases hb : judge b with
      | skip => simpa [searchFrom, kept, hb] using ih hrest
      | stop => exact absurd hb (h b List.mem_cons_self)
      | keep => simp [searchFrom, kept, hb, answerOf, Outcome.answer]

/-- Without an entry to stop at, the kept entries decide. -/
theorem search_eq_filter {l : List α} (h : ∀ b ∈ l, judge b ≠ .stop) :
    (search judge l).answer = answerOf (kept judge l) := by
  unfold search
  induction l with
  | nil => rfl
  | cons b rest ih =>
      have hrest : ∀ c ∈ rest, judge c ≠ .stop := fun c hc => h c (List.mem_cons_of_mem b hc)
      cases hb : judge b with
      | skip => simpa [searchFrom, kept, hb] using ih hrest
      | stop => exact absurd hb (h b List.mem_cons_self)
      | keep =>
          have hsome := searchFrom_some hrest b
          simpa [searchFrom, kept, hb] using hsome

/-- The entry to stop at is found where it comes first. -/
theorem search_stop {a : α} (h : judge a = .stop) (rest : List α) :
    search judge (a :: rest) = .found a := by
  simp [search, searchFrom, h]

/-- It is found behind a kept entry, and behind none. -/
theorem searchFrom_stop {l : List α} {a : α} (ha : a ∈ l) (hstop : judge a = .stop)
    (hskip : ∀ b ∈ l, b ≠ a → judge b = .skip) (o : Option α) :
    searchFrom judge o l = .found a := by
  induction l with
  | nil => cases ha
  | cons b rest ih =>
      by_cases hb : b = a
      · subst hb
        cases o <;> simp [searchFrom, hstop]
      · have hrest : a ∈ rest := (List.mem_cons.mp ha).resolve_left (Ne.symm hb)
        have hjudge : judge b = .skip := hskip b List.mem_cons_self hb
        have hfound := ih hrest fun c hc => hskip c (List.mem_cons_of_mem b hc)
        cases o <;> simpa [searchFrom, hjudge] using hfound

/-- So it is where one entry at most is kept. -/
theorem search_of_atMostOne {l : List α} {a : α} (hl : l.Nodup) (ha : a ∈ l)
    (hstop : judge a = .stop) (hstops : AtMostOne judge .stop l)
    (hkeeps : AtMostOne judge .keep l) : search judge l = .found a := by
  unfold search
  induction l with
  | nil => cases ha
  | cons b rest ih =>
      obtain ⟨hb, hrest⟩ := List.nodup_cons.mp hl
      by_cases hba : b = a
      · subst hba
        simp [searchFrom, hstop]
      · have hmem : a ∈ rest := (List.mem_cons.mp ha).resolve_left (Ne.symm hba)
        cases hjudge : judge b with
        | skip =>
            have hfound := ih hrest hmem
              (fun c hc d hd => hstops c (List.mem_cons_of_mem b hc) d (List.mem_cons_of_mem b hd))
              (fun c hc d hd => hkeeps c (List.mem_cons_of_mem b hc) d (List.mem_cons_of_mem b hd))
            simpa [searchFrom, hjudge] using hfound
        | stop => exact absurd (hstops b List.mem_cons_self a ha hjudge hstop) hba
        | keep =>
            -- What follows the kept entry is skipped, up to the one to stop at.
            have hskip : ∀ c ∈ rest, c ≠ a → judge c = .skip := by
              intro c hc hca
              have hc' : c ∈ b :: rest := List.mem_cons_of_mem b hc
              cases hverdict : judge c with
              | skip => rfl
              | stop => exact absurd (hstops c hc' a ha hverdict hstop) hca
              | keep =>
                  have hcb : b = c := hkeeps b List.mem_cons_self c hc' hjudge hverdict
                  exact absurd (hcb ▸ hc) hb
            have hfound := searchFrom_stop hmem hstop hskip (some b)
            simpa [searchFrom, hjudge] using hfound

/-! ## Orders -/

/-- An order in which an entry comes first. -/
theorem exists_perm_cons {l : List α} {a : α} (ha : a ∈ l) : ∃ rest, (a :: rest).Perm l := by
  obtain ⟨before, after, rfl⟩ := List.append_of_mem ha
  exact ⟨before ++ after, List.perm_middle.symm⟩

/-- An order in which two entries come first. -/
theorem exists_perm_cons_cons {l : List α} {a b : α} (ha : a ∈ l) (hb : b ∈ l) (h : b ≠ a) :
    ∃ rest, (a :: b :: rest).Perm l := by
  obtain ⟨rest, hrest⟩ := exists_perm_cons ha
  have hb' : b ∈ rest := (List.mem_cons.mp (hrest.mem_iff.mpr hb)).resolve_left h
  obtain ⟨rest', hrest'⟩ := exists_perm_cons hb'
  exact ⟨rest', (hrest'.cons a).trans hrest⟩

/-- Without an entry to stop at there is one answer. -/
theorem orderFree_of_no_stop {l : List α} (h : ∀ a ∈ l, judge a ≠ .stop) : OrderFree judge l := by
  intro l' hl'
  have h' : ∀ a ∈ l', judge a ≠ .stop := fun a ha => h a (hl'.mem_iff.mp ha)
  rw [search_eq_filter h, search_eq_filter h']
  exact answerOf_perm (hl'.filter _)

/-- The lists that are searched with one answer in every order. -/
theorem orderFree_iff {l : List α} (hl : l.Nodup) :
    OrderFree judge l ↔
      ∀ a ∈ l, judge a = .stop → AtMostOne judge .stop l ∧ AtMostOne judge .keep l := by
  constructor
  · intro h a ha hstop
    obtain ⟨rest, hrest⟩ := exists_perm_cons ha
    have hfound : (search judge l).answer = some (some a) := by
      rw [← h _ hrest, search_stop hstop, Outcome.answer]
    constructor
    · have hall : ∀ b ∈ l, judge b = .stop → b = a := by
        intro b hb hstopb
        obtain ⟨rest', hrest'⟩ := exists_perm_cons hb
        have hanswer := h _ hrest'
        rw [search_stop hstopb, hfound] at hanswer
        simpa [Outcome.answer] using hanswer
      intro b hb c hc hstopb hstopc
      rw [hall b hb hstopb, hall c hc hstopc]
    · intro b hb c hc hkeepb hkeepc
      by_contra hne
      obtain ⟨rest', hrest'⟩ := exists_perm_cons_cons hb hc (Ne.symm hne)
      have hanswer := h _ hrest'
      rw [hfound] at hanswer
      simp [search, searchFrom, hkeepb, hkeepc, Outcome.answer] at hanswer
  · intro h
    by_cases hstop : ∃ a ∈ l, judge a = .stop
    · obtain ⟨a, ha, hstopa⟩ := hstop
      obtain ⟨hstops, hkeeps⟩ := h a ha hstopa
      intro l' hl'
      have hmem : ∀ b, b ∈ l' ↔ b ∈ l := fun b => hl'.mem_iff
      have hfound' : search judge l' = .found a :=
        search_of_atMostOne (hl'.nodup_iff.mpr hl) ((hmem a).mpr ha) hstopa
          (fun b hb c hc => hstops b ((hmem b).mp hb) c ((hmem c).mp hc))
          (fun b hb c hc => hkeeps b ((hmem b).mp hb) c ((hmem c).mp hc))
      rw [hfound', search_of_atMostOne hl ha hstopa hstops hkeeps]
    · exact orderFree_of_no_stop fun a ha hstopa => hstop ⟨a, ha, hstopa⟩

/-- The lists of which, besides, nothing but what was found could have been found. -/
theorem decided_iff {l : List α} (hl : l.Nodup) :
    OrderFree judge l ∧ Alone judge l ↔
      ∀ a ∈ l, judge a = .stop → ∀ b ∈ l, b ≠ a → judge b = .skip := by
  constructor
  · rintro ⟨horder, halone⟩ a ha hstop
    obtain ⟨hstops, hkeeps⟩ := (orderFree_iff hl).mp horder a ha hstop
    exact halone a (search_of_atMostOne hl ha hstop hstops hkeeps)
  · intro h
    constructor
    · refine (orderFree_iff hl).mpr fun a ha hstop => ⟨?_, ?_⟩
      · intro b hb c hc hstopb hstopc
        by_contra hne
        have hskip := h b hb hstopb c hc (Ne.symm hne)
        rw [hstopc] at hskip
        cases hskip
      · intro b hb c hc hkeepb
        have hba : b ≠ a := by
          rintro rfl
          rw [hstop] at hkeepb
          cases hkeepb
        have hskip := h a ha hstop b hb hba
        rw [hkeepb] at hskip
        cases hskip
    · intro a hfound b hb hne
      by_cases hstop : ∃ c ∈ l, judge c = .stop
      · obtain ⟨c, hc, hstopc⟩ := hstop
        have hfoundc := searchFrom_stop hc hstopc (h c hc hstopc) none
        have hac : a = c := Outcome.found.inj (hfound.symm.trans hfoundc)
        exact h a (hac ▸ hc) (hac ▸ hstopc) b hb hne
      · have hnone : ∀ c ∈ l, judge c ≠ .stop := fun c hc hstopc => hstop ⟨c, hc, hstopc⟩
        -- The kept entries are the one that was found.
        have hanswer : answerOf (kept judge l) = some (some a) := by
          rw [← search_eq_filter hnone, hfound, Outcome.answer]
        cases hverdict : judge b with
        | skip => rfl
        | stop => exact absurd hverdict (hnone b hb)
        | keep =>
            have hmem : b ∈ kept judge l := List.mem_filter.mpr ⟨hb, by simp [hverdict]⟩
            match hkept : kept judge l with
            | [] => simp [hkept] at hmem
            | [c] =>
                have hbc : b = c := by simpa [hkept] using hmem
                have hca : c = a := by simpa [hkept, answerOf] using hanswer
                exact absurd (hbc.trans hca) hne
            | c :: d :: rest => simp [hkept, answerOf] at hanswer

end DdTrace.Lib.Searches
