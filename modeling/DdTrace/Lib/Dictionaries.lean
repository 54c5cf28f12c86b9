import Mathlib.Data.List.AList
import Mathlib.Data.List.Induction
import Mathlib.Tactic.Common

/-!
# Dictionaries

A dictionary is an association list with each key once. What a runtime's dictionaries add to the
operations of `AList`:

* `Dictionary.add`, `Dictionary.addAll`: adding fails for a key that is there.
* `Dictionary.setAll`: setting never fails, and what is set last stays.
* `addAll_isSome_iff`, `lookup_addAll`, `lookup_setAll`: when they succeed, and what is found then.
* `Enumeration`: the entries in an order that is not known; `IsLast`: the entries that stay if all of
  them are set.
-/

namespace DdTrace.Lib

/-- A dictionary. -/
abbrev Dictionary (κ ν : Type*) := AList fun _ : κ => ν

namespace Dictionary

variable {κ ν : Type*}

/-- The entries, as an enumeration gives them. -/
def pairs (d : Dictionary κ ν) : List (κ × ν) := d.entries.map fun e => (e.1, e.2)

theorem map_fst_pairs (d : Dictionary κ ν) : d.pairs.map Prod.fst = d.keys := by
  rw [pairs, List.map_map]
  rfl

theorem nodup_map_fst_pairs (d : Dictionary κ ν) : (d.pairs.map Prod.fst).Nodup := by
  rw [map_fst_pairs]
  exact d.keys_nodup

variable [DecidableEq κ]

/-- `Add`: the key is not there yet. -/
def add (d : Dictionary κ ν) (k : κ) (v : ν) : Option (Dictionary κ ν) :=
  if k ∈ d then none else some (d.insert k v)

/-- `Add`, of one entry after another. -/
def addAll (d : Dictionary κ ν) : List (κ × ν) → Option (Dictionary κ ν)
  | [] => some d
  | (k, v) :: entries => (d.add k v).bind fun d => addAll d entries

/-- The setter of the indexer, for one entry after another. -/
def setAll (d : Dictionary κ ν) (entries : List (κ × ν)) : Dictionary κ ν :=
  entries.foldl (fun d e => d.insert e.1 e.2) d

theorem mem_pairs_iff {d : Dictionary κ ν} {k : κ} {v : ν} :
    (k, v) ∈ d.pairs ↔ d.lookup k = some v := by
  rw [pairs, List.mem_map, ← Option.mem_def, AList.mem_lookup_iff]
  constructor
  · rintro ⟨⟨k', v'⟩, he, heq⟩
    obtain ⟨rfl, rfl⟩ := Prod.mk.inj heq
    exact he
  · intro he
    exact ⟨_, he, rfl⟩

/-! ## Adding -/

theorem add_of_notMem {d : Dictionary κ ν} {k : κ} (h : k ∉ d) (v : ν) :
    d.add k v = some (d.insert k v) := if_neg h

theorem add_of_mem {d : Dictionary κ ν} {k : κ} (h : k ∈ d) (v : ν) : d.add k v = none :=
  if_pos h

/-- Adding succeeds exactly if no key comes twice. -/
theorem addAll_isSome_iff {d : Dictionary κ ν} {entries : List (κ × ν)} :
    (d.addAll entries).isSome ↔
      (entries.map Prod.fst).Nodup ∧ ∀ k ∈ entries.map Prod.fst, k ∉ d := by
  induction entries generalizing d with
  | nil => exact iff_of_true rfl ⟨List.nodup_nil, fun k h => by cases h⟩
  | cons e entries ih =>
      obtain ⟨k, v⟩ := e
      rw [addAll, List.map_cons, List.nodup_cons, List.forall_mem_cons]
      by_cases hmem : k ∈ d
      · rw [add_of_mem hmem]
        exact iff_of_false Bool.false_ne_true fun h => h.2.1 hmem
      · rw [add_of_notMem hmem, Option.bind_some, ih]
        constructor
        · rintro ⟨hnodup, hnew⟩
          refine ⟨⟨fun hk => hnew k hk ((AList.mem_insert d).mpr (Or.inl rfl)), hnodup⟩, hmem, ?_⟩
          intro k' hk' hd
          exact hnew k' hk' ((AList.mem_insert d).mpr (Or.inr hd))
        · rintro ⟨⟨hk, hnodup⟩, -, hnew⟩
          refine ⟨hnodup, fun k' hk' hd => ?_⟩
          rcases (AList.mem_insert d).mp hd with rfl | hd
          · exact hk hk'
          · exact hnew k' hk' hd

/-- What was added is found, and what was there before. -/
theorem lookup_addAll {d added : Dictionary κ ν} {entries : List (κ × ν)}
    (h : d.addAll entries = some added) (k : κ) :
    added.lookup k = (d.lookup k).or (entries.lookup k) := by
  induction entries generalizing d with
  | nil =>
      obtain rfl := Option.some.inj h
      exact Option.or_none.symm
  | cons e entries ih =>
      obtain ⟨key, v⟩ := e
      rw [addAll] at h
      by_cases hmem : key ∈ d
      · rw [add_of_mem hmem] at h
        cases h
      · rw [add_of_notMem hmem, Option.bind_some] at h
        rw [ih h, List.lookup_cons]
        by_cases hk : k = key
        · subst hk
          rw [AList.lookup_insert, AList.lookup_eq_none.mpr hmem, beq_self_eq_true]
          rfl
        · rw [AList.lookup_insert_ne hk, beq_false_of_ne hk]

/-- What is added to nothing. -/
theorem lookup_addAll_empty {added : Dictionary κ ν} {entries : List (κ × ν)}
    (h : addAll ∅ entries = some added) (k : κ) : added.lookup k = entries.lookup k := by
  rw [lookup_addAll h, AList.lookup_empty, Option.none_or]

/-- An order in which the entries are enumerated. -/
structure Enumeration (κ ν : Type*) where
  entries : Dictionary κ ν → List (κ × ν)
  perm : ∀ d, (entries d).Perm d.pairs

omit [DecidableEq κ] in
theorem Enumeration.nodup (order : Enumeration κ ν) (d : Dictionary κ ν) :
    ((order.entries d).map Prod.fst).Nodup :=
  ((order.perm d).map Prod.fst).nodup_iff.mpr d.nodup_map_fst_pairs

/-- The order in which the entries were put in. -/
def Enumeration.inOrder : Enumeration κ ν where
  entries := pairs
  perm := fun _ => List.Perm.refl _

/-! ## Setting -/

/-- The entry is the last one with its key. -/
def IsLast (entries : List (κ × ν)) (k : κ) (v : ν) : Prop :=
  ∃ before after, entries = before ++ (k, v) :: after ∧ k ∉ after.map Prod.fst

theorem setAll_concat (d : Dictionary κ ν) (entries : List (κ × ν)) (k : κ) (v : ν) :
    d.setAll (entries ++ [(k, v)]) = (d.setAll entries).insert k v := by
  rw [setAll, List.foldl_append]
  rfl

/-- What was set last is found. -/
theorem lookup_setAll (d : Dictionary κ ν) (entries : List (κ × ν)) (k : κ) :
    (d.setAll entries).lookup k = (entries.reverse.lookup k).or (d.lookup k) := by
  induction entries using List.reverseRecOn with
  | nil => rfl
  | append_singleton entries e ih =>
      obtain ⟨key, v⟩ := e
      rw [setAll_concat, List.reverse_concat, List.lookup_cons]
      by_cases hk : k = key
      · subst hk
        rw [AList.lookup_insert, beq_self_eq_true]
        rfl
      · rw [AList.lookup_insert_ne hk, ih, beq_false_of_ne hk]

theorem lookup_reverse_eq_some_iff {entries : List (κ × ν)} {k : κ} {v : ν} :
    entries.reverse.lookup k = some v ↔ IsLast entries k v := by
  rw [List.lookup_eq_some_iff]
  constructor
  · rintro ⟨after, before, heq, hnot⟩
    refine ⟨before.reverse, after.reverse, ?_, ?_⟩
    · rw [← List.reverse_inj, heq]
      simp
    · rw [List.mem_map]
      rintro ⟨e, he, rfl⟩
      exact bne_iff_ne.mp (hnot e (List.mem_reverse.mp he)) rfl
  · rintro ⟨before, after, rfl, hnot⟩
    refine ⟨after.reverse, before.reverse, by simp, fun e he => ?_⟩
    rw [bne_iff_ne]
    rintro rfl
    exact hnot (List.mem_map_of_mem (List.mem_reverse.mp he))

/-- **Setting all entries** keeps the last one of each key. -/
theorem mem_pairs_setAll_iff {entries : List (κ × ν)} {k : κ} {v : ν} :
    (k, v) ∈ (setAll ∅ entries).pairs ↔ IsLast entries k v := by
  rw [mem_pairs_iff, lookup_setAll, AList.lookup_empty, Option.or_none,
    lookup_reverse_eq_some_iff]

end Dictionary

/-! ## Association lists -/

section Lookup

variable {κ ν : Type*} [BEq κ] [LawfulBEq κ] {entries : List (κ × ν)} {k : κ} {v : ν}

/-- What is found in a list is one of its entries. -/
theorem mem_of_lookup_eq_some (h : entries.lookup k = some v) : (k, v) ∈ entries := by
  induction entries with
  | nil => cases h
  | cons e entries ih =>
      obtain ⟨key, w⟩ := e
      rw [List.lookup_cons] at h
      by_cases hk : k = key
      · subst hk
        rw [beq_self_eq_true] at h
        obtain rfl := Option.some.inj h
        exact List.mem_cons_self
      · rw [beq_false_of_ne hk] at h
        exact List.mem_cons_of_mem _ (ih h)

theorem lookup_eq_none_iff_notMem : entries.lookup k = none ↔ k ∉ entries.map Prod.fst := by
  rw [List.lookup_eq_none_iff, List.mem_map]
  constructor
  · rintro h ⟨⟨k', v⟩, he, rfl⟩
    exact bne_iff_ne.mp (h _ he) rfl
  · intro h e he
    rw [bne_iff_ne]
    rintro rfl
    exact h ⟨e, he, rfl⟩

/-- If no key comes twice, each entry is found. -/
theorem lookup_eq_some_iff_mem (hnodup : (entries.map Prod.fst).Nodup) :
    entries.lookup k = some v ↔ (k, v) ∈ entries := by
  refine ⟨mem_of_lookup_eq_some, fun h => ?_⟩
  cases hfound : entries.lookup k with
  | none => exact absurd (List.mem_map_of_mem h) (lookup_eq_none_iff_notMem.mp hfound)
  | some w =>
      have hmem := mem_of_lookup_eq_some hfound
      have heq := List.inj_on_of_nodup_map hnodup hmem h rfl
      rw [(Prod.mk.inj heq).2]

end Lookup

/-! ## Other keys -/

section FilterMap

variable {κ ν κ' ν' : Type*} {entries : List (κ × ν)}
  {kept : κ × ν → Option (κ' × ν')}

/-- No two entries that are kept have one key, if those of different keys are given different ones. -/
theorem nodup_filterMap_iff (hnodup : (entries.map Prod.fst).Nodup) :
    ((entries.filterMap kept).map Prod.fst).Nodup ↔
      ∀ a ∈ entries, ∀ b ∈ entries, ∀ k va vb, kept a = some (k, va) → kept b = some (k, vb) →
        a.1 = b.1 := by
  rw [List.Nodup, List.pairwise_map, List.pairwise_filterMap]
  constructor
  · intro h a ha b hb k va vb hkeptA hkeptB
    by_contra hne
    have hsymm : Std.Symm fun a b : κ × ν => ∀ e, kept a = some e →
        ∀ e', kept b = some e' → e.1 ≠ e'.1 :=
      ⟨fun a b hab e he e' he' heq => hab e' he' e he heq.symm⟩
    exact h.forall ha hb (fun heq => hne (congrArg Prod.fst heq)) _ hkeptA _ hkeptB rfl
  · intro h
    refine (List.pairwise_map.mp hnodup).imp_of_mem fun {a b} ha hb hne e he e' he' heq => hne ?_
    obtain ⟨k, va⟩ := e
    obtain ⟨k', vb⟩ := e'
    obtain rfl : k = k' := heq
    exact h a ha b hb k va vb he he'

variable [DecidableEq κ']

theorem addAll_filterMap_isSome_iff (hnodup : (entries.map Prod.fst).Nodup) :
    (Dictionary.addAll ∅ (entries.filterMap kept)).isSome ↔
      ∀ a ∈ entries, ∀ b ∈ entries, ∀ k va vb, kept a = some (k, va) → kept b = some (k, vb) →
        a.1 = b.1 := by
  rw [Dictionary.addAll_isSome_iff, nodup_filterMap_iff hnodup, and_iff_left_iff_imp]
  exact fun _ k _ => AList.notMem_empty k

/-- What is found under another key. -/
theorem lookup_addAll_filterMap {added : Dictionary κ' ν'}
    (h : Dictionary.addAll ∅ (entries.filterMap kept) = some added) {k : κ'} {v : ν'} :
    added.lookup k = some v ↔ ∃ e ∈ entries, kept e = some (k, v) := by
  have hnodup := (Dictionary.addAll_isSome_iff.mp (Option.isSome_iff_exists.mpr ⟨added, h⟩)).1
  rw [Dictionary.lookup_addAll_empty h, lookup_eq_some_iff_mem hnodup, List.mem_filterMap]

end FilterMap

end DdTrace.Lib
