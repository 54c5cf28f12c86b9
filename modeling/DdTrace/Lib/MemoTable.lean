import Mathlib.Data.List.Basic
import Mathlib.Tactic.Common

/-!
# Tables of computed values

A table that remembers the values of a computation that may fail. A request is turned into a key,
which may fail too; a value stored under a key that is the same is handed out, and what is computed
is stored, unless it failed.

* `getOrAdd`, `serve`: one request.
* `results`: a sequence of requests.
* `forall₂_results`: what holds of each request of a sequence and its result, from what holds of a
  computation and of a stored value that is handed out.
* `serveOwn`, `tableAfter`: requests that bring their own computation, under keys that others may
  use for theirs; `lookup_tableAfter` says which request made an entry.
-/

namespace DdTrace.Lib.MemoTable

variable {ρ κ β ε : Type}

/-- The value under a key, computed and stored if there is none. -/
def getOrAdd (same : κ → κ → Bool) (compute : κ → Except ε β) (table : List (κ × β)) (key : κ) :
    Except ε β × List (κ × β) :=
  match table.find? fun entry => same entry.1 key with
  | some entry => (.ok entry.2, table)
  | none =>
      match compute key with
      | .ok value => (.ok value, table ++ [(key, value)])
      | .error e => (.error e, table)

section Requests

variable (key : ρ → Except ε κ) (same : κ → κ → Bool) (compute : κ → Except ε β)

/-- One request. -/
def serve (table : List (κ × β)) (request : ρ) : Except ε β × List (κ × β) :=
  match key request with
  | .ok k => getOrAdd same compute table k
  | .error e => (.error e, table)

/-- The results of a sequence of requests. -/
def results : List (κ × β) → List ρ → List (Except ε β)
  | _, [] => []
  | table, request :: requests =>
      (serve key same compute table request).1 ::
        results (serve key same compute table request).2 requests

variable {key same compute} {P : ρ → Except ε β → Prop} {Stored : κ × β → Prop}

/-- One request: what it returns, and what is stored afterwards. -/
theorem serve_spec {table : List (κ × β)} {request : ρ}
    (hfail : ∀ e, key request = .error e → P request (.error e))
    (hcompute : ∀ k, key request = .ok k → P request (compute k))
    (hstore : ∀ k value, key request = .ok k → compute k = .ok value → Stored (k, value))
    (hhit : ∀ k entry, key request = .ok k → Stored entry → same entry.1 k = true →
      P request (.ok entry.2))
    (htable : ∀ entry ∈ table, Stored entry) :
    P request (serve key same compute table request).1 ∧
      ∀ entry ∈ (serve key same compute table request).2, Stored entry := by
  unfold serve
  cases hkey : key request with
  | error e => exact ⟨hfail e hkey, htable⟩
  | ok k =>
      change P request (getOrAdd same compute table k).1 ∧
        ∀ entry ∈ (getOrAdd same compute table k).2, Stored entry
      unfold getOrAdd
      cases hfind : table.find? fun entry => same entry.1 k with
      | some entry =>
          have hsame : same entry.1 k = true := by simpa using List.find?_some hfind
          exact ⟨hhit k entry hkey (htable entry (List.mem_of_find?_eq_some hfind)) hsame, htable⟩
      | none =>
          have hown := hcompute k hkey
          cases hvalue : compute k with
          | error e =>
              rw [hvalue] at hown
              exact ⟨hown, htable⟩
          | ok value =>
              rw [hvalue] at hown
              refine ⟨hown, fun entry hentry => ?_⟩
              rcases List.mem_append.mp hentry with hold | hnew
              · exact htable entry hold
              · rw [List.mem_singleton.mp hnew]
                exact hstore k value hkey hvalue

/-- **A sequence of requests.** -/
theorem forall₂_results {requests : List ρ} {table : List (κ × β)}
    (hfail : ∀ r ∈ requests, ∀ e, key r = .error e → P r (.error e))
    (hcompute : ∀ r ∈ requests, ∀ k, key r = .ok k → P r (compute k))
    (hstore : ∀ r ∈ requests, ∀ k value, key r = .ok k → compute k = .ok value → Stored (k, value))
    (hhit : ∀ r ∈ requests, ∀ k entry, key r = .ok k → Stored entry → same entry.1 k = true →
      P r (.ok entry.2))
    (htable : ∀ entry ∈ table, Stored entry) :
    List.Forall₂ P requests (results key same compute table requests) := by
  induction requests generalizing table with
  | nil => exact List.Forall₂.nil
  | cons request requests ih =>
      rw [List.forall_mem_cons] at hfail hcompute hstore hhit
      have hone := serve_spec hfail.1 hcompute.1 hstore.1 hhit.1 htable
      refine List.Forall₂.cons hone.1 ?_
      exact ih hfail.2 hcompute.2 hstore.2 hhit.2 hone.2

end Requests

/-! ## Requests that bring their own computation -/

section Own

variable [DecidableEq κ] (key : ρ → Except ε κ) (compute : ρ → Except ε β)

/-- The value under a key. -/
def lookup (table : List (κ × β)) (k : κ) : Option β :=
  (table.find? fun entry => entry.1 == k).map Prod.snd

/-- One request. -/
def serveOwn (table : List (κ × β)) (request : ρ) : Except ε β × List (κ × β) :=
  match key request with
  | .ok k => getOrAdd (· == ·) (fun _ => compute request) table k
  | .error e => (.error e, table)

/-- The table after a sequence of requests. -/
def tableAfter (table : List (κ × β)) (requests : List ρ) : List (κ × β) :=
  requests.foldl (fun table request => (serveOwn key compute table request).2) table

/-- What a request stores under a key if there is nothing yet. -/
def made (k : κ) (request : ρ) : Option β :=
  match key request with
  | .ok k' => if k' = k then (compute request).toOption else none
  | .error _ => none

/-- The request that made the entry under a key. -/
def maker (k : κ) (requests : List ρ) : Option ρ :=
  requests.find? fun request => (made key compute k request).isSome

variable {key compute}

/-- What is handed out: what is stored, or what the request computes. -/
theorem serveOwn_fst {table : List (κ × β)} {request : ρ} {k : κ} (hkey : key request = .ok k) :
    (serveOwn key compute table request).1 =
      match lookup table k with
      | some value => .ok value
      | none => compute request := by
  unfold serveOwn lookup
  rw [hkey]
  show (getOrAdd (· == ·) (fun _ => compute request) table k).1 = _
  unfold getOrAdd
  cases table.find? fun entry => entry.1 == k with
  | some entry => rfl
  | none => cases compute request <;> rfl

theorem lookup_append (table : List (κ × β)) (k k' : κ) (value : β) :
    lookup (table ++ [(k', value)]) k =
      (lookup table k).or (if k' = k then some value else none) := by
  unfold lookup
  rw [List.find?_append]
  cases table.find? fun entry => entry.1 == k with
  | some entry => rfl
  | none =>
      by_cases hsame : k' = k
      · simp [hsame]
      · simp [hsame]

/-- One request adds what it makes. -/
theorem lookup_serveOwn (table : List (κ × β)) (request : ρ) (k : κ) :
    lookup (serveOwn key compute table request).2 k =
      (lookup table k).or (made key compute k request) := by
  unfold serveOwn made
  cases key request with
  | error e =>
      show lookup table k = (lookup table k).or none
      rw [Option.or_none]
  | ok k' =>
      show lookup (getOrAdd (· == ·) (fun _ => compute request) table k').2 k =
        (lookup table k).or (if k' = k then (compute request).toOption else none)
      unfold getOrAdd
      cases hfind : table.find? fun entry => entry.1 == k' with
      | some entry =>
          show lookup table k = _
          by_cases hsame : k' = k
          · subst hsame
            have hlookup : lookup table k' = some entry.2 := by
              rw [lookup, hfind, Option.map_some]
            rw [hlookup, Option.some_or]
          · rw [if_neg hsame, Option.or_none]
      | none =>
          cases compute request with
          | ok value => exact lookup_append table k k' value
          | error e =>
              show lookup table k = (lookup table k).or (if k' = k then none else none)
              rw [ite_self, Option.or_none]

/-- **Who made an entry.** -/
theorem lookup_tableAfter (table : List (κ × β)) (requests : List ρ) (k : κ) :
    lookup (tableAfter key compute table requests) k =
      (lookup table k).or ((maker key compute k requests).bind (made key compute k)) := by
  induction requests generalizing table with
  | nil =>
      show lookup table k = (lookup table k).or none
      rw [Option.or_none]
  | cons request requests ih =>
      show lookup (tableAfter key compute (serveOwn key compute table request).2 requests) k = _
      have hmaker : maker key compute k (request :: requests) =
          if (made key compute k request).isSome then some request
          else maker key compute k requests := by
        unfold maker
        rw [List.find?_cons]
        cases (made key compute k request).isSome <;> rfl
      rw [ih, lookup_serveOwn, Option.or_assoc, hmaker]
      cases hmade : made key compute k request with
      | some value => simp [hmade]
      | none => simp

end Own

end DdTrace.Lib.MemoTable
