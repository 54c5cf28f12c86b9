import Mathlib.Tactic.Common

/-!
# Programs that make calls

A program makes calls, each of which may fail, and what it does next depends on the answers. Nothing
is assumed about these: an answer may depend on all that were given before.

* `Script`: the calls and what follows each answer; `Script.exec` runs one against an environment,
  `Script.Ensures` speaks of all answers, and `Script.Ensures.exec` connects the two.
* `Procedure`: a script with a state, which may stop before its end.
* `Warns`, `Judges`: a step fails only if, or exactly if, an answer to it was not fine.
* `Accounts`: a program makes its state unsound exactly if an answer was not fine, and stops only
  where it has an excuse; `Ruins`: it makes its state unsound.

Each notion has one rule for each way to build a program, so that a program is taken apart along its
text.
-/

namespace DdTrace.Lib

variable {κ ε σ α β : Type} {τ : κ → Type}

/-! ## Scripts -/

/-- The calls of a program, and what follows each answer. -/
inductive Script (κ ε : Type) (τ : κ → Type) (α : Type) where
  /-- There is a result. -/
  | done : α → Script κ ε τ α
  /-- A call is made. -/
  | call : (k : κ) → (Except ε (τ k) → Script κ ε τ α) → Script κ ε τ α

/-- A call with its answer. -/
abbrev Exchange (κ ε : Type) (τ : κ → Type) : Type := Σ k : κ, Except ε (τ k)

namespace Script

/-- One script after another. -/
def bind : Script κ ε τ α → (α → Script κ ε τ β) → Script κ ε τ β
  | done a, f => f a
  | call k next, f => call k fun r => (next r).bind f

/-- The calls that are made, and the result. The answers may depend on the calls before. -/
def exec (answer : List (Exchange κ ε τ) → (k : κ) → Except ε (τ k)) :
    Script κ ε τ α → List (Exchange κ ε τ) → List (Exchange κ ε τ) × α
  | done a, _ => ([], a)
  | call k next, history =>
      let r := answer history k
      let rest := (next r).exec answer (history ++ [⟨k, r⟩])
      (⟨k, r⟩ :: rest.1, rest.2)

/-- Whatever the answers are, they and the result have the property. -/
def Ensures : Script κ ε τ α → (List (Exchange κ ε τ) → α → Prop) → Prop
  | done a, Q => Q [] a
  | call k next, Q => ∀ r, (next r).Ensures fun t a => Q (⟨k, r⟩ :: t) a

variable {x : Script κ ε τ α} {Q Q' : List (Exchange κ ε τ) → α → Prop}

theorem bind_assoc {γ : Type} (x : Script κ ε τ α) (f : α → Script κ ε τ β)
    (g : β → Script κ ε τ γ) : (x.bind f).bind g = x.bind fun a => (f a).bind g := by
  induction x with
  | done a => rfl
  | call k next ih => exact congrArg (call k) (funext ih)

/-- What is ensured holds of every run. -/
theorem Ensures.exec (h : x.Ensures Q)
    (answer : List (Exchange κ ε τ) → (k : κ) → Except ε (τ k)) (history : List (Exchange κ ε τ)) :
    Q (x.exec answer history).1 (x.exec answer history).2 := by
  induction x generalizing Q history with
  | done a => exact h
  | call k next ih => exact ih (answer history k) (h (answer history k)) _

theorem Ensures.mono (h : x.Ensures Q) (himp : ∀ t a, Q t a → Q' t a) : x.Ensures Q' := by
  induction x generalizing Q Q' with
  | done a => exact himp _ _ h
  | call k next ih => exact fun r => ih r (h r) fun t a => himp _ _

/-- The calls of the second script come after those of the first. -/
theorem Ensures.bind {f : α → Script κ ε τ β} {R : List (Exchange κ ε τ) → β → Prop}
    (h : x.Ensures Q) (hf : ∀ t a, Q t a → (f a).Ensures fun t' b => R (t ++ t') b) :
    (x.bind f).Ensures R := by
  induction x generalizing Q R with
  | done a => exact hf _ _ h
  | call k next ih => exact fun r => ih r (h r) fun t a => hf _ _

end Script

/-! ## Programs -/

/-- A script with a state; the result is `none` if the program has stopped before its end. -/
def Procedure (σ κ ε : Type) (τ : κ → Type) (α : Type) : Type :=
  σ → Script κ ε τ (Option α × σ)

namespace Procedure

/-- Go on after a program, unless it has stopped. -/
def bind (x : Procedure σ κ ε τ α) (f : α → Procedure σ κ ε τ β) : Procedure σ κ ε τ β :=
  fun s => (x s).bind fun
    | (some a, s') => f a s'
    | (none, s') => .done (none, s')

instance : Monad (Procedure σ κ ε τ) where
  pure a s := .done (some a, s)
  bind := bind

instance : MonadStateOf σ (Procedure σ κ ε τ) where
  get s := .done (some s, s)
  set s _ := .done (some ⟨⟩, s)
  modifyGet f s := .done (some (f s).1, (f s).2)

/-- Stop. -/
def stop : Procedure σ κ ε τ α := fun s => .done (none, s)

/-- Make a call. -/
def ask (k : κ) : ExceptT ε (Procedure σ κ ε τ) (τ k) :=
  ExceptT.mk fun s => .call k fun r => .done (some r, s)

/-- Whatever the answers are, they, the result and the state after it have the property. -/
def Ensures (x : Procedure σ κ ε τ α) (s : σ)
    (Q : List (Exchange κ ε τ) → Option α → σ → Prop) : Prop :=
  (x s).Ensures fun t r => Q t r.1 r.2

variable {x : Procedure σ κ ε τ α} {f : α → Procedure σ κ ε τ β} {s : σ}
  {P P' : List (Exchange κ ε τ) → Option α → σ → Prop}
  {Q : List (Exchange κ ε τ) → Option β → σ → Prop}

theorem bind_assoc {γ : Type} (x : Procedure σ κ ε τ α) (f : α → Procedure σ κ ε τ β)
    (g : β → Procedure σ κ ε τ γ) : (x >>= f) >>= g = x >>= fun a => f a >>= g := by
  refine funext fun s => (Script.bind_assoc _ _ _).trans (congrArg (Script.bind (x s)) ?_)
  refine funext fun r => ?_
  obtain ⟨o, s'⟩ := r
  cases o with
  | none => rfl
  | some a => rfl

theorem Ensures.mono (h : x.Ensures s P) (himp : ∀ t o s', P t o s' → P' t o s') :
    x.Ensures s P' :=
  Script.Ensures.mono h fun t r => himp t r.1 r.2

/-- A program after another, which may have stopped. -/
theorem Ensures.bind (h : x.Ensures s P)
    (hf : ∀ t a s', P t (some a) s' → (f a).Ensures s' fun t' o s'' => Q (t ++ t') o s'')
    (hstop : ∀ t s', P t none s' → Q t none s') : (x >>= f).Ensures s Q := by
  refine Script.Ensures.bind h fun t r hr => ?_
  obtain ⟨o, s'⟩ := r
  cases o with
  | none =>
      change Q (t ++ []) none s'
      rw [List.append_nil]
      exact hstop t s' hr
  | some a => exact hf t a s' hr

/-! ### Invariants -/

/-- Whatever the answers are, the state keeps a property, also where the program stops. -/
def Preserves (I : σ → Prop) (x : Procedure σ κ ε τ α) : Prop :=
  ∀ s, I s → x.Ensures s fun _ _ s' => I s'

variable {I : σ → Prop}

theorem Preserves.of_done {g : σ → Option α × σ} (hx : ∀ s, x s = .done (g s))
    (h : ∀ s, I s → I (g s).2) : Preserves I x := by
  intro s hs
  rw [Ensures, hx]
  exact h s hs

theorem Preserves.pure (a : α) : Preserves I (Pure.pure a : Procedure σ κ ε τ α) :=
  .of_done (fun _ => rfl) fun _ h => h

theorem Preserves.stop : Preserves I (stop : Procedure σ κ ε τ α) :=
  .of_done (fun _ => rfl) fun _ h => h

theorem Preserves.modify {g : σ → σ} (h : ∀ s, I s → I (g s)) :
    Preserves I (modify g : Procedure σ κ ε τ PUnit) :=
  .of_done (fun _ => rfl) h

theorem Preserves.get : Preserves I (get : Procedure σ κ ε τ σ) :=
  .of_done (fun _ => rfl) fun _ h => h

theorem Preserves.ask (k : κ) : Preserves I (ask k : ExceptT ε (Procedure σ κ ε τ) (τ k)).run :=
  fun _ hs _ => hs

theorem Preserves.bind (h : Preserves I x) (hf : ∀ a, Preserves I (f a)) : Preserves I (x >>= f) :=
  fun s hs => Ensures.bind (h s hs) (fun _ a s' hs' => hf a s' hs') fun _ _ hs' => hs'

/-- A step that may fail, and what follows if it does not. -/
theorem Preserves.andThen {y : ExceptT ε (Procedure σ κ ε τ) α}
    {g : α → ExceptT ε (Procedure σ κ ε τ) β} (h : Preserves I y.run)
    (hg : ∀ a, Preserves I (g a).run) : Preserves I (y >>= g).run := by
  refine Preserves.bind h fun r => ?_
  cases r with
  | ok a => exact hg a
  | error e => exact Preserves.pure _

/-- A program that does not fail, as a step. -/
theorem Preserves.lift (h : Preserves I x) :
    Preserves I (ExceptT.lift x : ExceptT ε (Procedure σ κ ε τ) α).run :=
  Preserves.bind h fun _ => Preserves.pure _

/-! ### Results -/

/-- Whatever the answers are, a result and the state with it have the property, if there is one. -/
def Yields (x : Procedure σ κ ε τ α) (s : σ) (R : α → σ → Prop) : Prop :=
  x.Ensures s fun _ o s' => ∀ a, o = some a → R a s'

variable {R : α → σ → Prop} {S : β → σ → Prop}

theorem Yields.of_done {a : α} {s' : σ} (hx : x s = .done (some a, s')) (h : R a s') :
    x.Yields s R := by
  rw [Yields, Ensures, hx]
  intro b hb
  obtain rfl := Option.some.inj hb
  exact h

theorem Yields.mono {R' : α → σ → Prop} (h : x.Yields s R) (himp : ∀ a s', R a s' → R' a s') :
    x.Yields s R' :=
  Ensures.mono h fun _ _ s' hR a ha => himp a s' (hR a ha)

theorem Yields.bind (h : x.Yields s R) (hf : ∀ a s', R a s' → (f a).Yields s' S) :
    (x >>= f).Yields s S :=
  Ensures.bind h (fun _ a s' hR => hf a s' (hR a rfl)) fun _ _ _ _ hb => by cases hb

/-- A step that may fail, and what follows if it does not. -/
theorem Yields.andThen {y : ExceptT ε (Procedure σ κ ε τ) α}
    {g : α → ExceptT ε (Procedure σ κ ε τ) β} {S : Except ε β → σ → Prop}
    (h : y.run.Yields s fun r s' => (∀ e, r = .error e → S (.error e) s') ∧
      ∀ a, r = .ok a → (g a).run.Yields s' S) : (y >>= g).run.Yields s S := by
  refine Yields.bind h fun r s' hr => ?_
  cases r with
  | ok a => exact hr.2 a rfl
  | error e => exact Yields.of_done rfl (hr.1 e rfl)

/-- A program that does not fail, as a step. -/
theorem Yields.lift {S : Except ε α → σ → Prop} (h : x.Yields s fun a s' => S (.ok a) s') :
    (ExceptT.lift x : ExceptT ε (Procedure σ κ ε τ) α).run.Yields s S :=
  Yields.bind h fun _ _ ha => Yields.of_done rfl ha

theorem Preserves.yields (h : Preserves I x) (hs : I s) : x.Yields s fun _ s' => I s' :=
  Ensures.mono (h s hs) fun _ _ _ hs' _ _ => hs'

end Procedure

/-! ## Steps that may fail -/

section Warns

variable (fine : Exchange κ ε τ → Prop) (mine : κ → Prop) (K : σ → σ → Prop)

/-- A step fails only if an answer to it was not fine. It makes its own calls only, and changes the
state at most as it may. -/
def Warns (x : ExceptT ε (Procedure σ κ ε τ) α) (s : σ)
    (Q : List (Exchange κ ε τ) → α → σ → Prop) : Prop :=
  Procedure.Ensures x.run s fun t o s' => (∀ e ∈ t, mine e.1) ∧ K s s' ∧
    ((∃ a, o = some (.ok a) ∧ Q t a s') ∨ ∃ e, o = some (.error e) ∧ ¬∀ e ∈ t, fine e)

/-- A step fails exactly if an answer to it was not fine. -/
def Judges (x : ExceptT ε (Procedure σ κ ε τ) α) (s : σ) (Q : α → σ → Prop) : Prop :=
  Warns fine mine K x s fun t a s' => (∀ e ∈ t, fine e) ∧ Q a s'

variable {fine mine K} {fine' : Exchange κ ε τ → Prop} {mine' : κ → Prop} {K' : σ → σ → Prop}
  {x : ExceptT ε (Procedure σ κ ε τ) α} {f : α → ExceptT ε (Procedure σ κ ε τ) β} {s : σ}
  {P P' : List (Exchange κ ε τ) → α → σ → Prop} {Q : List (Exchange κ ε τ) → β → σ → Prop}
  {R R' : α → σ → Prop} {S : β → σ → Prop}

theorem Warns.mono (h : Warns fine mine K x s P)
    (himp : ∀ t a s', K s s' → P t a s' → P' t a s') : Warns fine mine K x s P' := by
  refine Procedure.Ensures.mono h fun t o s' ⟨hmine, hK, hcases⟩ => ⟨hmine, hK, ?_⟩
  rcases hcases with ⟨a, ho, ha⟩ | herror
  · exact Or.inl ⟨a, ho, himp t a s' hK ha⟩
  · exact Or.inr herror

theorem Warns.bind (htrans : ∀ {s s' s''}, K s s' → K s' s'' → K s s'')
    (h : Warns fine mine K x s P)
    (hf : ∀ t a s', K s s' → P t a s' →
      Warns fine mine K (f a) s' fun t' b s'' => Q (t ++ t') b s'') :
    Warns fine mine K (x >>= f) s Q := by
  refine Procedure.Ensures.bind h (fun t r s' hr => ?_) fun t s' hr => ?_
  · obtain ⟨hmine, hK, ⟨a, ha, hP⟩ | ⟨e, he, hfine⟩⟩ := hr
    · obtain rfl := Option.some.inj ha
      refine Procedure.Ensures.mono (hf t a s' hK hP) fun t' o s'' ⟨hmine', hK', hcases⟩ => ?_
      refine ⟨List.forall_mem_append.mpr ⟨hmine, hmine'⟩, htrans hK hK', ?_⟩
      rcases hcases with hok | ⟨e, he, hfine'⟩
      · exact Or.inl hok
      · exact Or.inr ⟨e, he, fun hall => hfine' (List.forall_mem_append.mp hall).2⟩
    · obtain rfl := Option.some.inj he
      refine ⟨?_, hK, Or.inr ⟨e, rfl, ?_⟩⟩
      · rw [List.append_nil]
        exact hmine
      · rw [List.append_nil]
        exact hfine
  · obtain ⟨-, -, ⟨a, ha, -⟩ | ⟨e, he, -⟩⟩ := hr
    · cases ha
    · cases he

/-- A step without calls. -/
theorem Warns.of_done {a : α} {s' : σ} (hx : x.run s = .done (some (.ok a), s')) (hK : K s s')
    (h : P [] a s') : Warns fine mine K x s P := by
  rw [Warns, Procedure.Ensures, hx]
  exact ⟨List.forall_mem_nil _, hK, Or.inl ⟨a, rfl, h⟩⟩

/-- A call, and what follows its answer. A step that gives up after an answer that is not fine is
right to do so. -/
theorem Warns.ask {k : κ} {f : τ k → ExceptT ε (Procedure σ κ ε τ) β} (hmine : mine k) (hK : K s s)
    (herror : ∀ e, ¬fine ⟨k, .error e⟩)
    (hf : ∀ a, fine ⟨k, .ok a⟩ →
      Warns fine mine K (f a) s fun t b s' => Q (⟨k, .ok a⟩ :: t) b s')
    (hgives : ∀ a, ¬fine ⟨k, .ok a⟩ → ∃ e, f a = throw e) :
    Warns fine mine K (Procedure.ask k >>= f) s Q := by
  intro r
  cases r with
  | error e =>
      exact ⟨List.forall_mem_singleton.mpr hmine, hK,
        Or.inr ⟨e, rfl, fun hall => herror e (List.forall_mem_singleton.mp hall)⟩⟩
  | ok a =>
      by_cases hfine : fine ⟨k, .ok a⟩
      · refine Script.Ensures.mono (hf a hfine) fun t o ⟨hmine', hK', hcases⟩ => ?_
        refine ⟨List.forall_mem_cons.mpr ⟨hmine, hmine'⟩, hK', ?_⟩
        rcases hcases with hok | ⟨e, he, hfine'⟩
        · exact Or.inl hok
        · exact Or.inr ⟨e, he, fun hall => hfine' (List.forall_mem_cons.mp hall).2⟩
      · obtain ⟨e, he⟩ := hgives a hfine
        refine Script.Ensures.mono (Q := fun t o => t = [] ∧ o = (some (.error e), s)) ?_ ?_
        · change Script.Ensures ((f a).run s) _
          rw [he]
          exact ⟨rfl, rfl⟩
        · rintro t o ⟨rfl, rfl⟩
          exact ⟨List.forall_mem_singleton.mpr hmine, hK,
            Or.inr ⟨e, rfl, fun hall => hfine (List.forall_mem_singleton.mp hall)⟩⟩

/-- A program that does not stop, as a step that does not fail. -/
theorem Warns.lift {y : Procedure σ κ ε τ α}
    (h : y.Ensures s fun t o s' => (∀ e ∈ t, mine e.1) ∧ K s s' ∧ ∃ a, o = some a ∧ P t a s') :
    Warns fine mine K (ExceptT.lift y) s P := by
  refine Procedure.Ensures.bind (f := fun a => Pure.pure (Except.ok a)) h (fun t a s' hr => ?_)
    fun t s' hr => ?_
  · obtain ⟨hmine, hK, a', ha, hP⟩ := hr
    obtain rfl := Option.some.inj ha
    change _ ∧ _ ∧ _
    rw [List.append_nil]
    exact ⟨hmine, hK, Or.inl ⟨a, rfl, hP⟩⟩
  · obtain ⟨-, -, a, ha, -⟩ := hr
    cases ha

theorem Judges.ensures (h : Judges fine mine K x s R) :
    Procedure.Ensures x.run s fun t o s' => (∀ e ∈ t, mine e.1) ∧ K s s' ∧
      ((∃ a, o = some (.ok a) ∧ (∀ e ∈ t, fine e) ∧ R a s') ∨
        ∃ e, o = some (.error e) ∧ ¬∀ e ∈ t, fine e) :=
  h

/-- Answers may be looked at in another way, and changes allowed that are not made. -/
theorem Judges.weaken (h : Judges fine mine K x s R) (hmine : ∀ k, mine k → mine' k)
    (hfine : ∀ e, mine e.1 → (fine e ↔ fine' e)) (hK : ∀ s', K s s' → K' s s')
    (himp : ∀ a s', K s s' → R a s' → R' a s') : Judges fine' mine' K' x s R' := by
  rw [Judges, Warns]
  refine Procedure.Ensures.mono h.ensures fun t o s' ⟨hcalls, hkept, hcases⟩ => ?_
  have hall : (∀ e ∈ t, fine e) ↔ ∀ e ∈ t, fine' e :=
    forall₂_congr fun e he => hfine e (hcalls e he)
  refine ⟨fun e he => hmine _ (hcalls e he), hK s' hkept, ?_⟩
  rcases hcases with ⟨a, ho, hfine, ha⟩ | ⟨e, he, hbad⟩
  · exact Or.inl ⟨a, ho, hall.mp hfine, himp a s' hkept ha⟩
  · exact Or.inr ⟨e, he, fun h' => hbad (hall.mpr h')⟩

theorem Judges.bind (htrans : ∀ {s s' s''}, K s s' → K s' s'' → K s s'')
    (h : Judges fine mine K x s R)
    (hf : ∀ a s', K s s' → R a s' → Judges fine mine K (f a) s' S) :
    Judges fine mine K (x >>= f) s S := by
  refine Warns.bind htrans h fun t a s' hK ⟨hfine, hR⟩ => ?_
  refine Warns.mono (hf a s' hK hR) fun t' b s'' _ ⟨hfine', hS⟩ => ?_
  exact ⟨List.forall_mem_append.mpr ⟨hfine, hfine'⟩, hS⟩

theorem Judges.of_done {a : α} {s' : σ} (hx : x.run s = .done (some (.ok a), s')) (hK : K s s')
    (h : R a s') : Judges fine mine K x s R :=
  Warns.of_done hx hK ⟨List.forall_mem_nil _, h⟩

theorem Judges.pure {a : α} (hK : K s s) (h : R a s) :
    Judges fine mine K (Pure.pure a : ExceptT ε (Procedure σ κ ε τ) α) s R :=
  .of_done rfl hK h

/-- A call whose success is fine and whose failure is not. -/
theorem Judges.ask {k : κ} {S : τ k → σ → Prop} (hmine : mine k) (hK : K s s)
    (herror : ∀ e, ¬fine ⟨k, .error e⟩) (hok : ∀ a, fine ⟨k, .ok a⟩) (hS : ∀ a, S a s) :
    Judges fine mine K (Procedure.ask k : ExceptT ε (Procedure σ κ ε τ) (τ k)) s S := by
  intro r
  cases r with
  | error e =>
      exact ⟨List.forall_mem_singleton.mpr hmine, hK,
        Or.inr ⟨e, rfl, fun hall => herror e (List.forall_mem_singleton.mp hall)⟩⟩
  | ok a =>
      exact ⟨List.forall_mem_singleton.mpr hmine, hK,
        Or.inl ⟨a, rfl, List.forall_mem_singleton.mpr (hok a), hS a⟩⟩

/-- A call with what follows its answer, which may be not fine although it is one. -/
theorem Judges.ask_bind {k : κ} {f : τ k → ExceptT ε (Procedure σ κ ε τ) β} (hmine : mine k)
    (hK : K s s) (herror : ∀ e, ¬fine ⟨k, .error e⟩)
    (hf : ∀ a, fine ⟨k, .ok a⟩ → Judges fine mine K (f a) s S)
    (hgives : ∀ a, ¬fine ⟨k, .ok a⟩ → ∃ e, f a = throw e) :
    Judges fine mine K (Procedure.ask k >>= f) s S := by
  refine Warns.ask hmine hK herror (fun a ha => ?_) hgives
  exact Warns.mono (hf a ha) fun t b s' _ ⟨hfine, hS⟩ =>
    ⟨List.forall_mem_cons.mpr ⟨ha, hfine⟩, hS⟩

end Warns

/-! ## Programs that answer for what they leave -/

section Accounts

variable (sound : σ → Prop) (fine : Exchange κ ε τ → Prop) (checked : κ → Prop) (refused : Prop)

/-- The state is as sound as the answers were fine. A program stops only if it is refused or an
answer that is checked was not fine, and goes on only if there was none. -/
def Accounts (x : Procedure σ κ ε τ α) (s : σ) (Q : α → σ → Prop) : Prop :=
  x.Ensures s fun t o s' =>
    (o = none ∧ (refused ∨ ∃ e ∈ t, checked e.1 ∧ ¬fine e)) ∨
      ∃ a, o = some a ∧ (sound s' ↔ sound s ∧ ∀ e ∈ t, fine e) ∧
        (∀ e ∈ t, checked e.1 → fine e) ∧ Q a s'

variable {sound fine checked refused} {x : Procedure σ κ ε τ α} {f : α → Procedure σ κ ε τ β} {s : σ}
  {P P' : α → σ → Prop} {Q : β → σ → Prop}

/-- A step without calls. -/
theorem Accounts.of_done {a : α} {s' : σ} (hx : x s = .done (some a, s'))
    (hsound : sound s' ↔ sound s) (h : P a s') : Accounts sound fine checked refused x s P := by
  rw [Accounts, Procedure.Ensures, hx]
  exact Or.inr ⟨a, rfl, hsound.trans (and_iff_left (List.forall_mem_nil _)).symm,
    List.forall_mem_nil _, h⟩

theorem Accounts.pure {a : α} (h : P a s) : Accounts sound fine checked refused (pure a) s P :=
  .of_done rfl Iff.rfl h

theorem Accounts.stop (h : refused) :
    Accounts sound fine checked refused (Procedure.stop : Procedure σ κ ε τ α) s P :=
  Or.inl ⟨rfl, Or.inl h⟩

theorem Accounts.mono (h : Accounts sound fine checked refused x s P)
    (himp : ∀ a s', P a s' → P' a s') : Accounts sound fine checked refused x s P' := by
  refine Procedure.Ensures.mono h fun t o s' => ?_
  rintro (hstop | ⟨a, ho, hsound, hchecked, ha⟩)
  · exact Or.inl hstop
  · exact Or.inr ⟨a, ho, hsound, hchecked, himp a s' ha⟩

/-- What comes after may use that the state was sound if it is now. -/
theorem Accounts.bind (h : Accounts sound fine checked refused x s P)
    (hf : ∀ a s', P a s' → (sound s' → sound s) → Accounts sound fine checked refused (f a) s' Q) :
    Accounts sound fine checked refused (x >>= f) s Q := by
  refine Procedure.Ensures.bind h (fun t a s' hr => ?_) fun t s' hr => ?_
  · rcases hr with ⟨ho, -⟩ | ⟨a', ha, hsound, hchecked, hP⟩
    · cases ho
    · obtain rfl := Option.some.inj ha
      refine Procedure.Ensures.mono (hf a s' hP fun hs => (hsound.mp hs).1) fun t' o s'' => ?_
      rintro (⟨ho, hrefused | ⟨e, he, hbad⟩⟩ | ⟨b, hb, hsound', hchecked', hQ⟩)
      · exact Or.inl ⟨ho, Or.inl hrefused⟩
      · exact Or.inl ⟨ho, Or.inr ⟨e, List.mem_append_right _ he, hbad⟩⟩
      · refine Or.inr ⟨b, hb, ?_, List.forall_mem_append.mpr ⟨hchecked, hchecked'⟩, hQ⟩
        rw [hsound', hsound, List.forall_mem_append, and_assoc]
  · rcases hr with hstop | ⟨a', ha, -⟩
    · exact Or.inl ⟨rfl, hstop.2⟩
    · cases ha

/-! ### Programs that overlook a failure -/

variable (sound fine checked refused) in
/-- The state is not sound afterwards, unless the program stops with an excuse. -/
def Ruins (x : Procedure σ κ ε τ α) (s : σ) (Q : α → σ → Prop) : Prop :=
  x.Ensures s fun t o s' =>
    (o = none ∧ (refused ∨ ∃ e ∈ t, checked e.1 ∧ ¬fine e)) ∨
      ∃ a, o = some a ∧ ¬sound s' ∧ (∀ e ∈ t, checked e.1 → fine e) ∧ Q a s'

/-- A program that keeps account does not repair a state. -/
theorem Accounts.ruins (h : Accounts sound fine checked refused x s P) (hs : ¬sound s) :
    Ruins sound fine checked refused x s P := by
  refine Procedure.Ensures.mono h fun t o s' => ?_
  rintro (hstop | ⟨a, ho, hsound, hchecked, ha⟩)
  · exact Or.inl hstop
  · exact Or.inr ⟨a, ho, fun h' => hs (hsound.mp h').1, hchecked, ha⟩

theorem Ruins.of_done {a : α} {s' : σ} (hx : x s = .done (some a, s')) (hsound : ¬sound s')
    (h : P a s') : Ruins sound fine checked refused x s P := by
  rw [Ruins, Procedure.Ensures, hx]
  exact Or.inr ⟨a, rfl, hsound, List.forall_mem_nil _, h⟩

/-- What is ruined by the second part. -/
theorem Accounts.bind_ruins (h : Accounts sound fine checked refused x s P)
    (hf : ∀ a s', P a s' → Ruins sound fine checked refused (f a) s' Q) :
    Ruins sound fine checked refused (x >>= f) s Q := by
  refine Procedure.Ensures.bind h (fun t a s' hr => ?_) fun t s' hr => ?_
  · rcases hr with ⟨ho, -⟩ | ⟨a', ha, -, hchecked, hP⟩
    · cases ho
    · obtain rfl := Option.some.inj ha
      refine Procedure.Ensures.mono (hf a s' hP) fun t' o s'' => ?_
      rintro (⟨ho, hrefused | ⟨e, he, hbad⟩⟩ | ⟨b, hb, hsound, hchecked', hQ⟩)
      · exact Or.inl ⟨ho, Or.inl hrefused⟩
      · exact Or.inl ⟨ho, Or.inr ⟨e, List.mem_append_right _ he, hbad⟩⟩
      · exact Or.inr ⟨b, hb, hsound, List.forall_mem_append.mpr ⟨hchecked, hchecked'⟩, hQ⟩
  · rcases hr with hstop | ⟨a', ha, -⟩
    · exact Or.inl ⟨rfl, hstop.2⟩
    · cases ha

/-- A state that is ruined stays so. -/
theorem Ruins.bind (h : Ruins sound fine checked refused x s P)
    (hf : ∀ a s', P a s' → ¬sound s' → Accounts sound fine checked refused (f a) s' Q) :
    Ruins sound fine checked refused (x >>= f) s Q := by
  refine Procedure.Ensures.bind h (fun t a s' hr => ?_) fun t s' hr => ?_
  · rcases hr with ⟨ho, -⟩ | ⟨a', ha, hsound, hchecked, hP⟩
    · cases ho
    · obtain rfl := Option.some.inj ha
      refine Procedure.Ensures.mono ((hf a s' hP hsound).ruins hsound) fun t' o s'' => ?_
      rintro (⟨ho, hrefused | ⟨e, he, hbad⟩⟩ | ⟨b, hb, hsound', hchecked', hQ⟩)
      · exact Or.inl ⟨ho, Or.inl hrefused⟩
      · exact Or.inl ⟨ho, Or.inr ⟨e, List.mem_append_right _ he, hbad⟩⟩
      · exact Or.inr ⟨b, hb, hsound', List.forall_mem_append.mpr ⟨hchecked, hchecked'⟩, hQ⟩
  · rcases hr with hstop | ⟨a', ha, -⟩
    · exact Or.inl ⟨rfl, hstop.2⟩
    · cases ha

/-! ### Steps whose failure is looked at -/

/-- Calls that were fine, and what comes after them. -/
theorem Accounts.after {t : List (Exchange κ ε τ)} {s' : σ} {x : Procedure σ κ ε τ β}
    (hfine : ∀ e ∈ t, fine e) (hsound : sound s' ↔ sound s)
    (h : Accounts sound fine checked refused x s' Q) :
    x.Ensures s' fun t' o s'' =>
      (o = none ∧ (refused ∨ ∃ e ∈ t ++ t', checked e.1 ∧ ¬fine e)) ∨
        ∃ b, o = some b ∧ (sound s'' ↔ sound s ∧ ∀ e ∈ t ++ t', fine e) ∧
          (∀ e ∈ t ++ t', checked e.1 → fine e) ∧ Q b s'' := by
  refine Procedure.Ensures.mono h fun t' o s'' => ?_
  rintro (⟨ho, hrefused | ⟨e, he, hbad⟩⟩ | ⟨b, hb, hsound', hchecked', hQ⟩)
  · exact Or.inl ⟨ho, Or.inl hrefused⟩
  · exact Or.inl ⟨ho, Or.inr ⟨e, List.mem_append_right _ he, hbad⟩⟩
  · refine Or.inr ⟨b, hb, ?_, ?_, hQ⟩
    · rw [hsound', hsound, List.forall_mem_append, and_iff_right hfine]
    · exact List.forall_mem_append.mpr ⟨fun e he _ => hfine e he, hchecked'⟩

/-- Calls that were not fine, and what comes after them. -/
theorem Ruins.after {t : List (Exchange κ ε τ)} {s' : σ} {x : Procedure σ κ ε τ β}
    (hbad : ¬∀ e ∈ t, fine e) (hchecked : ∀ e ∈ t, ¬checked e.1)
    (h : Ruins sound fine checked refused x s' Q) :
    x.Ensures s' fun t' o s'' =>
      (o = none ∧ (refused ∨ ∃ e ∈ t ++ t', checked e.1 ∧ ¬fine e)) ∨
        ∃ b, o = some b ∧ (sound s'' ↔ sound s ∧ ∀ e ∈ t ++ t', fine e) ∧
          (∀ e ∈ t ++ t', checked e.1 → fine e) ∧ Q b s'' := by
  refine Procedure.Ensures.mono h fun t' o s'' => ?_
  rintro (⟨ho, hrefused | ⟨e, he, hbad'⟩⟩ | ⟨b, hb, hsound, hchecked', hQ⟩)
  · exact Or.inl ⟨ho, Or.inl hrefused⟩
  · exact Or.inl ⟨ho, Or.inr ⟨e, List.mem_append_right _ he, hbad'⟩⟩
  · refine Or.inr ⟨b, hb, iff_of_false hsound ?_, ?_, hQ⟩
    · exact fun hall => hbad (List.forall_mem_append.mp hall.2).1
    · exact List.forall_mem_append.mpr ⟨fun e he h => absurd h (hchecked e he), hchecked'⟩

variable {mine : κ → Prop} {K : σ → σ → Prop} {y : ExceptT ε (Procedure σ κ ε τ) α}
  {g : Except ε α → Procedure σ κ ε τ β} {W : List (Exchange κ ε τ) → α → σ → Prop}

/-- A step that may overlook a failure, and what comes after it. -/
theorem Accounts.of_warns (h : Warns fine mine K y s W) (hmine : ∀ k, mine k → ¬checked k)
    (hK : ∀ s', K s s' → (sound s' ↔ sound s))
    (hok : ∀ t a s', K s s' → W t a s' → (∀ e ∈ t, fine e) →
      Accounts sound fine checked refused (g (.ok a)) s' Q)
    (hover : ∀ t a s', K s s' → W t a s' → (¬∀ e ∈ t, fine e) →
      Ruins sound fine checked refused (g (.ok a)) s' Q)
    (herror : ∀ e s', K s s' → Ruins sound fine checked refused (g (.error e)) s' Q) :
    Accounts sound fine checked refused (y.run >>= g) s Q := by
  refine Procedure.Ensures.bind h (fun t r s' ⟨hcalls, hkept, hcases⟩ => ?_) fun t s' hr => ?_
  · have hunchecked : ∀ e ∈ t, ¬checked e.1 := fun e he => hmine _ (hcalls e he)
    rcases hcases with ⟨a, ha, hW⟩ | ⟨e, he, hbad⟩
    · obtain rfl := Option.some.inj ha
      by_cases hfine : ∀ e ∈ t, fine e
      · exact Accounts.after hfine (hK s' hkept) (hok t a s' hkept hW hfine)
      · exact Ruins.after hfine hunchecked (hover t a s' hkept hW hfine)
    · obtain rfl := Option.some.inj he
      exact Ruins.after hbad hunchecked (herror e s' hkept)
  · obtain ⟨-, -, ⟨a, ha, -⟩ | ⟨e, he, -⟩⟩ := hr
    · cases ha
    · cases he

/-- A step whose failure is kept in the state. -/
theorem Accounts.of_kept (h : Judges fine mine K y s P) (hmine : ∀ k, mine k → ¬checked k)
    (hK : ∀ s', K s s' → (sound s' ↔ sound s))
    (hok : ∀ a s', K s s' → P a s' → Accounts sound fine checked refused (g (.ok a)) s' Q)
    (herror : ∀ e s', K s s' → Ruins sound fine checked refused (g (.error e)) s' Q) :
    Accounts sound fine checked refused (y.run >>= g) s Q :=
  Accounts.of_warns h hmine hK (fun _ a s' hkept hP _ => hok a s' hkept hP.2)
    (fun _ _ _ _ hP hbad => absurd hP.1 hbad) herror

/-- A step whose failure stops the program. -/
theorem Accounts.of_checked (h : Judges fine mine K y s P) (hmine : ∀ k, mine k → checked k)
    (hK : ∀ s', K s s' → (sound s' ↔ sound s))
    (hok : ∀ a s', K s s' → P a s' → Accounts sound fine checked refused (g (.ok a)) s' Q)
    (herror : ∀ e s', ∃ s'', g (.error e) s' = .done (none, s'')) :
    Accounts sound fine checked refused (y.run >>= g) s Q := by
  refine Procedure.Ensures.bind h.ensures (fun t r s' ⟨hcalls, hkept, hcases⟩ => ?_) fun t s' hr => ?_
  · rcases hcases with ⟨a, ha, hfine, hP⟩ | ⟨e, he, hbad⟩
    · obtain rfl := Option.some.inj ha
      exact Accounts.after hfine (hK s' hkept) (hok a s' hkept hP)
    · obtain rfl := Option.some.inj he
      obtain ⟨s'', hdone⟩ := herror e s'
      obtain ⟨e', he', hbad'⟩ := not_forall₂.mp hbad
      rw [Procedure.Ensures, hdone]
      change _ ∨ _
      rw [List.append_nil]
      exact Or.inl ⟨rfl, Or.inr ⟨e', he', hmine _ (hcalls e' he'), hbad'⟩⟩
  · obtain ⟨-, -, ⟨a, ha, -⟩ | ⟨e, he, -⟩⟩ := hr
    · cases ha
    · cases he

end Accounts

end DdTrace.Lib
