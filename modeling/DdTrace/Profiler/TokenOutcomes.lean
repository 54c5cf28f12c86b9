import DdTrace.Profiler.TokenCalls

/-!
# How the functions of `CallTargetTokens` fail

* `Fine`: an answer that the rewrite can go on with. There are calls whose failure has no part in
  the result of any function.
* `Keeps`: what a function leaves as it is.
* `judges_writeCall` and the like: a function fails exactly if an answer to it was not fine.
* `answers_modifyLocalSigAndInitialize`: `ModifyLocalSigAndInitialize` overlooks failures, and what
  it leaves behind shows them.

Source: `calltarget_tokens.cpp`.
-/

namespace DdTrace.Profiler.Rewriting

open DdTrace.Lib CorElementType

/-! ## Answers -/

/-- A call with its answer. -/
abbrev Answer := Exchange Call HRESULT fun c => c.request.Reply

/-- The call asks for the token of a type specification. -/
def Request.isTypeSpec : Request → Bool
  | .token (.GetTokenFromTypeSpec _) => true
  | _ => false

namespace Call

/-- The failure of the call has a part in the result of a function. Nothing depends on the result of
`WriteCallTargetReturnGetReturnValue`, nor on the types of `CallTargetReturn` being defined. -/
def matters (c : Call) : Bool :=
  c.caller != .WriteCallTargetReturnGetReturnValue && c.slot != some .callTargetReturnVoidTypeRef &&
    !(c.request.isTypeSpec && c.caller != .GetTypeTok) &&
    !(c.slot == some .callTargetReturnTypeRef && c.caller == .WriteEndReturnMemberRef)

/-- The calls that a function makes for its own result. -/
structure Ordinary (caller : Caller) (c : Call) : Prop where
  caller_eq : c.caller = caller
  slot_ne : c.slot ≠ some .callTargetReturnVoidTypeRef ∧ c.slot ≠ some .callTargetReturnTypeRef
  typeSpec : c.request.isTypeSpec = true → caller = .GetTypeTok
  token : ∃ d, c.request = .token d

end Call

/-- The call has succeeded. -/
def Succeeded (e : Answer) : Prop := ∃ a, e.2 = .ok a

/-- An answer that the rewrite can go on with: a success, but not the signature of a method that has
been rewritten, or a failure that has no part in a result. -/
def Fine (outside : Bool) : Answer → Prop
  | ⟨c, .error _⟩ => c.matters = false
  | ⟨⟨_, _, .GetSigFromToken _ ref⟩, .ok sig⟩ => isRewritten outside ref sig.val.bytes = false
  | _ => True

/-- The result of the function is looked at. -/
def Caller.checked : Caller → Bool
  | .GetTypeTok => true
  | .WriteBeginMethod => true
  | _ => false

theorem fine_error_iff {outside : Bool} {c : Call} {hr : HRESULT} :
    Fine outside ⟨c, .error hr⟩ ↔ c.matters = false := Iff.rfl

theorem fine_token {outside : Bool} {caller : Caller} {slot : Option Slot} {d : Definition}
    {token : Token} : Fine outside ⟨⟨caller, slot, .token d⟩, .ok token⟩ := trivial

/-- An ordinary call of a function whose result matters. -/
theorem Call.Ordinary.matters {c : Call} {caller : Caller} (h : c.Ordinary caller)
    (hcaller : caller ≠ .WriteCallTargetReturnGetReturnValue) : c.matters = true := by
  obtain ⟨rfl, ⟨hvoid, hvalue⟩, htypeSpec, -⟩ := h
  rw [Call.matters, bne_iff_ne.mpr hcaller, bne_iff_ne.mpr hvoid, beq_eq_false_iff_ne.mpr hvalue]
  cases hspec : c.request.isTypeSpec with
  | false => rfl
  | true =>
      rw [htypeSpec hspec]
      rfl

/-- Of an ordinary call a success is fine, and a failure is not. -/
theorem Call.Ordinary.fine_iff {outside : Bool} {e : Answer} {caller : Caller}
    (h : e.1.Ordinary caller) (hcaller : caller ≠ .WriteCallTargetReturnGetReturnValue) :
    Succeeded e ↔ Fine outside e := by
  obtain ⟨⟨c, slot, request⟩, r⟩ := e
  obtain ⟨d, rfl⟩ := h.token
  cases r with
  | error hr =>
      rw [fine_error_iff, h.matters hcaller]
      exact iff_of_false (fun ⟨_, ha⟩ => by cases ha) (by decide)
  | ok token => exact iff_of_true ⟨token, rfl⟩ fine_token

/-! ## The state -/

/-- The tokens that `EnsureBaseCalltargetTokens` defines. -/
def baseSlots : List Slot :=
  [.corLibAssemblyRef, .objectTypeRef, .exTypeRef, .typeRef, .runtimeTypeHandleRef,
    .getTypeFromHandleToken, .runtimeMethodHandleRef, .profilerAssemblyRef, .callTargetTypeRef,
    .callTargetStateTypeRef, .callTargetStateTypeGetDefault]

namespace Session

/-- There are the tokens that `EnsureBaseCalltargetTokens` defines. -/
def Based (s : Session) : Prop := ∀ slot ∈ baseSlots, (s.tokens slot).isSome = true

end Session

/-- A function leaves no trace of a failure, and forgets no token. -/
structure Later (s s' : Session) : Prop where
  sound : s'.Sound ↔ s.Sound
  tokens : ∀ slot, (s.tokens slot).isSome = true → (s'.tokens slot).isSome = true

/-- Nor does it define the type `CallTargetReturn<T>`. -/
structure Keeps (s s' : Session) : Prop extends Later s s' where
  returnType : s'.tokens .callTargetReturnTypeRef = s.tokens .callTargetReturnTypeRef

theorem Later.refl (s : Session) : Later s s := ⟨Iff.rfl, fun _ h => h⟩

theorem Later.trans {s s' s'' : Session} (h : Later s s') (h' : Later s' s'') : Later s s'' :=
  ⟨h'.sound.trans h.sound, fun slot hslot => h'.tokens slot (h.tokens slot hslot)⟩

theorem Keeps.refl (s : Session) : Keeps s s := ⟨Later.refl s, rfl⟩

theorem Keeps.trans {s s' s'' : Session} (h : Keeps s s') (h' : Keeps s' s'') : Keeps s s'' :=
  ⟨h.toLater.trans h'.toLater, h'.returnType.trans h.returnType⟩

theorem Later.based {s s' : Session} (h : Later s s') (hs : s.Based) : s'.Based :=
  fun slot hslot => h.tokens slot (hs slot hslot)

/-- A token that is kept. -/
theorem later_keep (s : Session) (slot : Slot) (token : Token) : Later s (s.keep slot token) := by
  refine ⟨⟨fun h => ⟨h.results, h.operands⟩, fun h => ⟨h.results, h.operands⟩⟩, fun other h => ?_⟩
  by_cases hother : other = slot
  · rw [hother]
    exact s.isSome_keep slot token
  · rw [s.keep_of_ne token hother]
    exact h

theorem keeps_keep (s : Session) {slot : Slot} (token : Token)
    (hslot : slot ≠ .callTargetReturnTypeRef) : Keeps s (s.keep slot token) :=
  ⟨later_keep s slot token, s.keep_of_ne token hslot.symm⟩

/-- An instruction whose operands are assigned. -/
theorem keeps_insert (s : Session) (opcode arg : Nat) {operands : List Operand}
    (h : ∀ o ∈ operands, o.assigned = true) : Keeps s (s.insert opcode arg operands) := by
  refine ⟨⟨⟨fun hs => ⟨hs.results, fun o ho => hs.operands o ?_⟩, fun hs => ⟨hs.results, ?_⟩⟩,
    fun _ h => h⟩, rfl⟩
  · exact List.mem_append_left _ ho
  · exact List.forall_mem_append.mpr ⟨hs.operands, h⟩

/-! ## Tokens that are kept -/

section Ordinary

variable {caller : Caller} {slot : Slot} {s : Session}

theorem keeps_trans {s s' s'' : Session} : Keeps s s' → Keeps s' s'' → Keeps s s'' := Keeps.trans

/-- A call for a token fails exactly if it is answered so. -/
theorem judges_define {d : Definition} {slot : Option Slot}
    (hslot : slot ≠ some .callTargetReturnVoidTypeRef ∧ slot ≠ some .callTargetReturnTypeRef)
    (htypeSpec : (Request.token d).isTypeSpec = true → caller = .GetTypeTok) :
    Judges Succeeded (Call.Ordinary caller) Keeps (define caller slot d) s fun _ _ => True :=
  Judges.ask ⟨rfl, hslot, htypeSpec, d, rfl⟩ (Keeps.refl s) (fun _ ⟨_, h⟩ => by cases h)
    (fun a => ⟨a, rfl⟩) fun _ => trivial

/-- A call whose token is not kept. -/
theorem not_kept : (none : Option Slot) ≠ some .callTargetReturnVoidTypeRef ∧
    (none : Option Slot) ≠ some .callTargetReturnTypeRef :=
  ⟨Option.some_ne_none _ |>.symm, Option.some_ne_none _ |>.symm⟩

theorem isTypeSpec_definition (s : Session) (slot : Slot) :
    (Request.token (slot.definition s)).isTypeSpec = false := by
  cases slot with
  | _ => rfl

theorem judges_ensure
    (hslot : slot ≠ .callTargetReturnVoidTypeRef ∧ slot ≠ .callTargetReturnTypeRef) :
    Judges Succeeded (Call.Ordinary caller) Keeps (ensure caller slot) s fun _ s' =>
      (s'.tokens slot).isSome = true := by
  refine Judges.bind keeps_trans (R := fun a s' => a = s ∧ s' = s)
    (.of_done rfl (Keeps.refl s) ⟨rfl, rfl⟩) ?_
  rintro - - - ⟨rfl, rfl⟩
  split
  case isTrue hsome => exact Judges.pure (Keeps.refl _) hsome
  case isFalse =>
    refine Judges.bind keeps_trans (judges_define ?_ ?_) fun token s' _ _ => ?_
    · exact ⟨fun h => hslot.1 (Option.some.inj h), fun h => hslot.2 (Option.some.inj h)⟩
    · rw [isTypeSpec_definition]
      intro h
      cases h
    · exact .of_done rfl (keeps_keep s' token hslot.2) (s'.isSome_keep slot token)

theorem judges_ensureAll {slots : List Slot}
    (hslots : ∀ slot ∈ slots, slot ≠ .callTargetReturnVoidTypeRef ∧ slot ≠ .callTargetReturnTypeRef) :
    Judges Succeeded (Call.Ordinary caller) Keeps (ensureAll caller slots) s fun _ s' =>
      ∀ slot ∈ slots, (s'.tokens slot).isSome = true := by
  induction slots generalizing s with
  | nil => exact Judges.pure (Keeps.refl s) (List.forall_mem_nil _)
  | cons slot slots ih =>
      obtain ⟨hslot, hrest⟩ := List.forall_mem_cons.mp hslots
      refine Judges.bind keeps_trans (judges_ensure hslot) fun _ s' _ hsome => ?_
      refine (ih hrest).weaken (fun _ h => h) (fun _ _ => Iff.rfl) (fun _ h => h) ?_
      exact fun _ s'' hkept hall => List.forall_mem_cons.mpr ⟨hkept.tokens slot hsome, hall⟩

/-- Tokens that are there are not defined again. -/
theorem ensureAll_of_isSome {slots : List Slot}
    (h : ∀ slot ∈ slots, (s.tokens slot).isSome = true) :
    (ensureAll caller slots).run s = .done (some (.ok ()), s) := by
  induction slots with
  | nil => rfl
  | cons slot slots ih =>
      obtain ⟨hslot, hrest⟩ := List.forall_mem_cons.mp h
      have hensure : (ensure caller slot).run s = .done (some (.ok ()), s) := by
        change ((if (s.tokens slot).isSome then _ else _ : Fallible Unit).run s) = _
        rw [if_pos hslot]
        rfl
      change Script.bind ((ensure caller slot).run s) _ = _
      rw [hensure]
      exact ih hrest

/-- `EnsureBaseCalltargetTokens` fails exactly if one of its calls does. -/
theorem judges_base : Judges Succeeded (Call.Ordinary caller) Keeps
    (EnsureBaseCalltargetTokens caller) s fun _ s' => s'.Based := by
  refine Judges.bind keeps_trans (judges_ensureAll (by decide)) fun _ s' _ hcorLib => ?_
  refine (judges_ensureAll (by decide)).weaken (fun _ h => h) (fun _ _ => Iff.rfl) (fun _ h => h) ?_
  intro _ s'' hkept hbase slot hslot
  rcases List.mem_append.mp (show slot ∈ [Slot.corLibAssemblyRef, .objectTypeRef, .exTypeRef,
    .typeRef, .runtimeTypeHandleRef, .getTypeFromHandleToken, .runtimeMethodHandleRef] ++ _
    from hslot) with h | h
  · exact hkept.tokens slot (hcorLib slot h)
  · exact hbase slot h

/-- `EnsureBaseCalltargetTokens` makes no call once it has succeeded. -/
theorem base_bind {α : Type} (hs : s.Based) (f : Unit → Fallible α) :
    (EnsureBaseCalltargetTokens caller >>= f).run s = (f ()).run s := by
  have hbase : (EnsureBaseCalltargetTokens caller).run s = .done (some (.ok ()), s) := by
    change Script.bind ((EnsureCorLibTokens caller).run s) _ = _
    rw [EnsureCorLibTokens, ensureAll_of_isSome fun slot h => hs slot (List.mem_append_left _ h)]
    exact ensureAll_of_isSome fun slot h =>
      hs slot (List.mem_append_right [Slot.corLibAssemblyRef, .objectTypeRef, .exTypeRef, .typeRef,
        .runtimeTypeHandleRef, .getTypeFromHandleToken, .runtimeMethodHandleRef] h)
  change Script.bind ((EnsureBaseCalltargetTokens caller).run s) _ = _
  rw [hbase]
  rfl

/-- What `ensure` does with a token that is not there. -/
theorem ensure_bind {α : Type} (f : Unit → Fallible α) :
    (ensure caller slot >>= f).run s =
      if (s.tokens slot).isSome then (f ()).run s
      else .call ⟨caller, some slot, .token (slot.definition s)⟩ fun
        | .ok token => (f ()).run (s.keep slot token)
        | .error hr => .done (some (.error hr), s) := by
  split
  case isTrue h =>
    change Script.bind ((if (s.tokens slot).isSome then _ else _ : Fallible Unit).run s) _ = _
    rw [if_pos h]
    rfl
  case isFalse h =>
    change Script.bind ((if (s.tokens slot).isSome then _ else _ : Fallible Unit).run s) _ = _
    rw [if_neg h]
    refine congrArg (Script.call _) (funext fun r => ?_)
    cases r with
    | error hr => rfl
    | ok token => rfl

/-- Another value is returned after a failure. -/
theorem judges_failsWith {α : Type} {fine : Answer → Prop} {mine : Call → Prop}
    {K : Session → Session → Prop} {x : Fallible α} {value : UInt32} {R : α → Session → Prop}
    (h : Judges fine mine K x s R) : Judges fine mine K (failsWith value x) s R := by
  rw [Judges, Warns]
  refine Procedure.Ensures.bind (x := x.run) h.ensures (fun t r s' hr => ?_) fun t s' hr => ?_
  · obtain ⟨hmine, hkept, ⟨a, ha, hfine, hR⟩ | ⟨e, he, hbad⟩⟩ := hr
    · obtain rfl := Option.some.inj ha
      change _ ∧ _ ∧ _
      rw [List.append_nil]
      exact ⟨hmine, hkept, Or.inl ⟨a, rfl, hfine, hR⟩⟩
    · obtain rfl := Option.some.inj he
      change _ ∧ _ ∧ _
      rw [List.append_nil]
      exact ⟨hmine, hkept, Or.inr ⟨value, rfl, hbad⟩⟩
  · obtain ⟨-, -, ⟨a, ha, -⟩ | ⟨e, he, -⟩⟩ := hr
    · cases ha
    · cases he

/-! ## Calls of `CallTargetInvoker` -/

/-- The call of a method whose token has been found. -/
theorem judges_callMember {fine : Answer → Prop} {mine : Call → Prop} (token : mdToken) :
    Judges fine mine Keeps (CallMember ⟨token, true⟩ : Fallible InstrRef) s fun _ _ => True :=
  .of_done rfl (keeps_insert s _ _ (List.forall_mem_singleton.mpr rfl)) trivial

theorem judges_writeCall {methodSpec : CallTargetTokens → Builder}
    (hslot : slot ≠ .callTargetReturnVoidTypeRef ∧ slot ≠ .callTargetReturnTypeRef) :
    Judges Succeeded (Call.Ordinary caller) Keeps (writeCall caller slot methodSpec) s
      fun _ _ => True := by
  refine Judges.bind keeps_trans judges_base fun _ s₁ _ _ => ?_
  refine Judges.bind keeps_trans (judges_ensure hslot) fun _ s₂ _ _ => ?_
  refine Judges.bind keeps_trans (R := fun _ _ => True) (.of_done rfl (Keeps.refl s₂) trivial) ?_
  intro s₃ s₄ _ _
  refine Judges.bind keeps_trans (judges_define not_kept nofun) fun token s₅ _ _ => ?_
  exact judges_callMember token.val

theorem judges_writeBeginMethod (m : CallTargetMethod) :
    Judges Succeeded (Call.Ordinary .WriteBeginMethod) Keeps (WriteBeginMethod m) s
      fun _ _ => True := by
  rw [WriteBeginMethod]
  split
  case isTrue =>
    exact Judges.bind keeps_trans judges_base fun _ _ _ _ => judges_writeCall ⟨nofun, nofun⟩
  case isFalse => exact judges_writeCall ⟨nofun, nofun⟩

end Ordinary

/-! ## Types of `CallTargetReturn` -/

section ReturnTypes

variable {caller : Caller} {s : Session} {m : CallTargetMethod} (outside : Bool)

/-- The type of `CallTargetReturn` may be defined or not. -/
theorem ensures_getTargetVoidReturnTypeRef (hs : s.Based) :
    Procedure.Ensures (GetTargetVoidReturnTypeRef caller) s fun t o s' =>
      (∀ e ∈ t, e.1.caller = caller ∧ Fine outside e) ∧ Keeps s s' ∧ ∃ out, o = some out := by
  change Script.Ensures (Script.bind (Script.bind ((EnsureBaseCalltargetTokens caller >>=
    fun _ => ensure caller .callTargetReturnVoidTypeRef >>= fun _ => _ : Fallible mdToken).run s)
      _) _) _
  rw [base_bind hs, ensure_bind]
  split
  case isTrue => exact ⟨List.forall_mem_nil _, Keeps.refl s, _, rfl⟩
  case isFalse =>
    intro r
    cases r with
    | error hr =>
        refine ⟨List.forall_mem_singleton.mpr ⟨rfl, ?_⟩, Keeps.refl s, _, rfl⟩
        exact fine_error_iff.mpr (by simp [Call.matters])
    | ok token =>
        exact ⟨List.forall_mem_singleton.mpr ⟨rfl, fine_token⟩, keeps_keep s token nofun, _, rfl⟩

/-- The type `CallTargetReturn<T>` is there afterwards, unless the call that defines it has failed. -/
theorem ensures_getTargetReturnValueTypeRef (hs : s.Based) (hcaller : caller ≠ .GetTypeTok) :
    Procedure.Ensures (GetTargetReturnValueTypeRef caller m) s fun t o s' =>
      (∀ e ∈ t, e.1.caller = caller) ∧ Later s s' ∧ (∃ out, o = some out) ∧
        ((s'.tokens .callTargetReturnTypeRef).isSome = true ∧ (∀ e ∈ t, Fine outside e) ∨
          (s'.tokens .callTargetReturnTypeRef).isSome = false ∧ ∃ scope name hr,
            t = [⟨⟨caller, some .callTargetReturnTypeRef,
              .token (.DefineTypeRefByName scope name)⟩, .error hr⟩]) := by
  change Script.Ensures (Script.bind (Script.bind ((EnsureBaseCalltargetTokens caller >>=
    fun _ => ensure caller .callTargetReturnTypeRef >>= fun _ => _ : Fallible mdToken).run s)
      _) _) _
  have htypeSpec : ∀ d r, Fine outside ⟨⟨caller, none, .token (.GetTokenFromTypeSpec d)⟩, r⟩ := by
    intro d r
    cases r with
    | error hr => exact fine_error_iff.mpr (by simp [Call.matters, Request.isTypeSpec, hcaller])
    | ok token => exact fine_token
  rw [base_bind hs, ensure_bind]
  split
  case isTrue hsome =>
    intro r
    cases r with
    | error hr =>
        exact ⟨List.forall_mem_singleton.mpr rfl, Later.refl s, ⟨_, rfl⟩,
          Or.inl ⟨hsome, List.forall_mem_singleton.mpr (htypeSpec _ _)⟩⟩
    | ok token =>
        exact ⟨List.forall_mem_singleton.mpr rfl, Later.refl s, ⟨_, rfl⟩,
          Or.inl ⟨hsome, List.forall_mem_singleton.mpr (htypeSpec _ _)⟩⟩
  case isFalse hnone =>
    intro r
    cases r with
    | error hr =>
        exact ⟨List.forall_mem_singleton.mpr rfl, Later.refl s, ⟨_, rfl⟩,
          Or.inr ⟨eq_false_of_ne_true hnone, _, _, hr, rfl⟩⟩
    | ok token =>
        have hsome := s.isSome_keep .callTargetReturnTypeRef token
        intro r
        cases r with
        | error hr =>
            exact ⟨List.forall_mem_cons.mpr ⟨rfl, List.forall_mem_singleton.mpr rfl⟩,
              later_keep s _ token, ⟨_, rfl⟩, Or.inl ⟨hsome, List.forall_mem_cons.mpr
                ⟨fine_token, List.forall_mem_singleton.mpr (htypeSpec _ _)⟩⟩⟩
        | ok token' =>
            exact ⟨List.forall_mem_cons.mpr ⟨rfl, List.forall_mem_singleton.mpr rfl⟩,
              later_keep s _ token, ⟨_, rfl⟩, Or.inl ⟨hsome, List.forall_mem_cons.mpr
                ⟨fine_token, List.forall_mem_singleton.mpr (htypeSpec _ _)⟩⟩⟩

end ReturnTypes

/-! ## The locals -/

section Locals

variable {s : Session} {m : CallTargetMethod}

/-- A call that is made for the locals. -/
def Call.ForLocals (c : Call) : Prop := c.caller = .ModifyLocalSigAndInitialize

/-- The flags of a type. -/
theorem typeFlags_mem (type : List UInt8) : (GetTypeFlags type).1 ∈ [TypeFlagVoid, 0, 1, 4, 5] := by
  have hflag : ∀ isByRef : Bool,
      (if isByRef then TypeFlagByRef else 0) ∈ [TypeFlagVoid, 0, 1, 4, 5] ∧
        (if isByRef then TypeFlagByRef else 0) ||| TypeFlagBoxedType ∈ [TypeFlagVoid, 0, 1, 4, 5] := by
    decide
  rw [GetTypeFlags]
  split
  case isTrue => exact List.mem_cons_self
  case isFalse =>
    generalize (type.headD 0 == byRef) = isByRef
    dsimp only
    generalize (if isByRef = true then type.tail else type) = pbCur
    by_cases hboxed : boxedTypes.contains (pbCur.headD 0) = true
    · rw [if_pos hboxed]
      exact (hflag isByRef).2
    · rw [if_neg hboxed]
      by_cases hgeneric : (pbCur.headD 0 == genericInst && pbCur.tail.headD 0 == valueType) = true
      · rw [if_pos hgeneric]
        exact (hflag isByRef).2
      · rw [if_neg hgeneric]
        exact (hflag isByRef).1

/-- No other type has the flag of `void`. -/
theorem isVoid_iff (m : CallTargetMethod) :
    m.isVoid = true ↔ (GetTypeFlags m.ret.bytes).1 = TypeFlagVoid := by
  have hall : ∀ flags ∈ [TypeFlagVoid, 0, 1, 4, 5],
      decide (flags &&& TypeFlagVoid ≠ 0) = true ↔ flags = TypeFlagVoid := by
    decide
  exact hall _ (typeFlags_mem m.ret.bytes)

/-- An ordinary call for the locals. -/
theorem forLocals {α : Type} {x : Fallible α} {R : α → Session → Prop}
    (h : Judges Succeeded (Call.Ordinary .ModifyLocalSigAndInitialize) Keeps x s R) :
    Judges (Fine m.outside) Call.ForLocals Later x s fun a s' =>
      R a s' ∧ s'.tokens .callTargetReturnTypeRef = s.tokens .callTargetReturnTypeRef :=
  h.weaken (fun _ h => h.caller_eq) (fun _ h => h.fine_iff nofun) (fun _ h => h.toLater)
    fun _ _ hkept hR => ⟨hR, hkept.returnType⟩

/-- A method that has been rewritten is given up. -/
theorem judges_originalLocals :
    Judges (Fine m.outside) Call.ForLocals Later (originalLocals m) s fun locals s' =>
      s' = s ∧ (localsOf locals).length ≤ 0xFFFE := by
  refine Judges.bind Later.trans (R := fun a s' => a = s ∧ s' = s)
    (.of_done rfl (Later.refl s) ⟨rfl, rfl⟩) ?_
  rintro - - - ⟨rfl, rfl⟩
  split
  case isTrue => exact Judges.pure (Later.refl _) ⟨rfl, Nat.zero_le _⟩
  case isFalse =>
    refine Judges.ask_bind rfl (Later.refl _) (fun hr h => ?_) (fun stored hfine => ?_)
      fun stored hbad => ⟨E_FAIL, ?_⟩
    · exact absurd (fine_error_iff.mp h) (by simp [Call.matters, Request.isTypeSpec])
    · rw [if_neg (by rw [show isRewritten _ _ _ = false from hfine]; decide)]
      exact Judges.pure (Later.refl _) ⟨rfl, stored.property⟩
    · rw [if_pos (Bool.not_eq_false _ ▸ hbad)]

/-- The type of `CallTargetReturn<T>` is there if all went well, and only then. -/
def TypeFound (m : CallTargetMethod) (s : Session) : Prop :=
  m.isVoid = false → (s.tokens .callTargetReturnTypeRef).isSome = true

/-- Of a method that returns a value, the failure to define `CallTargetReturn<T>` is overlooked. -/
theorem warns_returnLocals (hs : s.Based) :
    Warns (Fine m.outside) Call.ForLocals Later (returnLocals m) s fun t r s' =>
      ((∀ e ∈ t, Fine m.outside e) ↔ TypeFound m s') ∧
        (r.returnSignatureType.isSome = true ↔ m.isVoid = false) ∧
          r.newLocalsCount = UInt32.ofNat (if m.isVoid then 3 else 4) := by
  by_cases hvoid : m.isVoid = true
  · rw [returnLocals, if_neg (not_not.mpr ((isVoid_iff m).mp hvoid))]
    refine Warns.bind Later.trans (Warns.lift (P := fun t _ _ => ∀ e ∈ t, Fine m.outside e) ?_) ?_
    · refine Procedure.Ensures.mono (ensures_getTargetVoidReturnTypeRef m.outside hs) ?_
      rintro t o s' ⟨hcalls, hkept, out, rfl⟩
      exact ⟨fun e he => (hcalls e he).1, hkept.toLater, out, rfl, fun e he => (hcalls e he).2⟩
    · intro t out s' _ hfine
      refine Warns.of_done rfl (Later.refl s') ⟨?_, ?_, ?_⟩
      · rw [List.append_nil]
        exact iff_of_true hfine fun h => absurd (hvoid.symm.trans h) (by decide)
      · exact iff_of_false nofun (by rw [hvoid]; decide)
      · rw [hvoid]
        rfl
  · rw [returnLocals, if_pos (fun h => hvoid ((isVoid_iff m).mpr h))]
    have hvalue := eq_false_of_ne_true hvoid
    refine Warns.bind Later.trans (Warns.lift (P := fun t _ s' =>
      (∀ e ∈ t, Fine m.outside e) ↔ TypeFound m s') ?_) ?_
    · refine Procedure.Ensures.mono
        (ensures_getTargetReturnValueTypeRef (m := m) m.outside hs nofun) ?_
      rintro t o s' ⟨hcalls, hkept, ⟨out, rfl⟩, ⟨hsome, hfine⟩ | ⟨hnone, scope, name, hr, rfl⟩⟩
      · exact ⟨hcalls, hkept, out, rfl, iff_of_true hfine fun _ => hsome⟩
      · refine ⟨hcalls, hkept, out, rfl, iff_of_false (fun hfine => ?_) fun h => ?_⟩
        · have hmatters := fine_error_iff.mp (hfine _ List.mem_cons_self)
          exact absurd hmatters (by simp [Call.matters, Request.isTypeSpec])
        · exact absurd (hnone.symm.trans (h hvalue)) (by decide)
    · intro t out s' _ hfound
      refine Warns.bind Later.trans (judges_failsWith (Judges.ask
        (S := fun _ s'' => s'' = s') rfl (Later.refl s') (fun hr h => ?_) (fun a => trivial)
          fun a => rfl)) ?_
      · exact absurd (fine_error_iff.mp h) (by simp [Call.matters, Request.isTypeSpec])
      · rintro t' signature s'' _ ⟨hfine, rfl⟩
        refine Warns.of_done rfl (Later.refl _) ⟨?_, iff_of_true rfl hvalue, ?_⟩
        · rw [List.append_nil, List.forall_mem_append, and_iff_left hfine]
          exact hfound
        · rw [hvalue]
          rfl

/-- The locals of a method can be counted. -/
theorem exists_oldLocals {locals : Option LocalVarSig} (hcount : (localsOf locals).length ≤ 0xFFFE)
    (isVoid : Bool) : ∃ o,
      oldLocals (signatureOf locals) (UInt32.ofNat (if isVoid then 3 else 4)) = .ok o ∧
        o.newLocalsCount = UInt32.ofNat ((localsOf locals).length + if isVoid then 3 else 4) := by
  have hadded : (if isVoid then 3 else 4) ≤ 4 := by
    cases isVoid with
    | true => decide
    | false => decide
  have hold := oldLocals_eq locals hadded
  generalize (if isVoid = true then 3 else 4) = added at hold hadded ⊢
  split at hold
  case h_1 hnone =>
    have hsome : (CorSigCompressData ((localsOf locals).length + added)).isSome = true := by
      rw [CorSigCompressData]
      split
      case isTrue => rfl
      case isFalse =>
        split
        case isTrue => rfl
        case isFalse =>
          rw [if_pos (by omega)]
          rfl
    rw [hnone] at hsome
    cases hsome
  case h_2 =>
    obtain ⟨o, ho, hreads⟩ := hold
    exact ⟨o, ho, hreads.count⟩

/-- The index of the return value is no index only if there is none. -/
theorem returnValueIndex_ne {count : Nat} (h : count ≤ 0xFFFE) :
    UInt32.ofNat (count + 4) - 4 ≠ ULONG_MAX := by
  intro heq
  have hnat := congrArg UInt32.toNat heq
  have hlt : count < UInt32.size := by
    show count < 2 ^ 32
    omega
  rw [UInt32.ofNat_add, show UInt32.ofNat 4 = 4 from rfl, UInt32.add_sub_cancel,
    UInt32.toNat_ofNat_of_lt' hlt] at hnat
  rw [hnat] at h
  exact absurd h (by decide)

/-- `ModifyLocalSig` fails exactly if an answer was not fine, but for the failure that it overlooks. -/
theorem warns_modifyLocalSig :
    Warns (Fine m.outside) Call.ForLocals Later (ModifyLocalSig m) s fun t sig s' =>
      ((∀ e ∈ t, Fine m.outside e) ↔ TypeFound m s') ∧ s'.Based ∧
        (sig.returnValueIndex ≠ ULONG_MAX ↔ m.isVoid = false) := by
  refine Warns.bind Later.trans (forLocals judges_base) ?_
  intro t₁ _ s₁ _ ⟨hfine₁, hbased, _⟩
  refine Warns.bind Later.trans judges_originalLocals ?_
  rintro t₂ locals s₂ _ ⟨hfine₂, rfl, hcount⟩
  refine Warns.bind Later.trans (warns_returnLocals hbased) ?_
  intro t₃ r s₃ hlater ⟨hfine₃, hret, hadded⟩
  obtain ⟨o, ho, hnew⟩ := exists_oldLocals hcount m.isVoid
  rw [hadded, ho]
  refine Warns.bind Later.trans (P := fun t _ s' => t = [] ∧ s' = s₃)
    (Warns.of_done rfl (Later.refl s₃) ⟨rfl, rfl⟩) ?_
  rintro _ a s₄ _ ⟨rfl, rfl⟩
  refine Warns.bind Later.trans (forLocals (judges_define not_kept nofun)) ?_
  intro t₄ token s₅ hlater₅ ⟨hfine₄, _, htype⟩
  refine Warns.of_done rfl ⟨⟨fun h => ⟨h.results, h.operands⟩, fun h => ⟨h.results, h.operands⟩⟩,
    fun _ h => h⟩ ⟨?_, ?_, ?_⟩
  · rw [List.append_nil, List.nil_append, List.forall_mem_append, List.forall_mem_append,
      List.forall_mem_append, and_iff_right hfine₁, and_iff_right hfine₂, and_iff_left hfine₄, hfine₃,
      TypeFound, TypeFound]
    exact imp_congr_right fun _ => by rw [← htype]
  · exact hlater₅.based (hlater.based hbased)
  · dsimp only
    cases hvoid : m.isVoid with
    | true =>
        rw [if_neg (fun h => absurd (hvoid.symm.trans (hret.mp h)) (by decide))]
        exact iff_of_false (fun h => h rfl) (by decide)
    | false =>
        rw [if_pos (hret.mpr hvoid), hnew, hvoid]
        exact iff_of_true (returnValueIndex_ne hcount) rfl

end Locals

/-! ## What is left behind -/

section Accounts

variable {s : Session} {m : CallTargetMethod} {refused : Prop}

/-- The caller looks at the result of the function that makes the call. -/
def Call.Checked (c : Call) : Prop := c.caller.checked = true

/-- A part of the rewriter that leaves behind whether an answer was not fine. -/
abbrev Answers {α : Type} (m : CallTargetMethod) (refused : Prop) (x : Rewrite α) (s : Session)
    (Q : α → Session → Prop) : Prop :=
  Accounts Session.Sound (Fine m.outside) Call.Checked refused x s Q

/-- A part of the rewriter that leaves a failure behind. -/
abbrev Spoils {α : Type} (m : CallTargetMethod) (refused : Prop) (x : Rewrite α) (s : Session)
    (Q : α → Session → Prop) : Prop :=
  Ruins Session.Sound (Fine m.outside) Call.Checked refused x s Q

theorem sound_note_true (s : Session) (f : Vital) : (s.note f true).Sound ↔ s.Sound := by
  constructor
  · exact fun h => ⟨fun r hr => h.results r (List.mem_append_left _ hr), h.operands⟩
  · exact fun h => ⟨List.forall_mem_append.mpr ⟨h.results, List.forall_mem_singleton.mpr rfl⟩,
      h.operands⟩

theorem not_sound_note_false (s : Session) (f : Vital) : ¬(s.note f false).Sound := by
  intro h
  have hfalse := h.results (f, false) (List.mem_append_right _ List.mem_cons_self)
  cases hfalse

/-- An instruction whose operands are assigned if nothing has failed. -/
theorem sound_insert (s : Session) (opcode arg : Nat) {operands : List Operand}
    (h : s.Sound → ∀ o ∈ operands, o.assigned = true) :
    (s.insert opcode arg operands).Sound ↔ s.Sound :=
  ⟨fun hs => ⟨hs.results, fun o ho => hs.operands o (List.mem_append_left _ ho)⟩,
    fun hs => ⟨hs.results, List.forall_mem_append.mpr ⟨hs.operands, h hs⟩⟩⟩

theorem answers_createInstr {opcode arg : Nat} {operands : List Operand}
    (h : s.Sound → ∀ o ∈ operands, o.assigned = true) :
    Answers m refused (CreateInstr opcode arg operands) s fun _ s' => s'.tokens = s.tokens :=
  Accounts.of_done rfl (sound_insert s opcode arg h) rfl

/-- An instruction with a local. -/
theorem answers_stLocal {index : Out UInt32} (h : s.Sound → index.assigned = true) :
    Answers m refused (StLocal index) s fun _ s' => s'.tokens = s.tokens :=
  answers_createInstr fun hs => List.forall_mem_singleton.mpr (h hs)

theorem answers_loadLocal {index : Out UInt32} (h : s.Sound → index.assigned = true) :
    Answers m refused (LoadLocal index) s fun _ s' => s'.tokens = s.tokens :=
  answers_createInstr fun hs => List.forall_mem_singleton.mpr (h hs)

theorem answers_loadLocalAddress {index : Out UInt32} (h : s.Sound → index.assigned = true) :
    Answers m refused (LoadLocalAddress index) s fun _ s' => s'.tokens = s.tokens := by
  rw [LoadLocalAddress]
  split
  case isTrue => exact answers_createInstr fun hs => List.forall_mem_singleton.mpr (h hs)
  case isFalse => exact answers_createInstr fun hs => List.forall_mem_singleton.mpr (h hs)

theorem answers_note_true {f : Vital} :
    Answers m refused (modify fun s => s.note f true : Rewrite PUnit) s fun _ s' =>
      s'.tokens = s.tokens :=
  Accounts.of_done rfl (sound_note_true s f) rfl

/-- A call that is made for the locals is not looked at. -/
theorem Call.Ordinary.not_checked {c : Call} {caller : Caller} (h : c.Ordinary caller)
    (hcaller : caller.checked = false) : ¬c.Checked := by
  rw [Call.Checked, h.caller_eq, hcaller]
  decide

/-- A default value that is not found is noted. -/
theorem answers_defaultValue {y : Fallible mdToken} {R : mdToken → Session → Prop}
    (h : Judges Succeeded (Call.Ordinary .ModifyLocalSigAndInitialize) Keeps y s R) :
    Answers m refused (defaultValue (returned y)) s fun _ s' =>
      (s.Based → s'.Based) ∧
        s'.tokens .callTargetReturnTypeRef = s.tokens .callTargetReturnTypeRef := by
  rw [defaultValue, returned, Procedure.bind_assoc]
  have hfine : Judges (Fine m.outside) (Call.Ordinary .ModifyLocalSigAndInitialize) Keeps y s R :=
    h.weaken (fun _ h => h) (fun _ h => h.fine_iff nofun) (fun _ h => h) fun _ _ _ h => h
  refine Accounts.of_kept hfine (fun c hc => hc.not_checked rfl) (fun _ hkept => hkept.sound) ?_ ?_
  · intro token s' hkept _
    refine Accounts.of_done rfl ?_ ⟨hkept.based, hkept.returnType⟩
    exact (sound_insert _ _ _ fun _ => List.forall_mem_singleton.mpr rfl).trans
      (sound_note_true s' _)
  · intro hr s' hkept
    refine Ruins.of_done rfl ?_ ⟨hkept.based, hkept.returnType⟩
    exact fun h => not_sound_note_false s' _ ⟨h.results, fun o ho =>
      h.operands o (List.mem_append_left _ ho)⟩

/-- The default of `CallTargetReturn<T>` is not found without the type. -/
theorem spoils_defaultValue {typeSpec : mdToken} (hs : s.Based)
    (hnone : (s.tokens .callTargetReturnTypeRef).isSome = false) :
    Spoils m refused (defaultValue
      (GetCallTargetReturnValueDefaultMemberRef .ModifyLocalSigAndInitialize typeSpec)) s
        fun _ _ => True := by
  have hrun : GetCallTargetReturnValueDefaultMemberRef .ModifyLocalSigAndInitialize typeSpec s =
      .done (some ⟨mdMemberRefNil, false⟩, s) := by
    change Script.bind (Script.bind ((EnsureBaseCalltargetTokens .ModifyLocalSigAndInitialize >>=
      fun _ => _ : Fallible mdToken).run s) _) _ = _
    rw [base_bind hs]
    change Script.bind (Script.bind ((if (s.tokens .callTargetReturnTypeRef).isNone then _ else _ :
      Fallible mdToken).run s) _) _ = _
    rw [if_pos (by rw [← Option.not_isSome, hnone]; rfl)]
    rfl
  have hdefault : ∃ s', defaultValue
      (GetCallTargetReturnValueDefaultMemberRef .ModifyLocalSigAndInitialize typeSpec) s =
        .done (some (s.rewriter.nInstrs + 1), s') ∧ ¬s'.Sound := by
    refine ⟨(s.note .DefaultValue false).insert 0x28 mdMemberRefNil.toNat
      [.memberRef ⟨mdMemberRefNil, false⟩], ?_, ?_⟩
    · change Script.bind (GetCallTargetReturnValueDefaultMemberRef _ typeSpec s) _ = _
      rw [hrun]
      rfl
    · exact fun h => not_sound_note_false s _ ⟨h.results, fun o ho =>
        h.operands o (List.mem_append_left _ ho)⟩
  obtain ⟨s', hdone, hunsound⟩ := hdefault
  exact Ruins.of_done hdone hunsound trivial

/-- The tokens of the default values. -/
theorem answers_defaultMethodSpec :
    Answers m refused
      (defaultValue (GetCallTargetDefaultValueMethodSpec .ModifyLocalSigAndInitialize m)) s
        fun _ s' => (s.Based → s'.Based) ∧
          s'.tokens .callTargetReturnTypeRef = s.tokens .callTargetReturnTypeRef := by
  refine answers_defaultValue (R := fun _ _ => True) ?_
  refine Judges.bind keeps_trans (judges_failsWith judges_base) fun _ s₁ _ _ => ?_
  refine Judges.bind keeps_trans (judges_ensure ⟨nofun, nofun⟩) fun _ s₂ _ _ => ?_
  refine judges_failsWith (Judges.bind keeps_trans (R := fun _ _ => True)
    (.of_done rfl (Keeps.refl s₂) trivial) fun _ s₃ _ _ => ?_)
  exact Judges.bind keeps_trans (judges_define not_kept nofun) fun _ s₄ _ _ =>
    Judges.pure (Keeps.refl s₄) trivial

theorem answers_voidDefault :
    Answers m refused
      (defaultValue (GetCallTargetReturnVoidDefaultMemberRef .ModifyLocalSigAndInitialize)) s
        fun _ s' => (s.Based → s'.Based) ∧
          s'.tokens .callTargetReturnTypeRef = s.tokens .callTargetReturnTypeRef := by
  refine answers_defaultValue (R := fun _ _ => True) (judges_failsWith ?_)
  refine Judges.bind keeps_trans judges_base fun _ s₁ _ _ => ?_
  refine Judges.bind keeps_trans (judges_ensure ⟨nofun, nofun⟩) fun _ s₂ _ _ => ?_
  exact .of_done rfl (Keeps.refl s₂) trivial

theorem answers_valueDefault {typeSpec : mdToken}
    (hsome : (s.tokens .callTargetReturnTypeRef).isSome = true) :
    Answers m refused (defaultValue
      (GetCallTargetReturnValueDefaultMemberRef .ModifyLocalSigAndInitialize typeSpec)) s
        fun _ s' => (s.Based → s'.Based) ∧
          s'.tokens .callTargetReturnTypeRef = s.tokens .callTargetReturnTypeRef := by
  refine answers_defaultValue (R := fun _ _ => True) (judges_failsWith ?_)
  refine Judges.bind keeps_trans judges_base fun _ s₁ hkept _ => ?_
  refine Judges.bind keeps_trans (R := fun a s' => a = s₁ ∧ s' = s₁)
    (.of_done rfl (Keeps.refl s₁) ⟨rfl, rfl⟩) ?_
  rintro _ s₂ _ ⟨rfl, rfl⟩
  have hthere : ¬(s₂.tokens .callTargetReturnTypeRef).isNone = true := by
    rw [← Option.not_isSome, hkept.returnType, hsome]
    decide
  rw [if_neg hthere]
  exact Judges.bind keeps_trans (judges_define not_kept nofun) fun _ s₃ _ _ =>
    Judges.pure (Keeps.refl s₃) trivial

/-- The locals are initialized if the type `CallTargetReturn<T>` is there. -/
theorem answers_initializeReturn {sig : LocalSig} (hfound : TypeFound m s)
    (hindex : sig.returnValueIndex ≠ ULONG_MAX ↔ m.isVoid = false) :
    Answers m refused (initializeReturn m sig) s fun _ _ => True := by
  rw [initializeReturn]
  split
  case isTrue hne =>
    refine Accounts.bind answers_defaultMethodSpec fun _ s₁ ⟨_, htype⟩ _ => ?_
    refine Accounts.bind (answers_stLocal fun _ => rfl) fun _ s₂ htokens _ => ?_
    refine Accounts.bind (answers_valueDefault ?_) fun _ s₃ _ _ => ?_
    · rw [htokens, htype]
      exact hfound (hindex.mp hne)
    · exact Accounts.bind (answers_stLocal fun _ => rfl) fun _ _ _ _ => Accounts.pure trivial
  case isFalse =>
    refine Accounts.bind answers_voidDefault fun _ s₁ _ _ => ?_
    exact Accounts.bind (answers_stLocal fun _ => rfl) fun _ _ _ _ => Accounts.pure trivial

/-- They are not if the type is missing, and that is left behind. -/
theorem spoils_initializeReturn {sig : LocalSig} (hs : s.Based) (hmissing : ¬TypeFound m s)
    (hindex : sig.returnValueIndex ≠ ULONG_MAX ↔ m.isVoid = false) :
    Spoils m refused (initializeReturn m sig) s fun _ _ => True := by
  obtain ⟨hvalue, hnone⟩ := Classical.not_imp.mp hmissing
  rw [initializeReturn, if_pos (hindex.mpr hvalue)]
  refine Accounts.bind_ruins answers_defaultMethodSpec fun _ s₁ ⟨hbased, htype⟩ => ?_
  refine Accounts.bind_ruins (answers_stLocal fun _ => rfl) fun _ s₂ htokens => ?_
  have hbased₂ : s₂.Based := fun slot hslot => by
    rw [htokens]
    exact hbased hs slot hslot
  have hnone₂ : (s₂.tokens .callTargetReturnTypeRef).isSome = false := by
    rw [htokens, htype]
    exact eq_false_of_ne_true hnone
  refine Ruins.bind (spoils_defaultValue hbased₂ hnone₂) fun _ s₃ _ _ => ?_
  exact Accounts.bind (answers_stLocal fun _ => rfl) fun _ _ _ _ => Accounts.pure trivial

/-- The locals are assigned, that of the return value if there is one. -/
structure Locals.Assigned (m : CallTargetMethod) (locals : Locals) : Prop where
  callTargetStateIndex : locals.callTargetStateIndex.assigned = true
  exceptionIndex : locals.exceptionIndex.assigned = true
  callTargetReturnIndex : locals.callTargetReturnIndex.assigned = true
  returnValueIndex : m.isVoid = false → locals.returnValueIndex.assigned = true
  firstInstruction : locals.firstInstruction.assigned = true

theorem answers_finishLocals {sig : LocalSig} (firstInstruction : InstrRef) (s : Session)
    (hindex : sig.returnValueIndex ≠ ULONG_MAX ↔ m.isVoid = false) :
    Answers m refused (finishLocals sig firstInstruction) s fun locals s' =>
      s'.Sound → locals.Assigned m := by
  refine Accounts.bind (answers_createInstr fun _ => List.forall_mem_nil _) fun _ s₁ _ _ => ?_
  refine Accounts.bind (answers_stLocal fun _ => rfl) fun _ s₂ _ _ => ?_
  refine Accounts.bind answers_note_true fun _ s₃ _ _ => ?_
  exact Accounts.pure fun _ =>
    ⟨rfl, rfl, rfl, fun hvalue => decide_eq_true (hindex.mpr hvalue), rfl⟩

/-- **Failures are overlooked** here, and are left behind in the state. -/
theorem answers_modifyLocalSigAndInitialize :
    Answers m refused (ModifyLocalSigAndInitialize m) s fun locals s' =>
      s'.Sound → locals.Assigned m := by
  refine Accounts.of_warns warns_modifyLocalSig (fun c hc h => ?_) (fun _ h => h.sound) ?_ ?_ ?_
  · rw [Call.Checked, hc] at h
    cases h
  · intro t sig s' _ ⟨hfine, _, hindex⟩ hall
    refine Accounts.bind (answers_initializeReturn (hfine.mp hall) hindex) fun first s₁ _ _ => ?_
    exact answers_finishLocals first s₁ hindex
  · intro t sig s' _ ⟨hfine, hbased, hindex⟩ hbad
    refine Ruins.bind (spoils_initializeReturn hbased (fun h => hbad (hfine.mpr h)) hindex) ?_
    exact fun first s₁ _ _ => answers_finishLocals first s₁ hindex
  · intro hr s' _
    refine Ruins.of_done rfl (not_sound_note_false s' _) fun h => ?_
    exact absurd h (not_sound_note_false s' _)

end Accounts

end DdTrace.Profiler.Rewriting
