import DdTrace.DuckTyping.Emit

/-!
# Typed code

The types of what is on the stack, followed through the code of a method from its first instruction
to its last. All branches lead forwards.

* `StackType`, `stackType`, `fits`: the types of stack entries, and where a value may be passed.
* `Frame`, `step`, `steps`: the rules.
* `Body.WellTyped`, `Emitted.WellTyped`: every instruction finds the operands it needs, and the
  return type is all that is left at the end.

A reference is what its last cast says. A short form stands for an index below 256 only; with a
larger one, the bytes behind the first are further instructions.

Source: `DuckType.Methods.cs`, `DuckType.Properties.cs`, `DuckType.Fields.cs` and
`ILHelpersExtensions.cs`, for the instructions that are emitted.
-/

namespace DdTrace.DuckTyping

/-- The type of an entry of the stack. -/
inductive StackType (τ : Type)
  /-- The proxy. -/
  | this
  /-- A reference to an object of a class, or of a class with an interface. -/
  | ref (type : τ)
  /-- A reference to a boxed value. -/
  | boxed (type : τ)
  /-- `null`. -/
  | null
  /-- A value. -/
  | value (type : τ)
  /-- A managed pointer. -/
  | address (type : τ)
  /-- The delegate of the dynamic method. -/
  | delegate
  /-- A number of 64 bits. -/
  | int64
  /-- A number of the size of a pointer. -/
  | nativeInt
  deriving DecidableEq, Repr

namespace StackType

variable {τ : Type}

/-- The entry is a reference to an object. -/
def isObject : StackType τ → Bool
  | ref _ => true
  | boxed _ => true
  | null => true
  | _ => false

end StackType

section Rules

variable {τ : Type} [DecidableEq τ] (r : Reflection τ)

/-- The type of an entry that is a value of a type. A value of an enumeration is one of its
underlying type. -/
def stackType (type : τ) : StackType τ :=
  if r.isByRef type then .address ((r.getElementType type).getD type)
  else if r.isValueType type || r.isGenericParameter type then .value (r.underlying type)
  else .ref type

/-- The entry may be passed where the type is expected. -/
def fits (entry : StackType τ) (type : τ) : Bool :=
  match entry, stackType r type with
  | .ref actual, .ref expected => r.isAssignableFrom expected actual
  | .boxed actual, .ref expected => r.isAssignableFrom expected actual
  | .null, .ref _ => true
  | entry, expected => entry = expected

/-- The type is one of references. -/
def isReference (type : τ) : Bool :=
  !r.isByRef type && !r.isValueType type && !r.isGenericParameter type

/-- What the rules know of a method. -/
structure Frame (τ : Type) where
  /-- Its arguments. -/
  arguments : List (StackType τ)
  /-- Its locals. -/
  locals : List τ
  /-- Its return type. -/
  returnType : τ
  /-- The type of the field with the instance. -/
  instanceType : τ

/-- The arguments are taken from the stack, the last one first. -/
def popArguments : List τ → List (StackType τ) → Option (List (StackType τ))
  | [], stack => some stack
  | type :: types, entry :: stack => if fits r entry type then popArguments types stack else none
  | _ :: _, [] => none

/-- The entry is an instance on which a method of the type may be called. A method of a value type
is called on a pointer to it, and never with `callvirt`. -/
def takesInstance (isVirtual : Bool) (entry : StackType τ) (declaringType : τ) : Bool :=
  if r.isValueType declaringType then !isVirtual && entry = .address declaringType
  else fits r entry declaringType

/-- The result is put onto the stack. -/
def pushResult (returnType : τ) (stack : List (StackType τ)) : List (StackType τ) :=
  if returnType = r.void then stack else stackType r returnType :: stack

/-- A call of the target. -/
def callEffect (isVirtual : Bool) (method : Signature τ) (stack : List (StackType τ)) :
    Option (List (StackType τ)) := do
  let stack ← popArguments r method.parameterTypes.reverse stack
  if method.isStatic then some (pushResult r method.returnType stack)
  else
    match stack with
    | entry :: stack =>
        if takesInstance r isVirtual entry method.declaringType then
          some (pushResult r method.returnType stack)
        else none
    | [] => none

/-- The rules for the instructions that do not branch. -/
def effect (f : Frame τ) : Instr τ → List (StackType τ) → Option (List (StackType τ))
  | .ldarg i, stack => f.arguments[i]?.map (· :: stack)
  | .ldargS i, stack => if i < 256 then f.arguments[i]?.map (· :: stack) else none
  | .ldloc i, stack => f.locals[i]?.map (stackType r · :: stack)
  | .ldlocS i, stack => if i < 256 then f.locals[i]?.map (stackType r · :: stack) else none
  | .stloc i, entry :: stack =>
      f.locals[i]?.bind fun type => if fits r entry type then some stack else none
  | .stlocS i, entry :: stack =>
      if i < 256 then
        f.locals[i]?.bind fun type => if fits r entry type then some stack else none
      else none
  | .ldlocaS i, stack => if i < 256 then f.locals[i]?.map (.address · :: stack) else none
  | .ldInstance, .this :: stack => some (stackType r f.instanceType :: stack)
  | .ldInstanceAddress, .this :: stack => some (.address f.instanceType :: stack)
  | .ldfld field, entry :: stack =>
      if takesInstance r false entry field.declaringType then
        some (stackType r field.fieldType :: stack)
      else none
  | .ldsfld field, stack => some (stackType r field.fieldType :: stack)
  | .stfld field, entry :: target :: stack =>
      if fits r entry field.fieldType ∧ takesInstance r false target field.declaringType then
        some stack
      else none
  | .stsfld field, entry :: stack => if fits r entry field.fieldType then some stack else none
  | .castclass type, entry :: stack =>
      if entry.isObject ∧ isReference r type then some (.ref type :: stack) else none
  | .isinst type, entry :: stack => if entry.isObject then some (.boxed type :: stack) else none
  | .box type, entry :: stack =>
      if r.isValueType type ∧ fits r entry type then some (.boxed type :: stack) else none
  | .unbox type, entry :: stack =>
      if r.isValueType type ∧ entry.isObject then some (.address type :: stack) else none
  | .unboxAny type, entry :: stack =>
      if r.isValueType type ∧ entry.isObject then some (stackType r type :: stack) else none
  | .dup, entry :: stack => some (entry :: entry :: stack)
  | .pop, _ :: stack => some stack
  | .ldnull, stack => some (.null :: stack)
  | .call method, stack => callEffect r false method stack
  | .callvirt method, stack => callEffect r true method stack
  | .ldcI8, stack => some (.int64 :: stack)
  | .convI, .int64 :: stack => some (.nativeInt :: stack)
  | .calli method, .nativeInt :: stack => callEffect r false method stack
  | .getInstance, entry :: stack =>
      if fits r entry r.iDuckType then some (.ref r.object :: stack) else none
  | .create type, entry :: stack =>
      if fits r entry r.object then some (stackType r type :: stack) else none
  | .getDelegate, stack => some (.delegate :: stack)
  | .invoke types returnType, stack =>
      match popArguments r types.reverse stack with
      | some (.delegate :: stack) => some (pushResult r returnType stack)
      | _ => none
  | .ldindRef, .address type :: stack =>
      if isReference r type then some (.ref type :: stack) else none
  | .stindRef, entry :: .address type :: stack =>
      if isReference r type ∧ fits r entry type then some stack else none
  | _, _ => none

/-- What is known between two instructions. -/
structure TypeState (τ : Type) where
  /-- The stack, unless this place is not reached. -/
  stack : Option (List (StackType τ))
  /-- The stacks at the labels that have been branched to. -/
  pending : List (Nat × List (StackType τ))

/-- Two ways lead to one place. -/
def mergeEntries : StackType τ → StackType τ → Option (StackType τ)
  | .null, .ref type => some (.ref type)
  | .ref type, .null => some (.ref type)
  | a, b => if a = b then some a else none

/-- Two ways lead to one place. -/
def mergeStacks : List (StackType τ) → List (StackType τ) → Option (List (StackType τ))
  | [], [] => some []
  | a :: as, b :: bs => do
      let entry ← mergeEntries a b
      let stack ← mergeStacks as bs
      pure (entry :: stack)
  | _, _ => none

/-- The stack at a label. -/
def takePending (label : Nat) :
    List (Nat × List (StackType τ)) → Option (List (StackType τ) × List (Nat × List (StackType τ)))
  | [] => none
  | (pending, stack) :: rest =>
      if pending = label then some (stack, rest)
      else (takePending label rest).map fun found => (found.1, (pending, stack) :: found.2)

/-- The rules. -/
def step (f : Frame τ) (s : TypeState τ) : Instr τ → Option (TypeState τ)
  | .brtrueS label =>
      match s.stack with
      | some (entry :: stack) =>
          if entry.isObject then some ⟨some stack, (label, stack) :: s.pending⟩ else none
      | _ => none
  | .brS label =>
      match s.stack with
      | some stack => some ⟨none, (label, stack) :: s.pending⟩
      | none => none
  | .markLabel label =>
      match takePending label s.pending with
      | some (stack, rest) =>
          match s.stack with
          | none => some ⟨some stack, rest⟩
          | some current => (mergeStacks current stack).map fun stack => ⟨some stack, rest⟩
      | none => none
  | .throwInvalidCast =>
      match s.stack with
      | some _ => some ⟨none, s.pending⟩
      | none => none
  | .ret =>
      match s.stack with
      | some stack =>
          if f.returnType = r.void then
            if stack = [] then some ⟨none, s.pending⟩ else none
          else
            match stack with
            | [entry] => if fits r entry f.returnType then some ⟨none, s.pending⟩ else none
            | _ => none
      | none => none
  | instr =>
      match s.stack with
      | some stack => (effect r f instr stack).map fun stack => ⟨some stack, s.pending⟩
      | none => none

/-- The rules, for a piece of code. -/
def steps (f : Frame τ) (s : TypeState τ) (code : List (Instr τ)) : Option (TypeState τ) :=
  code.foldlM (step r f) s

/-- What the rules know of a method body. -/
def Body.frame (body : Body τ) (instanceType : τ) : Frame τ where
  arguments := (if body.hasThis then [.this] else []) ++ body.parameterTypes.map (stackType r)
  locals := body.locals
  returnType := body.returnType
  instanceType := instanceType

/-- The code is followed to its end, which is not reached, and all its branches lead somewhere. -/
def Body.wellTyped (body : Body τ) (instanceType : τ) : Bool :=
  match steps r (body.frame r instanceType) ⟨some [], []⟩ body.code with
  | some ⟨none, []⟩ => true
  | _ => false

/-- The method of the proxy and the dynamic method are typed. -/
def Emitted.wellTyped (emitted : Emitted τ) (instanceType : τ) : Bool :=
  emitted.method.wellTyped r instanceType &&
    emitted.dynamicMethod.all fun body => body.wellTyped r instanceType

end Rules

end DdTrace.DuckTyping
