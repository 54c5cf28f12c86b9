import Mathlib.Tactic.Common

/-!
# What duck typing asks of reflection

* `Reflection`: the types of the process, with what is documented of them.
* `underlying`, `needsDuckChaining`, `useDirectAccessTo`: the questions that decide what is emitted.
* `ParameterInfo`, `ProxyMethod`, `TargetMethod`, `ProxyMember`, `TargetProperty`, `TargetField`:
  the members of a proxy definition and of a target type.

Source: `DuckType.Utilities.cs`; `ILHelpersExtensions.cs`, `WriteTypeConversion`.
-/

namespace DdTrace.DuckTyping

/-- The types of the process but pointers. -/
structure Reflection (τ : Type) where
  /-- `typeof(object)`. -/
  object : τ
  /-- `typeof(void)`. -/
  void : τ
  /-- `typeof(IDuckType)`. -/
  iDuckType : τ
  /-- `Type.IsValueType`. -/
  isValueType : τ → Bool
  /-- `Type.IsEnum`. -/
  isEnum : τ → Bool
  /-- `Enum.GetUnderlyingType`. -/
  getUnderlyingType : τ → τ
  /-- `Type.IsGenericParameter`. -/
  isGenericParameter : τ → Bool
  /-- `Type.IsByRef`. -/
  isByRef : τ → Bool
  /-- `Type.GetElementType`, which is `null` for a type without elements. -/
  getElementType : τ → Option τ
  /-- `Type.MakeByRefType`. -/
  makeByRefType : τ → τ
  /-- `Type.IsAssignableFrom`. -/
  isAssignableFrom : τ → τ → Bool
  /-- `Type.IsPublic` or `Type.IsNestedPublic`. -/
  isPublic : τ → Bool
  /-- `Type.Module` is the module of `string`. -/
  inCoreModule : τ → Bool
  /-- The type has a `DuckCopyAttribute`. -/
  hasDuckCopy : τ → Bool
  /-- The assembly is the one for .NET Framework 4.5. -/
  net45 : Bool
  /-- `object` is a class. -/
  object_class : isValueType object = false ∧ isGenericParameter object = false ∧
    isByRef object = false
  /-- `object` is public. -/
  isPublic_object : isPublic object = true
  /-- All that is not a managed pointer is an `object`, boxed if it must be. -/
  isAssignableFrom_object (t : τ) : isByRef t = false → isAssignableFrom object t = true
  /-- Every type is assignable from itself. -/
  isAssignableFrom_refl (t : τ) : isAssignableFrom t t = true
  /-- `IDuckType` is an interface. -/
  iDuckType_class : isValueType iDuckType = false ∧ isGenericParameter iDuckType = false ∧
    isByRef iDuckType = false
  /-- `void` is a public structure, without the attribute. -/
  void_structure : isValueType void = true ∧ isPublic void = true ∧ hasDuckCopy void = false
  /-- An enumeration is a value type, and so is its underlying type, which is no enumeration. -/
  isEnum_spec (t : τ) : isEnum t = true → isValueType t = true ∧
    isValueType (getUnderlyingType t) = true ∧ isEnum (getUnderlyingType t) = false
  /-- A managed pointer is no value type. -/
  isByRef_spec (t : τ) : isByRef t = true →
    isValueType t = false ∧ isGenericParameter t = false ∧ getElementType t ≠ none
  /-- A managed pointer is the one to its elements. -/
  makeByRefType_spec (t : τ) :
    isByRef (makeByRefType t) = true ∧ getElementType (makeByRefType t) = some t
  /-- The attribute is for structures. -/
  hasDuckCopy_spec (t : τ) : hasDuckCopy t = true →
    isValueType t = true ∧ isEnum t = false ∧ isGenericParameter t = false
  /-- A generic parameter is no enumeration. -/
  isGenericParameter_spec (t : τ) : isGenericParameter t = true → isEnum t = false

namespace Reflection

variable {τ : Type} [DecidableEq τ] (r : Reflection τ)

/-- The underlying type of an enumeration, or else the type. -/
def underlying (t : τ) : τ := if r.isEnum t then r.getUnderlyingType t else t

/-- Source: `DuckType.Utilities.cs`, `NeedsDuckChaining` -/
def needsDuckChaining (targetType proxyType : τ) : Bool :=
  r.hasDuckCopy proxyType ||
    (proxyType ≠ targetType && !r.isValueType proxyType && !r.isGenericParameter proxyType &&
      !r.isAssignableFrom proxyType targetType && !r.inCoreModule proxyType)

/-- Source: `DuckType.Utilities.cs`, `UseDirectAccessTo` -/
def useDirectAccessTo (targetType : τ) : Bool := !r.net45 || r.isPublic targetType

end Reflection

/-! ## A process with interfaces only -/

/-- Its types, of which all but the first two are interfaces or references. -/
inductive SampleType
  | object
  | void
  | iDuckType
  | interface (name : String)
  | byRef (elementType : SampleType)
  deriving DecidableEq, Repr

/-- The type is a reference. -/
def SampleType.isByRef : SampleType → Bool
  | byRef _ => true
  | _ => false

/-- The type a reference refers to. -/
def SampleType.getElementType : SampleType → Option SampleType
  | byRef elementType => some elementType
  | _ => none

/-- Interfaces that have nothing to do with each other. -/
def sampleReflection : Reflection SampleType where
  object := .object
  void := .void
  iDuckType := .iDuckType
  isValueType t := t == .void
  isEnum _ := false
  getUnderlyingType t := t
  isGenericParameter _ := false
  isByRef := SampleType.isByRef
  getElementType := SampleType.getElementType
  makeByRefType := .byRef
  isAssignableFrom t t' := t == t' || (t == .object && !t'.isByRef)
  isPublic _ := true
  inCoreModule t := t == .object || t == .void
  hasDuckCopy _ := false
  net45 := false
  object_class := by decide
  isPublic_object := rfl
  isAssignableFrom_object t h := by simp [h]
  isAssignableFrom_refl t := by simp
  iDuckType_class := by decide
  void_structure := by decide
  isEnum_spec t h := by cases h
  isByRef_spec t h := by
    cases t with
    | byRef elementType => simp [SampleType.getElementType]
    | _ => cases h
  makeByRefType_spec t := ⟨rfl, rfl⟩
  hasDuckCopy_spec t h := by cases h
  isGenericParameter_spec t h := by cases h

/-! ## Members -/

/-- A parameter of a method. -/
structure ParameterInfo (τ : Type) where
  /-- `ParameterType`. -/
  parameterType : τ
  /-- `IsOut`. -/
  isOut : Bool
  /-- `IsIn`. -/
  isIn : Bool
  /-- `IsOptional`. -/
  isOptional : Bool
  deriving DecidableEq, Repr

/-- A method of a proxy definition. -/
structure ProxyMethod (τ : Type) where
  /-- Its parameters. -/
  parameters : List (ParameterInfo τ)
  /-- `ReturnType`. -/
  returnType : τ
  /-- It has generic arguments. -/
  isGeneric : Bool
  deriving DecidableEq, Repr

/-- What a call of a method needs. -/
structure Signature (τ : Type) where
  /-- `IsStatic`. -/
  isStatic : Bool
  /-- `DeclaringType`. -/
  declaringType : τ
  /-- The types of the parameters. -/
  parameterTypes : List τ
  /-- `ReturnType`. -/
  returnType : τ
  deriving DecidableEq, Repr

/-- The method of a target type that was selected, with the generic arguments of the attribute if
there are any. -/
structure TargetMethod (τ : Type) where
  /-- `IsStatic`. -/
  isStatic : Bool
  /-- `IsPublic`. -/
  isPublic : Bool
  /-- `IsGenericMethod`. -/
  isGenericMethod : Bool
  /-- `ContainsGenericParameters`. -/
  containsGenericParameters : Bool
  /-- It has a `DuckReverseMethodAttribute`. -/
  isReverse : Bool
  /-- `DeclaringType`. -/
  declaringType : τ
  /-- Its parameters. -/
  parameters : List (ParameterInfo τ)
  /-- `ReturnType`. -/
  returnType : τ
  /-- The types of the parameters after `MakeGenericMethod` with the generic arguments of the
  proxy. -/
  madeParameterTypes : List τ
  /-- The return type after it. -/
  madeReturnType : τ
  deriving DecidableEq, Repr

/-- A property or field of a proxy definition. -/
structure ProxyMember (τ : Type) where
  /-- `PropertyType` or `FieldType`. -/
  memberType : τ
  /-- The types of the index parameters, of which a field has none. -/
  indexTypes : List τ
  deriving DecidableEq, Repr

/-- A property of a target type. -/
structure TargetProperty (τ : Type) where
  /-- `PropertyType`. -/
  propertyType : τ
  /-- The types of the index parameters. -/
  indexTypes : List τ
  /-- `DeclaringType`. -/
  declaringType : τ
  /-- `IsStatic` of its methods. -/
  isStatic : Bool
  /-- `GetMethod.IsPublic`. -/
  getIsPublic : Bool
  /-- `SetMethod.IsPublic`. -/
  setIsPublic : Bool
  deriving DecidableEq, Repr

/-- A field of a target type. -/
structure TargetField (τ : Type) where
  /-- `FieldType`. -/
  fieldType : τ
  /-- `DeclaringType`. -/
  declaringType : τ
  /-- `IsStatic`. -/
  isStatic : Bool
  /-- `IsPublic`. -/
  isPublic : Bool
  /-- `FieldAttributes.InitOnly`. -/
  isInitOnly : Bool
  deriving DecidableEq, Repr

end DdTrace.DuckTyping
