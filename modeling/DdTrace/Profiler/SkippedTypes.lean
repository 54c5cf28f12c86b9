import DdTrace.Lib.Skipping
import DdTrace.Profiler.TypeSignatures

/-!
# What the routine steps over, function pointers included

The parser of the native helpers has a grammar of its own. It differs from the one of the signature
format in two places: there is no `I` and no `U`, and the signature behind `FNPTR` has no calling
convention in front of the number of parameters, unless that is `GENERIC` and nothing else.

* `Skipped`: the grammar.
* `takes_parseTypeFuel`: the routine steps over the words of the grammar and over nothing else.
* `parseType_takes_iff`: the types that are stepped over.
* `skipped_bytes`: they include the types without `I` and `U` whose function pointers all have the
  calling convention `GENERIC`.

Source: `sig_helpers.cpp`
-/

namespace DdTrace.Profiler.SigHelpers

open DdTrace.Lib DdTrace.Lib.Skipping CorElementType

/-! ## The grammar -/

/-- The bytes of a number. -/
def Number (w : List UInt8) : Prop := ∃ n, Encodes w n

/-- A number, and as much as it says. -/
def Counted (L : Nat → List UInt8 → Prop) (w : List UInt8) : Prop :=
  ∃ n u v, w = u ++ v ∧ Encodes u n ∧ L n v

/-- The first byte of a modifier. -/
def IsMod (b : UInt8) : Prop := b = cmodOpt ∨ b = cmodReqd

instance (b : UInt8) : Decidable (IsMod b) := inferInstanceAs (Decidable (_ ∨ _))

/-- The first byte of a named type. -/
def IsClass (b : UInt8) : Prop := b = valueType ∨ b = class_

instance (b : UInt8) : Decidable (IsClass b) := inferInstanceAs (Decidable (_ ∨ _))

/-- The first byte of a type variable. -/
def IsVariable (b : UInt8) : Prop := b = var ∨ b = mVar

instance (b : UInt8) : Decidable (IsVariable b) := inferInstanceAs (Decidable (_ ∨ _))

/-- Modifiers. -/
inductive Mods : List UInt8 → Prop
  | nil : Mods []
  | cons {b : UInt8} {w v : List UInt8} : IsMod b → Number w → Mods v → Mods (b :: (w ++ v))

/-- The shape of an array: the rank, and the sizes and the lower bounds with their numbers. -/
def Shape : List UInt8 → Prop :=
  Concat Number (Counted fun n => Concat (Power Number n) (Counted (Power Number)))

/-- What stands in front of the return type of a function pointer, with the number of parameters. -/
def Arity (w : List UInt8) (n : Nat) : Prop :=
  (∃ u v, w = callConvGeneric :: (u ++ v) ∧ Number u ∧ Encodes v n) ∨
    (Encodes w n ∧ w.head? ≠ some callConvGeneric)

/-- The parts of a type. -/
inductive Part
  /-- A type. -/
  | type
  /-- So many types. -/
  | types (n : Nat)
  /-- A return type or a parameter. -/
  | slot (isRet : Bool)
  /-- So many parameters, where a sentinel may have been seen. -/
  | params (n : Nat) (seen : Bool)

/-- What the routine steps over. -/
inductive Skipped : Part → List UInt8 → Prop
  | oneByte {b : UInt8} : b ∈ oneByteTypes → Skipped .type [b]
  | ptr {m w : List UInt8} : Mods m → Skipped .type w → Skipped .type (ptr :: (m ++ w))
  | named {b : UInt8} {w : List UInt8} : IsClass b → Number w → Skipped .type (b :: w)
  | fnPtr {c r w : List UInt8} {n : Nat} : Arity c n → Skipped (.slot true) r →
      Skipped (.params n false) w → Skipped .type (fnPtr :: (c ++ (r ++ w)))
  | array {w s : List UInt8} : Skipped .type w → Shape s → Skipped .type (array :: (w ++ s))
  | szArray {m w : List UInt8} : Mods m → Skipped .type w → Skipped .type (szArray :: (m ++ w))
  | genericInst {b : UInt8} {w c v : List UInt8} {n : Nat} : IsClass b → Number w → Encodes c n →
      Skipped (.types n) v → Skipped .type (genericInst :: b :: (w ++ (c ++ v)))
  | typeVariable {b : UInt8} {w : List UInt8} : IsVariable b → Number w →
      Skipped .type (b :: w)
  | noTypes : Skipped (.types 0) []
  | types {n : Nat} {w v : List UInt8} : Skipped .type w → Skipped (.types n) v →
      Skipped (.types (n + 1)) (w ++ v)
  | typedByRef {isRet : Bool} {m : List UInt8} : Mods m → Skipped (.slot isRet) (m ++ [typedByRef])
  | void {m : List UInt8} : Mods m → Skipped (.slot true) (m ++ [void])
  | value {isRet : Bool} {m w : List UInt8} : Mods m → Skipped .type w →
      Skipped (.slot isRet) (m ++ w)
  | reference {isRet : Bool} {m w : List UInt8} : Mods m → Skipped .type w →
      Skipped (.slot isRet) (m ++ byRef :: w)
  | noParams {seen : Bool} : Skipped (.params 0 seen) []
  | params {n : Nat} {seen : Bool} {w v : List UInt8} : Skipped (.slot false) w →
      Skipped (.params n seen) v → Skipped (.params (n + 1) seen) (w ++ v)
  | sentinel {n : Nat} {w v : List UInt8} : Skipped (.slot false) w → Skipped (.params n true) v →
      Skipped (.params (n + 1) false) (CorElementType.sentinel :: (w ++ v))

/-! ## The cases of the grammar -/

/-- What follows `FNPTR`. -/
def Method (v : List UInt8) : Prop :=
  ∃ c r w n, v = c ++ (r ++ w) ∧ Arity c n ∧ Skipped (.slot true) r ∧ Skipped (.params n false) w

/-- What follows `GENERICINST`. -/
def Instance (v : List UInt8) : Prop :=
  ∃ b u, v = b :: u ∧ IsClass b ∧ Concat Number (Counted fun n => Skipped (.types n)) u

/-- What follows the first byte of a type. -/
def Tail (e : UInt8) (v : List UInt8) : Prop :=
  if e ∈ oneByteTypes then v = []
  else if e = ptr then Concat Mods (Skipped .type) v
  else if IsClass e then Number v
  else if e = fnPtr then Method v
  else if e = array then Concat (Skipped .type) Shape v
  else if e = szArray then Concat Mods (Skipped .type) v
  else if e = genericInst then Instance v
  else if IsVariable e then Number v
  else False

/-- A type behind its first byte. -/
theorem skipped_cons_iff {e : UInt8} {v : List UInt8} : Skipped .type (e :: v) ↔ Tail e v := by
  constructor
  · intro h
    cases h with
    | oneByte h => exact (if_pos h).mpr rfl
    | ptr hm hw => exact ⟨_, _, rfl, hm, hw⟩
    | named hb hw =>
        rcases hb with rfl | rfl
        · exact hw
        · exact hw
    | fnPtr hc hr hw => exact ⟨_, _, _, _, rfl, hc, hr, hw⟩
    | array hw hs => exact ⟨_, _, rfl, hw, hs⟩
    | szArray hm hw => exact ⟨_, _, rfl, hm, hw⟩
    | genericInst hb hw hc hv => exact ⟨_, _, rfl, hb, _, _, rfl, hw, _, _, _, rfl, hc, hv⟩
    | typeVariable hb hw =>
        rcases hb with rfl | rfl
        · exact hw
        · exact hw
  · unfold Tail
    split_ifs with hone hptr hclass hfnPtr harray hszArray hgeneric hvariable
    · rintro rfl
      exact .oneByte hone
    · rintro ⟨m, w, rfl, hm, hw⟩
      exact hptr ▸ .ptr hm hw
    · exact .named hclass
    · rintro ⟨c, r, w, n, rfl, hc, hr, hw⟩
      exact hfnPtr ▸ .fnPtr hc hr hw
    · rintro ⟨w, s, rfl, hw, hs⟩
      exact harray ▸ .array hw hs
    · rintro ⟨m, w, rfl, hm, hw⟩
      exact hszArray ▸ .szArray hm hw
    · rintro ⟨b, u, rfl, hb, w, u, rfl, hw, n, c, v, rfl, hc, hv⟩
      exact hgeneric ▸ .genericInst hb hw hc hv
    · exact .typeVariable hvariable
    · exact False.elim

theorem not_skipped_nil : ¬Skipped .type [] := by
  intro h
  cases h

/-- A byte that other routines look for is not the first one of a type. -/
theorem not_skipped_cons {e : UInt8} (v : List UInt8)
    (h : IsMod e ∨ e = typedByRef ∨ e = byRef ∨ e = CorElementType.sentinel) :
    ¬Skipped .type (e :: v) := by
  rw [skipped_cons_iff]
  rcases h with (rfl | rfl) | rfl | rfl | rfl
  all_goals exact id

theorem skipped_void_iff {v : List UInt8} : Skipped .type (CorElementType.void :: v) ↔ v = [] :=
  skipped_cons_iff

/-- A type, or a reference to one. -/
def ByRefType (w : List UInt8) : Prop := Skipped .type w ∨ ∃ v, w = byRef :: v ∧ Skipped .type v

theorem not_byRefType_nil : ¬ByRefType [] := by
  rintro (hnil | ⟨v, hv, -⟩)
  · exact not_skipped_nil hnil
  · cases hv

/-- What a return type or a parameter is behind its modifiers. -/
def Core (isRet : Bool) (w : List UInt8) : Prop :=
  w = [CorElementType.typedByRef] ∨ (isRet = true ∧ w = [CorElementType.void]) ∨ ByRefType w

theorem skipped_slot_iff {isRet : Bool} {w : List UInt8} :
    Skipped (.slot isRet) w ↔ Concat Mods (Core isRet) w := by
  constructor
  · intro h
    cases h with
    | typedByRef hm => exact ⟨_, _, rfl, hm, .inl rfl⟩
    | void hm => exact ⟨_, _, rfl, hm, .inr (.inl ⟨rfl, rfl⟩)⟩
    | value hm hw => exact ⟨_, _, rfl, hm, .inr (.inr (.inl hw))⟩
    | reference hm hw => exact ⟨_, _, rfl, hm, .inr (.inr (.inr ⟨_, rfl, hw⟩))⟩
  · rintro ⟨m, _, rfl, hm, rfl | ⟨rfl, rfl⟩ | hw | ⟨w, rfl, hw⟩⟩
    · exact .typedByRef hm
    · exact .void hm
    · exact .value hm hw
    · exact .reference hm hw

theorem skipped_types_iff {n : Nat} {w : List UInt8} :
    Skipped (.types n) w ↔ Power (Skipped .type) n w := by
  induction n generalizing w with
  | zero =>
      constructor
      · intro h
        cases h
        rfl
      · rintro rfl
        exact .noTypes
  | succ n ih =>
      constructor
      · intro h
        cases h with
        | types hw hv => exact ⟨_, _, rfl, hw, ih.mp hv⟩
      · rintro ⟨u, v, rfl, hu, hv⟩
        exact .types hu (ih.mpr hv)

theorem skipped_noParams_iff {seen : Bool} {w : List UInt8} :
    Skipped (.params 0 seen) w ↔ w = [] := by
  constructor
  · intro h
    cases h
    rfl
  · rintro rfl
    exact .noParams

theorem skipped_params_iff {k : Nat} {seen : Bool} {w : List UInt8} :
    Skipped (.params (k + 1) seen) w ↔
      Concat (Skipped (.slot false)) (Skipped (.params k seen)) w ∨
        (seen = false ∧ ∃ v, w = CorElementType.sentinel :: v ∧
          Concat (Skipped (.slot false)) (Skipped (.params k true)) v) := by
  constructor
  · intro h
    cases h with
    | params hx hy => exact .inl ⟨_, _, rfl, hx, hy⟩
    | sentinel hx hy => exact .inr ⟨rfl, _, rfl, _, _, rfl, hx, hy⟩
  · rintro (⟨x, y, rfl, hx, hy⟩ | ⟨rfl, _, rfl, x, y, rfl, hx, hy⟩)
    · exact .params hx hy
    · exact .sentinel hx hy

/-! ## Numbers and modifiers -/

/-- What is read as a number is the bytes of it. -/
theorem exists_encodes_of_uncompress {m : List UInt8} {n k : Nat}
    (h : CorSigUncompressData m = some (n, k)) :
    ∃ w rest, m = w ++ rest ∧ Encodes w n ∧ w.length = k := by
  have hsecond : ∀ b : UInt8, b &&& 0xC0 = 0x80 → 0x80 ≤ b ∧ b < 0xC0 :=
    forall_byte (by decide +kernel)
  have hthird : ∀ b : UInt8, b &&& 0xE0 = 0xC0 → 0xC0 ≤ b ∧ b < 0xE0 :=
    forall_byte (by decide +kernel)
  have hread {w rest : List UInt8} {n' : Nat} (hm : m = w ++ rest) (hw : Encodes w n') :
      ∃ w rest, m = w ++ rest ∧ Encodes w n ∧ w.length = k := by
    rw [hm, uncompress_of_encodes hw] at h
    obtain ⟨rfl, rfl⟩ := Prod.mk.inj (Option.some.inj h)
    exact ⟨w, rest, hm, hw, rfl⟩
  cases m with
  | nil => cases h
  | cons b m =>
      rw [CorSigUncompressData.eq_def] at h
      dsimp only at h
      split_ifs at h with hone htwo hfour
      · exact hread (w := [b]) rfl (.one b ((oneByte_iff b).mp hone))
      · rcases m with _ | ⟨b₂, m⟩
        · cases h
        · obtain ⟨hle, hlt⟩ := hsecond b htwo
          exact hread (w := [b, b₂]) rfl (.two b b₂ hle hlt)
      · rcases m with _ | ⟨b₂, _ | ⟨b₃, _ | ⟨b₄, m⟩⟩⟩
        · cases h
        · cases h
        · cases h
        · obtain ⟨hle, hlt⟩ := hthird b hfour
          exact hread (w := [b, b₂, b₃, b₄]) rfl (.four b b₂ b₃ b₄ hle hlt)

/-- **A number** is stepped over. -/
theorem parseNumber_eq_ok_iff {m m' : List UInt8} {n : Nat} :
    parseNumber m = .ok (n, m') ↔ ∃ w, m = w ++ m' ∧ Encodes w n := by
  constructor
  · intro h
    cases m with
    | nil => cases h
    | cons b m =>
        rw [parseNumber] at h
        cases hdata : CorSigUncompressData (b :: m) with
        | none =>
            rw [hdata] at h
            simp only at h
            split at h <;> cases h
        | some r =>
            rw [hdata] at h
            obtain ⟨rfl, rfl⟩ := Prod.mk.inj (Except.ok.inj h)
            obtain ⟨w, rest, hm, hw, hk⟩ := exists_encodes_of_uncompress hdata
            refine ⟨w, ?_, hw⟩
            rw [hm, ← hk, List.drop_left]
  · rintro ⟨w, rfl, hw⟩
    exact parseNumber_append hw m'

variable {n : Nat} {parse next : List UInt8 → Except Stop (List UInt8)} {L K : List UInt8 → Prop}

/-- What a number is followed by. -/
theorem takes_parseNumber_bind {f : Nat → List UInt8 → Except Stop (List UInt8)}
    {L : Nat → List UInt8 → Prop} (h : ∀ k, Skipping.Takes n (f k) (L k)) :
    Skipping.Takes n (fun m => (parseNumber m).bind fun r => f r.1 r.2) (Counted L) := by
  intro m m'' hm
  dsimp only
  constructor
  · intro hbind
    cases hnumber : parseNumber m with
    | error s =>
        rw [hnumber] at hbind
        cases hbind
    | ok r =>
        rw [hnumber] at hbind
        obtain ⟨u, rfl, hu⟩ := parseNumber_eq_ok_iff.mp hnumber
        rw [List.length_append] at hm
        obtain ⟨v, hv, hL⟩ := (h r.1 r.2 m'' (by omega)).mp hbind
        refine ⟨u ++ v, ?_, r.1, u, v, rfl, hu, hL⟩
        rw [List.append_assoc, ← hv]
  · rintro ⟨_, rfl, k, u, v, rfl, hu, hL⟩
    rw [List.append_assoc, List.length_append] at hm
    rw [List.append_assoc, parseNumber_eq_ok_iff.mpr ⟨u, rfl, hu⟩]
    exact (h k (v ++ m'') m'' (Nat.le_trans (Nat.le_add_left _ _) hm)).mpr ⟨v, rfl, hL⟩

theorem takes_number : Skipping.Takes n (fun m => (parseNumber m).map Prod.snd) Number := by
  have heq : (fun m => (parseNumber m).map Prod.snd) =
      fun m => (parseNumber m).bind fun r => .ok r.2 := by
    funext m
    cases parseNumber m with
    | error s => rfl
    | ok r => rfl
  rw [heq]
  refine (takes_parseNumber_bind (f := fun _ m => .ok m) fun _ =>
    Skipping.Takes.ok).congr fun w => ?_
  constructor
  · rintro ⟨k, u, v, rfl, hu, rfl⟩
    exact ⟨k, (List.append_nil u).symm ▸ hu⟩
  · rintro ⟨k, hw⟩
    exact ⟨k, w, [], (List.append_nil w).symm, hw, rfl⟩

theorem parseMany_eq_many (parse : List UInt8 → Except Stop (List UInt8)) (k : Nat) :
    parseMany parse k = Skipping.many parse k := by
  induction k with
  | zero => rfl
  | succ k ih =>
      funext m
      rw [parseMany, ih]
      rfl

theorem takes_parseMany (h : Skipping.Takes n parse L) (k : Nat) :
    Skipping.Takes n (parseMany parse k) (Power L k) := by
  rw [parseMany_eq_many]
  exact h.many k

/-- What modifiers are followed by, if that does not begin like a modifier. -/
theorem takes_mods_bind (hK : ¬K []) (hmod : ∀ b v, IsMod b → ¬K (b :: v))
    (hnext : Skipping.Takes n next K) {fuel : Nat} (hfuel : n < fuel) :
    Skipping.Takes n (fun m => (parseOptionalCustomMods fuel m).bind next) (Concat Mods K) := by
  have hnil : ¬Concat Mods K [] := by
    rintro ⟨u, v, huv, -, hv⟩
    rw [(List.append_eq_nil_iff.mp huv.symm).2] at hv
    exact hK hv
  have htrue (b : UInt8) (v : List UInt8) (hb : IsMod b) :
      Concat Mods K (b :: v) ↔ Concat Number (Concat Mods K) v := by
    constructor
    · rintro ⟨u, w, hv, hu, hw⟩
      cases hu with
      | nil =>
          rw [List.nil_append] at hv
          exact absurd (hv ▸ hw) (hmod b v hb)
      | cons hc hx hy =>
          obtain ⟨rfl, rfl⟩ := List.cons.inj hv
          exact ⟨_, _, List.append_assoc _ _ _, hx, _, _, rfl, hy, hw⟩
    · rintro ⟨x, _, rfl, hx, y, w, rfl, hy, hw⟩
      refine ⟨b :: (x ++ y), w, ?_, .cons hb hx hy, hw⟩
      rw [List.cons_append, List.append_assoc]
  have hfalse (b : UInt8) (v : List UInt8) (hb : ¬IsMod b) :
      Concat Mods K (b :: v) ↔ K (b :: v) := by
    constructor
    · rintro ⟨u, w, hv, hu, hw⟩
      cases hu with
      | nil => exact hv ▸ hw
      | cons hc hx hy =>
          obtain ⟨rfl, -⟩ := List.cons.inj hv
          exact absurd hc hb
    · intro h
      exact ⟨[], b :: v, rfl, .nil, h⟩
  induction fuel generalizing n with
  | zero => exact absurd hfuel (Nat.not_lt_zero n)
  | succ fuel ih =>
      refine Skipping.Takes.orElse (c := IsMod) hnil hK
        (f := fun m => (parseTypeDefOrRefEncoded m).bind fun m =>
          (parseOptionalCustomMods fuel m).bind next) (fun k hk => ?_) hnext htrue hfalse
        (e := .fault) rfl fun b rest => ?_
      · exact takes_number.bind (ih (hnext.mono (Nat.le_of_lt hk)) (by omega))
      · rw [parseOptionalCustomMods]
        by_cases hb : IsMod b
        · rw [if_pos (show b = cmodOpt ∨ b = cmodReqd from hb), if_pos hb]
          cases parseTypeDefOrRefEncoded rest with
          | error s => rfl
          | ok m => rfl
        · rw [if_neg (show ¬(b = cmodOpt ∨ b = cmodReqd) from hb), if_neg hb]
          rfl

theorem takes_parseArrayShape : Skipping.Takes n parseArrayShape Shape := by
  have hbounds : Skipping.Takes n (fun m => (parseNumber m).bind fun r =>
      parseMany (fun m => (parseNumber m).map Prod.snd) r.1 r.2) (Counted (Power Number)) :=
    takes_parseNumber_bind fun k => takes_parseMany takes_number k
  have hsizes := takes_parseNumber_bind (n := n) fun k =>
    (takes_parseMany takes_number k).bind hbounds
  refine (takes_parseNumber_bind fun _ => hsizes).congr fun w => ?_
  constructor
  · rintro ⟨k, u, v, rfl, hu, hv⟩
    exact ⟨u, v, rfl, ⟨k, hu⟩, hv⟩
  · rintro ⟨u, v, rfl, ⟨k, hu⟩, hv⟩
    exact ⟨k, u, v, rfl, hu, hv⟩

/-! ## Return types and parameters -/

section routines

variable (h : Skipping.Takes n parse (Skipped .type))

include h

theorem takes_parseByRefType : Skipping.Takes n (parseByRefType parse) ByRefType := by
  refine Skipping.Takes.orElse (c := (· = byRef)) not_byRefType_nil not_skipped_nil
    (fun k hk => h.mono (Nat.le_of_lt hk)) h ?_ ?_ (e := .fault) rfl fun b rest => rfl
  · rintro b v rfl
    constructor
    · rintro (hw | ⟨w, hw, hskipped⟩)
      · exact absurd hw (not_skipped_cons v (.inr (.inr (.inl rfl))))
      · obtain ⟨-, rfl⟩ := List.cons.inj hw
        exact hskipped
    · exact fun hv => .inr ⟨v, rfl, hv⟩
  · intro b v hb
    refine or_iff_left ?_
    rintro ⟨w, hw, -⟩
    exact hb (List.cons.inj hw).1

omit h in
theorem not_core_nil {isRet : Bool} : ¬Core isRet [] := by
  rintro (hnil | ⟨-, hnil⟩ | hnil)
  · cases hnil
  · cases hnil
  · exact not_byRefType_nil hnil

omit h in
theorem core_cons_typedByRef {isRet : Bool} {v : List UInt8} :
    Core isRet (CorElementType.typedByRef :: v) ↔ v = [] := by
  constructor
  · rintro (hv | ⟨-, hv⟩ | hv | ⟨w, hv, -⟩)
    · exact (List.cons.inj hv).2
    · exact (List.cons.inj hv).2
    · exact absurd hv (not_skipped_cons v (.inr (.inl rfl)))
    · exact absurd (List.cons.inj hv).1 (by decide)
  · rintro rfl
    exact .inl rfl

omit h in
theorem not_core_mod {isRet : Bool} (b : UInt8) (v : List UInt8) (hb : IsMod b) :
    ¬Core isRet (b :: v) := by
  have hne : b ≠ CorElementType.typedByRef ∧ b ≠ CorElementType.void ∧ b ≠ byRef := by
    rcases hb with rfl | rfl
    all_goals decide
  rintro (hv | ⟨-, hv⟩ | hv | ⟨w, hv, -⟩)
  · exact hne.1 (List.cons.inj hv).1
  · exact hne.2.1 (List.cons.inj hv).1
  · exact not_skipped_cons v (.inl hb) hv
  · exact hne.2.2 (List.cons.inj hv).1

variable {fuel : Nat} (hfuel : n < fuel)

include hfuel

theorem takes_parseRetType : Skipping.Takes n (parseRetType parse fuel) (Skipped (.slot true)) := by
  have hcore : ∀ {f : List UInt8 → Except Stop (List UInt8)}, f [] = .error .fault →
      (∀ b rest, f (b :: rest) =
        if b = typedByRef ∨ b = void then .ok rest else parseByRefType parse (b :: rest)) →
      Skipping.Takes n f (Core true) := by
    intro f hnil hcons
    refine Skipping.Takes.orElse (c := fun b => b = typedByRef ∨ b = void) not_core_nil
      not_byRefType_nil (fun k _ => Skipping.Takes.ok) (takes_parseByRefType h) ?_ ?_ hnil hcons
    · rintro b v (rfl | rfl)
      · exact core_cons_typedByRef
      · constructor
        · rintro (hv | ⟨-, hv⟩ | hv | ⟨w, hv, -⟩)
          · exact (List.cons.inj hv).2
          · exact (List.cons.inj hv).2
          · exact skipped_void_iff.mp hv
          · exact absurd (List.cons.inj hv).1 (by decide)
        · rintro rfl
          exact .inr (.inl ⟨rfl, rfl⟩)
    · intro b v hb
      rw [not_or] at hb
      constructor
      · rintro (hv | ⟨-, hv⟩ | hv)
        · exact absurd (List.cons.inj hv).1 hb.1
        · exact absurd (List.cons.inj hv).1 hb.2
        · exact hv
      · exact fun hv => .inr (.inr hv)
  exact Skipping.Takes.congr (takes_mods_bind not_core_nil not_core_mod
    (hcore rfl fun b rest => rfl) hfuel) fun w => skipped_slot_iff.symm

theorem takes_parseParam : Skipping.Takes n (parseParam parse fuel) (Skipped (.slot false)) := by
  have hcore : ∀ {f : List UInt8 → Except Stop (List UInt8)}, f [] = .error .fault →
      (∀ b rest, f (b :: rest) =
        if b = typedByRef then .ok rest else parseByRefType parse (b :: rest)) →
      Skipping.Takes n f (Core false) := by
    intro f hnil hcons
    refine Skipping.Takes.orElse (c := fun b => b = typedByRef) not_core_nil not_byRefType_nil
      (fun k _ => Skipping.Takes.ok) (takes_parseByRefType h) ?_ ?_ hnil hcons
    · rintro b v rfl
      exact core_cons_typedByRef
    · intro b v hb
      constructor
      · rintro (hv | ⟨hret, -⟩ | hv)
        · exact absurd (List.cons.inj hv).1 hb
        · cases hret
        · exact hv
      · exact fun hv => .inr (.inr hv)
  exact Skipping.Takes.congr (takes_mods_bind not_core_nil not_core_mod
    (hcore rfl fun b rest => rfl) hfuel) fun w => skipped_slot_iff.symm

omit h hfuel in
theorem not_skipped_slot_nil {isRet : Bool} : ¬Skipped (.slot isRet) [] := by
  rw [skipped_slot_iff]
  rintro ⟨u, v, huv, -, hv⟩
  rw [(List.append_eq_nil_iff.mp huv.symm).2] at hv
  exact not_core_nil hv

omit h hfuel in
/-- No parameter begins like a sentinel. -/
theorem not_skipped_slot_sentinel {isRet : Bool} (v : List UInt8) :
    ¬Skipped (.slot isRet) (CorElementType.sentinel :: v) := by
  rw [skipped_slot_iff]
  rintro ⟨u, w, hv, hu, hw⟩
  cases hu with
  | nil =>
      rw [List.nil_append] at hv
      rw [← hv] at hw
      rcases hw with hw | ⟨-, hw⟩ | hw | ⟨w, hw, -⟩
      · exact absurd (List.cons.inj hw).1 (by decide)
      · exact absurd (List.cons.inj hw).1 (by decide)
      · exact not_skipped_cons v (.inr (.inr (.inr rfl))) hw
      · exact absurd (List.cons.inj hw).1 (by decide)
  | cons hb _ _ => exact absurd ((List.cons.inj hv).1 ▸ hb) (by decide)

omit h hfuel in
/-- Parameters begin with a parameter. -/
theorem not_concat_slot {K : List UInt8 → Prop} :
    ¬Concat (Skipped (.slot false)) K [] ∧
      ∀ v, ¬Concat (Skipped (.slot false)) K (CorElementType.sentinel :: v) := by
  constructor
  · rintro ⟨x, y, hxy, hx, -⟩
    rw [(List.append_eq_nil_iff.mp hxy.symm).1] at hx
    exact not_skipped_slot_nil hx
  · rintro v ⟨x, y, hxy, hx, -⟩
    rcases x with _ | ⟨b, x⟩
    · exact not_skipped_slot_nil hx
    · obtain ⟨rfl, -⟩ := List.cons.inj hxy
      exact not_skipped_slot_sentinel x hx

theorem takes_parseParams (k : Nat) (seen : Bool) :
    Skipping.Takes n (parseParams parse fuel k seen) (Skipped (.params k seen)) := by
  induction k generalizing seen with
  | zero => exact Skipping.Takes.ok.congr fun w => skipped_noParams_iff.symm
  | succ k ih =>
      have hparam := takes_parseParam h hfuel
      have hbehind : Skipping.Takes n (fun rest => if seen = true then .error .returnsFalse
          else (parseParam parse fuel rest).bind (parseParams parse fuel k true))
          (fun v => if seen = true then False
            else Concat (Skipped (.slot false)) (Skipped (.params k true)) v) :=
        Skipping.Takes.ite (Skipping.Takes.error _) (hparam.bind (ih true))
      refine Skipping.Takes.orElse (c := fun b => b = CorElementType.sentinel) ?_ not_concat_slot.1
        (fun j hj => hbehind.mono (Nat.le_of_lt hj)) (hparam.bind (ih seen)) ?_ ?_ (e := .fault)
        rfl fun b rest => rfl
      · rw [skipped_params_iff]
        rintro (hnil | ⟨-, v, hv, -⟩)
        · exact not_concat_slot.1 hnil
        · cases hv
      · rintro b v rfl
        rw [skipped_params_iff, or_iff_right (not_concat_slot.2 v)]
        cases seen with
        | true => exact iff_of_false (fun hv => Bool.noConfusion hv.1) id
        | false =>
            constructor
            · rintro ⟨-, w, hw, hparams⟩
              obtain ⟨-, rfl⟩ := List.cons.inj hw
              exact hparams
            · exact fun hparams => ⟨rfl, v, rfl, hparams⟩
      · intro b v hb
        rw [skipped_params_iff]
        refine or_iff_left ?_
        rintro ⟨-, w, hw, -⟩
        exact hb (List.cons.inj hw).1

/-- What follows the arity of a function pointer. -/
theorem takes_parseMethod : Skipping.Takes n (parseMethod parse fuel) Method := by
  have hcount : Skipping.Takes n (fun m => (parseNumber m).bind fun r =>
      (parseRetType parse fuel r.2).bind (parseParams parse fuel r.1 false))
      (Counted fun k => Concat (Skipped (.slot true)) (Skipped (.params k false))) :=
    takes_parseNumber_bind fun k =>
      (takes_parseRetType h hfuel).bind (takes_parseParams h hfuel k false)
  have hcountNil : ¬Counted (fun k => Concat (Skipped (.slot true)) (Skipped (.params k false)))
      [] := by
    rintro ⟨k, u, v, huv, hu, -⟩
    exact hu.ne_nil (List.append_eq_nil_iff.mp huv.symm).1
  have hgeneric : Skipping.Takes n (fun m => ((parseNumber m).map Prod.snd).bind fun m =>
      (parseNumber m).bind fun r =>
        (parseRetType parse fuel r.2).bind (parseParams parse fuel r.1 false)) _ :=
    takes_number.bind hcount
  refine Skipping.Takes.orElse (c := fun b => b = callConvGeneric) ?_ hcountNil
    (fun k hk => hgeneric.mono (Nat.le_of_lt hk)) hcount ?_ ?_ (e := .fault) rfl fun b rest => ?_
  · rintro ⟨c, r, w, k, hv, hc, -⟩
    rcases hc with ⟨x, y, rfl, -⟩ | ⟨hc, -⟩
    · cases hv
    · exact hc.ne_nil (List.append_eq_nil_iff.mp hv.symm).1
  · rintro b v rfl
    constructor
    · rintro ⟨c, r, w, k, hv, ⟨x, y, rfl, hx, hy⟩ | ⟨hc, hhead⟩, hr, hw⟩
      · obtain ⟨-, rfl⟩ := List.cons.inj hv
        exact ⟨x, _, List.append_assoc _ _ _, hx, k, y, _, rfl, hy, r, w, rfl, hr, hw⟩
      · rcases c with _ | ⟨b, c⟩
        · exact absurd rfl hc.ne_nil
        · obtain ⟨rfl, -⟩ := List.cons.inj hv
          exact absurd rfl hhead
    · rintro ⟨x, _, rfl, hx, k, y, _, rfl, hy, r, w, rfl, hr, hw⟩
      refine ⟨callConvGeneric :: (x ++ y), r, w, k, ?_, .inl ⟨x, y, rfl, hx, hy⟩, hr, hw⟩
      rw [List.cons_append, List.append_assoc]
  · intro b v hb
    constructor
    · rintro ⟨c, r, w, k, hv, ⟨x, y, rfl, hx, hy⟩ | ⟨hc, hhead⟩, hr, hw⟩
      · exact absurd (List.cons.inj hv).1 hb
      · exact ⟨k, c, _, hv, hc, r, w, rfl, hr, hw⟩
    · rintro ⟨k, c, _, hv, hc, r, w, rfl, hr, hw⟩
      refine ⟨c, r, w, k, hv, .inr ⟨hc, ?_⟩, hr, hw⟩
      rcases c with _ | ⟨b', c⟩
      · exact absurd rfl hc.ne_nil
      · obtain ⟨rfl, -⟩ := List.cons.inj hv
        exact fun heq => hb (Option.some.inj heq)
  · rw [parseMethod]
    split <;> rfl

omit h hfuel in
theorem not_skipped_mod (b : UInt8) (v : List UInt8) (hb : IsMod b) : ¬Skipped .type (b :: v) :=
  not_skipped_cons v (.inl hb)

theorem takes_parsePtr : Skipping.Takes n (parsePtr parse fuel) (Concat Mods (Skipped .type)) := by
  have hpointee : ∀ {f : List UInt8 → Except Stop (List UInt8)}, f [] = .error .fault →
      (∀ b rest, f (b :: rest) = if b = void then .ok rest else parse (b :: rest)) →
      Skipping.Takes n f (Skipped .type) := by
    intro f hnil hcons
    refine Skipping.Takes.orElse (c := fun b => b = CorElementType.void) not_skipped_nil
      not_skipped_nil (fun k _ => Skipping.Takes.ok) h ?_ (fun b v _ => Iff.rfl) hnil hcons
    rintro b v rfl
    exact skipped_void_iff
  exact takes_mods_bind not_skipped_nil not_skipped_mod (hpointee rfl fun b rest => rfl) hfuel

omit hfuel in
theorem takes_parseGenericInst : Skipping.Takes n (parseGenericInst parse) Instance := by
  have harguments : Skipping.Takes n
      (fun m => (parseNumber m).bind fun r => parseMany parse r.1 r.2)
      (Counted fun k => Skipped (.types k)) :=
    takes_parseNumber_bind fun k =>
      (takes_parseMany h k).congr fun w => skipped_types_iff.symm
  have hbehind : Skipping.Takes n (fun m => ((parseNumber m).map Prod.snd).bind fun m =>
      (parseNumber m).bind fun r => parseMany parse r.1 r.2) _ := takes_number.bind harguments
  refine Skipping.Takes.orElse (c := fun b => IsClass b) ?_ (M := fun _ => False) id
    (fun k hk => hbehind.mono (Nat.le_of_lt hk)) (Skipping.Takes.error .returnsFalse) ?_ ?_
    (e := .fault) rfl fun b rest => ?_
  · rintro ⟨b, u, hv, -⟩
    cases hv
  · intro b v hb
    constructor
    · rintro ⟨b', u, hv, -, hu⟩
      obtain ⟨-, rfl⟩ := List.cons.inj hv
      exact hu
    · exact fun hv => ⟨b, v, rfl, hb, hv⟩
  · intro b v hb
    refine iff_of_false ?_ id
    rintro ⟨b', u, hv, hb', -⟩
    obtain ⟨rfl, -⟩ := List.cons.inj hv
    exact hb hb'
  · rw [parseGenericInst]
    by_cases hb : IsClass b
    · have hnot : ¬(b ≠ valueType ∧ b ≠ class_) := fun hne => hb.elim hne.1 hne.2
      rw [if_neg hnot, if_pos hb]
      rfl
    · rw [if_pos (not_or.mp hb), if_neg hb]

theorem takes_parseTypeOf (e : UInt8) : Skipping.Takes n (parseTypeOf parse fuel e) (Tail e) :=
  Skipping.Takes.ok.ite <| (takes_parsePtr h hfuel).ite <| takes_number.ite <|
    (takes_parseMethod h hfuel).ite <| (h.bind takes_parseArrayShape).ite <|
      (takes_mods_bind not_skipped_nil not_skipped_mod h hfuel).ite <|
        (takes_parseGenericInst h).ite <| takes_number.ite (Skipping.Takes.error _)

end routines

/-! ## The routine -/

/-- **The routine steps over the words of the grammar**, and over nothing else. -/
theorem takes_parseTypeFuel {n fuel : Nat} (hfuel : n < fuel) :
    Skipping.Takes n (parseTypeFuel fuel) (Skipped .type) := by
  induction fuel generalizing n with
  | zero => exact absurd hfuel (Nat.not_lt_zero n)
  | succ fuel ih =>
      cases n with
      | zero =>
          intro m m' hm
          obtain rfl := List.length_eq_zero_iff.mp (Nat.le_zero.mp hm)
          exact iff_of_false (fun h => by cases h) (Skipping.Takes.not_exists_nil not_skipped_nil)
      | succ n =>
          have hlt : n < fuel := Nat.lt_of_succ_lt_succ hfuel
          refine Skipping.Takes.behind not_skipped_nil (fun e => ?_) (e := .fault) rfl
            fun _ _ => rfl
          exact (takes_parseTypeOf (ih hlt) hlt e).congr fun v => skipped_cons_iff.symm

theorem parseType_eq_ok_iff {m m' : List UInt8} :
    parseType m = .ok m' ↔ ∃ w, m = w ++ m' ∧ Skipped .type w :=
  takes_parseTypeFuel (Nat.lt_succ_self m.length) m m' (Nat.le_refl _)

/-! ## Types that are stepped over -/

mutual

/-- There is no `I` and no `U` in the type, and its function pointers have the calling convention
`GENERIC`. -/
def TypeSig.Narrow : TypeSig → Prop
  | .primitive b _ => b ≠ i ∧ b ≠ u
  | .named _ _ => True
  | .typeVariable _ _ => True
  | .generic _ _ arguments => TypeSig.AllNarrow arguments
  | .szArray _ element => element.Narrow
  | .array element _ => element.Narrow
  | .ptr _ element => element.Narrow
  | .voidPtr _ => True
  | .fnPtr callConv arity ret params varArgs =>
      (callConv = callConvGeneric ∧ arity.isSome = true) ∧ ret.Narrow ∧
        SlotSig.AllNarrow params ∧ SlotSig.AllNarrow varArgs

/-- The same of a return type or a parameter. -/
def SlotSig.Narrow : SlotSig → Prop
  | .void _ => True
  | .typedByRef _ => True
  | .type _ _ t => t.Narrow

/-- Each of the types is narrow. -/
def TypeSig.AllNarrow : List TypeSig → Prop
  | [] => True
  | t :: ts => t.Narrow ∧ TypeSig.AllNarrow ts

/-- Each of the parameters is narrow. -/
def SlotSig.AllNarrow : List SlotSig → Prop
  | [] => True
  | p :: ps => p.Narrow ∧ SlotSig.AllNarrow ps

end

theorem number_tokenBytes (token : mdToken) : Number (tokenBytes token) :=
  ⟨_, encodes_compress (tokenBytes_eq token)⟩

theorem mods_modsBytes (mods : List CustomMod) : Mods (modsBytes mods) := by
  induction mods with
  | nil => exact .nil
  | cons m mods ih =>
      have hmod : IsMod (if m.required then cmodReqd else cmodOpt) := by
        cases m.required with
        | false => exact .inl rfl
        | true => exact .inr rfl
      exact .cons hmod (number_tokenBytes m.token) ih

theorem power_number {α : Type} {bytes : α → List UInt8} {xs : List α}
    (h : ∀ x ∈ xs, Number (bytes x)) : Power Number xs.length (xs.flatMap bytes) := by
  induction xs with
  | nil => rfl
  | cons x xs ih =>
      rw [List.forall_mem_cons] at h
      exact ⟨_, _, rfl, h.1, ih h.2⟩

theorem shape_bytes {s : ArrayShape} (h : s.WellFormed) : Shape s.bytes := by
  have hsizes : ∀ n ∈ s.sizes, Number (numberBytes n) :=
    fun n hn => ⟨n, encodes_numberBytes (h.sizes n hn)⟩
  have hbounds : ∀ b ∈ s.loBounds, Number (LowerBound.bytes b) := fun b _ => b.encodes
  exact ⟨_, _, rfl, ⟨_, encodes_numberBytes h.rank⟩, _, _, _, rfl,
    encodes_numberBytes h.sizesLength, _, _, rfl, power_number hsizes, _, _, _, rfl,
    encodes_numberBytes h.loBoundsLength, power_number hbounds⟩

theorem isClass_classByte (isValueType : Bool) : IsClass (classByte isValueType) := by
  cases isValueType with
  | false => exact .inr rfl
  | true => exact .inl rfl

theorem isVariable_variableByte (ofMethod : Bool) : IsVariable (variableByte ofMethod) := by
  cases ofMethod with
  | false => exact .inl rfl
  | true => exact .inr rfl

/-- The bytes of a narrow function pointer have an arity. -/
theorem arity_bytes {n k : Nat} (hn : NumberFits n) (hk : NumberFits k) :
    Arity (callConvGeneric :: (numberBytes n ++ numberBytes k)) k :=
  .inl ⟨_, _, rfl, ⟨n, encodes_numberBytes hn⟩, encodes_numberBytes hk⟩

mutual

/-- **A narrow type** is one of the grammar. -/
theorem skipped_bytes : (t : TypeSig) → t.WellFormed → t.Narrow → Skipped .type t.bytes
  | .primitive b simple, _, h => by
      have hcases : ∀ b ∈ simpleTypes, b ∈ oneByteTypes ∨ b = i ∨ b = u :=
        forall_mem_of_all (by decide)
      rcases hcases b simple with hone | rfl | rfl
      · exact .oneByte hone
      · exact absurd rfl h.1
      · exact absurd rfl h.2
  | .named isValueType token, _, _ =>
      .named (isClass_classByte isValueType) (number_tokenBytes token)
  | .typeVariable ofMethod number, hwf, _ =>
      .typeVariable (isVariable_variableByte ofMethod) ⟨number, encodes_numberBytes hwf⟩
  | .generic isValueType token arguments, hwf, h =>
      .genericInst (isClass_classByte isValueType) (number_tokenBytes token)
        (encodes_numberBytes hwf.2.1) (skipped_bytesAll arguments hwf.2.2 h)
  | .szArray mods element, hwf, h => .szArray (mods_modsBytes mods) (skipped_bytes element hwf h)
  | .array element shape, hwf, h => .array (skipped_bytes element hwf.1 h) (shape_bytes hwf.2)
  | .ptr mods element, hwf, h => .ptr (mods_modsBytes mods) (skipped_bytes element hwf h)
  | .voidPtr mods, _, _ => .ptr (mods_modsBytes mods) (.oneByte (by decide))
  | .fnPtr callConv arity ret params varArgs, hwf, h => by
      obtain ⟨harity, hcount, hret, hparams, hvarArgs⟩ := hwf
      obtain ⟨⟨rfl, hsome⟩, nret, nparams, nvarArgs⟩ := h
      obtain ⟨n, rfl⟩ := Option.isSome_iff_exists.mp hsome
      have hwords : Skipped (.params (params.length + varArgs.length) false)
          (SlotSig.bytesAll params ++
            ((if varArgs.isEmpty then [] else [CorElementType.sentinel]) ++
              SlotSig.bytesAll varArgs)) := by
        refine skipped_slotsAppend params hparams nparams ?_
        cases varArgs with
        | nil => exact .noParams
        | cons p ps =>
            show Skipped (.params (ps.length + 1) false)
              (CorElementType.sentinel :: (p.bytes ++ SlotSig.bytesAll ps))
            exact .sentinel (skipped_slot p hvarArgs.1 nvarArgs.1)
              (skipped_slots ps hvarArgs.2 nvarArgs.2)
      have hfnPtr := Skipped.fnPtr (arity_bytes (harity n rfl) hcount)
        (skipped_slot ret hret nret) hwords
      rw [List.cons_append, List.append_assoc] at hfnPtr
      exact hfnPtr

/-- The same of a return type or a parameter. -/
theorem skipped_slot : (p : SlotSig) → p.WellFormed → p.Narrow →
    ∀ {isRet : Bool}, Skipped (.slot isRet) p.bytes
  | .void mods, _, _, _ => .value (mods_modsBytes mods) (.oneByte (by decide))
  | .typedByRef mods, _, _, _ => .typedByRef (mods_modsBytes mods)
  | .type mods false t, hwf, h, _ => .value (mods_modsBytes mods) (skipped_bytes t hwf h)
  | .type mods true t, hwf, h, _ => .reference (mods_modsBytes mods) (skipped_bytes t hwf h)

/-- The same of types, one behind the other. -/
theorem skipped_bytesAll : (ts : List TypeSig) → TypeSig.AllWellFormed ts →
    TypeSig.AllNarrow ts → Skipped (.types ts.length) (TypeSig.bytesAll ts)
  | [], _, _ => .noTypes
  | t :: ts, hwf, h => .types (skipped_bytes t hwf.1 h.1) (skipped_bytesAll ts hwf.2 h.2)

/-- The same of parameters behind the sentinel. -/
theorem skipped_slots : (ps : List SlotSig) → SlotSig.AllWellFormed ps → SlotSig.AllNarrow ps →
    Skipped (.params ps.length true) (SlotSig.bytesAll ps)
  | [], _, _ => .noParams
  | p :: ps, hwf, h => .params (skipped_slot p hwf.1 h.1) (skipped_slots ps hwf.2 h.2)

/-- The same of parameters in front of others. -/
theorem skipped_slotsAppend : (ps : List SlotSig) → SlotSig.AllWellFormed ps →
    SlotSig.AllNarrow ps → ∀ {k : Nat} {seen : Bool} {w : List UInt8},
      Skipped (.params k seen) w →
        Skipped (.params (ps.length + k) seen) (SlotSig.bytesAll ps ++ w)
  | [], _, _, k, _, _, hw => by
      rw [List.length_nil, Nat.zero_add]
      exact hw
  | p :: ps, hwf, h, k, _, w, hw => by
      rw [List.length_cons, Nat.add_right_comm, SlotSig.bytesAll, List.append_assoc]
      exact .params (skipped_slot p hwf.1 h.1) (skipped_slotsAppend ps hwf.2 h.2 hw)

end

/-- **A type is stepped over**, whatever follows it, exactly if its bytes are a type of the grammar
of the routine. -/
theorem parseType_takes_iff (t : TypeSig) :
    (∀ rest, parseType (t.bytes ++ rest) = .ok rest) ↔ Skipped .type t.bytes := by
  constructor
  · intro h
    obtain ⟨w, hw, hskipped⟩ := parseType_eq_ok_iff.mp (h [])
    rw [List.append_cancel_right hw]
    exact hskipped
  · exact fun h rest => parseType_eq_ok_iff.mpr ⟨t.bytes, rfl, h⟩

/-- The type `void *(int)`, with the calling convention `DEFAULT`. -/
def intFnPtr : TypeSig :=
  .fnPtr 0x00 none (.void []) [.type [] false (.primitive i4 i4_mem_simpleTypes)] []

/-- A function pointer is left in the middle, and a native integer is refused. -/
theorem not_takes_intFnPtr :
    (¬∀ rest, parseType (intFnPtr.bytes ++ rest) = .ok rest) ∧
      ¬∀ rest, parseType ((TypeSig.primitive i (by decide)).bytes ++ rest) = .ok rest := by
  have hfnPtr : parseType intFnPtr.bytes = .ok [CorElementType.void, i4] := by decide
  have hnative : parseType (TypeSig.primitive i (by decide)).bytes = .error .returnsFalse := rfl
  constructor
  · intro h
    have hnil := h []
    rw [List.append_nil, hfnPtr] at hnil
    cases hnil
  · intro h
    have hnil := h []
    rw [List.append_nil, hnative] at hnil
    cases hnil

end DdTrace.Profiler.SigHelpers
