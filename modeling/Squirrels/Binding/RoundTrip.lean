import Squirrels.Binding.Codec

/-!
# Values across the boundary

The types of the crate that can be converted, named so that statements range over all of them. The
two ways to decode give the same result except where a number is read as another kind of number;
decoding undoes encoding.
-/

namespace Squirrels

open Machines

/-- The types with conversions in the crate. -/
inductive Ty where
  | null
  | integer
  | float
  | bool
  | userPointer
  | string
  | handle (t : RefType)
  | value
  | option (u : Ty)
deriving DecidableEq, Repr

namespace Ty

/-- The Rust type. -/
def Carrier : Ty → Type
  | null => Unit
  | integer => ℤ
  | float => BitVec 32
  | bool => Bool
  | userPointer => UserPointer
  | string => StringHandle
  | handle t => Handle t
  | value => Value
  | option u => Option u.Carrier

instance owns : (ty : Ty) → Owns ty.Carrier
  | null => inferInstanceAs (Owns Unit)
  | integer => inferInstanceAs (Owns ℤ)
  | float => inferInstanceAs (Owns (BitVec 32))
  | bool => inferInstanceAs (Owns Bool)
  | userPointer => inferInstanceAs (Owns UserPointer)
  | string => inferInstanceAs (Owns StringHandle)
  | handle t => inferInstanceAs (Owns (Handle t))
  | value => inferInstanceAs (Owns Value)
  | option u => letI := owns u; inferInstanceAs (Owns (Option u.Carrier))

instance fromSquirrel : (ty : Ty) → FromSquirrel ty.Carrier
  | null => inferInstanceAs (FromSquirrel Unit)
  | integer => inferInstanceAs (FromSquirrel ℤ)
  | float => inferInstanceAs (FromSquirrel (BitVec 32))
  | bool => inferInstanceAs (FromSquirrel Bool)
  | userPointer => inferInstanceAs (FromSquirrel UserPointer)
  | string => inferInstanceAs (FromSquirrel StringHandle)
  | handle t => inferInstanceAs (FromSquirrel (Handle t))
  | value => inferInstanceAs (FromSquirrel Value)
  | option u => letI := fromSquirrel u; inferInstanceAs (FromSquirrel (Option u.Carrier))

instance intoSquirrel : (ty : Ty) → IntoSquirrel ty.Carrier
  | null => inferInstanceAs (IntoSquirrel Unit)
  | integer => inferInstanceAs (IntoSquirrel ℤ)
  | float => inferInstanceAs (IntoSquirrel (BitVec 32))
  | bool => inferInstanceAs (IntoSquirrel Bool)
  | userPointer => inferInstanceAs (IntoSquirrel UserPointer)
  | string => inferInstanceAs (IntoSquirrel StringHandle)
  | handle t => inferInstanceAs (IntoSquirrel (Handle t))
  | value => inferInstanceAs (IntoSquirrel Value)
  | option u => letI := intoSquirrel u; inferInstanceAs (IntoSquirrel (Option u.Carrier))

instance exactFrom : (ty : Ty) → ExactFrom ty.Carrier
  | null => inferInstanceAs (ExactFrom Unit)
  | integer => inferInstanceAs (ExactFrom ℤ)
  | float => inferInstanceAs (ExactFrom (BitVec 32))
  | bool => inferInstanceAs (ExactFrom Bool)
  | userPointer => inferInstanceAs (ExactFrom UserPointer)
  | string => inferInstanceAs (ExactFrom StringHandle)
  | handle t => inferInstanceAs (ExactFrom (Handle t))
  | value => inferInstanceAs (ExactFrom Value)
  | option u => letI := exactFrom u; inferInstanceAs (ExactFrom (Option u.Carrier))

instance exactInto : (ty : Ty) → ExactInto ty.Carrier
  | null => inferInstanceAs (ExactInto Unit)
  | integer => inferInstanceAs (ExactInto ℤ)
  | float => inferInstanceAs (ExactInto (BitVec 32))
  | bool => inferInstanceAs (ExactInto Bool)
  | userPointer => inferInstanceAs (ExactInto UserPointer)
  | string => inferInstanceAs (ExactInto StringHandle)
  | handle t => inferInstanceAs (ExactInto (Handle t))
  | value => inferInstanceAs (ExactInto Value)
  | option u => letI := exactInto u; inferInstanceAs (ExactInto (Option u.Carrier))

/-! ## The two ways to decode -/

/-- The objects on which the C getter and the pattern match agree: an integer is not read from a
float or a bool, and a float is not read from an integer. -/
def Faithful : Ty → SQObject → Bool
  | integer, .float _ => false
  | integer, .bool _ => false
  | float, .integer _ => false
  | option u, o => u.Faithful o
  | _, _ => true

theorem faithful_null (ty : Ty) : ty.Faithful .null = true := by
  induction ty with
  | option u ih => exact ih
  | _ => rfl

theorem map_some_inj {α : Type} {r r' : Except Error α} : r.map some = r'.map some ↔ r = r' := by
  cases r <;> cases r' <;> simp [Except.map]

theorem asHandle_eq_ofType (vm : VmId) (t : RefType) (o : SQObject) :
    o.asHandle vm t = (o.toValue vm).ofType t := by
  cases o with
  | ref t' r =>
    by_cases same : t' = t
    · subst same
      simp [SQObject.asHandle, SQObject.toValue, Value.ofType]
    · simp [SQObject.asHandle, SQObject.toValue, Value.ofType, same]
  | _ => rfl

/-- The two ways to decode differ exactly on the numbers that the getter converts. -/
theorem decode_eq_convert_iff (ty : Ty) (vm : VmId) (o : SQObject) :
    (ExactFrom.decode vm o : Except Error ty.Carrier) = ExactFrom.convert (o.toValue vm) ↔
      ty.Faithful o := by
  induction ty with
  | option u ih =>
    show decodeOption (ExactFrom.decode vm) o = convertOption ExactFrom.convert (o.toValue vm) ↔
      u.Faithful o
    cases o with
    | null => exact iff_of_true rfl u.faithful_null
    | _ => exact map_some_inj.trans ih
  | handle t =>
    refine iff_of_true ?_ rfl
    show expecting t.name (o.asHandle vm t) = expecting t.name ((o.toValue vm).ofType t)
    rw [asHandle_eq_ofType]
  | integer =>
    show expecting "integer" o.asInteger = expecting "integer" _ ↔ _
    cases o <;> simp [SQObject.asInteger, SQObject.isNumeric, SQObject.toValue, expecting,
      Faithful, toInteger]
  | float =>
    show expecting "float" o.asFloat = expecting "float" _ ↔ _
    cases o <;> simp [SQObject.asFloat, SQObject.isNumeric, SQObject.toValue, expecting,
      Faithful, toFloat]
  | value => exact iff_of_true rfl rfl
  | _ => cases o <;> exact iff_of_true rfl rfl

end Ty

/-- A machine that has just been opened, with a slot on its stack. -/
def World.withSlot (env : Env) (o : SQObject) : World :=
  Function.update (World.usual env) 0 (((World.usual env) 0).push o)

/-- The value made of an object belongs to the machine. -/
theorem SQObject.local_toValue {vm : VmId} (o : SQObject) : Local vm (o.toValue vm) := by
  intro x mem
  cases o with
  | string bytes =>
    rw [List.mem_singleton.1 mem]
    rfl
  | ref t r =>
    rw [List.mem_singleton.1 mem]
    rfl
  | _ => exact absurd mem List.not_mem_nil

section Paths

variable {env : Env} {w : World} {L : List Object} {vm : VmId} {idx : ℤ}

/-- `from_stack`, and reading the object and then converting its value, both return; and they
return the same exactly when the getter does not convert a number. -/
theorem decoding_paths_agree_iff (ty : Ty) (owned : Owned L w) (valid : (w vm).ValidIdx idx)
    (based : (w vm).stackbase ≤ (w vm).top) :
    ∃ (direct composed : Except Error ty.Carrier) (w₁ w₂ : World),
      (FromSquirrel.fromStack env idx vm).run w = (.ok direct, w₁) ∧
      (fromStackDefault env idx vm).run w = (.ok composed, w₂) ∧
      (direct = composed ↔ ty.Faithful ((w vm).stackGet idx)) := by
  have start := Exactly.start owned vm
  obtain ⟨e, read⟩ := @ExactFrom.read ty.Carrier _ _ _ env w vm (w vm) L idx valid based
  have here : Local vm (((w vm).stackGet idx).toValue vm) := SQObject.local_toValue _
  have converted : Yields w vm (w vm) L (fromStackDefault env idx vm)
      (ExactFrom.convert (((w vm).stackGet idx).toValue vm) : Except Error ty.Carrier) _ _ :=
    Yields.bind (Yields.fromStack valid) (Yields.bind (Yields.intoValue _ based)
      (ExactFrom.converted here))
  obtain ⟨direct, w₁, ran₁, rfl, -⟩ := read.returns start
  obtain ⟨composed, w₂, ran₂, rfl, -⟩ := converted.returns start
  exact ⟨_, _, w₁, w₂, ran₁, ran₂, ty.decode_eq_convert_iff vm _⟩

/-- An integer is read from a machine with an integer on its stack. -/
theorem decoding_paths_agree_iff_integer :
    ∃ (direct composed : Except Error ℤ) (w₁ w₂ : World),
      (FromSquirrel.fromStack .returning (-1) 0).run (World.withSlot .returning (.integer 3)) =
        (.ok direct, w₁) ∧
      (fromStackDefault .returning (-1) 0).run (World.withSlot .returning (.integer 3)) =
        (.ok composed, w₂) ∧ (direct = composed ↔ true) := by
  have owned : Owned [] (World.withSlot .returning (.integer 3)) :=
    (owned_opened _ _ _).update rfl rfl
  have slot : (World.withSlot .returning (.integer 3) 0).stack = [.integer 3] := by decide +kernel
  have base : (World.withSlot .returning (.integer 3) 0).stackbase = 0 := by decide +kernel
  generalize World.withSlot .returning (.integer 3) = w at *
  have top : (w 0).top = 1 := by rw [SQVM.top, slot]; rfl
  have valid : (w 0).ValidIdx (-1) := SQVM.validIdx_top (by omega)
  obtain ⟨direct, composed, w₁, w₂, ran₁, ran₂, agree⟩ :=
    @decoding_paths_agree_iff .returning w [] 0 (-1) .integer owned valid (by omega)
  have found : (w 0).stackGet (-1) = .integer 3 := by
    show (w 0).stack.getD 0 .null = _
    rw [slot]
    rfl
  rw [found] at agree
  exact ⟨direct, composed, w₁, w₂, ran₁, ran₂, agree⟩

/-- A float that is read as an integer is cut by one way to decode and refused by the other. -/
theorem float_read_as_integer :
    ((FromSquirrel.fromStack .returning (-1) 0 : Act World (Except Error ℤ)).run
        (World.withSlot .returning (.float 0x40600000#32))).1 = .ok (.ok 3) ∧
      ((fromStackDefault .returning (-1) 0 : Act World (Except Error ℤ)).run
        (World.withSlot .returning (.float 0x40600000#32))).1 =
        .ok (.error (.type "integer")) := by
  decide +kernel

end Paths

/-! ## Decoding undoes encoding -/

namespace Ty

/-- The type has no value that encodes to null. -/
def NonNull : Ty → Prop
  | null | value | option _ => False
  | _ => True

/-- An option is told from its content only if the content is not null. -/
def RoundTrips : Ty → Prop
  | option u => u.NonNull
  | _ => True

/-- The bytes that a string handle points to are those of its object. -/
def Sound : (ty : Ty) → ty.Carrier → Prop
  | string, (t : StringHandle) => t.bytes = t.str
  | value, (.string t : Value) => t.bytes = t.str
  | option u, (some a : Option u.Carrier) => u.Sound a
  | _, _ => True

theorem encode_ne_null {ty : Ty} (nonNull : ty.NonNull) (x : ty.Carrier) :
    ExactInto.encode x ≠ .null := by
  cases ty with
  | null => exact nonNull.elim
  | value => exact nonNull.elim
  | option u => exact nonNull.elim
  | _ => exact SQObject.noConfusion

theorem string_eq {vm : VmId} {t : StringHandle} (own : t.sq = vm) (sound : t.bytes = t.str) :
    (⟨vm, t.str, t.str⟩ : StringHandle) = t := by
  cases t
  simp_all

theorem toValue_slot {vm : VmId} {v : Value} (here : Local vm v) (sound : value.Sound v) :
    v.slot.toValue vm = v := by
  cases v with
  | string t =>
    have own : t.sq = vm := here t.object (by simp [Owns.handles, Value.asObject])
    exact congrArg Value.string (string_eq own sound)
  | handle t h =>
    have own : h.sq = vm := here h.object (by simp [Owns.handles, Value.asObject])
    subst own
    rfl
  | _ => rfl

theorem decode_encode_handle {t : RefType} {vm : VmId} {h : Handle t} (own : h.sq = vm) :
    expecting t.name (h.obj.asHandle vm t) = .ok h := by
  subst own
  simp [Handle.obj, SQObject.asHandle, expecting]

/-- Decoding the object that a value encodes to gives the value back. -/
theorem decode_encode {ty : Ty} (trips : ty.RoundTrips) {vm : VmId} {x : ty.Carrier}
    (here : Local vm x) (sound : ty.Sound x) :
    ExactFrom.decode vm (ExactInto.encode x) = .ok x := by
  induction ty with
  | option u ih =>
    show decodeOption (ExactFrom.decode vm) (ExactInto.encode x) = .ok x
    change Option u.Carrier at x
    cases x with
    | none => rfl
    | some a =>
      have inside : ExactFrom.decode vm (ExactInto.encode a) = .ok a := by
        apply ih _ here sound
        cases u with
        | option u => exact (trips : False).elim
        | _ => trivial
      have encoded : ExactInto.encode a ≠ .null := encode_ne_null trips a
      show decodeOption (ExactFrom.decode vm) (ExactInto.encode a) = .ok (some a)
      cases slot : (ExactInto.encode a : SQObject) with
      | null => exact absurd slot encoded
      | _ =>
        rw [slot] at inside
        simp only [decodeOption, inside]
        rfl
  | string =>
    change StringHandle at x
    have own : x.sq = vm := here x.object (List.mem_singleton.2 rfl)
    exact congrArg Except.ok (string_eq own sound)
  | handle t =>
    change Handle t at x
    have own : x.sq = vm := here x.object (List.mem_singleton.2 rfl)
    exact decode_encode_handle own
  | value => exact congrArg Except.ok (toValue_slot here sound)
  | _ => rfl

end Ty

section Encoding

variable {env : Env} {w : World} {L : List Object} {vm : VmId}

/-- The value is pushed as one slot, and that slot is decoded to the value. -/
theorem push_then_read {α β : Type} [Owns α] [IntoSquirrel α] [ExactInto α] [Owns β]
    [FromSquirrel β] [ExactFrom β] {x : α} {y : β} (owned : Owned (Owns.handles x ++ L) w)
    (based : (w vm).stackbase ≤ (w vm).top) (here : Local vm x)
    (decoded : ExactFrom.decode vm (ExactInto.encode x) = .ok y) :
    ∃ w₁ w₂, (IntoSquirrel.pushIntoStack env x vm).run w = (.ok (), w₁) ∧
      (w₁ vm).stack = ExactInto.encode x :: (w vm).stack ∧
      (FromSquirrel.fromStack env (-1) vm).run w₁ = (.ok (.ok y), w₂) := by
  obtain ⟨_, w₁, pushed, -, done⟩ :=
    (@ExactInto.pushed α _ _ _ env w vm (w vm) L x based here).returns (Exactly.start owned vm)
  have stack : (w₁ vm).stack = ExactInto.encode x :: (w vm).stack := by
    rw [done.machine]
    rfl
  have base : (w₁ vm).stackbase = (w vm).stackbase := by
    rw [done.machine]
    rfl
  have top : (w₁ vm).top = (w vm).top + 1 := by
    rw [SQVM.top, stack]
    rfl
  obtain ⟨e, read⟩ := @ExactFrom.read β _ _ _ env w₁ vm (w₁ vm) L (-1)
    (SQVM.validIdx_top (by omega)) (by omega)
  obtain ⟨res, w₂, ran, rfl, -⟩ := read.returns (Exactly.start done.owned vm)
  have found : (w₁ vm).stackGet (-1) = ExactInto.encode x := by
    show (w₁ vm).stack.getD 0 .null = _
    rw [stack]
    rfl
  rw [found, decoded] at ran
  exact ⟨w₁, w₂, pushed, stack, ran⟩

/-- The value that `into_squirrel` makes is pushed as the same slot. -/
theorem into_then_push {α : Type} [Owns α] [IntoSquirrel α] [ExactInto α] {x : α}
    (owned : Owned (Owns.handles x ++ L) w) (based : (w vm).stackbase ≤ (w vm).top)
    (here : Local vm x) :
    ∃ v w₁ w₂, (IntoSquirrel.intoSquirrel env x vm).run w = (.ok v, w₁) ∧
      (Squirrel.pushValue vm v).run w₁ = (.ok (), w₂) ∧
      (w₂ vm).stack = ExactInto.encode x :: (w vm).stack := by
  obtain ⟨v, w₁, made, rfl, done⟩ :=
    (@ExactInto.made α _ _ _ env w vm (w vm) L x based here).returns (Exactly.start owned vm)
  obtain ⟨_, w₂, pushed, -, done'⟩ := (Yields.pushValue (ExactInto.local_value here)).returns done
  refine ⟨_, w₁, w₂, made, pushed, ?_⟩
  rw [done'.machine, ← ExactInto.slot_value vm x]
  rfl

/-- A value of this machine, of any type with both conversions, is pushed as the same one slot by
both ways to encode it, and that slot is decoded to the value. Bytes come back as they were pushed,
whatever they are. An object that was turned into a value is pushed as the same object. -/
theorem decoding_undoes_encoding (based : (w vm).stackbase ≤ (w vm).top) :
    (∀ (ty : Ty) (x : ty.Carrier), ty.RoundTrips → Local vm x → ty.Sound x →
      Owned (Owns.handles x ++ L) w →
      ∃ o v w₁ w₂ w₃ w₄, (IntoSquirrel.pushIntoStack env x vm).run w = (.ok (), w₁) ∧
        (w₁ vm).stack = o :: (w vm).stack ∧
        (FromSquirrel.fromStack env (-1) vm).run w₁ = (.ok (.ok x), w₂) ∧
        (IntoSquirrel.intoSquirrel env x vm).run w = (.ok v, w₃) ∧
        (Squirrel.pushValue vm v).run w₃ = (.ok (), w₄) ∧
        (w₄ vm).stack = o :: (w vm).stack) ∧
    (∀ b : Bytes, Owned L w →
      ∃ (t : StringHandle) (w₁ w₂ : World),
        (IntoSquirrel.pushIntoStack env b vm).run w = (.ok (), w₁) ∧
        (w₁ vm).stack = .string b.bytes :: (w vm).stack ∧
        (FromSquirrel.fromStack env (-1) vm).run w₁ = (.ok (.ok t), w₂) ∧
        t.asBytes = b.bytes) ∧
    ∀ idx : ℤ, (w vm).ValidIdx idx → Owned L w →
      ∃ obj v w₁ w₂ w₃, (Object.fromStack idx vm).run w = (.ok obj, w₁) ∧
        (obj.intoValue env).run w₁ = (.ok v, w₂) ∧
        (Squirrel.pushValue vm v).run w₂ = (.ok (), w₃) ∧
        (w₃ vm).stack = (w vm).stackGet idx :: (w vm).stack := by
  refine ⟨fun ty x trips here sound owned => ?_, fun b owned => ?_, fun idx valid owned => ?_⟩
  · obtain ⟨w₁, w₂, pushed, stack, read⟩ :=
      push_then_read owned based here (Ty.decode_encode trips here sound)
    obtain ⟨v, w₃, w₄, made, pushed', stack'⟩ := into_then_push owned based here
    exact ⟨_, v, w₁, w₂, w₃, w₄, pushed, stack, read, made, pushed', stack'⟩
  · have here : Local vm b := fun o mem => absurd mem List.not_mem_nil
    have decoded : ExactFrom.decode vm (ExactInto.encode b) =
        .ok (⟨vm, b.bytes, b.bytes⟩ : StringHandle) := rfl
    have owned' : Owned (Owns.handles b ++ L) w := owned
    obtain ⟨w₁, w₂, pushed, stack, read⟩ := push_then_read owned' based here decoded
    exact ⟨_, w₁, w₂, pushed, stack, read, rfl⟩
  · obtain ⟨obj, w₁, ran₁, rfl, done₁⟩ := (Yields.fromStack valid).returns (Exactly.start owned vm)
    obtain ⟨v, w₂, ran₂, rfl, done₂⟩ := (Yields.intoValue _ based).returns done₁
    have here : Local vm (((w vm).stackGet idx).toValue vm) := SQObject.local_toValue _
    obtain ⟨_, w₃, ran₃, -, done₃⟩ := (Yields.pushValue here).returns done₂
    refine ⟨_, _, w₁, w₂, w₃, ran₁, ran₂, ran₃, ?_⟩
    rw [done₃.machine, SQObject.slot_toValue]
    rfl

/-- Bytes that are not a C string go through a machine that has just been opened. -/
theorem decoding_undoes_encoding_bytes :
    ∃ (t : StringHandle) (w₁ w₂ : World),
      (IntoSquirrel.pushIntoStack .returning (Bytes.mk [0, 255]) 0).run (World.usual .returning) =
        (.ok (), w₁) ∧
      (FromSquirrel.fromStack .returning (-1) 0).run w₁ = (.ok (.ok t), w₂) ∧
      t.asBytes = [0, 255] := by
  have owned : Owned [] (World.usual .returning) := owned_opened _ _ _
  have based : (World.usual .returning 0).stackbase ≤ (World.usual .returning 0).top := by
    decide +kernel
  generalize World.usual .returning = w at *
  obtain ⟨t, w₁, w₂, pushed, -, read, bytes⟩ :=
    (decoding_undoes_encoding based).2.1 (Bytes.mk [0, 255]) owned
  exact ⟨t, w₁, w₂, pushed, read, bytes⟩

end Encoding

end Squirrels
