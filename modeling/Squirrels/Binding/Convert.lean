import Squirrels.Binding.Object

/-!
# Conversions

`IntoSquirrel` and `FromSquirrel` with their implementations in the crate. Each has two paths, one
through `Value` and one through the stack; the model keeps both, with the handles each of them
consumes and drops.
-/

namespace Squirrels

open Machines

/-- `UserPointer`. -/
structure UserPointer where
  ptr : ℕ
deriving DecidableEq, Repr

/-- `&str`, `std::string::String` and `&[u8]`: bytes on their way into a machine. -/
structure Bytes where
  bytes : List UInt8
deriving DecidableEq, Repr

instance : Owns UserPointer := ⟨fun _ => []⟩
instance : Owns Bytes := ⟨fun _ => []⟩
instance {n : ℕ} : Owns (BitVec n) := ⟨fun _ => []⟩

/-- `FromSquirrel`. -/
class FromSquirrel (α : Type) where
  fromSquirrel : Env → Value → VmId → Act World (Except Error α)
  fromStack : Env → ℤ → VmId → Act World (Except Error α)

/-- `IntoSquirrel`. -/
class IntoSquirrel (α : Type) where
  intoSquirrel : Env → α → VmId → Act World Value
  pushIntoStack : Env → α → VmId → Act World Unit

/-- The body of `FromSquirrel::from_stack` that no implementation of the crate keeps. -/
def fromStackDefault {α : Type} [FromSquirrel α] (env : Env) (idx : ℤ) (sq : VmId) :
    Act World (Except Error α) := do
  let o ← Object.fromStack idx sq
  let value ← o.intoValue env
  FromSquirrel.fromSquirrel env value sq

/-- A scalar taken out of a value, which is dropped. -/
def scalarFromSquirrel {α : Type} (expected : String) (select : Value → Option α) (value : Value) :
    Act World (Except Error α) := do
  dropValue value
  pure (match select value with
    | some a => .ok a
    | none => .error (.type expected))

/-- A scalar read with one of the `sq_get*` functions. -/
def scalarFromStack {α : Type} (expected : String) (idx : ℤ) (sq : VmId)
    (read : Act SQVM (Option α)) : Act World (Except Error α) := do
  Squirrel.assertValidIdx sq idx
  match ← read.on sq with
  | some a => pure (.ok a)
  | none => pure (.error (.type expected))

/-! ## Scalars -/

instance : FromSquirrel Unit where
  fromSquirrel _ value _ := scalarFromSquirrel "null" (fun | .null => some () | _ => none) value
  fromStack _ idx sq := do
    let obj ← Object.fromStack idx sq
    obj.drop
    pure (if obj.obj = .null then .ok () else .error (.type "null"))

instance : IntoSquirrel Unit where
  intoSquirrel _ _ _ := pure .null
  pushIntoStack _ _ sq := Api.sqPushnull.on sq

instance : FromSquirrel ℤ where
  fromSquirrel _ value _ :=
    scalarFromSquirrel "integer" (fun | .integer n => some n | _ => none) value
  fromStack _ idx sq := scalarFromStack "integer" idx sq (Api.sqGetinteger idx)

instance : IntoSquirrel ℤ where
  intoSquirrel _ n _ := pure (.integer n)
  pushIntoStack _ n sq := (Api.sqPushinteger n).on sq

instance : FromSquirrel (BitVec 32) where
  fromSquirrel _ value _ :=
    scalarFromSquirrel "float" (fun | .float bits => some bits | _ => none) value
  fromStack _ idx sq := scalarFromStack "float" idx sq (Api.sqGetfloat idx)

instance : IntoSquirrel (BitVec 32) where
  intoSquirrel _ bits _ := pure (.float bits)
  pushIntoStack _ bits sq := (Api.sqPushfloat bits).on sq

instance : FromSquirrel Bool where
  fromSquirrel _ value _ := scalarFromSquirrel "bool" (fun | .bool b => some b | _ => none) value
  fromStack _ idx sq := scalarFromStack "bool" idx sq (Api.sqGetbool idx)

instance : IntoSquirrel Bool where
  intoSquirrel _ b _ := pure (.bool b)
  pushIntoStack _ b sq := (Api.sqPushbool b).on sq

instance : FromSquirrel UserPointer where
  fromSquirrel _ value _ :=
    scalarFromSquirrel "userpointer" (fun | .userPointer p => some ⟨p⟩ | _ => none) value
  fromStack env idx sq :=
    scalarFromStack "userpointer" idx sq do
      let p ← Api.sqGetuserpointer env idx
      pure (p.map UserPointer.mk)

instance : IntoSquirrel UserPointer where
  intoSquirrel _ p _ := pure (.userPointer p.ptr)
  pushIntoStack _ p sq := (Api.sqPushuserpointer p.ptr).on sq

/-! ## Handles -/

/-- The name a typed handle is called by in errors. -/
def RefType.name : RefType → String
  | .table => "table"
  | .array => "array"
  | .userData => "userdata"
  | .closure => "closure"
  | .nativeClosure => "nativeclosure"
  | .generator => "generator"
  | .thread => "thread"
  | .cls => "class"
  | .inst => "instance"
  | .weakRef => "weakref"

/-- The object of a value, if it has the given tag. -/
def Value.ofType (t : RefType) : Value → Option (Handle t)
  | .handle t' h => if same : t' = t then some (same ▸ h) else none
  | _ => none

/-- The object as a handle, if it has the given tag. -/
def Object.ofType (t : RefType) (o : Object) : Option (Handle t) :=
  match o.obj with
  | .ref t' r => if t' = t then some ⟨o.sq, r⟩ else none
  | _ => none

instance {t : RefType} : FromSquirrel (Handle t) where
  fromSquirrel _ value sq :=
    match value.ofType t with
    | some h => do
      (Squirrel.assertSameVm h.sq sq).onUnwind (dropValue h)
      pure (.ok h)
    | none => do
      dropValue value
      pure (.error (.type t.name))
  fromStack _ idx sq := do
    let object ← Object.fromStack idx sq
    match object.ofType t with
    | some h => pure (.ok h)
    | none => do
      object.drop
      pure (.error (.type t.name))

instance {t : RefType} : IntoSquirrel (Handle t) where
  intoSquirrel _ h sq := do
    (Squirrel.assertSameVm h.sq sq).onUnwind (dropValue h)
    pure (.handle t h)
  pushIntoStack _ h sq := do
    (Squirrel.assertSameVm h.sq sq).onUnwind (dropValue h)
    h.object.pushIntoStack
    dropValue h

/-! ## Strings -/

instance : FromSquirrel StringHandle where
  fromSquirrel _ value sq :=
    match value with
    | .string s => do
      (Squirrel.assertSameVm s.sq sq).onUnwind (dropValue s)
      pure (.ok s)
    | value => do
      dropValue value
      pure (.error (.type "string"))
  fromStack env idx sq := do
    let object ← Object.fromStack idx sq
    match object.obj with
    | .string str =>
      match ← (Api.sqGetstringandsize env idx).on sq with
      | some bytes => pure (.ok ⟨sq, str, bytes⟩)
      | none => do
        object.drop
        Act.panic "sq_getstringandsize failed"
    | _ => do
      object.drop
      pure (.error (.type "string"))

instance : IntoSquirrel StringHandle where
  intoSquirrel _ s sq := do
    (Squirrel.assertSameVm s.sq sq).onUnwind (dropValue s)
    pure (.string s)
  pushIntoStack _ s sq := do
    (Squirrel.assertSameVm s.sq sq).onUnwind (dropValue s)
    s.object.pushIntoStack
    dropValue s

/-- `String::new`. -/
def StringHandle.new (env : Env) (sq : VmId) (bytes : List UInt8) : Act World StringHandle := do
  (Api.sqPushstring bytes).on sq
  let obj : Except Error StringHandle ← FromSquirrel.fromStack env (-1) sq
  (Squirrel.pop sq 1).onUnwind (dropValue obj)
  match obj with
  | .ok s => pure s
  | .error _ => Act.panic "expecting the string we just pushed"

/-- The body of `IntoSquirrel::push_into_stack` that the byte types keep. -/
def pushIntoStackDefault (into : Act World Value) (sq : VmId) : Act World Unit := do
  let v ← into
  (Squirrel.pushValue sq v).onUnwind (dropValue v)
  dropValue v

/-- `String::new` as a value. -/
def Bytes.intoSquirrel (env : Env) (b : Bytes) (sq : VmId) : Act World Value := do
  let s ← StringHandle.new env sq b.bytes
  pure (.string s)

instance : IntoSquirrel Bytes where
  intoSquirrel := Bytes.intoSquirrel
  pushIntoStack env b sq := pushIntoStackDefault (b.intoSquirrel env sq) sq

/-! ## Values and options -/

/-- The check that a value belongs to the machine. -/
def Value.assertSameVm (v : Value) (sq : VmId) : Act World Unit :=
  match v.asObject with
  | some obj => Squirrel.assertSameVm obj.sq sq
  | none => pure ()

instance : FromSquirrel Value where
  fromSquirrel _ value sq := do
    (value.assertSameVm sq).onUnwind (dropValue value)
    pure (.ok value)
  fromStack env idx sq := do
    let o ← Object.fromStack idx sq
    let v ← o.intoValue env
    pure (.ok v)

instance : IntoSquirrel Value where
  intoSquirrel _ v sq := do
    (v.assertSameVm sq).onUnwind (dropValue v)
    pure v
  pushIntoStack _ v sq := do
    (Squirrel.pushValue sq v).onUnwind (dropValue v)
    dropValue v

instance {α : Type} [FromSquirrel α] : FromSquirrel (Option α) where
  fromSquirrel env value sq :=
    match value with
    | .null => pure (.ok none)
    | v => do
      let r : Except Error α ← FromSquirrel.fromSquirrel env v sq
      pure (r.map some)
  fromStack env idx sq := do
    let obj ← Object.fromStack idx sq
    if obj.obj = .null then
      obj.drop
      pure (.ok none)
    else
      let r : Except Error α ← (FromSquirrel.fromStack env idx sq).onUnwind obj.drop
      obj.drop
      pure (r.map some)

instance {α : Type} [IntoSquirrel α] : IntoSquirrel (Option α) where
  intoSquirrel env x sq :=
    match x with
    | none => pure .null
    | some a => IntoSquirrel.intoSquirrel env a sq
  pushIntoStack env x sq :=
    match x with
    | none => Api.sqPushnull.on sq
    | some a => IntoSquirrel.pushIntoStack env a sq

end Squirrels
