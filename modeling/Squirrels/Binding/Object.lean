import Squirrels.Vm.Api

/-!
# Handles

The Rust values that refer to objects of a machine. A handle owns one reference: making one calls
`sq_addref` and dropping it calls `sq_release`. Clean-up that unwinding performs is written with
`Act.onUnwind`.
-/

namespace Squirrels

open Machines

/-- The machines of the process, by the address of their `SQVM`. -/
abbrev VmId := ℕ

/-- The state of all machines. -/
abbrev World := VmId → SQVM

/-! ## The stack of a machine -/

namespace Squirrel

variable (sq : VmId)

/-- `Squirrel::stack_depth`. -/
def stackDepth : Act World ℤ := Api.sqGettop.on sq

/-- `Squirrel::resize_stack`. -/
def resizeStack (idx : ℤ) : Act World Unit := do
  Act.ensure (0 ≤ idx) "assertion failed: idx >= 0"
  (Api.sqSettop idx).on sq

/-- `Squirrel::pop`. -/
def pop (count : ℤ) : Act World Unit := do
  let stackDepth ← stackDepth sq
  Act.ensure (count ≤ stackDepth) "attempted to pop more elements than the stack has"
  Act.ensure (0 < count) "assertion failed: count > 0"
  (Api.sqPop count.toNat).on sq

/-- `Squirrel::assert_valid_idx`. -/
def assertValidIdx (idx : ℤ) : Act World Unit := do
  let top ← stackDepth sq
  Act.ensure (idx ≠ 0 ∧ if 0 < idx then idx ≤ top else -top ≤ idx) "invalid stack index"

/-- `Squirrel::assert_same_vm`. -/
def assertSameVm (other : VmId) : Act World Unit :=
  Act.ensure (sq = other) "attempted to use a value from another VM"

/-- `Squirrel::push_root_table`. -/
def pushRootTable : Act World Unit := do
  let w ← Act.get
  (Api.sqPushobject (.ref .table (w sq).root)).on sq

end Squirrel

/-! ## Objects -/

/-- `Object`. -/
structure Object where
  sq : VmId
  obj : SQObject
deriving DecidableEq, Repr

namespace Object

/-- `Object::from_stack`. -/
def fromStack (idx : ℤ) (sq : VmId) : Act World Object := do
  Squirrel.assertValidIdx sq idx
  let obj ← (Api.sqGetstackobj idx).on sq
  (Api.sqAddref obj).on sq
  pure ⟨sq, obj⟩

/-- `Object::push_into_stack`. -/
def pushIntoStack (o : Object) : Act World Unit := (Api.sqPushobject o.obj).on o.sq

/-- `Object::clone`. -/
def clone (o : Object) : Act World Object := do
  (Api.sqAddref o.obj).on o.sq
  pure o

/-- `Object::drop`. -/
def drop (o : Object) : Act World Unit := (Api.sqRelease o.obj).on o.sq

end Object

/-- Drop the fields of a value in turn. -/
def dropAll : List Object → Act World Unit
  | [] => pure ()
  | o :: rest => do
    o.drop
    dropAll rest

/-- The handles a Rust value owns. -/
class Owns (α : Type) where
  handles : α → List Object

/-- The drop glue of a type. -/
def dropValue {α : Type} [Owns α] (a : α) : Act World Unit := dropAll (Owns.handles a)

instance : Owns Unit := ⟨fun _ => []⟩
instance : Owns ℤ := ⟨fun _ => []⟩
instance : Owns Bool := ⟨fun _ => []⟩
instance : Owns Object := ⟨fun o => [o]⟩

instance {α : Type} [Owns α] : Owns (Option α) := ⟨fun a => (a.map Owns.handles).getD []⟩

instance {α β : Type} [Owns α] [Owns β] : Owns (α × β) :=
  ⟨fun p => Owns.handles p.1 ++ Owns.handles p.2⟩

instance {ε α : Type} [Owns ε] [Owns α] : Owns (Except ε α) where
  handles
    | .ok a => Owns.handles a
    | .error e => Owns.handles e

instance {α : Type} [Owns α] : Owns (List α) := ⟨fun l => l.flatMap Owns.handles⟩

/-! ## Typed handles -/

/-- The newtypes over `Object`: a handle of an object of the given type. -/
structure Handle (t : RefType) where
  sq : VmId
  ref : ℕ
deriving DecidableEq, Repr

namespace Handle

variable {t : RefType}

/-- The object a typed handle wraps. -/
def object (h : Handle t) : Object := ⟨h.sq, .ref t h.ref⟩

/-- The handle as a slot. -/
def obj (h : Handle t) : SQObject := .ref t h.ref

instance : Owns (Handle t) := ⟨fun h => [h.object]⟩

/-- `Clone` of a typed handle. -/
def clone (h : Handle t) : Act World (Handle t) := do
  let _ ← h.object.clone
  pure h

end Handle

/-- `Table`. -/
abbrev Table := Handle .table
/-- `Array`. -/
abbrev ArrayHandle := Handle .array
/-- `UserData`. -/
abbrev UserData := Handle .userData
/-- `Closure`. -/
abbrev Closure := Handle .closure
/-- `NativeClosure`. -/
abbrev NativeClosure := Handle .nativeClosure
/-- `Class`. -/
abbrev Class := Handle .cls
/-- `Instance`. -/
abbrev Instance := Handle .inst

/-- `String`: the handle with the characters that its pointer and its length give. -/
structure StringHandle where
  sq : VmId
  str : List UInt8
  bytes : List UInt8
deriving DecidableEq, Repr

namespace StringHandle

/-- The object of a string. -/
def object (s : StringHandle) : Object := ⟨s.sq, .string s.str⟩

instance : Owns StringHandle := ⟨fun s => [s.object]⟩

/-- `String::as_bytes`. -/
def asBytes (s : StringHandle) : List UInt8 := s.bytes

end StringHandle

/-! ## Values -/

/-- `Value`; `handle t` stands for the variant of the newtype with the tag `t`. -/
inductive Value where
  | null
  | integer (n : ℤ)
  | float (bits : BitVec 32)
  | bool (b : Bool)
  | string (s : StringHandle)
  | userPointer (p : ℕ)
  | handle (t : RefType) (h : Handle t)
deriving DecidableEq

namespace Value

/-- `Value::as_object`. -/
def asObject : Value → Option Object
  | .string s => some s.object
  | .handle _ h => some h.object
  | _ => none

instance : Owns Value := ⟨fun v => v.asObject.toList⟩

end Value

/-- `Error`. -/
inductive Error where
  | compile (e : CompileError)
  | type (expected : String)
deriving DecidableEq, Repr

/-- `CallError`. -/
inductive CallError where
  | runtime (v : Value)
  | other (e : Error)
deriving DecidableEq

instance : Owns Error := ⟨fun _ => []⟩

instance : Owns CallError where
  handles
    | .runtime v => Owns.handles v
    | .other _ => []

/-- `String::from_object`, on a string. -/
def StringHandle.fromObject (env : Env) (o : Object) (str : List UInt8) :
    Act World StringHandle := do
  o.pushIntoStack
  match ← (Api.sqGetstringandsize env (-1)).on o.sq with
  | some bytes =>
    (Squirrel.pop o.sq 1).onUnwind o.drop
    pure ⟨o.sq, str, bytes⟩
  | none =>
    o.drop
    Act.panic "sq_getstringandsized failed"

/-- `Object::into_value`. -/
def Object.intoValue (env : Env) (o : Object) : Act World Value :=
  match o.obj with
  | .null => do
    o.drop
    pure .null
  | .integer n => do
    o.drop
    pure (.integer n)
  | .float bits => do
    o.drop
    pure (.float bits)
  | .bool b => do
    o.drop
    pure (.bool b)
  | .userPointer p => do
    o.drop
    pure (.userPointer p)
  | .string str => do
    let s ← StringHandle.fromObject env o str
    pure (.string s)
  | .ref t r => pure (.handle t ⟨o.sq, r⟩)

/-- `Squirrel::push_value`. -/
def Squirrel.pushValue (sq : VmId) : Value → Act World Unit
  | .null => Api.sqPushnull.on sq
  | .integer n => (Api.sqPushinteger n).on sq
  | .float bits => (Api.sqPushfloat bits).on sq
  | .bool b => (Api.sqPushbool b).on sq
  | .userPointer p => (Api.sqPushuserpointer p).on sq
  | .string s => do
    Squirrel.assertSameVm sq s.sq
    s.object.pushIntoStack
  | .handle _ h => do
    Squirrel.assertSameVm sq h.sq
    h.object.pushIntoStack

/-! ## Errors -/

/-- `CallError::get_runtime_error`. -/
def CallError.getRuntimeError (env : Env) (sq : VmId) : Act World CallError := do
  Api.sqGetlasterror.on sq
  let err ← Object.fromStack (-1) sq
  (Squirrel.pop sq 1).onUnwind err.drop
  let v ← err.intoValue env
  pure (.runtime v)

/-- The failing branch of `SqResultExt::to_runtime_error`. -/
def CallError.afterPop (env : Env) (sq : VmId) (argsToPop : ℤ) : Act World CallError := do
  if 0 < argsToPop then Squirrel.pop sq argsToPop
  CallError.getRuntimeError env sq

namespace SQRESULT

/-- `SqResultExt::expect`. -/
def expect (r : SQRESULT) (message : String) : Act World Unit :=
  Act.ensure (r = .ok) message

/-- `SqResultExt::to_runtime_error`. -/
def toRuntimeError (env : Env) (r : SQRESULT) (sq : VmId) (argsToPop : ℤ) :
    Act World (Except CallError Unit) :=
  match r with
  | .ok => pure (.ok ())
  | .error => do
    let e ← CallError.afterPop env sq argsToPop
    pure (.error e)

end SQRESULT

end Squirrels
