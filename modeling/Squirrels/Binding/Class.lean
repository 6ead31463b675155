import Squirrels.Binding.Closure

/-!
# Classes and instances

The operations of `Class` and `Instance`.
-/

namespace Squirrels

open Machines

namespace Handle.Class

variable (env : Env)

/-- `Class::new`. -/
def new (sq : VmId) : Act World Class := do
  let ret ← (Api.sqNewclass env false).on sq
  ret.expect "sq_newclass failed"
  takePushed env sq "expecting the class we just pushed"

/-- `Class::with_base`. -/
def withBase (base : Class) : Act World Class := do
  base.object.pushIntoStack
  let ret ← (Api.sqNewclass env true).on base.sq
  ret.expect "sq_newclass failed"
  takePushed env base.sq "expecting the class we just pushed"

variable (self : Class) {κ ν α : Type} [IntoSquirrel κ]

/-- `Class::base`. -/
def base : Act World (Option Class) :=
  self.makeWith env (Api.sqGetbase env) "sq_getbase failed"
    "expecting the class we just pushed or null"

/-- `Class::raw_instantiate`. -/
def rawInstantiate : Act World Instance :=
  self.makeWith env (Api.sqCreateinstance env) "sq_createinstance failed"
    "expecting the instance we just created"

/-- `Class::instantiate`. -/
def instantiate [IntoArgs α] (args : α) : Act World (Except CallError Instance) := do
  self.object.pushIntoStack
  -- a placeholder that the constructor call replaces with the instance
  Api.sqPushnull.on self.sq
  callClosure env self.sq args

/-- The body of `Class::new_member` and `Class::raw_new_member`. -/
def memberWith [IntoSquirrel ν] [IntoSquirrel α] [Owns ν] [Owns α]
    (newMember : ℤ → Bool → Act SQVM SQRESULT) (key : κ) (value : ν) (attr : α)
    (isStatic : Bool) : Act World (Except CallError Unit) := do
  let prevTop ← Squirrel.stackDepth self.sq
  self.object.pushIntoStack
  (IntoSquirrel.pushIntoStack env key self.sq).onUnwind (dropValue (value, attr))
  (IntoSquirrel.pushIntoStack env value self.sq).onUnwind (dropValue attr)
  IntoSquirrel.pushIntoStack env attr self.sq
  let ret ← (newMember (-4) isStatic).on self.sq
  if ret.isError then
    -- the stack depends on the error path that was taken
    Squirrel.resizeStack self.sq prevTop
    let e ← CallError.getRuntimeError env self.sq
    pure (.error e)
  else
    Squirrel.pop self.sq 1
    pure (.ok ())

/-- `Class::new_member`. -/
def newMember [IntoSquirrel ν] [IntoSquirrel α] [Owns ν] [Owns α] (key : κ) (value : ν) (attr : α)
    (isStatic : Bool) : Act World (Except CallError Unit) :=
  memberWith env self (Api.sqNewmember env) key value attr isStatic

/-- `Class::raw_new_member`. -/
def rawNewMember [IntoSquirrel ν] [IntoSquirrel α] [Owns ν] [Owns α] (key : κ) (value : ν)
    (attr : α) (isStatic : Bool) : Act World (Except CallError Unit) :=
  memberWith env self (Api.sqRawnewmember env) key value attr isStatic

/-- `Class::new_slot`. -/
def newSlot [IntoSquirrel ν] [Owns ν] (key : κ) (value : ν) (isStatic : Bool) :
    Act World (Except CallError Unit) :=
  self.setWith env (fun idx => Api.sqNewslot env idx isStatic) 3 key value

/-- `Class::get`. -/
def get [FromSquirrel ν] [Owns ν] (key : κ) : Act World (Except CallError ν) :=
  self.getWith env (Api.sqGet env) key

/-- `Class::raw_get`. -/
def rawGet [FromSquirrel ν] [Owns ν] (key : κ) : Act World (Except CallError ν) :=
  self.getWith env (Api.sqRawget env) key

/-- `Class::raw_set`. -/
def rawSet [IntoSquirrel ν] [Owns ν] (key : κ) (value : ν) : Act World (Except CallError Unit) :=
  self.setWith env (Api.sqRawset env) 1 key value

/-- `MemberHandle`. -/
structure MemberHandle where
  ptr : Api.HSQMemberHandle
  cls : Class
deriving DecidableEq, Repr

instance : Owns MemberHandle := ⟨fun m => Owns.handles m.cls⟩

/-- `Class::member_handle`. -/
def memberHandle (name : StringHandle) : Act World (Except CallError MemberHandle) := do
  self.object.pushIntoStack
  IntoSquirrel.pushIntoStack env name self.sq
  match ← (Api.sqGetmemberhandle env (-2)).on self.sq with
  | none =>
    let e ← CallError.afterPop env self.sq 2
    pure (.error e)
  | some ptr =>
    Squirrel.pop self.sq 1
    let cls ← self.clone
    pure (.ok ⟨ptr, cls⟩)

/-- `Class::set_instance_user_data_size`. -/
def setInstanceUserDataSize (size : ℤ) : Act World (Except CallError Unit) := do
  Act.ensure (0 ≤ size) "Class::set_instance_user_data_size: size must be non-negative"
  self.actWith env fun idx => Api.sqSetclassudsize idx size

end Handle.Class

namespace Handle.Instance

variable (env : Env) (self : Instance) {κ ν α : Type} [IntoSquirrel κ]

/-- `Instance::class`. -/
def cls : Act World Class := do
  self.object.pushIntoStack
  let ret ← (Api.sqGetclass env (-1)).on self.sq
  ret.expect "sq_getclass failed"
  let r : Except Error Class ← FromSquirrel.fromStack env (-1) self.sq
  let cls ← expectOk r "expecting the class we just pushed"
  (Squirrel.pop self.sq 2).onUnwind (dropValue cls)
  pure cls

/-- `Instance::instance_of`. -/
def instanceOf (cls : Class) : Act World Bool := do
  Squirrel.assertSameVm self.sq cls.sq
  cls.object.pushIntoStack
  self.object.pushIntoStack
  match ← Api.sqInstanceof.on self.sq with
  | none => Act.panic "sq_instanceof failed"
  | some b =>
    Squirrel.pop self.sq 2
    pure b

/-- `Instance::get`. -/
def get [FromSquirrel ν] [Owns ν] (key : κ) : Act World (Except CallError ν) :=
  self.getWith env (Api.sqGet env) key

/-- `Instance::set`. -/
def set [IntoSquirrel ν] [Owns ν] (key : κ) (value : ν) : Act World (Except CallError Unit) :=
  self.setWith env (Api.sqSet env) 3 key value

/-- `Instance::raw_get`. -/
def rawGet [FromSquirrel ν] [Owns ν] (key : κ) : Act World (Except CallError ν) :=
  self.getWith env (Api.sqRawget env) key

/-- `Instance::raw_set`. -/
def rawSet [IntoSquirrel ν] [Owns ν] (key : κ) (value : ν) : Act World (Except CallError Unit) :=
  self.setWith env (Api.sqRawset env) 1 key value

/-- Call a method that has been looked up, then drop it. -/
def callFound [IntoArgs α] [Owns α] [FromSquirrel ν] [Owns ν] {t : RefType} (method : Handle t)
    (args : α) : Act World (Except CallError ν) := do
  let this ← self.clone
  let r ← (method.callWith env this args).onUnwind (dropValue method)
  dropValue method
  pure r

/-- `Instance::call_method`. -/
def callMethod [IntoArgs α] [Owns α] [FromSquirrel ν] [Owns ν] (key : κ) (args : α) :
    Act World (Except CallError ν) := do
  let method : Except CallError Value ← (get env self key).onUnwind (dropValue args)
  match method with
  | .error e =>
    dropValue args
    pure (.error e)
  | .ok (.handle .closure c) => callFound env self c args
  | .ok (.handle .nativeClosure c) => callFound env self c args
  | .ok method =>
    dropValue method
    dropValue args
    pure (.error (.other (.type "closure")))

end Handle.Instance

end Squirrels
