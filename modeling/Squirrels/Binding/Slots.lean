import Squirrels.Binding.Convert

/-!
# Access to slots

The bodies that `Table`, `Class`, `Instance` and `Array` share: an operation pushes the object and
its arguments, calls one C function, and pops what that function has left. They differ in the C
function and in the number of slots popped after a failure.
-/

namespace Squirrels

open Machines

/-- `Result::expect` on a conversion. -/
def expectOk {α : Type} (r : Except Error α) (message : String) : Act World α :=
  match r with
  | .ok a => pure a
  | .error _ => Act.panic message

/-- `Ok(val?)`. -/
def liftError {α : Type} : Except Error α → Except CallError α
  | .ok a => .ok a
  | .error e => .error (.other e)

namespace Handle

variable {t : RefType} (env : Env) (self : Handle t)

/-- Convert the slot on top, then pop it together with `count - 1` slots below. -/
def takeTop {α : Type} [FromSquirrel α] [Owns α] (sq : VmId) (count : ℤ) :
    Act World (Except Error α) := do
  let val : Except Error α ← FromSquirrel.fromStack env (-1) sq
  (Squirrel.pop sq count).onUnwind (dropValue val)
  pure val

/-- Read a slot with the C function `read`, which pops the key when it fails. -/
def getWith {κ ν : Type} [IntoSquirrel κ] [FromSquirrel ν] [Owns ν]
    (read : ℤ → Act SQVM SQRESULT) (key : κ) : Act World (Except CallError ν) := do
  self.object.pushIntoStack
  IntoSquirrel.pushIntoStack env key self.sq
  let ret ← (read (-2)).on self.sq
  match ← ret.toRuntimeError env self.sq 1 with
  | .error e => pure (.error e)
  | .ok () =>
    let val ← takeTop env self.sq 2
    pure (liftError val)

/-- Write a slot with the C function `write`; `popped` slots are popped when it fails. -/
def setWith {κ ν : Type} [IntoSquirrel κ] [IntoSquirrel ν] [Owns ν]
    (write : ℤ → Act SQVM SQRESULT) (popped : ℤ) (key : κ) (value : ν) :
    Act World (Except CallError Unit) := do
  self.object.pushIntoStack
  (IntoSquirrel.pushIntoStack env key self.sq).onUnwind (dropValue value)
  IntoSquirrel.pushIntoStack env value self.sq
  let ret ← (write (-3)).on self.sq
  match ← ret.toRuntimeError env self.sq popped with
  | .error e => pure (.error e)
  | .ok () =>
    Squirrel.pop self.sq 1
    pure (.ok ())

/-- Run a C function that leaves one new object on top of `self`, and take the object. -/
def makeWith {α : Type} [FromSquirrel α] [Owns α] (make : ℤ → Act SQVM SQRESULT)
    (failed unexpected : String) : Act World α := do
  self.object.pushIntoStack
  let ret ← (make (-1)).on self.sq
  ret.expect failed
  let r ← takeTop env self.sq 2
  expectOk r unexpected

/-- Run a C function on the object alone that reports failure. -/
def actWith (act : ℤ → Act SQVM SQRESULT) : Act World (Except CallError Unit) := do
  self.object.pushIntoStack
  let ret ← (act (-1)).on self.sq
  match ← ret.toRuntimeError env self.sq 1 with
  | .error e => pure (.error e)
  | .ok () =>
    Squirrel.pop self.sq 1
    pure (.ok ())

/-- Run a C function on the object alone that is not expected to fail. -/
def doWith (act : ℤ → Act SQVM SQRESULT) (failed : String) : Act World Unit := do
  self.object.pushIntoStack
  let ret ← (act (-1)).on self.sq
  ret.expect failed
  Squirrel.pop self.sq 1

/-- `len` of a table or an array. -/
def len : Act World ℤ := do
  self.object.pushIntoStack
  let len ← (Api.sqGetsize (-1)).on self.sq
  Squirrel.pop self.sq 1
  pure len

end Handle

/-- Take the object that a C function has just pushed. -/
def takePushed {α : Type} [FromSquirrel α] [Owns α] (env : Env) (sq : VmId) (unexpected : String) :
    Act World α := do
  let val : Except Error α ← FromSquirrel.fromStack env (-1) sq
  (Squirrel.pop sq 1).onUnwind (dropValue val)
  expectOk val unexpected

end Squirrels
