import Squirrels.Binding.Slots

/-!
# Arrays

The operations of `Array` and its iterator.
-/

namespace Squirrels

open Machines

namespace Handle.Array

variable (env : Env)

/-- `Array::new`. -/
def new (sq : VmId) (size : ℤ) : Act World ArrayHandle := do
  Act.ensure (0 ≤ size) "Array::new: size must be non-negative"
  (Api.sqNewarray size).on sq
  let r : Except Error ArrayHandle ← FromSquirrel.fromStack env (-1) sq
  let arr ← expectOk r "sq_newarray did not push an Array"
  (Squirrel.pop sq 1).onUnwind (dropValue arr)
  pure arr

variable (self : ArrayHandle) {ν : Type}

/-- `Array::get`. -/
def get [FromSquirrel ν] [Owns ν] (idx : ℤ) : Act World (Except CallError ν) :=
  self.getWith env (Api.sqGet env) idx

/-- `Array::set`. -/
def set [IntoSquirrel ν] [Owns ν] (key : ℤ) (value : ν) : Act World (Except CallError Unit) :=
  self.setWith env (Api.sqSet env) 3 key value

/-- `Array::append`. -/
def append [IntoSquirrel ν] (value : ν) : Act World Unit := do
  self.object.pushIntoStack
  IntoSquirrel.pushIntoStack env value self.sq
  let ret ← (Api.sqArrayappend env (-2)).on self.sq
  ret.expect "sq_arrayappend failed"
  Squirrel.pop self.sq 1

/-- `Array::pop`. -/
def pop [FromSquirrel ν] [Owns ν] : Act World (Except CallError ν) := do
  self.object.pushIntoStack
  let ret ← (Api.sqArraypop env (-1)).on self.sq
  match ← ret.toRuntimeError env self.sq 1 with
  | .error e => pure (.error e)
  | .ok () =>
    let v ← Handle.takeTop env self.sq 2
    pure (liftError v)

/-- `Array::insert`. -/
def insert [IntoSquirrel ν] (idx : ℤ) (value : ν) : Act World (Except CallError Unit) := do
  self.object.pushIntoStack
  IntoSquirrel.pushIntoStack env value self.sq
  let ret ← (Api.sqArrayinsert env (-2) idx).on self.sq
  match ← ret.toRuntimeError env self.sq 2 with
  | .error e => pure (.error e)
  | .ok () =>
    Squirrel.pop self.sq 1
    pure (.ok ())

/-- `Array::remove`. -/
def remove (idx : ℤ) : Act World (Except CallError Unit) :=
  self.actWith env fun i => Api.sqArrayremove env i idx

/-- `Array::reverse`. -/
def reverse : Act World Unit := self.doWith (Api.sqArrayreverse env) "sq_arrayreverse failed"

/-- `Array::clear`. -/
def clear : Act World Unit := self.doWith (Api.sqClear env) "sq_clear failed"

/-- `Array::resize`. -/
def resize (newSize : ℤ) : Act World (Except CallError Unit) :=
  self.actWith env fun i => Api.sqArrayresize env i newSize

/-- `Array::clone_value`. -/
def cloneValue : Act World ArrayHandle :=
  self.makeWith env (Api.sqClone env) "sq_clone failed" "expected array after sq_clone"

/-! ## Iteration -/

/-- `ArrayItems`. -/
structure Items where
  array : ArrayHandle
  idx : ℤ
  len : ℤ
deriving DecidableEq, Repr

instance : Owns Items := ⟨fun items => Owns.handles items.array⟩

/-- `Array::iter`. -/
def iter : Act World Items := do
  let array ← self.clone
  let len ← self.len.onUnwind (dropValue array)
  pure ⟨array, 0, len⟩

/-- `Array::into_iter`. -/
def intoIter : Act World Items := do
  let len ← self.len.onUnwind (dropValue self)
  pure ⟨self, 0, len⟩

/-- `ArrayItems::next`, with the iterator it leaves. -/
def Items.next [FromSquirrel ν] [Owns ν] (items : Items) :
    Act World (Option (Except CallError ν) × Items) := do
  if items.len ≤ items.idx then pure (none, items)
  else
    match ← get env items.array items.idx with
    | .ok v => pure (some (.ok v), { items with idx := items.idx + 1 })
    | .error e => pure (some (.error e), items)

end Handle.Array

end Squirrels
