import Squirrels.Binding.Slots

/-!
# Tables

The operations of `Table` and its iterator.
-/

namespace Squirrels

open Machines

namespace Handle.Table

variable (env : Env)

/-- `Table::new`. -/
def new (sq : VmId) : Act World Table := do
  Api.sqNewtable.on sq
  let r : Except Error Table ← FromSquirrel.fromStack env (-1) sq
  let obj ← expectOk r "expecting the table we just created"
  (Squirrel.pop sq 1).onUnwind (dropValue obj)
  pure obj

/-- `Table::with_capacity`. -/
def withCapacity (sq : VmId) (slots : ℤ) : Act World Table := do
  Act.ensure (0 ≤ slots) "Table::with_capacity: initial_capacity must be non-negative"
  (Api.sqNewtableex slots).on sq
  let r : Except Error Table ← FromSquirrel.fromStack env (-1) sq
  let obj ← expectOk r "expecting the table we just created"
  (Squirrel.pop sq 1).onUnwind (dropValue obj)
  pure obj

variable (self : Table) {κ ν : Type} [IntoSquirrel κ]

/-- `Table::get`. -/
def get [FromSquirrel ν] [Owns ν] (key : κ) : Act World (Except CallError ν) :=
  self.getWith env (Api.sqGet env) key

/-- `Table::set`. -/
def set [IntoSquirrel ν] [Owns ν] (key : κ) (value : ν) : Act World (Except CallError Unit) :=
  self.setWith env (fun idx => Api.sqNewslot env idx false) 3 key value

/-- `Table::assign`. -/
def assign [IntoSquirrel ν] [Owns ν] (key : κ) (value : ν) : Act World (Except CallError Unit) :=
  self.setWith env (Api.sqSet env) 3 key value

/-- `Table::delete`. -/
def delete [FromSquirrel ν] [Owns ν] (key : κ) : Act World (Except CallError ν) := do
  let prevTop ← Squirrel.stackDepth self.sq
  self.object.pushIntoStack
  IntoSquirrel.pushIntoStack env key self.sq
  let ret ← (Api.sqDeleteslot env (-2)).on self.sq
  if ret.isError then
    -- `sq_deleteslot` leaves the stack in a state that depends on the error
    Squirrel.resizeStack self.sq prevTop
    let e ← CallError.getRuntimeError env self.sq
    pure (.error e)
  else
    let val ← Handle.takeTop env self.sq 2
    pure (liftError val)

/-- `Table::clear`. -/
def clear : Act World Unit := self.doWith (Api.sqClear env) "sq_clear failed"

/-- `Table::raw_get`. -/
def rawGet [FromSquirrel ν] [Owns ν] (key : κ) : Act World (Except CallError ν) :=
  self.getWith env (Api.sqRawget env) key

/-- `Table::raw_set`. -/
def rawSet [IntoSquirrel ν] [Owns ν] (key : κ) (value : ν) : Act World (Except CallError Unit) :=
  self.setWith env (Api.sqRawset env) 1 key value

/-- `Table::raw_delete`. -/
def rawDelete [FromSquirrel ν] [Owns ν] (key : κ) : Act World (Except Error (Option ν)) := do
  self.object.pushIntoStack
  IntoSquirrel.pushIntoStack env key self.sq
  let ret ← (Api.sqRawdeleteslot env (-2)).on self.sq
  ret.expect "sq_rawdeleteslot failed"
  Handle.takeTop env self.sq 2

/-- `Table::contains_key`. -/
def containsKey (key : κ) : Act World Bool := do
  self.object.pushIntoStack
  IntoSquirrel.pushIntoStack env key self.sq
  let ret ← (Api.sqRawget env (-2)).on self.sq
  if ret.isError then
    Squirrel.pop self.sq 1
    pure false
  else
    Squirrel.pop self.sq 2
    pure true

/-- The delegate of `Table::set_delegate`, pushed on the stack of its own machine. -/
def pushDelegate : Option Table → Act World Unit
  | none => Api.sqPushnull.on self.sq
  | some d => d.object.pushIntoStack

/-- `Table::set_delegate`. -/
def setDelegate (delegate : Option Table) : Act World (Except CallError Unit) := do
  self.object.pushIntoStack
  pushDelegate self delegate
  let ret ← (Api.sqSetdelegate (-2)).on self.sq
  match ← ret.toRuntimeError env self.sq 2 with
  | .error e => pure (.error e)
  | .ok () =>
    Squirrel.pop self.sq 1
    pure (.ok ())

/-- `Table::get_delegate`. -/
def getDelegate : Act World (Option Table) :=
  self.makeWith env Api.sqGetdelegate "sq_getdelegate failed" "expected table or null"

/-- `Table::clone_value`. -/
def cloneValue : Act World (Except CallError Table) := do
  self.object.pushIntoStack
  let ret ← (Api.sqClone env (-1)).on self.sq
  match ← ret.toRuntimeError env self.sq 1 with
  | .error e => pure (.error e)
  | .ok () =>
    let newTable ← Handle.takeTop env self.sq 2
    let newTable ← expectOk newTable "expected table after sq_clone"
    pure (.ok newTable)

/-! ## Iteration -/

/-- `TableSlots`: its table and its position are on the stack. -/
structure Slots where
  sq : VmId
deriving DecidableEq, Repr

/-- `Table::iter`. -/
def iter : Act World Slots := do
  self.object.pushIntoStack
  Api.sqPushnull.on self.sq
  pure ⟨self.sq⟩

/-- `TableSlots::drop`. -/
def Slots.drop (slots : Slots) : Act World Unit := Squirrel.pop slots.sq 2

/-- `TableSlots::next`. -/
def Slots.next {κ ν : Type} [FromSquirrel κ] [FromSquirrel ν] [Owns κ] [Owns ν] (slots : Slots) :
    Act World (Option (Except Error (κ × ν))) := do
  let ret ← (Api.sqNext env (-2)).on slots.sq
  if ret.isError then pure none
  else
    let key : Except Error κ ← FromSquirrel.fromStack env (-2) slots.sq
    let val : Except Error ν ←
      (FromSquirrel.fromStack env (-1) slots.sq).onUnwind (dropValue key)
    (Squirrel.pop slots.sq 2).onUnwind (dropValue (key, val))
    match key, val with
    | .ok key, .ok val => pure (some (.ok (key, val)))
    | .error e, val =>
      dropValue val
      pure (some (.error e))
    | .ok key, .error e =>
      dropValue key
      pure (some (.error e))

end Handle.Table

end Squirrels
