import Squirrels.Binding.Class

/-!
# The machine

`Squirrel::compile_str`, `eval`, `root_table`, and `create_function` with the userdata that holds
the Rust function.
-/

namespace Squirrels

open Machines

namespace Squirrel

variable (env : Env) (sq : VmId)

/-- `compiler_error_handler::clear_error`. -/
def clearError : Act World Unit :=
  Act.on sq (Act.modify fun s => { s with errorSlot := s.errorSlot.map fun _ => none })

/-- `compiler_error_handler::take_error`. -/
def takeError : Act World (Option CompileError) :=
  Act.on sq (Act.step fun s =>
    (s.errorSlot.join, { s with errorSlot := s.errorSlot.map fun _ => none }))

/-- `Squirrel::compile_str`. -/
def compileStr (src sourceName : List UInt8) : Act World (Except Error Closure) := do
  clearError sq
  let ret ← (Api.sqCompilebuffer env src sourceName).on sq
  if ret.isError then
    match ← takeError sq with
    | some e => pure (.error (.compile e))
    | none => Act.panic "sq_compilebuffer failed but no compile error was captured"
  else
    let closure ← takePushed env sq "expecting the closure we just compiled"
    pure (.ok closure)

/-- `Squirrel::eval`. -/
def eval {ν : Type} [FromSquirrel ν] [Owns ν] (src : List UInt8) :
    Act World (Except CallError ν) := do
  pushRootTable sq
  let compileResult ← compileStr env sq src (ascii "=eval")
  (pop sq 1).onUnwind (dropValue compileResult)
  match compileResult with
  | .error e => pure (.error (.other e))
  | .ok closure =>
    let r ← (closure.call env ()).onUnwind (dropValue closure)
    dropValue closure
    pure r

/-- `Squirrel::root_table`. -/
def rootTable : Act World Table := do
  let w ← Act.get
  let root : Table := ⟨sq, (w sq).root⟩
  root.clone

/-- `Squirrel::drop`, up to `sq_close`. -/
def drop : Act World Unit := do
  let w ← Act.get
  (Api.sqRelease (.ref .table (w sq).root)).on sq

end Squirrel

/-- `userdata_tag`. -/
def userdataTag : ℕ := 1

/-- `UserData::new`, for a value of the Rust type `typeId`. -/
def Handle.UserData.new (env : Env) (sq : VmId) (typeId : ℕ) : Act World UserData := do
  (Api.sqNewuserdata ⟨typeId, 0⟩).on sq
  let ret ← (Api.sqSettypetag (-1) userdataTag).on sq
  ret.expect "sq_settypetag failed on fresh userdata"
  let r : Except Error UserData ← FromSquirrel.fromStack env (-1) sq
  let userData ← expectOk r "expecting the userdata we just pushed"
  (Squirrel.pop sq 1).onUnwind (dropValue userData)
  pure userData

instance : Owns Payload := ⟨fun _ => []⟩

/-- `UserData::payload`, which `borrow` and `borrow_mut` start with, at the Rust type `typeId`. -/
def Handle.UserData.payload (env : Env) (self : UserData) (typeId : ℕ) :
    Act World (Except Error Payload) := do
  self.object.pushIntoStack
  match ← (Api.sqGetuserdata env (-1)).on self.sq with
  | none => Act.panic "sq_getuserdata failed"
  | some (r, tag) =>
    Squirrel.pop self.sq 1
    if tag ≠ userdataTag then pure (.error (.type "a userdata object allocated by us"))
    else
      let w ← Act.get
      match ((w self.sq).heap.userData.read r).payload.filter (·.typeId = typeId) with
      | none => pure (.error (.type "userdata of matching type"))
      | some payload => pure (.ok payload)

/-- `Squirrel::create_function`, for the trampoline of a Rust function and the type of the
function. -/
def Squirrel.createFunction (env : Env) (sq : VmId) (trampoline typeId : ℕ) :
    Act World NativeClosure := do
  let upvalue ← Handle.UserData.new env sq typeId
  upvalue.object.pushIntoStack
  (Api.sqNewclosure trampoline).on sq
  let obj ← (Object.fromStack (-1) sq).onUnwind (dropValue upvalue)
  (Squirrel.pop sq 1).onUnwind (dropValue (obj, upvalue))
  dropValue upvalue
  match obj.ofType .nativeClosure with
  | some nc => pure nc
  | none => Act.stop (.abort "sq_newclosure pushes a native closure")

end Squirrels
