import Squirrels.Vm.State

/-!
# Calls

`SQVM::Call` and what it rests on: the frames of script functions (`StartCall`, `Execute`), those
of C functions (`CallNative`) and the calls of metamethods. The instructions of script functions
and the C functions themselves are parameters, gathered in `Env` with the rules they keep.
-/

namespace Squirrels

/-- `SQ_SUSPEND_FLAG`. -/
def sqSuspendFlag : ℤ := -666

/-- `SQ_TAILCALL_FLAG`. -/
def sqTailcallFlag : ℤ := -777

/-- The frames a suspended function leaves behind: everything above the base of its own frame,
the frames of the functions it was in, and the base of the innermost one. -/
structure Suspension where
  slots : List SQObject
  frames : List CallInfo
  base : ℕ
  value : SQObject

/-- How the instructions of a script function end. -/
inductive Exit where
  | returned (v : SQObject)
  | threw
  | suspended (point : Suspension)

/-- What the instructions of a script function do to the machine. They leave the frame they were
given; everything they called has been balanced, unless they were suspended. -/
structure Run where
  heap : Heap
  lasterror : SQObject
  errorhandler : ErrorHandler
  roottable : Option ℕ
  /-- Slots by which nested frames have grown the stack vector. -/
  grow : ℕ
  compileError : Option CompileError
  overflowed : Bool
  invoked : List ℕ
  exit : Exit

/-- The cells that nothing rewrites once they are made, apart from the borrows of what is boxed. -/
structure Heap.Grows (h h' : Heap) : Prop where
  natives_next : h.natives.next ≤ h'.natives.next
  natives : ∀ r < h.natives.next, h'.natives.read r = h.natives.read r
  userData_next : h.userData.next ≤ h'.userData.next
  payload : ∀ r < h.userData.next, (h'.userData.read r).payload.map Payload.typeId =
    (h.userData.read r).payload.map Payload.typeId
  typetag : ∀ r < h.userData.next, (h'.userData.read r).typetag = (h.userData.read r).typetag

/-- What a C function may do to the machine: it works above the base of its frame and leaves the
frames, the counters and the references as they were. A Rust function can neither capture handles
nor take them as arguments, so those it makes are gone when it returns. -/
structure NativeLaw (s : SQVM) (r : ℤ × SQVM) : Prop where
  below : ∃ above, r.2.stack = above ++ s.stack.drop s.depth
  stackbase : r.2.stackbase = s.stackbase
  calls : r.2.calls = s.calls
  nnativecalls : r.2.nnativecalls = s.nnativecalls
  nmetamethodscall : r.2.nmetamethodscall = s.nmetamethodscall
  suspended : r.2.suspended = s.suspended
  stackSize : s.stackSize ≤ r.2.stackSize
  stranded : s.stranded ≤ r.2.stranded
  refs : r.2.refs = s.refs
  root : r.2.root = s.root
  registered : r.2.errorSlot.isSome = s.errorSlot.isSome
  heap : s.heap.Grows r.2.heap
  /-- `sq_tailcall` accepts a script function only, as the first slot of the frame. -/
  tailcall : r.1 = sqTailcallFlag → ∃ c, s.stackGet 1 = .ref .closure c
  /-- `Suspend` is refused below any other native call. -/
  suspends : r.1 = sqSuspendFlag → s.nnativecalls = 2

/-- The part of an `SQFunctionProto` that calls read. -/
structure SQFunctionProto where
  nparameters : ℕ
  varparams : Bool
  ndefaultparams : ℕ
  stacksize : ℕ
  bgenerator : Bool
deriving DecidableEq, Repr

/-- What surrounds the machine: the allocator, number formatting, the functions that script code
consists of, the C functions, the instructions of the former and the compiler. -/
structure Env where
  address : RefType → ℕ → ℕ
  formatFloat : BitVec 32 → List UInt8
  proto : ℕ → SQFunctionProto
  native : ℕ → SQVM → ℤ × SQVM
  body : SQVM → ℕ → Run
  compile : SQVM → List UInt8 → List UInt8 → Except CompileError ℕ
  native_law : ∀ f (s : SQVM), NativeLaw s (native f s)
  body_grows : ∀ (s : SQVM) c, s.heap.Grows (body s c).heap
  /-- `Suspend` is allowed directly below the outermost `Execute` of a machine that runs. -/
  body_suspends : ∀ (s : SQVM) c point, (body s c).exit = .suspended point →
    s.nnativecalls = 1 ∧ s.suspended = false

/-- `HashObj` with the addresses of the allocator. -/
def Env.hash (env : Env) : SQObject → ℕ := hashObj env.address

/-- The program of one function that takes any arguments and does nothing but end as given. It is
suspended only where `Suspend` is allowed. -/
def Env.scripted (behave : SQVM → Exit) : Env where
  address _ r := 8 * r
  formatFloat _ := []
  proto _ := ⟨2, true, 0, 4, false⟩
  native _ s := (0, s)
  body s _ :=
    { heap := s.heap
      lasterror := s.lasterror
      errorhandler := s.errorhandler
      roottable := s.roottable
      grow := 0
      compileError := none
      overflowed := false
      invoked := []
      exit := match behave s with
        | .suspended point =>
          if s.nnativecalls = 1 ∧ s.suspended = false then .suspended point else .threw
        | other => other }
  compile _ _ _ := .ok 0
  native_law _ s :=
    { below := ⟨s.stack.take s.depth, (List.take_append_drop _ _).symm⟩
      stackbase := rfl
      calls := rfl
      nnativecalls := rfl
      nmetamethodscall := rfl
      suspended := rfl
      stackSize := le_rfl
      stranded := le_rfl
      refs := rfl
      root := rfl
      registered := rfl
      heap := ⟨le_rfl, fun _ _ => rfl, le_rfl, fun _ _ => rfl, fun _ _ => rfl⟩
      tailcall := by simp [sqTailcallFlag]
      suspends := by simp [sqSuspendFlag] }
  body_grows _ _ := ⟨le_rfl, fun _ _ => rfl, le_rfl, fun _ _ => rfl, fun _ _ => rfl⟩
  body_suspends s _ point := by
    simp only
    split
    · split
      · exact fun _ => ‹_›
      · simp
    · rename_i other
      exact fun eq => (other point eq).elim

/-- A program whose function returns. -/
def Env.returning : Env := .scripted fun _ => .returned (.integer 1)

/-- A program whose function throws. -/
def Env.throwing : Env := .scripted fun _ => .threw

/-- A program whose function calls `suspend()`. -/
def Env.suspending : Env :=
  .scripted fun s => .suspended ⟨s.stack.take s.depth, [], s.stackbase, .null⟩

/-- The result of a call: whether it succeeded, and what was stored in its result argument. -/
structure CallResult where
  ok : Bool
  res : Option SQObject
deriving DecidableEq, Repr

namespace CallResult

/-- A call that failed before it stored anything. -/
def failed : CallResult := ⟨false, none⟩

/-- A call that returned a value. -/
def returned (v : SQObject) : CallResult := ⟨true, some v⟩

end CallResult

/-- The text of an `int` argument of a message. -/
def formatInt (n : ℤ) : List UInt8 := ascii (toString n)

namespace SQVM

variable (env : Env)

/-! ## C functions -/

/-- The first argument that the type mask of a native function does not accept. -/
def badArgument (args : List SQObject) (typecheck : List ℤ) : Option (ℕ × ℤ × SQObject) :=
  ((args.zip typecheck).zipIdx.find? fun ((o, mask), _) =>
    mask ≠ -1 && rawType o.type &&& mask.toNat = 0).map fun ((o, mask), i) => (i, mask, o)

/-- The type names of a mask, as `Raise_ParamTypeError` lists them. -/
def maskNames (mask : ℤ) : List UInt8 :=
  let types : List SQObjectType := [.null, .integer, .float, .bool, .string, .ref .table,
    .ref .array, .ref .userData, .ref .closure, .ref .nativeClosure, .ref .generator, .userPointer,
    .ref .thread, .funcProto, .ref .cls, .ref .inst]
  let names := (types.filter fun t => rawType t &&& mask.toNat ≠ 0).map fun t =>
    ascii (idType2Name t)
  (names.intersperse (ascii "|")).flatten

/-- `Raise_ParamTypeError`. -/
def raiseParamTypeError (s : SQVM) (nparam : ℕ) (mask : ℤ) (o : SQObject) : SQVM :=
  s.raiseError "parameter %d has an invalid type '%s' ; expected: '%s'"
    (ascii "parameter " ++ formatInt nparam ++ ascii " has an invalid type '" ++
      ascii (idType2Name o.type) ++ ascii "' ; expected: '" ++ maskNames mask ++ ascii "'")

/-- Whether `CallNative` rejects the number of arguments. -/
def wrongParameters (nparamscheck : ℤ) (nargs : ℕ) : Bool :=
  (0 < nparamscheck && nparamscheck ≠ nargs) || (nparamscheck < 0 && (nargs : ℤ) < -nparamscheck)

/-- Write the slot at an absolute index. -/
def setAt (s : SQVM) (a : ℕ) (o : SQObject) : SQVM :=
  { s with stack := s.stack.set (s.top - 1 - a) o }

/-- The frame of a C function: its arguments, then its free variable; a bound environment replaces
`this`. -/
def nativeFrame (s : SQVM) (nc : SQNativeClosure) (newbase : ℕ) : SQVM :=
  let s := { s with nnativecalls := s.nnativecalls + 1 }
  let s := match nc.upvalue with
    | none => s
    | some o => s.setUp 0 o
  match nc.env with
  | none => s
  | some o => s.setAt newbase o.object

/-- The return from a C function. -/
def nativeReturn (ret : ℤ) (s : SQVM) : CallResult × SQVM :=
  let s := { s with nnativecalls := s.nnativecalls - 1 }
  if ret = sqTailcallFlag then (⟨true, none⟩, s)
  else if ret < 0 ∧ ret ≠ sqSuspendFlag then (.failed, s.leaveFrame)
  else (.returned (if ret = 0 then .null else s.up 0), s.leaveFrame)

/-- `CallNative`. -/
def callNative (s : SQVM) (r nargs newbase : ℕ) : CallResult × SQVM :=
  let nc := s.heap.natives.read r
  if maxNativeCalls < s.nnativecalls + 1 then (.failed, s.raise "Native stack overflow")
  else if wrongParameters nc.nparamscheck nargs then
    (.failed, s.raise "wrong number of parameters")
  else
    match badArgument (s.stack.take nargs).reverse nc.typecheck with
    | some (i, mask, o) => (.failed, s.raiseParamTypeError i mask o)
    | none =>
      match s.enterFrame newbase (newbase + nargs + nc.upvalue.toList.length) with
      | (false, s) => (.failed, s)
      | (true, s) =>
        let (ret, s) := env.native nc.function (s.nativeFrame nc newbase)
        nativeReturn ret s

/-! ## Script functions -/

/-- The arguments as `StartCall` arranges them for the callee: extra ones are packed into an
array, missing ones take their defaults. -/
def arrangeArgs (s : SQVM) (c : SQClosure) (args : List SQObject) :
    Except (String × List UInt8) (List SQObject × Heap) :=
  let func := env.proto c.function
  let nargs := args.length
  if func.varparams then
    let paramssize := func.nparameters - 1
    if nargs < paramssize then
      .error ("wrong number of parameters (%d passed, at least %d required)",
        ascii "wrong number of parameters (" ++ formatInt nargs ++ ascii " passed, at least " ++
          formatInt paramssize ++ ascii " required)")
    else
      let (arr, heap) := s.heap.newArray (args.drop paramssize)
      .ok (args.take paramssize ++ [.ref .array arr], heap)
  else
    let paramssize := func.nparameters
    let ndef := func.ndefaultparams
    if paramssize = nargs then .ok (args, s.heap)
    else if nargs < paramssize ∧ paramssize - nargs ≤ ndef then
      .ok (args ++ (c.defaultparams.take ndef).drop (ndef - (paramssize - nargs)), s.heap)
    else
      .error ("wrong number of parameters (%d passed, %d required)",
        ascii "wrong number of parameters (" ++ formatInt nargs ++ ascii " passed, " ++
          formatInt paramssize ++ ascii " required)")

/-- `StartCall`, without a tail call and up to the first instruction. -/
def startCall (s : SQVM) (c : SQClosure) (nargs stackbase : ℕ) : Bool × SQVM :=
  match s.arrangeArgs env c (s.stack.take nargs).reverse with
  | .error (format, text) => (false, s.raiseError format text)
  | .ok (args, heap) =>
    let args := match c.env with
      | none => args
      | some o => args.set 0 o.object
    let newtop := stackbase + (env.proto c.function).stacksize
    let (ok, s') := { s with heap := heap }.enterFrame stackbase newtop
    (ok, { s' with stack := resizeStack newtop (args.reverse ++ s.stack.drop nargs) })

/-- The machine after the instructions of a function, still inside its frame. -/
def after (s : SQVM) (run : Run) : SQVM :=
  { s with
    heap := run.heap
    lasterror := run.lasterror
    errorhandler := run.errorhandler
    roottable := run.roottable
    stackSize := s.stackSize + run.grow
    errorSlot := s.errorSlot.map fun e => run.compileError.or e
    overflowed := s.overflowed || run.overflowed
    invoked := run.invoked ++ s.invoked }

/-- The state of a machine suspended inside the frame `s` has entered. -/
def suspendAt (s : SQVM) (point : Suspension) : SQVM :=
  { s with
    suspended := true
    stack := point.slots ++ s.stack.drop s.depth
    calls := point.frames ++ s.calls
    stackbase := point.base
    stranded := s.stranded + 1 }

/-- `SQVM::Call` on top of a given `Execute`. -/
def callWith (execute : SQVM → ℕ → ℕ → ℕ → CallResult × SQVM) (s : SQVM) (callee : SQObject)
    (nparams stackbase : ℕ) : CallResult × SQVM :=
  match callee with
  | .ref .closure r => execute s r nparams stackbase
  | .ref .nativeClosure r => s.callNative env r nparams stackbase
  | .ref .cls r =>
    let (i, heap) := s.heap.createInstance r
    let inst : SQObject := .ref .inst i
    let s := { s with heap := heap }
    match (heap.classes.read r).constructor with
    | .ref .closure f =>
      let (result, s) := execute (s.setAt stackbase inst) f nparams stackbase
      (⟨result.ok, some inst⟩, s)
    | .ref .nativeClosure f =>
      let (result, s) := (s.setAt stackbase inst).callNative env f nparams stackbase
      (⟨result.ok, some inst⟩, s)
    | _ => (.returned inst, s)
  | o =>
    (.failed, s.raiseError "attempt to call '%s'"
      (ascii "attempt to call '" ++ ascii (idType2Name o.type) ++ ascii "'"))

/-- `CallErrorHandler` on top of a given `Execute`. -/
def callErrorHandler (execute : SQVM → ℕ → ℕ → ℕ → CallResult × SQVM) (s : SQVM) : SQVM :=
  let pushed := s.pushArgs [s.rootObject, s.lasterror]
  match s.errorhandler with
  | .none => s
  | .closure r => (execute pushed r 2 (pushed.top - 2)).2.pop 2
  | .nativeClosure r => (pushed.callNative env r 2 (pushed.top - 2)).2.pop 2

/-- Count one more native call. -/
def enterNative (s : SQVM) : SQVM := { s with nnativecalls := s.nnativecalls + 1 }

/-- Count one native call less. -/
def exitNative (s : SQVM) : SQVM := { s with nnativecalls := s.nnativecalls - 1 }

/-- A call that `StartCall` refused: the handler is called only when no other call is in the
stack. -/
def afterRefusal (execute : SQVM → ℕ → ℕ → ℕ → CallResult × SQVM) (s : SQVM) : SQVM :=
  if s.calls = [] then s.callErrorHandler env execute else s

/-- Run a script function in the frame it has been given. A generator is not run: it takes the
frame with it. -/
def runBody (s : SQVM) (c : SQClosure) (r : ℕ) : CallResult × SQVM :=
  if (env.proto c.function).bgenerator then
    let g := s.heap.generators
    (.returned (.ref .generator g),
      { s with heap := { s.heap with generators := g + 1 } }.leaveFrame)
  else
    let run := env.body s r
    let s := s.after run
    match run.exit with
    | .returned v => (.returned v, s.leaveFrame)
    | .threw => (.failed, s.leaveFrame)
    | .suspended point => (.returned point.value, s.suspendAt point)

/-- `Execute` of a call. The first argument is the number of native calls that may still be
nested; the handler of a refused call runs one level deeper. -/
def executeAt : ℕ → SQVM → ℕ → ℕ → ℕ → CallResult × SQVM
  | 0, s, _, _, _ => (.failed, s.raise "Native stack overflow")
  | left + 1, s, r, nargs, stackbase =>
    let c := s.heap.closures.read r
    match s.enterNative.startCall env c nargs stackbase with
    | (false, s) => (.failed, (s.afterRefusal env (executeAt left)).exitNative)
    | (true, s) => ((s.runBody env c r).1, (s.runBody env c r).2.exitNative)

/-- `SQVM::Call`. -/
def call (s : SQVM) (callee : SQObject) (nparams stackbase : ℕ) : CallResult × SQVM :=
  s.callWith env (executeAt env (maxNativeCalls - s.nnativecalls)) callee nparams stackbase

/-- `CallMetaMethod`, with the pushes that precede it. -/
def callMetaMethod (s : SQVM) (closure : SQObject) (args : List SQObject) : CallResult × SQVM :=
  let s := s.pushArgs args
  let s := { s with nmetamethodscall := s.nmetamethodscall + 1 }
  let (result, s) := s.call env closure args.length (s.top - args.length)
  (result, { s with nmetamethodscall := s.nmetamethodscall - 1 }.pop args.length)

end SQVM

end Squirrels
