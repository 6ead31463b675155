import Squirrels.Lib.Act
import Squirrels.Vm.Class

/-!
# The state of a virtual machine

`SQVM` holds the value stack, the call stack and the counters of the machine, its heap, and what
the binding keeps for it: the reference table, the compile error slot of the registry and the
cached root table. The stack is a list with its top first, so `_top` is its length; slots above
the top are null in the source and are not kept. `stackSize` is the allocated size of the stack
vector.

Three fields observe a run and are read by no operation: `overflowed` records that a slot was
written at or above `stackSize`, `stranded` counts the calls made for an API function that did not
give their caller its frame back or had no room for their arguments, and `invoked` lists the Rust
functions that were run.
-/

namespace Squirrels

open Machines

/-- `MIN_STACK_OVERHEAD`. -/
def minStackOverhead : ℕ := 15

/-- `MAX_NATIVE_CALLS`. -/
def maxNativeCalls : ℕ := 100

/-- The part of a `CallInfo` that restores the caller. Both are relative to the caller's base. -/
structure CallInfo where
  prevstkbase : ℕ
  prevtop : ℕ
deriving DecidableEq, Repr

/-- What `sq_seterrorhandler` accepts. -/
inductive ErrorHandler where
  | none
  | closure (r : ℕ)
  | nativeClosure (r : ℕ)
deriving DecidableEq, Repr

/-- A compile error as the registry keeps it. -/
structure CompileError where
  description : List UInt8
  sourceName : List UInt8
  line : ℤ
  column : ℤ
deriving DecidableEq, Repr

/-- A virtual machine. -/
structure SQVM where
  stack : List SQObject
  stackSize : ℕ
  stackbase : ℕ
  calls : List CallInfo
  nnativecalls : ℕ
  nmetamethodscall : ℕ
  suspended : Bool
  lasterror : SQObject
  errorhandler : ErrorHandler
  /-- The root table, if it has not been set to null. -/
  roottable : Option ℕ
  /-- The default delegates of the shared state. -/
  defaultDelegate : SQObjectType → Option ℕ
  heap : Heap
  /-- The reference table: the count `sq_addref` and `sq_release` keep for an object. -/
  refs : SQObject → ℕ
  /-- The registry entry of the machine, if it is registered. -/
  errorSlot : Option (Option CompileError)
  /-- The root table cached in `Squirrel`. -/
  root : ℕ
  overflowed : Bool
  stranded : ℕ
  invoked : List ℕ

namespace SQVM

variable (s : SQVM)

/-- The object `sq_pushroottable` pushes. -/
def rootObject : SQObject :=
  match s.roottable with
  | none => .null
  | some r => .ref .table r

/-- `_top`. -/
def top : ℕ := s.stack.length

/-- `sq_gettop`: the depth of the current frame. -/
def depth : ℕ := s.top - s.stackbase

/-- `SQVM::Push`, by the machine itself. -/
def push (o : SQObject) : SQVM := { s with stack := o :: s.stack }

/-- `SQVM::Push`, by an API function the binding calls. -/
def apiPush (o : SQObject) : SQVM :=
  { s with stack := o :: s.stack, overflowed := s.overflowed || decide (s.stackSize ≤ s.top) }

/-- `SQVM::Push` of each argument of a call that the machine makes for an API function. -/
def pushArgs (args : List SQObject) : SQVM :=
  let beyond := decide (s.stackSize < s.top + args.length)
  { s with
    stack := args.reverse ++ s.stack
    overflowed := s.overflowed || beyond
    stranded := s.stranded + beyond.toNat }

/-- `SQVM::Pop`. -/
def pop (n : ℕ) : SQVM := { s with stack := s.stack.drop n }

/-- The object `n` slots below the top, that is `GetUp(-(n + 1))`. -/
def up (n : ℕ) : SQObject := s.stack.getD n .null

/-- Write the object `n` slots below the top. -/
def setUp (n : ℕ) (o : SQObject) : SQVM := { s with stack := s.stack.set n o }

/-- `stack_get`. -/
def stackGet (idx : ℤ) : SQObject :=
  if 0 ≤ idx then s.stack.reverse.getD (idx.toNat + s.stackbase - 1) .null
  else s.up ((-idx).toNat - 1)

/-- Set `_lasterror`. -/
def withError (o : SQObject) : SQVM := { s with lasterror := o }

/-- `sq_throwerror`, and `Raise_Error` with a text without arguments. -/
def raise (message : String) : SQVM := s.withError (.string (ascii message))

/-- `Raise_Error` with a formatted text, cut to the size of its buffer. -/
def raiseError (format : String) (text : List UInt8) : SQVM :=
  s.withError (.string (text.take (format.length + 99)))

end SQVM

/-! ## Frames -/

/-- Cut the stack, or fill it with nulls, to a height. -/
def resizeStack (n : ℕ) (stack : List SQObject) : List SQObject :=
  if n ≤ stack.length then stack.drop (stack.length - n)
  else List.replicate (n - stack.length) .null ++ stack

theorem resizeStack_length_add (stack : List SQObject) (n : ℕ) :
    resizeStack (stack.length + n) stack = List.replicate n .null ++ stack := by
  unfold resizeStack
  split
  · obtain rfl : n = 0 := by omega
    simp
  · rw [Nat.add_sub_cancel_left]

/-- What lies at the bottom of the stack stays there when the stack is resized above it. -/
theorem resizeStack_append {n : ℕ} (above below : List SQObject) (le : below.length ≤ n) :
    ∃ above', above'.length = n - below.length ∧
      resizeStack n (above ++ below) = above' ++ below := by
  unfold resizeStack
  split
  · rename_i fits
    rw [List.length_append] at fits
    refine ⟨above.drop (above.length + below.length - n), ?_, ?_⟩
    · rw [List.length_drop]; omega
    · rw [List.length_append, List.drop_append_of_le_length (by omega)]
  · rename_i short
    rw [List.length_append] at short
    refine ⟨List.replicate (n - (above ++ below).length) .null ++ above, ?_, ?_⟩
    · rw [List.length_append, List.length_replicate, List.length_append]; omega
    · rw [List.append_assoc]

namespace SQVM

variable (s : SQVM)

/-- `EnterFrame`, without a tail call. The flag tells whether the frame could be entered; a
refused frame stays where it is. -/
def enterFrame (newbase newtop : ℕ) : Bool × SQVM :=
  let s' := { s with
    calls := ⟨newbase - s.stackbase, s.top - s.stackbase⟩ :: s.calls
    stackbase := newbase
    stack := resizeStack newtop s.stack }
  if s.stackSize < newtop + minStackOverhead then
    if 0 < s.nmetamethodscall then
      (false, { s' with stranded := s.stranded + 1 }.raise
        "stack overflow, cannot resize stack while in a metamethod")
    else (true, { s' with stackSize := newtop + minStackOverhead * 4 })
  else (true, s')

/-- `LeaveFrame`. -/
def leaveFrame : SQVM :=
  match s.calls with
  | [] => s
  | ci :: calls =>
    let stackbase := s.stackbase - ci.prevstkbase
    { s with
      calls := calls
      stackbase := stackbase
      stack := resizeStack (stackbase + ci.prevtop) s.stack }

end SQVM

end Squirrels
