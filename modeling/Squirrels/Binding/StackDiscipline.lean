import Squirrels.Binding.Session

/-!
# Stack discipline

Runs of operations on tables and classes, and runs of operations on script code, leave the stacks
of all machines as they were, as long as every operation finds the room it needs and the calls it
makes complete.
-/

namespace Squirrels

open Machines

/-! ## Tables and classes -/

/-- The operations of `Table` and `Class`. -/
inductive KeyedOp : Type 1 where
  | table (op : TableOp)
  | cls (op : ClassOp)

namespace KeyedOp

variable (env : Env)

/-- The call of an operation. -/
def toCall : KeyedOp → Call
  | table op => op.toCall env
  | cls op => op.toCall env

/-- All handles belong to the machine and sizes are not negative. -/
def Allowed : KeyedOp → Prop
  | table op => op.Allowed
  | cls op => op.Allowed

/-- The operation finds the room it needs. -/
def HasRoom (w : World) : KeyedOp → Prop
  | table op => op.Room (w (op.toCall env).vm) (w (op.toCall env).vm).stack.length
  | cls op => op.Room (w (op.toCall env).vm) (w (op.toCall env).vm).stack.length

/-- The operation finds the room it needs, and the calls it makes complete. -/
def CanRun (x : Session) (op : KeyedOp) : Prop :=
  op.Allowed ∧ op.HasRoom env x.world ∧ (op.toCall env).Completes x.world

/-- A step of a run of such operations. -/
def Steps : Session → Session → Prop := Moves (toCall env) (CanRun env)

variable {env}

theorem balanced (op : KeyedOp) (allowed : op.Allowed) {w : World} (room : op.HasRoom env w) :
    (op.toCall env).Balanced env True True w (w (op.toCall env).vm).stack := by
  cases op with
  | table op =>
    refine op.balanced ?_ (fun _ => allowed) fun _ => room
    cases op with
    | setDelegate self delegate => exact allowed
    | _ => trivial
  | cls op => exact op.balanced (fun _ => allowed) fun _ => room

theorem step (op : KeyedOp) {x : Session} (allowed : op.Allowed)
    (moved : x.live.Perm ((op.toCall env).consumed ++ x.live.diff (op.toCall env).consumed))
    (ready : op.HasRoom env x.world ∧ (op.toCall env).Completes x.world ∧
      (op.toCall env).goesOn x.world) : Steps env x (x.after (op.toCall env)) :=
  Moves.after op ⟨allowed, ready.1, ready.2.1⟩ moved ready.2.2

end KeyedOp

/-- Machines of sixteen slots, one of which is taken on the first machine. -/
def Session.small (env : Env) : Session :=
  Session.after ⟨World.opened env (fun _ => .empty) fun _ => 16, []⟩
    ((Op.machine (.pushValue 0 (.integer 7))).toCall env)

theorem small_opened (env : Env) : Owned (Session.small env).live (Session.small env).world ∧
    ∀ vm, ((Session.small env).world vm).errorSlot.isSome := by
  let start : Session := ⟨World.opened env (fun _ => .empty) fun _ => 16, []⟩
  let push : Op := .machine (.pushValue 0 (.integer 7))
  have registered : ∀ vm, (start.world vm).errorSlot.isSome := registered_opened _ _ _
  have room : Fits (start.world 0) (start.world 0).stack.length 1 :=
    fits_opened env (fun _ => .empty) (fun _ => 16) 0 (by decide)
  have accounted : (push.toCall env).Accounted env True start.world (start.world 0).stack :=
    push.accounted trivial (fun _ => rfl) (fun _ => registered 0) fun _ => room
  obtain ⟨owned, same⟩ := accounted.step (owned_opened _ _ _) rfl
    (Call.step_after (x := start) (.refl _) rfl)
  exact ⟨owned, fun vm => (same vm).registered.trans (registered vm)⟩

/-- A table gets a slot, a missing one is read, and a class is made, in a program whose functions
suspend. -/
def Session.few : Session :=
  ([.table (.new 0), .table (.set ⟨0, 1⟩ ⟨(1 : ℤ)⟩ ⟨(2 : ℤ)⟩), .table (.get ⟨0, 1⟩ ⟨(3 : ℤ)⟩ ⟨ℤ⟩),
    .cls (.new 0)].map (KeyedOp.toCall .suspending)).foldl Session.after (.small .suspending)

/-- A class whose metamethod `_newmember` suspends. -/
def suspendingClass : Act World (Except Error Class) := do
  match ← Squirrel.compileStr .suspending 0 (ascii "suspend()") (ascii "=script") with
  | .error e => pure (.error e)
  | .ok closure =>
    let cls ← Handle.Class.new .suspending 0
    let _ ← Handle.Class.newSlot .suspending cls (Bytes.mk (ascii "_newmember")) closure false
    pure (.ok cls)

namespace ScriptOp

variable (env : Env)

/-- The operation finds the room it needs. -/
def HasRoom (w : World) (op : ScriptOp) : Prop :=
  op.Room env (w (op.toCall env).vm) (w (op.toCall env).vm).stack.length

/-- The operation finds the room it needs, and the calls it makes complete. -/
def CanRun (x : Session) (op : ScriptOp) : Prop :=
  op.Allowed ∧ op.HasRoom env x.world ∧ (op.toCall env).Completes x.world

/-- A step of a run of such operations. -/
def Steps : Session → Session → Prop := Moves (toCall env) (CanRun env)

variable {env}

theorem step (op : ScriptOp) {x : Session} (allowed : op.Allowed)
    (moved : x.live.Perm ((op.toCall env).consumed ++ x.live.diff (op.toCall env).consumed))
    (ready : op.HasRoom env x.world ∧ (op.toCall env).Completes x.world ∧
      (op.toCall env).goesOn x.world) : Steps env x (x.after (op.toCall env)) :=
  Moves.after op ⟨allowed, ready.1, ready.2.1⟩ moved ready.2.2

end ScriptOp

/-- A script is compiled, evaluated with a result that does not convert, and called. -/
def Session.called : Session :=
  ([.compileStr 0 (ascii "return 1") (ascii "=script"),
    .eval 0 (ascii "return 1") ⟨StringHandle⟩,
    .callWith (⟨0, 0⟩ : Closure) ⟨(5 : ℤ)⟩ ⟨[(6 : ℤ), 7]⟩ ⟨ℤ⟩].map
      (ScriptOp.toCall .returning)).foldl Session.after (.small .returning)

end Squirrels
