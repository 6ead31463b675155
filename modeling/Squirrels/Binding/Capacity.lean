import Squirrels.Binding.Session

/-!
# The stack vector

Nothing in the binding reserves slots before it pushes them. A run stays inside the stack vectors
as long as `Squirrel::new` is given room for three slots, every operation finds the free slots that
its pushes need, and the calls it makes complete. A slot written beyond the vector overwrites
something else, so what is proved about the contents of a machine holds of the code in the states
reached by such runs.
-/

namespace Squirrels

open Machines

namespace Op

variable (env : Env)

/-- The operation finds the room it needs. -/
def HasRoom (w : World) (op : Op) : Prop :=
  op.Room env (w (op.toCall env).vm) (w (op.toCall env).vm).stack.length

/-- The operation finds the room it needs, and the calls it makes complete. -/
def CanRun (x : Session) (op : Op) : Prop :=
  op.OwnDelegate ∧ op.HasRoom env x.world ∧ (op.toCall env).Completes x.world

/-- A step of a run of such operations. -/
def Steps : Session → Session → Prop := Moves (toCall env) (CanRun env)

variable {env}

theorem step (op : Op) {x : Session} (own : op.OwnDelegate)
    (moved : x.live.Perm ((op.toCall env).consumed ++ x.live.diff (op.toCall env).consumed))
    (ready : op.HasRoom env x.world ∧ (op.toCall env).Completes x.world ∧
      (op.toCall env).goesOn x.world) : Steps env x (x.after (op.toCall env)) :=
  Moves.after op ⟨own, ready.1, ready.2.1⟩ moved ready.2.2

end Op

/-- Operations that find the room they need leave the machines as they were, apart from the stacks
and the objects. -/
theorem run_same {env : Env} {start now : Session}
    (run : Relation.ReflTransGen (Op.Steps env) start now) (owned : Owned start.live start.world)
    (registered : ∀ vm, (start.world vm).errorSlot.isSome) :
    Owned now.live now.world ∧ ∀ vm, Same env (start.world vm) (now.world vm) := by
  induction run with
  | refl => exact ⟨owned, fun _ => .refl _⟩
  | tail _ move ih =>
    obtain ⟨op, ⟨own, room, completes⟩, step⟩ := move
    have accounted : (op.toCall env).Accounted env True _ _ :=
      op.accounted own (fun _ => rfl) (fun _ => (ih.2 _).registered.trans (registered _))
        fun _ => room
    obtain ⟨owned', same⟩ := accounted.step ih.1 completes step
    exact ⟨owned', fun vm => (ih.2 vm).trans (same vm)⟩

/-- A table with a slot is iterated, and a script is called before the iterator is dropped, on a
machine of sixteen slots. -/
def Session.iterated : Session :=
  ([.script (.compileStr 0 (ascii "return 1") (ascii "=script")), .table (.new 0),
    .table (.set ⟨0, 1⟩ ⟨(1 : ℤ)⟩ ⟨(2 : ℤ)⟩), .slots (.iter ⟨0, 1⟩),
    .script (.call (⟨0, 0⟩ : Closure) ⟨[(6 : ℤ), 7, 8]⟩ ⟨ℤ⟩),
    .slots (.next ⟨0⟩ ⟨ℤ⟩ ⟨ℤ⟩)].map (Op.toCall .returning)).foldl Session.after
      ⟨World.opened .returning (fun _ => .empty) fun _ => 16, []⟩

/-- A call of a compiled function with twenty arguments. -/
def callWithTwenty : Act World (Except CallError Value) := do
  match ← Squirrel.compileStr .returning 0 (ascii "return 1") (ascii "=script") with
  | .error e => pure (.error (.other e))
  | .ok closure => closure.call .returning (List.replicate 20 (0 : ℤ))

end Squirrels
