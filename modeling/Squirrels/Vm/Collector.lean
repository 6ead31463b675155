import Squirrels.Vm.RefCounted

/-!
# The garbage collector

Counts do not free objects that refer to each other in a circle. The collector marks what the slots
lead to and moves it from the chain of the collectable objects to one of its own. It then empties
each object that is left on the chain. The object is held while it is emptied, and so is the next
one before the object is let go, so that whatever goes with it the next one is there.

The mark of an object does not follow all references that it counts: that of a thread leaves out the
open outers of the thread, and that of a generator the closure in the call it has kept.
-/

namespace Squirrels

namespace Memory

/-! ## Marking -/

/-- What is left to do of a mark. -/
inductive Visit where
  /-- `MarkObject`. -/
  | mark (v : Option ℕ)
  /-- `END_MARK`, after the references of the object. -/
  | leave (a : ℕ)
deriving DecidableEq, Repr

/-- The objects, and the chain of those that have been marked. -/
structure Marking where
  memory : Memory
  tchain : List ℕ

/-- The references that the `Mark` of an object follows: `follows` says which, by their index. -/
def followed (follows : ℕ → ℕ → Bool) (a : ℕ) (fields : List (Option ℕ)) : List (Option ℕ) :=
  (fields.zipIdx.filter fun field => follows a field.2).map Prod.fst

/-- Do one visit: what it leaves to do. Strings and weak references are not marked. -/
def Marking.step (follows : ℕ → ℕ → Bool) (s : Marking) : Visit → Option (List Visit × Marking)
  | .mark none => some ([], s)
  | .mark (some a) =>
    (s.memory.cells a).map fun c =>
      if c.body.isCollectable ∧ c.marked = false then
        ((followed follows a c.body.fields).map .mark ++ [.leave a],
          { s with memory := s.memory.put a { c with marked := true } })
      else ([], s)
  | .leave a =>
    some ([], ⟨{ s.memory with gcChain := s.memory.gcChain.erase a }, a :: s.tchain⟩)

/-- More than the visits that the mark of an object leaves. -/
def markWeight : Option SQRefCounted → ℕ
  | none => 0
  | some c => if c.marked then 0 else c.body.fields.length + 2

/-- A bound for the visits that are left. -/
def Marking.weight (s : Marking) : ℕ :=
  Counting.weigh (fun a => markWeight (s.memory.cells a)) s.memory.next

variable (m : Memory)

/-- `RunMark`. -/
def runMark (follows : ℕ → ℕ → Bool) : Option Marking :=
  Worklist.run (Marking.step follows) (Marking.weight ⟨m, []⟩ + m.slots.length)
    (m.slots.map .mark) ⟨m, []⟩

/-! ## Sweeping -/

/-- `Finalize`: an object is left with its first references, so many of them. -/
def finalize (a keeps : ℕ) : Option Memory := do
  let fields := m.fieldsOf a
  let m ← m.writeFields a (fields.take keeps)
  m.finishTasks ((fields.drop keeps).map .release)

/-- `_next`, on a chain. -/
def nextOf (a : ℕ) : List ℕ → Option ℕ
  | [] => none
  | b :: chain => if b = a then chain.head? else nextOf a chain

/-- The loop over the chain, from an object that is held: how many turns it makes, and what is left.
`keeps` says how many references of an object `Finalize` leaves. -/
def sweepFrom (keeps : ℕ → ℕ) : ℕ → Option ℕ → Memory → Option (ℕ × Memory)
  | _, none, m => some (0, m)
  | 0, some _, _ => none
  | fuel + 1, some t, m => do
    let m ← m.finalize t (keeps t)
    let nx := nextOf t m.gcChain
    let m ← m.addRef nx
    let m ← m.release (some t)
    let (n, m) ← sweepFrom keeps fuel nx m
    some (n + 1, m)

/-- Empty the objects on the chain, and let them go. -/
def sweep (keeps : ℕ → ℕ) : Option (ℕ × Memory) := do
  let first := m.gcChain.head?
  let m' ← m.addRef first
  sweepFrom keeps m.gcChain.length first m'

/-- `UnMark`, for the objects of a chain. -/
def unmarkAll : List ℕ → Memory → Option Memory
  | [], m => some m
  | a :: chain, m => (m.change a fun c => { c with marked := false }).bind (unmarkAll chain)

/-- `CollectGarbage`. -/
def collectGarbage (follows : ℕ → ℕ → Bool) (keeps : ℕ → ℕ) : Option (ℕ × Memory) := do
  let s ← m.runMark follows
  let (n, m) ← s.memory.sweep keeps
  let m ← unmarkAll s.tchain m
  some (n, { m with gcChain := s.tchain })

/-- `~SQSharedState`: the slots are emptied, and then the objects that are left. -/
def close (keeps : ℕ → ℕ) : Option Memory := do
  let m ← { m with slots := m.slots.map fun _ => none }.finishTasks (m.slots.map .release)
  let (_, m) ← m.sweep keeps
  some m

end Memory

end Squirrels
