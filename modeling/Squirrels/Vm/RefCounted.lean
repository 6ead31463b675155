import Mathlib.Data.List.Basic
import Mathlib.Logic.Function.Basic
import Squirrels.Lib.Counting
import Squirrels.Lib.Worklist

/-!
# Reference-counted objects

An object of the machine lives as long as references to it are counted. The last reference that goes
calls `Release`, which destroys the references the object holds, one after the other and each with
all that follows from it, and then frees the object. A weak reference is an object of its own, which
the object it names keeps the address of and makes null when it goes.

A reference is the address of an object, or none for a value that is not counted. Addresses are not
used twice. A program that touches a freed object has no result.
-/

namespace Squirrels

/-- What an object consists of, besides its counts. -/
inductive Memory.Body where
  /-- `SQWeakRef::_obj`: the object it was made for, and whether it still names it. -/
  | weak (target : ℕ) (alive : Bool)
  /-- An `SQString`. -/
  | string
  /-- An `SQCollectable`, with the references it holds in the order in which they are destroyed. -/
  | collectable (fields : List (Option ℕ))
deriving DecidableEq, Repr

/-- `SQRefCounted`, with the count and the mark of `_uiRef` apart. -/
structure Memory.SQRefCounted where
  uiRef : ℕ
  marked : Bool
  weakref : Option ℕ
  body : Memory.Body
deriving DecidableEq, Repr

/-- The objects, and the slots outside of objects that count references. `hooked` has the objects
with a release hook, and `released` those whose hook has been called. -/
structure Memory where
  cells : ℕ → Option Memory.SQRefCounted
  next : ℕ
  slots : List (Option ℕ)
  gcChain : List ℕ
  hooked : List ℕ
  released : List ℕ

namespace Memory

namespace Body

/-- The references that a body holds. -/
def fields : Body → List (Option ℕ)
  | .collectable fields => fields
  | _ => []

/-- The body is that of an `SQCollectable`. -/
def isCollectable : Body → Bool
  | .collectable _ => true
  | _ => false

/-- The body with other references. -/
def withFields (fields : List (Option ℕ)) : Body → Body
  | .collectable _ => .collectable fields
  | body => body

/-- The body of a weak reference to an object that has gone. -/
def dead : Body → Body
  | .weak target _ => .weak target false
  | body => body

end Body

/-- No objects, and so many slots. -/
def empty (slots : ℕ) : Memory where
  cells _ := none
  next := 0
  slots := List.replicate slots none
  gcChain := []
  hooked := []
  released := []

variable (m : Memory)

/-- Write an object. -/
def put (a : ℕ) (c : SQRefCounted) : Memory :=
  { m with cells := Function.update m.cells a (some c) }

/-- Change the object at an address. -/
def change (a : ℕ) (f : SQRefCounted → SQRefCounted) : Option Memory :=
  (m.cells a).map fun c => m.put a (f c)

/-- The references that an object holds. -/
def fieldsOf (a : ℕ) : List (Option ℕ) :=
  match m.cells a with
  | some c => c.body.fields
  | none => []

/-! ## Releasing -/

/-- What is left to do of a release. -/
inductive Task where
  /-- `__Release`. -/
  | release (v : Option ℕ)
  /-- The end of a destructor, after the references of the object. -/
  | finish (a : ℕ)
deriving DecidableEq, Repr

/-- `~SQRefCounted` for the weak reference to the object. -/
def forget (weakref : Option ℕ) : Option Memory :=
  match weakref with
  | none => some m
  | some w => m.change w fun c => { c with body := c.body.dead }

/-- The object is freed, and taken from the chain it is on. -/
def free (a : ℕ) : Memory :=
  { m with cells := Function.update m.cells a none, gcChain := m.gcChain.erase a }

/-- `Release`. -/
def destroy (a : ℕ) (c : SQRefCounted) : Option (List Task × Memory) :=
  match c.body with
  | .weak target alive => do
    let m ← if alive then m.change target fun c => { c with weakref := none } else some m
    let m ← m.forget c.weakref
    some ([], m.free a)
  | .string => do
    let m ← m.forget c.weakref
    some ([], m.free a)
  | .collectable fields =>
    some (fields.map .release ++ [.finish a],
      { m.put a { c with body := .collectable [] } with
        released := if a ∈ m.hooked then a :: m.released else m.released })

/-- Do one task: what it leaves to do. -/
def step : Task → Option (List Task × Memory)
  | .release none => some ([], m)
  | .release (some a) => do
    let c ← m.cells a
    -- an object with a reference to it has a count
    if c.uiRef = 0 then none
    else
      let c := { c with uiRef := c.uiRef - 1 }
      if c.uiRef = 0 ∧ c.marked = false then m.destroy a c else some ([], m.put a c)
  | .finish a => do
    let c ← m.cells a
    let m ← m.forget c.weakref
    some ([], m.free a)

/-- More than the steps that the destruction of an object leaves to do. -/
def cellWeight : Option SQRefCounted → ℕ
  | none => 0
  | some c =>
    if c.uiRef = 0 then 0
    else
      match c.body with
      | .collectable fields => fields.length + 2
      | _ => 1

/-- A bound for the steps that the destruction of all objects takes. -/
def weight : ℕ := Counting.weigh (fun a => cellWeight (m.cells a)) m.next

/-- Do tasks to the end. -/
def finishTasks (tasks : List Task) : Option Memory :=
  Worklist.run step (m.weight + tasks.length) tasks m

/-- `__Release`. -/
def release (v : Option ℕ) : Option Memory := m.finishTasks [.release v]

/-- `__AddRef`. -/
def addRef : Option ℕ → Option Memory
  | none => some m
  | some a => m.change a fun c => { c with uiRef := c.uiRef + 1 }

/-! ## Places -/

/-- Where an `SQObjectPtr` is: in a slot, or in the object that a slot refers to. -/
inductive Place where
  | slot (i : ℕ)
  | field (i j : ℕ)
deriving DecidableEq, Repr

/-- The object that a slot refers to. -/
def objectAt (i : ℕ) : Option ℕ := (m.slots[i]?).bind id

/-- What is at a place, if there is such a place. -/
def read : Place → Option (Option ℕ)
  | .slot i => m.slots[i]?
  | .field i j => (m.objectAt i).bind fun a => (m.fieldsOf a)[j]?

/-- Write the references of an object. -/
def writeFields (a : ℕ) (fields : List (Option ℕ)) : Option Memory :=
  m.change a fun c => { c with body := c.body.withFields fields }

/-- Write to a place. -/
def write (v : Option ℕ) : Place → Option Memory
  | .slot i => some { m with slots := m.slots.set i v }
  | .field i j =>
    match m.objectAt i with
    | none => some m
    | some a => m.writeFields a ((m.fieldsOf a).set j v)

/-- `SQObjectPtr::operator=`: the new reference is counted before the old one is released. -/
def assign (dst : Place) (v : Option ℕ) : Option Memory :=
  match m.read dst with
  | none => some m
  | some old => do
    let m ← m.write v dst
    let m ← m.addRef v
    m.release old

/-! ## Operations -/

/-- A new object without references to it. -/
def allocate (hooked : Bool) (body : Body) : Memory :=
  { m with
    cells := Function.update m.cells m.next (some ⟨0, false, none, body⟩)
    next := m.next + 1
    gcChain := if body.isCollectable then m.next :: m.gcChain else m.gcChain
    hooked := if hooked then m.next :: m.hooked else m.hooked }

/-- Count references, one after the other. -/
def addRefs : List (Option ℕ) → Memory → Option Memory
  | [], m => some m
  | v :: vs, m => (m.addRef v).bind (addRefs vs)

/-- `GetWeakRef`. -/
def getWeakRef (a : ℕ) : Option (ℕ × Memory) := do
  let c ← m.cells a
  match c.weakref with
  | some w => some (w, m)
  | none =>
    let w := m.next
    let m ← (m.allocate false (.weak a true)).change a fun c => { c with weakref := some w }
    some (w, m)

/-- `_realval`. -/
def realval : Option ℕ → Option (Option ℕ)
  | none => some none
  | some a => (m.cells a).map fun c =>
    match c.body with
    | .weak target alive => if alive then some target else none
    | _ => some a

/-- Resize the references of an object: `sqvector::resize`. -/
def resize (a n : ℕ) : Option Memory := do
  let fields := m.fieldsOf a
  let m ← m.writeFields a (fields.take n ++ List.replicate (n - fields.length) none)
  m.finishTasks ((fields.drop n).map .release)

/-- What the machine does with references. -/
inductive Op where
  /-- An assignment between places. -/
  | copy (dst src : Place)
  /-- `Null`. -/
  | null (dst : Place)
  /-- A new string. -/
  | string (dst : Place)
  /-- A new collectable object, perhaps with a release hook, that refers to what is at places. -/
  | create (dst : Place) (hooked : Bool) (fields : List Place)
  /-- The weak reference to what is at a place. -/
  | weakRef (dst src : Place)
  /-- What a weak reference names, and anything else itself. -/
  | strong (dst src : Place)
  /-- The object of a slot gets room for so many references; those beyond are released. -/
  | resize (i n : ℕ)
deriving DecidableEq, Repr

/-- Do one operation. -/
def perform : Op → Option Memory
  | .copy dst src => (m.read src).elim (some m) fun v => m.assign dst v
  | .null dst => m.assign dst none
  | .string dst => (m.allocate false .string).assign dst (some m.next)
  | .create dst hooked fields => do
    let values := fields.filterMap m.read
    let m' ← addRefs values (m.allocate hooked (.collectable values))
    m'.assign dst (some m.next)
  | .weakRef dst src =>
    match m.read src with
    | some (some a) => do
      let (w, m) ← m.getWeakRef a
      m.assign dst (some w)
    | _ => m.assign dst none
  | .strong dst src =>
    (m.read src).elim (some m) fun v => (m.realval v).bind fun v => m.assign dst v
  | .resize i n => (m.objectAt i).elim (some m) fun a => m.resize a n

/-- The place that an operation writes. -/
def Op.dst : Op → Option Place
  | .copy dst _ => some dst
  | .null dst => some dst
  | .string dst => some dst
  | .create dst _ _ => some dst
  | .weakRef dst _ => some dst
  | .strong dst _ => some dst
  | .resize _ _ => none

/-- Do one operation, unless there is no such place as it writes. -/
def exec (op : Op) : Option Memory :=
  if op.dst.all fun dst => (m.read dst).isSome then m.perform op else some m

/-- Do operations, one after the other. -/
def execAll : List Op → Memory → Option Memory
  | [], m => some m
  | op :: ops, m => (m.exec op).bind (execAll ops)

end Memory

end Squirrels
