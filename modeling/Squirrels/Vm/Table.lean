import Squirrels.Vm.Object

/-!
# The hash table

`SQTable` stores its slots in a power-of-two array of nodes. A key belongs to the node its hash
selects; colliding nodes are chained through `next`, and free places are taken from the end of
the array downwards, at `firstfree`. A free node has a null key. The hash is a parameter, since
that of an object in the heap depends on its address.
-/

namespace Squirrels

/-- `_HashNode`. -/
structure HashNode where
  key : SQObject
  val : SQObject
  next : Option ℕ
deriving DecidableEq, Repr

instance : Inhabited HashNode := ⟨⟨.null, .null, none⟩⟩

/-- The node array of an `SQTable`. The delegate is kept by the heap. -/
structure SQTable where
  nodes : List HashNode
  firstfree : ℕ
  usednodes : ℕ
deriving DecidableEq, Repr

/-- `MINPOWER2`. -/
def minPower2 : ℕ := 4

namespace SQTable

variable (hash : SQObject → ℕ)

/-- The node at an index. -/
def node (t : SQTable) (i : ℕ) : HashNode := t.nodes.getD i default

/-- Rewrite the node at an index. -/
def setNode (t : SQTable) (i : ℕ) (n : HashNode) : SQTable := { t with nodes := t.nodes.set i n }

/-- `AllocNodes`, on a table without slots. -/
def allocNodes (size : ℕ) : SQTable :=
  { nodes := List.replicate size default, firstfree := size - 1, usednodes := 0 }

/-- The least `pow2size` of the doubling sequence that is not below the wanted size. -/
def pow2size (initialSize : ℕ) : ℕ → ℕ → ℕ
  | 0, size => size
  | fuel + 1, size => if size < initialSize then pow2size initialSize fuel (size * 2) else size

/-- `SQTable::Create`. -/
def create (initialSize : ℕ) : SQTable :=
  allocNodes (pow2size initialSize initialSize minPower2)

instance : Inhabited SQTable := ⟨create 0⟩

/-- `CountUsed`. -/
def countUsed (t : SQTable) : ℕ := t.usednodes

/-- The node where a key belongs. -/
def mainPosition (t : SQTable) (key : SQObject) : ℕ := hash key &&& (t.nodes.length - 1)

/-- The search of `_Get` along a chain. The chain visits each node at most once. -/
def findFrom (t : SQTable) (key : SQObject) : ℕ → ℕ → Option ℕ
  | 0, _ => none
  | fuel + 1, i =>
    if (t.node i).key = key then some i
    else
      match (t.node i).next with
      | none => none
      | some j => t.findFrom key fuel j

/-- `_Get`: the index of the node that holds the key. -/
def find (t : SQTable) (key : SQObject) : Option ℕ :=
  t.findFrom key t.nodes.length (t.mainPosition hash key)

/-- `Get`, before the value is looked through weak references. -/
def get (t : SQTable) (key : SQObject) : Option SQObject :=
  if key = .null then none else (t.find hash key).map fun i => (t.node i).val

/-- `Set`: only an existing slot is written. -/
def set (t : SQTable) (key val : SQObject) : Option SQTable :=
  (t.find hash key).map fun i => t.setNode i { t.node i with val := val }

/-! ## New slots -/

/-- The node whose `next` is `target`, on the chain from `i`. -/
def previous (t : SQTable) (target : ℕ) : ℕ → ℕ → ℕ
  | 0, i => i
  | fuel + 1, i =>
    match (t.node i).next with
    | none => i
    | some j => if j = target then i else t.previous target fuel j

/-- Make room for a key at its main position, or chain a free node to it. Returns the node that
takes the key. -/
def place (t : SQTable) (key : SQObject) : SQTable × ℕ :=
  let mp := t.mainPosition hash key
  let colliding := t.node mp
  if colliding.key = .null then (t, mp)
  else
    let n := t.firstfree
    let mph := t.mainPosition hash colliding.key
    if n < mp ∧ mph ≠ mp then
      -- the colliding node is out of its main position: move it into the free place
      let othern := t.previous mp t.nodes.length mph
      let t := t.setNode othern { t.node othern with next := some n }
      let t := t.setNode n colliding
      (t.setNode mp default, mp)
    else
      -- the new node goes into the free place
      let t := t.setNode n { t.node n with next := colliding.next }
      (t.setNode mp { t.node mp with next := some n }, n)

/-- The loop that corrects `firstfree`: the first free node from an index downwards. -/
def freeFrom (t : SQTable) : ℕ → Option ℕ
  | 0 => if (t.node 0).key = .null ∧ (t.node 0).next = none then some 0 else none
  | i + 1 =>
    if (t.node (i + 1)).key = .null ∧ (t.node (i + 1)).next = none then some (i + 1)
    else t.freeFrom i

/-- `NewSlot` up to its call of `Rehash`. The flag tells that no free place is left, in which case
the key has its node but not yet its value. -/
def tryNewSlot (t : SQTable) (key val : SQObject) : SQTable × Bool :=
  match t.find hash key with
  | some i => (t.setNode i { t.node i with val := val }, false)
  | none =>
    let (t, mp) := t.place hash key
    let t := t.setNode mp { t.node mp with key := key }
    match t.freeFrom t.firstfree with
    | some free =>
      let t := t.setNode mp { t.node mp with val := val }
      ({ t with firstfree := free, usednodes := t.usednodes + 1 }, false)
    | none => ({ t with firstfree := 0 }, true)

/-- Insert the slots of the nodes in order. -/
def insertAll (t : SQTable) (nodes : List HashNode) : SQTable :=
  nodes.foldl (fun t n => if n.key = .null then t else (t.tryNewSlot hash n.key n.val).1) t

/-- The size `Rehash` allocates, if it allocates at all. -/
def rehashSize (t : SQTable) (force : Bool) : Option ℕ :=
  let oldsize := max t.nodes.length 4
  let nelems := t.countUsed
  if oldsize - oldsize / 4 ≤ nelems then some (oldsize * 2)
  else if nelems ≤ oldsize / 4 ∧ minPower2 < oldsize then some (oldsize / 2)
  else if force then some oldsize
  else none

/-- `Rehash`. A fresh array has room for the slots of the old one, so inserting them does not
rehash again. -/
def rehash (t : SQTable) (force : Bool) : SQTable :=
  match t.rehashSize force with
  | some size => (allocNodes size).insertAll hash t.nodes
  | none => t

/-- `NewSlot`. -/
def newSlot (t : SQTable) (key val : SQObject) : SQTable :=
  let (t, full) := t.tryNewSlot hash key val
  if full then ((t.rehash hash true).tryNewSlot hash key val).1 else t

/-- What `NewSlot` returns. Where no free place is left, its second call answers, which finds the
key that the first one has put in. -/
def newSlotResult (t : SQTable) (key val : SQObject) : Bool :=
  let (t', full) := t.tryNewSlot hash key val
  if full then ((t'.rehash hash true).find hash key).isNone else (t.find hash key).isNone

/-! ## The other operations -/

/-- `Remove`. -/
def remove (t : SQTable) (key : SQObject) : SQTable :=
  match t.find hash key with
  | none => t
  | some i =>
    let t := t.setNode i { t.node i with key := .null, val := .null }
    rehash hash { t with usednodes := t.usednodes - 1 } false

/-- `Next`: the position after the first used node from `idx` on, and that node. -/
def next (t : SQTable) (idx : ℕ) : Option (ℕ × HashNode) :=
  ((t.nodes.drop idx).findIdx? fun n => n.key ≠ .null).map fun k =>
    (idx + k + 1, t.node (idx + k))

/-- `Clear`. -/
def clear (t : SQTable) : SQTable :=
  let cleared := t.nodes.map fun n => { n with key := .null, val := .null }
  rehash hash { t with nodes := cleared, usednodes := 0 } true

/-- `Clone`, without the delegate. -/
def clone (t : SQTable) : SQTable := (create t.nodes.length).insertAll hash t.nodes

end SQTable

end Squirrels
