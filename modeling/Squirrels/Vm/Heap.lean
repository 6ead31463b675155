import Squirrels.Lib.Chain
import Squirrels.Lib.Store
import Squirrels.Vm.Table

/-!
# The heap

The reference-counted objects of a machine live in stores, one for each tag, so that a reference
with a given tag always names an object of that kind. The delegates of the tables are kept apart
from their slots; the heap carries the fact that `SQDelegable::SetDelegate` maintains, that no
table delegates to itself through others. Objects are not reclaimed.
-/

namespace Squirrels

/-- `SQMetaMethod`. -/
inductive SQMetaMethod where
  | add | sub | mul | div | unm | modulo | set | get | typeof | nexti | cmp | call | cloned
  | newslot | delslot | tostring | newmember | inherited
deriving DecidableEq, Repr

namespace SQMetaMethod

/-- The metamethods, in the order of their indices. -/
def all : List SQMetaMethod :=
  [.add, .sub, .mul, .div, .unm, .modulo, .set, .get, .typeof, .nexti, .cmp, .call, .cloned,
    .newslot, .delslot, .tostring, .newmember, .inherited]

/-- The name under which a delegate or a class defines a metamethod. -/
def name : SQMetaMethod → String
  | .add => "_add"
  | .sub => "_sub"
  | .mul => "_mul"
  | .div => "_div"
  | .unm => "_unm"
  | .modulo => "_modulo"
  | .set => "_set"
  | .get => "_get"
  | .typeof => "_typeof"
  | .nexti => "_nexti"
  | .cmp => "_cmp"
  | .call => "_call"
  | .cloned => "_cloned"
  | .newslot => "_newslot"
  | .delslot => "_delslot"
  | .tostring => "_tostring"
  | .newmember => "_newmember"
  | .inherited => "_inherited"

/-- The key of a metamethod. -/
def key (mm : SQMetaMethod) : SQObject := .string (ascii mm.name)

/-- `GetMetaMethodIdxByName`. -/
def idxByName (name : SQObject) : Option SQMetaMethod := all.find? fun mm => mm.key = name

end SQMetaMethod

/-- `SQClassMember`. -/
structure SQClassMember where
  val : SQObject
  attrs : SQObject
deriving DecidableEq, Repr

instance : Inhabited SQClassMember := ⟨⟨.null, .null⟩⟩

/-- `SQClass`; its base class is kept by its index. -/
structure SQClass where
  members : SQTable
  base : Option ℕ
  defaultvalues : List SQClassMember
  methods : List SQClassMember
  metamethods : SQMetaMethod → SQObject
  attributes : SQObject
  locked : Bool
  constructoridx : Option ℕ
  udsize : ℤ

instance : Inhabited SQClass :=
  ⟨⟨default, none, [], [], fun _ => .null, .null, false, none, 0⟩⟩

/-- `SQInstance`. -/
structure SQInstance where
  cls : ℕ
  values : List SQObject
deriving Inhabited

/-- The objects a function can be bound to as its environment. -/
inductive EnvObject where
  | table (r : ℕ)
  | array (r : ℕ)
  | cls (r : ℕ)
  | inst (r : ℕ)
deriving DecidableEq, Repr

/-- The object a weak reference to an environment names. -/
def EnvObject.object : EnvObject → SQObject
  | .table r => .ref .table r
  | .array r => .ref .array r
  | .cls r => .ref .cls r
  | .inst r => .ref .inst r

/-- `SQClosure`; `function` names its `SQFunctionProto`, and `root` is the table its weak
reference names. -/
structure SQClosure where
  function : ℕ
  env : Option EnvObject
  root : Option ℕ
  base : Option ℕ
  defaultparams : List SQObject
deriving Inhabited

/-- `SQNativeClosure`; `function` names its C function. The binding makes native closures with one
free variable, the base library with none. -/
structure SQNativeClosure where
  function : ℕ
  upvalue : Option SQObject
  env : Option EnvObject
  nparamscheck : ℤ
  typecheck : List ℤ
  name : SQObject
deriving Inhabited, DecidableEq

/-- The boxed `Payload` of a userdata: the type it was stored at and its `RefCell` flag, positive
when shared and negative when mutably borrowed. -/
structure Payload where
  typeId : ℕ
  borrow : ℤ
deriving Inhabited, DecidableEq

/-- `SQUserData`. -/
structure SQUserData where
  typetag : ℕ
  payload : Option Payload
  delegate : Option ℕ
deriving Inhabited, DecidableEq

/-- The objects of a machine. `delegateBound` is above every table that is a delegate. -/
structure Heap where
  tables : Store SQTable
  delegates : ℕ → Option ℕ
  delegateBound : ℕ
  arrays : Store (List SQObject)
  userData : Store SQUserData
  closures : Store SQClosure
  natives : Store SQNativeClosure
  classes : Store SQClass
  instances : Store SQInstance
  weakRefs : Store SQObject
  generators : ℕ
  delegates_bounded : ∀ r d, delegates r = some d → d < delegateBound
  delegates_acyclic : Chain.Acyclic delegates

namespace Heap

variable (hash : SQObject → ℕ) (h : Heap)

/-- The heap without objects. -/
def empty : Heap where
  tables := .empty
  delegates := fun _ => none
  delegateBound := 0
  arrays := .empty
  userData := .empty
  closures := .empty
  natives := .empty
  classes := .empty
  instances := .empty
  weakRefs := .empty
  generators := 0
  delegates_bounded := by simp
  delegates_acyclic := by
    intro r cycle
    obtain ⟨d, link, -⟩ := Relation.TransGen.head'_iff.1 cycle
    simp [Chain.Link] at link

instance : Inhabited Heap := ⟨empty⟩

/-- The length of a walk along delegates. -/
def delegateFuel : ℕ := h.delegateBound + 1

/-- Every walk along delegates ends. -/
theorem delegates_end (r : ℕ) : Chain.Ends h.delegates h.delegateFuel r :=
  h.delegates_acyclic.ends h.delegates_bounded r

/-- `_realval`: a weak reference stands for the object it names. -/
def realval : SQObject → SQObject
  | .ref .weakRef r => h.weakRefs.read r
  | o => o

theorem realval_of_strong {o : SQObject} (strong : o.isWeakRef = false) : h.realval o = o := by
  rcases o with _ | _ | _ | _ | _ | _ | ⟨t, r⟩ <;> try rfl
  cases t <;> first | rfl | cases strong

/-! ## Tables -/

/-- `SQTable::Get`. -/
def tableGet (r : ℕ) (key : SQObject) : Option SQObject :=
  ((h.tables.read r).get hash key).map h.realval

/-- Replace the slots of a table. -/
def writeTable (r : ℕ) (t : SQTable) : Heap := { h with tables := h.tables.write r t }

/-- `SQTable::Create`, for a table the machine hands out. -/
def newTable (t : SQTable) : ℕ × Heap :=
  ((h.tables.alloc t).1, { h with tables := (h.tables.alloc t).2 })

/-- `SQTable::Set`. -/
def tableSet (r : ℕ) (key val : SQObject) : Option Heap :=
  ((h.tables.read r).set hash key val).map (h.writeTable r)

/-- `SQTable::NewSlot`. -/
def tableNewSlot (r : ℕ) (key val : SQObject) : Heap :=
  h.writeTable r ((h.tables.read r).newSlot hash key val)

theorem delegates_bounded_update {r bound : ℕ} {parent : Option ℕ} (grows : h.delegateBound ≤ bound)
    (below : ∀ d, parent = some d → d < bound) (q d : ℕ)
    (delegate : Function.update h.delegates r parent q = some d) : d < bound := by
  by_cases same : q = r
  · subst same
    rw [Function.update_self] at delegate
    exact below d delegate
  · rw [Function.update_of_ne same] at delegate
    exact lt_of_lt_of_le (h.delegates_bounded q d delegate) grows

/-- `SQDelegable::SetDelegate` on a table: refused when the delegate descends from the table. -/
def setDelegate (r : ℕ) : Option ℕ → Option Heap
  | none =>
    some { h with
      delegates := Function.update h.delegates r none
      delegates_bounded := h.delegates_bounded_update le_rfl fun _ => nofun
      delegates_acyclic := h.delegates_acyclic.update (by simp) }
  | some mt =>
    if clear : mt ≠ r ∧ Chain.climbs h.delegates r h.delegateFuel (some mt) = false then
      some { h with
        delegates := Function.update h.delegates r (some mt)
        delegateBound := max h.delegateBound (mt + 1)
        delegates_bounded := h.delegates_bounded_update (le_max_left _ _) fun d parent => by
          cases parent
          exact le_max_right h.delegateBound (mt + 1)
        delegates_acyclic := h.delegates_acyclic.update (by
          intro t same
          obtain rfl : mt = t := by simpa using same
          exact Chain.not_reflTransGen_of_climbs clear.1 clear.2) }
    else none

/-- A delegate is refused exactly when it would close a cycle. -/
theorem setDelegate_eq_none_iff (r mt : ℕ) :
    h.setDelegate r (some mt) = none ↔
      Relation.ReflTransGen (Chain.Link h.delegates) mt r := by
  rw [Relation.reflTransGen_iff_eq_or_transGen, ← Chain.climbs_iff (h.delegates_end mt)]
  simp only [setDelegate]
  split
  · rename_i clear
    simp [clear.2, Ne.symm clear.1]
  · rename_i refused
    simp only [true_iff]
    by_cases same : mt = r
    · exact .inl same.symm
    · right
      simpa [same] using refused

/-- `SQTable::Clone`. -/
def cloneTable (r : ℕ) : ℕ × Heap :=
  let (q, h') := h.newTable ((h.tables.read r).clone hash)
  -- the delegate of a fresh table cannot descend from it, so setting it does not fail
  (q, (h'.setDelegate q (h.delegates r)).getD h')

/-- `SQDelegable::GetMetaMethod` for a table or a userdata with this delegate. -/
def delegateMetaMethod (delegate : Option ℕ) (mm : SQMetaMethod) : Option SQObject :=
  delegate.bind fun d => h.tableGet hash d mm.key

/-! ## Arrays -/

/-- Replace the elements of an array. -/
def writeArray (r : ℕ) (values : List SQObject) : Heap :=
  { h with arrays := h.arrays.write r values }

/-- `SQArray::Create`. -/
def newArray (values : List SQObject) : ℕ × Heap :=
  ((h.arrays.alloc values).1, { h with arrays := (h.arrays.alloc values).2 })

end Heap

end Squirrels
