import Squirrels.Vm.Heap

/-!
# Classes and instances

The members of a class are slots of its own table, whose values are member indices: a bit tells
methods from fields and the rest selects the entry of `methods` or `defaultvalues`. An instance
copies the default values of the fields and shares the methods.
-/

namespace Squirrels

/-- `MEMBER_TYPE_METHOD`. -/
def memberTypeMethod : ℕ := 0x01000000

/-- `MEMBER_TYPE_FIELD`. -/
def memberTypeField : ℕ := 0x02000000

/-- `MEMBER_MAX_COUNT`. -/
def memberMaxCount : ℕ := 0x00FFFFFF

/-- `_make_method_idx`. -/
def makeMethodIdx (i : ℕ) : SQObject := .integer ↑(memberTypeMethod ||| i)

/-- `_make_field_idx`. -/
def makeFieldIdx (i : ℕ) : SQObject := .integer ↑(memberTypeField ||| i)

/-- `_isfield`. -/
def isField : SQObject → Bool
  | .integer n => n.toNat &&& memberTypeField ≠ 0
  | _ => false

/-- `_member_idx`. -/
def memberIdx : SQObject → ℕ
  | .integer n => n.toNat &&& memberMaxCount
  | _ => 0

/-- The key of the constructor among the members. -/
def constructorKey : SQObject := .string (ascii "constructor")

namespace SQClass

variable (hash : SQObject → ℕ)

/-- The default value of a field. -/
def defaultValue (c : SQClass) (i : ℕ) : SQClassMember := c.defaultvalues.getD i default

/-- The entry of a method. -/
def method (c : SQClass) (i : ℕ) : SQClassMember := c.methods.getD i default

/-- `GetConstructor`, null when the class has none. -/
def constructor (c : SQClass) : SQObject :=
  match c.constructoridx with
  | some i => (c.method i).val
  | none => .null

/-- `SetAttributes`. -/
def setAttributes (c : SQClass) (key attrs : SQObject) : SQClass :=
  match c.members.get hash key with
  | none => c
  | some idx =>
    let i := memberIdx idx
    if isField idx then
      { c with defaultvalues := c.defaultvalues.set i { c.defaultValue i with attrs := attrs } }
    else { c with methods := c.methods.set i { c.method i with attrs := attrs } }

/-- A class derived from `base`: it starts with everything the base has. -/
def derived (base : ℕ) (b : SQClass) : SQClass :=
  { b with
    members := b.members.clone hash
    base := some base
    attributes := .null
    locked := false }

end SQClass

namespace Heap

variable (hash : SQObject → ℕ) (h : Heap)

/-- Replace a class. -/
def writeClass (r : ℕ) (c : SQClass) : Heap := { h with classes := h.classes.write r c }

/-- `SQClass::Create`. -/
def newClass (base : Option ℕ) : ℕ × Heap :=
  let c : SQClass :=
    match base with
    | none => default
    | some b => (h.classes.read b).derived hash b
  ((h.classes.alloc c).1, { h with classes := (h.classes.alloc c).2 })

/-- `SQClass::Get`. -/
def classGet (r : ℕ) (key : SQObject) : Option SQObject :=
  let c := h.classes.read r
  (c.members.get hash key).map fun idx =>
    if isField idx then h.realval (c.defaultValue (memberIdx idx)).val
    else (c.method (memberIdx idx)).val

/-- The function stored for a member: a script function of a derived class is copied, so that the
copy can name the base. -/
def memberFunction (base : Option ℕ) (val : SQObject) : SQObject × Heap :=
  match base, val with
  | some b, .ref .closure f =>
    let copy : SQClosure := { h.closures.read f with base := some b }
    (.ref .closure (h.closures.alloc copy).1, { h with closures := (h.closures.alloc copy).2 })
  | _, _ => (val, h)

/-- `SQClass::NewSlot`; the flag tells whether the member was stored. -/
def classNewSlot (r : ℕ) (key val : SQObject) (bstatic : Bool) : Bool × Heap :=
  let c := h.classes.read r
  let belongsToStaticTable := val.isFunction || bstatic
  let temp := c.members.get hash key
  if c.locked && !belongsToStaticTable then (false, h)
  else if temp.any isField then
    -- overrides the default value
    let i := memberIdx (temp.getD .null)
    let values := c.defaultvalues.set i { c.defaultValue i with val := val }
    (true, h.writeClass r { c with defaultvalues := values })
  else if memberMaxCount ≤ c.members.countUsed then (false, h)
  else if belongsToStaticTable then
    match (if val.isFunction then SQMetaMethod.idxByName key else none) with
    | some mm =>
      (true, h.writeClass r { c with metamethods := Function.update c.metamethods mm val })
    | none =>
      let (theval, h) := h.memberFunction c.base val
      match temp with
      | none =>
        let i := c.methods.length
        (true, h.writeClass r { c with
          constructoridx := if key = constructorKey then some i else c.constructoridx
          members := c.members.newSlot hash key (makeMethodIdx i)
          methods := c.methods ++ [⟨theval, .null⟩] })
      | some idx =>
        let i := memberIdx idx
        (true, h.writeClass r { c with
          methods := c.methods.set i { c.method i with val := theval } })
  else
    (true, h.writeClass r { c with
      members := c.members.newSlot hash key (makeFieldIdx c.defaultvalues.length)
      defaultvalues := c.defaultvalues ++ [⟨val, .null⟩] })

/-- `SQClass::Lock`: the class and its bases. -/
def lock : ℕ → Heap → ℕ → Heap
  | 0, h, _ => h
  | fuel + 1, h, r =>
    let c := h.classes.read r
    let h := h.writeClass r { c with locked := true }
    match c.base with
    | none => h
    | some b => lock fuel h b

/-- `SQClass::CreateInstance`. -/
def createInstance (r : ℕ) : ℕ × Heap :=
  let h := if (h.classes.read r).locked then h else lock (h.classes.next + 1) h r
  let values := (h.classes.read r).defaultvalues.map (·.val)
  let allocated := h.instances.alloc ⟨r, values⟩
  (allocated.1, { h with instances := allocated.2 })

/-! ## Instances -/

/-- `SQInstance::Get`. -/
def instanceGet (r : ℕ) (key : SQObject) : Option SQObject :=
  let i := h.instances.read r
  let c := h.classes.read i.cls
  (c.members.get hash key).map fun idx =>
    if isField idx then h.realval (i.values.getD (memberIdx idx) .null)
    else (c.method (memberIdx idx)).val

/-- `SQInstance::Set`. -/
def instanceSet (r : ℕ) (key val : SQObject) : Option Heap :=
  let i := h.instances.read r
  match (h.classes.read i.cls).members.get hash key with
  | some idx =>
    if isField idx then
      some { h with
        instances := h.instances.write r { i with values := i.values.set (memberIdx idx) val } }
    else none
  | none => none

/-- `SQInstance::Clone`. -/
def cloneInstance (r : ℕ) : ℕ × Heap :=
  let allocated := h.instances.alloc (h.instances.read r)
  (allocated.1, { h with instances := allocated.2 })

/-- `SQInstance::GetMetaMethod`. -/
def instanceMetaMethod (r : ℕ) (mm : SQMetaMethod) : Option SQObject :=
  let found := (h.classes.read (h.instances.read r).cls).metamethods mm
  if found = .null then none else some found

/-- The loop of `SQInstance::InstanceOf` along the base classes. -/
def descends (target : ℕ) : ℕ → Option ℕ → Bool
  | 0, _ => false
  | _, none => false
  | fuel + 1, some parent =>
    if parent = target then true else descends target fuel (h.classes.read parent).base

/-- `SQInstance::InstanceOf`. -/
def instanceOf (r cls : ℕ) : Bool :=
  h.descends cls (h.classes.next + 1) (some (h.instances.read r).cls)

end Heap

end Squirrels
