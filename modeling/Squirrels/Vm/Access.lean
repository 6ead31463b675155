import Squirrels.Vm.Call

/-!
# Access to objects

`Get`, `Set`, `NewSlot`, `NewSlotA`, `DeleteSlot` and `Clone` of the machine, with their fallbacks
to delegates and metamethods. Both walks along delegates take their length from the heap; running
out of it is divergence, which `Heap.delegates_end` excludes.
-/

namespace Squirrels

open Machines

/-- The outcome of `FallBackGet` and `FallBackSet`. -/
inductive Fallback where
  | ok
  | noMatch
  | error
deriving DecidableEq, Repr

namespace SQVM

variable (env : Env)

/-- `PrintObjVal`, as the bytes a message shows. -/
def printObjVal : SQObject → List UInt8
  | .string bytes => cString bytes
  | .integer n => formatInt n
  | .float bits => env.formatFloat bits
  | o => ascii (idType2Name o.type)

/-- `Raise_IdxError`. -/
def raiseIdxError (s : SQVM) (key : SQObject) : SQVM :=
  s.raiseError "the index '%.50s' does not exist"
    (ascii "the index '" ++ (printObjVal env key).take 50 ++ ascii "' does not exist")

/-- `Raise_Error` with the type names of two objects. -/
def raiseIndexing (s : SQVM) (self key : SQObject) : SQVM :=
  s.raiseError "indexing %s with %s"
    (ascii "indexing " ++ ascii (idType2Name self.type) ++ ascii " with " ++
      ascii (idType2Name key.type))

/-- The delegate of a table or a userdata. -/
def delegateOf (s : SQVM) : SQObject → Option ℕ
  | .ref .table r => s.heap.delegates r
  | .ref .userData r => (s.heap.userData.read r).delegate
  | _ => none

/-- `GetMetaMethod`, of a table, a userdata or an instance. -/
def getMetaMethod (s : SQVM) (self : SQObject) (mm : SQMetaMethod) : Option SQObject :=
  match self with
  | .ref .inst r => s.heap.instanceMetaMethod r mm
  | self => s.heap.delegateMetaMethod env.hash (s.delegateOf self) mm

/-- `InvokeDefaultDelegate`. -/
def invokeDefaultDelegate (s : SQVM) (self key : SQObject) : Option SQObject :=
  (s.defaultDelegate self.type).bind fun d => s.heap.tableGet env.hash d key

/-- Run a metamethod as a step of the machine. -/
def runMetaMethod (closure : SQObject) (args : List SQObject) : Act SQVM CallResult :=
  Act.step fun s => s.callMetaMethod env closure args

/-! ## Get -/

/-- What an object holds itself, before any fallback; `false` in the flag means that the key is an
index out of range, after which there is no fallback. -/
def getDirect (s : SQVM) (self key : SQObject) : Option SQObject × Bool :=
  match self with
  | .ref .table r => (s.heap.tableGet env.hash r key, true)
  | .ref .array r =>
    if key.isNumeric then
      let n := toInteger key
      let values := s.heap.arrays.read r
      if 0 ≤ n ∧ n < values.length then (some (s.heap.realval (values.getD n.toNat .null)), true)
      else (none, false)
    else (none, true)
  | .ref .inst r => (s.heap.instanceGet env.hash r key, true)
  | .ref .cls r => (s.heap.classGet env.hash r key, true)
  | .string bytes =>
    if key.isNumeric then
      let n := toInteger key
      let n := if n < 0 then n + bytes.length else n
      if 0 ≤ n ∧ n < bytes.length then
        -- a character is a signed `char`
        let c := (bytes.getD n.toNat 0).toNat
        (some (.integer (if c < 128 then c else c - 256)), true)
      else (none, false)
    else (none, true)
  | _ => (none, true)

/-- The `_get` metamethod of `FallBackGet`. In `sq_get` the key and the result share a slot, so
what a failed call stored is the key from then on. -/
def metaGet (self slot : SQObject) : Act SQVM (Fallback × SQObject) := do
  let s ← Act.get
  match s.getMetaMethod env self .get with
  | none => pure (.noMatch, slot)
  | some closure =>
    let result ← runMetaMethod env closure [self, slot]
    let slot := result.res.getD slot
    if result.ok then pure (.ok, slot)
    else
      let s ← Act.get
      -- null means a clean failure (not found)
      if s.lasterror ≠ .null then pure (.error, slot) else pure (.noMatch, slot)

/-- `FallBackGet`; `getDelegate` looks up the delegate without raising an error. -/
def fallBackGet (getDelegate : SQObject → SQObject → Act SQVM (Bool × SQObject))
    (self slot : SQObject) : Act SQVM (Fallback × SQObject) := do
  match self with
  | .ref .inst _ => metaGet env self slot
  | self =>
    let s ← Act.get
    match s.delegateOf self with
    | none => pure (.noMatch, slot)
    | some d =>
      let (found, slot) ← getDelegate (.ref .table d) slot
      if found then pure (.ok, slot) else metaGet env self slot

/-- The end of `Get` after the fallbacks: the default delegate, then an error. -/
def getRest (self slot : SQObject) (raising : Bool) : Act SQVM (Bool × SQObject) := do
  let s ← Act.get
  match s.invokeDefaultDelegate env self slot with
  | some v => pure (true, v)
  | none =>
    if raising then Act.modify fun s => s.raiseIdxError env slot
    pure (false, slot)

/-- `SQVM::Get` with `DONT_FALL_BACK` and without `GET_FLAG_RAW`. -/
def getAt : ℕ → Bool → SQObject → SQObject → Act SQVM (Bool × SQObject)
  | 0, _, _, _ => Act.stop .diverge
  | fuel + 1, raising, self, slot => do
    let s ← Act.get
    match s.getDirect env self slot with
    | (some v, _) => pure (true, v)
    | (none, false) =>
      if raising then Act.modify fun s => s.raiseIdxError env slot
      pure (false, slot)
    | (none, true) =>
      let (fallback, slot) ← fallBackGet env (getAt fuel false) self slot
      match fallback with
      | .ok => pure (true, slot)
      | .error => pure (false, slot)
      | .noMatch => getRest env self slot raising

/-- `SQVM::Get`, as `sq_get` calls it: the flag tells success, and the object is then what the
slot of the key holds. -/
def get (self slot : SQObject) : Act SQVM (Bool × SQObject) := do
  let s ← Act.get
  getAt env (s.heap.delegateFuel + 1) true self slot

/-! ## Set -/

/-- The `_set` metamethod of `FallBackSet`. -/
def metaSet (self key val : SQObject) : Act SQVM Fallback := do
  let s ← Act.get
  match s.getMetaMethod env self .set with
  | none => pure .noMatch
  | some closure =>
    let result ← runMetaMethod env closure [self, key, val]
    if result.ok then pure .ok
    else
      let s ← Act.get
      if s.lasterror ≠ .null then pure .error else pure .noMatch

/-- `FallBackSet`. -/
def fallBackSet (setDelegate : SQObject → SQObject → SQObject → Act SQVM Bool)
    (self key val : SQObject) : Act SQVM Fallback := do
  match self with
  | .ref .table r =>
    let s ← Act.get
    match s.heap.delegates r with
    | none => metaSet env self key val
    | some d =>
      let done ← setDelegate (.ref .table d) key val
      if done then pure .ok else metaSet env self key val
  | .ref .inst _ => metaSet env self key val
  | .ref .userData _ => metaSet env self key val
  | _ => pure .noMatch

/-- The end of `Set` for an object that does not hold the key itself. -/
def setRest (setDelegate : SQObject → SQObject → SQObject → Act SQVM Bool)
    (self key val : SQObject) : Act SQVM Bool := do
  match ← fallBackSet env setDelegate self key val with
  | .ok => pure true
  | .error => pure false
  | .noMatch =>
    Act.modify fun s => s.raiseIdxError env key
    pure false

/-- `SQArray::Set` as `Set` calls it. -/
def setArray (r : ℕ) (self key val : SQObject) : Act SQVM Bool := do
  let s ← Act.get
  if !key.isNumeric then
    Act.modify fun s => s.raiseIndexing self key
    pure false
  else
    let n := toInteger key
    let values := s.heap.arrays.read r
    if 0 ≤ n ∧ n < values.length then
      Act.modify fun s => { s with heap := s.heap.writeArray r (values.set n.toNat val) }
      pure true
    else
      Act.modify fun s => s.raiseIdxError env key
      pure false

/-- `SQVM::Set` with `DONT_FALL_BACK`. -/
def setAtFuel : ℕ → SQObject → SQObject → SQObject → Act SQVM Bool
  | 0, _, _, _ => Act.stop .diverge
  | fuel + 1, self, key, val => do
    let s ← Act.get
    match self with
    | .ref .table r =>
      match s.heap.tableSet env.hash r key val with
      | some heap =>
        Act.modify fun s => { s with heap := heap }
        pure true
      | none => setRest env (setAtFuel fuel) self key val
    | .ref .inst r =>
      match s.heap.instanceSet env.hash r key val with
      | some heap =>
        Act.modify fun s => { s with heap := heap }
        pure true
      | none => setRest env (setAtFuel fuel) self key val
    | .ref .array r => setArray env r self key val
    | .ref .userData _ => setRest env (setAtFuel fuel) self key val
    | self =>
      Act.modify fun s => s.raiseError "trying to set '%s'"
        (ascii "trying to set '" ++ ascii (idType2Name self.type) ++ ascii "'")
      pure false

/-- `SQVM::Set`, as `sq_set` calls it. -/
def set (self key val : SQObject) : Act SQVM Bool := do
  let s ← Act.get
  setAtFuel env (s.heap.delegateFuel + 1) self key val

/-! ## New slots, deletion and copies -/

/-- `SQVM::NewSlot`, on the objects `sq_newslot` and `NewSlotA` pass. -/
def newSlot (self key val : SQObject) (bstatic : Bool) : Act SQVM Bool := do
  if key = .null then
    Act.modify fun s => s.raise "null cannot be used as index"
    pure false
  else
    let s ← Act.get
    match self with
    | .ref .table r =>
      match (s.heap.tableGet env.hash r key).isNone, s.getMetaMethod env self .newslot with
      | true, some closure => return (← runMetaMethod env closure [self, key, val]).ok
      | _, _ =>
        Act.modify fun s => { s with heap := s.heap.tableNewSlot env.hash r key val }
        pure true
    | .ref .cls r =>
      let (stored, heap) := s.heap.classNewSlot env.hash r key val bstatic
      if stored then
        Act.modify fun s => { s with heap := heap }
        pure true
      else if (s.heap.classes.read r).locked then
        Act.modify fun s =>
          s.raise "trying to modify a class that has already been instantiated"
        pure false
      else
        Act.modify fun s => s.raiseError "the property '%s' already exists"
          (ascii "the property '" ++ printObjVal env key ++ ascii "' already exists")
        pure false
    | .ref .inst _ =>
      match s.getMetaMethod env self .newslot with
      | some closure => return (← runMetaMethod env closure [self, key, val]).ok
      | none =>
        Act.modify fun s => s.raise "class instances do not support the new slot operator"
        pure false
    | self =>
      Act.modify fun s => s.raiseIndexing self key
      pure false

/-- `SQVM::NewSlotA`, on a class. -/
def newSlotA (r : ℕ) (key val attrs : SQObject) (bstatic raw : Bool) : Act SQVM Bool := do
  let self : SQObject := .ref .cls r
  let s ← Act.get
  let mm := (s.heap.classes.read r).metamethods .newmember
  if !raw && mm ≠ .null then
    return (← runMetaMethod env mm [self, key, val, attrs, .bool bstatic]).ok
  else if ← newSlot env self key val bstatic then
    if attrs ≠ .null then
      Act.modify fun s => { s with
        heap := s.heap.writeClass r ((s.heap.classes.read r).setAttributes env.hash key attrs) }
    pure true
  else pure false

/-- `SQVM::DeleteSlot`, on a table: the object removed, or what `_delslot` returned. -/
def deleteSlot (r : ℕ) (key : SQObject) : Act SQVM (Option SQObject) := do
  let self : SQObject := .ref .table r
  let s ← Act.get
  match s.getMetaMethod env self .delslot with
  | some closure =>
    let result ← runMetaMethod env closure [self, key]
    pure (if result.ok then some (result.res.getD .null) else none)
  | none =>
    match s.heap.tableGet env.hash r key with
    | some t =>
      Act.modify fun s => { s with
        heap := s.heap.writeTable r ((s.heap.tables.read r).remove env.hash key) }
      pure (some t)
    | none =>
      Act.modify fun s => s.raiseIdxError env key
      pure none

/-- The `_cloned` metamethod of a copy. -/
def metaCloned (newobj self : SQObject) : Act SQVM (Option SQObject) := do
  let s ← Act.get
  match s.getMetaMethod env newobj .cloned with
  | none => pure (some newobj)
  | some closure =>
    let result ← runMetaMethod env closure [newobj, self]
    pure (if result.ok then some newobj else none)

/-- `SQVM::Clone`. -/
def clone (self : SQObject) : Act SQVM (Option SQObject) := do
  match self with
  | .ref .table r =>
    let newobj ← Act.step fun s =>
      let (q, heap) := s.heap.cloneTable env.hash r
      (.ref .table q, { s with heap := heap })
    metaCloned env newobj self
  | .ref .inst r =>
    let newobj ← Act.step fun s =>
      let (q, heap) := s.heap.cloneInstance r
      (.ref .inst q, { s with heap := heap })
    metaCloned env newobj self
  | .ref .array r =>
    Act.step fun s =>
      let (q, heap) := s.heap.newArray (s.heap.arrays.read r)
      (some (.ref .array q), { s with heap := heap })
  | self =>
    Act.modify fun s => s.raiseError "cloning a %s"
      (ascii "cloning a " ++ ascii (idType2Name self.type))
    pure none

end SQVM

end Squirrels
