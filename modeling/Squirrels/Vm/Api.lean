import Squirrels.Vm.Access

/-!
# The C interface

The `sq_*` functions the binding calls. Each one reads its arguments from the stack and pops its
own number of slots on each of its exits; the models keep the order of the checks, the pops and
the texts of the errors.
-/

namespace Squirrels

open Machines

/-- `SQRESULT`. -/
inductive SQRESULT where
  | ok
  | error
deriving DecidableEq, Repr

/-- `SQRESULT::is_error`. -/
def SQRESULT.isError : SQRESULT → Bool
  | .ok => false
  | .error => true

namespace Api

variable (env : Env)

/-! ## Helpers -/

/-- Set the error and fail. -/
def fail (f : SQVM → SQVM) : Act SQVM SQRESULT := do
  Act.modify f
  pure .error

/-- `sq_throwerror` with a literal. -/
def throwText (message : String) : Act SQVM SQRESULT := fail fun s => s.raise message

/-- `sq_aux_paramscheck` before the rest of a function. -/
def paramsCheck (count : ℕ) (rest : Act SQVM SQRESULT) : Act SQVM SQRESULT := do
  let s ← Act.get
  if s.depth < count then throwText "not enough params in the stack" else rest

/-- The error of `sq_aux_gettypedarg`. -/
def wrongArgument (expected : SQObjectType) (o : SQObject) : Act SQVM SQRESULT :=
  fail fun s => s.raiseError "wrong argument type, expected '%s' got '%.50s'"
    (ascii "wrong argument type, expected '" ++ ascii (idType2Name expected) ++ ascii "' got '" ++
      (SQVM.printObjVal env o).take 50 ++ ascii "'")

/-- `sq_aux_invalidtype`. -/
def invalidType (o : SQObject) : Act SQVM SQRESULT :=
  fail fun s => s.withError (.string (ascii "unexpected type " ++ ascii (idType2Name o.type)))

/-- `v->Pop(n)`. -/
def popN (n : ℕ) : Act SQVM Unit := Act.modify fun s => s.pop n

/-- `v->Push(o)` by an API function, which does not look at the size of the stack vector. A slot
beyond the vector is kept here and sets `overflowed`, where the code overwrites something else. What
is proved of arrays, tables, classes, instances and conversions therefore holds of the code while
`overflowed` is false, and `run_in_bounds` says which runs keep it so. -/
def push (o : SQObject) : Act SQVM Unit := Act.modify fun s => s.apiPush o

/-- Push an object that is made in the heap. -/
def pushNew (make : Heap → SQObject × Heap) : Act SQVM Unit :=
  Act.modify fun s => { s with heap := (make s.heap).2 }.apiPush (make s.heap).1

/-! ## References -/

/-- `sq_addref`. -/
def sqAddref (o : SQObject) : Act SQVM Unit :=
  Act.modify fun s =>
    if o.isRefCounted then { s with refs := Function.update s.refs o (s.refs o + 1) } else s

/-- The failed assertion of `RefTable::Release`. -/
def overRelease : Stop := .abort "RefTable::Release"

/-- `sq_release`. An object that is not in the reference table fails an assertion. -/
def sqRelease (o : SQObject) : Act SQVM Unit := do
  let s ← Act.get
  if !o.isRefCounted then pure ()
  else if s.refs o = 0 then Act.stop overRelease
  else Act.modify fun s => { s with refs := Function.update s.refs o (s.refs o - 1) }

/-! ## The stack -/

/-- `sq_gettop`. -/
def sqGettop : Act SQVM ℤ := do
  let s ← Act.get
  pure (s.top - s.stackbase)

/-- `sq_pop`. -/
def sqPop (n : ℕ) : Act SQVM Unit := do
  let s ← Act.get
  if s.top < n then Act.stop (.abort "sq_pop") else popN n

/-- Push nulls. -/
def pushNulls : ℕ → Act SQVM Unit
  | 0 => pure ()
  | n + 1 => do
    push .null
    pushNulls n

/-- `sq_settop`. -/
def sqSettop (newtop : ℤ) : Act SQVM Unit := do
  let top ← sqGettop
  if newtop < top then sqPop (top - newtop).toNat else pushNulls (newtop - top).toNat

/-- `sq_pushobject`, and the pushes of scalars. -/
def sqPushobject (o : SQObject) : Act SQVM Unit := push o

/-- `sq_pushnull`. -/
def sqPushnull : Act SQVM Unit := push .null

/-- `sq_pushinteger`. -/
def sqPushinteger (n : ℤ) : Act SQVM Unit := push (.integer n)

/-- `sq_pushfloat`. -/
def sqPushfloat (bits : BitVec 32) : Act SQVM Unit := push (.float bits)

/-- `sq_pushbool`. -/
def sqPushbool (b : Bool) : Act SQVM Unit := push (.bool b)

/-- `sq_pushuserpointer`. -/
def sqPushuserpointer (p : ℕ) : Act SQVM Unit := push (.userPointer p)

/-- `sq_pushstring` with a length. -/
def sqPushstring (bytes : List UInt8) : Act SQVM Unit := push (.string bytes)

/-- `sq_pushroottable`. -/
def sqPushroottable : Act SQVM Unit := do
  let s ← Act.get
  push s.rootObject

/-- `sq_getlasterror`. -/
def sqGetlasterror : Act SQVM Unit := do
  let s ← Act.get
  push s.lasterror

/-- `sq_getstackobj`, which does not fail. -/
def sqGetstackobj (idx : ℤ) : Act SQVM SQObject := do
  let s ← Act.get
  pure (s.stackGet idx)

/-- `sq_throwobject`. -/
def sqThrowobject : Act SQVM ℤ := do
  Act.modify fun s => (s.withError (s.up 0)).pop 1
  pure (-1)

/-- `sq_throwerror`, on a C string. -/
def sqThrowerror (message : List UInt8) : Act SQVM ℤ := do
  Act.modify fun s => s.withError (.string (cString message))
  pure (-1)

/-! ## Reading values -/

/-- `sq_getinteger`. -/
def sqGetinteger (idx : ℤ) : Act SQVM (Option ℤ) := do
  let s ← Act.get
  match s.stackGet idx with
  | .bool b => pure (some (if b then 1 else 0))
  | o => pure (if o.isNumeric then some (toInteger o) else none)

/-- `sq_getfloat`. -/
def sqGetfloat (idx : ℤ) : Act SQVM (Option (BitVec 32)) := do
  let s ← Act.get
  let o := s.stackGet idx
  pure (if o.isNumeric then some (toFloat o) else none)

/-- `sq_getbool`. -/
def sqGetbool (idx : ℤ) : Act SQVM (Option Bool) := do
  let s ← Act.get
  match s.stackGet idx with
  | .bool b => pure (some b)
  | _ => pure none

/-- `sq_getuserpointer`. -/
def sqGetuserpointer (idx : ℤ) : Act SQVM (Option ℕ) := do
  let s ← Act.get
  match s.stackGet idx with
  | .userPointer p => pure (some p)
  | o =>
    let _ ← wrongArgument env .userPointer o
    pure none

/-- `sq_getstringandsize`: the characters with their length. -/
def sqGetstringandsize (idx : ℤ) : Act SQVM (Option (List UInt8)) := do
  let s ← Act.get
  match s.stackGet idx with
  | .string bytes => pure (some bytes)
  | o =>
    let _ ← wrongArgument env .string o
    pure none

/-- `sq_getuserdata`: the object the userdata is, with its type tag. -/
def sqGetuserdata (idx : ℤ) : Act SQVM (Option (ℕ × ℕ)) := do
  let s ← Act.get
  match s.stackGet idx with
  | .ref .userData r => pure (some (r, (s.heap.userData.read r).typetag))
  | o =>
    let _ ← wrongArgument env (.ref .userData) o
    pure none

/-- `sq_getsize`. -/
def sqGetsize (idx : ℤ) : Act SQVM ℤ := do
  let s ← Act.get
  match s.stackGet idx with
  | .string bytes => pure bytes.length
  | .ref .table r => pure (s.heap.tables.read r).countUsed
  | .ref .array r => pure (s.heap.arrays.read r).length
  | .ref .inst r => pure (s.heap.classes.read (s.heap.instances.read r).cls).udsize
  | .ref .cls r => pure (s.heap.classes.read r).udsize
  | .ref .userData _ => pure 16
  | o =>
    let _ ← invalidType o
    pure (-1)

/-! ## Creating objects -/

/-- `sq_newtableex`. -/
def sqNewtableex (initialcapacity : ℤ) : Act SQVM Unit :=
  pushNew fun h =>
    let (r, h) := h.newTable (SQTable.create initialcapacity.toNat)
    (.ref .table r, h)

/-- `sq_newtable`. -/
def sqNewtable : Act SQVM Unit := sqNewtableex 0

/-- `sq_newarray`. -/
def sqNewarray (size : ℤ) : Act SQVM Unit :=
  pushNew fun h =>
    let (r, h) := h.newArray (List.replicate size.toNat .null)
    (.ref .array r, h)

/-- `sq_newuserdata`, with the payload the binding boxes into it. -/
def sqNewuserdata (payload : Payload) : Act SQVM Unit :=
  pushNew fun h =>
    let allocated := h.userData.alloc ⟨0, some payload, none⟩
    (.ref .userData allocated.1, { h with userData := allocated.2 })

/-- `sq_settypetag`. The binding reads the tag of userdata only. -/
def sqSettypetag (idx : ℤ) (typetag : ℕ) : Act SQVM SQRESULT := do
  let s ← Act.get
  match s.stackGet idx with
  | .ref .userData r =>
    Act.modify fun s => { s with heap := { s.heap with
      userData := s.heap.userData.write r { s.heap.userData.read r with typetag := typetag } } }
    pure .ok
  | .ref .cls _ => pure .ok
  | _ => throwText "invalid object type"

/-- `sq_newclass`. -/
def sqNewclass (hasbase : Bool) : Act SQVM SQRESULT := do
  let s ← Act.get
  if hasbase then
    match s.stackGet (-1) with
    | .ref .cls b =>
      popN 1
      pushNew fun h =>
        let (r, h) := h.newClass env.hash (some b)
        (.ref .cls r, h)
      pure .ok
    | _ => throwText "invalid base type"
  else
    pushNew fun h =>
      let (r, h) := h.newClass env.hash none
      (.ref .cls r, h)
    pure .ok

/-- `sq_newclosure` of a function with its free variable on the stack. -/
def sqNewclosure (function : ℕ) : Act SQVM Unit := do
  let s ← Act.get
  let upvalue := s.up 0
  popN 1
  pushNew fun h =>
    let allocated := h.natives.alloc ⟨function, some upvalue, none, 0, [], .null⟩
    (.ref .nativeClosure allocated.1, { h with natives := allocated.2 })

/-- `sq_createinstance`. -/
def sqCreateinstance (idx : ℤ) : Act SQVM SQRESULT := do
  let s ← Act.get
  match s.stackGet idx with
  | .ref .cls r =>
    pushNew fun h =>
      let (i, h) := h.createInstance r
      (.ref .inst i, h)
    pure .ok
  | o => wrongArgument env (.ref .cls) o

/-- `sq_clone`. -/
def sqClone (idx : ℤ) : Act SQVM SQRESULT := do
  let s ← Act.get
  let o := s.stackGet idx
  push .null
  match ← SQVM.clone env o with
  | some newobj =>
    Act.modify fun s => s.setUp 0 newobj
    pure .ok
  | none =>
    popN 1
    pure .error

/-! ## Slots -/

/-- `sq_newslot`. What `NewSlot` returns is not looked at. -/
def sqNewslot (idx : ℤ) (bstatic : Bool) : Act SQVM SQRESULT :=
  paramsCheck 3 do
    let s ← Act.get
    let self := s.stackGet idx
    if self.type = .ref .table ∨ self.type = .ref .cls then
      let key := s.up 1
      if key = .null then throwText "null is not a valid key"
      else
        let _ ← SQVM.newSlot env self key (s.up 0) bstatic
        popN 2
        pure .ok
    else pure .ok

/-- `sq_deleteslot`, with the removed value pushed. -/
def sqDeleteslot (idx : ℤ) : Act SQVM SQRESULT :=
  paramsCheck 2 do
    let s ← Act.get
    match s.stackGet idx with
    | .ref .table r =>
      let key := s.up 0
      if key = .null then throwText "null is not a valid key"
      else
        match ← SQVM.deleteSlot env r key with
        | some res =>
          Act.modify fun s => s.setUp 0 res
          pure .ok
        | none =>
          popN 1
          pure .error
    | o => wrongArgument env (.ref .table) o

/-- `sq_rawdeleteslot`, with the removed value pushed. -/
def sqRawdeleteslot (idx : ℤ) : Act SQVM SQRESULT :=
  paramsCheck 2 do
    let s ← Act.get
    match s.stackGet idx with
    | .ref .table r =>
      let key := s.up 0
      match s.heap.tableGet env.hash r key with
      | some t =>
        Act.modify fun s =>
          { s with
            heap := s.heap.writeTable r ((s.heap.tables.read r).remove env.hash key) }.setUp 0 t
        pure .ok
      | none =>
        Act.modify fun s => s.setUp 0 .null
        pure .ok
    | o => wrongArgument env (.ref .table) o

/-- `sq_set`. -/
def sqSet (idx : ℤ) : Act SQVM SQRESULT := do
  let s ← Act.get
  if ← SQVM.set env (s.stackGet idx) (s.up 1) (s.up 0) then
    popN 2
    pure .ok
  else pure .error

/-- `sq_get`. -/
def sqGet (idx : ℤ) : Act SQVM SQRESULT := do
  let s ← Act.get
  let (found, slot) ← SQVM.get env (s.stackGet idx) (s.up 0)
  if found then
    Act.modify fun s => s.setUp 0 slot
    pure .ok
  else
    popN 1
    pure .error

/-- `sq_rawset`. -/
def sqRawset (idx : ℤ) : Act SQVM SQRESULT := do
  let s ← Act.get
  let self := s.stackGet idx
  let key := s.up 1
  let val := s.up 0
  if key = .null then
    popN 2
    throwText "null key"
  else
    match self with
    | .ref .table r =>
      Act.modify fun s => { s with heap := s.heap.tableNewSlot env.hash r key val }.pop 2
      pure .ok
    | .ref .cls r =>
      -- what `SQClass::NewSlot` returns is not looked at
      Act.modify fun s =>
        { s with heap := (s.heap.classNewSlot env.hash r key val false).2 }.pop 2
      pure .ok
    | .ref .inst r =>
      match s.heap.instanceSet env.hash r key val with
      | some heap =>
        Act.modify fun s => { s with heap := heap }.pop 2
        pure .ok
      | none => fail fun s => s.raiseIdxError env (s.up 1)
    | .ref .array r =>
      if ← SQVM.setArray env r self key val then
        popN 2
        pure .ok
      else fail fun s => s.raiseIdxError env (s.up 1)
    | _ =>
      popN 2
      throwText "rawset works only on array/table/class and instance"

/-- `sq_rawget`. -/
def sqRawget (idx : ℤ) : Act SQVM SQRESULT := do
  let s ← Act.get
  let self := s.stackGet idx
  let key := s.up 0
  let found (v : Option SQObject) : Act SQVM SQRESULT :=
    match v with
    | some v => do
      Act.modify fun s => s.setUp 0 v
      pure .ok
    | none => do
      popN 1
      throwText "the index doesn't exist"
  match self with
  | .ref .table r => found (s.heap.tableGet env.hash r key)
  | .ref .cls r => found (s.heap.classGet env.hash r key)
  | .ref .inst r => found (s.heap.instanceGet env.hash r key)
  | .ref .array _ =>
    if key.isNumeric then found (s.getDirect env self key).1
    else
      popN 1
      throwText "invalid index type for an array"
  | _ =>
    popN 1
    throwText "rawget works only on array/table/instance and class"

/-- `sq_clear`. -/
def sqClear (idx : ℤ) : Act SQVM SQRESULT := do
  let s ← Act.get
  match s.stackGet idx with
  | .ref .table r =>
    Act.modify fun s =>
      { s with heap := s.heap.writeTable r ((s.heap.tables.read r).clear env.hash) }
    pure .ok
  | .ref .array r =>
    Act.modify fun s => { s with heap := s.heap.writeArray r [] }
    pure .ok
  | _ => throwText "clear only works on table and array"

/-! ## Delegates -/

/-- `sq_setdelegate`. The error of a wrong delegate names the type of the object. -/
def sqSetdelegate (idx : ℤ) : Act SQVM SQRESULT := do
  let s ← Act.get
  let self := s.stackGet idx
  let mt := s.up 0
  match self, mt with
  | .ref .table r, .ref .table d =>
    match s.heap.setDelegate r (some d) with
    | some heap =>
      Act.modify fun s => { s with heap := heap }.pop 1
      pure .ok
    | none => throwText "delegate cycle"
  | .ref .table r, .null =>
    Act.modify fun s => { s with heap := (s.heap.setDelegate r none).getD s.heap }.pop 1
    pure .ok
  | .ref .userData r, .ref .table d =>
    Act.modify fun s => { s with heap := { s.heap with
      userData := s.heap.userData.write r { s.heap.userData.read r with delegate := some d } } }.pop
      1
    pure .ok
  | .ref .userData r, .null =>
    Act.modify fun s => { s with heap := { s.heap with
      userData := s.heap.userData.write r { s.heap.userData.read r with delegate := none } } }.pop 1
    pure .ok
  | self, _ => invalidType self

/-- `sq_getdelegate`. -/
def sqGetdelegate (idx : ℤ) : Act SQVM SQRESULT := do
  let s ← Act.get
  let self := s.stackGet idx
  if self.type = .ref .table ∨ self.type = .ref .userData then
    match s.delegateOf self with
    | none => push .null
    | some d => push (.ref .table d)
    pure .ok
  else throwText "wrong type"

/-! ## Arrays -/

/-- An operation on the array at an index; others fail the type check. -/
def withArray (count : ℕ) (idx : ℤ) (f : ℕ → List SQObject → Act SQVM SQRESULT) :
    Act SQVM SQRESULT :=
  paramsCheck count do
    let s ← Act.get
    match s.stackGet idx with
    | .ref .array r => f r (s.heap.arrays.read r)
    | o => wrongArgument env (.ref .array) o

/-- Rewrite an array. -/
def putArray (r : ℕ) (values : List SQObject) : Act SQVM Unit :=
  Act.modify fun s => { s with heap := s.heap.writeArray r values }

/-- `sq_arrayappend`. -/
def sqArrayappend (idx : ℤ) : Act SQVM SQRESULT :=
  withArray env 2 idx fun r values => do
    let s ← Act.get
    putArray r (values ++ [s.up 0])
    popN 1
    pure .ok

/-- `sq_arraypop`, with the removed value pushed. -/
def sqArraypop (idx : ℤ) : Act SQVM SQRESULT :=
  withArray env 1 idx fun r values => do
    if 0 < values.length then
      push (values.getLastD .null)
      putArray r values.dropLast
      pure .ok
    else throwText "empty array"

/-- `sq_arrayresize`. -/
def sqArrayresize (idx newsize : ℤ) : Act SQVM SQRESULT :=
  withArray env 1 idx fun r values => do
    if 0 ≤ newsize then
      putArray r (values.take newsize.toNat ++
        List.replicate (newsize.toNat - values.length) .null)
      pure .ok
    else throwText "negative size"

/-- The swaps of `sq_arrayreverse`, for the first `n` pairs. -/
def reverseSwaps (values : List SQObject) : ℕ → List SQObject
  | 0 => values
  | n + 1 =>
    let swapped := reverseSwaps values n
    let last := values.length - 1
    (swapped.set n (swapped.getD (last - n) .null)).set (last - n) (swapped.getD n .null)

/-- `sq_arrayreverse`. -/
def sqArrayreverse (idx : ℤ) : Act SQVM SQRESULT :=
  withArray env 1 idx fun r values => do
    putArray r (reverseSwaps values (values.length / 2))
    pure .ok

/-- `sq_arrayremove`. -/
def sqArrayremove (idx itemidx : ℤ) : Act SQVM SQRESULT :=
  withArray env 1 idx fun r values => do
    if itemidx < 0 ∨ (values.length : ℤ) ≤ itemidx then throwText "index out of range"
    else
      putArray r (values.eraseIdx itemidx.toNat)
      pure .ok

/-- `sq_arrayinsert`. The value is popped on both exits. -/
def sqArrayinsert (idx destpos : ℤ) : Act SQVM SQRESULT :=
  withArray env 1 idx fun r values => do
    let s ← Act.get
    if destpos < 0 ∨ (values.length : ℤ) < destpos then
      let ret ← throwText "index out of range"
      popN 1
      pure ret
    else
      putArray r (values.insertIdx destpos.toNat (s.up 0))
      popN 1
      pure .ok

/-! ## Classes -/

/-- `sq_newmember` and `sq_rawnewmember`. -/
def newMember (idx : ℤ) (bstatic raw : Bool) : Act SQVM SQRESULT := do
  let s ← Act.get
  match s.stackGet idx with
  | .ref .cls r =>
    let key := s.up 2
    if key = .null then throwText "null key"
    else
      let done ← SQVM.newSlotA env r key (s.up 1) (s.up 0) bstatic raw
      popN 3
      pure (if done then .ok else .error)
  | _ => throwText "new member only works with classes"

/-- `sq_newmember`. -/
def sqNewmember (idx : ℤ) (bstatic : Bool) : Act SQVM SQRESULT := newMember env idx bstatic false

/-- `sq_rawnewmember`. -/
def sqRawnewmember (idx : ℤ) (bstatic : Bool) : Act SQVM SQRESULT := newMember env idx bstatic true

/-- `HSQMEMBERHANDLE`. -/
structure HSQMemberHandle where
  static : Bool
  index : ℕ
deriving DecidableEq, Repr

/-- `sq_getmemberhandle`. -/
def sqGetmemberhandle (idx : ℤ) : Act SQVM (Option HSQMemberHandle) := do
  let s ← Act.get
  match s.stackGet idx with
  | .ref .cls r =>
    match (s.heap.classes.read r).members.get env.hash (s.up 0) with
    | some val =>
      popN 1
      pure (some ⟨!isField val, memberIdx val⟩)
    | none =>
      let _ ← throwText "wrong index"
      pure none
  | o =>
    let _ ← wrongArgument env (.ref .cls) o
    pure none

/-- `sq_setclassudsize`. -/
def sqSetclassudsize (idx udsize : ℤ) : Act SQVM SQRESULT := do
  let s ← Act.get
  match s.stackGet idx with
  | .ref .cls r =>
    if (s.heap.classes.read r).locked then throwText "the class is locked"
    else
      Act.modify fun s => { s with
        heap := s.heap.writeClass r { s.heap.classes.read r with udsize := udsize } }
      pure .ok
  | _ => throwText "the object is not a class"

/-- `sq_getbase`. -/
def sqGetbase (idx : ℤ) : Act SQVM SQRESULT := do
  let s ← Act.get
  match s.stackGet idx with
  | .ref .cls r =>
    match (s.heap.classes.read r).base with
    | some b => push (.ref .cls b)
    | none => push .null
    pure .ok
  | o => wrongArgument env (.ref .cls) o

/-- `sq_getclass`. -/
def sqGetclass (idx : ℤ) : Act SQVM SQRESULT := do
  let s ← Act.get
  match s.stackGet idx with
  | .ref .inst r =>
    push (.ref .cls (s.heap.instances.read r).cls)
    pure .ok
  | o => wrongArgument env (.ref .inst) o

/-- `sq_instanceof`; `none` is the error value. -/
def sqInstanceof : Act SQVM (Option Bool) := do
  let s ← Act.get
  match s.stackGet (-1), s.stackGet (-2) with
  | .ref .inst r, .ref .cls c => pure (some (s.heap.instanceOf r c))
  | _, _ =>
    let _ ← throwText "invalid param type"
    pure none

/-! ## Iteration -/

/-- `TranslateIndex`; other types fail an assertion. -/
def translateIndex : SQObject → Option ℤ
  | .null => some 0
  | .integer n => some n
  | _ => none

/-- The item of a step of iteration: the new position, the key and the value. -/
structure Item where
  pos : ℤ
  key : SQObject
  val : SQObject

/-- The step of `FOREACH_OP` on a container whose positions are indices: the next item, nothing at
the end, or a read outside the container. -/
def containerNext (s : SQVM) (o : SQObject) (idx : ℤ) : Except Stop (Option Item) :=
  match o with
  | .ref .table r =>
    if idx < 0 then .error (.abort "read out of bounds")
    else .ok (((s.heap.tables.read r).next idx.toNat).map fun (pos, n) =>
      ⟨pos, n.key, s.heap.realval n.val⟩)
  | .ref .array r =>
    let values := s.heap.arrays.read r
    .ok (if 0 ≤ idx ∧ idx < values.length then
      some ⟨idx + 1, .integer idx, s.heap.realval (values.getD idx.toNat .null)⟩ else none)
  | .string bytes =>
    if idx < 0 then .error (.abort "read out of bounds")
    else .ok (if idx < bytes.length then
      let c := (bytes.getD idx.toNat 0).toNat
      some ⟨idx + 1, .integer idx, .integer (if c < 128 then c else c - 256)⟩ else none)
  | .ref .cls r =>
    let c := s.heap.classes.read r
    if idx < 0 then .error (.abort "read out of bounds")
    else .ok ((c.members.next idx.toNat).map fun (pos, n) =>
      ⟨pos, n.key,
        if isField n.val then s.heap.realval (c.defaultValue (memberIdx n.val)).val
        else (c.method (memberIdx n.val)).val⟩)
  | _ => .ok none

/-- The `_nexti` metamethod in `FOREACH_OP`; the position is the slot on top of the stack. -/
def metaNext (o refpos : SQObject) : Act SQVM SQRESULT := do
  let s ← Act.get
  if o.type = .ref .userData ∧ s.delegateOf o = none then pure .error
  else
    match s.getMetaMethod env o .nexti with
    | none => throwText "_nexti failed"
    | some closure =>
      let result ← SQVM.runMetaMethod env closure [o, refpos]
      if !result.ok then pure .error
      else
        let itr := result.res.getD .null
        Act.modify fun s => s.setUp 0 itr
        if itr = .null then pure .error
        else
          let (found, val) ← SQVM.get env o itr
          if found then
            push itr
            push val
            pure .ok
          else throwText "_nexti returned an invalid idx"

/-- A step of iteration over a container. -/
def containerStep (o refpos : SQObject) : Act SQVM SQRESULT := do
  let s ← Act.get
  match translateIndex refpos with
  | none => Act.stop (.abort "TranslateIndex")
  | some i =>
    match containerNext s o i with
    | .error e => Act.stop e
    | .ok none => pure .error
    | .ok (some item) =>
      Act.modify fun s => s.setUp 0 (.integer item.pos)
      push item.key
      push item.val
      pure .ok

/-- `sq_next`. -/
def sqNext (idx : ℤ) : Act SQVM SQRESULT := do
  let s ← Act.get
  let o := s.stackGet idx
  let refpos := s.up 0
  match o.type with
  | .ref .generator => throwText "cannot iterate a generator"
  | .ref .userData => metaNext env o refpos
  | .ref .inst => metaNext env o refpos
  | .ref .table => containerStep o refpos
  | .ref .array => containerStep o refpos
  | .string => containerStep o refpos
  | .ref .cls => containerStep o refpos
  | type =>
    fail fun s => s.raiseError "cannot iterate %s"
      (ascii "cannot iterate " ++ ascii (idType2Name type))

/-! ## Calls -/

/-- `sq_call`, with the result pushed and without the error handler. The arguments stay on the
stack of a machine that has been suspended. -/
def sqCall (params : ℕ) : Act SQVM SQRESULT := do
  let result ← Act.step fun s => s.call env (s.up params) params (s.top - params)
  if !result.ok then
    popN params
    pure .error
  else
    let s' ← Act.get
    if !s'.suspended then popN params
    push (result.res.getD .null)
    pure .ok

/-- `sq_compilebuffer` with `raiseerror`: the closure gets a weak reference to the root table, which
ends the process when there is none. The error handler of the binding stores the error in the
registry. -/
def sqCompilebuffer (src sourceName : List UInt8) : Act SQVM SQRESULT := do
  let s ← Act.get
  match env.compile s src sourceName with
  | .ok function =>
    match s.roottable with
    | none => Act.stop (.abort "null root table")
    | some root =>
      pushNew fun h =>
        let allocated := h.closures.alloc ⟨function, none, some root, none, []⟩
        (.ref .closure allocated.1, { h with closures := allocated.2 })
      pure .ok
  | .error e =>
    Act.modify fun s => { s with
      errorSlot := s.errorSlot.map fun _ => some e
      lasterror := .string (cString e.description) }
    pure .error

end Api

end Squirrels
