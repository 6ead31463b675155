import Squirrels.Vm.Api

/-!
# Opening a machine

`sq_open` makes a machine over a shared state and registers the base library, which pushes three
slots above the empty stack; `Squirrel::new` then caches the root table.
-/

namespace Squirrels

open Machines

/-- `SQSharedState` after `Init`: its objects, with the default delegates. -/
structure SQSharedState where
  heap : Heap
  defaultDelegate : SQObjectType → Option ℕ
  /-- No table has been given a delegate. -/
  plain : ∀ r, heap.delegates r = none

/-- A shared state without objects. -/
def SQSharedState.empty : SQSharedState := ⟨.empty, fun _ => none, fun _ => rfl⟩

/-- The bits of a letter of a type mask. -/
def typemaskBits : Char → Option ℕ
  | 'o' => some (rawType .null)
  | 'i' => some (rawType .integer)
  | 'f' => some (rawType .float)
  | 'n' => some (rawType .float ||| rawType .integer)
  | 's' => some (rawType .string)
  | 't' => some (rawType (.ref .table))
  | 'a' => some (rawType (.ref .array))
  | 'u' => some (rawType (.ref .userData))
  | 'c' => some (rawType (.ref .closure) ||| rawType (.ref .nativeClosure))
  | 'b' => some (rawType .bool)
  | 'g' => some (rawType (.ref .generator))
  | 'p' => some (rawType .userPointer)
  | 'v' => some (rawType (.ref .thread))
  | 'x' => some (rawType (.ref .inst))
  | 'y' => some (rawType (.ref .cls))
  | 'r' => some (rawType (.ref .weakRef))
  | _ => none

/-- `CompileTypemask`, with the mask read so far. -/
def compileTypemask : ℕ → List Char → Option (List ℤ)
  | _, [] => some []
  | _, '.' :: rest => (compileTypemask 0 rest).map (-1 :: ·)
  | mask, ' ' :: rest => compileTypemask mask rest
  | mask, c :: rest =>
    match typemaskBits c, rest with
    | none, _ => none
    | some _, ['|'] => none
    | some bits, '|' :: rest => compileTypemask (mask ||| bits) rest
    | some bits, rest => (compileTypemask 0 rest).map (((mask ||| bits : ℕ) : ℤ) :: ·)

/-- `SQRegFunction`; the C function is named by its place in the list. -/
structure SQRegFunction where
  name : String
  nparamscheck : ℤ
  typemask : Option String
deriving DecidableEq, Repr

/-- `base_funcs`. -/
def baseFuncs : List SQRegFunction :=
  [⟨"seterrorhandler", 2, none⟩, ⟨"setdebughook", 2, none⟩, ⟨"enabledebuginfo", 2, none⟩,
    ⟨"getstackinfos", 2, some ".n"⟩, ⟨"getroottable", 1, none⟩, ⟨"setroottable", 2, none⟩,
    ⟨"getconsttable", 1, none⟩, ⟨"setconsttable", 2, none⟩, ⟨"assert", -2, none⟩,
    ⟨"print", 2, none⟩, ⟨"error", 2, none⟩, ⟨"compilestring", -2, some ".ss"⟩,
    ⟨"newthread", 2, some ".c"⟩, ⟨"suspend", -1, none⟩, ⟨"array", -2, some ".n"⟩,
    ⟨"type", 2, none⟩, ⟨"callee", 0, none⟩, ⟨"dummy", 0, none⟩, ⟨"collectgarbage", 0, none⟩,
    ⟨"resurrectunreachable", 0, none⟩]

/-- The constants of the base library. -/
def baseConstants : List (String × SQObject) :=
  [("_versionnumber_", .integer 320), ("_version_", .string (ascii "Squirrel 3.2 stable")),
    ("_charsize_", .integer 1), ("_intsize_", .integer 8), ("_floatsize_", .integer 4)]

namespace Api

variable (env : Env)

/-- `sq_newclosure` without free variables, then `sq_setnativeclosurename` and
`sq_setparamscheck` on it. -/
def newBaseClosure (function : ℕ) (f : SQRegFunction) : Act SQVM Unit :=
  pushNew fun h =>
    let typecheck := (f.typemask.bind fun mask => compileTypemask 0 mask.toList).getD []
    let allocated := h.natives.alloc
      ⟨function, none, none, f.nparamscheck, typecheck, .string (ascii f.name)⟩
    (.ref .nativeClosure allocated.1, { h with natives := allocated.2 })

/-- Register a slot of the root table, which is on top of the stack. -/
def register (name : String) (pushVal : Act SQVM Unit) : Act SQVM Unit := do
  sqPushstring (ascii name)
  pushVal
  let _ ← sqNewslot env (-3) false

/-- Register slots in turn. -/
def registerAll : List (String × Act SQVM Unit) → Act SQVM Unit
  | [] => pure ()
  | (name, pushVal) :: rest => do
    register env name pushVal
    registerAll rest

/-- The slots of the base library, with the programs that push their values. -/
def baseSlots : List (String × Act SQVM Unit) :=
  baseFuncs.zipIdx.map (fun (f, i) => (f.name, newBaseClosure i f)) ++
    baseConstants.map fun (name, val) => (name, push val)

/-- `sq_base_register`. -/
def sqBaseRegister : Act SQVM Unit := do
  sqPushroottable
  registerAll env baseSlots
  sqPop 1

end Api

namespace SQVM

variable (env : Env) (shared : SQSharedState) (initialStackSize : ℕ)

/-- The machine `SQVM::Init` starts with: its root table is made, its library is not registered. -/
def init : SQVM where
  stack := []
  stackSize := initialStackSize
  stackbase := 0
  calls := []
  nnativecalls := 0
  nmetamethodscall := 0
  suspended := false
  lasterror := .null
  errorhandler := .none
  roottable := some (shared.heap.newTable (SQTable.create 0)).1
  defaultDelegate := shared.defaultDelegate
  heap := (shared.heap.newTable (SQTable.create 0)).2
  refs := fun _ => 0
  errorSlot := none
  root := 0
  overflowed := false
  stranded := 0
  invoked := []

/-- `Squirrel::new` on the machine that `SQVM::Init` starts with. -/
def new : Act SQVM Unit := do
  Api.sqBaseRegister env
  Api.sqPushroottable
  let root ← Api.sqGetstackobj (-1)
  Api.sqAddref root
  Api.sqPop 1
  Act.modify fun s => { s with
    root := match root with
      | .ref _ r => r
      | _ => 0
    errorSlot := some none }

/-- The machine `Squirrel::new` returns; `opened_eq` says what it is. -/
@[irreducible] def opened : SQVM := ((new env).run (init shared initialStackSize)).2

end SQVM

/-! ## The machine that is returned -/

section Opened

variable {env : Env} {s : SQVM} {r : ℕ}

/-- A slot of a table without a delegate is stored and its key and value are popped. -/
theorem Api.sqNewslot_plain {key val : SQObject} {st : List SQObject}
    (located : s.stack = val :: key :: .ref .table r :: st) (base : s.stackbase ≤ st.length)
    (plain : s.heap.delegates r = none) (valid : key ≠ .null) :
    (sqNewslot env (-3) false).run s = (.ok .ok, { s with
      heap := s.heap.tableNewSlot env.hash r key val
      stack := .ref .table r :: st }) := by
  have deep : ¬ s.depth < 3 := by
    simp only [SQVM.depth, SQVM.top, located, List.length_cons]
    omega
  have self : s.stackGet (-3) = .ref .table r := by
    simp [SQVM.stackGet, SQVM.up, located]
  have metamethod : s.getMetaMethod env (.ref .table r) .newslot = none := by
    simp [SQVM.getMetaMethod, SQVM.delegateOf, plain, Heap.delegateMetaMethod]
  have stored : (SQVM.newSlot env (.ref .table r) key val false).run s =
      (.ok true, { s with heap := s.heap.tableNewSlot env.hash r key val }) := by
    simp [SQVM.newSlot, valid, Act.run_bind, metamethod]
  simp [sqNewslot, paramsCheck, Act.run_bind, deep, self, SQObject.type, SQVM.up, located, valid,
    stored, popN, SQVM.pop]

/-- What the registration of slots leaves of a heap. -/
structure Heap.SameTypes (h h' : Heap) : Prop where
  delegates : h'.delegates = h.delegates
  classes : h'.classes = h.classes
  instances : h'.instances = h.instances

theorem Heap.SameTypes.refl (h : Heap) : SameTypes h h := ⟨rfl, rfl, rfl⟩

theorem Heap.SameTypes.trans {h h' h'' : Heap} (first : SameTypes h h') (next : SameTypes h' h'') :
    SameTypes h h'' :=
  ⟨next.delegates.trans first.delegates, next.classes.trans first.classes,
    next.instances.trans first.instances⟩

/-- A program that pushes one slot and changes no delegate, class or instance. -/
def Api.Pushes (m : Act SQVM Unit) : Prop :=
  ∀ s : SQVM, ∃ val heap, s.heap.SameTypes heap ∧
    m.run s = (.ok (), { s with heap := heap }.apiPush val)

/-- Registering a slot leaves the root table on top; it needs two more slots. -/
theorem Api.register_run (name : String) {pushVal : Act SQVM Unit} (pushes : Pushes pushVal)
    (located : s.stack = [.ref .table r]) (base : s.stackbase = 0)
    (plain : s.heap.delegates r = none) :
    ∃ heap, s.heap.SameTypes heap ∧ (register env name pushVal).run s =
      (.ok (),
        { s with heap := heap, overflowed := s.overflowed || decide (s.stackSize < 3) }) := by
  obtain ⟨val, heap, same, ran⟩ := pushes (s.apiPush (.string (ascii name)))
  refine ⟨heap.tableNewSlot env.hash r (.string (ascii name)) val,
    ⟨same.delegates, same.classes, same.instances⟩, ?_⟩
  generalize eq : { s.apiPush (.string (ascii name)) with heap := heap }.apiPush val = t at ran
  have located' : t.stack = [val, .string (ascii name), .ref .table r] := by
    simp [← eq, SQVM.apiPush, located]
  have base' : t.stackbase ≤ 0 := by simp [← eq, SQVM.apiPush, base]
  have plain' : t.heap.delegates r = none := by
    rw [← eq]
    exact same.delegates ▸ plain
  unfold register
  rw [Act.run_bind_of_ok (show (sqPushstring (ascii name)).run s = (.ok (), _) from rfl),
    Act.run_bind_of_ok ran, Act.run_bind_of_ok (sqNewslot_plain located' base' plain' (by simp)),
    Act.run_pure, ← eq]
  have room : (s.stackSize ≤ 1 ∨ s.stackSize ≤ 2) ↔ s.stackSize < 3 := by omega
  simp [SQVM.apiPush, SQVM.top, located, Bool.or_assoc, ← Bool.decide_or, room]

theorem Api.registerAll_run (slots : List (String × Act SQVM Unit))
    (pushes : ∀ slot ∈ slots, Pushes slot.2) (located : s.stack = [.ref .table r])
    (base : s.stackbase = 0) (plain : s.heap.delegates r = none) :
    ∃ heap, s.heap.SameTypes heap ∧ (registerAll env slots).run s = (.ok (), { s with
      heap := heap
      overflowed := s.overflowed || decide (slots ≠ [] ∧ s.stackSize < 3) }) := by
  induction slots generalizing s with
  | nil => exact ⟨s.heap, .refl _, by simp [registerAll]⟩
  | cons slot slots ih =>
    obtain ⟨heap, same, ran⟩ := register_run slot.1 (pushes slot (by simp))
      located base plain
    obtain ⟨heap', same', rest⟩ := ih (fun slot mem => pushes slot (by simp [mem]))
      (s := { s with heap := heap, overflowed := s.overflowed || decide (s.stackSize < 3) })
      located base (same.delegates ▸ plain)
    refine ⟨heap', same.trans same', ?_⟩
    rw [registerAll, Act.run_bind_of_ok ran, rest]
    by_cases small : s.stackSize < 3 <;> simp [small]

theorem Api.baseSlots_push (slot : String × Act SQVM Unit) (mem : slot ∈ baseSlots) :
    Pushes slot.2 := by
  rcases List.mem_append.1 mem with mem | mem
  · obtain ⟨f, -, rfl⟩ := List.mem_map.1 mem
    intro s
    refine ⟨_, _, ?_, rfl⟩
    exact ⟨rfl, rfl, rfl⟩
  · obtain ⟨c, -, rfl⟩ := List.mem_map.1 mem
    exact fun s => ⟨c.2, s.heap, .refl _, rfl⟩

/-- The root table of a machine that has just been opened. -/
def SQSharedState.root (shared : SQSharedState) : ℕ := shared.heap.tables.next

/-- `Squirrel::new` returns a machine with an empty stack and one reference, the one to its root
table. It writes outside the stack vector unless that has room for three slots. -/
theorem SQVM.opened_eq (env : Env) (shared : SQSharedState) (initialStackSize : ℕ) :
    ∃ heap : Heap, shared.heap.SameTypes heap ∧
      opened env shared initialStackSize = { init shared initialStackSize with
        heap := heap
        refs := Function.update (fun _ => 0) (.ref .table shared.root) 1
        errorSlot := some none
        root := shared.root
        overflowed := decide (initialStackSize < 3) } := by
  have located : ((init shared initialStackSize).apiPush (.ref .table shared.root)).stack =
      [.ref .table shared.root] := rfl
  obtain ⟨heap, same, ran⟩ := Api.registerAll_run Api.baseSlots Api.baseSlots_push
    located rfl (shared.plain _)
  refine ⟨heap, ⟨same.delegates, same.classes, same.instances⟩, ?_⟩
  have slots : Api.baseSlots ≠ [] := by simp [Api.baseSlots, baseFuncs]
  have registered : (Api.sqBaseRegister env).run (init shared initialStackSize) =
      (.ok (), { init shared initialStackSize with
        heap := heap
        overflowed := decide (initialStackSize < 3) }) := by
    unfold Api.sqBaseRegister
    rw [Act.run_bind_of_ok (show Api.sqPushroottable.run (init shared initialStackSize) =
      (.ok (), (init shared initialStackSize).apiPush (.ref .table shared.root)) from rfl),
      Act.run_bind_of_ok ran]
    by_cases small : initialStackSize < 3
    · simp [Api.sqPop, Act.run_bind, Api.popN, SQVM.pop, SQVM.top, init, apiPush, slots, small]
    · have : initialStackSize ≠ 0 := by omega
      simp [Api.sqPop, Act.run_bind, Api.popN, SQVM.pop, SQVM.top, init, apiPush, slots, small,
        this]
  unfold opened new
  rw [Act.run_bind_of_ok registered]
  have made : (shared.heap.newTable (SQTable.create 0)).1 = shared.root := rfl
  by_cases empty : initialStackSize = 0 <;>
    simp [Act.run_bind, Api.sqPushroottable, rootObject, Api.push, apiPush, top,
      Api.sqGetstackobj, stackGet, up, Api.sqAddref, SQObject.isRefCounted, Api.sqPop, Api.popN,
      pop,
      init, made, empty]

end Opened

end Squirrels
