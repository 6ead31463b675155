import Squirrels.Lib.Simulation
import Squirrels.Vm.Object

/-!
# Free variables of closures

A function that refers to a local variable of an outer one reaches it through an `SQOuter`. As long
as the variable is on the stack the outer points there; when the variable goes out of scope its
value moves into the outer. The open outers are on a list, sorted by where they point, so that a
variable has one outer, however many closures refer to it. When the stack moves they are pointed
anew.

`Scopes` says what this is for: a variable is a cell, a place of the stack has a cell, and a closure
has the cells it was made with.
-/

namespace Squirrels

/-- `SQOuterVar`: a local variable of the function, or an outer one of its own. -/
inductive SQOuterVar where
  | otLocal (i : ℕ)
  | otOuter (j : ℕ)
deriving DecidableEq, Repr

/-- What a running program does with variables. Places on the stack are counted from its start. -/
inductive VariableCall where
  /-- The value at a place on the stack. -/
  | load (i : ℕ)
  | store (i : ℕ) (v : SQObject)
  /-- `_OP_CLOSURE`, in a running closure. -/
  | closure (current : ℕ) (outervalues : List SQOuterVar)
  /-- `_OP_GETOUTER`. -/
  | getOuter (closure j : ℕ)
  /-- `_OP_SETOUTER`. -/
  | setOuter (closure j : ℕ) (v : SQObject)
  /-- `_OP_CLOSE`, and the end of a frame. -/
  | close (i : ℕ)
  /-- The stack grows, and moves to an address. -/
  | grow (vals more : ℕ)
deriving DecidableEq, Repr

/-- `_valptr`: the address of a place on the stack, or that of the outer's own value. -/
inductive Valptr where
  | stack (address : ℕ)
  | own
deriving DecidableEq, Repr

structure SQOuter where
  valptr : Valptr
  idx : ℕ
  value : SQObject
deriving DecidableEq, Repr

/-- The part of `SQVM` that has variables: the stack, where it is, the list of the open outers, all
outers, and the outers of each closure. -/
structure Outers where
  vals : ℕ
  stack : List SQObject
  openouters : List ℕ
  outers : List SQOuter
  closures : List (List ℕ)
deriving DecidableEq, Repr

namespace Outers

/-- A stack of nulls, and the closure that runs first. -/
def new (vals size : ℕ) : Outers where
  vals := vals
  stack := List.replicate size .null
  openouters := []
  outers := []
  closures := [[]]

variable (s : Outers)

/-- Where an open outer points. -/
def address (p : ℕ) : Option ℕ :=
  (s.outers[p]?).bind fun o =>
    match o.valptr with
    | .stack a => some a
    | .own => none

/-- `*_valptr`, of an address that is on the stack. -/
def deref (p : ℕ) : Option SQObject :=
  (s.outers[p]?).bind fun o =>
    match o.valptr with
    | .stack a => if s.vals ≤ a then s.stack[a - s.vals]? else none
    | .own => some o.value

/-- `*_valptr = v`. -/
def assign (p : ℕ) (v : SQObject) : Option Outers :=
  (s.outers[p]?).bind fun o =>
    match o.valptr with
    | .stack a =>
      if s.vals ≤ a ∧ a - s.vals < s.stack.length then
        some { s with stack := s.stack.set (a - s.vals) v }
      else none
    | .own => some { s with outers := s.outers.set p { o with value := v } }

/-- The loop of `FindOuter` over the open outers: the one that points to the place, and the list
with a new one in its place if there is none. -/
def locate (stackindex new : ℕ) : List ℕ → Option (ℕ × List ℕ)
  | [] => some (new, [new])
  | p :: ps =>
    (s.address p).bind fun a =>
      if stackindex ≤ a then
        if a = stackindex then some (p, p :: ps)
        else (locate stackindex new ps).map fun r => (r.1, p :: r.2)
      else some (new, new :: p :: ps)

/-- `FindOuter`. -/
def findOuter (i : ℕ) : Option (ℕ × Outers) :=
  (s.locate (s.vals + i) s.outers.length s.openouters).map fun r =>
    if r.1 = s.outers.length then
      (r.1, { s with openouters := r.2, outers := s.outers ++ [⟨.stack (s.vals + i), i, .null⟩] })
    else (r.1, s)

/-- The outer of a closure. -/
def outerOf (closure j : ℕ) : Option ℕ := (s.closures[closure]?).bind fun ps => ps[j]?

/-- The outers of a new closure. -/
def capture (current : ℕ) : List SQOuterVar → Outers → Option (List ℕ × Outers)
  | [], s => some ([], s)
  | .otLocal i :: vs, s =>
    if i < s.stack.length then
      (s.findOuter i).bind fun r => (capture current vs r.2).map fun rest => (r.1 :: rest.1, rest.2)
    else none
  | .otOuter j :: vs, s =>
    (s.outerOf current j).bind fun p =>
      (capture current vs s).map fun rest => (p :: rest.1, rest.2)

/-- The loop of `CloseOuters`. -/
def closeOuters (stackindex : ℕ) : List ℕ → Outers → Option Outers
  | [], s => some { s with openouters := [] }
  | p :: ps, s =>
    (s.address p).bind fun a =>
      if stackindex ≤ a then
        (s.deref p).bind fun v => closeOuters stackindex ps
          { s with outers := s.outers.modify p fun o => { o with value := v, valptr := .own } }
      else some { s with openouters := p :: ps }

/-- `RelocateOuters`, from an open outer on. -/
def relocateOuters : List ℕ → Outers → Outers
  | [], s => s
  | p :: ps, s => relocateOuters ps
    { s with outers := s.outers.modify p fun o => { o with valptr := .stack (s.vals + o.idx) } }

/-- Answer a call. -/
def call (s : Outers) : VariableCall → Option (Option SQObject × Outers)
  | .load i => (s.stack[i]?).map fun v => (some v, s)
  | .store i v =>
    if i < s.stack.length then some (none, { s with stack := s.stack.set i v }) else none
  | .closure current outervalues =>
    (capture current outervalues s).map fun r =>
      (none, { r.2 with closures := r.2.closures ++ [r.1] })
  | .getOuter closure j =>
    (s.outerOf closure j).bind fun p => (s.deref p).map fun v => (some v, s)
  | .setOuter closure j v =>
    (s.outerOf closure j).bind fun p => (s.assign p v).map fun s => (none, s)
  | .close i => (closeOuters (s.vals + i) s.openouters s).map fun s => (none, s)
  | .grow vals more =>
    some (none, relocateOuters s.openouters
      { s with vals := vals, stack := s.stack ++ List.replicate more .null })

end Outers

/-! ## What variables are -/

/-- The values of all variables, the variable at each place of the stack, and the variables of each
closure. -/
structure Scopes where
  cells : List SQObject
  slots : List ℕ
  closures : List (List ℕ)
deriving DecidableEq, Repr

namespace Scopes

/-- Places with variables of their own. -/
def new (size : ℕ) : Scopes where
  cells := List.replicate size .null
  slots := List.range size
  closures := [[]]

variable (t : Scopes)

/-- The variable of a closure. -/
def variableOf (closure j : ℕ) : Option ℕ := (t.closures[closure]?).bind fun xs => xs[j]?

/-- The variables of a new closure. -/
def capture (current : ℕ) : SQOuterVar → Option ℕ
  | .otLocal i => t.slots[i]?
  | .otOuter j => t.variableOf current j

/-- Write a variable. -/
def write (x : ℕ) (v : SQObject) : Scopes := { t with cells := t.cells.set x v }

/-- Answer a call: the places beyond a closed one have new variables, with the values they had. -/
def call (t : Scopes) : VariableCall → Option (Option SQObject × Scopes)
  | .load i => (t.slots[i]?).bind fun x => (t.cells[x]?).map fun v => (some v, t)
  | .store i v => (t.slots[i]?).map fun x => (none, t.write x v)
  | .closure current outervalues =>
    (outervalues.mapM (t.capture current)).map fun xs =>
      (none, { t with closures := t.closures ++ [xs] })
  | .getOuter closure j =>
    (t.variableOf closure j).bind fun x => (t.cells[x]?).map fun v => (some v, t)
  | .setOuter closure j v => (t.variableOf closure j).map fun x => (none, t.write x v)
  | .close i =>
    some (none, { t with
      cells := t.cells ++ (t.slots.drop i).map fun x => t.cells.getD x .null
      slots := t.slots.take i ++ List.range' t.cells.length (t.slots.length - i) })
  | .grow _ more =>
    some (none, { t with
      cells := t.cells ++ List.replicate more .null
      slots := t.slots ++ List.range' t.cells.length more })

end Scopes

end Squirrels
