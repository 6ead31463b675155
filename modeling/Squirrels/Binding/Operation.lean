import Squirrels.Binding.CallContract
import Squirrels.Binding.ArrayContract

/-!
# The operations of the safe interface

Runs of the interface are sequences of operations whose arguments have any types. An operation is
a value here: its machine, the handles that move into it, and its program.
-/

namespace Squirrels

open Machines

/-- An argument of any type that pushes one slot. -/
structure Arg : Type 1 where
  {type : Type}
  [owns : Owns type]
  [into : IntoSquirrel type]
  [lawful : LawfulInto type]
  value : type

/-- A type that results are converted to. -/
structure Target : Type 1 where
  type : Type
  [owns : Owns type]
  [decode : FromSquirrel type]
  [lawful : LawfulFrom type]

/-- An argument pack of any type. -/
structure Pack : Type 1 where
  {type : Type}
  [owns : Owns type]
  [into : IntoArgs type]
  [lawful : LawfulArgs type]
  value : type

attribute [instance] Arg.owns Arg.into Arg.lawful Target.owns Target.decode Target.lawful
  Pack.owns Pack.into Pack.lawful

/-- A call of the interface. -/
structure Call : Type 1 where
  /-- The machine it works on. -/
  vm : VmId
  /-- The handles that move into it. -/
  consumed : List Object
  {Result : Type}
  [owns : Owns Result]
  program : Act World Result

attribute [instance] Call.owns

/-- No call that the program makes is stranded: each finds room for its arguments and gives its
caller the frame back. -/
def Call.Completes (c : Call) (w : World) : Prop :=
  ((c.program.run w).2 c.vm).stranded = (w c.vm).stranded

instance (c : Call) (w : World) : Decidable (c.Completes w) :=
  inferInstanceAs (Decidable (_ = _))

/-! ## Tables and classes -/

/-- The operations of `Table`. -/
inductive TableOp : Type 1 where
  | new (sq : VmId)
  | withCapacity (sq : VmId) (slots : ℤ)
  | get (self : Table) (key : Arg) (out : Target)
  | set (self : Table) (key value : Arg)
  | assign (self : Table) (key value : Arg)
  | delete (self : Table) (key : Arg) (out : Target)
  | clear (self : Table)
  | rawGet (self : Table) (key : Arg) (out : Target)
  | rawSet (self : Table) (key value : Arg)
  | rawDelete (self : Table) (key : Arg) (out : Target)
  | containsKey (self : Table) (key : Arg)
  | setDelegate (self : Table) (delegate : Option Table)
  | getDelegate (self : Table)
  | len (self : Table)
  | cloneValue (self : Table)

namespace TableOp

variable (env : Env)

/-- The call of an operation of `Table`. -/
def toCall : TableOp → Call
  | new sq => ⟨sq, [], Handle.Table.new env sq⟩
  | withCapacity sq slots => ⟨sq, [], Handle.Table.withCapacity env sq slots⟩
  | get self key out =>
    ⟨self.sq, Owns.handles key.value, Handle.Table.get (ν := out.type) env self key.value⟩
  | set self key value =>
    ⟨self.sq, Owns.handles (key.value, value.value),
      Handle.Table.set env self key.value value.value⟩
  | assign self key value =>
    ⟨self.sq, Owns.handles (key.value, value.value),
      Handle.Table.assign env self key.value value.value⟩
  | delete self key out =>
    ⟨self.sq, Owns.handles key.value, Handle.Table.delete (ν := out.type) env self key.value⟩
  | clear self => ⟨self.sq, [], Handle.Table.clear env self⟩
  | rawGet self key out =>
    ⟨self.sq, Owns.handles key.value, Handle.Table.rawGet (ν := out.type) env self key.value⟩
  | rawSet self key value =>
    ⟨self.sq, Owns.handles (key.value, value.value),
      Handle.Table.rawSet env self key.value value.value⟩
  | rawDelete self key out =>
    ⟨self.sq, Owns.handles key.value, Handle.Table.rawDelete (ν := out.type) env self key.value⟩
  | containsKey self key =>
    ⟨self.sq, Owns.handles key.value, Handle.Table.containsKey env self key.value⟩
  | setDelegate self delegate => ⟨self.sq, [], Handle.Table.setDelegate env self delegate⟩
  | getDelegate self => ⟨self.sq, [], Handle.Table.getDelegate env self⟩
  | len self => ⟨self.sq, [], Handle.len self⟩
  | cloneValue self => ⟨self.sq, [], Handle.Table.cloneValue env self⟩

/-- All handles belong to the machine and sizes are not negative. -/
def Allowed : TableOp → Prop
  | withCapacity _ slots => 0 ≤ slots
  | get self key _ | delete self key _ | rawGet self key _ | rawDelete self key _
  | containsKey self key => Local self.sq key.value
  | set self key value | assign self key value | rawSet self key value =>
    Local self.sq (key.value, value.value)
  | setDelegate self delegate => ∀ d ∈ delegate, d.sq = self.sq
  | _ => True

/-- There is room for the slots the operation pushes. -/
def Room (s : SQVM) (height : ℕ) : TableOp → Prop
  | new _ | withCapacity _ _ => Fits s height 2
  | clear _ | len _ => Fits s height 1
  | get .. | set .. | assign .. | delete .. | cloneValue _ | rawGet .. | rawSet .. | rawDelete ..
  | getDelegate _ => Fits s height 3
  | containsKey .. | setDelegate .. => Fits s height 2

end TableOp

/-- The operations of `Class`, without the ones that call functions. -/
inductive ClassOp : Type 1 where
  | new (sq : VmId)
  | withBase (base : Class)
  | base (self : Class)
  | rawInstantiate (self : Class)
  | newMember (self : Class) (key value attr : Arg) (isStatic : Bool)
  | rawNewMember (self : Class) (key value attr : Arg) (isStatic : Bool)
  | newSlot (self : Class) (key value : Arg) (isStatic : Bool)
  | get (self : Class) (key : Arg) (out : Target)
  | rawGet (self : Class) (key : Arg) (out : Target)
  | rawSet (self : Class) (key value : Arg)
  | memberHandle (self : Class) (name : StringHandle)
  | setInstanceUserDataSize (self : Class) (size : ℤ)

namespace ClassOp

variable (env : Env)

/-- The call of an operation of `Class`. -/
def toCall : ClassOp → Call
  | new sq => ⟨sq, [], Handle.Class.new env sq⟩
  | withBase parent => ⟨parent.sq, [], Handle.Class.withBase env parent⟩
  | base self => ⟨self.sq, [], Handle.Class.base env self⟩
  | rawInstantiate self => ⟨self.sq, [], Handle.Class.rawInstantiate env self⟩
  | newMember self key value attr isStatic =>
    ⟨self.sq, Owns.handles (key.value, value.value, attr.value),
      Handle.Class.newMember env self key.value value.value attr.value isStatic⟩
  | rawNewMember self key value attr isStatic =>
    ⟨self.sq, Owns.handles (key.value, value.value, attr.value),
      Handle.Class.rawNewMember env self key.value value.value attr.value isStatic⟩
  | newSlot self key value isStatic =>
    ⟨self.sq, Owns.handles (key.value, value.value),
      Handle.Class.newSlot env self key.value value.value isStatic⟩
  | get self key out =>
    ⟨self.sq, Owns.handles key.value, Handle.Class.get (ν := out.type) env self key.value⟩
  | rawGet self key out =>
    ⟨self.sq, Owns.handles key.value, Handle.Class.rawGet (ν := out.type) env self key.value⟩
  | rawSet self key value =>
    ⟨self.sq, Owns.handles (key.value, value.value),
      Handle.Class.rawSet env self key.value value.value⟩
  | memberHandle self name => ⟨self.sq, Owns.handles name, Handle.Class.memberHandle env self name⟩
  | setInstanceUserDataSize self size =>
    ⟨self.sq, [], Handle.Class.setInstanceUserDataSize env self size⟩

/-- All handles belong to the machine and sizes are not negative. -/
def Allowed : ClassOp → Prop
  | newMember self key value attr _ | rawNewMember self key value attr _ =>
    Local self.sq (key.value, value.value, attr.value)
  | newSlot self key value _ | rawSet self key value => Local self.sq (key.value, value.value)
  | get self key _ | rawGet self key _ => Local self.sq key.value
  | memberHandle self name => Local self.sq name
  | setInstanceUserDataSize _ size => 0 ≤ size
  | _ => True

/-- The room an operation needs. -/
def Room (s : SQVM) (height : ℕ) : ClassOp → Prop
  | new _ | withBase _ | memberHandle .. => Fits s height 2
  | base _ | rawInstantiate _ | newSlot .. | get .. | rawGet .. | rawSet .. => Fits s height 3
  | newMember .. | rawNewMember .. => Fits s height 4
  | setInstanceUserDataSize .. => Fits s height 1

end ClassOp

/-! ## Arrays and instances -/

/-- The operations of `Array` and `ArrayItems`. -/
inductive ArrayOp : Type 1 where
  | new (sq : VmId) (size : ℤ)
  | get (self : ArrayHandle) (idx : ℤ) (out : Target)
  | set (self : ArrayHandle) (idx : ℤ) (value : Arg)
  | append (self : ArrayHandle) (value : Arg)
  | pop (self : ArrayHandle) (out : Target)
  | len (self : ArrayHandle)
  | insert (self : ArrayHandle) (idx : ℤ) (value : Arg)
  | remove (self : ArrayHandle) (idx : ℤ)
  | reverse (self : ArrayHandle)
  | clear (self : ArrayHandle)
  | resize (self : ArrayHandle) (newSize : ℤ)
  | cloneValue (self : ArrayHandle)
  | iter (self : ArrayHandle)
  | intoIter (self : ArrayHandle)
  | next (items : Handle.Array.Items) (out : Target)

namespace ArrayOp

variable (env : Env)

/-- The call of an operation of `Array`. An iterator stays with the caller. -/
def toCall : ArrayOp → Call
  | new sq size => ⟨sq, [], Handle.Array.new env sq size⟩
  | get self idx out => ⟨self.sq, [], Handle.Array.get (ν := out.type) env self idx⟩
  | set self idx value =>
    ⟨self.sq, Owns.handles value.value, Handle.Array.set env self idx value.value⟩
  | append self value =>
    ⟨self.sq, Owns.handles value.value, Handle.Array.append env self value.value⟩
  | pop self out => ⟨self.sq, [], Handle.Array.pop (ν := out.type) env self⟩
  | len self => ⟨self.sq, [], Handle.len self⟩
  | insert self idx value =>
    ⟨self.sq, Owns.handles value.value, Handle.Array.insert env self idx value.value⟩
  | remove self idx => ⟨self.sq, [], Handle.Array.remove env self idx⟩
  | reverse self => ⟨self.sq, [], Handle.Array.reverse env self⟩
  | clear self => ⟨self.sq, [], Handle.Array.clear env self⟩
  | resize self newSize => ⟨self.sq, [], Handle.Array.resize env self newSize⟩
  | cloneValue self => ⟨self.sq, [], Handle.Array.cloneValue env self⟩
  | iter self => ⟨self.sq, [], Handle.Array.iter self⟩
  | intoIter self => ⟨self.sq, Owns.handles self, Handle.Array.intoIter self⟩
  | next items out => ⟨items.array.sq, [], do
      let r ← items.next (ν := out.type) env
      pure r.1⟩

/-- The room an operation needs. -/
def Room (s : SQVM) (height : ℕ) : ArrayOp → Prop
  | new .. | append .. | insert .. => Fits s height 2
  | get .. | set .. | pop .. | cloneValue _ | next .. => Fits s height 3
  | len _ | remove .. | reverse _ | clear _ | resize .. | iter _ | intoIter _ =>
    Fits s height 1

end ArrayOp

/-- The operations of `Instance`, without the one that calls functions. -/
inductive InstanceOp : Type 1 where
  | cls (self : Instance)
  | instanceOf (self : Instance) (cls : Class)
  | get (self : Instance) (key : Arg) (out : Target)
  | set (self : Instance) (key value : Arg)
  | rawGet (self : Instance) (key : Arg) (out : Target)
  | rawSet (self : Instance) (key value : Arg)

namespace InstanceOp

variable (env : Env)

/-- The call of an operation of `Instance`. -/
def toCall : InstanceOp → Call
  | cls self => ⟨self.sq, [], Handle.Instance.cls env self⟩
  | instanceOf self c => ⟨self.sq, [], Handle.Instance.instanceOf self c⟩
  | get self key out =>
    ⟨self.sq, Owns.handles key.value, Handle.Instance.get (ν := out.type) env self key.value⟩
  | set self key value =>
    ⟨self.sq, Owns.handles (key.value, value.value),
      Handle.Instance.set env self key.value value.value⟩
  | rawGet self key out =>
    ⟨self.sq, Owns.handles key.value, Handle.Instance.rawGet (ν := out.type) env self key.value⟩
  | rawSet self key value =>
    ⟨self.sq, Owns.handles (key.value, value.value),
      Handle.Instance.rawSet env self key.value value.value⟩

/-- The room an operation needs. -/
def Room (s : SQVM) (height : ℕ) : InstanceOp → Prop
  | instanceOf .. => Fits s height 2
  | cls _ | get .. | set .. | rawGet .. | rawSet .. => Fits s height 3

end InstanceOp

/-! ## Script code -/

/-- The operations that compile or call script code. -/
inductive ScriptOp : Type 1 where
  | compileStr (sq : VmId) (src sourceName : List UInt8)
  | eval (sq : VmId) (src : List UInt8) (out : Target)
  | call (self : Closure) (args : Pack) (out : Target)
  | callWith (self : Closure) (this : Arg) (args : Pack) (out : Target)
  | instantiate (self : Class) (args : Pack)
  | callMethod (self : Instance) (key : Arg) (args : Pack) (out : Target)

namespace ScriptOp

variable (env : Env)

/-- The call of an operation on script code. -/
def toCall : ScriptOp → Call
  | compileStr sq src sourceName => ⟨sq, [], Squirrel.compileStr env sq src sourceName⟩
  | eval sq src out => ⟨sq, [], Squirrel.eval (ν := out.type) env sq src⟩
  | call self args out =>
    ⟨self.sq, Owns.handles args.value, self.call (ν := out.type) env args.value⟩
  | callWith self this args out =>
    ⟨self.sq, Owns.handles (this.value, args.value),
      self.callWith (ν := out.type) env this.value args.value⟩
  | instantiate self args =>
    ⟨self.sq, Owns.handles args.value, Handle.Class.instantiate env self args.value⟩
  | callMethod self key args out =>
    ⟨self.sq, Owns.handles (key.value, args.value),
      Handle.Instance.callMethod (ν := out.type) env self key.value args.value⟩

/-- All handles belong to the machine. -/
def Allowed : ScriptOp → Prop
  | compileStr .. | eval .. => True
  | call self args _ => Local self.sq args.value
  | instantiate self args => Local self.sq args.value
  | callWith self this args _ => Local self.sq (this.value, args.value)
  | callMethod self key args _ => Local self.sq (key.value, args.value)

/-- The room an operation needs, on a machine that runs and, where it compiles, has a root table. -/
def Room (s : SQVM) (height : ℕ) : ScriptOp → Prop
  | compileStr _ src sourceName => Api.CanCompile env s src sourceName ∧ Fits s height 2
  | eval _ src _ => Api.CanCompile env s src (ascii "=eval") ∧ CanCall s height 0
  | call _ args _ | callWith _ _ args _ | instantiate _ args | callMethod _ _ args _ =>
    CanCall s height (LawfulArgs.size args.value)

end ScriptOp

/-- The operations of `NativeClosure`. -/
inductive NativeOp : Type 1 where
  | call (self : NativeClosure) (args : Pack) (out : Target)
  | callWith (self : NativeClosure) (this : Arg) (args : Pack) (out : Target)

namespace NativeOp

variable (env : Env)

/-- The call of an operation of `NativeClosure`. -/
def toCall : NativeOp → Call
  | call self args out =>
    ⟨self.sq, Owns.handles args.value, self.call (ν := out.type) env args.value⟩
  | callWith self this args out =>
    ⟨self.sq, Owns.handles (this.value, args.value),
      self.callWith (ν := out.type) env this.value args.value⟩

/-- The room an operation needs. A C function that finds a script function as `this` may tail call
it, and then its frame is not left. -/
def Room (s : SQVM) (height : ℕ) : NativeOp → Prop
  | call _ args _ => CanCall s height (LawfulArgs.size args.value)
  | callWith _ this args _ => CanCall s height (LawfulArgs.size args.value) ∧
      ∀ o, LawfulInto.Shows this.value o → ∀ c, o ≠ .ref .closure c

end NativeOp

/-! ## Iterators of tables -/

/-- The operations of `TableSlots`, with `Table::iter`. -/
inductive SlotsOp : Type 1 where
  | iter (self : Table)
  | next (slots : Handle.Table.Slots) (key val : Target)
  | drop (slots : Handle.Table.Slots)

namespace SlotsOp

variable (env : Env)

instance : Owns Handle.Table.Slots := ⟨fun _ => []⟩

/-- The call of an operation of `TableSlots`. -/
def toCall : SlotsOp → Call
  | iter self => ⟨self.sq, [], Handle.Table.iter self⟩
  | next slots key val => ⟨slots.sq, [], slots.next (κ := key.type) (ν := val.type) env⟩
  | drop slots => ⟨slots.sq, [], slots.drop⟩

/-- The room an operation needs. A step looks for its table and its position on top of the
stack. -/
def Room (s : SQVM) (height : ℕ) : SlotsOp → Prop
  | iter _ => Fits s height 2
  | next .. => ∃ pos r rest, s.stack = pos :: .ref .table r :: rest ∧ Api.ValidPosition pos ∧
      Fits s rest.length 5
  | drop _ => True

end SlotsOp

/-! ## Machines -/

/-- The other operations on a machine. -/
inductive MachineOp : Type 1 where
  | rootTable (sq : VmId)
  | newUserData (sq : VmId) (typeId : ℕ)
  | payload (self : UserData) (typeId : ℕ)
  | createFunction (sq : VmId) (trampoline typeId : ℕ)
  | newString (sq : VmId) (bytes : List UInt8)
  | pushValue (sq : VmId) (value : Value)

namespace MachineOp

variable (env : Env)

/-- The call of an operation on a machine. A value that is pushed is borrowed. -/
def toCall : MachineOp → Call
  | rootTable sq => ⟨sq, [], Squirrel.rootTable sq⟩
  | newUserData sq typeId => ⟨sq, [], Handle.UserData.new env sq typeId⟩
  | payload self typeId => ⟨self.sq, [], Handle.UserData.payload env self typeId⟩
  | createFunction sq trampoline typeId =>
    ⟨sq, [], Squirrel.createFunction env sq trampoline typeId⟩
  | newString sq bytes => ⟨sq, [], StringHandle.new env sq bytes⟩
  | pushValue sq value => ⟨sq, [], Squirrel.pushValue sq value⟩

/-- The room an operation needs. -/
def Room (s : SQVM) (height : ℕ) : MachineOp → Prop
  | rootTable _ => True
  | newUserData .. | createFunction .. => Fits s height 2
  | payload .. | newString .. | pushValue .. => Fits s height 1

end MachineOp

/-! ## Handles -/

/-- The operations on handles alone: making them, dropping them and converting them, along both
paths of the conversion traits. -/
inductive HandleOp : Type 1 where
  | clone (o : Object)
  | drop (o : Object)
  | objectFromStack (sq : VmId) (idx : ℤ)
  | intoValue (o : Object)
  | fromStack (sq : VmId) (idx : ℤ) (out : Target)
  | fromSquirrel (sq : VmId) (value : Value) (out : Target)
  | intoSquirrel (sq : VmId) (value : Arg)
  | pushIntoStack (sq : VmId) (value : Arg)
  | getRuntimeError (sq : VmId)

namespace HandleOp

variable (env : Env)

/-- The call of an operation on handles. -/
def toCall : HandleOp → Call
  | clone o => ⟨o.sq, [], o.clone⟩
  | drop o => ⟨o.sq, [o], o.drop⟩
  | objectFromStack sq idx => ⟨sq, [], Object.fromStack idx sq⟩
  | intoValue o => ⟨o.sq, [o], o.intoValue env⟩
  | fromStack sq idx out =>
    ⟨sq, [], (FromSquirrel.fromStack env idx sq : Act World (Except Error out.type))⟩
  | fromSquirrel sq value out =>
    ⟨sq, Owns.handles value,
      (FromSquirrel.fromSquirrel env value sq : Act World (Except Error out.type))⟩
  | intoSquirrel sq value =>
    ⟨sq, Owns.handles value.value, IntoSquirrel.intoSquirrel env value.value sq⟩
  | pushIntoStack sq value =>
    ⟨sq, Owns.handles value.value, IntoSquirrel.pushIntoStack env value.value sq⟩
  | getRuntimeError sq => ⟨sq, [], CallError.getRuntimeError env sq⟩

/-- The room an operation needs. An index names a slot. -/
def Room (s : SQVM) (height : ℕ) : HandleOp → Prop
  | clone _ | drop _ | fromSquirrel .. => True
  | objectFromStack _ idx => ∃ o, Slot s s.stack idx o
  | fromStack _ idx _ => Fits s height 1 ∧ ∃ o, Slot s s.stack idx o
  | intoValue _ | intoSquirrel .. | pushIntoStack .. | getRuntimeError _ => Fits s height 1

end HandleOp

/-! ## All of them -/

/-- An operation of the interface. -/
inductive Op : Type 1 where
  | table (op : TableOp)
  | cls (op : ClassOp)
  | array (op : ArrayOp)
  | inst (op : InstanceOp)
  | script (op : ScriptOp)
  | native (op : NativeOp)
  | slots (op : SlotsOp)
  | machine (op : MachineOp)
  | handle (op : HandleOp)

namespace Op

variable (env : Env)

/-- The call of an operation. -/
def toCall : Op → Call
  | table op => op.toCall env
  | cls op => op.toCall env
  | array op => op.toCall env
  | inst op => op.toCall env
  | script op => op.toCall env
  | native op => op.toCall env
  | slots op => op.toCall env
  | machine op => op.toCall env
  | handle op => op.toCall env

/-- The room an operation needs. -/
def Room (s : SQVM) (height : ℕ) : Op → Prop
  | table op => op.Room s height
  | cls op => op.Room s height
  | array op => op.Room s height
  | inst op => op.Room s height
  | script op => op.Room env s height
  | native op => op.Room s height
  | slots op => op.Room s height
  | machine op => op.Room s height
  | handle op => op.Room s height

/-- A delegate that is set belongs to the machine of its table. -/
def OwnDelegate : Op → Prop
  | table (.setDelegate self delegate) => ∀ d ∈ delegate, d.sq = self.sq
  | _ => True

end Op

end Squirrels
