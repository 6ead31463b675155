import Squirrels.Binding.Operation

/-!
# Contracts of the operations

The contracts of the single operations, as facts about every operation: those of tables, classes
and script code are balanced, and all of them are accounted for.
-/

namespace Squirrels

open Machines

variable {env : Env} {H N : Prop} {w₀ : World} {st : List SQObject}

/-- The contract of a call that leaves the stack as it was, unless a call it makes is stranded. -/
def Call.Balanced (c : Call) (env : Env) (H N : Prop) (w₀ : World) (st : List SQObject) : Prop :=
  ∀ L, Triple (fun w => w = w₀ ∧ At env H H w₀ c.vm st (c.consumed ++ L) w) c.program
    (fun r => Later env H H w₀ c.vm st (Owns.handles r ++ L)) (Failed env H N w₀ c.vm L)

/-- The contract of any call. -/
def Call.Accounted (c : Call) (env : Env) (H : Prop) (w₀ : World) (st : List SQObject) : Prop :=
  ∀ L, Triple (fun w => w = w₀ ∧ At env H H w₀ c.vm st (c.consumed ++ L) w) c.program
    (fun r w => ∃ stack, Later env H H w₀ c.vm stack (Owns.handles r ++ L) w)
    (Failed env H False w₀ c.vm L)

section Contracts

variable {c : Call}

theorem Call.Balanced.of
    (balanced : Squirrels.Balanced env H H N w₀ c.vm st c.consumed c.program) :
    c.Balanced env H N w₀ st := fun L => Triple.pre (balanced L) fun _ start => start.2

theorem Call.Accounted.of
    (accounted : Squirrels.Accounted env H H w₀ c.vm st c.consumed c.program) :
    c.Accounted env H w₀ st := fun L => Triple.pre (accounted L) fun _ start => start.2

theorem Call.Balanced.accounted (balanced : c.Balanced env H False w₀ st) :
    c.Accounted env H w₀ st := fun L =>
  Triple.post (balanced L) fun _ _ later => ⟨st, later⟩

end Contracts

theorem TableOp.balanced (op : TableOp) (own : (Op.table op).OwnDelegate)
    (allowed : N → op.Allowed) (room : H → op.Room (w₀ (op.toCall env).vm) st.length) :
    (op.toCall env).Balanced env H N w₀ st := by
  refine .of ?_
  cases op with
  | new sq => exact Handle.Table.new_balanced room
  | withCapacity sq slots => exact Handle.Table.withCapacity_balanced allowed room
  | get self key out => exact Handle.Table.get_balanced key.value allowed room
  | set self key value => exact Handle.Table.set_balanced key.value value.value allowed room
  | assign self key value => exact Handle.Table.assign_balanced key.value value.value allowed room
  | delete self key out => exact Handle.Table.delete_balanced key.value allowed room
  | clear self => exact Handle.Table.clear_balanced room
  | rawGet self key out => exact Handle.Table.rawGet_balanced key.value allowed room
  | rawSet self key value => exact Handle.Table.rawSet_balanced key.value value.value allowed room
  | rawDelete self key out => exact Handle.Table.rawDelete_balanced key.value allowed room
  | containsKey self key => exact Handle.Table.containsKey_balanced key.value allowed room
  | setDelegate self delegate => exact Handle.Table.setDelegate_balanced delegate own room
  | getDelegate self => exact Handle.Table.getDelegate_balanced room
  | len self => exact .of_at fun _ => len_at room
  | cloneValue self => exact Handle.Table.cloneValue_balanced room

theorem ClassOp.balanced (op : ClassOp) (allowed : N → op.Allowed)
    (room : H → op.Room (w₀ (op.toCall env).vm) st.length) :
    (op.toCall env).Balanced env H N w₀ st := by
  refine .of ?_
  cases op with
  | new sq => exact Handle.Class.new_balanced room
  | withBase parent => exact Handle.Class.withBase_balanced parent room
  | base self => exact Handle.Class.base_balanced room
  | rawInstantiate self => exact Handle.Class.rawInstantiate_balanced room
  | newMember self key value attr isStatic =>
    exact Handle.Class.memberWith_balanced false key.value value.value attr.value isStatic allowed
      room
  | rawNewMember self key value attr isStatic =>
    exact Handle.Class.memberWith_balanced true key.value value.value attr.value isStatic allowed
      room
  | newSlot self key value isStatic =>
    exact Handle.Class.newSlot_balanced key.value value.value isStatic allowed room
  | get self key out => exact Handle.Class.get_balanced key.value allowed room
  | rawGet self key out => exact Handle.Class.rawGet_balanced key.value allowed room
  | rawSet self key value => exact Handle.Class.rawSet_balanced key.value value.value allowed room
  | memberHandle self name => exact Handle.Class.memberHandle_balanced name allowed room
  | setInstanceUserDataSize self size =>
    exact Handle.Class.setInstanceUserDataSize_balanced allowed room

theorem ScriptOp.balanced (op : ScriptOp) (allowed : N → op.Allowed)
    (registered : H → (w₀ (op.toCall env).vm).errorSlot.isSome)
    (room : H → op.Room env (w₀ (op.toCall env).vm) st.length) :
    (op.toCall env).Balanced env H N w₀ st := by
  cases op with
  | compileStr sq src sourceName =>
    intro L
    refine Triple.pre (Triple.post (Squirrel.compileStr_at src sourceName registered
      fun h => (room h).2) fun _ _ compiled => compiled.2.later) ?_
    rintro _ ⟨rfl, at_⟩
    exact ⟨fun h => (room h).1, at_⟩
  | eval sq src out =>
    intro L
    refine Triple.pre (Squirrel.eval_at src registered fun h => (room h).2) ?_
    rintro _ ⟨rfl, at_⟩
    exact ⟨fun h => (room h).1, at_⟩
  | call self args out => exact .of (Handle.call_balanced self args.value allowed room)
  | callWith self this args out =>
    exact .of (Handle.callWith_balanced self this.value args.value allowed room fun _ => .inl rfl)
  | instantiate self args =>
    exact .of (Handle.Class.instantiate_balanced self args.value allowed room)
  | callMethod self key args out =>
    exact .of (Handle.Instance.callMethod_balanced self key.value args.value allowed room)

theorem ArrayOp.accounted (op : ArrayOp)
    (room : H → op.Room (w₀ (op.toCall env).vm) st.length) :
    (op.toCall env).Accounted env H w₀ st := by
  refine .of ?_
  cases op with
  | new sq size => exact (Handle.Array.new_balanced False.elim room).accounted
  | get self idx out => exact (Handle.Array.get_balanced idx room).accounted
  | set self idx value =>
    exact (Handle.Array.set_balanced idx value.value False.elim room).accounted
  | append self value => exact (Handle.Array.append_balanced value.value False.elim room).accounted
  | pop self out => exact (Handle.Array.pop_balanced room).accounted
  | len self => exact (Balanced.of_at fun _ => len_at room).accounted
  | insert self idx value => exact Handle.Array.insert_accounted idx value.value room
  | remove self idx => exact (Handle.Array.remove_balanced idx room).accounted
  | reverse self => exact (Handle.Array.reverse_balanced room).accounted
  | clear self => exact (Handle.Array.clear_balanced room).accounted
  | resize self newSize => exact (Handle.Array.resize_balanced newSize room).accounted
  | cloneValue self => exact (Handle.Array.cloneValue_balanced room).accounted
  | iter self => exact (Handle.Array.iter_balanced room).accounted
  | intoIter self => exact (Handle.Array.intoIter_balanced room).accounted
  | next items out =>
    exact fun _ => Triple.bind (Handle.Array.Items.next_at items room) fun _ =>
      Triple.pure fun _ later => ⟨st, later⟩

theorem InstanceOp.accounted (op : InstanceOp)
    (room : H → op.Room (w₀ (op.toCall env).vm) st.length) :
    (op.toCall env).Accounted env H w₀ st := by
  refine .of ?_
  cases op with
  | cls self => exact (Handle.Instance.cls_balanced room).accounted
  | instanceOf self c => exact (Handle.Instance.instanceOf_balanced c False.elim room).accounted
  | get self key out => exact (Handle.Instance.get_balanced key.value False.elim room).accounted
  | set self key value =>
    exact (Handle.Instance.set_balanced key.value value.value False.elim room).accounted
  | rawGet self key out =>
    exact (Handle.Instance.rawGet_balanced key.value False.elim room).accounted
  | rawSet self key value => exact Handle.Instance.rawSet_accounted key.value value.value room

theorem NativeOp.accounted (op : NativeOp)
    (room : H → op.Room (w₀ (op.toCall env).vm) st.length) :
    (op.toCall env).Accounted env H w₀ st := by
  refine .of ?_
  cases op with
  | call self args out => exact (Handle.call_balanced self args.value False.elim room).accounted
  | callWith self this args out =>
    exact (Handle.callWith_balanced self this.value args.value False.elim (fun h => (room h).1)
      fun h => .inr (room h).2).accounted

theorem SlotsOp.accounted (op : SlotsOp) (located : H → (w₀ (op.toCall env).vm).stack = st)
    (room : H → op.Room (w₀ (op.toCall env).vm) st.length) :
    (op.toCall env).Accounted env H w₀ st := by
  cases op with
  | iter self =>
    exact .of fun _ => Triple.post (Handle.Table.iter_at room) fun _ _ at_ => ⟨_, at_.2.later⟩
  | drop slots => exact .of slots.drop_accounted
  | next slots key val =>
    refine .of fun L => ?_
    by_cases h : H
    · obtain ⟨pos, r, rest, stack, valid, fits⟩ := room h
      have eq : st = pos :: .ref .table r :: rest := (located h).symm.trans stack
      subst eq
      exact Triple.post (slots.next_at (fun _ => valid) fun _ => fits)
        fun _ _ ⟨_, _, at_⟩ => ⟨_, at_.later⟩
    · -- no slots are promised, so any pair may stand for them
      have step : Triple (At env H H w₀ slots.sq [.null, .ref .table 0] L)
          (slots.next (κ := key.type) (ν := val.type) env) _ (Failed env H False w₀ slots.sq L) :=
        slots.next_at (fun h' => (h h').elim) fun h' => (h h').elim
      exact Triple.pre (Triple.post step fun _ _ ⟨_, _, at_⟩ => ⟨_, at_.later⟩)
        fun _ at_ => at_.any h _

theorem MachineOp.accounted (op : MachineOp)
    (room : H → op.Room (w₀ (op.toCall env).vm) st.length) :
    (op.toCall env).Accounted env H w₀ st := by
  refine .of ?_
  cases op with
  | rootTable sq => exact Balanced.accounted Squirrel.rootTable_balanced
  | newUserData sq typeId => exact (Handle.UserData.new_balanced typeId room).accounted
  | payload self typeId => exact (Handle.UserData.payload_balanced self typeId room).accounted
  | createFunction sq trampoline typeId =>
    exact (Squirrel.createFunction_balanced trampoline typeId room).accounted
  | newString sq bytes =>
    exact fun _ => Triple.post (newString_at bytes fun h => (room h).space [] (by simp))
      fun _ _ at_ => ⟨st, at_.2.later⟩
  | pushValue sq value =>
    exact fun _ => Triple.post (pushValue_at value (fun h => (room h).space [] (by simp))
      fun _ => False.elim) fun _ _ at_ => ⟨_, at_.later⟩

theorem HandleOp.accounted (op : HandleOp) (located : H → (w₀ (op.toCall env).vm).stack = st)
    (room : H → op.Room (w₀ (op.toCall env).vm) st.length) :
    (op.toCall env).Accounted env H w₀ st := by
  have space : ∀ {vm : VmId}, (H → Fits (w₀ vm) st.length 1) → H → Space (w₀ vm) st :=
    fun room h => (room h).space [] Nat.one_pos
  have slot : ∀ {vm : VmId} {idx : ℤ}, (H → (w₀ vm).stack = st) →
      (H → ∃ o, Slot (w₀ vm) (w₀ vm).stack idx o) → ∃ o, H → Slot (w₀ vm) st idx o := by
    intro vm idx located room
    by_cases h : H
    · obtain ⟨o, found⟩ := room h
      exact ⟨o, fun _ => located h ▸ found⟩
    · exact ⟨.null, fun h' => (h h').elim⟩
  refine .of fun L => ?_
  cases op with
  | clone o => exact Triple.post (clone_at rfl) fun _ _ ⟨eq, at_⟩ => ⟨st, eq ▸ at_.later⟩
  | drop o => exact Triple.post (drop_at o) fun _ _ at_ => ⟨st, at_.later⟩
  | objectFromStack sq idx =>
    obtain ⟨o, found⟩ := slot located room
    exact Triple.post (fromStack_at found) fun _ _ at_ => ⟨st, at_.2.later⟩
  | intoValue o =>
    exact Triple.post (intoValue_at rfl (space room)) fun _ _ at_ => ⟨st, at_.2.later⟩
  | fromStack sq idx out =>
    obtain ⟨o, found⟩ := slot located fun h => (room h).2
    exact Triple.post (LawfulFrom.read (space fun h => (room h).1) found)
      fun _ _ at_ => ⟨st, at_.later⟩
  | fromSquirrel sq value out =>
    exact Triple.post (LawfulFrom.convert value fun _ => False.elim) fun _ _ at_ => ⟨st, at_.later⟩
  | intoSquirrel sq value =>
    exact Triple.post (LawfulInto.into value.value (space room) fun _ => False.elim)
      fun _ _ at_ => ⟨st, at_.later⟩
  | pushIntoStack sq value =>
    exact Triple.post (LawfulInto.push value.value (space room) fun _ => False.elim)
      fun _ _ ⟨o, _, at_⟩ => ⟨o :: st, at_.later⟩
  | getRuntimeError sq =>
    exact Triple.post (getRuntimeError_at (space room)) fun _ _ at_ => ⟨st, at_.later⟩

/-- Every operation is accounted for, whatever its arguments are. -/
theorem Op.accounted (op : Op) (own : op.OwnDelegate)
    (located : H → (w₀ (op.toCall env).vm).stack = st)
    (registered : H → (w₀ (op.toCall env).vm).errorSlot.isSome)
    (room : H → op.Room env (w₀ (op.toCall env).vm) st.length) :
    (op.toCall env).Accounted env H w₀ st := by
  cases op with
  | table op => exact (op.balanced own False.elim room).accounted
  | cls op => exact (op.balanced False.elim room).accounted
  | array op => exact op.accounted room
  | inst op => exact op.accounted room
  | script op => exact (op.balanced False.elim registered room).accounted
  | native op => exact op.accounted room
  | slots op => exact op.accounted located room
  | machine op => exact op.accounted room
  | handle op => exact op.accounted located room

end Squirrels
