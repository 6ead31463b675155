import Squirrels.Binding.Contract

/-!
# Contracts of conversions

`LawfulInto` and `LawfulFrom` are what an operation relies on in its type parameters: pushing adds
one slot and reading leaves the stack alone, and both account for the handles they consume and
make. Every implementation of the crate is lawful.
-/

namespace Squirrels

open Machines

/-- The slot a value stands for. -/
def Value.slot : Value → SQObject
  | .null => .null
  | .integer n => .integer n
  | .float bits => .float bits
  | .bool b => .bool b
  | .string s => .string s.str
  | .userPointer p => .userPointer p
  | .handle t h => .ref t h.ref

/-- All handles of a value belong to the machine. -/
def Local {α : Type} [Owns α] (vm : VmId) (a : α) : Prop := ∀ o ∈ Owns.handles a, o.sq = vm

theorem Local.fst {α β : Type} [Owns α] [Owns β] {vm : VmId} {a : α} {b : β}
    (here : Local vm (a, b)) : Local vm a := fun o mem => here o (List.mem_append_left _ mem)

theorem Local.snd {α β : Type} [Owns α] [Owns β] {vm : VmId} {a : α} {b : β}
    (here : Local vm (a, b)) : Local vm b := fun o mem => here o (List.mem_append_right _ mem)

/-- Pushing a value of the type adds exactly one slot; `Shows` tells what the slot may hold. -/
class LawfulInto (α : Type) [Owns α] [IntoSquirrel α] where
  Shows : α → SQObject → Prop
  push : ∀ {env : Env} {G H N : Prop} {w₀ : World} {vm : VmId} {stack : List SQObject}
    {L : List Object} (a : α), (H → Space (w₀ vm) stack) → (H → N → Local vm a) →
    Triple (At env G H w₀ vm stack (Owns.handles a ++ L)) (IntoSquirrel.pushIntoStack env a vm)
      (fun _ w => ∃ o, (H → Shows a o) ∧ At env G H w₀ vm (o :: stack) L w) (Failed env G N w₀ vm L)
  into : ∀ {env : Env} {G H N : Prop} {w₀ : World} {vm : VmId} {stack : List SQObject}
    {L : List Object} (a : α), (H → Space (w₀ vm) stack) → (H → N → Local vm a) →
    Triple (At env G H w₀ vm stack (Owns.handles a ++ L)) (IntoSquirrel.intoSquirrel env a vm)
      (fun v => At env G H w₀ vm stack (Owns.handles v ++ L)) (Failed env G N w₀ vm L)

/-- Reading a value of the type leaves the stack as it was. -/
class LawfulFrom (α : Type) [Owns α] [FromSquirrel α] : Prop where
  read : ∀ {env : Env} {G H N : Prop} {w₀ : World} {vm : VmId} {stack : List SQObject}
    {L : List Object} {idx : ℤ} {o : SQObject}, (H → Space (w₀ vm) stack) →
    (H → Slot (w₀ vm) stack idx o) →
    Triple (At env G H w₀ vm stack L) (FromSquirrel.fromStack env idx vm)
      (fun (r : Except Error α) => At env G H w₀ vm stack (Owns.handles r ++ L))
      (Failed env G N w₀ vm L)
  convert : ∀ {env : Env} {G H N : Prop} {w₀ : World} {vm : VmId} {stack : List SQObject}
    {L : List Object} (v : Value), (H → N → Local vm v) →
    Triple (At env G H w₀ vm stack (Owns.handles v ++ L)) (FromSquirrel.fromSquirrel env v vm)
      (fun (r : Except Error α) => At env G H w₀ vm stack (Owns.handles r ++ L))
      (Failed env G N w₀ vm L)

section Convert

variable {env : Env} {G H N : Prop} {w₀ : World} {vm : VmId} {stack st : List SQObject}
  {L : List Object}

/-! ## Values -/

theorem fromObject_at {str : List UInt8} (space : H → Space (w₀ vm) stack) :
    Triple (At env G H w₀ vm stack (⟨vm, .string str⟩ :: L))
      (StringHandle.fromObject env ⟨vm, .string str⟩ str)
      (fun s w => s.object = ⟨vm, .string str⟩ ∧
        At env G H w₀ vm stack (⟨vm, .string str⟩ :: L) w) (Failed env G N w₀ vm L) := by
  refine Triple.bind (pushObject_at rfl space) fun _ => ?_
  refine Triple.bind (At.exits (Api.sqGetstringandsize_exits str fun s _ eq _ => ?_)) fun r =>
    Triple.exists_pre fun _ => Triple.of_pre fun read => ?_
  · exact (s.stackGet_neg 0).trans (by rw [SQVM.up, eq]; rfl)
  · cases r with
    | none =>
      refine Triple.bind (drop_at _) fun _ => At.panic fun h => ?_
      simpa using read h
    | some bytes =>
      refine Triple.bind (unwindDrop_at (pop_at 1 one_pos fun h => ?_)) fun _ =>
        Triple.pure fun _ at_ => ⟨rfl, at_⟩
      have := (space h).base
      simp
      omega

theorem intoValue_at {o : Object} (here : o.sq = vm) (space : H → Space (w₀ vm) stack) :
    Triple (At env G H w₀ vm stack (o :: L)) (o.intoValue env)
      (fun v w => Local vm v ∧ At env G H w₀ vm stack (Owns.handles v ++ L) w)
      (Failed env G N w₀ vm L) := by
  have scalar : ∀ v : Value, v.asObject = none →
      Triple (At env G H w₀ vm stack (o :: L)) (do o.drop; pure v)
        (fun v w => Local vm v ∧ At env G H w₀ vm stack (Owns.handles v ++ L) w)
        (Failed env G N w₀ vm L) := fun v none => by
    have handles : Owns.handles v = [] := by simp [Owns.handles, none]
    refine Triple.bind (drop_at o) fun _ => Triple.pure fun _ at_ => ⟨fun x mem => ?_, ?_⟩
    · simp [handles] at mem
    · rwa [handles]
  obtain ⟨sq, obj⟩ := o
  subst here
  unfold Object.intoValue
  cases obj with
  | string str =>
    refine Triple.bind (fromObject_at space) fun s => Triple.of_pre fun eq =>
      Triple.pure fun _ at_ => ⟨fun x mem => ?_, ?_⟩
    · simp only [Owns.handles, Value.asObject, eq, Option.toList_some, List.mem_singleton] at mem
      rw [mem]
    · simpa [Owns.handles, Value.asObject, eq] using at_
  | ref t r =>
    refine Triple.pure fun _ at_ => ⟨fun x mem => ?_, at_⟩
    obtain rfl := List.mem_singleton.1 mem
    rfl
  | null => exact scalar .null rfl
  | integer n => exact scalar (.integer n) rfl
  | float bits => exact scalar (.float bits) rfl
  | bool b => exact scalar (.bool b) rfl
  | userPointer p => exact scalar (.userPointer p) rfl

theorem assertSameVm_at {other : VmId} (same : H → N → vm = other) :
    Triple (At env G H w₀ vm stack L) (Squirrel.assertSameVm vm other)
      (fun _ w => vm = other ∧ At env G H w₀ vm stack L w) (Failed env G N w₀ vm L) :=
  At.check (by simp [typeAssertions]) same

theorem pushValue_at (v : Value) (space : H → Space (w₀ vm) stack) (same : H → N → Local vm v) :
    Triple (At env G H w₀ vm stack L) (Squirrel.pushValue vm v)
      (fun _ => At env G H w₀ vm (v.slot :: stack) L) (Failed env G N w₀ vm L) := by
  cases v with
  | null => exact push_at _ space
  | integer n => exact push_at _ space
  | float bits => exact push_at _ space
  | bool b => exact push_at _ space
  | userPointer p => exact push_at _ space
  | string s =>
    refine Triple.bind (assertSameVm_at fun h n => (same h n s.object (by simp [Owns.handles,
      Value.asObject])).symm) fun _ => Triple.of_pre fun eq => ?_
    exact pushObject_at eq.symm space
  | handle t h' =>
    refine Triple.bind (assertSameVm_at fun h n => (same h n h'.object (by simp [Owns.handles,
      Value.asObject])).symm) fun _ => Triple.of_pre fun eq => ?_
    exact pushObject_at eq.symm space

/-! ## Errors -/

theorem slot_top {s₀ : SQVM} {o : SQObject} (above : s₀.stackbase ≤ st.length) :
    Slot s₀ (o :: st) (-1) o :=
  slot_neg (n := 0) (by simp; omega)

theorem slot_second {s₀ : SQVM} {o o' : SQObject} (above : s₀.stackbase < (o' :: st).length) :
    Slot s₀ (o :: o' :: st) (-2) o' :=
  slot_neg (n := 1) (by simp at above ⊢; omega)

theorem getRuntimeError_at (space : H → Space (w₀ vm) stack) :
    Triple (At env G H w₀ vm stack L) (CallError.getRuntimeError env vm)
      (fun e => At env G H w₀ vm stack (Owns.handles e ++ L)) (Failed env G N w₀ vm L) := by
  refine Triple.bind (Q := fun _ w => ∃ o, At env G H w₀ vm (o :: stack) L w) ?_ fun _ =>
    Triple.exists_pre fun o => ?_
  · intro w at_
    exact ⟨_, at_.machine (Api.push_on (fun h => (space h).free) (w vm).lasterror _ at_.on)⟩
  refine Triple.bind (fromStack_at fun h => slot_top (space h).base) fun err =>
    Triple.of_pre fun ⟨here, _⟩ => ?_
  refine Triple.bind (unwindDrop_at (pop_at 1 one_pos fun h => ?_)) fun _ => ?_
  · have := (space h).base
    simp
    omega
  exact Triple.bind (intoValue_at here space) fun v => Triple.pure fun _ at_ => at_.2

/-- `args_to_pop` is the number of slots that the operation has above the stack it started on. -/
theorem afterPop_at (n : ℕ) (above : List SQObject) (length : H → above.length = n)
    (space : H → Space (w₀ vm) st) :
    Triple (At env G H w₀ vm (above ++ st) L) (CallError.afterPop env vm n)
      (fun e => At env G H w₀ vm st (Owns.handles e ++ L)) (Failed env G N w₀ vm L) := by
  unfold CallError.afterPop
  simp only
  split
  · refine Triple.bind (Q := fun _ => At env G H w₀ vm st L) ?_ fun _ => getRuntimeError_at space
    refine Triple.post (pop_at n (by omega) fun h => ?_) fun _ w at_ => ?_
    · have := (space h).base
      rw [List.length_append, length h]
      omega
    · by_cases h : H
      · rwa [← length h, List.drop_left] at at_
      · exact at_.any h st
  · refine Triple.pre (getRuntimeError_at space) fun w at_ => ?_
    by_cases h : H
    · have none : above = [] := List.eq_nil_of_length_eq_zero (by have := length h; omega)
      rwa [none] at at_
    · exact at_.any h st

theorem toRuntimeError_at (r : SQRESULT) (n : ℕ) {k : List SQObject} (above : List SQObject)
    (length : H → above.length = n) (space : H → Space (w₀ vm) st) :
    Triple (At env G H w₀ vm (match r with | .ok => k | .error => above ++ st) L)
      (r.toRuntimeError env vm n)
      (fun e w => match e with
        | .ok () => r = .ok ∧ At env G H w₀ vm k L w
        | .error e => At env G H w₀ vm st (Owns.handles e ++ L) w)
      (Failed env G N w₀ vm L) := by
  cases r with
  | ok => exact Triple.pure fun _ at_ => ⟨rfl, at_⟩
  | error =>
    exact Triple.bind (afterPop_at n above length space) fun e => Triple.pure fun _ at_ => at_

/-- The same with slots that the operation did not expect; a pop of too many panics. -/
theorem toRuntimeError_any (r : SQRESULT) (n : ℕ) (positive : 0 < n) {k : List SQObject}
    (left : List SQObject) (size : H → left.length ≤ (w₀ vm).stackSize) :
    Triple (At env G H w₀ vm (match r with | .ok => k | .error => left) L)
      (r.toRuntimeError env vm n)
      (fun e w => match e with
        | .ok () => r = .ok ∧ At env G H w₀ vm k L w
        | .error e => ∃ stack, At env G H w₀ vm stack (Owns.handles e ++ L) w)
      (Failed env G False w₀ vm L) := by
  cases r with
  | ok => exact Triple.pure fun _ at_ => ⟨rfl, at_⟩
  | error =>
    refine Triple.bind (Q := fun e => At env G H w₀ vm (left.drop n) (Owns.handles e ++ L)) ?_
      fun e => Triple.pure fun _ at_ => ⟨_, at_⟩
    unfold CallError.afterPop
    simp only
    rw [if_pos (by omega)]
    refine Triple.bind (tryPop_at n positive fun _ => False.elim) fun _ =>
      Triple.of_pre fun enough => getRuntimeError_at fun h => ?_
    have := size h
    have := enough h
    constructor <;> rw [List.length_drop] <;> omega

end Convert

/-- What an operation without a result does with the answer of the machine. -/
def SQRESULT.finishUpdate (env : Env) (sq : VmId) (popped : ℕ) (ret : SQRESULT) :
    Act World (Except CallError Unit) := do
  match ← ret.toRuntimeError env sq popped with
  | .error e => pure (.error e)
  | .ok () =>
    Squirrel.pop sq 1
    pure (.ok ())

/-! ## Pushing -/

/-- A scalar is pushed by one C function and owns nothing. -/
theorem pushScalar_at {env : Env} {G H N : Prop} {w₀ : World} {vm : VmId} {stack : List SQObject}
    {L : List Object} (o : SQObject) (space : H → Space (w₀ vm) stack) :
    Triple (At env G H w₀ vm stack ([] ++ L)) ((Api.push o).on vm)
      (fun _ w => ∃ x, (H → x = o) ∧ At env G H w₀ vm (x :: stack) L w) (Failed env G N w₀ vm L) :=
  Triple.post (push_at o space) fun _ _ at_ => ⟨o, fun _ => rfl, at_⟩

instance : LawfulInto Unit where
  Shows _ o := o = .null
  push _ space _ := pushScalar_at .null space
  into _ _ _ := Triple.pure fun _ at_ => at_

instance : LawfulInto ℤ where
  Shows n o := o = .integer n
  push n space _ := pushScalar_at (.integer n) space
  into _ _ _ := Triple.pure fun _ at_ => at_

instance : LawfulInto (BitVec 32) where
  Shows bits o := o = .float bits
  push bits space _ := pushScalar_at (.float bits) space
  into _ _ _ := Triple.pure fun _ at_ => at_

instance : LawfulInto Bool where
  Shows b o := o = .bool b
  push b space _ := pushScalar_at (.bool b) space
  into _ _ _ := Triple.pure fun _ at_ => at_

instance : LawfulInto UserPointer where
  Shows p o := o = .userPointer p.ptr
  push p space _ := pushScalar_at (.userPointer p.ptr) space
  into _ _ _ := Triple.pure fun _ at_ => at_

/-- A check of the machine that drops the value when it fails. -/
theorem ensureOwned_at {env : Env} {G H N : Prop} {w₀ : World} {vm : VmId} {stack : List SQObject}
    {L : List Object} {α : Type} [Owns α] (a : α) {sq other : VmId} (holds : H → N → sq = other) :
    Triple (At env G H w₀ vm stack (Owns.handles a ++ L))
      ((Squirrel.assertSameVm sq other).onUnwind (dropValue a))
      (fun _ w => sq = other ∧ At env G H w₀ vm stack (Owns.handles a ++ L) w)
      (Failed env G N w₀ vm L) :=
  unwindValue_at (At.check (by simp [typeAssertions]) holds)

/-- A handle of the machine is pushed and then dropped. -/
theorem pushHandle_at {env : Env} {G H N : Prop} {w₀ : World} {vm : VmId} {stack : List SQObject}
    {L : List Object} (o : Object) (space : H → Space (w₀ vm) stack) (same : H → N → o.sq = vm) :
    Triple (At env G H w₀ vm stack ([o] ++ L))
      (do
        (Squirrel.assertSameVm o.sq vm).onUnwind (dropAll [o])
        o.pushIntoStack
        dropAll [o])
      (fun _ w => ∃ x, (H → x = o.obj) ∧ At env G H w₀ vm (x :: stack) L w)
      (Failed env G N w₀ vm L) := by
  refine Triple.bind (unwind_at (At.check (by simp [typeAssertions]) same)
    fun _ _ => dropAll_at [o]) fun _ =>
    Triple.of_pre fun here => ?_
  refine Triple.bind (pushObject_at here space) fun _ => ?_
  exact Triple.post (dropAll_at [o]) fun _ _ at_ => ⟨o.obj, fun _ => rfl, at_⟩

instance {t : RefType} : LawfulInto (Handle t) where
  Shows h o := o = h.obj
  push h space same :=
    pushHandle_at h.object space fun hH n => same hH n h.object (List.mem_singleton.2 rfl)
  into h _ same := Triple.bind
    (ensureOwned_at h fun hH n => same hH n h.object (List.mem_singleton.2 rfl)) fun _ =>
      Triple.pure fun _ at_ => at_.2

instance : LawfulInto StringHandle where
  Shows s o := o = .string s.str
  push s space same :=
    pushHandle_at s.object space fun hH n => same hH n s.object (List.mem_singleton.2 rfl)
  into s _ same := Triple.bind
    (ensureOwned_at s fun hH n => same hH n s.object (List.mem_singleton.2 rfl)) fun _ =>
      Triple.pure fun _ at_ => at_.2

/-- A value is pushed and then dropped. -/
theorem pushOwned_at {env : Env} {G H N : Prop} {w₀ : World} {vm : VmId} {stack : List SQObject}
    {L : List Object} (v : Value) (space : H → Space (w₀ vm) stack) (same : H → N → Local vm v) :
    Triple (At env G H w₀ vm stack (Owns.handles v ++ L))
      (do
        (Squirrel.pushValue vm v).onUnwind (dropValue v)
        dropValue v)
      (fun _ w => ∃ o, (H → o = v.slot) ∧ At env G H w₀ vm (o :: stack) L w)
      (Failed env G N w₀ vm L) := by
  refine Triple.bind (unwindValue_at (pushValue_at v space same)) fun _ => ?_
  exact Triple.post (dropValue_at v) fun _ _ at_ => ⟨v.slot, fun _ => rfl, at_⟩

/-- A value that belongs to the machine is kept, another one is dropped. -/
theorem keepOwned_at {env : Env} {G H N : Prop} {w₀ : World} {vm : VmId} {stack : List SQObject}
    {L : List Object} (v : Value) (same : H → N → Local vm v) :
    Triple (At env G H w₀ vm stack (Owns.handles v ++ L))
      ((v.assertSameVm vm).onUnwind (dropValue v))
      (fun _ => At env G H w₀ vm stack (Owns.handles v ++ L)) (Failed env G N w₀ vm L) := by
  unfold Value.assertSameVm
  cases object : v.asObject with
  | none => exact unwindValue_at (Triple.pure fun _ at_ => at_)
  | some obj =>
    refine Triple.post (ensureOwned_at v fun h n => ?_) fun _ _ at_ => at_.2
    exact same h n obj (by simp [Owns.handles, object])

instance : LawfulInto Value where
  Shows v o := o = v.slot
  push v space same := pushOwned_at v space same
  into v _ same := Triple.bind (keepOwned_at v same) fun _ => Triple.pure fun _ at_ => at_

instance {α : Type} [Owns α] [IntoSquirrel α] [LawfulInto α] : LawfulInto (Option α) where
  Shows
    | none => fun o => o = .null
    | some a => LawfulInto.Shows a
  push x space same := by
    cases x with
    | none => exact pushScalar_at .null space
    | some a => exact LawfulInto.push a space same
  into x space same := by
    cases x with
    | none => exact Triple.pure fun _ at_ => at_
    | some a => exact LawfulInto.into a space same

/-! ## Reading -/

section Read

variable {env : Env} {G H N : Prop} {w₀ : World} {vm : VmId} {stack st : List SQObject}
  {L : List Object} {idx : ℤ} {o : SQObject}

/-- A scalar is read by one C function that leaves the machine alone. -/
theorem readScalar_at {α : Type} [Owns α] (scalar : ∀ a : α, Owns.handles a = [])
    (expected : String) {read : Act SQVM (Option α)} (slot : H → Slot (w₀ vm) stack idx o)
    (keeps : ∀ refs, Keeps (On env G H (w₀ vm) refs stack) (Stopped G (w₀ vm) refs) read) :
    Triple (At env G H w₀ vm stack L) (scalarFromStack expected idx vm read)
      (fun (r : Except Error α) => At env G H w₀ vm stack (Owns.handles r ++ L))
      (Failed env G N w₀ vm L) := by
  refine Triple.bind (assertValidIdx_at slot) fun _ => ?_
  refine Triple.bind (At.step keeps) fun r => ?_
  cases r with
  | none => exact Triple.pure fun _ at_ => at_
  | some a =>
    refine Triple.pure fun _ at_ => ?_
    change At env G H w₀ vm stack (Owns.handles a ++ L) _
    rw [scalar]
    exact at_

/-- A scalar is taken out of a value, which is dropped. -/
theorem convertScalar_at {α : Type} [Owns α] (scalar : ∀ a : α, Owns.handles a = [])
    (expected : String) (select : Value → Option α) (v : Value) :
    Triple (At env G H w₀ vm stack (Owns.handles v ++ L)) (scalarFromSquirrel expected select v)
      (fun (r : Except Error α) => At env G H w₀ vm stack (Owns.handles r ++ L))
      (Failed env G N w₀ vm L) := by
  refine Triple.bind (dropValue_at v) fun _ => Triple.pure fun _ at_ => ?_
  cases select v with
  | none => exact at_
  | some a =>
    change At env G H w₀ vm stack (Owns.handles a ++ L) _
    rw [scalar]
    exact at_

instance : LawfulFrom Unit where
  convert v _ := convertScalar_at (fun _ => rfl) _ _ v
  read space slot := by
    refine Triple.bind (fromStack_at slot) fun obj => Triple.of_pre fun _ => ?_
    refine Triple.bind (drop_at obj) fun _ => Triple.pure fun _ at_ => ?_
    split <;> exact at_

instance : LawfulFrom ℤ where
  convert v _ := convertScalar_at (fun _ => rfl) _ _ v
  read _ slot := readScalar_at (fun _ => rfl) _ slot fun _ => Api.sqGetinteger_keeps _

instance : LawfulFrom (BitVec 32) where
  convert v _ := convertScalar_at (fun _ => rfl) _ _ v
  read _ slot := readScalar_at (fun _ => rfl) _ slot fun _ => Api.sqGetfloat_keeps _

instance : LawfulFrom Bool where
  convert v _ := convertScalar_at (fun _ => rfl) _ _ v
  read _ slot := readScalar_at (fun _ => rfl) _ slot fun _ => Api.sqGetbool_keeps _

instance : LawfulFrom UserPointer where
  convert v _ := convertScalar_at (fun _ => rfl) _ _ v
  read _ slot := readScalar_at (fun _ => rfl) _ slot fun _ =>
    Keeps.bind (Api.sqGetuserpointer_keeps _) fun _ => .pure _

theorem Object.ofType_object {t : RefType} {x : Object} {h : Handle t} (eq : x.ofType t = some h) :
    x = h.object := by
  obtain ⟨sq, obj⟩ := x
  unfold Object.ofType at eq
  split at eq
  · rename_i t' r obj_eq
    simp only at obj_eq
    subst obj_eq
    split at eq
    · rename_i same
      subst same
      obtain rfl := Option.some.inj eq
      rfl
    · simp at eq
  · simp at eq

/-- Reading a handle succeeds exactly on objects of its type. -/
theorem readHandle_at {t : RefType} (slot : H → Slot (w₀ vm) stack idx o) :
    Triple (At env G H w₀ vm stack L) (FromSquirrel.fromStack env idx vm)
      (fun (r : Except Error (Handle t)) w =>
        ((∀ ref, H → o = .ref t ref → r = .ok ⟨vm, ref⟩) ∧ ∀ a, r = .ok a → a.sq = vm) ∧
        At env G H w₀ vm stack (Owns.handles r ++ L) w)
      (Failed env G N w₀ vm L) := by
  refine Triple.bind (fromStack_at slot) fun x => Triple.of_pre fun ⟨here, found⟩ => ?_
  cases typed : x.ofType t with
  | some h =>
    simp only
    have eq := Object.ofType_object typed
    rw [eq] at here found ⊢
    refine Triple.pure fun _ at_ => ⟨⟨fun ref hH isRef => ?_, fun a same => ?_⟩, at_⟩
    · have obj : SQObject.ref t h.ref = .ref t ref := (found hH).trans isRef
      injection obj with _ same
      obtain ⟨sq, r⟩ := h
      simp only at same
      subst same
      exact congrArg Except.ok (congrArg (fun v => (⟨v, r⟩ : Handle t)) here)
    · obtain rfl := Except.ok.inj same
      exact here
  | none =>
    simp only
    refine Triple.bind (drop_at x) fun _ => Triple.pure fun _ at_ =>
      ⟨⟨fun ref hH isRef => ?_, fun _ absurd => by simp at absurd⟩, at_⟩
    have obj : x.obj = .ref t ref := (found hH).trans isRef
    simp [Object.ofType, obj] at typed

theorem Value.ofType_handle {t : RefType} {v : Value} {h : Handle t} (eq : v.ofType t = some h) :
    v = .handle t h := by
  unfold Value.ofType at eq
  split at eq
  · split at eq
    · rename_i same
      subst same
      obtain rfl := Option.some.inj eq
      rfl
    · simp at eq
  · simp at eq

instance {t : RefType} : LawfulFrom (Handle t) where
  convert v same := by
    simp only [FromSquirrel.fromSquirrel]
    cases typed : v.ofType t with
    | none => exact Triple.bind (dropValue_at v) fun _ => Triple.pure fun _ at_ => at_
    | some h =>
      obtain rfl := Value.ofType_handle typed
      refine Triple.bind (ensureOwned_at h fun hH n => ?_) fun _ => Triple.pure fun _ at_ => at_.2
      exact same hH n h.object (List.mem_singleton.2 rfl)
  read _ slot := Triple.post (readHandle_at slot) fun _ _ at_ => at_.2

/-- Reading a string succeeds exactly on strings. -/
theorem readString_at (slot : H → Slot (w₀ vm) stack idx o) :
    Triple (At env G H w₀ vm stack L) (FromSquirrel.fromStack env idx vm)
      (fun (r : Except Error StringHandle) w =>
        (∀ str, H → o = .string str → r = .ok ⟨vm, str, str⟩) ∧
        At env G H w₀ vm stack (Owns.handles r ++ L) w)
      (Failed env G N w₀ vm L) := by
  refine Triple.bind (fromStack_at slot) fun x => Triple.of_pre fun ⟨here, found⟩ => ?_
  obtain ⟨sq, obj⟩ := x
  simp only at here found
  subst here
  cases obj with
  | string str =>
    simp only
    refine Triple.bind (At.exits (Api.sqGetstringandsize_exits str fun s hH stack base => ?_))
      fun r => Triple.exists_pre fun _ => Triple.of_pre fun read => ?_
    · exact ((slot hH).found s stack base).trans (found hH).symm
    cases r with
    | none =>
      refine Triple.bind (drop_at _) fun _ => At.panic fun h => ?_
      simpa using read h
    | some bytes =>
      refine Triple.pure fun _ at_ => ⟨fun str' hH isString => ?_, at_⟩
      have same : str = str' := by
        have := (found hH).trans isString
        injection this
      have chars : bytes = str := by simpa using read hH
      rw [chars, same]
  | null =>
    exact Triple.bind (drop_at _) fun _ => Triple.pure fun _ at_ =>
      ⟨fun str' hH isString => by have := (found hH).trans isString; simp at this, at_⟩
  | integer n =>
    exact Triple.bind (drop_at _) fun _ => Triple.pure fun _ at_ =>
      ⟨fun str' hH isString => by have := (found hH).trans isString; simp at this, at_⟩
  | float bits =>
    exact Triple.bind (drop_at _) fun _ => Triple.pure fun _ at_ =>
      ⟨fun str' hH isString => by have := (found hH).trans isString; simp at this, at_⟩
  | bool b =>
    exact Triple.bind (drop_at _) fun _ => Triple.pure fun _ at_ =>
      ⟨fun str' hH isString => by have := (found hH).trans isString; simp at this, at_⟩
  | userPointer p =>
    exact Triple.bind (drop_at _) fun _ => Triple.pure fun _ at_ =>
      ⟨fun str' hH isString => by have := (found hH).trans isString; simp at this, at_⟩
  | ref t r =>
    exact Triple.bind (drop_at _) fun _ => Triple.pure fun _ at_ =>
      ⟨fun str' hH isString => by have := (found hH).trans isString; simp at this, at_⟩

instance : LawfulFrom StringHandle where
  convert v same := by
    cases v with
    | string s =>
      refine Triple.bind (ensureOwned_at s fun hH n => ?_) fun _ => Triple.pure fun _ at_ => at_.2
      exact same hH n s.object (List.mem_singleton.2 rfl)
    | _ => exact Triple.bind (dropValue_at _) fun _ => Triple.pure fun _ at_ => at_
  read _ slot := Triple.post (readString_at slot) fun _ _ at_ => at_.2

instance : LawfulFrom Value where
  convert v same := Triple.bind (keepOwned_at v same) fun _ => Triple.pure fun _ at_ => at_
  read space slot := by
    refine Triple.bind (fromStack_at slot) fun x => Triple.of_pre fun ⟨here, _⟩ => ?_
    exact Triple.bind (intoValue_at here space) fun v => Triple.pure fun _ at_ => at_.2

theorem handles_map_some {α : Type} [Owns α] (r : Except Error α) :
    Owns.handles (r.map some) = Owns.handles r := by
  cases r <;> rfl

/-- Reading an option reads the object twice and drops the first handle. -/
theorem readOption_at {α : Type} [Owns α] [FromSquirrel α]
    {P : Except Error α → Prop} (slot : H → Slot (w₀ vm) stack idx o)
    (inner : ∀ L, Triple (At env G H w₀ vm stack L) (FromSquirrel.fromStack env idx vm)
      (fun (r : Except Error α) w => P r ∧ At env G H w₀ vm stack (Owns.handles r ++ L) w)
      (Failed env G N w₀ vm L)) :
    Triple (At env G H w₀ vm stack L) (FromSquirrel.fromStack env idx vm)
      (fun (r : Except Error (Option α)) w =>
        ((r = .ok none ∧ (H → o = .null)) ∨ ∃ r', P r' ∧ r = r'.map some ∧ (H → o ≠ .null)) ∧
        At env G H w₀ vm stack (Owns.handles r ++ L) w)
      (Failed env G N w₀ vm L) := by
  refine Triple.bind (fromStack_at slot) fun x => Triple.of_pre fun ⟨_, found⟩ => ?_
  split
  · rename_i null
    refine Triple.bind (drop_at x) fun _ => Triple.pure fun _ at_ => ⟨.inl ⟨rfl, fun h => ?_⟩, at_⟩
    rw [← found h, null]
  · rename_i other
    refine Triple.bind (unwindDrop_at (inner (x :: L))) fun r => Triple.of_pre fun good => ?_
    refine Triple.bind (Triple.pre (drop_at x) fun _ at_ => at_.perm List.perm_middle) fun _ =>
      Triple.pure fun _ at_ => ⟨.inr ⟨r, good, rfl, fun h null => other ?_⟩, ?_⟩
    · rw [found h, null]
    · rw [handles_map_some]
      exact at_

instance {α : Type} [Owns α] [FromSquirrel α] [LawfulFrom α] : LawfulFrom (Option α) where
  convert v same := by
    have inner : ∀ {env : Env} {G H N : Prop} {w₀ : World} {vm : VmId} {stack : List SQObject}
        {L : List Object} (v : Value), (H → N → Local vm v) →
        Triple (At env G H w₀ vm stack (Owns.handles v ++ L))
          (do
            let r : Except Error α ← FromSquirrel.fromSquirrel env v vm
            pure (r.map some))
          (fun (r : Except Error (Option α)) => At env G H w₀ vm stack (Owns.handles r ++ L))
          (Failed env G N w₀ vm L) := fun v same =>
      Triple.bind (LawfulFrom.convert v same) fun r => Triple.pure fun _ at_ => by
        rw [handles_map_some]
        exact at_
    cases v with
    | null => exact Triple.pure fun _ at_ => at_
    | _ => exact inner _ same
  read space slot := by
    refine Triple.post (readOption_at (P := fun _ => True) slot fun L => ?_) fun _ _ at_ => at_.2
    exact Triple.post (LawfulFrom.read space slot) fun _ _ at_ => ⟨trivial, at_⟩

/-! ## Strings from bytes -/

theorem newString_at (bytes : List UInt8) (space : H → Space (w₀ vm) stack) :
    Triple (At env G H w₀ vm stack L) (StringHandle.new env vm bytes)
      (fun s w => (H → s = ⟨vm, bytes, bytes⟩) ∧ At env G H w₀ vm stack (Owns.handles s ++ L) w)
      (Failed env G N w₀ vm L) := by
  refine Triple.bind (push_at (.string bytes) space) fun _ => ?_
  refine Triple.bind (readString_at fun h => slot_top (space h).base) fun r =>
    Triple.of_pre fun read => ?_
  refine Triple.bind (unwindValue_at (pop_at 1 one_pos fun h => ?_)) fun _ => ?_
  · have := (space h).base
    simp
    omega
  cases r with
  | error e =>
    refine At.panic fun h => ?_
    simpa using read bytes h rfl
  | ok s =>
    refine Triple.pure fun _ at_ => ⟨fun h => ?_, at_⟩
    simpa using read bytes h rfl

theorem pushBytes_at (b : Bytes) (space : H → Space (w₀ vm) stack) :
    Triple (At env G H w₀ vm stack (Owns.handles b ++ L)) (IntoSquirrel.pushIntoStack env b vm)
      (fun _ w => ∃ o, (H → o = .string b.bytes) ∧ At env G H w₀ vm (o :: stack) L w)
      (Failed env G N w₀ vm L) := by
  refine Triple.bind (Q := fun v w => (H → Local vm v ∧ v.slot = .string b.bytes) ∧
    At env G H w₀ vm stack (Owns.handles v ++ L) w) ?_ fun v => Triple.of_pre fun made => ?_
  · refine Triple.bind (newString_at b.bytes space) fun s => Triple.of_pre fun eq =>
      Triple.pure fun _ at_ => ⟨fun h => ⟨fun o mem => ?_, ?_⟩, at_⟩
    · rw [eq h] at mem
      obtain rfl := List.mem_singleton.1 mem
      rfl
    · rw [eq h]
      rfl
  · exact Triple.post (pushOwned_at v space fun h _ => (made h).1) fun _ _ ⟨o, eq, at_⟩ =>
      ⟨o, fun h => (eq h).trans (made h).2, at_⟩

instance : LawfulInto Bytes where
  Shows b o := o = .string b.bytes
  push b space _ := pushBytes_at b space
  into b space _ := Triple.bind (newString_at b.bytes space) fun _ =>
    Triple.pure fun _ at_ => at_.2

end Read

end Squirrels
