import Squirrels.Binding.Convert
import Squirrels.Binding.Session
import Squirrels.Vm.Exact

/-!
# What the binding computes

`Yields m s a s'` says of a program of the binding what `Computes` says of a C function: it returns
`a` and takes the machine from `s` to `s'`, and it takes the live handles from one list to another.
A program that yields a result does not panic.
-/

namespace Squirrels

open Machines

/-- The index names a slot of the current frame. -/
def SQVM.ValidIdx (s : SQVM) (idx : ℤ) : Prop :=
  idx ≠ 0 ∧ if 0 < idx then idx ≤ (s.top : ℤ) - s.stackbase
    else -((s.top : ℤ) - s.stackbase) ≤ idx

/-- The last slot is always there to be read when the frame is not empty. -/
theorem SQVM.validIdx_top {s : SQVM} (enough : s.stackbase < s.top) : s.ValidIdx (-1) := by
  refine ⟨by decide, ?_⟩
  rw [if_neg (by decide)]
  omega

/-- The value that `Object::into_value` makes of an object. -/
def SQObject.toValue (vm : VmId) : SQObject → Value
  | .null => .null
  | .integer n => .integer n
  | .float bits => .float bits
  | .bool b => .bool b
  | .userPointer p => .userPointer p
  | .string bytes => .string ⟨vm, bytes, bytes⟩
  | .ref t r => .handle t ⟨vm, r⟩

@[simp] theorem SQObject.slot_toValue (vm : VmId) (o : SQObject) : (o.toValue vm).slot = o := by
  cases o <;> rfl

/-- The machines in the middle of an operation on `vm` whose machine is `s`. -/
structure Exactly (w₀ : World) (vm : VmId) (s : SQVM) (L : List Object) (w : World) : Prop where
  machine : w vm = { s with refs := (w vm).refs, overflowed := (w vm).overflowed }
  owned : Owned L w
  others : ∀ j, j ≠ vm → Apart (w₀ j) (w j)

/-- The program returns `a`, the machine is then `s'` and the live handles are `L'`. -/
def Yields (w₀ : World) (vm : VmId) (s : SQVM) (L : List Object) {α : Type} (m : Act World α)
    (a : α) (s' : SQVM) (L' : List Object) : Prop :=
  Triple (Exactly w₀ vm s L) m (fun r w => r = a ∧ Exactly w₀ vm s' L' w) Never

section Yields

variable {w₀ w : World} {vm : VmId} {s s₁ s₂ : SQVM} {L L₁ L₂ : List Object} {α β : Type}
  {m : Act World α} {a : α} {b : β}

/-- An operation starts with the machine as it is. -/
theorem Exactly.start (owned : Owned L w) (vm : VmId) : Exactly w vm (w vm) L w :=
  ⟨rfl, owned, fun j _ => .refl (w j)⟩

theorem Exactly.perm (exact_ : Exactly w₀ vm s L w) (perm : L.Perm L₁) : Exactly w₀ vm s L₁ w :=
  ⟨exact_.machine, exact_.owned.perm perm, exact_.others⟩

theorem Exactly.withRefs (exact_ : Exactly w₀ vm s L w) (sq : VmId) {t : SQVM}
    (same : t = { w sq with refs := t.refs }) (fewer : sq ≠ vm → ∀ o, t.refs o ≤ (w sq).refs o)
    (owned : Owned L₁ (Function.update w sq t)) :
    Exactly w₀ vm s L₁ (Function.update w sq t) := by
  refine ⟨?_, owned, fun j other => ?_⟩
  · by_cases here : vm = sq
    · subst here
      rw [Function.update_self, same, exact_.machine]
    · rw [Function.update_of_ne here]
      exact exact_.machine
  · by_cases here : j = sq
    · subst here
      have apart := exact_.others j other
      rw [Function.update_self]
      refine ⟨?_, fun o => (fewer other o).trans (apart.refs o)⟩
      conv_lhs => rw [same, apart.same]
    · rw [Function.update_of_ne here]
      exact exact_.others j other

namespace Yields

theorem pure (a : α) : Yields w₀ vm s L (pure a) a s L := Triple.pure fun _ h => ⟨rfl, h⟩

theorem bind {f : α → Act World β} (first : Yields w₀ vm s L m a s₁ L₁)
    (rest : Yields w₀ vm s₁ L₁ (f a) b s₂ L₂) : Yields w₀ vm s L (m >>= f) b s₂ L₂ := by
  apply Triple.bind first
  intro r
  apply Triple.of_pre
  intro eq
  rw [eq]
  exact rest

/-- Nothing is unwound. -/
theorem onUnwind {cleanup : Act World Unit} (body : Yields w₀ vm s L m a s₁ L₁) :
    Yields w₀ vm s L (m.onUnwind cleanup) a s₁ L₁ := by
  intro w start
  obtain ⟨r, w', ran, post⟩ := body.returns start
  rw [Act.run_onUnwind_of_ok ran]
  exact post

theorem perm (body : Yields w₀ vm s L m a s₁ L₁) (before : L₂.Perm L) :
    Yields w₀ vm s L₂ m a s₁ L₁ := Triple.pre body fun _ start => start.perm before

theorem permPost (body : Yields w₀ vm s L m a s₁ L₁) (after : L₁.Perm L₂) :
    Yields w₀ vm s L m a s₁ L₂ := Triple.post body fun _ _ done => ⟨done.1, done.2.perm after⟩

/-- A C function inside the binding. -/
theorem machine {m : Act SQVM α} (computes : Computes m s a s₁) (root : s₁.root = s.root) :
    Yields w₀ vm s L (m.on vm) a s₁ L := by
  intro w start
  obtain ⟨flag, ran⟩ := computes (w vm).refs (w vm).overflowed
  rw [← start.machine] at ran
  rw [Act.run_on, ran]
  refine ⟨rfl, ?_, ?_, fun j other => ?_⟩
  · rw [Function.update_self]
  · apply start.owned.update
    · rfl
    · rw [start.machine]
      exact root
  · rw [Function.update_of_ne other]
    exact start.others j other

theorem ensure {c : Prop} [Decidable c] {message : String} (holds : c) :
    Yields w₀ vm s L (Act.ensure c message) () s L := by
  intro w start
  rw [Act.run_ensure_of_pos holds]
  exact ⟨rfl, start⟩

theorem addref (o : SQObject) : Yields w₀ vm s L ((Api.sqAddref o).on vm) () s (⟨vm, o⟩ :: L) := by
  intro w start
  obtain ⟨t, ran, same, owned⟩ := addref_run start.owned ⟨vm, o⟩
  rw [ran]
  exact ⟨rfl, start.withRefs vm same (fun other => (other rfl).elim) owned⟩

theorem drop (o : Object) : Yields w₀ vm s (o :: L) o.drop () s L := by
  intro w start
  obtain ⟨t, ran, same, fewer, owned⟩ := release_run start.owned
  rw [ran]
  exact ⟨rfl, start.withRefs o.sq same (fun _ => fewer) owned⟩

theorem dropAll (hs : List Object) : Yields w₀ vm s (hs ++ L) (dropAll hs) () s L := by
  induction hs with
  | nil => exact pure ()
  | cons o hs ih => exact bind (drop o) ih

theorem dropValue [Owns α] (a : α) :
    Yields w₀ vm s (Owns.handles a ++ L) (dropValue a) () s L := dropAll _

/-! ## The stack -/

theorem push (o : SQObject) : Yields w₀ vm s L ((Api.push o).on vm) () (s.push o) L :=
  machine (Api.push_computes o s) rfl

theorem stackDepth : Yields w₀ vm s L (Squirrel.stackDepth vm) (s.top - s.stackbase) s L :=
  machine (Api.sqGettop_computes s) rfl

theorem pop {n : ℕ} (positive : 0 < n) (enough : s.stackbase + n ≤ s.top) :
    Yields w₀ vm s L (Squirrel.pop vm n) () (s.pop n) L := by
  apply bind stackDepth
  apply bind (ensure (by omega))
  apply bind (ensure (by omega))
  rw [Int.toNat_natCast]
  exact machine (Api.sqPop_computes (by omega)) rfl

/-! ## Objects and values -/

theorem assertValidIdx {idx : ℤ} (valid : s.ValidIdx idx) :
    Yields w₀ vm s L (Squirrel.assertValidIdx vm idx) () s L :=
  bind stackDepth (ensure valid)

theorem fromStack {idx : ℤ} (valid : s.ValidIdx idx) :
    Yields w₀ vm s L (Object.fromStack idx vm) ⟨vm, s.stackGet idx⟩ s
      (⟨vm, s.stackGet idx⟩ :: L) := by
  apply bind (assertValidIdx valid)
  apply bind (machine (Api.sqGetstackobj_computes idx s) rfl)
  apply bind (addref _)
  exact pure _

theorem fromObject {env : Env} {bytes : List UInt8} (based : s.stackbase ≤ s.top) :
    Yields w₀ vm s L (StringHandle.fromObject env ⟨vm, .string bytes⟩ bytes) ⟨vm, bytes, bytes⟩ s
      L := by
  have read : (s.push (.string bytes)).stackGet (-1) = .string bytes := rfl
  have top : (s.push (.string bytes)).top = s.top + 1 := rfl
  have base : (s.push (.string bytes)).stackbase = s.stackbase := rfl
  apply bind (push _)
  apply bind (machine (Api.sqGetstringandsize_computes read) rfl)
  apply bind (onUnwind (pop one_pos (by omega)))
  exact pure _

/-- A handle is turned into a value; what has no reference count is dropped. -/
theorem intoValue {env : Env} (o : SQObject) (based : s.stackbase ≤ s.top) :
    Yields w₀ vm s (⟨vm, o⟩ :: L) (Object.intoValue env ⟨vm, o⟩) (o.toValue vm) s
      (Owns.handles (o.toValue vm) ++ L) := by
  cases o with
  | null => exact bind (drop _) (pure _)
  | integer n => exact bind (drop _) (pure _)
  | float bits => exact bind (drop _) (pure _)
  | bool b => exact bind (drop _) (pure _)
  | userPointer p => exact bind (drop _) (pure _)
  | string bytes => exact bind (fromObject based) (pure _)
  | ref t r => exact pure _

theorem valueFromStack {env : Env} {idx : ℤ} (valid : s.ValidIdx idx)
    (based : s.stackbase ≤ s.top) :
    Yields w₀ vm s L (FromSquirrel.fromStack env idx vm) (Except.ok ((s.stackGet idx).toValue vm)) s
      (Owns.handles ((s.stackGet idx).toValue vm) ++ L) :=
  bind (fromStack valid) (bind (intoValue _ based) (pure _))

theorem handleFromStack {env : Env} {idx : ℤ} {t : RefType} {r : ℕ} (valid : s.ValidIdx idx)
    (found : s.stackGet idx = .ref t r) :
    Yields w₀ vm s L (FromSquirrel.fromStack env idx vm) (Except.ok (⟨vm, r⟩ : Handle t)) s
      (Owns.handles (⟨vm, r⟩ : Handle t) ++ L) := by
  have typed : (⟨vm, .ref t r⟩ : Object).ofType t = some ⟨vm, r⟩ := if_pos rfl
  have read : Yields w₀ vm s L (Object.fromStack idx vm) _ s _ := fromStack valid
  rw [found] at read
  apply bind read
  simp only [typed]
  exact pure _

/-- The slot on top is converted, and it is popped together with slots below it. -/
theorem takeTop_of {env : Env} [FromSquirrel α] [Owns α] {res : Except Error α} {n : ℕ}
    (positive : 0 < n) (enough : s.stackbase + n ≤ s.top)
    (read : Yields w₀ vm s L (FromSquirrel.fromStack env (-1) vm) res s L₁) :
    Yields w₀ vm s L (Handle.takeTop env vm n) res (s.pop n) L₁ :=
  bind read (bind (onUnwind (pop positive enough)) (pure _))

theorem takeTop {env : Env} {n : ℕ} (positive : 0 < n) (enough : s.stackbase + n ≤ s.top) :
    Yields w₀ vm s L (Handle.takeTop env vm n) (Except.ok ((s.up 0).toValue vm)) (s.pop n)
      (Owns.handles ((s.up 0).toValue vm) ++ L) :=
  takeTop_of positive enough (valueFromStack (SQVM.validIdx_top (by omega)) (by omega))

theorem pushValue {v : Value} (here : Local vm v) :
    Yields w₀ vm s L (Squirrel.pushValue vm v) () (s.push v.slot) L := by
  cases v with
  | null => exact push _
  | integer n => exact push _
  | float bits => exact push _
  | bool b => exact push _
  | userPointer p => exact push _
  | string t =>
    have same : vm = t.sq := (here t.object (by simp [Owns.handles, Value.asObject])).symm
    subst same
    exact bind (ensure rfl) (push _)
  | handle t h =>
    have same : vm = h.sq := (here h.object (by simp [Owns.handles, Value.asObject])).symm
    subst same
    exact bind (ensure rfl) (push _)

theorem pushOwned {env : Env} {v : Value} (here : Local vm v) :
    Yields w₀ vm s (Owns.handles v ++ L) (IntoSquirrel.pushIntoStack env v vm) () (s.push v.slot)
      L :=
  bind (onUnwind (pushValue here)) (dropValue v)

/-! ## Errors -/

theorem getRuntimeError {env : Env} (based : s.stackbase ≤ s.top) :
    Yields w₀ vm s L (CallError.getRuntimeError env vm) (.runtime (s.lasterror.toValue vm)) s
      (Owns.handles (s.lasterror.toValue vm) ++ L) := by
  have top : (s.push s.lasterror).top = s.top + 1 := rfl
  have base : (s.push s.lasterror).stackbase = s.stackbase := rfl
  have valid : (s.push s.lasterror).ValidIdx (-1) :=
    ⟨by decide, by rw [if_neg (by decide)]; omega⟩
  apply bind (machine (Api.sqGetlasterror_computes s) rfl)
  apply bind (fromStack valid)
  apply bind (onUnwind (pop one_pos (by omega)))
  exact bind (intoValue s.lasterror based) (pure _)

/-- The failing branch pops the arguments that are left and takes the error. -/
theorem toRuntimeError {env : Env} {n : ℕ} (positive : 0 < n) (enough : s.stackbase + n ≤ s.top) :
    Yields w₀ vm s L (SQRESULT.toRuntimeError env .error vm n)
      (.error (.runtime (s.lasterror.toValue vm))) (s.pop n)
      (Owns.handles (s.lasterror.toValue vm) ++ L) := by
  have top : (s.pop n).top = s.top - n := List.length_drop
  have base : (s.pop n).stackbase = s.stackbase := rfl
  have popped : Yields w₀ vm s L (CallError.afterPop env vm n)
      (.runtime (s.lasterror.toValue vm)) (s.pop n)
      (Owns.handles (s.lasterror.toValue vm) ++ L) := by
    unfold CallError.afterPop
    simp only
    rw [if_pos (by omega)]
    apply bind (pop positive enough)
    exact getRuntimeError (s := s.pop n) (by omega)
  exact bind popped (pure _)

end Yields

end Yields

end Squirrels
