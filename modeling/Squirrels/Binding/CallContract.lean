import Squirrels.Binding.ClassContract
import Squirrels.Binding.Squirrel

/-!
# Contracts of calls

`call_closure` pops one slot after a failed call and two after a call that returned. That is what
`sq_call` leaves of the function and the result, unless the machine is suspended: then the
arguments stay, and so do the frames of the suspended functions.
-/

namespace Squirrels

open Machines

/-! ## Argument packs -/

/-- Pushing an argument pack adds `size` slots and returns their number. -/
class LawfulArgs (α : Type) [Owns α] [IntoArgs α] where
  size : α → ℕ
  push : ∀ {env : Env} {G H N : Prop} {w₀ : World} {vm : VmId} {stack : List SQObject}
    {L : List Object} (a : α), (H → Fits (w₀ vm) stack.length (size a)) → (N → Local vm a) →
    Triple (At env G H w₀ vm stack (Owns.handles a ++ L)) (IntoArgs.pushArgs env a vm)
      (fun n w => n = size a ∧ ∃ args, args.length = size a ∧
        At env G H w₀ vm (args ++ stack) L w) (Failed env G N w₀ vm L)

/-- Pushing a tuple adds as many slots as it has fields. -/
class LawfulTuple (α : Type) [Owns α] [TupleIntoArgs α] : Prop where
  push : ∀ {env : Env} {G H N : Prop} {w₀ : World} {vm : VmId} {stack : List SQObject}
    {L : List Object} (a : α), (H → Fits (w₀ vm) stack.length (TupleIntoArgs.count α)) →
    (N → Local vm a) →
    Triple (At env G H w₀ vm stack (Owns.handles a ++ L)) (TupleIntoArgs.push env a vm)
      (fun _ w => ∃ args, args.length = TupleIntoArgs.count α ∧
        At env G H w₀ vm (args ++ stack) L w) (Failed env G N w₀ vm L)

/-- The rest of a pack still fits after its first slot. -/
theorem Fits.rest {s₀ : SQVM} {stack : List SQObject} {n : ℕ} (o : SQObject)
    (fits : Fits s₀ stack.length (n + 1)) : Fits s₀ (o :: stack).length n := by
  have := fits.base
  have := fits.free
  constructor <;> simp <;> omega

/-- Push one argument, then the others. -/
theorem pushFirst_at {env : Env} {G H N : Prop} {w₀ : World} {vm : VmId} {stack : List SQObject}
    {L : List Object} {α β : Type} [Owns α] [IntoSquirrel α] [LawfulInto α] [Owns β] {a : α} {b : β}
    {pushRest : Act World Unit} {n : ℕ} (here : N → Local vm (a, b))
    (fits : H → Fits (w₀ vm) stack.length (n + 1))
    (rest : ∀ o, Triple (At env G H w₀ vm (o :: stack) (Owns.handles b ++ L)) pushRest
      (fun _ w => ∃ args, args.length = n ∧ At env G H w₀ vm (args ++ o :: stack) L w)
      (Failed env G N w₀ vm L)) :
    Triple (At env G H w₀ vm stack (Owns.handles (a, b) ++ L))
      (do
        (IntoSquirrel.pushIntoStack env a vm).onUnwind (dropValue b)
        pushRest)
      (fun _ w => ∃ args, args.length = n + 1 ∧ At env G H w₀ vm (args ++ stack) L w)
      (Failed env G N w₀ vm L) := by
  have apart : Owns.handles (a, b) ++ L = Owns.handles a ++ (Owns.handles b ++ L) :=
    List.append_assoc _ _ _
  rw [apart]
  refine Triple.bind (unwindValue_at (LawfulInto.push a
    (fun h => (fits h).space [] (by simp)) fun _ n => (here n).fst)) fun _ =>
      Triple.exists_pre fun o => Triple.of_pre fun _ => ?_
  refine Triple.post (rest o) fun _ w ⟨args, length, at_⟩ => ⟨args ++ [o], ?_, ?_⟩
  · simp [length]
  · simpa using at_

instance : LawfulTuple Unit where
  push _ _ _ := Triple.pure fun _ at_ => ⟨[], rfl, at_⟩

instance {α β : Type} [Owns α] [Owns β] [IntoSquirrel α] [LawfulInto α] [TupleIntoArgs β]
    [LawfulTuple β] : LawfulTuple (α × β) where
  push a fits here := pushFirst_at here fits fun o =>
    LawfulTuple.push a.2 (fun h => (fits h).rest o) fun n => (here n).snd

instance : LawfulArgs Unit where
  size _ := 0
  push _ _ _ := Triple.pure fun _ at_ => ⟨rfl, [], rfl, at_⟩

instance {α β : Type} [Owns α] [Owns β] [IntoSquirrel α] [LawfulInto α] [TupleIntoArgs β]
    [LawfulTuple β] : LawfulArgs (α × β) where
  size _ := TupleIntoArgs.count (α × β)
  push a fits here := Triple.bind (LawfulTuple.push a fits here) fun _ =>
    Triple.pure fun _ pushed => ⟨rfl, pushed⟩

theorem pushItems_at {env : Env} {G H N : Prop} {w₀ : World} {vm : VmId} {L : List Object}
    {α : Type} [Owns α] [IntoSquirrel α] [LawfulInto α] (items : List α) (stack : List SQObject)
    (fits : H → Fits (w₀ vm) stack.length items.length) (here : N → Local vm items) :
    Triple (At env G H w₀ vm stack (Owns.handles items ++ L)) (pushItems env vm items)
      (fun _ w => ∃ args, args.length = items.length ∧ At env G H w₀ vm (args ++ stack) L w)
      (Failed env G N w₀ vm L) := by
  induction items generalizing stack with
  | nil => exact Triple.pure fun _ at_ => ⟨[], rfl, at_⟩
  | cons item rest ih =>
    have local_ : N → Local vm (item, rest) := here
    exact pushFirst_at local_ fits fun o => ih _ (fun h => (fits h).rest o) fun n => (local_ n).snd

instance {α : Type} [Owns α] [IntoSquirrel α] [LawfulInto α] : LawfulArgs (List α) where
  size items := items.length
  push items fits here := Triple.bind (pushItems_at items _ fits here) fun _ =>
    Triple.pure fun _ pushed => ⟨rfl, pushed⟩

/-! ## Calls -/

section Calls

variable {env : Env} {G H N : Prop} {w₀ : World} {vm : VmId} {st : List SQObject} {L : List Object}
  {t : RefType} {τ α ν : Type} [Owns τ] [Owns α] [Owns ν] [IntoArgs α] [LawfulArgs α]
  [FromSquirrel ν] [LawfulFrom ν]

/-- What a call with `n` arguments above `height` slots needs: a machine that runs, and room for the
function, `this` and the arguments, and later for the result. -/
structure CanCall (s₀ : SQVM) (height n : ℕ) : Prop where
  fits : Fits s₀ height (max (n + 2) 3)
  running : s₀.suspended = false

instance (s₀ : SQVM) (height n : ℕ) : Decidable (CanCall s₀ height n) :=
  decidable_of_iff (Fits s₀ height (max (n + 2) 3) ∧ s₀.suspended = false)
    ⟨fun ⟨fits, running⟩ => ⟨fits, running⟩, fun can => ⟨can.fits, can.running⟩⟩

theorem CanCall.fits_three {s₀ : SQVM} {height n : ℕ} (can : CanCall s₀ height n) :
    Fits s₀ height 3 :=
  ⟨can.fits.base, by have := can.fits.free; omega⟩

theorem callClosure_at {this callee : SQObject} (args : α) (here : N → Local vm args)
    (can : H → CanCall (w₀ vm) st.length (LawfulArgs.size args))
    (plain : H → (∃ r, callee = .ref .closure r) ∨ (∃ r, callee = .ref .cls r) ∨
      ∀ c, this ≠ .ref .closure c) :
    Triple (At env G H w₀ vm (this :: callee :: st) (Owns.handles args ++ L))
      (callClosure env vm args)
      (fun (r : Except CallError ν) => Later env G H w₀ vm st (Owns.handles r ++ L))
      (Failed env G N w₀ vm L) := by
  have fits : H → Fits (w₀ vm) st.length 3 := fun h => (can h).fits_three
  refine Triple.bind (LawfulArgs.push args (fun h => ?_) here) fun n => Triple.of_pre fun eq =>
    Triple.exists_pre fun slots => Triple.of_pre fun length => ?_
  · have := (can h).fits.base
    have := (can h).fits.free
    constructor <;> simp <;> omega
  have count : (n + 1).toNat = slots.length + 1 := by omega
  simp only [count]
  refine Triple.bind (At.leaves (Api.sqCall_leaves slots this callee (fun h => (can h).running)
    (fun h => (fits h).base) (fun h => ((fits h).space [callee] (by simp)).free) plain))
      fun ret => Triple.exists_pre fun v => Triple.of_pre fun _ => Later.pre fun H' less => ?_
  have fits' : H' → Fits (w₀ vm) st.length 3 := fun h => fits (less h)
  refine Triple.bind (toRuntimeError_at ret 1 [callee] (fun _ => rfl)
    fun h => (fits' h).space [] (by simp)) fun e => ?_
  cases e with
  | error e => exact Triple.pure fun _ at_ => ⟨H', less, at_⟩
  | ok _ =>
    refine Triple.of_pre fun _ => Triple.bind (takeTop_at [callee] rfl fits') fun r =>
      Triple.pure fun _ at_ => ?_
    cases r <;> exact ⟨H', less, at_⟩

theorem pushRootTable_at (stack : List SQObject) {L' : List Object}
    (space : H → Space (w₀ vm) stack) :
    Triple (At env G H w₀ vm stack L) (Squirrel.pushRootTable vm)
      (fun _ w => ∃ r, At env G H w₀ vm (.ref .table r :: stack) L w) (Failed env G N w₀ vm L') :=
  Triple.get_bind fun w at_ => Triple.post (Triple.pre (push_at _ space) fun _ eq => eq ▸ at_)
    fun _ _ at_ => ⟨(w vm).root, at_⟩

theorem Handle.call_balanced (self : Handle t) (args : α) (here : N → Local self.sq args)
    (can : H → CanCall (w₀ self.sq) st.length (LawfulArgs.size args)) :
    Balanced env G H N w₀ self.sq st (Owns.handles args)
      (self.call env args : Act World (Except CallError ν)) := by
  intro L
  refine Triple.bind (pushObject_at rfl fun h => (can h).fits_three.space [] (by simp)) fun _ => ?_
  refine Triple.bind (pushRootTable_at (self.obj :: st)
    fun h => (can h).fits_three.space [self.obj] (by simp)) fun _ =>
    Triple.exists_pre fun r => ?_
  exact callClosure_at args here can fun _ => .inr (.inr fun c => by simp)

/-- A C function must not find a script function as `this`, which it could tail call. -/
theorem Handle.callWith_balanced [IntoSquirrel τ] [LawfulInto τ] (self : Handle t) (this : τ)
    (args : α) (here : N → Local self.sq (this, args))
    (can : H → CanCall (w₀ self.sq) st.length (LawfulArgs.size args))
    (plain : H → t = .closure ∨ ∀ o, LawfulInto.Shows this o → ∀ c, o ≠ .ref .closure c) :
    Balanced env G H N w₀ self.sq st (Owns.handles (this, args))
      (self.callWith env this args : Act World (Except CallError ν)) := by
  intro L
  have apart : Owns.handles (this, args) ++ L = Owns.handles this ++ (Owns.handles args ++ L) :=
    List.append_assoc _ _ _
  rw [apart]
  refine Triple.bind (pushObject_at rfl fun h => (can h).fits_three.space [] (by simp)) fun _ => ?_
  refine Triple.bind (unwindValue_at (LawfulInto.push this
    (fun h => (can h).fits_three.space [self.obj] (by simp)) fun _ n => (here n).fst)) fun _ =>
      Triple.exists_pre fun o => Triple.of_pre fun shown => ?_
  refine callClosure_at args (fun n => (here n).snd) can fun h => ?_
  rcases plain h with rfl | other
  · exact .inl ⟨self.ref, rfl⟩
  · exact .inr (.inr (other o (shown h)))

theorem Handle.Class.instantiate_balanced (self : Class) (args : α)
    (here : N → Local self.sq args)
    (can : H → CanCall (w₀ self.sq) st.length (LawfulArgs.size args)) :
    Balanced env G H N w₀ self.sq st (Owns.handles args) (instantiate env self args) := by
  intro L
  refine Triple.bind (pushObject_at rfl fun h => (can h).fits_three.space [] (by simp)) fun _ => ?_
  refine Triple.bind (push_at .null fun h => (can h).fits_three.space [self.obj] (by simp))
    fun _ => ?_
  exact callClosure_at args here can fun _ => .inr (.inl ⟨self.ref, rfl⟩)

/-! ## Methods -/

theorem Handle.Instance.callFound_at {method : Handle t} {self : Instance}
    (here : method.sq = self.sq) (args : α) (localArgs : N → Local self.sq args)
    (can : H → CanCall (w₀ self.sq) st.length (LawfulArgs.size args)) :
    Triple (At env G H w₀ self.sq st (Owns.handles method ++ (Owns.handles args ++ L)))
      (callFound env self method args)
      (fun (r : Except CallError ν) => Later env G H w₀ self.sq st (Owns.handles r ++ L))
      (Failed env G N w₀ self.sq L) := by
  refine Triple.bind (cloneHandle_at self) fun this => Triple.of_pre fun eq => ?_
  subst eq
  rw [← here] at localArgs can ⊢
  have ordered : ∀ w, At env G H w₀ method.sq st
      (Owns.handles this ++ (Owns.handles method ++ (Owns.handles args ++ L))) w →
      At env G H w₀ method.sq st (Owns.handles (this, args) ++ (Owns.handles method ++ L)) w :=
    fun w at_ => at_.perm (by
      have : Owns.handles (this, args) = Owns.handles this ++ Owns.handles args := rfl
      rw [this, List.append_assoc]
      refine List.Perm.append_left _ ?_
      rw [← List.append_assoc, ← List.append_assoc]
      exact List.Perm.append_right _ List.perm_append_comm)
  refine Triple.bind (unwindValue_at (Triple.pre (Handle.callWith_balanced method this args
    (fun n o mem => ?_) can (fun _ => .inr ?_) _) ordered)) fun r => Later.pre fun H' less => ?_
  · rcases List.mem_append.1 mem with self | args
    · obtain rfl := List.mem_singleton.1 self
      exact here.symm
    · exact localArgs n o args
  · rintro _ rfl c
    simp [Handle.obj]
  refine Triple.bind (Triple.pre (dropValue_at method) fun _ at_ => at_.perm ?_) fun _ =>
    Triple.pure fun _ at_ => ⟨H', less, at_⟩
  rw [← List.append_assoc, ← List.append_assoc]
  exact List.Perm.append_right _ List.perm_append_comm

/-- Looking up the method may run metamethods before the call. -/
theorem Handle.Instance.callMethod_balanced {κ : Type} [Owns κ] [IntoSquirrel κ] [LawfulInto κ]
    (self : Instance) (key : κ) (args : α) (here : N → Local self.sq (key, args))
    (can : H → CanCall (w₀ self.sq) st.length (LawfulArgs.size args)) :
    Balanced env G H N w₀ self.sq st (Owns.handles (key, args))
      (callMethod env self key args : Act World (Except CallError ν)) := by
  intro L
  have apart : Owns.handles (key, args) ++ L = Owns.handles key ++ (Owns.handles args ++ L) :=
    List.append_assoc _ _ _
  rw [apart]
  have fits : H → Fits (w₀ self.sq) st.length 3 := fun h => (can h).fits_three
  refine Triple.bind (unwindValue_at (getWith_at decoded_value key fits (fun n => (here n).fst)
    (reads_get fun h => (fits h).base))) fun method => Triple.of_pre fun found =>
      Later.pre fun H' less => ?_
  have refused : ∀ v : Value, Triple (At env G H' w₀ self.sq st
      (Owns.handles v ++ (Owns.handles args ++ L)))
      (do
        dropValue v
        dropValue args
        pure (.error (.other (.type "closure"))))
      (fun (r : Except CallError ν) => Later env G H w₀ self.sq st (Owns.handles r ++ L))
      (Failed env G N w₀ self.sq L) := fun v =>
    Triple.bind (dropValue_at v) fun _ => Triple.bind (dropValue_at args) fun _ =>
      Triple.pure fun _ at_ => ⟨H', less, at_⟩
  have called : ∀ {t : RefType} {m : Handle t}, m.sq = self.sq →
      Triple (At env G H' w₀ self.sq st (Owns.handles m ++ (Owns.handles args ++ L)))
        (callFound env self m args)
        (fun (r : Except CallError ν) => Later env G H w₀ self.sq st (Owns.handles r ++ L))
        (Failed env G N w₀ self.sq L) := fun same =>
    Triple.post (callFound_at same args (fun n => (here n).snd) fun h => can (less h))
      fun _ _ ⟨H'', less', at_⟩ => ⟨H'', fun h => less (less' h), at_⟩
  cases method with
  | error e =>
    refine Triple.bind (Triple.pre (dropValue_at args) fun _ at_ => at_.perm ?_) fun _ =>
      Triple.pure fun _ at_ => ⟨H', less, at_⟩
    rw [← List.append_assoc, ← List.append_assoc]
    exact List.Perm.append_right _ List.perm_append_comm
  | ok method =>
    have localMethod := found method rfl method rfl
    cases method with
    | handle t m =>
      have same : m.sq = self.sq := localMethod m.object (List.mem_singleton.2 rfl)
      cases t with
      | closure => exact called same
      | nativeClosure => exact called same
      | table => exact refused (.handle .table m)
      | array => exact refused (.handle .array m)
      | userData => exact refused (.handle .userData m)
      | generator => exact refused (.handle .generator m)
      | thread => exact refused (.handle .thread m)
      | cls => exact refused (.handle .cls m)
      | inst => exact refused (.handle .inst m)
      | weakRef => exact refused (.handle .weakRef m)
    | null => exact refused .null
    | integer n => exact refused (.integer n)
    | float bits => exact refused (.float bits)
    | bool b => exact refused (.bool b)
    | string s => exact refused (.string s)
    | userPointer p => exact refused (.userPointer p)

end Calls

/-! ## Source code -/

namespace Squirrel

variable {env : Env} {G H N : Prop} {w₀ : World} {sq : VmId} {st : List SQObject} {L : List Object}

/-- The registry entry of the machine changes, but stays. -/
theorem withErrorSlot_at {α : Type} (f : SQVM → α × SQVM)
    (changes : ∀ s, ∃ slot, (f s).2 = { s with errorSlot := s.errorSlot.map slot }) :
    Triple (At env G H w₀ sq st L) (Act.on sq (Act.step f)) (fun _ => At env G H w₀ sq st L)
      (Failed env G N w₀ sq L) := by
  refine At.step fun refs => Triple.step fun s on => ?_
  obtain ⟨slot, eq⟩ := changes s
  rw [eq]
  refine ⟨on.refs_eq, on.root_eq, on.roottable_eq, on.stranded_le, on.live,
    fun h => (on.same h).trans ?_, on.stack_eq⟩
  exact ⟨rfl, rfl, rfl, rfl, rfl, by simp, le_rfl, .refl _, fun _ => rfl⟩

/-- The closure belongs to the machine. -/
theorem compileStr_at (src sourceName : List UInt8)
    (registered : H → (w₀ sq).errorSlot.isSome) (fits : H → Fits (w₀ sq) st.length 2) :
    Triple (fun w => (H → Api.CanCompile env (w sq) src sourceName) ∧ At env G H w₀ sq st L w)
      (compileStr env sq src sourceName)
      (fun r w => (∀ c, r = .ok c → c.sq = sq) ∧ At env G H w₀ sq st (Owns.handles r ++ L) w)
      (Failed env G N w₀ sq L) := by
  refine Triple.bind (Q := fun _ w => (H → Api.CanCompile env (w sq) src sourceName) ∧
    At env G H w₀ sq st L w) ?_ fun _ => ?_
  · rintro w ⟨can, at_⟩
    refine ⟨?_, withErrorSlot_at (N := N) (fun s => ((), { s with
      errorSlot := s.errorSlot.map fun _ => none })) (fun s => ⟨fun _ => none, rfl⟩) w at_⟩
    -- the entry of the machine says nothing about its root table
    show H → Api.CanCompile env (Function.update w sq _ sq) src sourceName
    rw [Function.update_self]
    exact can
  refine Triple.bind (At.lift fun refs => Api.sqCompilebuffer_on
    (fun h => ((fits h).space [] (by simp)).free) src sourceName) fun ret => ?_
  cases ret with
  | ok =>
    refine Triple.bind (Q := fun c w => c.sq = sq ∧ At env G H w₀ sq st (Owns.handles c ++ L) w)
      (Triple.pre (Triple.exists_pre fun r => ?_) fun _ compiled => compiled.2) fun c =>
        Triple.of_pre fun here => Triple.pure fun _ at_ =>
          ⟨fun _ eq => Except.ok.inj eq ▸ here, at_⟩
    exact Triple.post (takePushed_of (decoded_handle .closure) fits
      fun _ read h => read.1 h ⟨r, rfl⟩) fun c _ ⟨read, at_⟩ => ⟨read.2 c rfl, at_⟩
  | error =>
    refine Triple.bind (Q := fun e w => (H → ∃ e', e = some e') ∧ At env G H w₀ sq st L w) ?_
      fun e => Triple.of_pre fun captured => ?_
    · intro w ⟨stored, _, at_⟩
      refine ⟨fun h => ?_, withErrorSlot_at (N := N) (fun s => (s.errorSlot.join, { s with
        errorSlot := s.errorSlot.map fun _ => none })) (fun s => ⟨fun _ => none, rfl⟩) w at_⟩
      obtain ⟨e, eq⟩ := stored h rfl (registered h)
      exact ⟨e, by simp [eq]⟩
    · cases e with
      | some e => exact Triple.pure fun _ at_ => ⟨fun _ absurd => by simp at absurd, at_⟩
      | none => exact At.panic fun h => by simpa using captured h

theorem eval_at {ν : Type} [Owns ν] [FromSquirrel ν] [LawfulFrom ν] (src : List UInt8)
    (registered : H → (w₀ sq).errorSlot.isSome) (can : H → CanCall (w₀ sq) st.length 0) :
    Triple (fun w => (H → Api.CanCompile env (w sq) src (ascii "=eval")) ∧
        At env G H w₀ sq st L w)
      (eval env sq src : Act World (Except CallError ν))
      (fun r => Later env G H w₀ sq st (Owns.handles r ++ L)) (Failed env G N w₀ sq L) := by
  have fits : H → Fits (w₀ sq) st.length 3 := fun h => (can h).fits
  refine Triple.bind (Q := fun _ w => ∃ r, (H → Api.CanCompile env (w sq) src (ascii "=eval")) ∧
    At env G H w₀ sq (.ref .table r :: st) L w) ?_ fun _ => Triple.exists_pre fun r => ?_
  · rintro w ⟨compiles, at_⟩
    have pushes : Triple (At env G H w₀ sq st L) (Squirrel.pushRootTable sq) _
        (Failed env G N w₀ sq L) := pushRootTable_at st fun h => (fits h).space [] (by simp)
    obtain ⟨r, pushed⟩ := pushes w at_
    refine ⟨r, ?_, pushed⟩
    show H → Api.CanCompile env (Function.update w sq _ sq) src (ascii "=eval")
    rw [Function.update_self]
    exact compiles
  refine Triple.bind (compileStr_at src _ registered fun h => ?_) fun compiled =>
    Triple.of_pre fun here => ?_
  · have := (fits h).base
    have := (fits h).free
    constructor <;> simp <;> omega
  refine Triple.bind (unwindValue_at (pop_at 1 one_pos fun h => ?_)) fun _ => ?_
  · have := (fits h).base
    simp
    omega
  cases compiled with
  | error e => exact Triple.pure fun _ at_ => at_.later
  | ok closure =>
    have same := here closure rfl
    subst same
    refine Triple.bind (unwindValue_at (Triple.pre (Handle.call_balanced closure ()
      (fun _ _ mem => by simp [Owns.handles] at mem) can _) fun _ at_ => at_)) fun r =>
        Later.pre fun H' less => ?_
    refine Triple.bind (Triple.pre (dropValue_at closure) fun _ at_ => at_.perm ?_) fun _ =>
      Triple.pure fun _ at_ => ⟨H', less, at_⟩
    rw [← List.append_assoc, ← List.append_assoc]
    exact List.Perm.append_right _ List.perm_append_comm

theorem rootTable_balanced : Balanced env G H N w₀ sq st [] (rootTable sq) := .of_at fun _ =>
  Triple.get_bind fun _ at_ => Triple.post (Triple.pre (cloneHandle_at _) fun _ eq => eq ▸ at_)
    fun _ _ ⟨eq, at_⟩ => eq ▸ at_

end Squirrel

/-! ## Userdata and Rust functions -/

section UserData

variable {env : Env} {G H N : Prop} {w₀ : World} {sq : VmId} {st : List SQObject} {L : List Object}

/-- The userdata belongs to the machine. -/
theorem Handle.UserData.new_at (typeId : ℕ) (fits : H → Fits (w₀ sq) st.length 2) :
    Triple (At env G H w₀ sq st L) (new env sq typeId)
      (fun u w => u.sq = sq ∧ At env G H w₀ sq st (Owns.handles u ++ L) w)
      (Failed env G N w₀ sq L) := by
  refine Triple.bind (At.exits (Api.sqNewuserdata_exits
    (fun h => ((fits h).space [] (by simp)).free) _)) fun _ => Triple.exists_pre fun r =>
      Triple.of_pre fun fresh => ?_
  refine Triple.bind (At.exits (Api.sqSettypetag_exits r userdataTag fresh)) fun ret =>
    Triple.exists_pre fun _ => Triple.of_pre fun done => ?_
  refine Triple.bind (At.ensure fun h => done h) fun _ => Triple.of_pre fun _ => ?_
  exact Triple.post (expectPushed_of (decoded_handle .userData) [] rfl fits
    fun _ read h => read.1 h ⟨r, rfl⟩) fun u _ ⟨read, at_⟩ => ⟨read.2 u rfl, at_⟩

theorem Handle.UserData.new_balanced (typeId : ℕ) (fits : H → Fits (w₀ sq) st.length 2) :
    Balanced env G H N w₀ sq st [] (new env sq typeId) := .of_at fun _ =>
  Triple.post (new_at typeId fits) fun _ _ at_ => at_.2

theorem Handle.UserData.payload_balanced (self : UserData) (typeId : ℕ)
    (fits : H → Fits (w₀ self.sq) st.length 1) :
    Balanced env G H N w₀ self.sq st [] (payload env self typeId) := by
  refine .of_at fun L => ?_
  refine Triple.bind (pushObject_at rfl fun h => (fits h).space [] (by simp)) fun _ => ?_
  refine Triple.bind (At.exits (Api.sqGetuserdata_exits self.ref)) fun found =>
    Triple.exists_pre fun _ => Triple.of_pre fun isUserData => ?_
  cases found with
  | none => exact At.panic fun h => by simpa using isUserData h
  | some found =>
    refine Triple.bind (pop_at 1 one_pos fun h => ?_) fun _ => ?_
    · have := (fits h).base
      simp
      omega
    split
    · exact Triple.pure fun _ at_ => at_
    · refine Triple.get_bind fun w at_ => ?_
      split <;> exact Triple.pure fun _ eq => eq ▸ at_

theorem Squirrel.createFunction_balanced (trampoline typeId : ℕ)
    (fits : H → Fits (w₀ sq) st.length 2) :
    Balanced env G H N w₀ sq st [] (createFunction env sq trampoline typeId) := by
  refine .of_at fun L => ?_
  have space : H → Space (w₀ sq) st := fun h => (fits h).space [] (by simp)
  refine Triple.bind (Handle.UserData.new_at typeId fits) fun upvalue =>
    Triple.of_pre fun here => ?_
  refine Triple.bind (pushObject_at (o := upvalue.object) here space) fun _ => ?_
  refine Triple.bind (At.exits (Api.sqNewclosure_exits trampoline _ fun h => (space h).free))
    fun _ => Triple.exists_pre fun r => Triple.of_pre fun _ => ?_
  refine Triple.bind (unwindValue_at (fromStack_at fun h => slot_top (space h).base)) fun obj =>
    Triple.of_pre fun ⟨_, found⟩ => ?_
  refine Triple.bind (unwindValue_at (pop_at 1 one_pos fun h => ?_)) fun _ => ?_
  · have := (space h).base
    simp
    omega
  refine Triple.bind (Triple.pre (dropValue_at upvalue) fun _ at_ => at_.perm List.perm_middle.symm)
    fun _ => ?_
  cases typed : obj.ofType .nativeClosure with
  | some nc =>
    rw [Object.ofType_object typed]
    exact Triple.pure fun _ at_ => at_
  | none =>
    refine At.abort (fun h => ?_) ?_
    · simp [Object.ofType, found h] at typed
    · simp [Api.overRelease]

end UserData

end Squirrels
