import Squirrels.Binding.Session

/-!
# Isolation of machines

A handle that reaches an operation on another machine is refused where its value is pushed. Until
then the operation has only pushed slots on its own stack: `Calm` is what holds at every point
before, and what is left when the refusal has unwound.
-/

namespace Squirrels

open Machines

/-- An operation on `vm` that started in `w₀` has changed no object of `vm`, and of the other
machines it has at most dropped handles. -/
structure Calm (w₀ : World) (vm : VmId) (w : World) : Prop where
  heap : (w vm).heap = (w₀ vm).heap
  others : ∀ j, j ≠ vm → Apart (w₀ j) (w j)

/-- A calm point of an operation, with the live handles `L`. -/
structure Pending (w₀ : World) (vm : VmId) (L : List Object) (w : World) : Prop where
  calm : Calm w₀ vm w
  owned : Owned L w

/-- A panic at a calm point. -/
def Refused (w₀ : World) (vm : VmId) (L : List Object) (e : Stop) (w : World) : Prop :=
  (∃ message, e = .panic message) ∧ Pending w₀ vm L w

/-- A value of the type is pushed only on the machine of its handles: the check comes before
anything is changed. -/
class ChecksVm (α : Type) [Owns α] [IntoSquirrel α] : Prop where
  push : ∀ {env : Env} {w₀ : World} {vm : VmId} {L : List Object} (a : α),
    Triple (Pending w₀ vm (Owns.handles a ++ L)) (IntoSquirrel.pushIntoStack env a vm)
      (fun _ w => Local vm a ∧ Pending w₀ vm L w) (Refused w₀ vm L)

/-- The arguments of a pack are pushed only on the machine of their handles. -/
class ChecksArgs (α : Type) [Owns α] [IntoArgs α] : Prop where
  push : ∀ {env : Env} {w₀ : World} {vm : VmId} {L : List Object} (a : α),
    Triple (Pending w₀ vm (Owns.handles a ++ L)) (IntoArgs.pushArgs env a vm)
      (fun _ w => Local vm a ∧ Pending w₀ vm L w) (Refused w₀ vm L)

/-! ## Calm steps -/

/-- A C function that returns and changes neither objects nor references. -/
def Harmless {α : Type} (m : Act SQVM α) : Prop :=
  ∀ s, ∃ a s', m.run s = (.ok a, s') ∧ s'.heap = s.heap ∧ s'.refs = s.refs ∧ s'.root = s.root

theorem harmless_push (o : SQObject) : Harmless (Api.push o) :=
  fun _ => ⟨_, _, rfl, rfl, rfl, rfl⟩

section Steps

variable {env : Env} {w₀ w : World} {vm : VmId} {L L' : List Object} {α β : Type}

theorem Apart.trans {s₀ s₁ s₂ : SQVM} (first : Apart s₀ s₁) (second : Apart s₁ s₂) :
    Apart s₀ s₂ where
  same := by
    conv_lhs => rw [second.same, first.same]
  refs o := (second.refs o).trans (first.refs o)

theorem Apart.stack {s₀ s : SQVM} (apart : Apart s₀ s) : s.stack = s₀.stack := by
  rw [apart.same]

theorem Calm.refl (w : World) (vm : VmId) : Calm w vm w := ⟨rfl, fun _ _ => .refl _⟩

theorem Calm.trans {w₁ w₂ : World} (first : Calm w₀ vm w₁) (second : Calm w₁ vm w₂) :
    Calm w₀ vm w₂ :=
  ⟨second.heap.trans first.heap,
    fun j other => (first.others j other).trans (second.others j other)⟩

theorem Pending.start (owned : Owned L w) : Pending w vm L w := ⟨.refl w vm, owned⟩

theorem Pending.perm (pending : Pending w₀ vm L w) (perm : L.Perm L') : Pending w₀ vm L' w :=
  ⟨pending.calm, pending.owned.perm perm⟩

/-- A change of the machine itself that leaves its objects alone. -/
theorem Pending.update (pending : Pending w₀ vm L w) {s : SQVM} (heap : s.heap = (w vm).heap)
    (owned : Owned L' (Function.update w vm s)) :
    Pending w₀ vm L' (Function.update w vm s) where
  calm :=
    { heap := by rw [Function.update_self, heap, pending.calm.heap]
      others := fun j other => by
        rw [Function.update_of_ne other]
        exact pending.calm.others j other }
  owned := owned

theorem Pending.step {m : Act SQVM α} (harmless : Harmless m) :
    Triple (Pending w₀ vm L) (m.on vm) (fun _ => Pending w₀ vm L) (Refused w₀ vm L') := by
  refine Triple.of_returns fun w pending => ?_
  obtain ⟨a, s, ran, heap, refs, root⟩ := harmless (w vm)
  refine ⟨a, _, by rw [Act.run_on, ran], pending.update heap ?_⟩
  exact pending.owned.update refs root

theorem Pending.pushObject {o : Object} (here : o.sq = vm) :
    Triple (Pending w₀ vm L) o.pushIntoStack (fun _ => Pending w₀ vm L) (Refused w₀ vm L') := by
  subst here
  exact Pending.step (harmless_push o.obj)

theorem Pending.stackDepth :
    Triple (Pending w₀ vm L) (Squirrel.stackDepth vm) (fun _ => Pending w₀ vm L)
      (Refused w₀ vm L') :=
  Pending.step fun s => ⟨_, s, rfl, rfl, rfl, rfl⟩

theorem Pending.pushRootTable :
    Triple (Pending w₀ vm L) (Squirrel.pushRootTable vm) (fun _ => Pending w₀ vm L)
      (Refused w₀ vm L') :=
  Triple.get_bind fun _ pending =>
    Triple.pre (Pending.step (harmless_push _)) fun _ eq => eq ▸ pending

theorem Pending.clone {t : RefType} (h : Handle t) {E : Stop → World → Prop} :
    Triple (Pending w₀ h.sq L) h.clone
      (fun h' w => h' = h ∧ Pending w₀ h.sq (Owns.handles h ++ L) w) E := by
  intro w pending
  obtain ⟨s, ran, same, owned⟩ := addref_run pending.owned h.object
  have cloned : h.clone.run w = (.ok h, Function.update w h.sq s) := by
    show Act.run (((Api.sqAddref h.object.obj).on h.object.sq >>= fun _ => pure h.object) >>=
      fun _ => pure h) w = _
    rw [Act.bind_bind, Act.run_bind_of_ok ran]
    rfl
  rw [cloned]
  exact ⟨rfl, pending.update (by rw [same]; rfl) owned⟩

/-- A check that panics at a calm point when it fails. -/
theorem Pending.ensure {c : Prop} [Decidable c] {message : String} :
    Triple (Pending w₀ vm L) (Act.ensure c message) (fun _ w => c ∧ Pending w₀ vm L w)
      (Refused w₀ vm L) :=
  Triple.ensure (fun met _ pending => ⟨met, pending⟩) fun _ _ pending => ⟨⟨_, rfl⟩, pending⟩

theorem Pending.drop (o : Object) {E : Stop → World → Prop} :
    Triple (Pending w₀ vm (o :: L)) o.drop (fun _ => Pending w₀ vm L) E := by
  intro w pending
  obtain ⟨s, ran, same, fewer, owned⟩ := release_run pending.owned
  rw [ran]
  refine ⟨⟨?_, fun j other => ?_⟩, owned⟩
  · by_cases here : vm = o.sq
    · subst here
      rw [Function.update_self, same]
      exact pending.calm.heap
    · rw [Function.update_of_ne here]
      exact pending.calm.heap
  · by_cases here : j = o.sq
    · subst here
      rw [Function.update_self]
      exact (pending.calm.others _ other).trans ⟨same, fewer⟩
    · rw [Function.update_of_ne here]
      exact pending.calm.others j other

theorem Pending.dropAll (hs : List Object) {E : Stop → World → Prop} :
    Triple (Pending w₀ vm (hs ++ L)) (dropAll hs) (fun _ => Pending w₀ vm L) E := by
  induction hs with
  | nil => exact Triple.pure fun _ pending => pending
  | cons o hs ih => exact Triple.bind (Pending.drop o) fun _ => ih

theorem Pending.dropValue [Owns α] (a : α) {E : Stop → World → Prop} :
    Triple (Pending w₀ vm (Owns.handles a ++ L)) (dropValue a) (fun _ => Pending w₀ vm L) E :=
  Pending.dropAll _

/-- Unwinding drops the handles that are still owned. -/
theorem Pending.unwind {P : World → Prop} {m : Act World α} {Q : α → World → Prop}
    {hs : List Object} (body : Triple P m Q (Refused w₀ vm (hs ++ L))) :
    Triple P (m.onUnwind (Squirrels.dropAll hs)) Q (Refused w₀ vm L) := by
  refine Triple.onUnwind body (fun message => ?_) fun e w ended refused => ?_
  · exact Triple.post (Triple.pre (Pending.dropAll hs) fun _ refused => refused.2)
      fun _ _ pending => ⟨⟨message, rfl⟩, pending⟩
  · obtain ⟨message, eq⟩ := refused.1
    exact (ended message eq).elim

theorem Pending.unwindValue [Owns β] {P : World → Prop} {m : Act World α} {Q : α → World → Prop}
    {b : β} (body : Triple P m Q (Refused w₀ vm (Owns.handles b ++ L))) :
    Triple P (m.onUnwind (Squirrels.dropValue b)) Q (Refused w₀ vm L) :=
  Pending.unwind body

/-- The check of one handle. -/
theorem Pending.assertSameVm {other : VmId} :
    Triple (Pending w₀ vm L) (Squirrel.assertSameVm other vm)
      (fun _ w => other = vm ∧ Pending w₀ vm L w) (Refused w₀ vm L) :=
  Pending.ensure

end Steps

/-! ## The conversions of the crate -/

section Conversions

variable {env : Env} {w₀ : World} {vm : VmId} {L : List Object} {α β : Type}

/-- A type without handles whose values are pushed by one C function. -/
theorem ChecksVm.scalar [Owns α] [IntoSquirrel α] (handles : ∀ a : α, Owns.handles a = [])
    (into : ∀ env (a : α), ∃ o, ∀ sq, IntoSquirrel.pushIntoStack env a sq = (Api.push o).on sq) :
    ChecksVm α where
  push {env w₀ vm L} a := by
    obtain ⟨o, eq⟩ := into env a
    rw [eq, handles]
    refine Triple.post (Pending.step (harmless_push o)) fun _ _ pending =>
      ⟨fun x mem => ?_, pending⟩
    rw [handles] at mem
    exact (List.not_mem_nil mem).elim

instance : ChecksVm Unit := .scalar (fun _ => rfl) fun _ _ => ⟨_, fun _ => rfl⟩

instance : ChecksVm ℤ := .scalar (fun _ => rfl) fun _ _ => ⟨_, fun _ => rfl⟩

instance : ChecksVm (BitVec 32) := .scalar (fun _ => rfl) fun _ _ => ⟨_, fun _ => rfl⟩

instance : ChecksVm Bool := .scalar (fun _ => rfl) fun _ _ => ⟨_, fun _ => rfl⟩

instance : ChecksVm UserPointer := .scalar (fun _ => rfl) fun _ _ => ⟨_, fun _ => rfl⟩

/-- A type that is one handle: the check, the push, and the drop of the handle. -/
theorem pushHandle_pending [Owns α] (a : α) {o : Object} (handles : Owns.handles a = [o]) :
    Triple (Pending w₀ vm (Owns.handles a ++ L))
      (do
        (Squirrel.assertSameVm o.sq vm).onUnwind (dropValue a)
        o.pushIntoStack
        dropValue a)
      (fun _ w => Local vm a ∧ Pending w₀ vm L w) (Refused w₀ vm L) := by
  refine Triple.bind (Pending.unwindValue Pending.assertSameVm) fun _ =>
    Triple.of_pre fun here => ?_
  refine Triple.bind (Pending.pushObject here) fun _ => ?_
  refine Triple.post (Pending.dropValue a) fun _ _ pending => ⟨fun x mem => ?_, pending⟩
  rw [handles] at mem
  obtain rfl := List.mem_singleton.1 mem
  exact here

instance {t : RefType} : ChecksVm (Handle t) := ⟨fun h => pushHandle_pending h (o := h.object) rfl⟩

instance : ChecksVm StringHandle := ⟨fun s => pushHandle_pending s (o := s.object) rfl⟩

instance [Owns α] [IntoSquirrel α] [ChecksVm α] : ChecksVm (Option α) where
  push
    | none => Triple.post (Pending.step (harmless_push .null)) fun _ _ pending =>
        ⟨fun _ mem => (List.not_mem_nil mem).elim, pending⟩
    | some a => Triple.post (ChecksVm.push a) fun _ _ ⟨here, pending⟩ => ⟨here, pending⟩

theorem pushValue_pending (v : Value) :
    Triple (Pending w₀ vm L) (Squirrel.pushValue vm v) (fun _ w => Local vm v ∧ Pending w₀ vm L w)
      (Refused w₀ vm L) := by
  have scalar : ∀ o : SQObject, Triple (Pending w₀ vm L) ((Api.push o).on vm)
      (fun _ w => Local vm Value.null ∧ Pending w₀ vm L w) (Refused w₀ vm L) := fun o =>
    Triple.post (Pending.step (harmless_push o)) fun _ _ pending =>
      ⟨fun _ mem => (List.not_mem_nil mem).elim, pending⟩
  have checked : ∀ o : Object, Triple (Pending w₀ vm L)
      (do
        Squirrel.assertSameVm vm o.sq
        o.pushIntoStack)
      (fun _ w => o.sq = vm ∧ Pending w₀ vm L w) (Refused w₀ vm L) := fun o => by
    refine Triple.bind Pending.ensure fun _ => Triple.of_pre fun here => ?_
    exact Triple.post (Pending.pushObject here.symm) fun _ _ pending => ⟨here.symm, pending⟩
  cases v with
  | null => exact scalar .null
  | integer n => exact scalar (.integer n)
  | float bits => exact scalar (.float bits)
  | bool b => exact scalar (.bool b)
  | userPointer p => exact scalar (.userPointer p)
  | string s =>
    refine Triple.post (checked s.object) fun _ _ ⟨here, pending⟩ => ⟨fun x mem => ?_, pending⟩
    obtain rfl := List.mem_singleton.1 mem
    exact here
  | handle t h =>
    refine Triple.post (checked h.object) fun _ _ ⟨here, pending⟩ => ⟨fun x mem => ?_, pending⟩
    obtain rfl := List.mem_singleton.1 mem
    exact here

/-- A value is checked, pushed and dropped. -/
theorem pushOwned_pending (v : Value) :
    Triple (Pending w₀ vm (Owns.handles v ++ L))
      (do
        (Squirrel.pushValue vm v).onUnwind (dropValue v)
        dropValue v)
      (fun _ w => Local vm v ∧ Pending w₀ vm L w) (Refused w₀ vm L) :=
  Triple.bind (Pending.unwindValue (pushValue_pending v)) fun _ => Triple.of_pre fun here =>
    Triple.post (Pending.dropValue v) fun _ _ pending => ⟨here, pending⟩

instance : ChecksVm Value := ⟨pushOwned_pending⟩

/-! ## Bytes -/

theorem pop_pending {n : ℕ} (positive : 0 < n) :
    Triple (Pending w₀ vm L) (Squirrel.pop vm n) (fun _ => Pending w₀ vm L) (Refused w₀ vm L) := by
  have enough : Triple (Pending w₀ vm L)
      (do
        let stackDepth ← Squirrel.stackDepth vm
        Act.ensure (n ≤ stackDepth) "attempted to pop more elements than the stack has")
      (fun _ w => n ≤ (w vm).top ∧ Pending w₀ vm L w) (Refused w₀ vm L) := by
    intro w pending
    have ran : (Squirrel.stackDepth vm).run w = (.ok (((w vm).top : ℤ) - (w vm).stackbase), w) := by
      show (_, Function.update w vm (w vm)) = _
      rw [Function.update_eq_self]
      rfl
    rw [Act.run_bind_of_ok ran]
    exact Triple.ensure (P := (· = w)) (fun few _ eq => ⟨by rw [eq]; omega, eq ▸ pending⟩)
      (fun _ _ eq => ⟨⟨_, rfl⟩, eq ▸ pending⟩) w rfl
  show Triple _ (Squirrel.stackDepth vm >>= fun d => _ >>= fun _ => _) _ _
  rw [← Act.bind_bind]
  refine Triple.bind enough fun _ => ?_
  rw [Act.ensure, if_pos (by omega)]
  apply Triple.of_returns
  rintro w ⟨enough, pending⟩
  refine ⟨(), _, ?_, pending.update (s := (w vm).pop n) rfl (pending.owned.update rfl rfl)⟩
  rw [Act.run_bind_of_ok (Act.run_pure _ _), Act.run_on, Int.toNat_natCast]
  unfold Api.sqPop
  rw [Act.run_bind_of_ok (Act.run_get _), if_neg (by omega)]
  rfl

theorem fromStack_pending {idx : ℤ} :
    Triple (Pending w₀ vm L) (Object.fromStack idx vm)
      (fun o w => o.sq = vm ∧ Pending w₀ vm (o :: L) w) (Refused w₀ vm L) := by
  refine Triple.bind (Triple.bind Pending.stackDepth fun _ => Triple.post Pending.ensure
    fun _ _ ⟨_, pending⟩ => pending) fun _ => ?_
  refine Triple.bind (Pending.step fun s => ⟨_, s, rfl, rfl, rfl, rfl⟩) fun o => ?_
  refine Triple.bind (Q := fun _ => Pending w₀ vm (⟨vm, o⟩ :: L)) ?_ fun _ =>
    Triple.pure fun _ pending => ⟨rfl, pending⟩
  intro w pending
  obtain ⟨s, ran, same, owned⟩ := addref_run pending.owned ⟨vm, o⟩
  rw [ran]
  exact pending.update (by rw [same]) owned

theorem harmless_sqGetstringandsize (idx : ℤ) : Harmless (Api.sqGetstringandsize env idx) := by
  intro s
  unfold Api.sqGetstringandsize
  rw [Act.run_bind_of_ok (Act.run_get s)]
  cases s.stackGet idx <;> exact ⟨_, _, rfl, rfl, rfl, rfl⟩

theorem readString_pending {idx : ℤ} :
    Triple (Pending w₀ vm L) (FromSquirrel.fromStack env idx vm)
      (fun (r : Except Error StringHandle) => Pending w₀ vm (Owns.handles r ++ L))
      (Refused w₀ vm L) := by
  refine Triple.bind fromStack_pending fun ⟨sq, o⟩ => Triple.of_pre fun here => ?_
  obtain rfl : sq = vm := here
  have other : Triple (Pending w₀ sq (⟨sq, o⟩ :: L))
      (do
        Object.drop ⟨sq, o⟩
        pure (.error (.type "string")))
      (fun (r : Except Error StringHandle) => Pending w₀ sq (Owns.handles r ++ L))
      (Refused w₀ sq L) :=
    Triple.bind (Pending.drop _) fun _ => Triple.pure fun _ pending => pending
  cases o with
  | string str =>
    refine Triple.bind (Pending.step (harmless_sqGetstringandsize idx)) fun bytes => ?_
    cases bytes with
    | some bytes => exact Triple.pure fun _ pending => pending
    | none =>
      exact Triple.bind (Pending.drop _) fun _ => Triple.stop fun _ pending => ⟨⟨_, rfl⟩, pending⟩
  | _ => exact other

theorem newString_pending (bytes : List UInt8) :
    Triple (Pending w₀ vm L) (StringHandle.new env vm bytes)
      (fun s => Pending w₀ vm (Owns.handles s ++ L)) (Refused w₀ vm L) := by
  refine Triple.bind (Pending.step (harmless_push _)) fun _ => ?_
  refine Triple.bind readString_pending fun r => ?_
  refine Triple.bind (Pending.unwindValue (pop_pending one_pos)) fun _ => ?_
  cases r with
  | ok s => exact Triple.pure fun _ pending => pending
  | error e => exact Triple.stop fun _ pending => ⟨⟨_, rfl⟩, pending⟩

instance : ChecksVm Bytes where
  push b := Triple.bind (Triple.bind (newString_pending b.bytes) fun _ =>
    Triple.pure fun _ pending => pending) fun v => Triple.post (pushOwned_pending v)
      fun _ _ ⟨_, pending⟩ => ⟨fun _ mem => (List.not_mem_nil mem).elim, pending⟩

/-! ## Argument packs -/

/-- The fields of a tuple are pushed only on the machine of their handles. -/
class ChecksTuple (α : Type) [Owns α] [TupleIntoArgs α] : Prop where
  push : ∀ {env : Env} {w₀ : World} {vm : VmId} {L : List Object} (a : α),
    Triple (Pending w₀ vm (Owns.handles a ++ L)) (TupleIntoArgs.push env a vm)
      (fun _ w => Local vm a ∧ Pending w₀ vm L w) (Refused w₀ vm L)

theorem Local.pair [Owns α] [Owns β] {a : α} {b : β} (first : Local vm a) (rest : Local vm b) :
    Local vm (a, b) := fun o mem =>
  (List.mem_append.1 mem).elim (first o) (rest o)

/-- One argument, then the others. -/
theorem pushFirst_pending [Owns α] [IntoSquirrel α] [ChecksVm α] [Owns β] {a : α} {b : β}
    {pushRest : Act World Unit}
    (rest : Triple (Pending w₀ vm (Owns.handles b ++ L)) pushRest
      (fun _ w => Local vm b ∧ Pending w₀ vm L w) (Refused w₀ vm L)) :
    Triple (Pending w₀ vm (Owns.handles (a, b) ++ L))
      (do
        (IntoSquirrel.pushIntoStack env a vm).onUnwind (dropValue b)
        pushRest)
      (fun _ w => Local vm (a, b) ∧ Pending w₀ vm L w) (Refused w₀ vm L) := by
  have apart : Owns.handles (a, b) ++ L = Owns.handles a ++ (Owns.handles b ++ L) :=
    List.append_assoc _ _ _
  rw [apart]
  refine Triple.bind (Pending.unwindValue (ChecksVm.push a)) fun _ => Triple.of_pre fun first => ?_
  exact Triple.post rest fun _ _ ⟨others, pending⟩ => ⟨first.pair others, pending⟩

instance : ChecksTuple Unit :=
  ⟨fun _ => Triple.pure fun _ pending => ⟨fun _ mem => (List.not_mem_nil mem).elim, pending⟩⟩

instance [Owns α] [IntoSquirrel α] [ChecksVm α] [Owns β] [TupleIntoArgs β] [ChecksTuple β] :
    ChecksTuple (α × β) :=
  ⟨fun a => pushFirst_pending (ChecksTuple.push a.2)⟩

instance : ChecksArgs Unit :=
  ⟨fun _ => Triple.pure fun _ pending => ⟨fun _ mem => (List.not_mem_nil mem).elim, pending⟩⟩

instance [Owns α] [IntoSquirrel α] [ChecksVm α] [Owns β] [TupleIntoArgs β] [ChecksTuple β] :
    ChecksArgs (α × β) :=
  ⟨fun a => Triple.bind (ChecksTuple.push a) fun _ => Triple.pure fun _ pushed => pushed⟩

instance [Owns α] [IntoSquirrel α] [ChecksVm α] : ChecksArgs (List α) where
  push items := by
    refine Triple.bind (Q := fun _ w => Local _ items ∧ Pending _ _ _ w) ?_ fun _ =>
      Triple.pure fun _ pushed => pushed
    induction items with
    | nil => exact Triple.pure fun _ pending => ⟨fun _ mem => (List.not_mem_nil mem).elim, pending⟩
    | cons a items ih => exact pushFirst_pending ih

end Conversions

end Squirrels
