import Squirrels.Binding.Isolation

/-!
# Handles of other machines

What the operations on the handles of one machine do with the handles of another one. They refuse
it, but for two of them: `set_delegate` does not check its delegate, and `call_method` looks the
method up before it pushes the arguments.
-/

namespace Squirrels

open Machines

/-- A program on `vm` that always panics at a calm point. -/
def Refuses (w₀ : World) (vm : VmId) (consumed : List Object) {α : Type} (m : Act World α) : Prop :=
  ∀ L, Triple (Pending w₀ vm (consumed ++ L)) m (fun _ _ => False) (Refused w₀ vm L)

section Programs

variable {env : Env} {w₀ : World} {vm : VmId} {L : List Object} {t : RefType} {κ ν α β : Type}
  [Owns κ] [IntoSquirrel κ] [ChecksVm κ] [Owns ν] [IntoSquirrel ν] [ChecksVm ν]

/-! ## The bodies of the operations -/

/-- An operation that pushes its object and one argument. -/
theorem pushArg_refuses (self : Handle t) (key : κ) {rest : Unit → Act World β}
    (foreign : ¬ Local self.sq key) : Refuses w₀ self.sq (Owns.handles key) (do
      self.object.pushIntoStack
      let u ← IntoSquirrel.pushIntoStack env key self.sq
      rest u) := fun _ =>
  Triple.bind (Pending.pushObject rfl) fun _ => Triple.bind (ChecksVm.push key) fun _ =>
    Triple.of_pre fun here => (foreign here).elim

/-- An operation that pushes its object and two arguments. -/
theorem pushTwo_refuses (self : Handle t) (key : κ) (value : ν) {rest : Unit → Act World β}
    (foreign : ¬ Local self.sq (key, value)) : Refuses w₀ self.sq (Owns.handles (key, value)) (do
      self.object.pushIntoStack
      (IntoSquirrel.pushIntoStack env key self.sq).onUnwind (dropValue value)
      let u ← IntoSquirrel.pushIntoStack env value self.sq
      rest u) := by
  intro L
  have apart : Owns.handles (key, value) ++ L = Owns.handles key ++ (Owns.handles value ++ L) :=
    List.append_assoc _ _ _
  rw [apart]
  refine Triple.bind (Pending.pushObject rfl) fun _ => ?_
  refine Triple.bind (Pending.unwindValue (ChecksVm.push key)) fun _ =>
    Triple.of_pre fun first => ?_
  refine Triple.bind (ChecksVm.push value) fun _ => Triple.of_pre fun second => ?_
  exact (foreign (first.pair second)).elim

theorem getWith_refuses [FromSquirrel β] [Owns β] {read : ℤ → Act SQVM SQRESULT} (self : Handle t)
    (key : κ) (foreign : ¬ Local self.sq key) : Refuses w₀ self.sq (Owns.handles key)
      (self.getWith env read key : Act World (Except CallError β)) :=
  pushArg_refuses self key foreign

theorem setWith_refuses (write : ℤ → Act SQVM SQRESULT) {popped : ℤ} (self : Handle t) (key : κ)
    (value : ν) (foreign : ¬ Local self.sq (key, value)) :
    Refuses w₀ self.sq (Owns.handles (key, value)) (self.setWith env write popped key value) :=
  pushTwo_refuses self key value foreign

theorem Handle.Class.memberWith_refuses [Owns α] [IntoSquirrel α] [ChecksVm α]
    {newMember : ℤ → Bool → Act SQVM SQRESULT} (self : Class) (key : κ) (value : ν) (attr : α)
    (isStatic : Bool) (foreign : ¬ Local self.sq (key, value, attr)) :
    Refuses w₀ self.sq (Owns.handles (key, value, attr))
      (memberWith env self newMember key value attr isStatic) := by
  intro L
  have apart : Owns.handles (key, value, attr) ++ L =
      Owns.handles key ++ (Owns.handles (value, attr) ++ L) := List.append_assoc _ _ _
  have apart' : Owns.handles (value, attr) ++ L = Owns.handles value ++ (Owns.handles attr ++ L) :=
    List.append_assoc _ _ _
  rw [apart]
  refine Triple.bind Pending.stackDepth fun _ => Triple.bind (Pending.pushObject rfl) fun _ => ?_
  refine Triple.bind (Pending.unwindValue (ChecksVm.push key)) fun _ =>
    Triple.of_pre fun first => ?_
  rw [apart']
  refine Triple.bind (Pending.unwindValue (ChecksVm.push value)) fun _ =>
    Triple.of_pre fun second => ?_
  refine Triple.bind (ChecksVm.push attr) fun _ => Triple.of_pre fun third => ?_
  exact (foreign (first.pair (second.pair third))).elim

theorem Handle.Instance.instanceOf_refuses (self : Instance) (c : Class)
    (foreign : c.sq ≠ self.sq) : Refuses w₀ self.sq [] (instanceOf self c) := fun _ =>
  Triple.bind Pending.ensure fun _ => Triple.of_pre fun here => (foreign here.symm).elim

variable [Owns α] [IntoArgs α] [ChecksArgs α] [FromSquirrel β] [Owns β]

theorem callClosure_refuses (args : α) (foreign : ¬ Local vm args) :
    Refuses w₀ vm (Owns.handles args) (callClosure env vm args : Act World (Except CallError β)) :=
  fun _ => Triple.bind (ChecksArgs.push args) fun _ => Triple.of_pre fun here => (foreign here).elim

theorem Handle.call_refuses (self : Handle t) (args : α) (foreign : ¬ Local self.sq args) :
    Refuses w₀ self.sq (Owns.handles args) (self.call env args : Act World (Except CallError β)) :=
  fun L => Triple.bind (Pending.pushObject rfl) fun _ => Triple.bind Pending.pushRootTable fun _ =>
    callClosure_refuses args foreign L

theorem Handle.callWith_refuses (self : Handle t) (this : κ) (args : α)
    (foreign : ¬ Local self.sq (this, args)) : Refuses w₀ self.sq (Owns.handles (this, args))
      (self.callWith env this args : Act World (Except CallError β)) := by
  intro L
  have apart : Owns.handles (this, args) ++ L = Owns.handles this ++ (Owns.handles args ++ L) :=
    List.append_assoc _ _ _
  rw [apart]
  refine Triple.bind (Pending.pushObject rfl) fun _ => ?_
  refine Triple.bind (Pending.unwindValue (ChecksVm.push this)) fun _ =>
    Triple.of_pre fun first => ?_
  exact callClosure_refuses args (fun rest => foreign (first.pair rest)) L

theorem Handle.Class.instantiate_refuses (self : Class) (args : α)
    (foreign : ¬ Local self.sq args) :
    Refuses w₀ self.sq (Owns.handles args) (instantiate env self args) := fun L =>
  Triple.bind (Pending.pushObject rfl) fun _ =>
    Triple.bind (Pending.step (harmless_push .null)) fun _ => callClosure_refuses args foreign L

end Programs

/-! ## The operations -/

/-- The arguments of an operation of `Table` check their machine. -/
def TableOp.Checked : TableOp → Prop
  | .get _ key _ | .delete _ key _ | .rawGet _ key _ | .rawDelete _ key _ | .containsKey _ key =>
    ChecksVm key.type
  | .set _ key value | .assign _ key value | .rawSet _ key value =>
    ChecksVm key.type ∧ ChecksVm value.type
  | _ => True

/-- The arguments of an operation of `Class` check their machine. -/
def ClassOp.Checked : ClassOp → Prop
  | .newMember _ key value attr _ | .rawNewMember _ key value attr _ =>
    ChecksVm key.type ∧ ChecksVm value.type ∧ ChecksVm attr.type
  | .newSlot _ key value _ | .rawSet _ key value => ChecksVm key.type ∧ ChecksVm value.type
  | .get _ key _ | .rawGet _ key _ => ChecksVm key.type
  | _ => True

/-- The arguments of an operation of `Array` check their machine. -/
def ArrayOp.Checked : ArrayOp → Prop
  | .set _ _ value | .append _ value | .insert _ _ value => ChecksVm value.type
  | _ => True

/-- The arguments of an operation of `Instance` check their machine. -/
def InstanceOp.Checked : InstanceOp → Prop
  | .get _ key _ | .rawGet _ key _ => ChecksVm key.type
  | .set _ key value | .rawSet _ key value => ChecksVm key.type ∧ ChecksVm value.type
  | _ => True

/-- The arguments of an operation on script code check their machine. -/
def ScriptOp.Checked : ScriptOp → Prop
  | .call _ args _ | .instantiate _ args => ChecksArgs args.type
  | .callWith _ this args _ => ChecksVm this.type ∧ ChecksArgs args.type
  | .callMethod _ key args _ => ChecksVm key.type ∧ ChecksArgs args.type
  | _ => True

/-- The arguments of an operation of `NativeClosure` check their machine. -/
def NativeOp.Checked : NativeOp → Prop
  | .call _ args _ => ChecksArgs args.type
  | .callWith _ this args _ => ChecksVm this.type ∧ ChecksArgs args.type

namespace Op

/-- The arguments of an operation are of types that check their machine, as those of the crate
do. -/
def Checked : Op → Prop
  | table op => op.Checked
  | cls op => op.Checked
  | array op => op.Checked
  | inst op => op.Checked
  | script op => op.Checked
  | native op => op.Checked
  | _ => True

/-- The handles that an operation on a handle gets besides it. -/
def further (env : Env) : Op → List Object
  | table (.setDelegate _ delegate) => Owns.handles delegate
  | inst (.instanceOf _ c) => Owns.handles c
  | slots _ | machine _ | handle _ => []
  | op => (op.toCall env).consumed

end Op

/-! ## Refusals -/

section Refusals

variable {env : Env} {w₀ : World}

theorem not_local {α : Type} [Owns α] {vm : VmId} {a : α}
    (foreign : ∃ o ∈ Owns.handles a, o.sq ≠ vm) : ¬ Local vm a := fun here =>
  foreign.elim fun o ⟨mem, ne⟩ => ne (here o mem)

/-- An operation that gets no handle gets no foreign one. -/
theorem Refuses.of_nil {vm : VmId} {α : Type} {m : Act World α}
    (foreign : ∃ o ∈ ([] : List Object), o.sq ≠ vm) : Refuses w₀ vm [] m :=
  foreign.elim fun _ ⟨mem, _⟩ => (List.not_mem_nil mem).elim

/-- A call that always panics at a calm point when it gets a handle of another machine. -/
def Call.Guarded (c : Call) (w₀ : World) : Prop :=
  (∃ o ∈ c.consumed, o.sq ≠ c.vm) → Refuses w₀ c.vm c.consumed c.program

theorem TableOp.guarded (op : TableOp) (checked : op.Checked) : (op.toCall env).Guarded w₀ := by
  intro foreign
  cases op with
  | get self key out =>
    have : ChecksVm key.type := checked
    exact getWith_refuses self key.value (not_local foreign)
  | rawGet self key out =>
    have : ChecksVm key.type := checked
    exact getWith_refuses self key.value (not_local foreign)
  | set self key value =>
    obtain ⟨_, _⟩ := checked
    exact setWith_refuses (fun idx => Api.sqNewslot env idx false) self key.value value.value
      (not_local foreign)
  | assign self key value =>
    obtain ⟨_, _⟩ := checked
    exact setWith_refuses _ self key.value value.value (not_local foreign)
  | rawSet self key value =>
    obtain ⟨_, _⟩ := checked
    exact setWith_refuses _ self key.value value.value (not_local foreign)
  | delete self key out =>
    have : ChecksVm key.type := checked
    exact fun L => Triple.bind Pending.stackDepth fun _ =>
      pushArg_refuses self key.value (not_local foreign) L
  | rawDelete self key out =>
    have : ChecksVm key.type := checked
    exact pushArg_refuses self key.value (not_local foreign)
  | containsKey self key =>
    have : ChecksVm key.type := checked
    exact pushArg_refuses self key.value (not_local foreign)
  | _ => exact .of_nil foreign

theorem ClassOp.guarded (op : ClassOp) (checked : op.Checked) : (op.toCall env).Guarded w₀ := by
  intro foreign
  cases op with
  | newMember self key value attr isStatic =>
    obtain ⟨_, _, _⟩ := checked
    exact Handle.Class.memberWith_refuses self key.value value.value attr.value isStatic
      (not_local foreign)
  | rawNewMember self key value attr isStatic =>
    obtain ⟨_, _, _⟩ := checked
    exact Handle.Class.memberWith_refuses self key.value value.value attr.value isStatic
      (not_local foreign)
  | newSlot self key value isStatic =>
    obtain ⟨_, _⟩ := checked
    exact setWith_refuses (fun idx => Api.sqNewslot env idx isStatic) self key.value value.value
      (not_local foreign)
  | rawSet self key value =>
    obtain ⟨_, _⟩ := checked
    exact setWith_refuses _ self key.value value.value (not_local foreign)
  | get self key out =>
    have : ChecksVm key.type := checked
    exact getWith_refuses self key.value (not_local foreign)
  | rawGet self key out =>
    have : ChecksVm key.type := checked
    exact getWith_refuses self key.value (not_local foreign)
  | memberHandle self name => exact pushArg_refuses self name (not_local foreign)
  | _ => exact .of_nil foreign

/-- `into_iter` consumes its own array. -/
theorem ArrayOp.guarded (op : ArrayOp) (checked : op.Checked) : (op.toCall env).Guarded w₀ := by
  intro foreign
  cases op with
  | set self idx value =>
    have : ChecksVm value.type := checked
    exact setWith_refuses _ self idx value.value (not_local foreign)
  | append self value =>
    have : ChecksVm value.type := checked
    exact pushArg_refuses self value.value (not_local foreign)
  | insert self idx value =>
    have : ChecksVm value.type := checked
    exact pushArg_refuses self value.value (not_local foreign)
  | intoIter self =>
    obtain ⟨o, mem, ne⟩ := foreign
    obtain rfl := List.mem_singleton.1 mem
    exact (ne rfl).elim
  | _ => exact .of_nil foreign

theorem InstanceOp.guarded (op : InstanceOp) (checked : op.Checked) :
    (op.toCall env).Guarded w₀ := by
  intro foreign
  cases op with
  | get self key out =>
    have : ChecksVm key.type := checked
    exact getWith_refuses self key.value (not_local foreign)
  | rawGet self key out =>
    have : ChecksVm key.type := checked
    exact getWith_refuses self key.value (not_local foreign)
  | set self key value =>
    obtain ⟨_, _⟩ := checked
    exact setWith_refuses _ self key.value value.value (not_local foreign)
  | rawSet self key value =>
    obtain ⟨_, _⟩ := checked
    exact setWith_refuses _ self key.value value.value (not_local foreign)
  | _ => exact .of_nil foreign

theorem NativeOp.guarded (op : NativeOp) (checked : op.Checked) : (op.toCall env).Guarded w₀ := by
  intro foreign
  cases op with
  | call self args out =>
    have : ChecksArgs args.type := checked
    exact Handle.call_refuses self args.value (not_local foreign)
  | callWith self this args out =>
    obtain ⟨_, _⟩ := checked
    exact Handle.callWith_refuses self this.value args.value (not_local foreign)

end Refusals

/-- The call panics, when it has changed neither an object of its machine nor anything of the
others: these have at most lost the handles that moved into the call. -/
def Call.Refused (c : Call) (w : World) : Prop :=
  ∃ message w', c.program.run w = (.error (.panic message), w') ∧ Calm w c.vm w'

section Outcomes

variable {env : Env} {c : Call} {w w₁ w₂ : World} {L rest : List Object} {message : String}

theorem Refuses.refused (refuses : Refuses w c.vm c.consumed c.program) (owned : Owned L w)
    (moved : L.Perm (c.consumed ++ rest)) : c.Refused w := by
  have done := refuses rest w ((Pending.start owned).perm moved)
  rcases ran : c.program.run w with ⟨e | a, w'⟩ <;> rw [ran] at done
  · obtain ⟨⟨message, rfl⟩, pending⟩ := done
    exact ⟨message, w', ran, pending.calm⟩
  · exact done.elim

/-- A call that has left the other machines alone and then panics at a calm point. -/
theorem Call.refused_iff (ran : c.program.run w = (.error (.panic message), w₂))
    (others : ∀ j, j ≠ c.vm → Apart (w j) (w₁ j)) (calm : Calm w₁ c.vm w₂) :
    c.Refused w ↔ (w₁ c.vm).heap = (w c.vm).heap := by
  constructor
  · rintro ⟨message', w', ran', calm'⟩
    rw [ran] at ran'
    obtain rfl := (Prod.mk.inj ran').2
    rw [← calm.heap, calm'.heap]
  · exact fun heap => ⟨message, w₂, ran, .trans ⟨heap, others⟩ calm⟩

theorem Call.not_refused {r : Except Stop c.Result} (ran : c.program.run w = (r, w₂))
    (ended : ∀ message, r ≠ .error (.panic message)) : ¬ c.Refused w := by
  rintro ⟨message, w', ran', -⟩
  rw [ran] at ran'
  exact ended message (Prod.mk.inj ran').1

end Outcomes

/-! ## Delegates -/

/-- What `set_delegate` does after it has pushed the delegate. -/
theorem Handle.Table.delegated_others {env : Env} {w₀ : World} {L : List Object} (self : Table)
    (owned : Owned L w₀) {j : VmId} (other : j ≠ self.sq) :
    Apart (w₀ j) ((Act.run (do
      let ret ← (Api.sqSetdelegate (-2)).on self.sq
      ret.finishUpdate env self.sq 2) w₀).2 j) := by
  have rest : Triple (At env False False w₀ self.sq [.null, self.obj] L) (do
      let ret ← (Api.sqSetdelegate (-2)).on self.sq
      ret.finishUpdate env self.sq 2)
      (fun _ w => ∀ j, j ≠ self.sq → Apart (w₀ j) (w j))
      (Failed env False False w₀ self.sq L) := by
    refine Triple.bind (At.exits (Api.sqSetdelegate_exits (-2) .null)) fun ret =>
      Triple.exists_pre fun _ => Triple.of_pre fun _ => ?_
    refine Triple.bind (toRuntimeError_at ret 2 [.null, self.obj] (fun _ => rfl) False.elim)
      fun e => ?_
    cases e with
    | error e => exact Triple.pure fun _ at_ => at_.others
    | ok _ =>
      exact Triple.of_pre fun _ => Triple.bind (pop_at 1 one_pos False.elim) fun _ =>
        Triple.pure fun _ at_ => at_.others
  have done := rest w₀ ((At.start owned self.sq).any id _)
  generalize Act.run _ w₀ = r at done ⊢
  obtain ⟨e | a, w'⟩ := r
  · exact done.others j other
  · exact done j other

/-- A delegate of another machine is pushed on the stack of its own machine and stays there. -/
theorem Handle.Table.setDelegate_foreign {env : Env} {w : World} {L : List Object}
    (owned : Owned L w) (self d : Table) (foreign : d.sq ≠ self.sq) :
    (((setDelegate env self (some d)).run w).2 d.sq).stack = d.obj :: (w d.sq).stack := by
  obtain ⟨w₁, pushed, owned₁, same⟩ : ∃ w₁, ((Api.push self.obj).on self.sq).run w = (.ok (), w₁) ∧
      Owned L w₁ ∧ w₁ d.sq = w d.sq :=
    ⟨Function.update w self.sq ((w self.sq).apiPush self.obj), rfl, owned.update rfl rfl,
      Function.update_of_ne foreign _ _⟩
  obtain ⟨w₂, strayed, owned₂, stack⟩ : ∃ w₂, ((Api.push d.obj).on d.sq).run w₁ = (.ok (), w₂) ∧
      Owned L w₂ ∧ (w₂ d.sq).stack = d.obj :: (w₁ d.sq).stack := by
    refine ⟨Function.update w₁ d.sq ((w₁ d.sq).apiPush d.obj), rfl, owned₁.update rfl rfl, ?_⟩
    rw [Function.update_self]
    rfl
  show ((Act.run ((Api.push self.obj).on self.sq >>= fun _ => (Api.push d.obj).on d.sq >>= fun _ =>
    (Api.sqSetdelegate (-2)).on self.sq >>= fun ret => _) w).2 d.sq).stack = _
  rw [Act.run_bind_of_ok pushed, Act.run_bind_of_ok strayed, ← same, ← stack]
  exact (delegated_others self owned₂ foreign).stack

theorem Handle.Table.setDelegate_not_refused {env : Env} {w : World} {L : List Object}
    (owned : Owned L w) (self d : Table) (foreign : d.sq ≠ self.sq) :
    ¬ (Op.toCall env (.table (.setDelegate self (some d)))).Refused w := by
  rintro ⟨message, w', ran, calm⟩
  have strayed : (((setDelegate env self (some d)).run w).2 d.sq).stack = d.obj :: (w d.sq).stack :=
    setDelegate_foreign owned self d foreign
  have ran' : (setDelegate env self (some d)).run w = (.error (.panic message), w') := ran
  rw [ran'] at strayed
  exact List.cons_ne_self _ _ (strayed.symm.trans (calm.others d.sq foreign).stack)

/-! ## Methods -/

/-- Looking a method up leaves the objects as they are and gives a function, or panics. -/
def Handle.Instance.Finds {κ : Type} [IntoSquirrel κ] (env : Env) (self : Instance) (key : κ)
    (w : World) : Prop :=
  let r := (get env self key : Act World (Except CallError Value)).run w
  (r.2 self.sq).heap = (w self.sq).heap ∧ match r.1 with
    | .ok (.ok (.handle .closure _)) | .ok (.ok (.handle .nativeClosure _)) => True
    | .error (.panic _) => True
    | _ => False

/-- A method that is not a function is dropped together with the arguments. -/
theorem dropBoth_returns {w : World} {rest : List Object} {α β : Type} [Owns α] (v : Value)
    (args : α) (owned : Owned (Owns.handles v ++ (Owns.handles args ++ rest)) w) :
    ∃ (r : Except CallError β) (w' : World), Act.run (do
      dropValue v
      dropValue args
      pure (.error (.other (.type "closure")))) w = (.ok r, w') := by
  have contract : Triple (Pending w 0 (Owns.handles v ++ (Owns.handles args ++ rest)))
      (do
        dropValue v
        dropValue args
        pure (.error (.other (.type "closure"))))
      (fun (_ : Except CallError β) _ => True) Never :=
    Triple.bind (Pending.dropValue v) fun _ => Triple.bind (Pending.dropValue args) fun _ =>
      Triple.pure fun _ _ => trivial
  obtain ⟨r, w', ran, -⟩ := contract.returns (Pending.start owned)
  exact ⟨r, w', ran⟩

section Methods

variable {env : Env} {w₀ w : World} {L rest : List Object} {t : RefType} {κ α β : Type}
  [Owns κ] [IntoSquirrel κ] [Owns α] [IntoArgs α] [ChecksArgs α] [FromSquirrel β] [Owns β]

/-- A method that has been found is dropped again when its arguments are refused. -/
theorem Handle.Instance.callFound_refuses {method : Handle t} {self : Instance}
    (here : method.sq = self.sq) (args : α) (foreign : ¬ Local self.sq args) :
    Refuses w₀ self.sq (Owns.handles method ++ Owns.handles args)
      (callFound env self method args : Act World (Except CallError β)) := by
  intro L
  refine Triple.bind (Pending.clone self) fun this => Triple.of_pre fun eq => ?_
  subst eq
  rw [← here] at foreign ⊢
  have ordered : ∀ w, Pending w₀ method.sq
      (Owns.handles this ++ (Owns.handles method ++ Owns.handles args ++ L)) w →
      Pending w₀ method.sq (Owns.handles (this, args) ++ (Owns.handles method ++ L)) w :=
    fun w pending => pending.perm (by
      have : Owns.handles (this, args) = Owns.handles this ++ Owns.handles args := rfl
      rw [this, List.append_assoc, List.append_assoc]
      refine List.Perm.append_left _ ?_
      rw [← List.append_assoc, ← List.append_assoc]
      exact List.Perm.append_right _ List.perm_append_comm)
  refine Triple.bind (Pending.unwindValue (Triple.pre (callWith_refuses method this args
    (fun all => foreign all.snd) _) ordered)) fun _ => fun _ absurd => absurd.elim

/-- `call_method` as a call. -/
abbrev Call.callMethod (β : Type) [FromSquirrel β] [Owns β] (env : Env) (self : Instance) (key : κ)
    (args : α) : Call :=
  ⟨self.sq, Owns.handles (key, args),
    (Handle.Instance.callMethod env self key args : Act World (Except CallError β))⟩

/-- When the lookup has returned, `call_method` is refused if it has found a function. -/
theorem Handle.Instance.callMethod_refused_iff_found (self : Instance) (key : κ) (args : α)
    {r : Except CallError Value} {w₁ : World}
    (ran : (get env self key : Act World (Except CallError Value)).run w = (.ok r, w₁))
    (here : ∀ v, r = .ok v → Local self.sq v)
    (owned : Owned (Owns.handles r ++ (Owns.handles args ++ rest)) w₁)
    (others : ∀ j, j ≠ self.sq → Apart (w j) (w₁ j)) (foreign : ¬ Local self.sq args) :
    (Call.callMethod β env self key args).Refused w ↔ Finds env self key w := by
  have looked : ((get env self key : Act World (Except CallError Value)).onUnwind
      (dropValue args)).run w = (.ok r, w₁) := Act.run_onUnwind_of_ok ran
  unfold Finds
  rw [ran]
  have called : ∀ {t : RefType} (c : Handle t), r = .ok (.handle t c) →
      (Call.callMethod β env self key args).program.run w =
        (callFound env self c args : Act World (Except CallError β)).run w₁ →
      ((Call.callMethod β env self key args).Refused w ↔ (w₁ self.sq).heap = (w self.sq).heap) := by
    rintro t c rfl whole
    have same : c.sq = self.sq := here _ rfl c.object (List.mem_singleton.2 rfl)
    have refuses : Refuses w₁ self.sq (Owns.handles c ++ Owns.handles args)
        (callFound env self c args : Act World (Except CallError β)) :=
      callFound_refuses same args foreign
    have done := refuses rest w₁ ((Pending.start owned).perm (by
      rw [List.append_assoc]
      exact .refl _))
    rcases ended : (callFound env self c args : Act World (Except CallError β)).run w₁
      with ⟨e | _, w₂⟩ <;> rw [ended] at done
    · obtain ⟨⟨message, rfl⟩, pending⟩ := done
      exact Call.refused_iff (whole.trans ended) others pending.calm
    · exact done.elim
  have dropped : ∀ v, r = .ok v → (Call.callMethod β env self key args).program.run w =
      Act.run (do
        dropValue v
        dropValue args
        pure (.error (.other (.type "closure")))) w₁ →
      ¬ (Call.callMethod β env self key args).Refused w := by
    rintro v rfl whole
    obtain ⟨r', w', returned⟩ := dropBoth_returns v args owned
    exact Call.not_refused (whole.trans returned) (by simp)
  cases r with
  | error e =>
    have swapped : Owned (Owns.handles args ++ (Owns.handles e ++ rest)) w₁ := owned.perm (by
      rw [← List.append_assoc, ← List.append_assoc]
      exact List.Perm.append_right _ List.perm_append_comm)
    have start : Pending w₁ self.sq _ w₁ := .start swapped
    obtain ⟨_, w', returned, -⟩ := (Pending.dropValue args (E := Never)).returns start
    have whole : (Call.callMethod β env self key args).program.run w = (.ok (.error e), w') :=
      (Act.run_bind_of_ok looked).trans (Act.run_bind_of_ok returned)
    exact iff_of_false (Call.not_refused whole (by simp)) And.right
  | ok v =>
    cases v with
    | handle t c =>
      cases t with
      | closure =>
        exact (called c rfl (Act.run_bind_of_ok looked)).trans (and_iff_left trivial).symm
      | nativeClosure =>
        exact (called c rfl (Act.run_bind_of_ok looked)).trans (and_iff_left trivial).symm
      | _ => exact iff_of_false (dropped _ rfl (Act.run_bind_of_ok looked)) And.right
    | _ => exact iff_of_false (dropped _ rfl (Act.run_bind_of_ok looked)) And.right

omit [ChecksArgs α] in
theorem Handle.Instance.callMethod_refuses [ChecksVm κ] (self : Instance) (key : κ) (args : α)
    (foreign : ¬ Local self.sq key) : Refuses w₀ self.sq (Owns.handles (key, args))
      (callMethod env self key args : Act World (Except CallError β)) := by
  intro L
  have apart : Owns.handles (key, args) ++ L = Owns.handles key ++ (Owns.handles args ++ L) :=
    List.append_assoc _ _ _
  rw [apart]
  exact Triple.bind (Pending.unwindValue (getWith_refuses self key foreign _)) fun _ _ absurd =>
    absurd.elim

variable [LawfulInto κ]

/-- When the lookup leaves its machine as it is, `call_method` is refused if it gets as far as the
arguments. -/
theorem Handle.Instance.callMethod_refused_iff_finds (self : Instance) (key : κ) (args : α)
    (owned : Owned (Owns.handles key ++ (Owns.handles args ++ rest)) w)
    (foreign : ¬ Local self.sq args) :
    (Call.callMethod β env self key args).Refused w ↔ Finds env self key w := by
  have looks : Triple
      (At env False False w self.sq [] (Owns.handles key ++ (Owns.handles args ++ rest)))
      (get env self key : Act World (Except CallError Value))
      (fun r w' => (∀ v, r = .ok v → ∀ v', (.ok v : Except Error Value) = .ok v' →
        Local self.sq v') ∧ Later env False False w self.sq []
          (Owns.handles r ++ (Owns.handles args ++ rest)) w')
      (Failed env False False w self.sq (Owns.handles args ++ rest)) :=
    getWith_at decoded_value key False.elim False.elim (reads_get False.elim)
  have spec := looks w ((At.start owned self.sq).any id _)
  unfold Finds
  rcases ran : (get env self key : Act World (Except CallError Value)).run w with ⟨e | r, w₁⟩ <;>
    rw [ran] at spec
  · cases e with
    | panic message =>
      obtain ⟨H, stack, -, -, at_⟩ := spec.panicked message rfl
      have start : Pending w₁ self.sq _ w₁ := .start at_.owned
      obtain ⟨_, w₂, dropped, after⟩ := (Pending.dropValue args (E := Never)).returns start
      have whole : (Call.callMethod β env self key args).program.run w =
          (.error (.panic message), w₂) :=
        Act.run_bind_of_error (Act.run_onUnwind_of_panic ran dropped)
      exact (Call.refused_iff whole spec.others after.calm).trans (and_iff_left trivial).symm
    | abort reason =>
      have whole : (Call.callMethod β env self key args).program.run w =
        (.error (.abort reason), w₁) :=
        Act.run_bind_of_error (Act.run_onUnwind_of_end ran (by simp))
      exact iff_of_false (Call.not_refused whole (by simp)) And.right
    | diverge =>
      have whole : (Call.callMethod β env self key args).program.run w = (.error .diverge, w₁) :=
        Act.run_bind_of_error (Act.run_onUnwind_of_end ran (by simp))
      exact iff_of_false (Call.not_refused whole (by simp)) And.right
  · obtain ⟨localMethod, H', -, at_⟩ := spec
    have found := callMethod_refused_iff_found (β := β) self key args ran
      (fun v eq => localMethod v eq v rfl) at_.owned at_.others foreign
    unfold Finds at found
    rwa [ran] at found

end Methods

/-! ## All operations -/

/-- A call that changes nothing of the machine `j`. The references are compared as long as the
process goes on. -/
def Call.Spares (c : Call) (w : World) (j : VmId) : Prop :=
  ∀ r w', c.program.run w = (r, w') → Apart (w j) (w' j) ∧
    ((∀ e, r = .error e → ∃ message, e = .panic message) →
      ∀ o, o.isRefCounted = true → (w' j).refs o = (w j).refs o)

namespace Op

variable {env : Env} {w : World} {L rest : List Object}

/-- The operation checks the handles it gets before it does anything else. `set_delegate` has no
check, and `call_method` checks its arguments once it has found a function. -/
def ChecksFirst (env : Env) (w : World) : Op → Prop
  | table (.setDelegate _ _) => False
  | script (.callMethod self key _ _) =>
    ¬ Local self.sq key.value ∨ Handle.Instance.Finds env self key.value w
  | _ => True

theorem refused_iff (op : Op) (checked : op.Checked) (owned : Owned L w)
    (moved : L.Perm ((op.toCall env).consumed ++ rest))
    (foreign : ∃ o ∈ op.further env, o.sq ≠ (op.toCall env).vm) :
    (op.toCall env).Refused w ↔ op.ChecksFirst env w := by
  have refused : ∀ c : Call, c = op.toCall env → Refuses w c.vm c.consumed c.program →
      (op.toCall env).Refused w := by
    rintro c rfl refuses
    exact refuses.refused owned moved
  cases op with
  | table op =>
    cases op with
    | setDelegate self delegate =>
      cases delegate with
      | none => exact (foreign.elim fun _ absurd => List.not_mem_nil absurd.1).elim
      | some d =>
        obtain ⟨o, mem, ne⟩ := foreign
        obtain rfl := List.mem_singleton.1 mem
        exact iff_of_false (Handle.Table.setDelegate_not_refused owned self d ne) id
    | _ => exact iff_of_true (refused _ rfl (TableOp.guarded _ checked foreign)) trivial
  | cls op => exact iff_of_true (refused _ rfl (ClassOp.guarded _ checked foreign)) trivial
  | array op => exact iff_of_true (refused _ rfl (ArrayOp.guarded _ checked foreign)) trivial
  | inst op =>
    cases op with
    | instanceOf self c =>
      obtain ⟨o, mem, ne⟩ := foreign
      obtain rfl := List.mem_singleton.1 mem
      exact iff_of_true (refused _ rfl (Handle.Instance.instanceOf_refuses self c ne)) trivial
    | _ => exact iff_of_true (refused _ rfl (InstanceOp.guarded _ checked foreign)) trivial
  | native op => exact iff_of_true (refused _ rfl (NativeOp.guarded _ checked foreign)) trivial
  | script op =>
    cases op with
    | call self args out =>
      have : ChecksArgs args.type := checked
      exact iff_of_true (refused _ rfl (Handle.call_refuses self args.value (not_local foreign)))
        trivial
    | callWith self this args out =>
      obtain ⟨_, _⟩ := checked
      exact iff_of_true (refused _ rfl (Handle.callWith_refuses self this.value args.value
        (not_local foreign))) trivial
    | instantiate self args =>
      have : ChecksArgs args.type := checked
      exact iff_of_true (refused _ rfl (Handle.Class.instantiate_refuses self args.value
        (not_local foreign))) trivial
    | callMethod self key args out =>
      obtain ⟨_, _⟩ := checked
      by_cases keyHere : Local self.sq key.value
      · have owned' : Owned (Owns.handles key.value ++ (Owns.handles args.value ++ rest)) w :=
          owned.perm (moved.trans (by rw [← List.append_assoc]; exact .refl _))
        have found : (Call.callMethod out.type env self key.value args.value).Refused w ↔
            Handle.Instance.Finds env self key.value w :=
          Handle.Instance.callMethod_refused_iff_finds self key.value args.value owned'
            fun argsHere => not_local foreign (keyHere.pair argsHere)
        exact found.trans (or_iff_right (not_not_intro keyHere)).symm
      · exact iff_of_true (refused _ rfl (Handle.Instance.callMethod_refuses self key.value
          args.value
          keyHere)) (.inl keyHere)
    | compileStr sq src sourceName =>
      exact (foreign.elim fun _ absurd => List.not_mem_nil absurd.1).elim
    | eval sq src out => exact (foreign.elim fun _ absurd => List.not_mem_nil absurd.1).elim
  | slots op => exact (foreign.elim fun _ absurd => List.not_mem_nil absurd.1).elim
  | machine op => exact (foreign.elim fun _ absurd => List.not_mem_nil absurd.1).elim
  | handle op => exact (foreign.elim fun _ absurd => List.not_mem_nil absurd.1).elim

theorem spares (op : Op) (owned : Owned L w) (moved : L.Perm ((op.toCall env).consumed ++ rest))
    (here : ∀ o ∈ (op.toCall env).consumed ++ op.further env, o.sq = (op.toCall env).vm)
    {j : VmId} (other : j ≠ (op.toCall env).vm) : (op.toCall env).Spares w j := by
  have own : op.OwnDelegate := by
    cases op with
    | table op =>
      cases op with
      | setDelegate self delegate =>
        intro d mem
        obtain rfl := Option.mem_def.1 mem
        exact here d.object (List.mem_singleton.2 rfl)
      | _ => trivial
    | _ => trivial
  have gone : ∀ o, (op.toCall env).consumed.count ⟨j, o⟩ = 0 := fun o =>
    List.count_eq_zero.2 fun mem => other (here _ (List.mem_append_left _ mem))
  have kept : ∀ {L' : List Object} {w' : World}, Owned (L' ++ rest) w' → Apart (w j) (w' j) →
      ∀ o, o.isRefCounted = true → (w' j).refs o = (w j).refs o := by
    intro L' w' owned' apart o counted
    have root : (w' j).root = (w j).root := by rw [apart.same]
    have before := owned.perm moved j o counted
    have after := owned' j o counted
    rw [List.count_append, gone] at before
    rw [List.count_append, root] at after
    have := apart.refs o
    omega
  have accounted : (op.toCall env).Accounted env False w (w (op.toCall env).vm).stack :=
    op.accounted own False.elim False.elim False.elim
  have done := accounted rest w ⟨rfl, (At.start owned _).perm moved⟩
  intro r w' ran
  rw [ran] at done
  cases r with
  | error e =>
    refine ⟨done.others j other, fun panicked => ?_⟩
    obtain ⟨message, rfl⟩ := panicked e rfl
    obtain ⟨H, stack, -, -, at_⟩ := done.panicked message rfl
    exact @kept [] _ at_.owned (at_.others j other)
  | ok a =>
    obtain ⟨stack, H', -, at_⟩ := done
    exact ⟨at_.others j other, fun _ => kept at_.owned (at_.others j other)⟩

end Op

/-! ## Isolation -/

/-- Two machines do not mix: an operation that gets a handle of another machine panics before it has
changed an object of its own machine or anything of the others, exactly when it checks the handle
first; and an operation that gets only handles of its own machine changes nothing of the others. -/
theorem foreign_handles_refused_iff {env : Env} {w : World} {L rest : List Object} (op : Op)
    (checked : op.Checked) (owned : Owned L w)
    (moved : L.Perm ((op.toCall env).consumed ++ rest)) :
    ((∃ o ∈ op.further env, o.sq ≠ (op.toCall env).vm) →
      ((op.toCall env).Refused w ↔ op.ChecksFirst env w)) ∧
    ((∀ o ∈ (op.toCall env).consumed ++ op.further env, o.sq = (op.toCall env).vm) →
      ∀ j, j ≠ (op.toCall env).vm → (op.toCall env).Spares w j) :=
  ⟨op.refused_iff checked owned moved, fun here _ other => op.spares owned moved here other⟩

/-- The root table of the machine 1, as a value for a table of the machine 0. -/
theorem foreign_handles_refused_set : ∃ w : World,
    Owned [(⟨1, 0⟩ : Table).object] w ∧
      (Call.mk 0 [(⟨1, 0⟩ : Table).object]
        (Handle.Table.set .returning ⟨0, 0⟩ (0 : ℤ) (⟨1, 0⟩ : Table))).Refused w := by
  have opened : Owned [] (World.usual .returning) := owned_opened _ _ _
  obtain ⟨s, -, -, owned⟩ := addref_run opened (⟨1, 0⟩ : Table).object
  refine ⟨_, owned, ?_⟩
  exact ((foreign_handles_refused_iff (.table (.set ⟨0, 0⟩ ⟨(0 : ℤ)⟩ ⟨(⟨1, 0⟩ : Table)⟩))
    ⟨inferInstance, inferInstance⟩ owned (.refl _)).1
    ⟨_, List.mem_singleton.2 rfl, one_ne_zero⟩).2 trivial

/-- Two machines, each with a handle of its root table. The one table as the delegate of the other
is not refused: it is left on the stack of its own machine. -/
theorem setDelegate_strays : ∃ w : World,
    Owned [(⟨1, 0⟩ : Table).object, (⟨0, 0⟩ : Table).object] w ∧
      ¬ (Op.toCall .returning (.table (.setDelegate ⟨0, 0⟩ (some ⟨1, 0⟩)))).Refused w ∧
      (((Handle.Table.setDelegate .returning ⟨0, 0⟩ (some ⟨1, 0⟩)).run w).2 1).stack =
        .ref .table 0 :: (w 1).stack := by
  have opened : Owned [] (World.usual .returning) := owned_opened _ _ _
  obtain ⟨s, -, -, first⟩ := addref_run opened (⟨0, 0⟩ : Table).object
  obtain ⟨s', -, -, both⟩ := addref_run first (⟨1, 0⟩ : Table).object
  exact ⟨_, both, Handle.Table.setDelegate_not_refused both ⟨0, 0⟩ ⟨1, 0⟩ (by decide),
    Handle.Table.setDelegate_foreign both ⟨0, 0⟩ ⟨1, 0⟩ (by decide)⟩

end Squirrels
