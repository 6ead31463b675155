import Squirrels.Binding.TableUpdate

/-!
# Setting the slots of a table

`set` makes a slot itself, or leaves it to the `_newslot` of the immediate delegate. `sq_newslot`
does not look at what `SQVM::NewSlot` returns, so `set` reports success whatever the metamethod
does.
-/

namespace Squirrels

open Machines

/-- A machine with a table whose delegate defines `_newslot` as a script function. -/
def World.withNewslot (env : Env) : World :=
  let delegate := ((World.usual env) 0).heap.newTable
    ((SQTable.create 0).newSlot env.hash SQMetaMethod.newslot.key (.ref .closure 0))
  let table := delegate.2.newTable (SQTable.create 0)
  Function.update (World.usual env) 0 { (World.usual env) 0 with
    heap := (table.2.setDelegate table.1 (some delegate.1)).getD table.2 }

/-- The table of `World.withNewslot`. -/
def World.divertedTable (env : Env) : Table := ⟨0, ((World.usual env) 0).heap.tables.next + 1⟩

namespace Handle.Table

/-- The `_newslot` of the immediate delegate. -/
def newslotOf (env : Env) (w : World) (self : Table) : Option SQObject :=
  (w self.sq).getMetaMethod env self.obj .newslot

section Set

variable {κ ν : Type} [Owns κ] [IntoSquirrel κ] [Owns ν] [IntoSquirrel ν]

/-- The pushes with which `set` begins. -/
def pushArguments (env : Env) (self : Table) (key : κ) (value : ν) : Act World Unit := do
  self.object.pushIntoStack
  (IntoSquirrel.pushIntoStack env key self.sq).onUnwind (dropValue value)
  IntoSquirrel.pushIntoStack env value self.sq

/-- The call of a `_newslot` on machines where the arguments of `set` have been pushed. -/
def newslotCall (env : Env) (w₁ : World) (self : Table) (closure key val : SQObject) :
    CallResult × SQVM :=
  (w₁ self.sq).callMetaMethod env closure [self.obj, key, val]

variable [ExactInto κ] [ExactInto ν]

/-- What is documented of `set`. -/
structure ReportsFailures (env : Env) (w : World) (table : Table) (key : κ) (value : ν) : Prop where
  null : ExactInto.encode key = .null → ∃ w' v,
    (set env table key value).run w = (.ok (.error (.runtime v)), w') ∧
      slots w' table = slots w table
  direct : ExactInto.encode key ≠ .null →
    HasSlot w table (ExactInto.encode key) ∨ newslotOf env w table = none →
    ∃ w' t, (set env table key value).run w = (.ok (.ok ()), w') ∧ Rewritten w w' table t ∧
      (slots w table).Put t (ExactInto.encode key) (ExactInto.encode value)
  /-- The metamethod is called once, and its outcome is that of `set`. -/
  diverted : ∀ closure, ExactInto.encode key ≠ .null → ¬ HasSlot w table (ExactInto.encode key) →
    newslotOf env w table = some closure →
    ∃ w₁ res w', (pushArguments env table key value).run w = (.ok (), w₁) ∧
      (set env table key value).run w = (.ok res, w') ∧
      w' table.sq = { (newslotCall env w₁ table closure (ExactInto.encode key)
        (ExactInto.encode value)).2.pop 3 with
          refs := (w' table.sq).refs, overflowed := (w' table.sq).overflowed } ∧
      (res = .ok () ↔ Returned (w₁ table.sq) (newslotCall env w₁ table closure
        (ExactInto.encode key) (ExactInto.encode value))) ∧
      ((newslotCall env w₁ table closure (ExactInto.encode key)
          (ExactInto.encode value)).1.ok = false →
        res = .error (.runtime ((newslotCall env w₁ table closure (ExactInto.encode key)
          (ExactInto.encode value)).2.lasterror.toValue table.sq)))

variable {env : Env} {w w₁ : World} {L : List Object} {self : Table} {key : κ} {value : ν}

/-- The arguments of `set` on the stack. -/
theorem pushArguments_run (owned : Owned (Owns.handles (key, value) ++ L) w)
    (based : (w self.sq).stackbase ≤ (w self.sq).top) (here : Local self.sq (key, value)) :
    ∃ w₁, (pushArguments env self key value).run w = (.ok (), w₁) ∧
      Exactly w self.sq ((((w self.sq).push self.obj).push (ExactInto.encode key)).push
        (ExactInto.encode value)) L w₁ := by
  have yields : Yields w self.sq (w self.sq) (Owns.handles (key, value) ++ L) (do
      pushArguments env self key value
      pure ()) () ((((w self.sq).push self.obj).push (ExactInto.encode key)).push
        (ExactInto.encode value)) L := by
    unfold pushArguments
    rw [Act.bind_bind]
    simp only [Act.bind_bind]
    exact pushArguments_yields based here (Yields.pure ())
  obtain ⟨u, w₁, ran, rfl, after⟩ := yields.returns (Exactly.start owned self.sq)
  refine ⟨w₁, ?_, after⟩
  rw [Act.run_bind] at ran
  rcases eq : (pushArguments env self key value).run w with ⟨e | u, w₂⟩
  · rw [eq] at ran
    cases ran
  · rw [eq] at ran
    cases ran
    rfl

omit [Owns κ] [ExactInto κ] [ExactInto ν] in
/-- `set` after its arguments, when `sq_newslot` reports success. -/
theorem set_run_of_ok (pushed : (pushArguments env self key value).run w = (.ok (), w₁)) {s : SQVM}
    (ran : (Api.sqNewslot env (-3) false).run (w₁ self.sq) = (.ok .ok, s)) :
    (set env self key value).run w = (do
      Squirrel.pop self.sq 1
      pure (Except.ok ()) : Act World (Except CallError Unit)).run
        (Function.update w₁ self.sq s) := by
  have split : set env self key value = (do
      pushArguments env self key value
      let ret ← (Api.sqNewslot env (-3) false).on self.sq
      ret.finishUpdate env self.sq 3) := by
    unfold pushArguments
    simp only [Act.bind_bind]
    rfl
  have called : ((Api.sqNewslot env (-3) false).on self.sq).run w₁ =
      (.ok .ok, Function.update w₁ self.sq s) := by
    rw [Act.run_on, ran]
  rw [split, Act.run_bind_of_ok pushed, Act.run_bind_of_ok called]
  rfl

/-- A key has a slot exactly when `Get` finds it. -/
theorem hasSlot_iff (wf : (slots w self).WellFormed env.hash) {k : SQObject}
    (nonnull : k ≠ .null) :
    HasSlot w self k ↔ ((w self.sq).heap.tableGet env.hash self.ref k).isSome = true := by
  unfold HasSlot Heap.tableGet
  rw [Option.isSome_map, Option.isSome_iff_exists]
  refine ⟨fun ⟨_, v, holds⟩ => ⟨v, (wf.get_eq_some_iff nonnull).2 holds⟩, fun ⟨v, found⟩ => ?_⟩
  exact ⟨nonnull, v, (wf.get_eq_some_iff nonnull).1 found⟩

/-- `sq_newslot` calls the metamethod and reports success. -/
theorem sqNewslot_diverted (based : (w self.sq).stackbase ≤ (w self.sq).top)
    (wf : (slots w self).WellFormed env.hash) (nonnull : ExactInto.encode key ≠ .null)
    (absent : ¬ HasSlot w self (ExactInto.encode key)) {closure : SQObject}
    (defined : newslotOf env w self = some closure)
    (after : Exactly w self.sq ((((w self.sq).push self.obj).push (ExactInto.encode key)).push
      (ExactInto.encode value)) L w₁) :
    (Api.sqNewslot env (-3) false).run (w₁ self.sq) =
      (.ok .ok, (newslotCall env w₁ self closure (ExactInto.encode key)
        (ExactInto.encode value)).2.pop 2) := by
  rw [hasSlot_iff wf nonnull, Bool.not_eq_true, Option.isSome_eq_false_iff,
    Option.isNone_iff_eq_none]
    at absent
  have keyHere : (w₁ self.sq).up 1 = ExactInto.encode key := by rw [after.machine]; rfl
  have valueHere : (w₁ self.sq).up 0 = ExactInto.encode value := by rw [after.machine]; rfl
  have found : (w₁ self.sq).stackGet (-3) = .ref .table self.ref := by rw [after.machine]; rfl
  have heap : (w₁ self.sq).heap = (w self.sq).heap := by rw [after.machine]; rfl
  have absent₁ : (w₁ self.sq).heap.tableGet env.hash self.ref (ExactInto.encode key) = none := by
    rw [heap]
    exact absent
  have defined₁ : (w₁ self.sq).getMetaMethod env (.ref .table self.ref) .newslot =
      some closure := by
    rw [after.machine]
    exact defined
  have deep : 3 ≤ (w₁ self.sq).depth := by
    rw [after.machine]
    show 3 ≤ (w self.sq).top + 3 - (w self.sq).stackbase
    omega
  apply Api.sqNewslot_run deep found (by rw [keyHere]; exact nonnull)
  rw [keyHere, valueHere]
  exact SQVM.newSlot_table_diverted nonnull absent₁ defined₁ false

/-- A metamethod that returns lets `set` return. -/
theorem set_returned (based : (w self.sq).stackbase ≤ (w self.sq).top) {closure : SQObject}
    {r : CallResult × SQVM}
    (pushed : (pushArguments env self key value).run w = (.ok (), w₁))
    (after : Exactly w self.sq ((((w self.sq).push self.obj).push (ExactInto.encode key)).push
      (ExactInto.encode value)) L w₁)
    (called : newslotCall env w₁ self closure (ExactInto.encode key) (ExactInto.encode value) = r)
    (ran : (Api.sqNewslot env (-3) false).run (w₁ self.sq) = (.ok .ok, r.2.pop 2))
    (returned : Returned (w₁ self.sq) r) :
    ∃ w', (set env self key value).run w = (.ok (.ok ()), w') ∧ w' self.sq =
      { r.2.pop 3 with refs := (w' self.sq).refs, overflowed := (w' self.sq).overflowed } := by
  subst called
  have base₁ : (w₁ self.sq).stackbase ≤ (w₁ self.sq).top := by
    rw [after.machine]
    show (w self.sq).stackbase ≤ (w self.sq).top + 3
    omega
  have kept : Kept env _ (newslotCall env w₁ self closure (ExactInto.encode key)
      (ExactInto.encode value)).2 :=
    SQVM.callMetaMethod_settled closure self.obj [ExactInto.encode key, ExactInto.encode value]
      (fun c eq => by cases eq) base₁ (.inr returned)
  have same : SameRefs env (w₁ self.sq) (newslotCall env w₁ self closure (ExactInto.encode key)
      (ExactInto.encode value)).2 := SQVM.callMetaMethod_refs env _ _ _
  rw [set_run_of_ok pushed ran]
  generalize newslotCall env w₁ self closure (ExactInto.encode key) (ExactInto.encode value) = r
    at *
  have owned₂ : Owned L (Function.update w₁ self.sq (r.2.pop 2)) :=
    after.owned.update same.refs same.root
  have height : (r.2.pop 2).top = (w self.sq).top + 1 := by
    show (r.2.stack.drop 2).length = _
    rw [kept.stack, after.machine]
    rfl
  have base₂ : (r.2.pop 2).stackbase = (w self.sq).stackbase := by
    show r.2.stackbase = _
    rw [kept.stackbase, after.machine]
    rfl
  have popped : Yields (Function.update w₁ self.sq (r.2.pop 2)) self.sq (r.2.pop 2) L
      (do
        Squirrel.pop self.sq 1
        pure (Except.ok ()) : Act World (Except CallError Unit))
      (.ok ()) ((r.2.pop 2).pop 1) L := by
    refine Yields.bind (Yields.pop (n := 1) one_pos ?_) (Yields.pure _)
    rw [height, base₂]
    omega
  have start := Exactly.start owned₂ self.sq
  rw [Function.update_self] at start
  obtain ⟨res, w', ran', rfl, done⟩ := popped.returns start
  refine ⟨w', ran', ?_⟩
  have drops : (r.2.pop 2).pop 1 = r.2.pop 3 := by
    unfold SQVM.pop
    rw [List.drop_drop]
  rw [← drops]
  exact done.machine

variable (owned : Owned (Owns.handles (key, value) ++ L) w)
  (based : (w self.sq).stackbase ≤ (w self.sq).top) (here : Local self.sq (key, value))

include owned based here

theorem set_null (null : ExactInto.encode key = .null) :
    ∃ w' v, (set env self key value).run w = (.ok (.error (.runtime v)), w') ∧
      slots w' self = slots w self := by
  refine setWith_refuses (n := 3) owned based here
    (Api.sqNewslot_null_computes ?_ rfl null) rfl (by decide) ?_ rfl
  · show 3 ≤ (w self.sq).top + 3 - (w self.sq).stackbase
    omega
  · show (w self.sq).stackbase + 3 ≤ (w self.sq).top + 3
    omega

theorem set_direct (wf : (slots w self).WellFormed env.hash)
    (nonnull : ExactInto.encode key ≠ .null)
    (direct : HasSlot w self (ExactInto.encode key) ∨ newslotOf env w self = none) :
    ∃ w', (set env self key value).run w = (.ok (.ok ()), w') ∧ Rewritten w w' self
      ((slots w self).newSlot env.hash (ExactInto.encode key) (ExactInto.encode value)) := by
  rw [hasSlot_iff wf nonnull] at direct
  refine setWith_rewrites owned based here
    (Api.sqNewslot_table_computes ?_ rfl nonnull direct)
  show 3 ≤ (w self.sq).top + 3 - (w self.sq).stackbase
  omega

/-- `set` reports failures exactly when the `_newslot` it calls, if it calls one, returns. -/
theorem set_reports_iff (reachable : (slots w self).Reachable env.hash) :
    ReportsFailures env w self key value ↔
      ∀ closure w₁, ExactInto.encode key ≠ .null → ¬ HasSlot w self (ExactInto.encode key) →
        newslotOf env w self = some closure →
        (pushArguments env self key value).run w = (.ok (), w₁) →
        Returned (w₁ self.sq) (newslotCall env w₁ self closure (ExactInto.encode key)
          (ExactInto.encode value)) := by
  have wf := reachable.wellFormed
  obtain ⟨w₁, pushed, after⟩ := @pushArguments_run κ ν _ _ _ _ _ _ env w L self key value owned
    based here
  constructor
  · -- success is reported in any case, so the metamethod has returned
    intro reports closure w₂ nonnull absent defined pushed'
    obtain ⟨w₂', res, w', pushed'', ran, -, iff_, -⟩ :=
      reports.diverted closure nonnull absent defined
    rw [pushed] at pushed' pushed''
    cases pushed'
    cases pushed''
    rw [set_run_of_ok pushed (sqNewslot_diverted based wf nonnull absent defined after),
      Act.run_bind] at ran
    split at ran
    · cases ran
      exact iff_.1 rfl
    · cases ran
  · intro completes
    refine ⟨set_null owned based here, fun nonnull direct => ?_, ?_⟩
    · obtain ⟨w', ran, rewritten⟩ := set_direct owned based here wf nonnull direct
      exact ⟨w', _, ran, rewritten, (wf.newSlot nonnull _).2⟩
    · intro closure nonnull absent defined
      have returned := completes closure w₁ nonnull absent defined pushed
      obtain ⟨w', ran, left⟩ := set_returned based pushed after rfl
        (sqNewslot_diverted based wf nonnull absent defined after) returned
      refine ⟨w₁, .ok (), w', pushed, ran, left, ⟨fun _ => returned, fun _ => rfl⟩,
        fun failed => ?_⟩
      rw [returned.1] at failed
      cases failed

end Set

/-- A slot that a `_newslot` is asked for, and that it does not refuse. -/
theorem set_reports_iff_returned :
    ReportsFailures .returning (World.withNewslot .returning) (World.divertedTable .returning)
      (1 : ℤ) (5 : ℤ) := by
  have owned : Owned [] (World.withNewslot .returning) := (owned_opened _ _ _).update rfl rfl
  have based : (World.withNewslot .returning 0).stackbase ≤
      (World.withNewslot .returning 0).top := by decide +kernel
  have reachable : (slots (World.withNewslot .returning)
      (World.divertedTable .returning)).Reachable (Env.hash .returning) := by
    have content : slots (World.withNewslot .returning) (World.divertedTable .returning) =
        SQTable.create 0 := by decide +kernel
    rw [content]
    exact .create 0
  have here : Local 0 ((1, 5) : ℤ × ℤ) := fun o mem => absurd mem List.not_mem_nil
  apply (@set_reports_iff ℤ ℤ _ _ _ _ _ _ .returning _ [] (World.divertedTable .returning) 1 5 owned
    based here reachable).2
  intro closure w₁ _ _ defined pushed
  have defined' : newslotOf .returning (World.withNewslot .returning)
      (World.divertedTable .returning) = some (.ref .closure 0) := by decide +kernel
  rw [defined'] at defined
  cases defined
  have ok : (newslotCall .returning ((pushArguments .returning (World.divertedTable .returning)
      (1 : ℤ) (5 : ℤ)).run (World.withNewslot .returning)).2 (World.divertedTable .returning)
      (.ref .closure 0) (.integer 1) (.integer 5)).1.ok = true ∧
      (newslotCall .returning ((pushArguments .returning (World.divertedTable .returning)
      (1 : ℤ) (5 : ℤ)).run (World.withNewslot .returning)).2 (World.divertedTable .returning)
      (.ref .closure 0) (.integer 1) (.integer 5)).2.suspended =
      (((pushArguments .returning (World.divertedTable .returning)
      (1 : ℤ) (5 : ℤ)).run (World.withNewslot .returning)).2 0).suspended := by decide +kernel
  rw [pushed] at ok
  exact ok

/-- A `_newslot` that throws: `set` succeeds, and there is no slot. -/
theorem set_loses_error :
    ((do
        match ← Squirrel.compileStr .throwing 0 [] [] with
        | .error _ => pure none
        | .ok function =>
          let delegate ← new .throwing 0
          let _ ← set .throwing delegate (Bytes.mk (ascii "_newslot")) function
          let table ← new .throwing 0
          let _ ← setDelegate .throwing table (some delegate)
          let result ← set .throwing table (1 : ℤ) (5 : ℤ)
          let n ← table.len
          pure (some (result, n))).run (World.usual .throwing)).1 =
      .ok (some (.ok (), 0)) := by
  decide +kernel

end Handle.Table

end Squirrels
