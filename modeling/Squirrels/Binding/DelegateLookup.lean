import Squirrels.Binding.TableUpdate
import Squirrels.Vm.Delegation

/-!
# Lookup by `get` along delegates

`Table::get` documents which value it finds along the delegates of a table, which `_get` functions
it calls, and that an error of one of them is an error of its own.
-/

namespace Squirrels

open Machines

/-- A machine with a table whose delegate defines `_get` as a script function. -/
def World.withGet (env : Env) : World :=
  let delegate := ((World.usual env) 0).heap.newTable
    ((SQTable.create 0).newSlot env.hash SQMetaMethod.get.key (.ref .closure 0))
  let table := delegate.2.newTable (SQTable.create 0)
  Function.update (World.usual env) 0 { (World.usual env) 0 with
    heap := (table.2.setDelegate table.1 (some delegate.1)).getD table.2 }

/-- A program of functions that return or throw what `outcome` says of their number. -/
def Env.deciding (outcome : ℕ → Except SQObject SQObject) : Env :=
  { Env.returning with
    body := fun s c =>
      { Env.returning.body s c with
        lasterror := match outcome c with
          | .ok _ => s.lasterror
          | .error e => e
        exit := match outcome c with
          | .ok v => .returned v
          | .error _ => .threw }
    body_grows := Env.returning.body_grows
    body_suspends := fun s c point => by
      simp only
      split <;> simp }

namespace Handle.Table

section Get

variable {κ ν : Type} [Owns κ] [IntoSquirrel κ]

/-- The pushes with which `get` begins. -/
def pushKey (env : Env) (self : Table) (key : κ) : Act World Unit := do
  self.object.pushIntoStack
  IntoSquirrel.pushIntoStack env key self.sq

/-- The end of `get`, after `sq_get`. -/
def finishGet [FromSquirrel ν] [Owns ν] (env : Env) (self : Table) (ret : SQRESULT) :
    Act World (Except CallError ν) := do
  match ← ret.toRuntimeError env self.sq 1 with
  | .error e => pure (.error e)
  | .ok () =>
    let val ← takeTop env self.sq 2
    pure (liftError val)

/-- What `get` returns when the lookup ends like this. -/
def Answers [Owns ν] [FromSquirrel ν] [ExactFrom ν] (sq : VmId) :
    Ending → Except CallError ν → Prop
  | .returns v, res => res = liftError (ExactFrom.decode sq v)
  | .notFound, res => ∃ e, res = .error e
  | .throws e _, res => res = .error (.runtime (e.toValue sq))

variable [ExactInto κ]

/-- The chain of delegates of a table, as a lookup of the key finds it. The `_get` functions matter
only when no table has the key. -/
structure HasChain (env : Env) (w : World) (table : Table) (key : κ) (chain : List Level) :
    Prop where
  linked : SQVM.Linked env (w table.sq).heap (ExactInto.encode key) (some table.ref) chain
  behaves : (∀ l ∈ chain, l.slot = none) → ∀ w₁, (pushKey env table key).run w = (.ok (), w₁) →
    ∃ s', SQVM.Behaves env (ExactInto.encode key) chain (w₁ table.sq) s'

/-- `get` answers as the lookup does, and calls a `_get` for the same tables in the same order. -/
structure Follows (ν : Type) [Owns ν] [FromSquirrel ν] [ExactFrom ν] (env : Env) (w : World)
    (table : Table) (key : κ) (lookup : Ending × List ℕ) : Prop where
  result : ∃ res w', (get env table key : Act World (Except CallError ν)).run w = (.ok res, w') ∧
    Answers table.sq lookup.1 res
  calls : ∀ w₁, (pushKey env table key).run w = (.ok (), w₁) →
    SQVM.getCalls env (ExactInto.encode key) ((w₁ table.sq).heap.delegateFuel + 1) table.ref
      (w₁ table.sq) = lookup.2

variable {env : Env} {w w₁ : World} {L : List Object} {self : Table} {key : κ} {s : SQVM}

/-- The table and the key on the stack. -/
theorem pushKey_run (owned : Owned (Owns.handles key ++ L) w)
    (based : (w self.sq).stackbase ≤ (w self.sq).top) (here : Local self.sq key) :
    ∃ w₁, (pushKey env self key).run w = (.ok (), w₁) ∧
      Exactly w self.sq (((w self.sq).push self.obj).push (ExactInto.encode key)) L w₁ := by
  have based' : ((w self.sq).push self.obj).stackbase ≤ ((w self.sq).push self.obj).top :=
    based.trans (Nat.le_succ _)
  have yields : Yields w self.sq (w self.sq) (Owns.handles key ++ L) (pushKey env self key) () _
      L :=
    Yields.bind (Yields.push self.obj) (ExactInto.pushed based' here)
  obtain ⟨u, w₁, ran, -, after⟩ := yields.returns (Exactly.start owned self.sq)
  exact ⟨w₁, ran, after⟩

omit [Owns κ] [ExactInto κ] in
/-- `get` after its arguments. -/
theorem get_run [FromSquirrel ν] [Owns ν] {ret : SQRESULT}
    (pushed : (pushKey env self key).run w = (.ok (), w₁))
    (ran : (Api.sqGet env (-2)).run (w₁ self.sq) = (.ok ret, s)) :
    (get env self key : Act World (Except CallError ν)).run w =
      (finishGet env self ret).run (Function.update w₁ self.sq s) := by
  have split : (get env self key : Act World (Except CallError ν)) = (do
      pushKey env self key
      let ret ← (Api.sqGet env (-2)).on self.sq
      finishGet env self ret) := by
    unfold pushKey
    simp only [Act.bind_bind]
    rfl
  have called : ((Api.sqGet env (-2)).on self.sq).run w₁ =
      (.ok ret, Function.update w₁ self.sq s) := by
    rw [Act.run_on, ran]
  rw [split, Act.run_bind_of_ok pushed, Act.run_bind_of_ok called]

variable [Owns ν] [FromSquirrel ν] [ExactFrom ν] {s' : SQVM}

/-- What `sq_get` leaves in place of the key is converted and returned. -/
theorem get_returns (based : (w self.sq).stackbase ≤ (w self.sq).top)
    (pushed : (pushKey env self key).run w = (.ok (), w₁))
    (after : Exactly w self.sq (((w self.sq).push self.obj).push (ExactInto.encode key)) L w₁)
    {v : SQObject} (kept : Kept env (w₁ self.sq) s') (same : SameRefs env (w₁ self.sq) s')
    (ran : (Api.sqGet env (-2)).run (w₁ self.sq) = (.ok .ok, s'.setUp 0 v)) :
    ∃ w', (get env self key : Act World (Except CallError ν)).run w =
      (.ok (liftError (ExactFrom.decode self.sq v)), w') := by
  have slots : (s'.setUp 0 v).stack = v :: self.obj :: (w self.sq).stack := by
    show s'.stack.set 0 v = _
    rw [kept.stack, after.machine]
    rfl
  have base : (s'.setUp 0 v).stackbase = (w self.sq).stackbase := by
    show s'.stackbase = _
    rw [kept.stackbase, after.machine]
    rfl
  have top : (s'.setUp 0 v).up 0 = v := by
    unfold SQVM.up
    rw [slots]
    rfl
  have enough : (s'.setUp 0 v).stackbase + 2 ≤ (s'.setUp 0 v).top := by
    rw [base, SQVM.top, slots, List.length_cons, List.length_cons]
    exact Nat.add_le_add_right based 2
  have owned₂ : Owned L (Function.update w₁ self.sq (s'.setUp 0 v)) :=
    after.owned.update same.refs same.root
  obtain ⟨e, taken⟩ := @takeTop_exact env (Function.update w₁ self.sq (s'.setUp 0 v)) _ L ν _ _ _
    self.sq 2 Nat.two_pos enough
  rw [top] at taken
  have start := Exactly.start owned₂ self.sq
  rw [Function.update_self] at start
  have rest : Yields _ self.sq (s'.setUp 0 v) L (finishGet env self .ok) _ _ _ :=
    Yields.bind (Yields.pure (Except.ok ())) (Yields.bind taken (Yields.pure _))
  rw [get_run pushed ran]
  obtain ⟨res, w', ran', rfl, -⟩ := rest.returns start
  exact ⟨w', ran'⟩

omit [ExactFrom ν] in
/-- The error of a failed `sq_get` is returned. -/
theorem get_fails (based : (w self.sq).stackbase ≤ (w self.sq).top)
    (pushed : (pushKey env self key).run w = (.ok (), w₁))
    (after : Exactly w self.sq (((w self.sq).push self.obj).push (ExactInto.encode key)) L w₁)
    (kept : Kept env (w₁ self.sq) s') (same : SameRefs env (w₁ self.sq) s')
    (ran : (Api.sqGet env (-2)).run (w₁ self.sq) = (.ok .error, s'.pop 1)) :
    ∃ w', (get env self key : Act World (Except CallError ν)).run w =
      (.ok (.error (.runtime (s'.lasterror.toValue self.sq))), w') := by
  have slots : (s'.pop 1).stack = self.obj :: (w self.sq).stack := by
    show s'.stack.drop 1 = _
    rw [kept.stack, after.machine]
    rfl
  have base : (s'.pop 1).stackbase = (w self.sq).stackbase := by
    show s'.stackbase = _
    rw [kept.stackbase, after.machine]
    rfl
  have enough : (s'.pop 1).stackbase + 1 ≤ (s'.pop 1).top := by
    rw [base, SQVM.top, slots, List.length_cons]
    exact Nat.add_le_add_right based 1
  have owned₂ : Owned L (Function.update w₁ self.sq (s'.pop 1)) :=
    after.owned.update same.refs same.root
  have start := Exactly.start owned₂ self.sq
  rw [Function.update_self] at start
  have rest : Yields (Function.update w₁ self.sq (s'.pop 1)) self.sq (s'.pop 1) L
      (finishGet env self .error : Act World (Except CallError ν)) _ _ _ :=
    Yields.bind (Yields.toRuntimeError one_pos enough) (Yields.pure _)
  rw [get_run pushed ran]
  obtain ⟨res, w', ran', rfl, -⟩ := rest.returns start
  exact ⟨w', ran'⟩

/-- `get` does what `Get` makes of the chain. -/
theorem get_fetched {chain : List Level} (owned : Owned (Owns.handles key ++ L) w)
    (based : (w self.sq).stackbase ≤ (w self.sq).top) (here : Local self.sq key)
    (hasChain : HasChain env w self key chain) :
    ∃ w₁, (pushKey env self key).run w = (.ok (), w₁) ∧
      SQVM.getCalls env (ExactInto.encode key) ((w₁ self.sq).heap.delegateFuel + 1) self.ref
        (w₁ self.sq) = (fetchedGet chain).2 ∧
      ∃ w', (get env self key : Act World (Except CallError ν)).run w =
        (.ok (match (fetchedGet chain).1 with
          | .returns v => liftError (ExactFrom.decode self.sq v)
          | .notFound => .error
            (.runtime ((SQVM.idxError env (ExactInto.encode key)).toValue self.sq))
          | .throws e _ => .error (.runtime (e.toValue self.sq))), w') := by
  obtain ⟨w₁, pushed, after⟩ := @pushKey_run κ _ _ _ env w L self key owned based here
  refine ⟨w₁, pushed, ?_⟩
  have found : (w₁ self.sq).stackGet (-2) = .ref .table self.ref := by rw [after.machine]; rfl
  have slot : (w₁ self.sq).up 0 = ExactInto.encode key := by rw [after.machine]; rfl
  have heap : (w₁ self.sq).heap = (w self.sq).heap := by rw [after.machine]; rfl
  have linked : SQVM.Linked env (w₁ self.sq).heap (ExactInto.encode key) (some self.ref) chain :=
    heap ▸ hasChain.linked
  have climbs := (w₁ self.sq).climbs (.ref .table self.ref)
  -- `sq_get` around `getAt`
  have ran : ∀ r s, (SQVM.getAt env ((w₁ self.sq).heap.delegateFuel + 1) true
      (.ref .table self.ref) (ExactInto.encode key)).run (w₁ self.sq) = (.ok r, s) →
      (Api.sqGet env (-2)).run (w₁ self.sq) =
        if r.1 then (.ok .ok, s.setUp 0 r.2) else (.ok .error, s.pop 1) := by
    intro r s ran
    have got : (SQVM.get env (.ref .table self.ref) (ExactInto.encode key)).run (w₁ self.sq) =
        (.ok r, s) := ran
    unfold Api.sqGet
    rw [Act.run_bind_of_ok (Act.run_get _), found, slot, Act.run_bind_of_ok got]
    obtain ⟨flag, o⟩ := r
    cases flag <;> rfl
  cases first : chain.findSome? Level.slot with
  | some v =>
    obtain ⟨got, calls⟩ := SQVM.getAt_slot true linked first climbs
    simp only [fetchedGet, first]
    refine ⟨calls, get_returns based pushed after (.refl _) (.refl _) ?_⟩
    exact (ran _ _ got).trans (if_pos rfl)
  | none =>
    have absent : ∀ l ∈ chain, l.slot = none := List.findSome?_eq_none_iff.1 first
    obtain ⟨s', behaves⟩ := hasChain.behaves absent w₁ pushed
    obtain ⟨gets, calls⟩ := SQVM.getAt_run true linked absent behaves climbs
    obtain ⟨kept, same⟩ := behaves.kept
    simp only [fetchedGet, first]
    refine ⟨calls, ?_⟩
    generalize got : (SQVM.getAt env ((w₁ self.sq).heap.delegateFuel + 1) true
      (.ref .table self.ref) (ExactInto.encode key)).run (w₁ self.sq) = outcome at gets
    generalize (fetchedGets chain).1 = ending at gets
    cases gets with
    | returns kept' same' =>
      exact get_returns based pushed after kept' same' ((ran _ _ got).trans (if_pos rfl))
    | notFound =>
      have failed := (ran _ _ got).trans (if_neg Bool.false_ne_true)
      exact get_fails based pushed after (kept.trans (.raiseIdxError s' _))
        (same.trans ⟨rfl, rfl, fun _ => rfl, le_rfl⟩) failed
    | throws thrown =>
      have failed := (ran _ _ got).trans (if_neg Bool.false_ne_true)
      subst thrown
      exact get_fails based pushed after kept same failed

/-- `get` follows its documented lookup exactly when a table has the key or every error that decides
the lookup is kept. -/
theorem get_follows_iff {chain : List Level} (owned : Owned (Owns.handles key ++ L) w)
    (based : (w self.sq).stackbase ≤ (w self.sq).top) (here : Local self.sq key)
    (hasChain : HasChain env w self key chain) :
    Follows ν env w self key (documentedGet chain) ↔
      (∃ l ∈ chain, l.slot ≠ none) ∨
        ErrorsKept (SQVM.idxError env (ExactInto.encode key)) chain := by
  obtain ⟨w₁, pushed, calls, w', ran⟩ := @get_fetched κ ν _ _ _ env w L self key _ _ _ chain owned
    based here hasChain
  have only : ∀ w₂, (pushKey env self key).run w = (.ok (), w₂) → w₂ = w₁ := fun w₂ pushed' => by
    rw [pushed] at pushed'
    exact (congrArg Prod.snd pushed').symm
  cases first : chain.findSome? Level.slot with
  | some v =>
    simp only [fetchedGet, first] at calls ran
    simp only [documentedGet, first]
    obtain ⟨l, mem, slot⟩ := List.exists_of_findSome?_eq_some first
    refine iff_of_true ⟨⟨_, w', ran, rfl⟩, fun w₂ pushed' => ?_⟩
      (.inl ⟨l, mem, fun none => ?_⟩)
    · rw [only w₂ pushed']
      exact calls
    · rw [none] at slot
      cases slot
  | none =>
    simp only [fetchedGet, first] at calls ran
    simp only [documentedGet, first]
    constructor
    · intro follows
      refine .inr ?_
      by_contra lost
      obtain ⟨e, nonnull, called, rule, differs⟩ := fetchedGets_of_not_errorsKept lost
      rw [rule] at follows
      obtain ⟨⟨res, w₂, ran', answer⟩, called'⟩ := follows
      rcases differs with more | ⟨notFound, other⟩
      · exact more (calls.symm.trans (called' w₁ pushed))
      · rw [ran, notFound] at ran'
        obtain rfl := Except.ok.inj (congrArg Prod.fst ran')
        have same := CallError.runtime.inj (Except.error.inj answer)
        have slots := congrArg Value.slot same
        rw [SQObject.slot_toValue, SQObject.slot_toValue] at slots
        exact other slots.symm
    · rintro (⟨l, mem, slot⟩ | kept)
      · exact absurd (List.findSome?_eq_none_iff.1 first l mem) slot
      · rcases fetchedGets_of_errorsKept kept with rule | ⟨nonnull, rule, notFound⟩
        · rw [← rule]
          refine ⟨⟨_, w', ran, ?_⟩, fun w₂ pushed' => only w₂ pushed' ▸ calls⟩
          cases (fetchedGets chain).1 with
          | returns v => exact rfl
          | notFound => exact ⟨_, rfl⟩
          | throws e nonnull => exact rfl
        · rw [rule]
          rw [notFound] at ran
          exact ⟨⟨_, w', ran, rfl⟩, fun w₂ pushed' => only w₂ pushed' ▸ calls⟩

end Get

/-- A key that the `_get` of the delegate finds. -/
theorem get_follows_iff_returned :
    let base := ((World.usual .returning) 0).heap.tables.next
    let chain : List Level :=
      [⟨base + 1, none, some (.returns (.integer 1))⟩, ⟨base, none, none⟩]
    Follows Value .returning (World.withGet .returning) ⟨0, base + 1⟩ (1 : ℤ)
      (documentedGet chain) := by
  intro base chain
  have owned : Owned [] (World.withGet .returning) := (owned_opened _ _ _).update rfl rfl
  obtain ⟨based, absent, delegate, absent', last⟩ :
      (World.withGet .returning 0).stackbase ≤ (World.withGet .returning 0).top ∧
      (World.withGet .returning 0).heap.tableGet (Env.hash .returning) (base + 1) (.integer 1) =
        none ∧
      (World.withGet .returning 0).heap.delegates (base + 1) = some base ∧
      (World.withGet .returning 0).heap.tableGet (Env.hash .returning) base (.integer 1) = none ∧
      (World.withGet .returning 0).heap.delegates base = none := by decide +kernel
  have linked : SQVM.Linked .returning (World.withGet .returning 0).heap (.integer 1)
      (some (base + 1)) chain := by
    refine ⟨rfl, absent, ?_⟩
    rw [delegate]
    refine ⟨rfl, absent', ?_⟩
    rw [last]
    rfl
  have kept : ErrorsKept (SQVM.idxError .returning (.integer 1)) chain := by
    intro shallower l deeper e nonnull split _ throws
    have mem : l ∈ chain := split ▸ List.mem_append_right _ List.mem_cons_self
    rcases List.mem_cons.1 mem with rfl | mem
    · cases throws
    · rw [List.mem_singleton.1 mem] at throws
      cases throws
  refine (@get_follows_iff ℤ Value _ _ _ .returning (World.withGet .returning) [] ⟨0, base + 1⟩ 1 _
    _ _ chain owned based (fun o mem => absurd mem List.not_mem_nil)
    ⟨linked, fun _ w₁ pushed => ?_⟩).2 (.inr kept)
  -- the machine in which `sq_get` is called
  have asked : w₁ 0 = ((pushKey .returning ⟨0, base + 1⟩ (1 : ℤ)).run
      (World.withGet .returning)).2 0 := by rw [pushed]
  obtain ⟨base₁, lacks, undefined, defined, result, calm, lacks'⟩ :
      (w₁ 0).stackbase ≤ (w₁ 0).top ∧
      (w₁ 0).invokeDefaultDelegate .returning (.ref .table base) (.integer 1) = none ∧
      (w₁ 0).getMetaMethod .returning (.ref .table base) .get = none ∧
      (w₁ 0).getMetaMethod .returning (.ref .table (base + 1)) .get = some (.ref .closure 0) ∧
      ((w₁ 0).callMetaMethod .returning (.ref .closure 0)
        [.ref .table (base + 1), .integer 1]).1 = .returned (.integer 1) ∧
      ((w₁ 0).callMetaMethod .returning (.ref .closure 0)
        [.ref .table (base + 1), .integer 1]).2.stranded = (w₁ 0).stranded ∧
      ((w₁ 0).callMetaMethod .returning (.ref .closure 0)
        [.ref .table (base + 1), .integer 1]).2.invokeDefaultDelegate .returning
          (.ref .table (base + 1)) (.integer 1) = none := by
    rw [asked]
    decide +kernel
  have ended : Kept .returning (w₁ 0) ((w₁ 0).callMetaMethod .returning (.ref .closure 0)
      [.ref .table (base + 1), .integer 1]).2 :=
    SQVM.callMetaMethod_kept _ _ _ (fun c eq => by cases eq) base₁ calm
  exact ⟨_, w₁ 0, ⟨w₁ 0, rfl, ⟨undefined, rfl⟩, lacks⟩,
    ⟨_, defined, Prod.ext result rfl, ended, fun e absurd => by cases absurd⟩, lacks'⟩

/-- The `_get` of a delegate of a delegate throws, and that of the delegate is called after it. -/
theorem get_continues_after_error :
    let env := Env.deciding fun c => if c = 0 then .error (.integer 7) else .ok (.integer 1)
    ((do
        match ← Squirrel.compileStr env 0 [] [], ← Squirrel.compileStr env 0 [] [] with
        | .ok throwing, .ok returning =>
          let deep ← new env 0
          let _ ← set env deep (Bytes.mk (ascii "_get")) throwing
          let delegate ← new env 0
          let _ ← set env delegate (Bytes.mk (ascii "_get")) returning
          let _ ← setDelegate env delegate (some deep)
          let table ← new env 0
          let _ ← setDelegate env table (some delegate)
          let found : Except CallError ℤ ← get env table (5 : ℤ)
          pure (some found)
        | _, _ => pure none).run (World.usual env)).1 = .ok (some (.ok 1)) := by
  decide +kernel

end Handle.Table

end Squirrels
