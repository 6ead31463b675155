import Squirrels.Binding.ClassWrite

/-!
# Access to the fields of an instance

`set` leaves its arguments to the binding when it fails. `sq_rawset` pops them for a null key and
leaves them for a key that is not a field, and `raw_set` always counts on the former, so it leaves
two slots on the stack for a key that is not a field.
-/

namespace Squirrels

open Machines

/-- A machine that has just been opened, with a class of one field and an instance of it. -/
def World.withInstance (env : Env) : World :=
  let cls := ((World.usual env) 0).heap.newClass env.hash none
  let slot := cls.2.classNewSlot env.hash cls.1 (.integer 1) (.integer 5) false
  Function.update (World.usual env) 0
    { (World.usual env) 0 with heap := (slot.2.createInstance cls.1).2 }

/-- The instance of `World.withInstance`. -/
def World.instanceMade (env : Env) : Instance := ⟨0, ((World.usual env) 0).heap.instances.next⟩

namespace Handle.Instance

/-- The operation has changed nothing but the last error, and the heap to `heap`. -/
structure LeavesOnly (w w' : World) (vm : VmId) (heap : Heap) : Prop where
  heap : (w' vm).heap = heap
  stack : (w' vm).stack = (w vm).stack
  stackbase : (w' vm).stackbase = (w vm).stackbase
  others : ∀ j, j ≠ vm → Apart (w j) (w' j)

/-- What is asked of a write: it is made exactly when the key names a field, and otherwise it is an
error that leaves no trace. -/
structure WritesFields (env : Env) (w : World) (inst : Instance) (key val : SQObject)
    (write : Act World (Except CallError Unit)) : Prop where
  field : ((w inst.sq).heap.classOf inst.ref).IsField env.hash key → ∃ w' heap,
    write.run w = (.ok (.ok ()), w') ∧ LeavesOnly w w' inst.sq heap ∧
      (w inst.sq).heap.FieldWritten env.hash heap inst.ref key val
  other : ¬ ((w inst.sq).heap.classOf inst.ref).IsField env.hash key → ∃ w' v,
    write.run w = (.ok (.error (.runtime v)), w') ∧ LeavesOnly w w' inst.sq (w inst.sq).heap

/-- What is asked of a read: whatever it returns, it has changed nothing. -/
def ReadsOnly {α : Type} (w : World) (self : Instance) (read : Act World (Except CallError α)) :
    Prop :=
  ∃ res w', read.run w = (.ok res, w') ∧ LeavesOnly w w' self.sq (w self.sq).heap

section Access

variable {env : Env} {w : World} {L : List Object} {self : Instance} {κ ν : Type} [Owns κ]
  [IntoSquirrel κ] [ExactInto κ] {key : κ}

theorem LeavesOnly.of_exactly {w' : World} {vm : VmId} {s : SQVM} {heap : Heap}
    (after : Exactly w vm s L w') (changed : s.heap = heap) (stack : s.stack = (w vm).stack)
    (stackbase : s.stackbase = (w vm).stackbase) : LeavesOnly w w' vm heap := by
  refine ⟨?_, ?_, ?_, after.others⟩
  · rw [after.machine]
    exact changed
  · rw [after.machine]
    exact stack
  · rw [after.machine]
    exact stackbase

/-! ## Reads -/

section Read

variable [Owns ν] [FromSquirrel ν] [ExactFrom ν] (owned : Owned (Owns.handles key ++ L) w)
  (based : (w self.sq).stackbase ≤ (w self.sq).top) (here : Local self.sq key)

include owned based here

/-- A read whose C function puts what it finds in place of the key. -/
theorem getWith_finds {read : ℤ → Act SQVM SQRESULT} {v : SQObject}
    (computes : Computes (read (-2)) (((w self.sq).push self.obj).push (ExactInto.encode key)) .ok
      ((((w self.sq).push self.obj).push (ExactInto.encode key)).setUp 0 v)) :
    ReadsOnly w self (self.getWith env read key : Act World (Except CallError ν)) := by
  obtain ⟨e, yields⟩ := @getWith_yields env w (w self.sq) (w self.sq) L _ self κ ν _ _ _ _ _ _
    read key v based here computes rfl based
  obtain ⟨res, w', ran, rfl, after⟩ := yields.returns (Exactly.start owned self.sq)
  exact ⟨_, w', ran, .of_exactly after rfl rfl rfl⟩

omit [ExactFrom ν] in
/-- A read whose C function fails and pops the key. -/
theorem getWith_misses {read : ℤ → Act SQVM SQRESULT} (e : SQObject)
    (computes : Computes (read (-2)) (((w self.sq).push self.obj).push (ExactInto.encode key))
      .error (((w self.sq).withError e).push self.obj)) :
    ReadsOnly w self (self.getWith env read key : Act World (Except CallError ν)) := by
  have yields : Yields w self.sq (w self.sq) _
      (self.getWith env read key : Act World (Except CallError ν)) _ _ (_ ++ L) :=
    getWith_fails based here computes rfl based
  obtain ⟨res, w', ran, rfl, after⟩ := yields.returns (Exactly.start owned self.sq)
  exact ⟨_, w', ran, .of_exactly after rfl rfl rfl⟩

theorem rawGet_readsOnly :
    ReadsOnly w self (rawGet env self key : Act World (Except CallError ν)) := by
  cases member : (w self.sq).heap.instanceGet env.hash self.ref (ExactInto.encode key) with
  | some v => exact getWith_finds owned based here (Api.sqRawget_inst_computes rfl member)
  | none =>
    have computes := @Api.sqRawget_inst_missing env
      (((w self.sq).push self.obj).push (ExactInto.encode key)) self.ref (-2) rfl member
    exact getWith_misses owned based here (.string (ascii "the index doesn't exist")) computes

theorem get_readsOnly (plain : (w self.sq).heap.instanceMetaMethod self.ref .get = none) :
    ReadsOnly w self (get env self key : Act World (Except CallError ν)) := by
  cases member :
    Api.instFound env (((w self.sq).push self.obj).push (ExactInto.encode key)) self.ref
    (ExactInto.encode key) with
  | some v => exact getWith_finds owned based here (Api.sqGet_inst_computes rfl plain member)
  | none =>
    have computes := @Api.sqGet_inst_missing env
      (((w self.sq).push self.obj).push (ExactInto.encode key)) self.ref (-2) rfl plain member
    exact getWith_misses owned based here
      ((w self.sq).raiseIdxError env (ExactInto.encode key)).lasterror computes

end Read

/-! ## Writes -/

section Write

variable [Owns ν] [IntoSquirrel ν] [ExactInto ν] {value : ν}
  (owned : Owned (Owns.handles (key, value) ++ L) w)
  (based : (w self.sq).stackbase ≤ (w self.sq).top) (here : Local self.sq (key, value))

include owned based here

/-- A write that the C function makes. -/
theorem setWith_writes (write : ℤ → Act SQVM SQRESULT) (popped : ℤ) (heap : Heap)
    (computes : Computes (write (-3)) ((((w self.sq).push self.obj).push
      (ExactInto.encode key)).push (ExactInto.encode value)) .ok
      (SQVM.push { w self.sq with heap := heap } self.obj)) :
    ∃ w', (self.setWith env write popped key value).run w = (.ok (.ok ()), w') ∧
      LeavesOnly w w' self.sq heap := by
  have yields : Yields w self.sq (w self.sq) _ (self.setWith env write popped key value) _ _ L :=
    setWith_yields based here computes rfl based
  obtain ⟨res, w', ran, rfl, after⟩ := yields.returns (Exactly.start owned self.sq)
  exact ⟨w', ran, .of_exactly after rfl rfl rfl⟩

/-- A write that the C function refuses, with the slots it leaves. -/
theorem setWith_misses (write : ℤ → Act SQVM SQRESULT) {n : ℕ} {s : SQVM} (positive : 0 < n)
    (computes : Computes (write (-3)) ((((w self.sq).push self.obj).push
      (ExactInto.encode key)).push (ExactInto.encode value)) .error s)
    (root : s.root = (w self.sq).root) (enough : s.stackbase + n ≤ s.top) :
    ∃ w' v, (self.setWith env write n key value).run w = (.ok (.error (.runtime v)), w') ∧
      ∃ L', Exactly w self.sq (s.pop n) L' w' := by
  have yields : Yields w self.sq (w self.sq) _ (self.setWith env write n key value) _ _ (_ ++ L) :=
    setWith_fails based here computes root positive enough
  obtain ⟨res, w', ran, rfl, after⟩ := yields.returns (Exactly.start owned self.sq)
  exact ⟨w', _, ran, _, after⟩

theorem set_writesFields (reachable : (w self.sq).heap.Reachable env.hash)
    (made : self.ref < (w self.sq).heap.instances.next)
    (plain : (w self.sq).heap.instanceMetaMethod self.ref .set = none) :
    WritesFields env w self (ExactInto.encode key) (ExactInto.encode value)
      (set env self key value) := by
  refine ⟨fun isKey => ?_, fun other => ?_⟩
  · obtain ⟨heap, done, written⟩ := reachable.instanceSet_field made isKey (ExactInto.encode value)
    have computes := @Api.sqSet_inst_computes env ((((w self.sq).push self.obj).push
      (ExactInto.encode key)).push (ExactInto.encode value)) self.ref (-3) heap rfl done
    obtain ⟨w', ran, leaves⟩ := setWith_writes owned based here (Api.sqSet env) 3 heap computes
    exact ⟨w', heap, ran, leaves, written⟩
  · have enough : (w self.sq).stackbase + 3 ≤ (w self.sq).top + 3 := by omega
    have computes := @Api.sqSet_inst_missing env ((((w self.sq).push self.obj).push
      (ExactInto.encode key)).push (ExactInto.encode value)) self.ref (-3) rfl
      (Heap.instanceSet_eq_none_iff.2 other) plain
    obtain ⟨w', v, ran, L', after⟩ := setWith_misses (n := 3) owned based here (Api.sqSet env)
      (by decide) computes rfl enough
    exact ⟨w', v, ran, .of_exactly after rfl rfl rfl⟩

/-- `raw_set` with null is an error without a trace. -/
theorem rawSet_null (null : ExactInto.encode key = .null) :
    ∃ w' v, (rawSet env self key value).run w = (.ok (.error (.runtime v)), w') ∧
      LeavesOnly w w' self.sq (w self.sq).heap := by
  have enough : (w self.sq).stackbase + 1 ≤ (w self.sq).top + 1 := by omega
  have computes := @Api.sqRawset_null_computes env ((((w self.sq).push self.obj).push
    (ExactInto.encode key)).push (ExactInto.encode value)) (-3) null
  obtain ⟨w', v, ran, L', after⟩ := setWith_misses (n := 1) owned based here (Api.sqRawset env)
    one_pos computes rfl enough
  exact ⟨w', v, ran, .of_exactly after rfl rfl rfl⟩

/-- `raw_set` with a key that is not a field leaves two slots on the stack. -/
theorem rawSet_leaks (nonnull : ExactInto.encode key ≠ .null)
    (other : ¬ ((w self.sq).heap.classOf self.ref).IsField env.hash (ExactInto.encode key)) :
    ∃ w' v, (rawSet env self key value).run w = (.ok (.error (.runtime v)), w') ∧
      (w' self.sq).stack = ExactInto.encode key :: self.obj :: (w self.sq).stack := by
  have enough : (w self.sq).stackbase + 1 ≤ (w self.sq).top + 3 := by omega
  have computes := @Api.sqRawset_inst_missing env ((((w self.sq).push self.obj).push
    (ExactInto.encode key)).push (ExactInto.encode value)) self.ref (-3) rfl
    (Heap.instanceSet_eq_none_iff.2 other) nonnull
  obtain ⟨w', v, ran, L', after⟩ := setWith_misses (n := 1) owned based here (Api.sqRawset env)
    one_pos computes rfl enough
  refine ⟨w', v, ran, ?_⟩
  rw [after.machine]
  rfl

/-- All accesses are exact, but for `raw_set` with a key that is neither null nor a field. -/
theorem field_access_iff {ρ : Type} [Owns ρ] [FromSquirrel ρ] [ExactFrom ρ]
    (reachable : (w self.sq).heap.Reachable env.hash)
    (made : self.ref < (w self.sq).heap.instances.next)
    (noGet : (w self.sq).heap.instanceMetaMethod self.ref .get = none)
    (noSet : (w self.sq).heap.instanceMetaMethod self.ref .set = none) :
    WritesFields env w self (ExactInto.encode key) (ExactInto.encode value)
        (set env self key value) ∧
      (WritesFields env w self (ExactInto.encode key) (ExactInto.encode value)
          (rawSet env self key value) ↔
        (ExactInto.encode key = .null ∨
          ((w self.sq).heap.classOf self.ref).IsField env.hash (ExactInto.encode key))) ∧
      ReadsOnly w self (get env self key : Act World (Except CallError ρ)) ∧
      ReadsOnly w self (rawGet env self key : Act World (Except CallError ρ)) := by
  have split : (Owns.handles (key, value) ++ L).Perm
      (Owns.handles key ++ (Owns.handles value ++ L)) := by
    rw [← List.append_assoc]
    exact .refl _
  refine ⟨set_writesFields owned based here reachable made noSet,
    ⟨fun exact_ => ?_, fun condition =>
    ⟨fun isKey => ?_, fun other => ?_⟩⟩, get_readsOnly (owned.perm split) based here.fst noGet,
    rawGet_readsOnly (owned.perm split) based here.fst⟩
  · by_contra neither
    obtain ⟨nonnull, other⟩ := not_or.1 neither
    obtain ⟨w', v, ran, leaves⟩ := exact_.other other
    obtain ⟨w'', v', ran', leaked⟩ := @rawSet_leaks env w L self κ ν _ _ _ key _ _ _ value
      owned based
      here nonnull other
    rw [ran'] at ran
    cases ran
    have same := leaves.stack
    rw [leaked] at same
    have longer := congrArg List.length same
    simp only [List.length_cons] at longer
    omega
  · obtain ⟨heap, done, written⟩ := reachable.instanceSet_field made isKey (ExactInto.encode value)
    have nonnull : ExactInto.encode key ≠ .null := by
      intro null
      rw [null] at isKey
      exact Heap.not_isField_null _ _ isKey
    have computes := @Api.sqRawset_inst_computes env ((((w self.sq).push self.obj).push
      (ExactInto.encode key)).push (ExactInto.encode value)) self.ref (-3) heap rfl done nonnull
    obtain ⟨w', ran, leaves⟩ := setWith_writes owned based here (Api.sqRawset env) 1 heap
      computes
    exact ⟨w', heap, ran, leaves, written⟩
  · exact rawSet_null owned based here (condition.resolve_right other)

end Write

end Access

/-- The field of an instance, accessed in all four ways. -/
theorem field_access_iff_present :
    let w := World.withInstance .returning
    let self := World.instanceMade .returning
    WritesFields .returning w self (.integer 1) (.integer 6)
        (set .returning self (1 : ℤ) (6 : ℤ)) ∧
      WritesFields .returning w self (.integer 1) (.integer 6)
        (rawSet .returning self (1 : ℤ) (6 : ℤ)) ∧
      ReadsOnly w self (get .returning self (1 : ℤ) : Act World (Except CallError ℤ)) ∧
      ReadsOnly w self (rawGet .returning self (1 : ℤ) : Act World (Except CallError ℤ)) := by
  intro w self
  have owned : Owned [] w := (owned_opened _ _ _).update rfl rfl
  have based : (w self.sq).stackbase ≤ (w self.sq).top := by decide +kernel
  have here : Local self.sq ((1, 6) : ℤ × ℤ) := fun o mem => absurd mem List.not_mem_nil
  have reachable : (w self.sq).heap.Reachable (Env.hash .returning) := by
    apply Heap.Reachable.createInstance
    · apply Heap.Reachable.newSlot
      · exact .newClass (World.reachable_usual .returning _ 0) fun _ ofNone => by cases ofNone
      · exact Nat.lt_succ_self _
      · decide
    · decide +kernel
  have made : self.ref < (w self.sq).heap.instances.next := by decide +kernel
  have noGet : (w self.sq).heap.instanceMetaMethod self.ref .get = none := by decide +kernel
  have noSet : (w self.sq).heap.instanceMetaMethod self.ref .set = none := by decide +kernel
  have isKey : ((w self.sq).heap.classOf self.ref).IsField (Env.hash .returning) (.integer 1) := by
    apply Heap.any_isField_iff.1
    decide +kernel
  obtain ⟨writes, raw, reads, rawReads⟩ :=
    @field_access_iff .returning w [] self ℤ ℤ _ _ _ 1 _ _ _ 6
    owned based here ℤ _ _ _ reachable made noGet noSet
  exact ⟨writes, raw.2 (.inr isKey), reads, rawReads⟩

/-- A key that the class does not have: `raw_set` fails and leaves two slots on the stack. -/
theorem rawSet_leaves_slots :
    ((do
        let cls ← Class.new .returning 0
        let inst ← Class.rawInstantiate .returning cls
        let before ← Squirrel.stackDepth 0
        let result ← rawSet .returning inst (1 : ℤ) (5 : ℤ)
        let after ← Squirrel.stackDepth 0
        pure (before, result.toOption, after)).run (World.usual .returning)).1 =
      .ok (0, none, 2) := by
  decide +kernel

end Handle.Instance

end Squirrels
