import Squirrels.Vm.ClassLaws
import Squirrels.Vm.TableExact

/-!
# What the C functions compute on classes and instances
-/

namespace Squirrels

open Machines

namespace SQVM

variable {env : Env} {s : SQVM} {r : ℕ} {key val : SQObject} {bstatic : Bool}

theorem newSlot_class_stored (nonnull : key ≠ .null) {heap : Heap}
    (stored : s.heap.classNewSlot env.hash r key val bstatic = (true, heap)) :
    (newSlot env (.ref .cls r) key val bstatic).run s = (.ok true, { s with heap := heap }) := by
  unfold newSlot
  rw [if_neg nonnull, Act.run_bind_of_ok (Act.run_get s)]
  simp only [stored]
  rfl

/-- The machine with the error of a refused member. -/
def refusal (env : Env) (s : SQVM) (r : ℕ) (key : SQObject) : SQVM :=
  if (s.heap.classes.read r).locked then
    s.raise "trying to modify a class that has already been instantiated"
  else
    s.raiseError "the property '%s' already exists"
      (ascii "the property '" ++ printObjVal env key ++ ascii "' already exists")

theorem refusal_eq (env : Env) (s : SQVM) (r : ℕ) (key : SQObject) :
    ∃ e, ∀ refs flag, refusal env { s with refs := refs, overflowed := flag } r key =
      { s.withError e with refs := refs, overflowed := flag } := by
  unfold refusal
  by_cases locked : (s.heap.classes.read r).locked = true
  · exact ⟨(s.raise "trying to modify a class that has already been instantiated").lasterror,
      fun refs flag => if_pos locked⟩
  · exact ⟨(s.raiseError "the property '%s' already exists" (ascii "the property '" ++
      printObjVal env key ++ ascii "' already exists")).lasterror, fun refs flag => if_neg locked⟩

theorem newSlot_class_refused (nonnull : key ≠ .null) {heap : Heap}
    (refused : s.heap.classNewSlot env.hash r key val bstatic = (false, heap)) :
    (newSlot env (.ref .cls r) key val bstatic).run s = (.ok false, s.refusal env r key) := by
  unfold newSlot refusal
  rw [if_neg nonnull, Act.run_bind_of_ok (Act.run_get s)]
  simp only [refused, Bool.false_eq_true, if_false]
  cases (s.heap.classes.read r).locked <;> rfl

/-- The heap after a new member of a class has been given its attributes. -/
def attributed (env : Env) (heap : Heap) (r : ℕ) (key attrs : SQObject) : Heap :=
  if attrs = .null then heap
  else heap.writeClass r ((heap.classes.read r).setAttributes env.hash key attrs)

theorem classGet_attributed (heap : Heap) (attrs k : SQObject) :
    (attributed env heap r key attrs).classGet env.hash r k = heap.classGet env.hash r k := by
  unfold attributed
  by_cases null : attrs = .null
  · rw [if_pos null]
  rw [if_neg null]
  obtain ⟨members, fields, methods⟩ :=
    (heap.classes.read r).setAttributes_spec env.hash key attrs
  unfold Heap.classGet Heap.writeClass
  simp only [Store.read_write_self, members, fields, methods]
  rfl

theorem newSlotA_stored (nonnull : key ≠ .null) {heap : Heap} (attrs : SQObject)
    (stored : s.heap.classNewSlot env.hash r key val bstatic = (true, heap)) :
    (newSlotA env r key val attrs bstatic true).run s =
      (.ok true, { s with heap := attributed env heap r key attrs }) := by
  unfold newSlotA attributed
  rw [Act.run_bind_of_ok (Act.run_get s)]
  simp only [Bool.not_true, Bool.false_and, Bool.false_eq_true, if_false]
  rw [Act.run_bind_of_ok (newSlot_class_stored nonnull stored)]
  by_cases null : attrs = .null
  · subst null
    rfl
  · simp only [null, if_true, if_false, not_false_eq_true, ne_eq]
    rfl

theorem newSlotA_refused (nonnull : key ≠ .null) {heap : Heap} (attrs : SQObject)
    (refused : s.heap.classNewSlot env.hash r key val bstatic = (false, heap)) :
    (newSlotA env r key val attrs bstatic true).run s = (.ok false, s.refusal env r key) := by
  unfold newSlotA
  rw [Act.run_bind_of_ok (Act.run_get s)]
  simp only [Bool.not_true, Bool.false_and, Bool.false_eq_true, if_false]
  rw [Act.run_bind_of_ok (newSlot_class_refused nonnull refused)]
  rfl

/-- `Set` on an instance without `_set` writes a field. -/
theorem set_inst_run {heap : Heap} (done : s.heap.instanceSet env.hash r key val = some heap) :
    (set env (.ref .inst r) key val).run s = (.ok true, { s with heap := heap }) := by
  unfold set
  rw [Act.run_bind_of_ok (Act.run_get s)]
  unfold setAtFuel
  rw [Act.run_bind_of_ok (Act.run_get s)]
  simp only [done]
  rfl

theorem set_inst_missing_run (missing : s.heap.instanceSet env.hash r key val = none)
    (plain : s.heap.instanceMetaMethod r .set = none) :
    (set env (.ref .inst r) key val).run s = (.ok false, s.raiseIdxError env key) := by
  have noMethod : s.getMetaMethod env (.ref .inst r) .set = none := plain
  have fallback : (fallBackSet env (setAtFuel env s.heap.delegateFuel) (.ref .inst r) key
      val).run s = (.ok .noMatch, s) := by
    unfold fallBackSet metaSet
    rw [Act.run_bind_of_ok (Act.run_get s)]
    simp only [noMethod]
    rfl
  unfold set
  rw [Act.run_bind_of_ok (Act.run_get s)]
  unfold setAtFuel
  rw [Act.run_bind_of_ok (Act.run_get s)]
  simp only [missing]
  unfold setRest
  rw [Act.run_bind_of_ok fallback]
  rfl

/-- `Get` on an instance without `_get` reads a member, or a function every instance has. -/
theorem get_inst_run (plain : s.heap.instanceMetaMethod r .get = none) :
    (get env (.ref .inst r) key).run s =
      match (s.heap.instanceGet env.hash r key).or
        (s.invokeDefaultDelegate env (.ref .inst r) key) with
      | some v => (.ok (true, v), s)
      | none => (.ok (false, key), s.raiseIdxError env key) := by
  have noMethod : s.getMetaMethod env (.ref .inst r) .get = none := plain
  have fallback : (fallBackGet env (getAt env s.heap.delegateFuel false) (.ref .inst r) key).run s =
      (.ok (.noMatch, key), s) := by
    unfold fallBackGet metaGet
    rw [Act.run_bind_of_ok (Act.run_get s)]
    simp only [noMethod]
    rfl
  unfold get
  rw [Act.run_bind_of_ok (Act.run_get s)]
  unfold getAt
  rw [Act.run_bind_of_ok (Act.run_get s)]
  have direct : s.getDirect env (.ref .inst r) key =
      (s.heap.instanceGet env.hash r key, true) := rfl
  simp only [direct]
  cases s.heap.instanceGet env.hash r key with
  | some v => rfl
  | none =>
    simp only [Option.none_or]
    rw [Act.run_bind_of_ok fallback]
    show (getRest env (.ref .inst r) key true).run s = _
    unfold getRest
    rw [Act.run_bind_of_ok (Act.run_get s)]
    cases s.invokeDefaultDelegate env (.ref .inst r) key <;> rfl

end SQVM

namespace Api

variable {env : Env} {s : SQVM} {r : ℕ} {idx : ℤ}

/-! ## Classes -/

/-- `sq_newslot` up to the objects it works on. -/
theorem sqNewslot_class_run {bstatic : Bool} (deep : 3 ≤ s.depth)
    (found : s.stackGet idx = .ref .cls r) (nonnull : s.up 1 ≠ .null) {stored : Bool} {s' : SQVM}
    (ran : (SQVM.newSlot env (.ref .cls r) (s.up 1) (s.up 0) bstatic).run s = (.ok stored, s')) :
    (sqNewslot env idx bstatic).run s = (.ok .ok, s'.pop 2) := by
  unfold sqNewslot paramsCheck
  rw [Act.run_bind_of_ok (Act.run_get s), if_neg (Nat.not_lt.2 deep),
    Act.run_bind_of_ok (Act.run_get s), found, if_pos (.inr rfl), if_neg nonnull,
    Act.run_bind_of_ok ran]
  rfl

theorem sqNewslot_class_stored {bstatic : Bool} {heap : Heap} (deep : 3 ≤ s.depth)
    (found : s.stackGet idx = .ref .cls r) (nonnull : s.up 1 ≠ .null)
    (stored : s.heap.classNewSlot env.hash r (s.up 1) (s.up 0) bstatic = (true, heap)) :
    Computes (sqNewslot env idx bstatic) s .ok (SQVM.pop { s with heap := heap } 2) :=
  fun refs flag => ⟨flag, @sqNewslot_class_run env { s with refs := refs, overflowed := flag } r idx
    bstatic deep found nonnull _ _ (@SQVM.newSlot_class_stored env
      { s with refs := refs, overflowed := flag } r _ _ bstatic nonnull heap stored)⟩

/-- A member that `NewSlot` refuses is reported as a success. -/
theorem sqNewslot_class_refused {bstatic : Bool} {heap : Heap} (deep : 3 ≤ s.depth)
    (found : s.stackGet idx = .ref .cls r) (nonnull : s.up 1 ≠ .null)
    (refused : s.heap.classNewSlot env.hash r (s.up 1) (s.up 0) bstatic = (false, heap)) :
    ∃ e, Computes (sqNewslot env idx bstatic) s .ok ((s.withError e).pop 2) := by
  obtain ⟨e, eq⟩ := SQVM.refusal_eq env s r (s.up 1)
  refine ⟨e, fun refs flag => ⟨flag, ?_⟩⟩
  have ran := @sqNewslot_class_run env { s with refs := refs, overflowed := flag } r idx
    bstatic deep found nonnull _ _ (@SQVM.newSlot_class_refused env
      { s with refs := refs, overflowed := flag } r _ _ bstatic nonnull heap refused)
  exact ran.trans (congrArg (fun t : SQVM => (Except.ok SQRESULT.ok, t.pop 2)) (eq refs flag))

theorem sqRawset_class_computes (found : s.stackGet idx = .ref .cls r)
    (nonnull : s.up 1 ≠ .null) :
    Computes (sqRawset env idx) s .ok (SQVM.pop { s with
      heap := (s.heap.classNewSlot env.hash r (s.up 1) (s.up 0) false).2 } 2) := by
  apply Computes.get_bind
  intro refs flag
  have found' : { s with refs := refs, overflowed := flag }.stackGet idx = .ref .cls r := found
  have nonnull' : ¬ { s with refs := refs, overflowed := flag }.up 1 = .null := nonnull
  rw [if_neg nonnull', found']
  exact ⟨flag, rfl⟩

/-- `sq_rawnewmember` up to the objects it works on. -/
theorem sqRawnewmember_run {bstatic stored : Bool} {s' : SQVM}
    (found : s.stackGet idx = .ref .cls r) (nonnull : s.up 2 ≠ .null)
    (ran : (SQVM.newSlotA env r (s.up 2) (s.up 1) (s.up 0) bstatic true).run s =
      (.ok stored, s')) :
    (sqRawnewmember env idx bstatic).run s = (.ok (if stored then .ok else .error), s'.pop 3) := by
  unfold sqRawnewmember newMember
  rw [Act.run_bind_of_ok (Act.run_get s), found]
  simp only
  rw [if_neg nonnull, Act.run_bind_of_ok ran]
  rfl

theorem sqRawnewmember_stored {bstatic : Bool} {heap : Heap} (found : s.stackGet idx = .ref .cls r)
    (nonnull : s.up 2 ≠ .null)
    (stored : s.heap.classNewSlot env.hash r (s.up 2) (s.up 1) bstatic = (true, heap)) :
    Computes (sqRawnewmember env idx bstatic) s .ok
      (SQVM.pop { s with heap := SQVM.attributed env heap r (s.up 2) (s.up 0) } 3) :=
  fun refs flag => ⟨flag, @sqRawnewmember_run env { s with refs := refs, overflowed := flag } r idx
    bstatic _ _ found nonnull (@SQVM.newSlotA_stored env
      { s with refs := refs, overflowed := flag } r _ _ bstatic nonnull heap _ stored)⟩

theorem sqRawnewmember_refused {bstatic : Bool} {heap : Heap} (found : s.stackGet idx = .ref .cls r)
    (nonnull : s.up 2 ≠ .null)
    (refused : s.heap.classNewSlot env.hash r (s.up 2) (s.up 1) bstatic = (false, heap)) :
    ∃ e, Computes (sqRawnewmember env idx bstatic) s .error ((s.withError e).pop 3) := by
  obtain ⟨e, eq⟩ := SQVM.refusal_eq env s r (s.up 2)
  refine ⟨e, fun refs flag => ⟨flag, ?_⟩⟩
  have ran := @sqRawnewmember_run env { s with refs := refs, overflowed := flag } r idx
    bstatic _ _ found nonnull (@SQVM.newSlotA_refused env
      { s with refs := refs, overflowed := flag } r _ _ bstatic nonnull heap _ refused)
  exact ran.trans (congrArg (fun t : SQVM => (Except.ok SQRESULT.error, t.pop 3)) (eq refs flag))

/-- A function of an object reads what it finds, or fails and pops the key. -/
theorem sqRawget_class_computes {v : SQObject} (found : s.stackGet idx = .ref .cls r)
    (member : s.heap.classGet env.hash r (s.up 0) = some v) :
    Computes (sqRawget env idx) s .ok (s.setUp 0 v) := by
  apply Computes.get_bind
  intro refs flag
  have found' : { s with refs := refs, overflowed := flag }.stackGet idx = .ref .cls r := found
  have member' : { s with refs := refs, overflowed := flag }.heap.classGet env.hash r
      ({ s with refs := refs, overflowed := flag }.up 0) = some v := member
  rw [found']
  simp only [member']
  exact ⟨flag, rfl⟩

/-! ## Instances -/

theorem sqRawget_inst_computes {v : SQObject} (found : s.stackGet idx = .ref .inst r)
    (member : s.heap.instanceGet env.hash r (s.up 0) = some v) :
    Computes (sqRawget env idx) s .ok (s.setUp 0 v) := by
  apply Computes.get_bind
  intro refs flag
  have found' : { s with refs := refs, overflowed := flag }.stackGet idx = .ref .inst r := found
  have member' : { s with refs := refs, overflowed := flag }.heap.instanceGet env.hash r
      ({ s with refs := refs, overflowed := flag }.up 0) = some v := member
  rw [found']
  simp only [member']
  exact ⟨flag, rfl⟩

theorem sqRawget_inst_missing (found : s.stackGet idx = .ref .inst r)
    (missing : s.heap.instanceGet env.hash r (s.up 0) = none) :
    Computes (sqRawget env idx) s .error ((s.pop 1).raise "the index doesn't exist") := by
  apply Computes.get_bind
  intro refs flag
  have found' : { s with refs := refs, overflowed := flag }.stackGet idx = .ref .inst r := found
  have missing' : { s with refs := refs, overflowed := flag }.heap.instanceGet env.hash r
      ({ s with refs := refs, overflowed := flag }.up 0) = none := missing
  rw [found']
  simp only [missing']
  exact ⟨flag, rfl⟩

theorem sqRawset_inst_computes {heap : Heap} (found : s.stackGet idx = .ref .inst r)
    (done : s.heap.instanceSet env.hash r (s.up 1) (s.up 0) = some heap)
    (nonnull : s.up 1 ≠ .null) :
    Computes (sqRawset env idx) s .ok (SQVM.pop { s with heap := heap } 2) := by
  apply Computes.get_bind
  intro refs flag
  have found' : { s with refs := refs, overflowed := flag }.stackGet idx = .ref .inst r := found
  have nonnull' : ¬ { s with refs := refs, overflowed := flag }.up 1 = .null := nonnull
  have done' : { s with refs := refs, overflowed := flag }.heap.instanceSet env.hash r
      ({ s with refs := refs, overflowed := flag }.up 1)
      ({ s with refs := refs, overflowed := flag }.up 0) = some heap := done
  rw [if_neg nonnull', found']
  simp only [done']
  exact ⟨flag, rfl⟩

/-- A key that is not a field: nothing is popped. -/
theorem sqRawset_inst_missing (found : s.stackGet idx = .ref .inst r)
    (missing : s.heap.instanceSet env.hash r (s.up 1) (s.up 0) = none)
    (nonnull : s.up 1 ≠ .null) :
    Computes (sqRawset env idx) s .error (s.raiseIdxError env (s.up 1)) := by
  apply Computes.get_bind
  intro refs flag
  have found' : { s with refs := refs, overflowed := flag }.stackGet idx = .ref .inst r := found
  have nonnull' : ¬ { s with refs := refs, overflowed := flag }.up 1 = .null := nonnull
  have missing' : { s with refs := refs, overflowed := flag }.heap.instanceSet env.hash r
      ({ s with refs := refs, overflowed := flag }.up 1)
      ({ s with refs := refs, overflowed := flag }.up 0) = none := missing
  rw [if_neg nonnull', found']
  simp only [missing']
  exact ⟨flag, rfl⟩

/-- `sq_set` up to the object it works on. -/
theorem sqSet_inst_run {done : Bool} {s' : SQVM} (found : s.stackGet idx = .ref .inst r)
    (ran : (SQVM.set env (.ref .inst r) (s.up 1) (s.up 0)).run s = (.ok done, s')) :
    (sqSet env idx).run s = if done then (.ok .ok, s'.pop 2) else (.ok .error, s') := by
  unfold sqSet
  rw [Act.run_bind_of_ok (Act.run_get s), found, Act.run_bind_of_ok ran]
  cases done <;> rfl

theorem sqSet_inst_computes {heap : Heap} (found : s.stackGet idx = .ref .inst r)
    (done : s.heap.instanceSet env.hash r (s.up 1) (s.up 0) = some heap) :
    Computes (sqSet env idx) s .ok (SQVM.pop { s with heap := heap } 2) :=
  fun refs flag => ⟨flag, @sqSet_inst_run env { s with refs := refs, overflowed := flag } r idx _ _
    found (@SQVM.set_inst_run env { s with refs := refs, overflowed := flag } r _ _ heap done)⟩

theorem sqSet_inst_missing (found : s.stackGet idx = .ref .inst r)
    (missing : s.heap.instanceSet env.hash r (s.up 1) (s.up 0) = none)
    (plain : s.heap.instanceMetaMethod r .set = none) :
    Computes (sqSet env idx) s .error (s.raiseIdxError env (s.up 1)) :=
  fun refs flag => ⟨flag, @sqSet_inst_run env { s with refs := refs, overflowed := flag } r idx _ _
    found (@SQVM.set_inst_missing_run env { s with refs := refs, overflowed := flag } r _ _
      missing plain)⟩

/-- What `Get` finds for an instance without `_get`: a member, or a function every instance has. -/
def instFound (env : Env) (s : SQVM) (r : ℕ) (key : SQObject) : Option SQObject :=
  (s.heap.instanceGet env.hash r key).or (s.invokeDefaultDelegate env (.ref .inst r) key)

theorem sqGet_inst_computes {v : SQObject} (found : s.stackGet idx = .ref .inst r)
    (plain : s.heap.instanceMetaMethod r .get = none)
    (member : instFound env s r (s.up 0) = some v) :
    Computes (sqGet env idx) s .ok (s.setUp 0 v) := by
  apply Computes.get_bind
  intro refs flag
  have found' : { s with refs := refs, overflowed := flag }.stackGet idx = .ref .inst r := found
  have got := @SQVM.get_inst_run env { s with refs := refs, overflowed := flag } r
    ({ s with refs := refs, overflowed := flag }.up 0) plain
  have member' : ({ s with refs := refs, overflowed := flag }.heap.instanceGet env.hash r
      ({ s with refs := refs, overflowed := flag }.up 0)).or
      ({ s with refs := refs, overflowed := flag }.invokeDefaultDelegate env (.ref .inst r)
        ({ s with refs := refs, overflowed := flag }.up 0)) = some v := member
  rw [member'] at got
  rw [found', Act.run_bind_of_ok got]
  exact ⟨flag, rfl⟩

theorem sqGet_inst_missing (found : s.stackGet idx = .ref .inst r)
    (plain : s.heap.instanceMetaMethod r .get = none)
    (missing : instFound env s r (s.up 0) = none) :
    Computes (sqGet env idx) s .error ((s.raiseIdxError env (s.up 0)).pop 1) := by
  apply Computes.get_bind
  intro refs flag
  have found' : { s with refs := refs, overflowed := flag }.stackGet idx = .ref .inst r := found
  have got := @SQVM.get_inst_run env { s with refs := refs, overflowed := flag } r
    ({ s with refs := refs, overflowed := flag }.up 0) plain
  have missing' : ({ s with refs := refs, overflowed := flag }.heap.instanceGet env.hash r
      ({ s with refs := refs, overflowed := flag }.up 0)).or
      ({ s with refs := refs, overflowed := flag }.invokeDefaultDelegate env (.ref .inst r)
        ({ s with refs := refs, overflowed := flag }.up 0)) = none := missing
  rw [missing'] at got
  rw [found', Act.run_bind_of_ok got]
  exact ⟨flag, rfl⟩

end Api

end Squirrels
