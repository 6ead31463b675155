import Squirrels.Binding.Array
import Squirrels.Binding.SlotsExact

/-!
# Arrays as lists

The operations of `Array`, read with `Value`, against operations on lists. `ListOp.spec` is the
abstract behaviour, on a store of lists; a refused operation changes nothing. The binding agrees
with it as long as no `insert` is out of range.
-/

namespace Squirrels

open Machines

/-- The operations of `Array`, with `Value` for the type of the elements. -/
inductive ListOp where
  | get (i : ℤ)
  | set (i : ℤ) (x : Value)
  | append (x : Value)
  | pop
  | len
  | insert (i : ℤ) (x : Value)
  | remove (i : ℤ)
  | reverse
  | clear
  | resize (n : ℤ)
  | cloneValue

/-- What an operation returns to the caller. -/
inductive Reply where
  | unit
  | length (n : ℤ)
  | value (v : Value)
  | array (a : ArrayHandle)
deriving DecidableEq

instance : Owns Reply where
  handles
    | .value v => Owns.handles v
    | .array a => Owns.handles a
    | _ => []

namespace ListOp

/-- The handles that move into an operation. -/
def consumed : ListOp → List Object
  | set _ x | append x | insert _ x => Owns.handles x
  | _ => []

/-- The call of the binding. -/
def perform (env : Env) (self : ArrayHandle) : ListOp → Act World (Except CallError Reply)
  | get i => do
    let r : Except CallError Value ← Handle.Array.get env self i
    pure (r.map .value)
  | set i x => do
    let r ← Handle.Array.set env self i x
    pure (r.map fun _ => .unit)
  | append x => do
    Handle.Array.append env self x
    pure (.ok .unit)
  | pop => do
    let r : Except CallError Value ← Handle.Array.pop env self
    pure (r.map .value)
  | len => do
    let n ← self.len
    pure (.ok (.length n))
  | insert i x => do
    let r ← Handle.Array.insert env self i x
    pure (r.map fun _ => .unit)
  | remove i => do
    let r ← Handle.Array.remove env self i
    pure (r.map fun _ => .unit)
  | reverse => do
    Handle.Array.reverse env self
    pure (.ok .unit)
  | clear => do
    Handle.Array.clear env self
    pure (.ok .unit)
  | resize n => do
    let r ← Handle.Array.resize env self n
    pure (r.map fun _ => .unit)
  | cloneValue => do
    let a ← Handle.Array.cloneValue env self
    pure (.ok (.array a))

/-- What an operation on lists answers. A copy is a new list of the store. -/
inductive Answer where
  | unit
  | length (n : ℤ)
  | element (o : SQObject)
  | list (q : ℕ)
deriving DecidableEq

/-- The answer as the caller of the binding sees it. -/
def Answer.reply (vm : VmId) : Answer → Reply
  | unit => .unit
  | length n => .length n
  | element o => .value (o.toValue vm)
  | list q => .array ⟨vm, q⟩

/-- The abstract behaviour on the list `r` of a store: the answer, if the operation is not refused,
and the lists afterwards. -/
def spec (r : ℕ) (lists : Store (List SQObject)) : ListOp → Option Answer × Store (List SQObject)
  | get i =>
    if 0 ≤ i ∧ i < (lists.read r).length then
      (some (.element ((lists.read r).getD i.toNat .null)), lists)
    else (none, lists)
  | set i x =>
    if 0 ≤ i ∧ i < (lists.read r).length then
      (some .unit, lists.write r ((lists.read r).set i.toNat x.slot))
    else (none, lists)
  | append x => (some .unit, lists.write r (lists.read r ++ [x.slot]))
  | pop =>
    if 0 < (lists.read r).length then
      (some (.element ((lists.read r).getLastD .null)), lists.write r (lists.read r).dropLast)
    else (none, lists)
  | len => (some (.length (lists.read r).length), lists)
  | insert i x =>
    if 0 ≤ i ∧ i ≤ (lists.read r).length then
      (some .unit, lists.write r ((lists.read r).insertIdx i.toNat x.slot))
    else (none, lists)
  | remove i =>
    if 0 ≤ i ∧ i < (lists.read r).length then
      (some .unit, lists.write r ((lists.read r).eraseIdx i.toNat))
    else (none, lists)
  | reverse => (some .unit, lists.write r (lists.read r).reverse)
  | clear => (some .unit, lists.write r [])
  | resize n =>
    if 0 ≤ n then (some .unit, lists.write r (Api.resizeList n.toNat (lists.read r)))
    else (none, lists)
  | cloneValue => (some (.list lists.next), (lists.alloc (lists.read r)).2)

/-- The values belong to the machine. -/
def Allowed (vm : VmId) (op : ListOp) : Prop := ∀ o ∈ op.consumed, o.sq = vm

/-- An `insert` is in range. -/
def InRange (xs : List SQObject) : ListOp → Prop
  | insert i _ => 0 ≤ i ∧ i ≤ xs.length
  | _ => True

/-- No weak reference is put into an array. -/
def Strong : ListOp → Prop
  | set _ x | append x | insert _ x => x.slot.isWeakRef = false
  | _ => True

/-- The lists a copy adds to the store. -/
def made (lists : Store (List SQObject)) : ListOp → List ℕ
  | cloneValue => [lists.next]
  | _ => []

/-- The result of a call with the answer, or with the error `e`. -/
def outcome (vm : VmId) (e : SQObject) : Option Answer → Except CallError Reply
  | some answer => .ok (answer.reply vm)
  | none => .error (.runtime (e.toValue vm))

end ListOp

/-- The machine with its arrays and its last error replaced. -/
def SQVM.withLists (s : SQVM) (lists : Store (List SQObject)) (e : SQObject) : SQVM :=
  { s with heap := { s.heap with arrays := lists }, lasterror := e }

section Refinement

variable {env : Env} {w₀ : World} {s : SQVM} {L : List Object} {self : ArrayHandle}

/-- A C function on the array alone, after which the array is popped. -/
theorem doWith_yields (act : ℤ → Act SQVM SQRESULT) {failed : String} {s' : SQVM}
    (based : s.stackbase ≤ s.top) (computes : Computes (act (-1)) (s.push self.obj) .ok s')
    (root : s'.root = s.root) (height : s'.top = s.top + 1) (base : s'.stackbase = s.stackbase) :
    Yields w₀ self.sq s L (self.doWith act failed) () (s'.pop 1) L := by
  apply Yields.bind (Yields.push self.obj)
  apply Yields.bind (Yields.machine computes root)
  apply Yields.bind (Yields.ensure rfl)
  exact Yields.pop (n := 1) one_pos (by omega)

/-- A C function on the array alone that succeeds. -/
theorem actWith_yields (act : ℤ → Act SQVM SQRESULT) {s' : SQVM} (based : s.stackbase ≤ s.top)
    (computes : Computes (act (-1)) (s.push self.obj) .ok s') (root : s'.root = s.root)
    (height : s'.top = s.top + 1) (base : s'.stackbase = s.stackbase) :
    Yields w₀ self.sq s L (self.actWith env act) (.ok ()) (s'.pop 1) L := by
  apply Yields.bind (Yields.push self.obj)
  apply Yields.bind (Yields.machine computes root)
  apply Yields.bind (Yields.pure (Except.ok ()))
  exact Yields.bind (Yields.pop (n := 1) one_pos (by omega)) (Yields.pure _)

/-- A C function on the array alone that reports an error. -/
theorem actWith_fails (act : ℤ → Act SQVM SQRESULT) {s' : SQVM} (based : s.stackbase ≤ s.top)
    (computes : Computes (act (-1)) (s.push self.obj) .error s') (root : s'.root = s.root)
    (height : s'.top = s.top + 1) (base : s'.stackbase = s.stackbase) :
    Yields w₀ self.sq s L (self.actWith env act)
      (.error (.runtime (s'.lasterror.toValue self.sq))) (s'.pop 1)
      (Owns.handles (s'.lasterror.toValue self.sq) ++ L) := by
  apply Yields.bind (Yields.push self.obj)
  apply Yields.bind (Yields.machine computes root)
  apply Yields.bind (Yields.toRuntimeError (n := 1) one_pos (by omega))
  exact Yields.pure _

theorem get_yields {ν : Type} [Owns ν] [FromSquirrel ν] [ExactFrom ν] {i : ℤ}
    (based : s.stackbase ≤ s.top) (inside : 0 ≤ i ∧ i < (s.heap.arrays.read self.ref).length) :
    ∃ e, Yields w₀ self.sq s L (Handle.Array.get env self i)
      (liftError (ExactFrom.decode self.sq
        (s.heap.realval ((s.heap.arrays.read self.ref).getD i.toNat .null))) : Except CallError ν)
      (s.withError e)
      (Owns.handles (liftError (ExactFrom.decode self.sq
        (s.heap.realval ((s.heap.arrays.read self.ref).getD i.toNat .null))) : Except CallError ν)
        ++ L) := by
  have found : ((s.push self.obj).push (.integer i)).stackGet (-2) = .ref .array self.ref := rfl
  have key : ((s.push self.obj).push (.integer i)).up 0 = .integer i := rfl
  have here : Local self.sq i := fun o mem => absurd mem List.not_mem_nil
  exact getWith_yields based here (Api.sqGet_array_computes found key inside) rfl based

theorem get_fails {ν : Type} [Owns ν] [FromSquirrel ν] {i : ℤ} (based : s.stackbase ≤ s.top)
    (outside : ¬ (0 ≤ i ∧ i < (s.heap.arrays.read self.ref).length)) :
    ∃ e, Yields w₀ self.sq s L (Handle.Array.get env self i)
      (Except.error (.runtime (e.toValue self.sq)) : Except CallError ν) (s.withError e)
      (Owns.handles (e.toValue self.sq) ++ L) := by
  have found : ((s.push self.obj).push (.integer i)).stackGet (-2) = .ref .array self.ref := rfl
  have key : ((s.push self.obj).push (.integer i)).up 0 = .integer i := rfl
  have here : Local self.sq i := fun o mem => absurd mem List.not_mem_nil
  have computes : Computes (Api.sqGet env (-2)) ((s.push self.obj).push (.integer i)) .error
      ((s.raiseIdxError env (.integer i)).push self.obj) :=
    Api.sqGet_array_outside found key outside
  exact ⟨_, getWith_fails based here computes rfl based⟩

theorem set_yields {i : ℤ} {x : Value} (based : s.stackbase ≤ s.top) (here : Local self.sq x)
    (inside : 0 ≤ i ∧ i < (s.heap.arrays.read self.ref).length) :
    Yields w₀ self.sq s (Owns.handles x ++ L) (Handle.Array.set env self i x) (.ok ())
      (Api.putList s self.ref ((s.heap.arrays.read self.ref).set i.toNat x.slot)) L := by
  have found : (((s.push self.obj).push (.integer i)).push x.slot).stackGet (-3) =
      .ref .array self.ref := rfl
  have key : (((s.push self.obj).push (.integer i)).push x.slot).up 1 = .integer i := rfl
  have here' : Local self.sq (i, x) := here
  exact setWith_yields based here' (Api.sqSet_array_computes found key inside) rfl based

theorem set_fails {i : ℤ} {x : Value} (based : s.stackbase ≤ s.top) (here : Local self.sq x)
    (outside : ¬ (0 ≤ i ∧ i < (s.heap.arrays.read self.ref).length)) :
    ∃ e, Yields w₀ self.sq s (Owns.handles x ++ L) (Handle.Array.set env self i x)
      (.error (.runtime (e.toValue self.sq))) (s.withError e)
      (Owns.handles (e.toValue self.sq) ++ L) := by
  have found : (((s.push self.obj).push (.integer i)).push x.slot).stackGet (-3) =
      .ref .array self.ref := rfl
  have key : (((s.push self.obj).push (.integer i)).push x.slot).up 1 = .integer i := rfl
  have here' : Local self.sq (i, x) := here
  have enough : s.stackbase + 3 ≤ s.top + 3 := by omega
  exact ⟨_, setWith_fails (n := 3) based here' (Api.sqSet_array_outside found key outside) rfl
    (by decide) enough⟩

theorem append_yields {x : Value} (based : s.stackbase ≤ s.top) (here : Local self.sq x) :
    Yields w₀ self.sq s (Owns.handles x ++ L) (Handle.Array.append env self x) ()
      (Api.putList s self.ref (s.heap.arrays.read self.ref ++ [x.slot])) L := by
  have found : ((s.push self.obj).push x.slot).stackGet (-2) = .ref .array self.ref := rfl
  have deep : 2 ≤ ((s.push self.obj).push x.slot).depth := by
    show 2 ≤ s.top + 2 - s.stackbase
    omega
  apply Yields.bind (Yields.push self.obj)
  apply Yields.bind (Yields.pushOwned here)
  apply Yields.bind (Yields.machine (Api.sqArrayappend_computes deep found) rfl)
  apply Yields.bind (Yields.ensure rfl)
  apply Yields.pop (n := 1) one_pos
  show s.stackbase + 1 ≤ s.top + 1
  omega

theorem insert_yields {i : ℤ} {x : Value} (based : s.stackbase ≤ s.top) (here : Local self.sq x)
    (inside : 0 ≤ i ∧ i ≤ (s.heap.arrays.read self.ref).length) :
    Yields w₀ self.sq s (Owns.handles x ++ L) (Handle.Array.insert env self i x) (.ok ())
      (Api.putList s self.ref ((s.heap.arrays.read self.ref).insertIdx i.toNat x.slot)) L := by
  have found : ((s.push self.obj).push x.slot).stackGet (-2) = .ref .array self.ref := rfl
  have deep : 1 ≤ ((s.push self.obj).push x.slot).depth := by
    show 1 ≤ s.top + 2 - s.stackbase
    omega
  apply Yields.bind (Yields.push self.obj)
  apply Yields.bind (Yields.pushOwned here)
  apply Yields.bind (Yields.machine (Api.sqArrayinsert_computes deep found inside) rfl)
  apply Yields.bind (Yields.pure (Except.ok ()))
  apply Yields.bind (Yields.pop (n := 1) one_pos ?_)
  · exact Yields.pure _
  · show s.stackbase + 1 ≤ s.top + 1
    omega

theorem pop_yields (based : s.stackbase ≤ s.top)
    (some : 0 < (s.heap.arrays.read self.ref).length) :
    Yields w₀ self.sq s L (Handle.Array.pop env self)
      (Except.ok (((s.heap.arrays.read self.ref).getLastD .null).toValue self.sq) :
        Except CallError Value)
      (Api.putList s self.ref (s.heap.arrays.read self.ref).dropLast)
      (Owns.handles (((s.heap.arrays.read self.ref).getLastD .null).toValue self.sq) ++ L) := by
  have found : (s.push self.obj).stackGet (-1) = .ref .array self.ref := rfl
  have deep : 1 ≤ (s.push self.obj).depth := by
    show 1 ≤ s.top + 1 - s.stackbase
    omega
  apply Yields.bind (Yields.push self.obj)
  apply Yields.bind (Yields.machine (Api.sqArraypop_computes deep found some) rfl)
  apply Yields.bind (Yields.pure (Except.ok ()))
  apply Yields.bind (Yields.takeTop (n := 2) Nat.two_pos ?_)
  · exact Yields.pure _
  · show s.stackbase + 2 ≤ s.top + 2
    omega

theorem pop_fails (based : s.stackbase ≤ s.top)
    (none : ¬ 0 < (s.heap.arrays.read self.ref).length) :
    ∃ e, Yields w₀ self.sq s L (Handle.Array.pop env self)
      (Except.error (.runtime (e.toValue self.sq)) : Except CallError Value) (s.withError e)
      (Owns.handles (e.toValue self.sq) ++ L) := by
  have found : (s.push self.obj).stackGet (-1) = .ref .array self.ref := rfl
  have deep : 1 ≤ (s.push self.obj).depth := by
    show 1 ≤ s.top + 1 - s.stackbase
    omega
  refine ⟨(s.raise "empty array").lasterror, ?_⟩
  apply Yields.bind (Yields.push self.obj)
  apply Yields.bind (Yields.machine (Api.sqArraypop_empty deep found none) rfl)
  apply Yields.bind (Yields.toRuntimeError (n := 1) one_pos ?_)
  · exact Yields.pure _
  · show s.stackbase + 1 ≤ s.top + 1
    omega

theorem len_yields (based : s.stackbase ≤ s.top) :
    Yields w₀ self.sq s L self.len ((s.heap.arrays.read self.ref).length : ℤ) s L := by
  have found : (s.push self.obj).stackGet (-1) = .ref .array self.ref := rfl
  apply Yields.bind (Yields.push self.obj)
  apply Yields.bind (Yields.machine (Api.sqGetsize_computes found) rfl)
  apply Yields.bind (Yields.pop (n := 1) one_pos ?_)
  · exact Yields.pure _
  · show s.stackbase + 1 ≤ s.top + 1
    omega

theorem cloneValue_yields (based : s.stackbase ≤ s.top) :
    Yields w₀ self.sq s L (Handle.Array.cloneValue env self) ⟨self.sq, s.heap.arrays.next⟩
      { s with heap := (s.heap.newArray (s.heap.arrays.read self.ref)).2 }
      (Owns.handles (⟨self.sq, s.heap.arrays.next⟩ : ArrayHandle) ++ L) := by
  have found : (s.push self.obj).stackGet (-1) = .ref .array self.ref := rfl
  have computes : Computes (Api.sqClone env (-1)) _ _ _ := Api.sqClone_computes found
  apply Yields.bind (Yields.push self.obj)
  apply Yields.bind (Yields.machine computes rfl)
  apply Yields.bind (Yields.ensure rfl)
  apply Yields.bind (Yields.takeTop_of (n := 2) Nat.two_pos ?_
    (Yields.handleFromStack (SQVM.validIdx_top ?_) rfl))
  · exact Yields.pure _
  · show s.stackbase + 2 ≤ s.top + 2
    omega
  · show s.stackbase < s.top + 2
    omega

theorem new_yields {vm : VmId} {n : ℤ} (based : s.stackbase ≤ s.top) (size : 0 ≤ n) :
    Yields w₀ vm s L (Handle.Array.new env vm n) ⟨vm, s.heap.arrays.next⟩
      { s with heap := (s.heap.newArray (List.replicate n.toNat .null)).2 }
      (Owns.handles (⟨vm, s.heap.arrays.next⟩ : ArrayHandle) ++ L) := by
  have made : Computes (Api.sqNewarray n) s ()
      ({ s with heap := (s.heap.newArray (List.replicate n.toNat .null)).2 }.push
        (.ref .array s.heap.arrays.next)) := fun _ _ => ⟨_, rfl⟩
  apply Yields.bind (Yields.ensure size)
  apply Yields.bind (Yields.machine made rfl)
  apply Yields.bind (Yields.handleFromStack (SQVM.validIdx_top ?_) rfl)
  · apply Yields.bind (Yields.pure _)
    apply Yields.bind (Yields.onUnwind (Yields.pop (n := 1) one_pos ?_))
    · exact Yields.pure _
    · show s.stackbase + 1 ≤ s.top + 1
      omega
  · show s.stackbase < s.top + 1
    omega

/-- What an operation does, refused or not. -/
theorem perform_yields {op : ListOp} (based : s.stackbase ≤ s.top) (here : op.Allowed self.sq)
    (inRange : op.InRange (s.heap.arrays.read self.ref))
    (strong : ∀ o ∈ s.heap.arrays.read self.ref, o.isWeakRef = false) :
    ∃ e, Yields w₀ self.sq s (op.consumed ++ L) (op.perform env self)
      (ListOp.outcome self.sq e (ListOp.spec self.ref s.heap.arrays op).1)
      (s.withLists (ListOp.spec self.ref s.heap.arrays op).2 e)
      (Owns.handles (ListOp.outcome self.sq e (ListOp.spec self.ref s.heap.arrays op).1) ++ L) := by
  have deep : 1 ≤ (s.push self.obj).depth := by
    show 1 ≤ s.top + 1 - s.stackbase
    omega
  have found : (s.push self.obj).stackGet (-1) = .ref .array self.ref := rfl
  cases op with
  | get i =>
    simp only [ListOp.spec]
    by_cases inside : 0 ≤ i ∧ i < (s.heap.arrays.read self.ref).length
    · rw [if_pos inside]
      obtain ⟨e, got⟩ := @get_yields env w₀ s L self Value _ _ _ i based inside
      rw [s.heap.realval_of_strong (strong _ ?_)] at got
      · exact ⟨e, got.bind (Yields.pure _)⟩
      · rw [List.getD_eq_getElem _ _ (by omega)]
        exact List.getElem_mem _
    · rw [if_neg inside]
      obtain ⟨e, failed⟩ := @get_fails env w₀ s L self Value _ _ i based inside
      exact ⟨e, failed.bind (Yields.pure _)⟩
  | set i x =>
    simp only [ListOp.spec]
    by_cases inside : 0 ≤ i ∧ i < (s.heap.arrays.read self.ref).length
    · rw [if_pos inside]
      exact ⟨s.lasterror, (set_yields based here inside).bind (Yields.pure _)⟩
    · rw [if_neg inside]
      obtain ⟨e, failed⟩ := set_fails based here inside
      exact ⟨e, failed.bind (Yields.pure _)⟩
  | append x => exact ⟨s.lasterror, (append_yields based here).bind (Yields.pure _)⟩
  | pop =>
    simp only [ListOp.spec]
    by_cases some : 0 < (s.heap.arrays.read self.ref).length
    · rw [if_pos some]
      exact ⟨s.lasterror, (pop_yields based some).bind (Yields.pure _)⟩
    · rw [if_neg some]
      obtain ⟨e, failed⟩ := pop_fails based some
      exact ⟨e, failed.bind (Yields.pure _)⟩
  | len => exact ⟨s.lasterror, (len_yields based).bind (Yields.pure _)⟩
  | insert i x =>
    have inside : 0 ≤ i ∧ i ≤ (s.heap.arrays.read self.ref).length := inRange
    simp only [ListOp.spec]
    rw [if_pos inside]
    exact ⟨s.lasterror, (insert_yields based here inside).bind (Yields.pure _)⟩
  | remove i =>
    simp only [ListOp.spec]
    by_cases inside : 0 ≤ i ∧ i < (s.heap.arrays.read self.ref).length
    · rw [if_pos inside]
      exact ⟨s.lasterror, (actWith_yields (fun j => Api.sqArrayremove env j i) based
        (Api.sqArrayremove_computes deep found inside) rfl rfl rfl).bind (Yields.pure _)⟩
    · rw [if_neg inside]
      exact ⟨_, (actWith_fails (fun j => Api.sqArrayremove env j i) based
        (Api.sqArrayremove_outside deep found inside) rfl rfl rfl).bind (Yields.pure _)⟩
  | reverse =>
    exact ⟨s.lasterror, (doWith_yields (Api.sqArrayreverse env) based
      (Api.sqArrayreverse_computes deep found) rfl rfl rfl).bind (Yields.pure _)⟩
  | clear =>
    exact ⟨s.lasterror, (doWith_yields (Api.sqClear env) based
      (Api.sqClear_computes found) rfl rfl rfl).bind (Yields.pure _)⟩
  | resize n =>
    simp only [ListOp.spec]
    by_cases size : 0 ≤ n
    · rw [if_pos size]
      exact ⟨s.lasterror, (actWith_yields (fun j => Api.sqArrayresize env j n) based
        (Api.sqArrayresize_computes deep found size) rfl rfl rfl).bind (Yields.pure _)⟩
    · rw [if_neg size]
      exact ⟨_, (actWith_fails (fun j => Api.sqArrayresize env j n) based
        (Api.sqArrayresize_negative deep found size) rfl rfl rfl).bind (Yields.pure _)⟩
  | cloneValue => exact ⟨s.lasterror, (cloneValue_yields based).bind (Yields.pure _)⟩

end Refinement

/-! ## Runs -/

namespace ListOp

/-- The lists named by `mine` exist and have no weak reference. -/
def Tracked (mine : List ℕ) (lists : Store (List SQObject)) : Prop :=
  ∀ r ∈ mine, r < lists.next ∧ ∀ o ∈ lists.read r, o.isWeakRef = false

theorem Tracked.write {mine : List ℕ} {lists : Store (List SQObject)} (tracked : Tracked mine lists)
    (r : ℕ) {xs : List SQObject} (strong : ∀ o ∈ xs, o.isWeakRef = false) :
    Tracked mine (lists.write r xs) := by
  intro q known
  refine ⟨(tracked q known).1, ?_⟩
  by_cases same : q = r
  · rw [same, Store.read_write_self]
    exact strong
  · rw [Store.read_write_of_ne _ _ same]
    exact (tracked q known).2

theorem Tracked.alloc {mine : List ℕ} {lists : Store (List SQObject)} (tracked : Tracked mine lists)
    {xs : List SQObject} (strong : ∀ o ∈ xs, o.isWeakRef = false) :
    Tracked (lists.next :: mine) (lists.alloc xs).2 := by
  intro q known
  rw [List.mem_cons] at known
  by_cases new : q = lists.next
  · subst new
    refine ⟨Nat.lt_succ_self _, ?_⟩
    rw [show (lists.alloc xs).2.read lists.next = xs from lists.read_alloc_self xs]
    exact strong
  · obtain ⟨old, content⟩ := tracked q (known.resolve_left new)
    refine ⟨Nat.lt_succ_of_lt old, ?_⟩
    rw [Store.read_alloc_of_ne _ _ new]
    exact content

/-- No operation puts a weak reference where there was none. -/
theorem Tracked.spec {mine : List ℕ} {lists : Store (List SQObject)} (tracked : Tracked mine lists)
    {r : ℕ} (known : r ∈ mine) {op : ListOp} (strong : op.Strong) :
    Tracked (op.made lists ++ mine) (ListOp.spec r lists op).2 := by
  have content := (tracked r known).2
  cases op with
  | get i =>
    simp only [ListOp.spec]
    split <;> exact tracked
  | set i x =>
    simp only [ListOp.spec]
    split
    · apply tracked.write r
      intro o mem
      rcases List.mem_or_eq_of_mem_set mem with old | new
      · exact content o old
      · exact new ▸ strong
    · exact tracked
  | append x =>
    apply tracked.write r
    intro o mem
    rcases List.mem_append.1 mem with old | new
    · exact content o old
    · rw [List.mem_singleton.1 new]
      exact strong
  | pop =>
    simp only [ListOp.spec]
    split
    · exact tracked.write r fun o mem => content o (List.mem_of_mem_dropLast mem)
    · exact tracked
  | len => exact tracked
  | insert i x =>
    simp only [ListOp.spec]
    split
    · rename_i inside
      apply tracked.write r
      intro o mem
      rcases (List.mem_insertIdx (by omega)).1 mem with new | old
      · rw [new]
        exact strong
      · exact content o old
    · exact tracked
  | remove i =>
    simp only [ListOp.spec]
    split
    · exact tracked.write r fun o mem => content o (List.mem_of_mem_eraseIdx mem)
    · exact tracked
  | reverse => exact tracked.write r fun o mem => content o (List.mem_reverse.1 mem)
  | clear => exact tracked.write r fun o mem => absurd mem List.not_mem_nil
  | resize n =>
    simp only [ListOp.spec]
    split
    · apply tracked.write r
      intro o mem
      rcases List.mem_append.1 mem with old | filled
      · exact content o (List.mem_of_mem_take old)
      · rw [List.eq_of_mem_replicate filled]
        rfl
    · exact tracked
  | cloneValue => exact tracked.alloc content

end ListOp

/-- A run of operations on an array, on the copies made of it and on new arrays. It names the arrays
it may work on, and what their lists should be. Between the operations handles may be cloned,
dropped and moved. -/
inductive ArrayRun (env : Env) (vm : VmId) (r : ℕ) (start : Session) :
    Session → List ℕ → Store (List SQObject) → Prop where
  | start : ArrayRun env vm r start start [r] (start.world vm).heap.arrays
  | call {w w' : World} {L rest : List Object} {mine : List ℕ} {lists : Store (List SQObject)}
      {q : ℕ} {op : ListOp} {res : Except CallError Reply}
      (before : ArrayRun env vm r start ⟨w, L⟩ mine lists) (known : q ∈ mine)
      (here : op.Allowed vm) (strong : op.Strong) (inRange : op.InRange (lists.read q))
      (moved : L.Perm (op.consumed ++ rest))
      (ran : (op.perform env ⟨vm, q⟩).run w = (.ok res, w')) :
      ArrayRun env vm r start ⟨w', Owns.handles res ++ rest⟩ (op.made lists ++ mine)
        (op.spec q lists).2
  | new {w w' : World} {L : List Object} {mine : List ℕ} {lists : Store (List SQObject)} {n : ℤ}
      {a : ArrayHandle} (before : ArrayRun env vm r start ⟨w, L⟩ mine lists) (size : 0 ≤ n)
      (ran : (Handle.Array.new env vm n).run w = (.ok a, w')) :
      ArrayRun env vm r start ⟨w', Owns.handles a ++ L⟩ (lists.next :: mine)
        (lists.alloc (List.replicate n.toNat .null)).2
  | idle {w w' : World} {L L' : List Object} {mine : List ℕ} {lists : Store (List SQObject)}
      (before : ArrayRun env vm r start ⟨w, L⟩ mine lists) (owned : Owned L' w')
      (same : ∀ j, w' j = { w j with refs := (w' j).refs }) :
      ArrayRun env vm r start ⟨w', L'⟩ mine lists

/-- The machine is as it was at the start of a run, apart from its arrays, its last error, and what
counts references and writes. -/
def SQVM.Holding (s₀ s : SQVM) (lists : Store (List SQObject)) : Prop :=
  ∃ e, s = { s₀.withLists lists e with refs := s.refs, overflowed := s.overflowed }

section Runs

variable {env : Env} {vm : VmId} {r : ℕ} {start now : Session} {mine : List ℕ}
  {lists : Store (List SQObject)}

theorem Yields.holding {w : World} {L L' : List Object} {α : Type} {m : Act World α} {a : α}
    {s₀ : SQVM} {lists' : Store (List SQObject)} {e : SQObject} (holding : s₀.Holding (w vm) lists)
    (owned : Owned L w)
    (yields : Yields w vm (w vm) L m a ((w vm).withLists lists' e) L') :
    ∃ w', m.run w = (.ok a, w') ∧ s₀.Holding (w' vm) lists' ∧ Owned L' w' := by
  obtain ⟨b, w', ran, eq, done⟩ := yields.returns (Exactly.start owned vm)
  obtain ⟨e₀, before⟩ := holding
  subst eq
  refine ⟨w', ran, ⟨e, ?_⟩, done.owned⟩
  rw [done.machine, before]
  rfl

/-- One operation of a run. -/
theorem perform_holding {w : World} {L rest : List Object} {s₀ : SQVM} {q : ℕ} {op : ListOp}
    (based : s₀.stackbase ≤ s₀.top) (holding : s₀.Holding (w vm) lists) (owned : Owned L w)
    (tracked : ListOp.Tracked mine lists) (known : q ∈ mine) (here : op.Allowed vm)
    (inRange : op.InRange (lists.read q)) (moved : L.Perm (op.consumed ++ rest)) :
    ∃ e w', (op.perform env ⟨vm, q⟩).run w = (.ok (ListOp.outcome vm e (op.spec q lists).1), w') ∧
      s₀.Holding (w' vm) (op.spec q lists).2 ∧
      Owned (Owns.handles (ListOp.outcome vm e (op.spec q lists).1) ++ rest) w' := by
  have arrays : (w vm).heap.arrays = lists := by
    obtain ⟨e, eq⟩ := holding
    rw [eq]
    rfl
  have based' : (w vm).stackbase ≤ (w vm).top := by
    obtain ⟨e, eq⟩ := holding
    rw [eq]
    exact based
  subst arrays
  obtain ⟨e, yields⟩ :=
    @perform_yields env w (w vm) rest ⟨vm, q⟩ op based' here inRange (tracked q known).2
  obtain ⟨w', ran, done⟩ := yields.holding holding (owned.perm moved)
  exact ⟨e, w', ran, done⟩

/-- A new array in a run. -/
theorem new_holding {w : World} {L : List Object} {s₀ : SQVM} {n : ℤ}
    (based : s₀.stackbase ≤ s₀.top) (holding : s₀.Holding (w vm) lists) (owned : Owned L w)
    (size : 0 ≤ n) :
    ∃ w', (Handle.Array.new env vm n).run w = (.ok ⟨vm, lists.next⟩, w') ∧
      s₀.Holding (w' vm) (lists.alloc (List.replicate n.toNat .null)).2 ∧
      Owned (Owns.handles (⟨vm, lists.next⟩ : ArrayHandle) ++ L) w' := by
  have arrays : (w vm).heap.arrays = lists := by
    obtain ⟨e, eq⟩ := holding
    rw [eq]
    rfl
  have based' : (w vm).stackbase ≤ (w vm).top := by
    obtain ⟨e, eq⟩ := holding
    rw [eq]
    exact based
  subst arrays
  have yields : Yields w vm (w vm) L (Handle.Array.new env vm n) _
    ((w vm).withLists _ (w vm).lasterror) _ := new_yields based' size
  exact yields.holding holding owned

/-- In every state of a run the machine holds the lists that the operations should have made. -/
theorem ArrayRun.holds (owned : Owned start.live start.world)
    (based : (start.world vm).stackbase ≤ (start.world vm).top)
    (tracked : ListOp.Tracked [r] (start.world vm).heap.arrays)
    (run : ArrayRun env vm r start now mine lists) :
    (start.world vm).Holding (now.world vm) lists ∧ Owned now.live now.world ∧
      ListOp.Tracked mine lists := by
  induction run with
  | start => exact ⟨⟨_, rfl⟩, owned, tracked⟩
  | call before known here strong inRange moved ran ih =>
    obtain ⟨holding, owned', tracked'⟩ := ih
    obtain ⟨e, w', ran', done⟩ :=
      perform_holding based holding owned' tracked' known here inRange moved
    rw [ran] at ran'
    simp only [Prod.mk.injEq, Except.ok.injEq] at ran'
    obtain ⟨rfl, rfl⟩ := ran'
    exact ⟨done.1, done.2, tracked'.spec known strong⟩
  | new before size ran ih =>
    obtain ⟨holding, owned', tracked'⟩ := ih
    obtain ⟨w', ran', done⟩ := new_holding based holding owned' size
    rw [ran] at ran'
    simp only [Prod.mk.injEq, Except.ok.injEq] at ran'
    obtain ⟨rfl, rfl⟩ := ran'
    refine ⟨done.1, done.2, tracked'.alloc fun o mem => ?_⟩
    rw [List.eq_of_mem_replicate mem]
    rfl
  | @idle w w' L L' mine lists before owned' same ih =>
    obtain ⟨⟨e, holding⟩, -, tracked'⟩ := ih
    refine ⟨⟨e, ?_⟩, owned', tracked'⟩
    have flag : (w' vm).overflowed = (w vm).overflowed := by rw [same vm]
    have machine : w vm = _ := holding
    show w' vm = _
    rw [flag]
    conv_lhs => rw [same vm, machine]

/-- An array behaves as a list. In every state of a run the machine is the one of the start with
the lists that the operations should have made, its stack included; the next operation in range
answers what it should, or returns a runtime error and changes no list; and a copy is a list of its
own. -/
theorem arrayRun_refines_lists (owned : Owned start.live start.world)
    (based : (start.world vm).stackbase ≤ (start.world vm).top)
    (allocated : r < (start.world vm).heap.arrays.next)
    (strong : ∀ o ∈ (start.world vm).heap.arrays.read r, o.isWeakRef = false)
    (run : ArrayRun env vm r start now mine lists) :
    (start.world vm).Holding (now.world vm) lists ∧
      (∀ q ∈ mine, ∀ (op : ListOp) rest, now.live.Perm (op.consumed ++ rest) → op.Allowed vm →
        op.InRange (lists.read q) →
        ∃ e w', (op.perform env ⟨vm, q⟩).run now.world =
            (.ok (ListOp.outcome vm e (op.spec q lists).1), w') ∧
          (start.world vm).Holding (w' vm) (op.spec q lists).2) ∧
      (∀ n : ℤ, 0 ≤ n → ∃ w', (Handle.Array.new env vm n).run now.world =
            (.ok ⟨vm, lists.next⟩, w') ∧
          (start.world vm).Holding (w' vm) (lists.alloc (List.replicate n.toNat .null)).2) ∧
      lists.next ∉ mine := by
  have tracked : ListOp.Tracked [r] (start.world vm).heap.arrays := by
    intro q known
    rw [List.mem_singleton.1 known]
    exact ⟨allocated, strong⟩
  obtain ⟨holding, owned', tracked'⟩ := run.holds owned based tracked
  refine ⟨holding, fun q known op rest moved here inRange => ?_, fun n size => ?_, fun known => ?_⟩
  · obtain ⟨e, w', ran, done, -⟩ :=
      perform_holding based holding owned' tracked' known here inRange moved
    exact ⟨e, w', ran, done⟩
  · obtain ⟨w', ran, done, -⟩ := new_holding based holding owned' size
    exact ⟨w', ran, done⟩
  · exact absurd (tracked' _ known).1 (Nat.lt_irrefl _)

end Runs

/-- A machine that has just been opened, with an array on it. -/
def World.withArray (env : Env) (xs : List SQObject) : World :=
  Function.update (World.usual env) 0
    { (World.usual env) 0 with
      heap := (((World.usual env) 0).heap.newArray xs).2 }

section Witness

variable (xs : List SQObject)

theorem World.withArray_owned (env : Env) : Owned [] (World.withArray env xs) :=
  (owned_opened _ _ _).update rfl rfl

theorem World.withArray_based :
    (World.withArray .returning xs 0).stackbase ≤ (World.withArray .returning xs 0).top := by
  show (World.usual .returning 0).stackbase ≤ (World.usual .returning 0).top
  decide +kernel

theorem World.withArray_read : (World.withArray .returning xs 0).heap.arrays.read 0 = xs := by
  have first : ((World.usual .returning) 0).heap.arrays.next = 0 := by decide +kernel
  show (((World.usual .returning) 0).heap.arrays.alloc xs).2.read 0 = xs
  nth_rewrite 2 [← first]
  exact Store.read_alloc_self _ _

theorem World.withArray_next : (World.withArray .returning xs 0).heap.arrays.next = 1 := by
  have first : ((World.usual .returning) 0).heap.arrays.next = 0 := by decide +kernel
  show ((World.usual .returning) 0).heap.arrays.next + 1 = 1
  rw [first]

end Witness

/-- A value is inserted, a removal is refused, and the array is copied; then the copy is read. -/
theorem arrayRun_refines_lists_get : ∃ (now : Session) (mine : List ℕ)
    (lists : Store (List SQObject)) (w' : World),
    ArrayRun .returning 0 0 ⟨World.withArray .returning [.integer 5], []⟩ now mine lists ∧
      ((ListOp.get 1).perform .returning ⟨0, 1⟩).run now.world =
        (.ok (.ok (.value (.integer 5))), w') := by
  have owned := World.withArray_owned [.integer 5] .returning
  have based := World.withArray_based [.integer 5]
  have content := World.withArray_read [.integer 5]
  have next := World.withArray_next [.integer 5]
  generalize World.withArray .returning [.integer 5] = w at *
  have strong : ∀ o ∈ (w 0).heap.arrays.read 0, o.isWeakRef = false := by
    rw [content]
    decide
  have allocated : 0 < (w 0).heap.arrays.next := by omega
  have step : ∀ {now mine lists} (q : ℕ) (op : ListOp),
      ArrayRun .returning 0 0 ⟨w, []⟩ now mine lists →
      q ∈ mine → op.consumed = [] → op.Strong → op.InRange (lists.read q) →
      ∃ now', ArrayRun .returning 0 0 ⟨w, []⟩ now' (op.made lists ++ mine) (op.spec q lists).2 := by
    intro now mine lists q op run known nothing strong' inRange
    have moved : now.live.Perm (op.consumed ++ now.live) := by rw [nothing]; rfl
    have here : op.Allowed 0 := fun o mem => by rw [nothing] at mem; cases mem
    obtain ⟨e, w', ran, -⟩ := (arrayRun_refines_lists owned based allocated strong run).2.1 q known
      op now.live moved here inRange
    exact ⟨_, run.call known here strong' inRange moved ran⟩
  have inside : (ListOp.insert 0 (.integer 7)).InRange ((w 0).heap.arrays.read 0) := by
    show (0 : ℤ) ≤ 0 ∧ (0 : ℤ) ≤ ((w 0).heap.arrays.read 0).length
    omega
  obtain ⟨_, inserted⟩ := step 0 (.insert 0 (.integer 7)) .start List.mem_cons_self rfl rfl inside
  have lists₁ : ((ListOp.insert 0 (.integer 7)).spec 0 (w 0).heap.arrays).2 =
      (w 0).heap.arrays.write 0 [.integer 7, .integer 5] := by
    simp only [ListOp.spec, content]
    rfl
  rw [lists₁] at inserted
  have next₁ : ((w 0).heap.arrays.write 0 [.integer 7, .integer 5]).next = 1 := next
  have read₁ : ((w 0).heap.arrays.write 0 [.integer 7, .integer 5]).read 0 =
      [.integer 7, .integer 5] := Store.read_write_self _ _ _
  generalize (w 0).heap.arrays.write 0 [.integer 7, .integer 5] = lists at inserted next₁ read₁
  obtain ⟨_, refused⟩ := step 0 (.remove 9) inserted List.mem_cons_self rfl trivial trivial
  have lists₂ : ((ListOp.remove 9).spec 0 lists).2 = lists := by
    simp only [ListOp.spec, read₁]
    rfl
  rw [lists₂] at refused
  obtain ⟨now, copied⟩ := step 0 .cloneValue refused List.mem_cons_self rfl trivial trivial
  have copy : (lists.alloc (lists.read 0)).2.read 1 = [.integer 7, .integer 5] := by
    rw [← next₁, read₁]
    exact Store.read_alloc_self _ _
  have made : 1 ∈ ListOp.cloneValue.made lists ++ [0] := by
    simp [ListOp.made, next₁]
  obtain ⟨e, w', ran, -⟩ := (arrayRun_refines_lists owned based allocated strong copied).2.1 1 made
    (.get 1) now.live (.refl _) (fun o mem => absurd mem List.not_mem_nil) trivial
  refine ⟨now, _, _, w', copied, ?_⟩
  rw [ran]
  simp only [ListOp.spec, copy]
  rfl

/-- An `insert` out of range panics where the array and its value are all there is on the stack, and
takes the caller's slot where there is one. -/
theorem insert_out_of_range :
    (((ListOp.insert 2 (.integer 7)).perform .returning ⟨0, 0⟩).run
        (World.withArray .returning [.integer 5])).1 =
        .error (.panic "attempted to pop more elements than the stack has") ∧
      (((ListOp.insert 2 (.integer 7)).perform .returning ⟨0, 0⟩).run
        (Function.update (World.withArray .returning [.integer 5]) 0
          ((World.withArray .returning [.integer 5] 0).push (.integer 9)))).1.isOk ∧
      ((((ListOp.insert 2 (.integer 7)).perform .returning ⟨0, 0⟩).run
        (Function.update (World.withArray .returning [.integer 5]) 0
          ((World.withArray .returning [.integer 5] 0).push (.integer 9)))).2 0).stack = [] := by
  decide +kernel

end Squirrels
