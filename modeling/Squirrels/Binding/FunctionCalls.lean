import Squirrels.Binding.TrampolineExact
import Squirrels.Vm.NativeCall

/-!
# Rust functions as native closures

The native closure that `create_function` makes around a Rust function, and what `sq_call` does with
it: in the frame that `CallNative` builds the trampoline finds the function and its arguments, and
the call ends in the way the trampoline does.
-/

namespace Squirrels

open Machines

/-! ## Functions on the heap -/

/-- A native closure around a function: its free variable is a userdata with the function. -/
structure Heap.HoldsFunction (h : Heap) (closure r function typeId : ℕ) : Prop where
  closure_made : closure < h.natives.next
  closure_eq : h.natives.read closure = ⟨function, some (.ref .userData r), none, 0, [], .null⟩
  made : r < h.userData.next
  payload : (h.userData.read r).payload.map Payload.typeId = some typeId
  tag : (h.userData.read r).typetag = userdataTag

/-- The box that the free variable of a native closure holds. -/
def Heap.functionBox (h : Heap) (closure : ℕ) : Option Payload :=
  match (h.natives.read closure).upvalue with
  | some (.ref .userData r) => (h.userData.read r).payload
  | _ => none

/-- The function of a native closure is not mutably borrowed. -/
def Heap.FunctionFree (h : Heap) (closure : ℕ) : Prop := ∃ p ∈ h.functionBox closure, p.Borrowable

/-- The heap with the userdata that `UserData::new` makes. -/
def Heap.withUserData (h : Heap) (typeId : ℕ) : Heap :=
  let r := h.userData.next
  let userData := (h.userData.alloc ⟨0, some ⟨typeId, 0⟩, none⟩).2
  { h with userData := userData.write r { userData.read r with typetag := userdataTag } }

/-- The heap with the native closure that `create_function` makes. -/
def Heap.withFunction (h : Heap) (function typeId : ℕ) : Heap :=
  let upvalue : SQObject := .ref .userData h.userData.next
  { h.withUserData typeId with
    natives := (h.natives.alloc ⟨function, some upvalue, none, 0, [], .null⟩).2 }

section Created

variable {env : Env} {w₀ : World} {vm : VmId} {s : SQVM} {L : List Object}
  {closure r function typeId : ℕ} {h h' : Heap}

theorem Heap.HoldsFunction.grows (holds : h.HoldsFunction closure r function typeId)
    (grows : h.Grows h') : h'.HoldsFunction closure r function typeId where
  closure_made := holds.closure_made.trans_le grows.natives_next
  closure_eq := (grows.natives _ holds.closure_made).trans holds.closure_eq
  made := holds.made.trans_le grows.userData_next
  payload := (grows.payload _ holds.made).trans holds.payload
  tag := (grows.typetag _ holds.made).trans holds.tag

/-- The box has the function in it, whoever borrows it. -/
theorem Heap.HoldsFunction.box (holds : h.HoldsFunction closure r function typeId) :
    ∃ p, (h.userData.read r).payload = some p ∧ p.typeId = typeId ∧
      (h.FunctionFree closure ↔ p.Borrowable) := by
  obtain ⟨p, found, typed⟩ := Option.map_eq_some_iff.1 holds.payload
  refine ⟨p, found, typed, ?_⟩
  unfold Heap.FunctionFree Heap.functionBox
  simp only [holds.closure_eq, found, Option.mem_some_iff, exists_eq_left']

theorem Heap.holdsFunction_withFunction (h : Heap) (function typeId : ℕ) :
    (h.withFunction function typeId).HoldsFunction h.natives.next h.userData.next function
      typeId where
  closure_made := Nat.lt_succ_self _
  closure_eq := Store.read_alloc_self _ _
  made := Nat.lt_succ_self _
  payload := by
    unfold Heap.withFunction Heap.withUserData
    simp only [Store.read_write_self]
    exact congrArg (fun u : SQUserData => u.payload.map Payload.typeId)
      (Store.read_alloc_self _ _)
  tag := congrArg SQUserData.typetag (Store.read_write_self _ _ _)

/-- A function that has just been created can be borrowed. -/
theorem Heap.functionFree_withFunction (h : Heap) (function typeId : ℕ) :
    (h.withFunction function typeId).FunctionFree h.natives.next := by
  obtain ⟨p, found, -, free⟩ := (h.holdsFunction_withFunction function typeId).box
  have payload : ((h.withFunction function typeId).userData.read h.userData.next).payload =
      some ⟨typeId, 0⟩ := by
    unfold Heap.withFunction Heap.withUserData
    simp only [Store.read_write_self]
    exact congrArg SQUserData.payload (Store.read_alloc_self _ _)
  obtain rfl := Option.some.inj (found.symm.trans payload)
  refine free.2 ⟨le_rfl, ?_⟩
  show (0 : ℤ) < isizeMax
  decide

theorem userDataNew_yields (based : s.stackbase ≤ s.top) (typeId : ℕ) :
    Yields w₀ vm s L (Handle.UserData.new env vm typeId) ⟨vm, s.heap.userData.next⟩
      { s with heap := s.heap.withUserData typeId }
      (Owns.handles (⟨vm, s.heap.userData.next⟩ : UserData) ++ L) := by
  let fresh : Heap := { s.heap with
    userData := (s.heap.userData.alloc ⟨0, some ⟨typeId, 0⟩, none⟩).2 }
  let made : SQVM := { s with heap := fresh }
  have allocated : Computes (Api.sqNewuserdata ⟨typeId, 0⟩) s ()
      (made.push (.ref .userData s.heap.userData.next)) := fun _ _ => ⟨_, rfl⟩
  have tagged : Computes (Api.sqSettypetag (-1) userdataTag)
      (made.push (.ref .userData s.heap.userData.next)) .ok
      ({ s with heap := s.heap.withUserData typeId }.push
        (.ref .userData s.heap.userData.next)) := by
    intro refs flag
    refine ⟨flag, ?_⟩
    rfl
  apply Yields.bind (Yields.machine allocated rfl)
  apply Yields.bind (Yields.machine tagged rfl)
  apply Yields.bind (Yields.ensure rfl)
  apply Yields.bind (Yields.handleFromStack (SQVM.validIdx_top ?_) rfl)
  · apply Yields.bind (Yields.pure _)
    refine Yields.bind (Yields.onUnwind (Yields.pop one_pos ?_)) (Yields.pure _)
    show s.stackbase + 1 ≤ s.top + 1
    omega
  · show s.stackbase < s.top + 1
    omega

theorem createFunction_yields (based : s.stackbase ≤ s.top) (function typeId : ℕ) :
    Yields w₀ vm s L (Squirrel.createFunction env vm function typeId) ⟨vm, s.heap.natives.next⟩
      { s with heap := s.heap.withFunction function typeId }
      (Owns.handles (⟨vm, s.heap.natives.next⟩ : NativeClosure) ++ L) := by
  let boxed : SQVM := { s with heap := s.heap.withUserData typeId }
  let made : SQVM := { s with heap := s.heap.withFunction function typeId }
  let self : SQObject := .ref .nativeClosure s.heap.natives.next
  have enough : (made.push self).stackbase + 1 ≤ (made.push self).top := by
    show s.stackbase + 1 ≤ s.top + 1
    omega
  have closed : Computes (Api.sqNewclosure function)
      (boxed.push (.ref .userData s.heap.userData.next)) () (made.push self) :=
    fun _ _ => ⟨_, rfl⟩
  have read : Yields w₀ vm (made.push self)
      (Owns.handles (⟨vm, s.heap.userData.next⟩ : UserData) ++ L) (Object.fromStack (-1) vm)
      ⟨vm, self⟩ _ _ := Yields.fromStack (SQVM.validIdx_top (by omega))
  apply Yields.bind (userDataNew_yields based typeId)
  apply Yields.bind (Yields.push _)
  apply Yields.bind (Yields.machine closed rfl)
  apply Yields.bind (Yields.onUnwind read)
  apply Yields.bind (Yields.onUnwind (Yields.pop one_pos enough))
  apply Yields.bind ((Yields.dropValue _).perm (List.Perm.swap _ _ _))
  exact Yields.pure _

/-- A function that has been created is still there, since nothing rewrites native closures and
userdata. -/
theorem Heap.HoldsFunction.of_created {w₁ w : World} {self : NativeClosure}
    (owned : Owned L w₀) (based : (w₀ vm).stackbase ≤ (w₀ vm).top)
    (created : (Squirrel.createFunction env vm function typeId).run w₀ = (.ok self, w₁))
    (grown : (w₁ vm).heap.Grows (w vm).heap) :
    self.sq = vm ∧ ∃ r, (w vm).heap.HoldsFunction self.ref r function typeId := by
  obtain ⟨_, w₁', ran, rfl, done⟩ :=
    (createFunction_yields based function typeId).returns (Exactly.start owned vm)
  rw [created] at ran
  cases ran
  have heap : (w₁ vm).heap = (w₀ vm).heap.withFunction function typeId := by rw [done.machine]
  rw [heap] at grown
  exact ⟨rfl, _, (Heap.holdsFunction_withFunction _ _ _).grows grown⟩

end Created

/-! ## Through `sq_call` -/

/-- On a machine the C function does what the program does where that returns. The other machines
are as they are in `w`, which the program may depend on. -/
def Env.Runs (env : Env) (function : ℕ) (m : VmId → Act World ℤ) (w : World) (vm : VmId) : Prop :=
  ∀ {w₁ w₂ : World} {L : List Object} {ret : ℤ}, Owned L w₁ → (∀ j, j ≠ vm → Apart (w j) (w₁ j)) →
    (m vm).run w₁ = (.ok ret, w₂) → env.native function (w₁ vm) = (ret, w₂ vm)

/-- The machine has called something from `s` and is back: the slots are as given, and apart from
them it is as it was. -/
structure CameBack (env : Env) (s : SQVM) (stack : List SQObject) (invoked : List ℕ) (t : SQVM) :
    Prop extends Same env s t where
  stack_eq : t.stack = stack
  root_eq : t.root = s.root
  invoked_eq : t.invoked = invoked

section Call

variable {env : Env} {w₀ w : World} {vm : VmId} {s m n t : SQVM} {L : List Object} {q r c size : ℕ}
  {args st lower : List SQObject} {this upvalue : SQObject} {invoked : List ℕ}

/-- The machine that a C function leaves, back in the frame of the machine that called it. -/
theorem CameBack.of_native (kept : Kept env (m.inNative size upvalue lower.length) t)
    (larger : m.stackSize ≤ size) (root : t.root = m.root) (recorded : t.invoked = invoked)
    (stack : List SQObject) :
    CameBack env m stack invoked { t.backIn m with stack := stack } where
  stackbase := rfl
  calls := rfl
  nnativecalls := rfl
  nmetamethodscall := kept.nmetamethodscall
  suspended := kept.suspended
  registered := kept.registered
  stackSize := larger.trans kept.stackSize
  heap := kept.heap
  overflowed := kept.overflowed
  stack_eq := rfl
  root_eq := root
  invoked_eq := recorded

section SqCall

variable (located : m.stack = args.reverse ++ this :: .ref .nativeClosure q :: st)

include located

/-- The native closure is called with the arguments above it. -/
theorem call_eq_callNative :
    m.call env (m.up (args.length + 1)) (args.length + 1) (m.top - (args.length + 1)) =
      m.callNative env q (args.reverse.length + 1) (.ref .nativeClosure q :: st).length := by
  have callee : m.up (args.length + 1) = .ref .nativeClosure q := by
    rw [SQVM.up, located, List.getD_append_right _ _ _ _ (by simp)]
    simp
  have height : m.top - (args.length + 1) = (SQObject.ref .nativeClosure q :: st).length := by
    rw [SQVM.top, located]
    simp only [List.length_append, List.length_reverse, List.length_cons]
    omega
  rw [callee, height, List.length_reverse]
  rfl

theorem drop_arguments : m.stack.drop (args.length + 1) = .ref .nativeClosure q :: st := by
  rw [located, List.append_cons, List.drop_left']
  simp

/-- `sq_call` of a native closure that returns. The arguments of a suspended machine stay. -/
theorem sqCall_returned {o : SQObject} (stack : n.stack = m.stack)
    (called : m.callNative env q (args.reverse.length + 1) (.ref .nativeClosure q :: st).length =
      (.returned o, n)) :
    (Api.sqCall env (args.length + 1)).run m = (.ok .ok, { n with
      stack := if n.suspended then m.stack else .ref .nativeClosure q :: st }.apiPush o) := by
  have dropped := drop_arguments located
  unfold Api.sqCall
  rw [Act.run_bind, Act.run_step, call_eq_callNative located, called]
  simp only [CallResult.returned, Bool.not_true, Bool.false_eq_true, if_false]
  rw [Act.run_bind_of_ok (Act.run_get n)]
  by_cases stays : n.suspended = true
  · rw [if_neg (by simp [stays]), if_pos stays, ← stack]
    rfl
  · rw [if_pos (by simpa using stays), if_neg stays, ← dropped, ← stack]
    rfl

/-- `sq_call` of a native closure that throws. -/
theorem sqCall_threw (stack : n.stack = m.stack)
    (called : m.callNative env q (args.reverse.length + 1) (.ref .nativeClosure q :: st).length =
      (.failed, n)) :
    (Api.sqCall env (args.length + 1)).run m =
      (.ok .error, { n with stack := .ref .nativeClosure q :: st }) := by
  have dropped := drop_arguments located
  unfold Api.sqCall
  rw [Act.run_bind, Act.run_step, call_eq_callNative located, called]
  rw [← dropped, ← stack]
  rfl

end SqCall

/-- The machine itself is replaced in the middle of an operation. -/
theorem Exactly.replaced (start : Exactly w₀ vm s L w)
    (same : n = { t with refs := n.refs, overflowed := n.overflowed })
    (refs : n.refs = (w vm).refs) (root : n.root = (w vm).root) :
    Exactly w₀ vm t L (Function.update w vm n) where
  machine := by rw [Function.update_self]; exact same
  owned := start.owned.update refs root
  others j other := by rw [Function.update_of_ne other]; exact start.others j other

/-- What is known about the machine is known about the one that an operation describes. -/
theorem CameBack.of_exactly {stack : List SQObject} (start : Exactly w₀ vm s L w)
    (back : CameBack env (w vm) stack invoked t) :
    CameBack env s stack invoked { t with overflowed := s.overflowed } := by
  rw [start.machine] at back
  exact ⟨⟨back.stackbase, back.calls, back.nnativecalls, back.nmetamethodscall, back.suspended,
    back.registered, back.stackSize, back.heap, fun _ => rfl⟩, back.stack_eq, back.root_eq,
    back.invoked_eq⟩

section Function

variable {A R : Type} [Owns A] [FromArgs A] [Owns R] [IntoSquirrel R] {f : RustFunction env A R}

omit [FromArgs A] in
/-- What the C function does is what the trampoline does. -/
theorem native_ends {inside : SQVM} {m : VmId → Act World ℤ} {o : Except SQObject SQObject}
    (runs : env.Runs c m w₀ vm) (owned : Owned L w) (others : ∀ j, j ≠ vm → Apart (w₀ j) (w j))
    (here : w vm = inside)
    (ends : NativeEnds env w vm inside L invoked ((m vm).run w) o) :
    ∃ t x, Kept env inside t ∧ t.root = inside.root ∧ t.invoked = invoked ∧
      match o with
      | .ok v => env.native c inside = (1, x) ∧
        x = { t.push v with refs := inside.refs, overflowed := x.overflowed }
      | .error v => env.native c inside = (-1, x) ∧ t.lasterror = v ∧
        x = { t with refs := inside.refs, overflowed := x.overflowed } := by
  have law := env.native_law c inside
  rcases ran : (m vm).run w with ⟨ret, w₂⟩
  rw [ran] at ends
  cases o with
  | ok v =>
    obtain ⟨t, kept, root, recorded, returned, done⟩ := ends
    obtain rfl : ret = .ok 1 := returned
    have native := runs owned others ran
    rw [here] at native
    rw [native] at law
    refine ⟨t, w₂ vm, kept, root, recorded, native, ?_⟩
    rw [← law.refs]
    exact done.machine
  | error v =>
    obtain ⟨t, kept, root, recorded, returned, thrown, done⟩ := ends
    obtain rfl : ret = .ok (-1) := returned
    have native := runs owned others ran
    rw [here] at native
    rw [native] at law
    refine ⟨t, w₂ vm, kept, root, recorded, native, thrown, ?_⟩
    rw [← law.refs]
    exact done.machine

/-- A call of a function goes through the trampoline, in a frame with the arguments between `this`
and the userdata of the function. -/
theorem function_called (runs : env.Runs c (closureTrampoline env f c) w₀ vm)
    (owned : Owned L w) (others : ∀ j, j ≠ vm → Apart (w₀ j) (w j))
    (located : (w vm).stack = args.reverse ++ this :: .ref .nativeClosure q :: st)
    (base : (w vm).stackbase ≤ st.length) (holds : (w vm).heap.HoldsFunction q r c f.typeId)
    (shallow : (w vm).nnativecalls < maxNativeCalls)
    (room : (w vm).nmetamethodscall = 0 ∨
      (w vm).top + 1 + minStackOverhead ≤ (w vm).stackSize) :
    ∃ w₁ p, Owned L w₁ ∧ (w₁ vm).FunctionFrame r p args ∧ p.typeId = f.typeId ∧
      ((w vm).heap.FunctionFree q ↔ p.Borrowable) ∧
      (w₁ vm).invoked = (w vm).invoked ∧ (∀ j, j ≠ vm → w₁ j = w j) ∧
      ∀ o invoked,
        NativeEnds env w₁ vm (w₁ vm) L invoked ((closureTrampoline env f c vm).run w₁) o →
        match o with
        | .ok v => ∃ t n, CameBack env (w vm)
            (if (w vm).suspended then (w vm).stack else .ref .nativeClosure q :: st) invoked t ∧
          (Api.sqCall env (args.length + 1)).run (w vm) = (.ok .ok, n) ∧
          n = { t.push v with refs := (w vm).refs, overflowed := n.overflowed }
        | .error v => ∃ t n, CameBack env (w vm) (.ref .nativeClosure q :: st) invoked t ∧
          t.lasterror = v ∧ (Api.sqCall env (args.length + 1)).run (w vm) = (.ok .error, n) ∧
          n = { t with refs := (w vm).refs, overflowed := n.overflowed } := by
  obtain ⟨size, larger, called⟩ := @SQVM.callNative_run env (w vm) args.reverse
    (.ref .nativeClosure q :: st) this _ q c located holds.closure_eq shallow room
  set m := w vm with m_eq
  let upvalue : SQObject := .ref .userData r
  let lower : List SQObject := .ref .nativeClosure q :: st
  let inside := m.inNative size upvalue lower.length
  have base' : m.stackbase ≤ lower.length := base.trans (Nat.le_succ _)
  have height : lower.length ≤ m.top := by
    rw [SQVM.top, located]
    simp only [List.length_append, List.length_cons, lower]
    omega
  have here : Function.update w vm inside vm = inside := Function.update_self _ _ _
  have owned' : Owned L (Function.update w vm inside) := owned.update rfl rfl
  have others' : ∀ j, j ≠ vm → Apart (w₀ j) (Function.update w vm inside j) := fun j other => by
    rw [Function.update_of_ne other]
    exact others j other
  obtain ⟨p, found, typed, free⟩ := holds.box
  refine ⟨Function.update w vm inside, p, owned', ?_, typed, free, ?_, fun j other =>
    Function.update_of_ne other _ _, fun o invoked ends => ?_⟩
  · rw [here]
    exact ⟨⟨this, _, congrArg (upvalue :: ·) located, rfl⟩, found, holds.tag⟩
  · rw [here]
    rfl
  rw [here] at ends
  obtain ⟨t, x, kept, root, recorded, ended⟩ := native_ends runs owned' others' here ends
  have framed := (SQVM.calledFrom_inNative m size upvalue lower.length).kept kept
  have stays : t.suspended = m.suspended := kept.suspended
  have back : (x.backIn m).stack = m.stack := rfl
  cases o with
  | ok v =>
    obtain ⟨native, same⟩ := ended
    rw [native] at called
    have framed' : SQVM.CalledFrom m lower.length (v :: [upvalue]) x := by
      have pushed := framed.push v
      rw [same]
      exact ⟨pushed.stack, pushed.stackbase, pushed.calls, pushed.nnativecalls⟩
    rw [framed'.nativeReturn_one base' height] at called
    have top : x.up 0 = v := by
      rw [same]
      rfl
    rw [top] at called
    have slots : (if (x.backIn m).suspended then m.stack else lower) =
        if m.suspended then m.stack else lower := by
      rw [same]
      exact congrArg (fun b : Bool => if b then m.stack else lower) stays
    have ran := sqCall_returned located back called
    rw [slots] at ran
    refine ⟨_, _, CameBack.of_native kept larger root recorded _, ran, ?_⟩
    rw [same]
    rfl
  | error v =>
    obtain ⟨native, thrown, same⟩ := ended
    rw [native] at called
    have framed' : SQVM.CalledFrom m lower.length [upvalue] x := by
      rw [same]
      exact ⟨framed.stack, framed.stackbase, framed.calls, framed.nnativecalls⟩
    rw [framed'.nativeReturn_error base' height] at called
    refine ⟨_, _, CameBack.of_native kept larger root recorded _, thrown,
      sqCall_threw located back called, ?_⟩
    rw [same]
    rfl

end Function

end Call

end Squirrels
