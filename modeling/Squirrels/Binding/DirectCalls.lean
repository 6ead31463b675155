import Squirrels.Binding.FunctionCalls
import Squirrels.Binding.Isolation
import Squirrels.Binding.SlotsExact

/-!
# Calls of Rust functions

`call` and `call_with` take a call of a Rust function through the machine and back. Between them and
a direct call of the function lie the arguments on the stack, the frame of the C function, the
indices of the trampoline and the way errors take.

The box of the function is a userdata like others. `resurrectunreachable` hands it out when the
native closure is in a circle that nothing refers to, and `borrow_mut` takes it. A function that is
borrowed in this way is not called.
-/

namespace Squirrels

open Machines

/-! ## Through `call_closure` -/

/-- A string that a function of the binding throws, as its caller gets it. -/
def thrownText (vm : VmId) (message : List UInt8) : Value := .string ⟨vm, message, message⟩

/-- What the caller gets when the C function returns an object, or throws it. -/
def callerResult {ν : Type} [Owns ν] [FromSquirrel ν] [ExactFrom ν] (vm : VmId) :
    Except SQObject SQObject → Except CallError ν
  | .ok v => liftError (ExactFrom.decode vm v)
  | .error v => .error (.runtime (v.toValue vm))

/-- What the caller gets, given how a direct call of the function ends: the result converted to the
type that is asked for, the same error, or a string for a panic. -/
def callerEnd {R ν : Type} [Owns R] [IntoSquirrel R] [ExactInto R] [Owns ν] [FromSquirrel ν]
    [ExactFrom ν] (vm : VmId) : Except Stop (Except Value R) → Option (Except CallError ν)
  | .ok (.ok r) => some (liftError (ExactFrom.decode vm (ExactInto.encode r)))
  | .ok (.error v) => some (.error (.runtime v))
  | .error (.panic _) =>
    some (.error (.runtime (thrownText vm (ascii "panic in native function"))))
  | .error _ => none

/-- A call that started in `w` has ended with the result `r`. The machine is back where it was, and
so is its stack unless it is suspended; `invoked` records the functions that have been run. -/
def CallEnds (env : Env) (w : World) (vm : VmId) (L : List Object) {ν : Type} [Owns ν]
    (ran : Except Stop (Except CallError ν) × World) (invoked : List ℕ) (r : Except CallError ν) :
    Prop :=
  ran.1 = .ok r ∧ ∃ t, Same env (w vm) t ∧ t.invoked = invoked ∧
    ((w vm).suspended = false → t.stack = (w vm).stack) ∧
    Exactly w vm t (Owns.handles r ++ L) ran.2

/-- The world in which the function is run: the arguments lie in the frame between `this` and the
userdata of the function, and the run has been recorded. -/
structure RunsIn (w : World) (vm : VmId) (L : List Object) (function : ℕ) (args : List SQObject)
    (w₁ : World) : Prop where
  frame : ∃ r, (w₁ vm).ArgFrame (.ref .userData r) args
  invoked : (w₁ vm).invoked = function :: (w vm).invoked
  owned : Owned L w₁
  others : ∀ j, j ≠ vm → Apart (w j) (w₁ j)

section DirectCall

variable {env : Env} {A R ν : Type} [Owns A] [Owns R] [IntoSquirrel R] [ExactInto R] [Owns ν]
  [FromSquirrel ν] [ExactFrom ν] (f : RustFunction env A R) (function : ℕ) (w : World) (vm : VmId)
  (L : List Object) (args : List SQObject) (ran : Except Stop (Except CallError ν) × World)

/-- A call of the function through the machine is a direct call of it. Arguments that do not fit
give an error, and the function is not run; otherwise it is run once, on the decoded arguments, and
the caller gets what it ends with. -/
def DirectCall : Except Error A → Prop
  | .error e => CallEnds env w vm L ran (w vm).invoked
    (.error (.runtime (thrownText vm (extractionMessage e))))
  | .ok a => ∃ w₁, RunsIn w vm L function args w₁ ∧
    ∀ r, callerEnd vm ((f.run a vm).run w₁).1 = some r →
      CallEnds env w vm L ran (((f.run a vm).run w₁).2 vm).invoked r

/-- Where the function is run on such arguments it returns or panics. -/
def ReturnsOrPanics (decoded : Except Error A) : Prop :=
  ∀ a w₁, decoded = .ok a → RunsIn w vm L function args w₁ →
    ∀ stop, ((f.run a vm).run w₁).1 = .error stop → ∃ message, stop = .panic message

/-- The call is a direct one when `free` holds. It is not when `free` does not hold, as far as the
function comes back at all. -/
def DirectIff (free : Prop) (decoded : Except Error A) : Prop :=
  (free → DirectCall f function w vm L args ran decoded) ∧
    (ReturnsOrPanics f function w vm L args decoded →
      (DirectCall f function w vm L args ran decoded ↔ free))

end DirectCall

section Closure

variable {env : Env} {w w₁ w₂ : World} {vm : VmId} {s t m : SQVM} {L : List Object} {q r c : ℕ}
  {this v : SQObject} {os : List SQObject} {invoked : List ℕ} {B ν : Type} [Owns B] [IntoArgs B]
  [Owns ν] [FromSquirrel ν] [ExactFrom ν] {args : B}

/-- The machine with a function, `this` and arguments on the stack. -/
def SQVM.calling (s : SQVM) (callee this : SQObject) (os : List SQObject) : SQVM :=
  ((s.push callee).push this).pushAll os

/-- A machine that is back from a call differs from the one that started the call in its slots. -/
theorem CameBack.same {callee : SQObject} {stack slots : List SQObject} {e : SQObject}
    (back : CameBack env (s.calling callee this os) stack invoked t) :
    Same env s { t with stack := slots, lasterror := e } :=
  ⟨back.stackbase, back.calls, back.nnativecalls, back.nmetamethodscall, back.suspended,
    back.registered, back.stackSize, back.heap, back.overflowed⟩

/-- What `call_closure` does with the answer of `sq_call`. -/
def finishCall (env : Env) (sq : VmId) (ret : SQRESULT) : Act World (Except CallError ν) := do
  match ← ret.toRuntimeError env sq 1 with
  | .error e => pure (.error e)
  | .ok () =>
    let val ← Handle.takeTop env sq 2
    pure (liftError val)

omit [Owns B] [ExactFrom ν] in
theorem callClosure_run {ret : SQRESULT}
    (pushed : (IntoArgs.pushArgs env args vm).run w₁ = (.ok (os.length : ℤ), w₂))
    (called : (Api.sqCall env (os.length + 1)).run (w₂ vm) = (.ok ret, m)) :
    (callClosure env vm args : Act World (Except CallError ν)).run w₁ =
      (finishCall env vm ret).run (Function.update w₂ vm m) := by
  have count : ((os.length : ℤ) + 1).toNat = os.length + 1 := by omega
  have called' : ((Api.sqCall env (os.length + 1)).on vm).run w₂ =
      (.ok ret, Function.update w₂ vm m) := by rw [Act.run_on, called]
  unfold callClosure
  rw [Act.run_bind_of_ok pushed]
  simp only [count]
  rw [Act.run_bind_of_ok called']
  rfl

/-- The machine after the call, whatever has been written outside of the stack vector. -/
theorem Exactly.called (done : Exactly w vm s L w₂)
    (same : m = { t with refs := (w₂ vm).refs, overflowed := m.overflowed })
    (root : t.root = (w₂ vm).root) (flag : Bool) :
    Exactly w vm { t with overflowed := flag } L (Function.update w₂ vm m) := by
  have refs : m.refs = (w₂ vm).refs := by rw [same]
  apply done.replaced _ refs
  · rw [same]
    exact root
  · rw [refs]
    exact same

section Ends

variable (done : Exactly w vm ((w vm).calling (.ref .nativeClosure q) this os) L w₂)
  (based : (w vm).stackbase ≤ (w vm).top)

include done based

/-- The result of the function is converted, and the stack is cleared. -/
theorem finishCall_returned
    (back : CameBack env (w₂ vm) (if (w₂ vm).suspended then (w₂ vm).stack else
      .ref .nativeClosure q :: (w vm).stack) invoked t)
    (same : m = { t.push v with refs := (w₂ vm).refs, overflowed := m.overflowed }) :
    CallEnds env w vm L ((finishCall env vm .ok).run (Function.update w₂ vm m)) invoked
      (liftError (ExactFrom.decode vm v) : Except CallError ν) := by
  have back' := back.of_exactly done
  have done' := Exactly.called done same back.root_eq (w vm).overflowed
  let t' : SQVM := { t with overflowed := (w vm).overflowed }
  have base : t'.stackbase = (w vm).stackbase := back'.stackbase
  have slots : (w vm).top + 1 ≤ t'.top := by
    show (w vm).stack.length + 1 ≤ t.stack.length
    rw [back.stack_eq]
    split
    · rw [done.machine]
      simp [SQVM.calling, SQVM.pushAll, SQVM.push]
      omega
    · rfl
  have enough : (t'.push v).stackbase + 2 ≤ (t'.push v).top := by
    show t'.stackbase + 2 ≤ t'.top + 1
    omega
  obtain ⟨e, taken⟩ := @takeTop_exact env w (t'.push v) L ν _ _ _ vm 2 Nat.two_pos enough
  have finished : Yields w vm (t'.push v) L (finishCall env vm .ok)
      (liftError (ExactFrom.decode vm v) : Except CallError ν) (((t'.push v).pop 2).withError e)
      (Owns.handles (liftError (ExactFrom.decode vm v) : Except CallError ν) ++ L) := by
    rw [handles_liftError]
    apply Yields.bind (Yields.pure (Except.ok ()))
    exact Yields.bind taken (Yields.pure _)
  obtain ⟨_, w₃, ran, rfl, done''⟩ := finished.returns done'
  rw [ran]
  refine ⟨rfl, ((t'.push v).pop 2).withError e, back'.same, back.invoked_eq, fun runs => ?_, done''⟩
  have runs' : ¬ (w₂ vm).suspended = true := by
    rw [done.machine]
    exact Bool.eq_false_iff.1 runs
  show t.stack.drop 1 = _
  rw [back.stack_eq, if_neg runs']
  rfl

omit [ExactFrom ν] in
/-- The error of the function is taken, and the stack is cleared. -/
theorem finishCall_threw
    (back : CameBack env (w₂ vm) (.ref .nativeClosure q :: (w vm).stack) invoked t)
    (thrown : t.lasterror = v)
    (same : m = { t with refs := (w₂ vm).refs, overflowed := m.overflowed }) :
    CallEnds env w vm L ((finishCall env vm .error).run (Function.update w₂ vm m)) invoked
      (.error (.runtime (v.toValue vm)) : Except CallError ν) := by
  have back' := back.of_exactly done
  have done' := Exactly.called done same back.root_eq (w vm).overflowed
  let t' : SQVM := { t with overflowed := (w vm).overflowed }
  have base : t'.stackbase = (w vm).stackbase := back'.stackbase
  have stack : t'.stack = .ref .nativeClosure q :: (w vm).stack := back.stack_eq
  have enough : t'.stackbase + 1 ≤ t'.top := by
    rw [base, SQVM.top, stack]
    exact Nat.succ_le_succ based
  have taken : Yields w vm t' L (finishCall env vm .error : Act World (Except CallError ν))
      (.error (.runtime (v.toValue vm))) (t'.pop 1) (Owns.handles (v.toValue vm) ++ L) := by
    rw [← thrown]
    exact Yields.bind (Yields.toRuntimeError one_pos enough) (Yields.pure _)
  obtain ⟨_, w₃, ran, rfl, done''⟩ := taken.returns done'
  rw [ran]
  refine ⟨rfl, t'.pop 1, back'.same, back.invoked_eq, fun _ => ?_, done''⟩
  show t'.stack.drop 1 = _
  rw [stack]
  rfl

end Ends

section Direct

variable {A R : Type} [Owns A] [FromArgs A] [ExactFromArgs A] [Owns R] [IntoSquirrel R]
  [ExactInto R] {f : RustFunction env A R}

/-- What a call needs: a function that is still there, the frame of the caller, fewer native calls
than can be nested and, below a metamethod, room for the frame. -/
structure CanRun (env : Env) (s : SQVM) (f : RustFunction env A R) (q r c n : ℕ) : Prop where
  holds : s.heap.HoldsFunction q r c f.typeId
  based : s.stackbase ≤ s.top
  shallow : s.nnativecalls < maxNativeCalls
  room : s.nmetamethodscall = 0 ∨ s.top + n + 3 + minStackOverhead ≤ s.stackSize

omit [ExactFromArgs A] [ExactInto R] in
/-- The call ends as the trampoline does in the frame that the machine builds for it. -/
theorem callClosure_ends [ExactIntoArgs B]
    (runs : env.Runs c (closureTrampoline env f c) w vm)
    (start : Exactly w vm (((w vm).push (.ref .nativeClosure q)).push this)
      (Owns.handles args ++ L) w₁) (here : Local vm args)
    (can : CanRun env (w vm) f q r c (ExactIntoArgs.encodeArgs args).length) :
    ∃ w₃ p, Owned L w₃ ∧ (w₃ vm).FunctionFrame r p (ExactIntoArgs.encodeArgs args) ∧
      p.typeId = f.typeId ∧ ((w vm).heap.FunctionFree q ↔ p.Borrowable) ∧
      (w₃ vm).invoked = (w vm).invoked ∧ (∀ j, j ≠ vm → Apart (w j) (w₃ j)) ∧
      ∀ o invoked,
        NativeEnds env w₃ vm (w₃ vm) L invoked ((closureTrampoline env f c vm).run w₃) o →
        CallEnds env w vm L ((callClosure env vm args : Act World (Except CallError ν)).run w₁)
          invoked (callerResult vm o) := by
  have based : (((w vm).push (.ref .nativeClosure q)).push this).stackbase ≤
      (((w vm).push (.ref .nativeClosure q)).push this).top :=
    SQVM.push_based (SQVM.push_based can.based _) _
  obtain ⟨_, w₂, pushed, rfl, done⟩ :=
    (@ExactIntoArgs.pushed B _ _ _ env _ _ _ _ _ based here).returns start
  generalize ExactIntoArgs.encodeArgs args = os at *
  have done' : Exactly w vm ((w vm).calling (.ref .nativeClosure q) this os) L w₂ := done
  have located : (w₂ vm).stack = os.reverse ++ this :: .ref .nativeClosure q :: (w vm).stack := by
    rw [done'.machine]
    rfl
  have height : (w₂ vm).top + 1 = (w vm).top + os.length + 3 := by
    rw [SQVM.top, SQVM.top, located]
    simp only [List.length_append, List.length_reverse, List.length_cons]
    omega
  have others : (w₂ vm).stackbase = (w vm).stackbase ∧ (w₂ vm).heap = (w vm).heap ∧
      (w₂ vm).nnativecalls = (w vm).nnativecalls ∧ (w₂ vm).invoked = (w vm).invoked ∧
      (w₂ vm).nmetamethodscall = (w vm).nmetamethodscall ∧
      (w₂ vm).stackSize = (w vm).stackSize := by
    rw [done'.machine]
    exact ⟨rfl, rfl, rfl, rfl, rfl, rfl⟩
  obtain ⟨base, heap, depth, recorded, nested, size⟩ := others
  obtain ⟨w₃, p, owned, frame, typed, free, recorded', apart, ends⟩ :=
    function_called runs done.owned done.others located
      (base ▸ can.based) (heap ▸ can.holds) (depth ▸ can.shallow)
      (by rw [nested, size, height]; exact can.room)
  refine ⟨w₃, p, owned, frame, typed, heap ▸ free, recorded'.trans recorded, fun j other => ?_,
    fun o invoked ended => ?_⟩
  · rw [apart j other]
    exact done.others j other
  · have called := ends o invoked ended
    cases o with
    | ok v =>
      obtain ⟨t, m, back, called, same⟩ := called
      rw [callClosure_run pushed called]
      exact finishCall_returned done' can.based back same
    | error v =>
      obtain ⟨t, m, back, thrown, called, same⟩ := called
      rw [callClosure_run pushed called]
      exact finishCall_threw done' can.based back thrown same

omit [FromArgs A] [ExactFromArgs A] in
/-- What the trampoline makes of the end of the function is what the caller is to get. -/
theorem callerEnd_eq {ended : Except Stop (Except Value R)}
    (sound : ∀ v, ended = .ok (.error v) → v.slot.toValue vm = v) :
    (callerEnd vm ended : Option (Except CallError ν)) =
      (trampolineEnd ended).map (callerResult vm) := by
  rcases ended with stop | v | o
  · cases stop <;> rfl
  · show _ = some (Except.error (CallError.runtime (v.slot.toValue vm)))
    rw [sound v rfl]
    rfl
  · rfl

/-- The text of an error of `from_args` is none of the trampoline's own. -/
theorem extractionMessage_ne (e : Error) :
    extractionMessage e ≠ ascii "nativeclosure upvalue is already mutably borrowed" := by
  unfold extractionMessage
  split
  · decide
  · cases e with
    | compile e =>
      intro same
      have first := congrArg List.head? same
      simp [Error.text, ascii] at first
    | type expected =>
      intro same
      have first := congrArg List.head? same
      simp [Error.text, ascii] at first

omit [FromSquirrel ν] [ExactFrom ν] in
/-- A call ends in one way. -/
theorem CallEnds.unique {ran : Except Stop (Except CallError ν) × World} {invoked' : List ℕ}
    {r r' : Except CallError ν} (first : CallEnds env w vm L ran invoked r)
    (second : CallEnds env w vm L ran invoked' r') : invoked = invoked' ∧ r = r' := by
  obtain ⟨is, t, -, recorded, -, done⟩ := first
  obtain ⟨is', t', -, recorded', -, done'⟩ := second
  refine ⟨?_, Except.ok.inj (is.symm.trans is')⟩
  rw [← recorded, ← recorded']
  have left : (ran.2 vm).invoked = t.invoked := by rw [done.machine]
  have right : (ran.2 vm).invoked = t'.invoked := by rw [done'.machine]
  exact left.symm.trans right

omit [FromArgs A] [ExactFromArgs A] [IntoSquirrel R] [ExactInto R] in
/-- Where the function is run it records no fewer functions than it finds. -/
theorem invoked_suffix {a : A} (inside : RunsIn w vm L c os w₁)
    (ends : ∀ stop, ((f.run a vm).run w₁).1 = .error stop → ∃ message, stop = .panic message) :
    (w₁ vm).invoked <:+ (((f.run a vm).run w₁).2 vm).invoked := by
  obtain ⟨r, frame⟩ := inside.frame
  have safe := f.safe a frame.based (Exactly.start inside.owned vm)
  rcases ran : (f.run a vm).run w₁ with ⟨stop | r, w₂⟩
  · rw [ran] at safe ends
    obtain ⟨message, rfl⟩ := ends stop rfl
    obtain ⟨t, -, -, longer, done⟩ := safe
    show _ <:+ (w₂ vm).invoked
    rw [done.machine]
    exact longer
  · rw [ran] at safe
    obtain ⟨-, -, t, -, -, longer, done⟩ := safe
    show _ <:+ (w₂ vm).invoked
    rw [done.machine]
    exact longer

omit [FromArgs A] [ExactFromArgs A] in
/-- The string of a mutably borrowed function is no direct call. -/
theorem DirectCall.not_borrowed {ran : Except Stop (Except CallError ν) × World}
    {decoded : Except Error A}
    (borrowed : CallEnds env w vm L ran (w vm).invoked (.error (.runtime
      (thrownText vm (ascii "nativeclosure upvalue is already mutably borrowed")))))
    (returns : ReturnsOrPanics f c w vm L os decoded) :
    ¬ DirectCall f c w vm L os ran decoded := by
  intro direct
  cases decoded with
  | error e =>
    have same := (borrowed.unique direct).2
    simp only [thrownText, Except.error.injEq, CallError.runtime.injEq, Value.string.injEq,
      StringHandle.mk.injEq] at same
    exact extractionMessage_ne e same.2.1.symm
  | ok a =>
    obtain ⟨w₁, inside, ended⟩ := direct
    have ends := returns a w₁ rfl inside
    obtain ⟨r, result⟩ : ∃ r, (callerEnd vm ((f.run a vm).run w₁).1 :
        Option (Except CallError ν)) = some r := by
      rcases is : ((f.run a vm).run w₁).1 with stop | v | r
      · obtain ⟨message, rfl⟩ := ends stop is
        exact ⟨_, rfl⟩
      · exact ⟨_, rfl⟩
      · exact ⟨_, rfl⟩
    have same := (borrowed.unique (ended r result)).1
    have longer := (invoked_suffix inside ends).length_le
    rw [← same, inside.invoked, List.length_cons] at longer
    omega

/-- A call of a function is a direct call of it exactly when the function can be borrowed. -/
theorem callClosure_directIff [ExactIntoArgs B]
    (runs : env.Runs c (closureTrampoline env f c) w vm)
    (start : Exactly w vm (((w vm).push (.ref .nativeClosure q)).push this)
      (Owns.handles args ++ L) w₁) (here : Local vm args)
    (can : CanRun env (w vm) f q r c (ExactIntoArgs.encodeArgs args).length) :
    DirectIff f c w vm L (ExactIntoArgs.encodeArgs args)
      ((callClosure env vm args : Act World (Except CallError ν)).run w₁)
      ((w vm).heap.FunctionFree q)
      (ExactFromArgs.decodeArgs vm (ExactIntoArgs.encodeArgs args)) := by
  obtain ⟨w₃, p, owned, frame, typed, free_iff, recorded, others, ends⟩ :=
    callClosure_ends (ν := ν) runs start here can
  have start₃ := Exactly.start owned vm
  generalize ExactIntoArgs.encodeArgs args = os at *
  have direct : (w vm).heap.FunctionFree q → DirectCall f c w vm L os
      ((callClosure env vm args : Act World (Except CallError ν)).run w₁)
      (ExactFromArgs.decodeArgs vm os) := by
    intro free
    cases fits : (ExactFromArgs.decodeArgs vm os : Except Error A) with
    | error e =>
      have refused := closureTrampoline_refused c frame typed start₃
        (free_iff.1 free) fits
      rw [recorded] at refused
      exact ends _ _ refused
    | ok a =>
      obtain ⟨w₄, entered, sound, ended⟩ := closureTrampoline_ran c frame typed
        start₃ (free_iff.1 free) fits
      obtain ⟨slot, lower, stack, base⟩ := frame.frame.located
      refine ⟨w₄, ⟨⟨r, slot, lower, by rw [entered.stack, stack], by rw [entered.stackbase, base]⟩,
        by rw [entered.invoked, recorded], entered.owned, fun j other =>
          (others j other).trans (entered.others j other)⟩, fun res result => ?_⟩
      rw [callerEnd_eq sound, Option.map_eq_some_iff] at result
      obtain ⟨o, ended', rfl⟩ := result
      exact ends o _ (ended o ended')
  refine ⟨direct, fun returns => ⟨fun called => ?_, direct⟩⟩
  by_contra taken
  have borrowed := closureTrampoline_borrowed c frame typed start₃
    fun free => taken (free_iff.2 free)
  rw [recorded] at borrowed
  exact DirectCall.not_borrowed (ends _ _ borrowed) returns called

omit [Owns B] [IntoArgs B] in
theorem pushRootTable_yields :
    Yields w₀ vm s L (Squirrel.pushRootTable vm) () (s.push (.ref .table s.root)) L := by
  intro w' start
  have root : (w' vm).root = s.root := by rw [start.machine]
  unfold Squirrel.pushRootTable
  rw [Act.run_bind_of_ok (Act.run_get w'), root]
  exact Yields.push _ w' start

variable [ExactIntoArgs B] {self : NativeClosure}

theorem Handle.call_directIff (runs : env.Runs c (closureTrampoline env f c) w self.sq)
    (owned : Owned (Owns.handles args ++ L) w) (here : Local self.sq args)
    (can : CanRun env (w self.sq) f self.ref r c (ExactIntoArgs.encodeArgs args).length) :
    DirectIff f c w self.sq L (ExactIntoArgs.encodeArgs args)
      ((self.call env args : Act World (Except CallError ν)).run w)
      ((w self.sq).heap.FunctionFree self.ref)
      (ExactFromArgs.decodeArgs self.sq (ExactIntoArgs.encodeArgs args)) := by
  have start := Exactly.start owned self.sq
  obtain ⟨_, w₁, callee, -, start₁⟩ := (Yields.push self.obj).returns start
  obtain ⟨_, w₂, root, -, start₂⟩ := pushRootTable_yields.returns start₁
  have ran : (self.call env args : Act World (Except CallError ν)).run w =
      (callClosure env self.sq args).run w₂ := by
    have callee' : self.object.pushIntoStack.run w = (.ok (), w₁) := callee
    unfold Handle.call
    rw [Act.run_bind_of_ok callee', Act.run_bind_of_ok root]
  rw [ran]
  exact callClosure_directIff runs start₂ here can

theorem Handle.callWith_directIff {τ : Type} [Owns τ] [IntoSquirrel τ] [ExactInto τ] {this : τ}
    (runs : env.Runs c (closureTrampoline env f c) w self.sq)
    (owned : Owned (Owns.handles (this, args) ++ L) w) (here : Local self.sq (this, args))
    (can : CanRun env (w self.sq) f self.ref r c (ExactIntoArgs.encodeArgs args).length) :
    DirectIff f c w self.sq L (ExactIntoArgs.encodeArgs args)
      ((self.callWith env this args : Act World (Except CallError ν)).run w)
      ((w self.sq).heap.FunctionFree self.ref)
      (ExactFromArgs.decodeArgs self.sq (ExactIntoArgs.encodeArgs args)) := by
  have start := Exactly.start owned self.sq
  have split : Owns.handles (this, args) ++ L = Owns.handles this ++ (Owns.handles args ++ L) :=
    List.append_assoc _ _ _
  rw [split] at start
  obtain ⟨_, w₁, callee, -, start₁⟩ := (Yields.push self.obj).returns start
  have pushed := @ExactInto.pushed τ _ _ _ env w _ _ (Owns.handles args ++ L) _
    (SQVM.push_based can.based self.obj) here.fst
  obtain ⟨_, w₂, bound, -, start₂⟩ := pushed.onUnwind.returns start₁
  have ran : (self.callWith env this args : Act World (Except CallError ν)).run w =
      (callClosure env self.sq args).run w₂ := by
    have callee' : self.object.pushIntoStack.run w = (.ok (), w₁) := callee
    unfold Handle.callWith
    rw [Act.run_bind_of_ok callee', Act.run_bind_of_ok bound]
  rw [ran]
  exact callClosure_directIff runs start₂ here.snd can

omit [FromArgs A] [ExactFromArgs A] in
/-- Where a function that does not touch the machine is run does not matter: the caller gets what a
direct call ends with, and the function has been run once. -/
theorem DirectCall.of_result {typeId : ℕ} {apply : A → Option (Except Value R)}
    {args_free : ∀ a : A, Owns.handles a = []}
    {free : ∀ a r, apply a = some r → Owns.handles r = []}
    {ran : Except Stop (Except CallError ν) × World} {a : A} {result : Except CallError ν}
    (direct : DirectCall (.ofResult typeId apply args_free free : RustFunction env A R) c w vm L os
      ran (.ok a))
    (ends : callerEnd vm (resultOrPanic (apply a)) = some result) :
    CallEnds env w vm L ran (c :: (w vm).invoked) result := by
  obtain ⟨w₂, inside, ended⟩ := direct
  rw [← inside.invoked]
  exact ended result ends

end Direct

end Closure

/-! ## A function of two integers -/

/-- The function that returns the larger one of two integers, and their value as an error when they
are equal. -/
def larger (env : Env) : RustFunction env (ℤ × ℤ × Unit) ℤ :=
  .ofResult 0 (fun a => some (if a.1 = a.2.1 then .error (.integer a.1) else .ok (max a.1 a.2.1)))
    (fun _ => rfl) fun a r eq => by
      obtain rfl := Option.some.inj eq
      split <;> rfl

/-- An integer in a slot. -/
def SQVM.integerAt (s : SQVM) (idx : ℤ) : Except Error ℤ :=
  match s.stackGet idx with
  | .bool b => .ok (if b then 1 else 0)
  | o => if o.isNumeric then .ok (toInteger o) else .error (.type "integer")

/-- The arguments of the function. -/
def SQVM.pairAt (s : SQVM) (count : ℤ) : Except Error (ℤ × ℤ × Unit) :=
  if count = 2 then decodeFirst (s.integerAt 2) (decodeFirst (s.integerAt 3) (.ok ()))
  else .error (.type "arguments")

/-- How the function ends. -/
def largerEnd (function : ℕ) (s : SQVM) : Except Error (ℤ × ℤ × Unit) → ℤ × SQVM
  | .error e => (-1, s.withError (.string (extractionMessage e)))
  | .ok a =>
    if a.1 = a.2.1 then
      (-1, (((s.invoke function).apiPush (.integer a.1)).pop 1).withError (.integer a.1))
    else (1, (s.invoke function).apiPush (.integer (max a.1 a.2.1)))

/-- What the trampoline of that function does to a machine. -/
def largerNative (function : ℕ) (s : SQVM) : ℤ × SQVM :=
  let s := (s.apiPush s.rootObject).pop 1
  let top : ℤ := s.top - s.stackbase
  let mismatch := s.withError (.string (ascii "expected typed userdata value"))
  match s.stackGet top with
  | .ref .userData r =>
    if (s.heap.userData.read r).typetag ≠ userdataTag then (-1, mismatch)
    else
      match (s.heap.userData.read r).payload.filter (·.typeId = 0) with
      | none => (-1, mismatch)
      | some payload =>
        if payload.Borrowable then largerEnd function s (s.pairAt (top - 2))
        else (-1, s.withError
          (.string (ascii "nativeclosure upvalue is already mutably borrowed")))
  | _ => (-1, mismatch)

section Larger

variable (env : Env) (function : ℕ) (vm : VmId) (w : World) {s : SQVM}

theorem throwErrorText_run {message : List UInt8} (clean : 0 ∉ message) :
    (throwErrorText message vm).run (Function.update w vm s) =
      (.ok (-1), Function.update w vm (s.withError (.string message))) := by
  unfold throwErrorText Api.sqThrowerror
  rw [Act.run_on_update, (cString_eq_self_iff message).2 clean]
  rfl

theorem payloadFromStack_run {idx : ℤ} {r : ℕ} (typeId : ℕ)
    (slot : s.stackGet idx = .ref .userData r) :
    (Handle.UserData.payloadFromStack env vm idx typeId).run (Function.update w vm s) =
      (.ok (if (s.heap.userData.read r).typetag ≠ userdataTag then none
        else ((s.heap.userData.read r).payload.filter (·.typeId = typeId)).map (r, ·)),
        Function.update w vm s) := by
  unfold Handle.UserData.payloadFromStack
  rw [Act.run_bind, Act.run_on_update]
  unfold Api.sqGetuserdata
  rw [Act.run_bind_of_ok (Act.run_get s), slot]
  show (if (s.heap.userData.read r).typetag ≠ userdataTag then pure none else _ :
    Act World (Option (ℕ × Payload))).run _ = _
  by_cases other : (s.heap.userData.read r).typetag ≠ userdataTag
  · rw [if_pos other, if_pos other]
    rfl
  · rw [if_neg other, if_neg other, Act.run_bind_of_ok (Act.run_get _), Function.update_self]
    rfl

theorem payloadFromStack_none {idx : ℤ} (typeId : ℕ)
    (slot : ∀ r, s.stackGet idx ≠ .ref .userData r) :
    ∃ e, (Handle.UserData.payloadFromStack env vm idx typeId).run (Function.update w vm s) =
      (.ok none, Function.update w vm (s.withError e)) := by
  unfold Handle.UserData.payloadFromStack
  rw [Act.run_bind, Act.run_on_update]
  unfold Api.sqGetuserdata
  rw [Act.run_bind_of_ok (Act.run_get s)]
  rcases found : s.stackGet idx with _ | _ | _ | _ | _ | _ | ⟨t, r⟩
  case ref =>
    cases t with
    | userData => exact absurd found (slot r)
    | _ => exact ⟨_, rfl⟩
  all_goals exact ⟨_, rfl⟩

theorem integerAt_run (idx : ℤ) (valid : s.ValidIdx idx) :
    (FromSquirrel.fromStack env idx vm : Act World (Except Error ℤ)).run (Function.update w vm s) =
      (.ok (s.integerAt idx), Function.update w vm s) := by
  have checked : (Squirrel.assertValidIdx vm idx).run (Function.update w vm s) =
      (.ok (), Function.update w vm s) := by
    unfold Squirrel.assertValidIdx Squirrel.stackDepth
    rw [Act.run_bind, Act.run_on_update]
    have valid' : idx ≠ 0 ∧ if 0 < idx then idx ≤ (s.top : ℤ) - s.stackbase
      else -((s.top : ℤ) - s.stackbase) ≤ idx := valid
    exact Act.run_ensure_of_pos valid' _ _
  have read : ((Api.sqGetinteger idx).on vm).run (Function.update w vm s) =
      (.ok (s.integerAt idx).toOption, Function.update w vm s) := by
    unfold Api.sqGetinteger SQVM.integerAt
    rw [Act.run_on_update, Act.run_bind_of_ok (Act.run_get s)]
    rcases s.stackGet idx with _ | _ | _ | _ | _ | _ | ⟨t, r⟩ <;> rfl
  show (scalarFromStack "integer" idx vm (Api.sqGetinteger idx)).run _ = _
  unfold scalarFromStack
  rw [Act.run_bind_of_ok checked, Act.run_bind_of_ok read]
  unfold SQVM.integerAt
  rcases s.stackGet idx with _ | _ | _ | _ | _ | _ | ⟨t, r⟩ <;> rfl

theorem pairAt_run (s : SQVM) :
    (FromArgs.fromArgs env ((s.top : ℤ) - s.stackbase - 2) vm :
      Act World (Except Error (ℤ × ℤ × Unit))).run (Function.update w vm s) =
        (.ok (s.pairAt ((s.top : ℤ) - s.stackbase - 2)), Function.update w vm s) := by
  show (if (s.top : ℤ) - s.stackbase - 2 = 2 then TupleFromArgs.read env 0 vm
    else pure (.error (.type "arguments"))).run _ = _
  unfold SQVM.pairAt
  by_cases two : (s.top : ℤ) - s.stackbase - 2 = 2
  · rw [if_pos two, if_pos two]
    have first := integerAt_run (s := s) env vm w 2 ⟨by omega, by
      rw [if_pos (by omega)]; omega⟩
    have second := integerAt_run (s := s) env vm w 3 ⟨by omega, by
      rw [if_pos (by omega)]; omega⟩
    have rest : (TupleFromArgs.read env 1 vm : Act World (Except Error (ℤ × Unit))).run
        (Function.update w vm s) =
          (.ok (decodeFirst (s.integerAt 3) (.ok ())), Function.update w vm s) := by
      show (FromSquirrel.fromStack env 3 vm >>= _).run _ = _
      rw [Act.run_bind_of_ok second]
      cases s.integerAt 3 <;> rfl
    show (FromSquirrel.fromStack env 2 vm >>= _).run _ = _
    rw [Act.run_bind_of_ok first]
    cases s.integerAt 2 with
    | error e => rfl
    | ok x =>
      show ((TupleFromArgs.read env 1 vm).onUnwind _ >>= _).run _ = _
      rw [Act.run_bind_of_ok (Act.run_onUnwind_of_ok rest)]
      cases s.integerAt 3 <;> rfl
  · rw [if_neg two, if_neg two]
    rfl

theorem larger_delivered (a : ℤ × ℤ × Unit) (s : SQVM) :
    (deliverResult env (larger env) function a vm).run (Function.update w vm s) =
      (.ok (largerEnd function s (.ok a)).1,
        Function.update w vm (largerEnd function s (.ok a)).2) := by
  have pushed : ∀ x s, ((Api.push (.integer x)).on vm).run (Function.update w vm s) =
      (.ok (), Function.update w vm (s.apiPush (.integer x))) := fun x s =>
    Act.run_on_update vm _ w s
  unfold deliverResult largerEnd
  rw [Act.run_bind, Act.run_on_update]
  by_cases equal : a.1 = a.2.1
  · have ran : ((larger env).run a vm).run (Function.update w vm (s.invoke function)) =
        (.ok (.error (.integer a.1)), Function.update w vm (s.invoke function)) :=
      congrArg (fun r => ((.ok r : Except Stop (Except Value ℤ)), _)) (if_pos equal)
    show ((larger env).run a vm >>= _).run (Function.update w vm (s.invoke function)) = _
    rw [Act.run_bind_of_ok ran]
    simp only [if_pos equal]
    show (((Api.push (.integer a.1)).on vm).onUnwind (dropValue (Value.integer a.1)) >>=
      fun _ => Api.sqThrowobject.on vm).run
      (Function.update w vm (s.invoke function)) = _
    rw [Act.run_bind_of_ok (Act.run_onUnwind_of_ok (pushed _ _))]
    exact Act.run_on_update vm _ w _
  · have ran : ((larger env).run a vm).run (Function.update w vm (s.invoke function)) =
        (.ok (.ok (max a.1 a.2.1)), Function.update w vm (s.invoke function)) :=
      congrArg (fun r => ((.ok r : Except Stop (Except Value ℤ)), _)) (if_neg equal)
    show ((larger env).run a vm >>= _).run (Function.update w vm (s.invoke function)) = _
    rw [Act.run_bind_of_ok ran]
    simp only [if_neg equal]
    show ((Api.push (.integer (max a.1 a.2.1))).on vm >>= fun _ => pure 1).run _ = _
    rw [Act.run_bind_of_ok (pushed _ _)]
    rfl

theorem largerEnd_countBorrows (r : ℕ) (s : SQVM) (e : Except Error (ℤ × ℤ × Unit)) :
    largerEnd function (s.countBorrows r 1) e =
      ((largerEnd function s e).1, (largerEnd function s e).2.countBorrows r 1) := by
  cases e with
  | error e => rfl
  | ok a =>
    unfold largerEnd
    by_cases equal : a.1 = a.2.1
    · simp only [if_pos equal]
      rfl
    · simp only [if_neg equal]
      rfl

theorem larger_borrowing (r : ℕ) (s : SQVM) :
    (borrowing vm r (invokeBorrowed env (larger env) function ((s.top : ℤ) - s.stackbase - 2)
        vm)).run (Function.update w vm s) =
      (.ok (largerEnd function s (s.pairAt ((s.top : ℤ) - s.stackbase - 2))).1, Function.update w vm
        (largerEnd function s (s.pairAt ((s.top : ℤ) - s.stackbase - 2))).2) := by
  have counted : ∀ n s, (countBorrows vm r n).run (Function.update w vm s) =
      (.ok (), Function.update w vm (s.countBorrows r n)) := fun n s => Act.run_on_update vm _ w s
  have read : (FromArgs.fromArgs env ((s.top : ℤ) - s.stackbase - 2) vm).run
      (Function.update w vm (s.countBorrows r 1)) =
        (.ok (s.pairAt ((s.top : ℤ) - s.stackbase - 2)),
          Function.update w vm (s.countBorrows r 1)) := pairAt_run env vm w (s.countBorrows r 1)
  generalize s.pairAt ((s.top : ℤ) - s.stackbase - 2) = e at *
  have invoked : (invokeBorrowed env (larger env) function ((s.top : ℤ) - s.stackbase - 2) vm).run
      (Function.update w vm (s.countBorrows r 1)) =
        (.ok (largerEnd function s e).1,
          Function.update w vm ((largerEnd function s e).2.countBorrows r 1)) := by
    unfold invokeBorrowed
    rw [Act.run_bind_of_ok read]
    cases e with
    | error e => exact throwErrorText_run vm w (extractionMessage_clean e)
    | ok a =>
      have delivered := larger_delivered env function vm w a (s.countBorrows r 1)
      rw [largerEnd_countBorrows] at delivered
      exact delivered
  unfold borrowing
  rw [Act.run_bind_of_ok (counted 1 s), Act.run_bind_of_ok (Act.run_onUnwind_of_ok invoked),
    Act.run_bind_of_ok (counted _ _)]
  have back : ((largerEnd function s e).2.countBorrows r 1).countBorrows r (-1) =
      (largerEnd function s e).2 :=
    congrArg (fun h => { (largerEnd function s e).2 with heap := h })
      (Heap.countBorrows_countBorrows _ r)
  rw [back]
  rfl

theorem larger_body (s : SQVM) :
    (trampolineBody env (larger env) function vm).run (Function.update w vm s) =
      (.ok (largerNative function s).1, Function.update w vm (largerNative function s).2) := by
  have depth : (Squirrel.stackDepth vm).run (Function.update w vm s) =
      (.ok ((s.top : ℤ) - s.stackbase), Function.update w vm s) := by
    unfold Squirrel.stackDepth
    rw [Act.run_on_update]
    rfl
  have probed : (Squirrel.fromRawBorrowed vm).run (Function.update w vm s) =
      (.ok (), Function.update w vm ((s.apiPush s.rootObject).pop 1)) := by
    have few : ¬ (s.apiPush s.rootObject).top < 1 := Nat.not_lt.2 (Nat.succ_le_succ (Nat.zero_le _))
    have popped : (Api.sqPop 1).run (s.apiPush s.rootObject) =
        (.ok (), (s.apiPush s.rootObject).pop 1) := by
      unfold Api.sqPop
      rw [Act.run_bind_of_ok (Act.run_get _), if_neg few]
      rfl
    unfold Squirrel.fromRawBorrowed
    rw [Act.run_bind, Act.run_on_update]
    show ((Api.sqGetstackobj (-1)).on vm >>= fun _ => (Api.sqPop 1).on vm).run
      (Function.update w vm (s.apiPush s.rootObject)) = _
    rw [Act.run_bind, Act.run_on_update]
    show ((Api.sqPop 1).on vm).run (Function.update w vm (s.apiPush s.rootObject)) = _
    rw [Act.run_on_update, popped]
  have clean : (0 : UInt8) ∉ ascii "expected typed userdata value" := by decide
  have clean' : (0 : UInt8) ∉ ascii "nativeclosure upvalue is already mutably borrowed" := by decide
  have top : ((s.apiPush s.rootObject).pop 1).top = s.top := rfl
  have base : ((s.apiPush s.rootObject).pop 1).stackbase = s.stackbase := rfl
  unfold trampolineBody largerNative
  rw [Act.run_bind_of_ok depth, Act.run_bind_of_ok probed, Act.run_bind]
  simp only [top, base]
  generalize (s.apiPush s.rootObject).pop 1 = s' at *
  have mismatch : (∀ r, s'.stackGet ((s.top : ℤ) - s.stackbase) ≠ .ref .userData r) → _ :=
    payloadFromStack_none (s := s') env vm w (larger env).typeId
  rcases slot : s'.stackGet ((s.top : ℤ) - s.stackbase) with _ | _ | _ | _ | _ | _ | ⟨t, r⟩
  case ref =>
    by_cases same : t = .userData
    · subst same
      rw [payloadFromStack_run env vm w _ slot]
      simp only
      by_cases other : (s'.heap.userData.read r).typetag ≠ userdataTag
      · simp only [if_pos other]
        exact throwErrorText_run vm w clean
      simp only [if_neg other]
      cases found : (s'.heap.userData.read r).payload.filter (·.typeId = 0) with
      | none =>
        have found' : Option.filter (·.typeId = (larger env).typeId)
          (s'.heap.userData.read r).payload = none := found
        rw [found']
        exact throwErrorText_run vm w clean
      | some payload =>
        have found' : Option.filter (·.typeId = (larger env).typeId)
          (s'.heap.userData.read r).payload = some payload := found
        rw [found']
        simp only [Option.map_some]
        by_cases free : payload.Borrowable
        · rw [if_pos free, if_pos free, ← top, ← base]
          exact larger_borrowing env function vm w r s'
        · rw [if_neg free, if_neg free]
          exact throwErrorText_run vm w clean'
    · obtain ⟨e, ran⟩ := mismatch (by rw [slot]; rintro r' ⟨⟩; exact same rfl)
      rw [ran]
      cases t <;> first | exact absurd rfl same | exact throwErrorText_run vm w clean
  all_goals
    obtain ⟨e, ran⟩ := mismatch (by rw [slot]; exact fun _ => SQObject.noConfusion)
    rw [ran]
    exact throwErrorText_run vm w clean

theorem larger_run :
    (closureTrampoline env (larger env) function vm).run w =
      (.ok (largerNative function (w vm)).1,
        Function.update w vm (largerNative function (w vm)).2) := by
  have body := larger_body env function vm w (w vm)
  rw [Function.update_eq_self] at body
  exact closureTrampoline_ended body

omit env vm w in
theorem largerNative_law (s : SQVM) : NativeLaw s (largerNative function s) := by
  have below : ∃ above, s.stack = above ++ s.stack.drop s.depth :=
    ⟨s.stack.take s.depth, (List.take_append_drop _ _).symm⟩
  have pushed : ∀ o, ∃ above, o :: s.stack = above ++ s.stack.drop s.depth := fun o =>
    ⟨o :: s.stack.take s.depth, by rw [List.cons_append, List.take_append_drop]⟩
  have kept : ∀ e flag invoked,
      NativeLaw s (-1, { s.withError e with overflowed := flag, invoked := invoked }) :=
    fun e flag invoked => ⟨below, rfl, rfl, rfl, rfl, rfl, le_rfl, le_rfl, rfl, rfl, rfl, .refl _,
      by simp [sqTailcallFlag], by simp [sqSuspendFlag]⟩
  unfold largerNative
  simp only
  split
  · split
    · exact kept _ _ _
    split
    · exact kept _ _ _
    split
    · unfold largerEnd
      split
      · exact kept _ _ _
      split
      · exact kept _ _ _
      · exact ⟨pushed _, rfl, rfl, rfl, rfl, rfl, le_rfl, le_rfl, rfl, rfl, rfl, .refl _,
          by simp [sqTailcallFlag], by simp [sqSuspendFlag]⟩
    · exact kept _ _ _
  · exact kept _ _ _

end Larger

/-- A program in which every C function is the trampoline of that function. -/
def Env.calling : Env where
  address := Env.returning.address
  formatFloat := Env.returning.formatFloat
  proto := Env.returning.proto
  native := largerNative
  body := Env.returning.body
  compile := Env.returning.compile
  native_law := largerNative_law
  body_grows := Env.returning.body_grows
  body_suspends := Env.returning.body_suspends

theorem Env.calling_runs (function : ℕ) (w : World) (vm : VmId) :
    Env.calling.Runs function (closureTrampoline .calling (larger .calling) function) w vm := by
  intro w₁ w₂ L ret _ _ ran
  rw [larger_run] at ran
  cases ran
  rw [Function.update_self]
  rfl

/-- A handle of the function's box, as `resurrectunreachable` gives one to a script when nothing but
a circle leads to the closure, and a guard of `borrow_mut` for it. -/
def borrowFunction (env : Env) (self : NativeClosure) (typeId : ℕ) :
    Act World (Except Error Unit) := do
  Act.on self.sq (Act.modify fun s => s.push ((s.heap.natives.read self.ref).upvalue.getD .null))
  let r : Except Error UserData ← FromSquirrel.fromStack env (-1) self.sq
  let box ← expectOk r "expecting the userdata we just pushed"
  Squirrel.pop self.sq 1
  Handle.UserData.borrowMut env box typeId

end Squirrels
