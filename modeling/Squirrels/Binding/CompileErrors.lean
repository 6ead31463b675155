import Mathlib.Logic.Relation
import Squirrels.Binding.Exact
import Squirrels.Binding.Process
import Squirrels.Binding.Session
import Squirrels.Lib.Utf8

/-!
# Compile errors

A call of `compile_str` accesses the table of compile errors in up to three places: it clears the
entry of its machine, the error handler stores what the compiler reports, and the call takes the
error out. Each access is made under the lock of the table and is one step; steps of calls on other
machines, and of the scripts that run there, may come in between. A machine is used by one thread at
a time.

What the compiler makes of a source is left open: it reports any error, once, or makes any function.
The slots of the machines are the entries of the table here.
-/

namespace Squirrels

open Machines

/-- What the compiler passes to the error handler. -/
structure Report where
  description : List UInt8
  source : List UInt8
  line : ℤ
  column : ℤ
deriving DecidableEq, Repr

/-- `CStr::to_string_lossy`. -/
def toStringLossy (ptr : List UInt8) : List UInt8 := Utf8.encode (Utf8.decodeLossy (cString ptr))

namespace Report

variable (r : Report)

/-- The error as `compiler_error_handler` keeps it. -/
def kept : CompileError :=
  ⟨toStringLossy r.description, toStringLossy r.source, r.line, r.column⟩

/-- The error as it is reported. -/
def reported : CompileError := ⟨cString r.description, cString r.source, r.line, r.column⟩

/-- Both texts are UTF-8. -/
def IsUtf8 : Prop :=
  ∃ description source, cString r.description = Utf8.encode description ∧
    cString r.source = Utf8.encode source

theorem kept_eq_reported {r : Report} (valid : r.IsUtf8) : r.kept = r.reported := by
  obtain ⟨description, source, eq, eq'⟩ := valid
  unfold kept reported toStringLossy
  rw [eq, eq', Utf8.decodeLossy_encode, Utf8.decodeLossy_encode]

end Report

/-- What the compiler has made of a source. -/
inductive Compiled where
  | failed (r : Report)
  /-- The closure `n` of a function. -/
  | closure (function n : ℕ)
deriving DecidableEq, Repr

/-- Where a call of `compile_str` stands. -/
inductive Stage where
  /-- No call is under way. -/
  | idle
  /-- `clear_error` has returned, and the compiler runs. -/
  | cleared
  /-- The error handler has returned, and the compiler is about to. -/
  | handled (r : Report)
  /-- `sq_compilebuffer` has failed. -/
  | failed (r : Report)
  /-- `sq_compilebuffer` has pushed a closure. -/
  | pushed (function n : ℕ)
  /-- `compile_str` has returned or panicked. -/
  | ended (made : Compiled) (res : Except Stop (Except Error Closure))

/-- The machines, their calls of `compile_str` and the table of compile errors. -/
structure Compilations where
  world : World
  stage : Addr → Stage
  errors : ErrorRegistry

namespace Compilations

variable (c : Compilations) (v : Addr)

/-- A call goes to another stage. -/
def move (q : Stage) : Compilations := { c with stage := Function.update c.stage v q }

/-- `take_error`, and what `compile_str` makes of it. -/
def captured : Option CompileError → Except Stop (Except Error Closure)
  | some e => .ok (.error (.compile e))
  | none => .error (.panic "sq_compilebuffer failed but no compile error was captured")

/-- The closure that `sq_compilebuffer` pushes. -/
def pushClosure (function : ℕ) (s : SQVM) : SQVM :=
  ((Api.pushNew fun h =>
    let allocated := h.closures.alloc ⟨function, none, s.roottable, none, []⟩
    (.ref .closure allocated.1, { h with closures := allocated.2 })).run s).2

/-- The end of a compilation that has succeeded. -/
def takeClosure (env : Env) : Except Stop (Except Error Closure) × World :=
  let taken := (takePushed env v "expecting the closure we just compiled" : Act World Closure).run
    c.world
  (taken.1.map .ok, taken.2)

/-- A step of a machine. Between the calls scripts may do anything to it, compile with and without a
report included, and it may be registered and unregistered. -/
inductive StepOf (env : Env) (v : Addr) : Compilations → Compilations → Prop where
  | clearError {c : Compilations} (at_ : c.stage v = .idle) :
      StepOf env v c { c.move v .cleared with errors := c.errors.clearError v }
  | compilerErrorHandler {c : Compilations} (r : Report) (at_ : c.stage v = .cleared) :
      StepOf env v c { c.move v (.handled r) with
        errors := c.errors.compilerErrorHandler v r.kept }
  | compileFailed {c : Compilations} {r : Report} (at_ : c.stage v = .handled r) :
      StepOf env v c { c.move v (.failed r) with
        world := Function.update c.world v
          ((c.world v).withError (.string (cString r.description))) }
  | takeError {c : Compilations} {r : Report} (at_ : c.stage v = .failed r) :
      StepOf env v c { c.move v (.ended (.failed r) (captured (c.errors.takeError v).1)) with
        errors := (c.errors.takeError v).2 }
  | compiled {c : Compilations} (function : ℕ) (at_ : c.stage v = .cleared) :
      StepOf env v c { c.move v (.pushed function (c.world v).heap.closures.next) with
        world := Function.update c.world v (pushClosure function (c.world v)) }
  | takeClosure {c : Compilations} {function n : ℕ} (at_ : c.stage v = .pushed function n) :
      StepOf env v c { c.move v (.ended (.closure function n) (c.takeClosure v env).1) with
        world := (c.takeClosure v env).2 }
  | handOver {c : Compilations} {made : Compiled} {res : Except Stop (Except Error Closure)}
      (at_ : c.stage v = .ended made res) : StepOf env v c (c.move v .idle)
  | script {c : Compilations} (s : SQVM) (based : s.stackbase ≤ s.top) (at_ : c.stage v = .idle) :
      StepOf env v c { c with world := Function.update c.world v s }
  | scriptReports {c : Compilations} (r : Report) (at_ : c.stage v = .idle) :
      StepOf env v c { c with errors := c.errors.compilerErrorHandler v r.kept }
  | registerVm {c : Compilations} (at_ : c.stage v = .idle) :
      StepOf env v c { c with errors := c.errors.registerVm v }
  | unregisterVm {c : Compilations} (at_ : c.stage v = .idle) :
      StepOf env v c { c with errors := c.errors.unregisterVm v }

/-- A step of any machine. -/
def Step (env : Env) (c c' : Compilations) : Prop := ∃ v, StepOf env v c c'

/-- No call of `compile_str` is under way; the entries of the table may hold anything. -/
structure Idle : Prop where
  idle : ∀ v, c.stage v = .idle
  based : ∀ v, (c.world v).stackbase ≤ (c.world v).top

end Compilations

/-! ## Taking the closure -/

section Taking

variable {env : Env} {v : VmId}

/-- A C function that only reads the machine. -/
theorem run_on_read {α : Type} {m : Act SQVM α} {w : World} {a : α}
    (read : m.run (w v) = (.ok a, w v)) : (m.on v).run w = (.ok a, w) := by
  rw [Act.run_on, read, Function.update_eq_self]

theorem Squirrel.stackDepth_run (w : World) :
    (Squirrel.stackDepth v).run w = (.ok (((w v).top : ℤ) - (w v).stackbase), w) :=
  run_on_read rfl

theorem Object.fromStack_run {w : World} {t : RefType} {n : ℕ}
    (top : (w v).stackGet (-1) = .ref t n) (deep : (w v).stackbase < (w v).top) :
    ∃ refs, (Object.fromStack (-1) v).run w =
      (.ok ⟨v, .ref t n⟩, Function.update w v { w v with refs := refs }) := by
  have valid : (Squirrel.assertValidIdx v (-1)).run w = (.ok (), w) := by
    unfold Squirrel.assertValidIdx
    rw [Act.run_bind_of_ok (Squirrel.stackDepth_run w), Act.run_ensure_of_pos]
    exact SQVM.validIdx_top deep
  have read : ((Api.sqGetstackobj (-1)).on v).run w = (.ok (.ref t n), w) :=
    top ▸ run_on_read rfl
  refine ⟨((Api.sqAddref (.ref t n)).run (w v)).2.refs, ?_⟩
  unfold Object.fromStack
  rw [Act.run_bind_of_ok valid, Act.run_bind_of_ok read]
  rfl

theorem Squirrel.pop_run {w : World} (deep : (w v).stackbase < (w v).top) :
    (Squirrel.pop v 1).run w = (.ok (), Function.update w v ((w v).pop 1)) := by
  have popped : (Api.sqPop 1).run (w v) = (.ok (), (w v).pop 1) := by
    unfold Api.sqPop
    rw [Act.run_bind_of_ok (Act.run_get _), if_neg (by omega)]
    rfl
  unfold Squirrel.pop
  rw [Act.run_bind_of_ok (Squirrel.stackDepth_run w),
    Act.run_bind_of_ok (Act.run_ensure_of_pos (by omega) _ _),
    Act.run_bind_of_ok (Act.run_ensure_of_pos one_pos _ _), Act.run_on]
  show (((Api.sqPop 1).run (w v)).1, Function.update w v ((Api.sqPop 1).run (w v)).2) = _
  rw [popped]

theorem takePushed_run {w : World} {n : ℕ} (message : String)
    (top : (w v).stackGet (-1) = .ref .closure n) (deep : (w v).stackbase < (w v).top) :
    ∃ refs, (takePushed env v message : Act World Closure).run w =
      (.ok ⟨v, n⟩, Function.update w v { (w v).pop 1 with refs := refs }) := by
  obtain ⟨refs, read⟩ := Object.fromStack_run top deep
  refine ⟨refs, ?_⟩
  have taken : (FromSquirrel.fromStack env (-1) v : Act World (Except Error Closure)).run w =
      (.ok (.ok ⟨v, n⟩), Function.update w v { w v with refs := refs }) := by
    show (Object.fromStack (-1) v >>= _).run w = _
    rw [Act.run_bind_of_ok read]
    rfl
  have popped := @Squirrel.pop_run v (Function.update w v { w v with refs := refs }) (by
    rw [Function.update_self]
    exact deep)
  unfold takePushed
  rw [Act.run_bind_of_ok taken, Act.run_bind_of_ok (Act.run_onUnwind_of_ok popped),
    Function.update_self, Function.update_idem]
  rfl

end Taking

/-! ## Runs -/

namespace Compilations

variable {env : Env} {u v : Addr} {c c₀ c' : Compilations}

/-- What a call of `compile_str` relies on at its stage. -/
def Kept (v : Addr) (s : SQVM) (slot : Option (Option CompileError)) : Stage → Prop
  | .idle | .cleared => True
  | .handled r | .failed r => ∀ e, slot = some e → e = some r.kept
  | .pushed function n => s.stackGet (-1) = .ref .closure n ∧ s.stackbase < s.top ∧
      (s.heap.closures.read n).function = function
  | .ended (.failed r) res => slot.isSome → res = .ok (.error (.compile r.kept)) ∧ slot = some none
  | .ended (.closure function n) res => res = .ok (.ok ⟨v, n⟩) ∧
      (s.heap.closures.read n).function = function

/-- Every call finds what it has left. -/
structure Attributed (c : Compilations) : Prop where
  based : ∀ v, (c.world v).stackbase ≤ (c.world v).top
  kept : ∀ v, Kept v (c.world v) (c.errors v) (c.stage v)

theorem Idle.attributed (start : c.Idle) : c.Attributed :=
  ⟨start.based, fun v => by rw [start.idle v]; trivial⟩

theorem takeClosure_of {n : ℕ} (top : (c.world v).stackGet (-1) = .ref .closure n)
    (deep : (c.world v).stackbase < (c.world v).top) : ∃ refs, c.takeClosure v env =
      (.ok (.ok ⟨v, n⟩), Function.update c.world v { (c.world v).pop 1 with refs := refs }) := by
  obtain ⟨refs, ran⟩ := @takePushed_run env v c.world n "expecting the closure we just compiled" top
    deep
  refine ⟨refs, ?_⟩
  unfold takeClosure
  rw [ran]
  rfl

theorem Attributed.taken (attributed : c.Attributed) {function n : ℕ}
    (at_ : c.stage v = .pushed function n) : ∃ refs, c.takeClosure v env =
      (.ok (.ok ⟨v, n⟩), Function.update c.world v { (c.world v).pop 1 with refs := refs }) := by
  have pushed := attributed.kept v
  rw [at_] at pushed
  exact takeClosure_of pushed.1 pushed.2.1

/-- A step changes the entry of its own machine only. -/
theorem StepOf.errors_apart (step : StepOf env v c c') (other : u ≠ v) :
    c'.errors u = c.errors u := by
  cases step with
  | compileFailed | compiled | takeClosure | handOver | script => rfl
  | clearError | compilerErrorHandler | takeError | scriptReports | registerVm | unregisterVm =>
    exact Function.update_of_ne other _ _

theorem StepOf.stage_apart (step : StepOf env v c c') (other : u ≠ v) : c'.stage u = c.stage u := by
  cases step with
  | script | scriptReports | registerVm | unregisterVm => rfl
  | clearError | compilerErrorHandler | compileFailed | takeError | compiled | takeClosure
  | handOver => exact Function.update_of_ne other _ _

theorem StepOf.world_apart (step : StepOf env v c c') (attributed : c.Attributed) (other : u ≠ v) :
    c'.world u = c.world u := by
  cases step with
  | clearError | compilerErrorHandler | takeError | handOver | scriptReports | registerVm
  | unregisterVm => rfl
  | compileFailed | compiled | script => exact Function.update_of_ne other _ _
  | takeClosure at_ =>
    obtain ⟨refs, taken⟩ := attributed.taken at_
    show (c.takeClosure v env).2 u = _
    rw [taken]
    exact Function.update_of_ne other _ _

/-- A step of a machine leaves what its next step relies on. -/
theorem StepOf.here (step : StepOf env v c c') (attributed : c.Attributed) :
    (c'.world v).stackbase ≤ (c'.world v).top ∧
      Kept v (c'.world v) (c'.errors v) (c'.stage v) := by
  have based := attributed.based v
  have kept := attributed.kept v
  cases step with
  | clearError at_ =>
    refine ⟨based, ?_⟩
    show Kept v _ _ (Function.update c.stage v _ v)
    rw [Function.update_self]
    trivial
  | compilerErrorHandler r at_ =>
    refine ⟨based, ?_⟩
    show Kept v _ (Function.update c.errors v _ v) (Function.update c.stage v _ v)
    rw [Function.update_self, Function.update_self]
    intro e found
    cases entry : c.errors v with
    | none => rw [entry] at found; cases found
    | some slot => rw [entry] at found; exact (Option.some.inj found).symm
  | @compileFailed r at_ =>
    rw [at_] at kept
    show (Function.update c.world v _ v).stackbase ≤ (Function.update c.world v _ v).top ∧
      Kept v _ _ (Function.update c.stage v _ v)
    rw [Function.update_self, Function.update_self]
    exact ⟨based, kept⟩
  | @takeError r at_ =>
    refine ⟨based, ?_⟩
    rw [at_] at kept
    show Kept v _ (Function.update c.errors v _ v) (Function.update c.stage v _ v)
    rw [Function.update_self, Function.update_self]
    intro entered
    cases entry : c.errors v with
    | none => rw [entry] at entered; cases entered
    | some slot =>
      refine ⟨?_, rfl⟩
      unfold ErrorRegistry.takeError
      rw [entry, kept slot entry]
      rfl
  | compiled function at_ =>
    show (Function.update c.world v _ v).stackbase ≤ (Function.update c.world v _ v).top ∧
      Kept v (Function.update c.world v _ v) _ (Function.update c.stage v _ v)
    rw [Function.update_self, Function.update_self]
    refine ⟨based.trans (Nat.le_succ _), rfl, Nat.lt_succ_of_le based, ?_⟩
    exact congrArg SQClosure.function (Store.read_alloc_self _ _)
  | @takeClosure function n at_ =>
    obtain ⟨refs, taken⟩ : ∃ refs, c.takeClosure v env = _ := attributed.taken at_
    rw [at_] at kept
    obtain ⟨-, deep, made⟩ := kept
    have machine : (c.takeClosure v env).2 v = { (c.world v).pop 1 with refs := refs } := by
      rw [taken]
      exact Function.update_self _ _ _
    show ((c.takeClosure v env).2 v).stackbase ≤ ((c.takeClosure v env).2 v).top ∧
      Kept v ((c.takeClosure v env).2 v) _ (Function.update c.stage v _ v)
    rw [machine, Function.update_self]
    refine ⟨?_, congrArg Prod.fst taken, made⟩
    show (c.world v).stackbase ≤ ((c.world v).stack.drop 1).length
    rw [List.length_drop]
    exact Nat.le_sub_one_of_lt deep
  | handOver at_ =>
    refine ⟨based, ?_⟩
    show Kept v _ _ (Function.update c.stage v _ v)
    rw [Function.update_self]
    trivial
  | script s based' at_ =>
    show (Function.update c.world v _ v).stackbase ≤ (Function.update c.world v _ v).top ∧
      Kept v _ _ (c.stage v)
    rw [Function.update_self, at_]
    exact ⟨based', trivial⟩
  | scriptReports r at_ =>
    refine ⟨based, ?_⟩
    show Kept v _ _ (c.stage v)
    rw [at_]
    trivial
  | registerVm at_ =>
    refine ⟨based, ?_⟩
    show Kept v _ _ (c.stage v)
    rw [at_]
    trivial
  | unregisterVm at_ =>
    refine ⟨based, ?_⟩
    show Kept v _ _ (c.stage v)
    rw [at_]
    trivial

theorem Attributed.step (attributed : c.Attributed) (step : Step env c c') : c'.Attributed := by
  obtain ⟨v, step⟩ := step
  have all : ∀ u, (c'.world u).stackbase ≤ (c'.world u).top ∧
      Kept u (c'.world u) (c'.errors u) (c'.stage u) := by
    intro u
    by_cases here : u = v
    · rw [here]
      exact step.here attributed
    · rw [step.errors_apart here, step.stage_apart here, step.world_apart attributed here]
      exact ⟨attributed.based u, attributed.kept u⟩
  exact ⟨fun u => (all u).1, fun u => (all u).2⟩

theorem Attributed.run (start : c₀.Idle) (run : Relation.ReflTransGen (Step env) c₀ c) :
    c.Attributed := by
  induction run with
  | refl => exact start.attributed
  | tail _ step ih => exact ih.step step

/-! ## One call -/

section Entries

variable (errors : ErrorRegistry)

theorem clearError_isSome : (errors.clearError v v).isSome = (errors v).isSome := by
  simp [ErrorRegistry.clearError]

theorem compilerErrorHandler_isSome (e : CompileError) :
    (errors.compilerErrorHandler v e v).isSome = (errors v).isSome := by
  simp [ErrorRegistry.compilerErrorHandler]

theorem takeError_isSome : ((errors.takeError v).2 v).isSome = (errors v).isSome := by
  simp [ErrorRegistry.takeError]

end Entries

/-- What a call that fails finds in the table after the report. -/
def found (c : Compilations) (v : Addr) (r : Report) : Option CompileError :=
  (((c.errors.clearError v).compilerErrorHandler v r.kept).takeError v).1

/-- The stages of a call that fails. -/
theorem failed_run (r : Report) (at_ : c.stage v = .idle) : ∃ c',
    Relation.ReflTransGen (Step env) c c' ∧
      c'.stage v = .ended (.failed r) (captured (c.found v r)) ∧
        (c'.errors v).isSome = (c.errors v).isSome := by
  have start : Relation.ReflTransGen (Step env) c c := .refl
  have cleared := start.tail ⟨v, .clearError at_⟩
  have handled := cleared.tail ⟨v, .compilerErrorHandler r (Function.update_self _ _ _)⟩
  have failed := handled.tail ⟨v, .compileFailed (Function.update_self _ _ _)⟩
  have ended := failed.tail ⟨v, .takeError (Function.update_self _ _ _)⟩
  refine ⟨_, ended, Function.update_self _ _ _, ?_⟩
  show (((c.errors.clearError v).compilerErrorHandler v r.kept).takeError v |>.2 v).isSome = _
  rw [takeError_isSome, compilerErrorHandler_isSome, clearError_isSome]

/-- The stages of a call that succeeds. -/
theorem closure_run (function : ℕ) (at_ : c.stage v = .idle)
    (based : (c.world v).stackbase ≤ (c.world v).top) : ∃ c',
    Relation.ReflTransGen (Step env) c c' ∧
      c'.stage v = .ended (.closure function (c.world v).heap.closures.next)
        (.ok (.ok ⟨v, (c.world v).heap.closures.next⟩)) := by
  have start : Relation.ReflTransGen (Step env) c c := .refl
  have cleared := start.tail ⟨v, .clearError at_⟩
  obtain ⟨c₁, compiled, at_, world⟩ : ∃ c₁, Relation.ReflTransGen (Step env) c c₁ ∧
      c₁.stage v = .pushed function (c.world v).heap.closures.next ∧
        c₁.world v = pushClosure function (c.world v) :=
    ⟨_, cleared.tail ⟨v, .compiled function (Function.update_self _ _ _)⟩,
      Function.update_self _ _ _, Function.update_self _ _ _⟩
  obtain ⟨refs, taken⟩ := @takeClosure_of env v c₁ (c.world v).heap.closures.next
    (by rw [world]; rfl) (by rw [world]; exact Nat.lt_succ_of_le based)
  refine ⟨_, compiled.tail ⟨v, .takeClosure at_⟩, (Function.update_self _ _ _).trans ?_⟩
  rw [taken]

/-! ## A program alone -/

section Sequential

variable {w : World}

/-- The machines outside of any call. -/
def ofWorld (w : World) : Compilations := ⟨w, fun _ => .idle, fun v => (w v).errorSlot⟩

/-- The machines after `clear_error`. -/
def clearedWorld (w : World) (v : VmId) : World :=
  Function.update w v { w v with errorSlot := (w v).errorSlot.map fun _ => none }

theorem compileStr_failed {src sourceName : List UInt8} {r : Report}
    (reports : env.compile (clearedWorld w v v) src sourceName = .error r.kept) :
    ((Squirrel.compileStr env v src sourceName).run w).1 =
      captured ((ofWorld w).found v r) := by
  have cleared : (Squirrel.clearError v).run w = (.ok (), clearedWorld w v) := rfl
  obtain ⟨w', failed, slot⟩ : ∃ w', ((Api.sqCompilebuffer env src sourceName).on v).run
      (clearedWorld w v) = (.ok .error, w') ∧
        (w' v).errorSlot = (w v).errorSlot.map fun _ => some r.kept := by
    rw [Act.run_on]
    unfold Api.sqCompilebuffer
    rw [Act.run_bind_of_ok (Act.run_get _), reports]
    refine ⟨_, rfl, ?_⟩
    rw [Function.update_self]
    show ((clearedWorld w v v).errorSlot.map fun _ => some r.kept) = _
    unfold clearedWorld
    rw [Function.update_self, Option.map_map]
    rfl
  have taken : (Squirrel.takeError v).run w' = (.ok (w' v).errorSlot.join,
      ((Squirrel.takeError v).run w').2) := rfl
  have entry : (((ofWorld w).errors.clearError v).compilerErrorHandler v r.kept) v =
      (w v).errorSlot.map fun _ => some r.kept := by
    unfold ErrorRegistry.compilerErrorHandler ErrorRegistry.clearError
    rw [Function.update_self, Function.update_self, Option.map_map]
    rfl
  unfold Squirrel.compileStr found ErrorRegistry.takeError
  rw [Act.run_bind_of_ok cleared, Act.run_bind_of_ok failed, if_pos (by rfl),
    Act.run_bind_of_ok taken, slot, entry]
  cases (w v).errorSlot <;> rfl

theorem compileStr_compiled {src sourceName : List UInt8} {function : ℕ}
    (makes : env.compile (clearedWorld w v v) src sourceName = .ok function)
    (rooted : (w v).roottable.isSome) (based : (w v).stackbase ≤ (w v).top) :
    ((Squirrel.compileStr env v src sourceName).run w).1 =
      .ok (.ok ⟨v, (w v).heap.closures.next⟩) := by
  have cleared : (Squirrel.clearError v).run w = (.ok (), clearedWorld w v) := rfl
  have machine : clearedWorld w v v =
      { w v with errorSlot := (w v).errorSlot.map fun _ => none } := Function.update_self _ _ _
  have compiled : ((Api.sqCompilebuffer env src sourceName).on v).run (clearedWorld w v) =
      (.ok .ok, Function.update (clearedWorld w v) v
        (pushClosure function (clearedWorld w v v))) := by
    rw [Act.run_on]
    unfold Api.sqCompilebuffer
    obtain ⟨root, there⟩ := Option.isSome_iff_exists.1 rooted
    have there' : (clearedWorld w v v).roottable = some root := machine ▸ there
    rw [Act.run_bind_of_ok (Act.run_get _), makes]
    unfold pushClosure
    simp only [there']
    rfl
  obtain ⟨refs, taken⟩ := @takePushed_run env v
    (Function.update (clearedWorld w v) v (pushClosure function (clearedWorld w v v)))
    (w v).heap.closures.next "expecting the closure we just compiled"
    (by rw [Function.update_self, machine]; rfl)
    (by rw [Function.update_self, machine]; exact Nat.lt_succ_of_le based)
  unfold Squirrel.compileStr
  rw [Act.run_bind_of_ok cleared, Act.run_bind_of_ok compiled, if_neg (by decide),
    Act.run_bind_of_ok taken]
  rfl

/-- A call of `compile_str` that nothing interrupts is a run of its steps. -/
theorem compileStr_ended {src sourceName : List UInt8}
    (based : (w v).stackbase ≤ (w v).top)
    (rooted : Api.CanCompile env (w v) src sourceName)
    (reports : ∀ e, env.compile (clearedWorld w v v) src sourceName = .error e →
      ∃ r : Report, r.kept = e) :
    ∃ c' made, Relation.ReflTransGen (Step env) (ofWorld w) c' ∧
      c'.stage v = .ended made ((Squirrel.compileStr env v src sourceName).run w).1 := by
  cases compiles : env.compile (clearedWorld w v v) src sourceName with
  | error e =>
    obtain ⟨r, rfl⟩ := reports e compiles
    obtain ⟨c', run, ended, -⟩ := @failed_run env v (ofWorld w) r rfl
    exact ⟨c', _, run, by rw [ended, compileStr_failed compiles]⟩
  | ok function =>
    obtain ⟨c', run, ended⟩ := @closure_run env v (ofWorld w) function rfl based
    have there : (w v).roottable.isSome := by
      rcases rooted with there | refused
      · exact there
      · obtain ⟨e, eq⟩ := refused (clearedWorld w v v)
        rw [compiles] at eq
        cases eq
    exact ⟨c', _, run, by rw [ended, compileStr_compiled compiles there based]; rfl⟩

end Sequential

/-! ## Any run -/

/-- A call that fails returns what the compiler has reported to it, with texts that are decoded
lossily, and leaves an empty slot. A call that succeeds returns the closure it has compiled. No step
of a machine changes the slot of another one. -/
theorem compile_errors_attributed (start : c₀.Idle) (run : Relation.ReflTransGen (Step env) c₀ c)
    (v : Addr) :
    (∀ r res, c.stage v = .ended (.failed r) res → (c.errors v).isSome →
      res = .ok (.error (.compile r.kept)) ∧ (r.IsUtf8 → r.kept = r.reported) ∧
        c.errors v = some none) ∧
    (∀ function n res, c.stage v = .ended (.closure function n) res →
      res = .ok (.ok ⟨v, n⟩) ∧ ((c.world v).heap.closures.read n).function = function) ∧
    ∀ c', StepOf env v c c' → ∀ u ≠ v, c'.errors u = c.errors u := by
  have kept := (Attributed.run start run).kept v
  refine ⟨fun r res ended entered => ?_, fun function n res ended => ?_, fun c' step u other =>
    step.errors_apart other⟩
  · rw [ended] at kept
    obtain ⟨same, empty⟩ := kept entered
    exact ⟨same, Report.kept_eq_reported, empty⟩
  · rw [ended] at kept
    exact kept

/-- Every machine of the usual world is registered. -/
def usual : Compilations := ⟨World.usual .returning, fun _ => .idle, fun _ => some none⟩

theorem usual_idle : usual.Idle := ⟨fun _ => rfl, fun vm =>
  (fits_opened .returning (fun _ => .empty) (fun _ => 1024) vm (Nat.zero_le 1024)).base⟩

/-- A text that is UTF-8 is returned as it is. -/
theorem compile_errors_attributed_ascii : ∃ c, Relation.ReflTransGen (Step .returning) usual c ∧
    c.stage 0 = .ended (.failed ⟨[101], [97], 1, 2⟩)
      (.ok (.error (.compile ⟨[101], [97], 1, 2⟩))) := by
  obtain ⟨c, run, ended, entered⟩ := @failed_run .returning 0 usual ⟨[101], [97], 1, 2⟩ rfl
  have attributed := (compile_errors_attributed usual_idle run 0).1 _ _ ended entered
  refine ⟨c, run, ?_⟩
  rw [ended, attributed.1]
  rfl

/-- A source name that is not UTF-8 is not returned as the compiler has reported it. -/
theorem compile_error_decoded : ∃ c r res, Relation.ReflTransGen (Step .returning) usual c ∧
    c.stage 0 = .ended (.failed r) res ∧ (c.errors 0).isSome ∧
    res ≠ .ok (.error (.compile r.reported)) := by
  obtain ⟨c, run, ended, entered⟩ := @failed_run .returning 0 usual ⟨[101], [255], 1, 2⟩ rfl
  have kept := (Attributed.run usual_idle run).kept 0
  rw [ended] at kept
  refine ⟨c, _, _, run, ended, entered, ?_⟩
  rw [(kept entered).1]
  decide

end Compilations

end Squirrels
