import Mathlib.Logic.Relation
import Squirrels.Binding.OperationContract
import Squirrels.Vm.Open

/-!
# Sessions

A session is the machines of a program together with its live handles. A call takes the handles
it consumes out of the live ones and adds those of its result; when it panics, the panic is caught
and the session goes on. Runs are sequences of calls, each chosen by the program as it likes among
those that meet a condition.
-/

namespace Squirrels

open Machines

/-- The machines of a program and its live handles. -/
structure Session where
  world : World
  live : List Object

/-- Machines that have just been opened. -/
def World.opened (env : Env) (shared : VmId → SQSharedState) (size : VmId → ℕ) : World :=
  fun vm => SQVM.opened env (shared vm) (size vm)

/-- The machines of a program that have just been opened, with the usual size. -/
def World.usual (env : Env) : World := World.opened env (fun _ => .empty) fun _ => 1024

/-- A call in a session. Nothing follows the end of the process. -/
inductive Call.Step (c : Call) : Session → Session → Prop where
  | returned {w w' : World} {L rest : List Object} {r : c.Result}
      (moved : L.Perm (c.consumed ++ rest)) (ran : c.program.run w = (.ok r, w')) :
      Call.Step c ⟨w, L⟩ ⟨w', Owns.handles r ++ rest⟩
  | panicked {w w' : World} {L rest : List Object} {message : String}
      (moved : L.Perm (c.consumed ++ rest))
      (ran : c.program.run w = (.error (.panic message), w')) :
      Call.Step c ⟨w, L⟩ ⟨w', rest⟩

/-- Whether something follows a call: it returns, or its panic is caught. -/
def Call.goesOn (c : Call) (w : World) : Bool :=
  match (c.program.run w).1 with
  | .ok _ | .error (.panic _) => true
  | .error _ => false

/-- The session after a call. -/
def Session.after (x : Session) (c : Call) : Session where
  world := (c.program.run x.world).2
  live :=
    (match (c.program.run x.world).1 with
      | .ok r => Owns.handles r
      | .error _ => []) ++ x.live.diff c.consumed

/-- A call that consumes live handles leads to the session after it. -/
theorem Call.step_after {c : Call} {x : Session}
    (moved : x.live.Perm (c.consumed ++ x.live.diff c.consumed)) (goesOn : c.goesOn x.world) :
    c.Step x (x.after c) := by
  unfold Call.goesOn at goesOn
  unfold Session.after
  rcases ran : c.program.run x.world with ⟨e | r, w'⟩ <;> rw [ran] at goesOn
  · cases e with
    | panic message => exact .panicked moved ran
    | abort reason => simp at goesOn
    | diverge => simp at goesOn
  · exact .returned moved ran

/-- A step of a run that makes the calls of a family, under a condition. -/
def Moves {ι : Type*} (call : ι → Call) (meets : Session → ι → Prop) (x y : Session) : Prop :=
  ∃ op, meets x op ∧ (call op).Step x y

theorem Moves.after {ι : Type*} {call : ι → Call} {meets : Session → ι → Prop} {x : Session}
    (op : ι) (met : meets x op)
    (moved : x.live.Perm ((call op).consumed ++ x.live.diff (call op).consumed))
    (goesOn : (call op).goesOn x.world) : Moves call meets x (x.after (call op)) :=
  ⟨op, met, Call.step_after moved goesOn⟩

/-- The stacks of all machines are as they were, and so are the frames they are counted from. -/
def SameStacks (w w' : World) : Prop :=
  ∀ vm, (w' vm).stack = (w vm).stack ∧ (w' vm).stackbase = (w vm).stackbase

section Opened

variable (env : Env) (shared : VmId → SQSharedState) (size : VmId → ℕ)

/-- No handle is live when the machines have just been opened. -/
theorem owned_opened : Owned [] (World.opened env shared size) := by
  intro vm o _
  obtain ⟨heap, -, eq⟩ := SQVM.opened_eq env (shared vm) (size vm)
  unfold World.opened
  rw [eq]
  by_cases root : o = .ref .table (shared vm).root <;> simp [root]

/-- The whole stack vector is free when the machines have just been opened. -/
theorem fits_opened (vm : VmId) {n : ℕ} (room : n ≤ size vm) :
    Fits (World.opened env shared size vm) (World.opened env shared size vm).stack.length n := by
  obtain ⟨heap, -, eq⟩ := SQVM.opened_eq env (shared vm) (size vm)
  unfold World.opened
  rw [eq]
  exact ⟨Nat.zero_le _, by simpa [SQVM.init] using room⟩

theorem registered_opened (vm : VmId) :
    (World.opened env shared size vm).errorSlot.isSome := by
  obtain ⟨heap, -, eq⟩ := SQVM.opened_eq env (shared vm) (size vm)
  unfold World.opened
  rw [eq]
  rfl

end Opened

section Sessions

variable {env : Env} {H N : Prop} {w w' : World} {vm : VmId} {stack : List SQObject}
  {L rest : List Object} {x : Session} {c : Call}

theorem Apart.refl (s : SQVM) : Apart s s := ⟨rfl, fun _ => le_rfl⟩

theorem Apart.kept {s s' : SQVM} (apart : Apart s s') : Kept env s s' := by
  rw [apart.same]
  exact ⟨⟨rfl, rfl, rfl, rfl, rfl, rfl, le_rfl, .refl _, fun _ => rfl⟩, rfl⟩

/-- An operation starts with the handles that are live. -/
theorem At.start (owned : Owned L w) (vm : VmId) : At env H H w vm (w vm).stack L w :=
  ⟨⟨rfl, rfl, fun _ => rfl, le_rfl, fun held _ => held, fun _ => .refl _, fun _ => rfl⟩, owned,
    fun j _ => .refl (w j)⟩

/-- What is promised about the machine an operation works on and about the others, as one. -/
theorem At.same (at_ : At env True H w vm stack L w')
    (calm : (w' vm).stranded = (w vm).stranded) (j : VmId) : Same env (w j) (w' j) := by
  by_cases here : j = vm
  · subst here
    exact at_.on.same (at_.on.live trivial calm)
  · exact (at_.others j here).kept.toSame

theorem At.kept (at_ : At env True H w vm (w vm).stack L w')
    (calm : (w' vm).stranded = (w vm).stranded) (j : VmId) : Kept env (w j) (w' j) := by
  by_cases here : j = vm
  · subst here
    have held := at_.on.live trivial calm
    exact ⟨at_.on.same held, at_.on.stack_eq held⟩
  · exact (at_.others j here).kept

theorem SameStacks.of_kept (kept : ∀ vm, Kept env (w vm) (w' vm)) : SameStacks w w' :=
  fun vm => ⟨(kept vm).stack, (kept vm).stackbase⟩

/-- A balanced call whose own calls complete returns, to the stacks it started on. -/
theorem Call.Balanced.returns (balanced : c.Balanced env True True w (w c.vm).stack)
    (owned : Owned L w) (moved : L.Perm (c.consumed ++ rest)) (completes : c.Completes w) :
    ∃ r w', c.program.run w = (.ok r, w') ∧ Owned (Owns.handles r ++ rest) w' ∧
      ∀ vm, Kept env (w vm) (w' vm) := by
  have done := balanced rest w ⟨rfl, (At.start owned c.vm).perm moved⟩
  unfold Call.Completes at completes
  rcases ran : c.program.run w with ⟨e | r, w'⟩ <;> rw [ran] at done completes
  · by_cases panic : ∃ message, e = .panic message
    · obtain ⟨message, rfl⟩ := panic
      obtain ⟨H, stack, excluded, -, at_⟩ := done.panicked message rfl
      exact (excluded ⟨at_.on.live trivial completes, trivial⟩).elim
    · exact (done.ended (fun message eq => panic ⟨message, eq⟩) ⟨trivial, completes⟩).elim
  · obtain ⟨H', -, at_⟩ := done
    exact ⟨r, w', rfl, at_.owned, at_.kept completes⟩

/-- A step of a balanced call. -/
theorem Call.Balanced.step {y : Session}
    (balanced : c.Balanced env True True x.world (x.world c.vm).stack)
    (owned : Owned x.live x.world) (completes : c.Completes x.world) (step : c.Step x y) :
    Owned y.live y.world ∧ ∀ vm, Kept env (x.world vm) (y.world vm) := by
  cases step with
  | returned moved ran =>
    obtain ⟨r, w', ran', owned', kept⟩ := balanced.returns owned moved completes
    rw [ran] at ran'
    simp only [Prod.mk.injEq, Except.ok.injEq] at ran'
    obtain ⟨rfl, rfl⟩ := ran'
    exact ⟨owned', kept⟩
  | panicked moved ran =>
    obtain ⟨r, w', ran', -⟩ := balanced.returns owned moved completes
    rw [ran] at ran'
    simp at ran'

/-- A run of balanced calls keeps the references right and every stack as it was. -/
theorem run_kept {ι : Type*} {call : ι → Call} {meets : Session → ι → Prop} {start now : Session}
    (owned : Owned start.live start.world)
    (balanced : ∀ (x : Session) op, (∀ vm, Kept env (start.world vm) (x.world vm)) → meets x op →
      (call op).Balanced env True True x.world (x.world (call op).vm).stack)
    (completes : ∀ (x : Session) op, meets x op → (call op).Completes x.world)
    (run : Relation.ReflTransGen (Moves call meets) start now) :
    Owned now.live now.world ∧ ∀ vm, Kept env (start.world vm) (now.world vm) := by
  induction run with
  | refl => exact ⟨owned, fun _ => .refl _⟩
  | tail _ move ih =>
    obtain ⟨op, met, step⟩ := move
    obtain ⟨owned', kept⟩ := (balanced _ op ih.2 met).step ih.1 (completes _ op met) step
    exact ⟨owned', fun vm => (ih.2 vm).trans (kept vm)⟩

/-- A step of a call that finds what it needs leaves the machines as they were, the stack of its
own machine apart. -/
theorem Call.Accounted.step {y : Session}
    (accounted : c.Accounted env True x.world (x.world c.vm).stack)
    (owned : Owned x.live x.world) (completes : c.Completes x.world) (step : c.Step x y) :
    Owned y.live y.world ∧ ∀ vm, Same env (x.world vm) (y.world vm) := by
  unfold Call.Completes at completes
  cases step with
  | @returned w w' L rest r moved ran =>
    have done := accounted rest w ⟨rfl, (At.start owned c.vm).perm moved⟩
    rw [ran] at done completes
    obtain ⟨stack, H', -, at_⟩ := done
    exact ⟨at_.owned, at_.same completes⟩
  | @panicked w w' L rest message moved ran =>
    have done := accounted rest w ⟨rfl, (At.start owned c.vm).perm moved⟩
    rw [ran] at done completes
    obtain ⟨H', stack, -, -, at_⟩ := done.panicked message rfl
    exact ⟨at_.owned, at_.same completes⟩

end Sessions

end Squirrels
