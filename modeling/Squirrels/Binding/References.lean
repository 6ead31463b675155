import Squirrels.Binding.Session

/-!
# References

Whatever the operations do, the reference tables count the live handles. Nothing is asked of the
operations here: they may find no room, run scripts that suspend, be given handles of other
machines and panic.
-/

namespace Squirrels

open Machines

/-- A program that stopped has released nothing too often, and a panic has dropped the handles the
program owned. -/
def Released (L : List Object) (e : Stop) (w : World) : Prop :=
  e ≠ Api.overRelease ∧ ∀ message, e = .panic message → Owned L w

/-- A program that consumes the given handles and returns those of its result. -/
def Counted (consumed : List Object) {α : Type} [Owns α] (m : Act World α) : Prop :=
  ∀ L, Triple (Owned (consumed ++ L)) m (fun r => Owned (Owns.handles r ++ L)) (Released L)

section Counted

variable {env : Env} {N : Prop} {vm : VmId} {stack : List SQObject} {L : List Object} {α : Type}
  {m : Act World α}

theorem Failed.released {w₀ w : World} {e : Stop} (failed : Failed env False N w₀ vm L e w) :
    Released L e w := by
  refine ⟨failed.counted, fun message eq => ?_⟩
  obtain ⟨H, stack, -, -, at_⟩ := failed.panicked message eq
  exact at_.owned

/-- A contract that promises nothing about the stack is one about references. -/
theorem Triple.references (env : Env) (vm : VmId) (stack : List SQObject) {Q : α → World → Prop}
    (contract : ∀ w₀, Triple (At env False False w₀ vm stack L) m (fun a w => Q a w)
      (Failed env False N w₀ vm L)) :
    Triple (Owned L) m Q (Released L) := by
  intro w owned
  have done := contract w w ((At.start owned vm).any id stack)
  rcases ran : m.run w with ⟨e | a, w'⟩ <;> rw [ran] at done
  · exact done.released
  · exact done

theorem Call.Accounted.counted {c : Call} (accounted : ∀ w₀, c.Accounted env False w₀ stack) :
    Counted c.consumed c.program := by
  intro L w owned
  have done := accounted w L w ⟨rfl, (At.start owned c.vm).any id stack⟩
  rcases ran : c.program.run w with ⟨e | a, w'⟩ <;> rw [ran] at done
  · exact done.released
  · obtain ⟨stack, H', -, at_⟩ := done
    exact at_.owned

/-- The push of any object on any machine. -/
theorem push_references (vm : VmId) (o : SQObject) :
    Triple (Owned L) ((Api.push o).on vm) (fun _ => Owned L) (Released L) := by
  intro w owned
  exact owned.update rfl rfl

end Counted

/-! ## Every operation -/

section Operations

variable {env : Env} {L : List Object}

/-- The delegate may belong to another machine, on whose stack it is then pushed. -/
theorem Handle.Table.setDelegate_counted (self : Table) (delegate : Option Table) :
    Counted [] (setDelegate env self delegate) := by
  intro L
  have pushed : Triple (Owned L) (pushDelegate self delegate) (fun _ => Owned L) (Released L) := by
    cases delegate with
    | none => exact push_references self.sq .null
    | some d => exact push_references d.sq d.obj
  refine Triple.bind (push_references self.sq self.obj) fun _ => Triple.bind pushed fun _ => ?_
  -- the rest is on the machine of the table, whatever slots it finds there
  refine Triple.references (N := False) env self.sq [.null] fun w₀ => ?_
  refine Triple.bind (At.exits (Api.sqSetdelegate_exits (-2) .null)) fun ret =>
    Triple.exists_pre fun _ => Triple.of_pre fun _ => ?_
  refine Triple.bind (toRuntimeError_any ret 2 Nat.two_pos [.null] False.elim) fun e => ?_
  cases e with
  | error e => exact Triple.pure fun _ ⟨_, at_⟩ => at_.owned
  | ok _ =>
    exact Triple.of_pre fun _ => Triple.bind (pop_at 1 one_pos False.elim) fun _ =>
      Triple.pure fun _ at_ => at_.owned

/-- Every operation accounts for the handles it consumes and makes. -/
theorem Op.counted (op : Op) : Counted (op.toCall env).consumed (op.toCall env).program := by
  have own : op.OwnDelegate → Counted (op.toCall env).consumed (op.toCall env).program :=
    fun own => Call.Accounted.counted fun w₀ =>
      (op.accounted own False.elim False.elim False.elim :
        (op.toCall env).Accounted env False w₀ [])
  cases op with
  | table op =>
    cases op with
    | setDelegate self delegate => exact Handle.Table.setDelegate_counted self delegate
    | _ => exact own trivial
  | _ => exact own trivial

theorem Op.counted_step (op : Op) {x y : Session} (owned : Owned x.live x.world)
    (step : (op.toCall env).Step x y) : Owned y.live y.world := by
  cases step with
  | @returned w w' L rest r moved ran =>
    have done := op.counted rest w (owned.perm moved)
    rw [ran] at done
    exact done
  | @panicked w w' L rest message moved ran =>
    have done := op.counted rest w (owned.perm moved)
    rw [ran] at done
    exact done.2 message rfl

/-- Dropping a machine releases its cached root table, which has a reference. -/
theorem Squirrel.drop_returns {w : World} (owned : Owned L w) (sq : VmId) :
    ∃ w', (Squirrel.drop sq).run w = (.ok (), w') ∧ ∀ j, j ≠ sq → w' j = w j := by
  have counted := owned sq (.ref .table (w sq).root) rfl
  rw [if_pos rfl] at counted
  have positive : (w sq).refs (.ref .table (w sq).root) ≠ 0 := by omega
  unfold Squirrel.drop Api.sqRelease
  rw [Act.run_bind_of_ok (Act.run_get w), Act.run_on, Act.run_bind_of_ok (Act.run_get _)]
  rw [if_neg (by simp [SQObject.isRefCounted]), if_neg positive]
  refine ⟨_, rfl, fun j other => ?_⟩
  rw [Function.update_of_ne other]

end Operations

/-! ## Runs -/

/-- A step of a session: any operation, or a machine without live handles is dropped and another
one opened. -/
inductive Session.Step (env : Env) : Session → Session → Prop where
  | call {x y : Session} (op : Op) (step : (op.toCall env).Step x y) : Session.Step env x y
  | reopen {w w' : World} {L : List Object} (vm : VmId) (shared : SQSharedState) (size : ℕ)
      (unused : ∀ o ∈ L, o.sq ≠ vm) (dropped : (Squirrel.drop vm).run w = (.ok (), w')) :
      Session.Step env ⟨w, L⟩ ⟨Function.update w' vm (SQVM.opened env shared size), L⟩

theorem Session.Step.after {env : Env} {x : Session} (op : Op)
    (ready : x.live.Perm ((op.toCall env).consumed ++ x.live.diff (op.toCall env).consumed) ∧
      (op.toCall env).goesOn x.world) : Session.Step env x (x.after (op.toCall env)) :=
  .call op (Call.step_after ready.1 ready.2)

theorem Session.Step.owned {env : Env} {x y : Session} (step : Session.Step env x y)
    (owned : Owned x.live x.world) : Owned y.live y.world := by
  cases step with
  | call op step => exact op.counted_step owned step
  | @reopen w w' L vm shared size unused dropped =>
    obtain ⟨w'', ran, others⟩ := Squirrel.drop_returns owned vm
    rw [dropped] at ran
    obtain rfl := (Prod.mk.inj ran).2
    show Owned L (Function.update w' vm (SQVM.opened env shared size))
    intro j o counted
    by_cases here : j = vm
    · subst here
      have fresh := owned_opened env (fun _ => shared) (fun _ => size) j o counted
      have none : L.count ⟨j, o⟩ = 0 := List.count_eq_zero.2 fun mem => unused _ mem rfl
      rw [Function.update_self, none]
      exact fresh
    · rw [Function.update_of_ne here, others j here]
      exact owned j o counted

/-- In every state of every run the count of an object is the number of its live handles, with one
more for a cached root table; no operation and no drop of a machine releases an object that has no
reference; an object with a live handle has a reference, and one without handles that is not a
cached root table has none. -/
theorem handles_own_references {env : Env} {shared : VmId → SQSharedState} {size : VmId → ℕ}
    {now : Session}
    (run : Relation.ReflTransGen (Session.Step env) ⟨World.opened env shared size, []⟩ now) :
    Owned now.live now.world ∧
      (∀ (op : Op) rest w', now.live.Perm ((op.toCall env).consumed ++ rest) →
        (op.toCall env).program.run now.world ≠ (.error Api.overRelease, w')) ∧
      (∀ sq, ∃ w', (Squirrel.drop sq).run now.world = (.ok (), w')) ∧
      (∀ x ∈ now.live, x.obj.isRefCounted → 1 ≤ (now.world x.sq).refs x.obj) ∧
      ∀ vm o, o.isRefCounted → ⟨vm, o⟩ ∉ now.live → o ≠ .ref .table (now.world vm).root →
        (now.world vm).refs o = 0 := by
  have owned : Owned now.live now.world := by
    induction run with
    | refl => exact owned_opened env shared size
    | tail _ step ih => exact step.owned ih
  refine ⟨owned, fun op rest w' moved ran => ?_, fun sq => ?_, fun x mem counted => ?_,
    fun vm o counted unheld other => ?_⟩
  · have done := op.counted rest now.world (owned.perm moved)
    rw [ran] at done
    exact done.1 rfl
  · obtain ⟨w', ran, -⟩ := Squirrel.drop_returns owned sq
    exact ⟨w', ran⟩
  · have count := owned x.sq x.obj counted
    have held : 0 < now.live.count ⟨x.sq, x.obj⟩ := List.count_pos_iff.2 mem
    omega
  · rw [owned vm o counted, if_neg other, List.count_eq_zero.2 unheld]

/-- The handle of a table is cloned, a slot of the table is read as a string, which does not
convert, and the clone is dropped. -/
def Session.cloned : Session :=
  ([.table (.new 0), .handle (.clone ⟨0, .ref .table 1⟩),
    .table (.rawSet ⟨0, 1⟩ ⟨(1 : ℤ)⟩ ⟨(2 : ℤ)⟩), .table (.rawGet ⟨0, 1⟩ ⟨(1 : ℤ)⟩ ⟨StringHandle⟩),
    .handle (.drop ⟨0, .ref .table 1⟩)].map (Op.toCall .returning)).foldl Session.after
      ⟨World.usual .returning, []⟩

/-- One handle of the table is left of this run. -/
theorem handles_own_references_cloned :
    Session.cloned.live = [⟨0, .ref .table 1⟩] ∧
      Owned Session.cloned.live Session.cloned.world := by
  have run : Relation.ReflTransGen (Session.Step .returning) ⟨World.usual .returning, []⟩
      .cloned := by
    refine .head (Session.Step.after (.table (.new 0)) (by decide +kernel)) ?_
    refine .head (Session.Step.after (.handle (.clone ⟨0, .ref .table 1⟩)) (by decide +kernel)) ?_
    refine .head (Session.Step.after (.table (.rawSet ⟨0, 1⟩ ⟨(1 : ℤ)⟩ ⟨(2 : ℤ)⟩))
      (by decide +kernel)) ?_
    refine .head (Session.Step.after (.table (.rawGet ⟨0, 1⟩ ⟨(1 : ℤ)⟩ ⟨StringHandle⟩))
      (by decide +kernel)) ?_
    exact .single (Session.Step.after (.handle (.drop ⟨0, .ref .table 1⟩)) (by decide +kernel))
  exact ⟨by decide +kernel, (handles_own_references run).1⟩

end Squirrels
