import Squirrels.Binding.Array
import Squirrels.Binding.Capacity
import Squirrels.Binding.StackDiscipline

/-!
# Types of handles

A typed handle is made from an object with its tag, so the type checks of the C functions it is
passed to succeed. What else can make these functions fail is a frame with fewer slots than they ask
for: a metamethod that is left suspended moves the base of the frame above the slots.
-/

namespace Squirrels

open Machines

/-- What the types of handles and values promise in a session. -/
structure TypeSafe (env : Env) (x : Session) : Prop where
  /-- A handle is decoded from an object with its tag. -/
  decoded : ∀ {t : RefType} {idx : ℤ} {vm : VmId} {h : Handle t} {w' : World},
    (FromSquirrel.fromStack env idx vm).run x.world = (.ok (.ok h), w') →
      h.sq = vm ∧ (x.world vm).stackGet idx = .ref t h.ref
  /-- A value is of the variant of its object. -/
  valued : ∀ {o : Object} {v : Value} {w' : World},
    (o.intoValue env).run x.world = (.ok v, w') → v.slot = o.obj
  /-- The objects of the live handles have references under their tags. -/
  held : ∀ o ∈ x.live, o.obj.isRefCounted = true → 1 ≤ (x.world o.sq).refs o.obj
  /-- So has the root table that is kept. -/
  root : ∀ vm, 1 ≤ (x.world vm).refs (.ref .table (x.world vm).root)
  /-- No operation that finds what it needs stops at an assertion about a type. -/
  silent : ∀ (op : Op) (rest : List Object) {e : Stop} {w' : World}, op.CanRun env x →
    x.live.Perm ((op.toCall env).consumed ++ rest) →
    (op.toCall env).program.run x.world = (.error e, w') →
    ∃ message, e = .panic message ∧ message ∉ typeAssertions

section Decoding

variable {env : Env} {w : World}

/-- The object that is read is the one in the slot. -/
theorem fromStack_reads (idx : ℤ) (vm : VmId) :
    Triple (· = w) (Object.fromStack idx vm) (fun o _ => o = ⟨vm, (w vm).stackGet idx⟩)
      fun _ _ => True := by
  refine Triple.bind (Q := fun _ w' => (w' vm).stackGet idx = (w vm).stackGet idx) ?_ fun _ => ?_
  · refine Triple.bind (Q := fun _ w' => (w' vm).stackGet idx = (w vm).stackGet idx) ?_ fun _ =>
      Triple.ensure (fun _ _ same => same) fun _ _ _ => True.intro
    intro w₀ eq
    subst eq
    show ((Function.update w₀ vm (w₀ vm)) vm).stackGet idx = _
    rw [Function.update_self]
  refine Triple.bind (Q := fun o _ => o = (w vm).stackGet idx) (fun _ same => same) fun o => ?_
  refine Triple.bind (Q := fun _ _ => o = (w vm).stackGet idx) ?_ fun _ =>
    Triple.pure fun _ eq => congrArg (Object.mk vm) eq
  intro w₁ eq
  exact eq

theorem handle_decoded {t : RefType} {idx : ℤ} {vm : VmId} {h : Handle t} {w' : World}
    (ran : (FromSquirrel.fromStack env idx vm).run w = (.ok (.ok h), w')) :
    h.sq = vm ∧ (w vm).stackGet idx = .ref t h.ref := by
  have contract : Triple (· = w)
      (FromSquirrel.fromStack env idx vm : Act World (Except Error (Handle t)))
      (fun r _ => ∀ h, r = .ok h → h.sq = vm ∧ (w vm).stackGet idx = .ref t h.ref)
      fun _ _ => True := by
    refine Triple.bind (Triple.pre (fromStack_reads idx vm) fun _ eq => eq) fun o => ?_
    cases typed : o.ofType t with
    | none =>
      exact Triple.bind (Triple.any _) fun _ => Triple.pure fun _ _ h ok => by cases ok
    | some found =>
      refine Triple.pure fun _ eq h ok => ?_
      obtain rfl := Except.ok.inj ok
      have object := Object.ofType_object typed
      rw [eq] at object
      exact ⟨(congrArg Object.sq object).symm, congrArg Object.obj object⟩
  have done := contract w rfl
  rw [ran] at done
  exact done h rfl

theorem value_slot {o : Object} {v : Value} {w' : World}
    (ran : (o.intoValue env).run w = (.ok v, w')) : v.slot = o.obj := by
  have contract : Triple (· = w) (o.intoValue env) (fun v _ => v.slot = o.obj)
      fun _ _ => True := by
    obtain ⟨sq, obj⟩ := o
    have scalar : ∀ v : Value, v.slot = obj → Triple (· = w)
        (do Object.drop ⟨sq, obj⟩; pure v) (fun v _ => v.slot = obj) fun _ _ => True :=
      fun v same => Triple.bind (Triple.any _) fun _ => Triple.pure fun _ _ => same
    unfold Object.intoValue
    cases obj with
    | null => exact scalar .null rfl
    | integer n => exact scalar (.integer n) rfl
    | float bits => exact scalar (.float bits) rfl
    | bool b => exact scalar (.bool b) rfl
    | userPointer p => exact scalar (.userPointer p) rfl
    | ref t r => exact Triple.pure fun _ _ => rfl
    | string str =>
      refine Triple.bind (Q := fun s _ => s.str = str) ?_ fun s =>
        Triple.pure fun _ eq => congrArg SQObject.string eq
      refine Triple.bind (Triple.any _) fun _ => Triple.bind (Triple.any _) fun read => ?_
      cases read with
      | none => exact Triple.bind (Triple.any _) fun _ => Triple.stop fun _ _ => True.intro
      | some bytes => exact Triple.bind (Triple.any _) fun _ => Triple.pure fun _ _ => rfl
  have done := contract w rfl
  rw [ran] at done
  exact done

end Decoding

/-- An array is made, a value inserted beyond its end, which panics, and another one appended, in a
program whose functions suspend. -/
def Session.appended : Session :=
  ([.array (.new 0 1), .array (.insert ⟨0, 0⟩ 5 ⟨(7 : ℤ)⟩), .array (.append ⟨0, 0⟩ ⟨(8 : ℤ)⟩)].map
    (Op.toCall .suspending)).foldl Session.after ⟨World.usual .suspending, []⟩

end Squirrels
