import Squirrels.Binding.Class
import Squirrels.Binding.TableContract

/-!
# Contracts of classes and instances

The operations of `Class` are balanced, and so are those of `Instance` but one: when
`Instance::raw_set` fails, `sq_rawset` has left the key and the value of a missing member on the
stack, and the operation pops one slot.
-/

namespace Squirrels

open Machines

namespace Handle.Class

variable {env : Env} {G H N : Prop} {w₀ : World} {st : List SQObject} {κ ν α : Type} [Owns κ]
  [Owns ν] [Owns α] {self : Class}

theorem new_balanced {sq : VmId} (fits : H → Fits (w₀ sq) st.length 2) :
    Balanced env G H N w₀ sq st [] (new env sq) := by
  refine .of_at fun L => ?_
  refine Triple.bind (At.exits (Api.sqNewclass_exits fun h => ?_)) fun ret =>
    Triple.exists_pre fun r => Triple.of_pre fun done => ?_
  · exact ((fits h).space [] (by simp)).free
  refine Triple.bind (At.ensure fun h => done h) fun _ => Triple.of_pre fun _ => ?_
  exact takePushed_at (decodes_handle .cls) fits fun _ => ⟨r, rfl⟩

theorem withBase_balanced (base : Class) (fits : H → Fits (w₀ base.sq) st.length 2) :
    Balanced env G H N w₀ base.sq st [] (withBase env base) := by
  refine .of_at fun L => ?_
  refine Triple.bind (pushObject_at rfl fun h => (fits h).space [] (by simp)) fun _ => ?_
  refine Triple.bind (At.exits (Api.sqNewclass_base_exits (fun h => ?_) base.ref)) fun ret =>
    Triple.exists_pre fun r => Triple.of_pre fun done => ?_
  · exact ((fits h).space [] (by simp)).free
  refine Triple.bind (At.ensure fun h => done h) fun _ => Triple.of_pre fun ok => ?_
  subst ok
  exact takePushed_at (decodes_handle .cls) fits fun _ => ⟨r, rfl⟩

theorem base_balanced (fits : H → Fits (w₀ self.sq) st.length 3) :
    Balanced env G H N w₀ self.sq st [] (base env self) := .of_at fun _ =>
  makeWith_at (decodes_optionHandle .cls) fits
    (Api.sqGetbase_exits (fun h => ((fits h).space [self.obj] (by simp)).free) self.ref)

theorem rawInstantiate_balanced (fits : H → Fits (w₀ self.sq) st.length 3) :
    Balanced env G H N w₀ self.sq st [] (rawInstantiate env self) := by
  refine .of_at fun L => ?_
  refine makeWith_at (decodes_handle .inst) fits fun refs => ?_
  refine Triple.post (Api.sqCreateinstance_exits (fun h => ?_) self.ref refs)
    fun res s ⟨i, done, on⟩ => ⟨.ref .inst i, fun h => ⟨done h, i, rfl⟩, ?_⟩
  · exact ((fits h).space [self.obj] (by simp)).free
  cases res <;> exact on

/-- The stack is cut to where it was on every failure. -/
theorem memberWith_balanced [IntoSquirrel κ] [LawfulInto κ] [IntoSquirrel ν] [LawfulInto ν]
    [IntoSquirrel α] [LawfulInto α] (raw : Bool) (key : κ) (value : ν) (attr : α)
    (isStatic : Bool) (here : N → Local self.sq (key, value, attr))
    (fits : H → Fits (w₀ self.sq) st.length 4) :
    Balanced env G H N w₀ self.sq st (Owns.handles (key, value, attr))
      (memberWith env self (fun idx bstatic => Api.newMember env idx bstatic raw) key value attr
        isStatic) := by
  intro L
  have apart : Owns.handles (key, value, attr) ++ L =
      Owns.handles key ++ (Owns.handles (value, attr) ++ L) := List.append_assoc _ _ _
  have apart' : Owns.handles (value, attr) ++ L =
      Owns.handles value ++ (Owns.handles attr ++ L) := List.append_assoc _ _ _
  rw [apart]
  refine Triple.bind stackDepth_at fun prevTop => Triple.of_pre fun former => ?_
  refine Triple.bind (pushObject_at rfl fun h => (fits h).space [] (by simp)) fun _ => ?_
  refine Triple.bind (unwindValue_at (LawfulInto.push key
    (fun h => (fits h).space [self.obj] (by simp)) fun _ n => (here n).fst)) fun _ =>
      Triple.exists_pre fun k => Triple.of_pre fun _ => ?_
  rw [apart']
  refine Triple.bind (unwindValue_at (LawfulInto.push value
    (fun h => (fits h).space [k, self.obj] (by simp)) fun _ n => (here n).snd.fst)) fun _ =>
      Triple.exists_pre fun v => Triple.of_pre fun _ => ?_
  refine Triple.bind (LawfulInto.push attr (fun h => (fits h).space [v, k, self.obj] (by simp))
    fun _ n => (here n).snd.snd) fun _ => Triple.exists_pre fun a => Triple.of_pre fun _ => ?_
  refine Triple.bind (At.leaves (Api.newMember_leaves isStatic raw _ _ _ self.ref
    fun h => (fits h).base.trans (Nat.le_add_right _ 4))) fun ret => Triple.exists_pre fun above =>
      Triple.of_pre fun _ => Later.pre fun H' less => ?_
  have fits' : H' → Fits (w₀ self.sq) st.length 4 := fun h => fits (less h)
  cases ret with
  | ok =>
    refine Triple.bind (pop_at 1 one_pos fun h => ?_) fun _ =>
      Triple.pure fun _ at_ => ⟨H', less, at_⟩
    have := (fits' h).base
    simp
    omega
  | error =>
    refine Triple.bind (resizeStack_at above (fun h => former (less h)) fun h => (fits' h).base)
      fun _ => ?_
    exact Triple.bind (getRuntimeError_at fun h => (fits' h).space [] (by simp)) fun e =>
      Triple.pure fun _ at_ => ⟨H', less, at_⟩

theorem newSlot_balanced [IntoSquirrel κ] [LawfulInto κ] [IntoSquirrel ν] [LawfulInto ν] (key : κ)
    (value : ν) (isStatic : Bool) (here : N → Local self.sq (key, value))
    (fits : H → Fits (w₀ self.sq) st.length 3) :
    Balanced env G H N w₀ self.sq st (Owns.handles (key, value))
      (newSlot env self key value isStatic) :=
  setWith_balanced key value fits here
    (writes_newslot (fun h => (fits h).base) isStatic (.inr rfl))

theorem get_balanced [IntoSquirrel κ] [LawfulInto κ] [FromSquirrel ν] [LawfulFrom ν] (key : κ)
    (here : N → Local self.sq key) (fits : H → Fits (w₀ self.sq) st.length 3) :
    Balanced env G H N w₀ self.sq st (Owns.handles key)
      (get env self key : Act World (Except CallError ν)) :=
  getWith_balanced key fits here (reads_get fun h => (fits h).base)

theorem rawGet_balanced [IntoSquirrel κ] [LawfulInto κ] [FromSquirrel ν] [LawfulFrom ν] (key : κ)
    (here : N → Local self.sq key) (fits : H → Fits (w₀ self.sq) st.length 3) :
    Balanced env G H N w₀ self.sq st (Owns.handles key)
      (rawGet env self key : Act World (Except CallError ν)) :=
  getWith_balanced key fits here reads_rawget

theorem rawSet_balanced [IntoSquirrel κ] [LawfulInto κ] [IntoSquirrel ν] [LawfulInto ν] (key : κ)
    (value : ν) (here : N → Local self.sq (key, value))
    (fits : H → Fits (w₀ self.sq) st.length 3) :
    Balanced env G H N w₀ self.sq st (Owns.handles (key, value)) (rawSet env self key value) :=
  setWith_balanced key value fits here (writes_rawset (.inr rfl))

theorem memberHandle_balanced (name : StringHandle) (here : N → Local self.sq name)
    (fits : H → Fits (w₀ self.sq) st.length 2) :
    Balanced env G H N w₀ self.sq st (Owns.handles name) (memberHandle env self name) := by
  refine .of_at fun L => ?_
  refine Triple.bind (pushObject_at rfl fun h => (fits h).space [] (by simp)) fun _ => ?_
  refine Triple.bind (LawfulInto.push name (fun h => (fits h).space [self.obj] (by simp))
    fun _ => here) fun _ => Triple.exists_pre fun k => Triple.of_pre fun _ => ?_
  refine Triple.bind (At.exits (Api.sqGetmemberhandle_exits (-2) _)) fun ret =>
    Triple.exists_pre fun _ => Triple.of_pre fun _ => ?_
  cases ret with
  | none =>
    exact Triple.bind (afterPop_at 2 [k, self.obj] (fun _ => rfl)
      fun h => (fits h).space [] (by simp)) fun e => Triple.pure fun _ at_ => at_
  | some ptr =>
    refine Triple.bind (pop_at 1 one_pos fun h => ?_) fun _ => ?_
    · have := (fits h).base
      simp
      omega
    exact Triple.bind (cloneHandle_at self) fun cls => Triple.of_pre fun eq =>
      Triple.pure fun _ at_ => eq ▸ at_

theorem setInstanceUserDataSize_balanced {size : ℤ} (positive : N → 0 ≤ size)
    (fits : H → Fits (w₀ self.sq) st.length 1) :
    Balanced env G H N w₀ self.sq st [] (setInstanceUserDataSize env self size) := by
  refine .of_at fun L => ?_
  refine Triple.bind (At.check (by simp [typeAssertions]) fun _ => positive) fun _ =>
    Triple.of_pre fun _ => ?_
  exact actWith_at fits (Api.sqSetclassudsize_exits (-1) size)

end Handle.Class

namespace Handle.Instance

variable {env : Env} {G H N : Prop} {w₀ : World} {st : List SQObject} {κ ν : Type} [Owns κ]
  [Owns ν] {self : Instance}

theorem cls_balanced (fits : H → Fits (w₀ self.sq) st.length 3) :
    Balanced env G H N w₀ self.sq st [] (cls env self) := by
  refine .of_at fun L => ?_
  refine Triple.bind (pushObject_at rfl fun h => (fits h).space [] (by simp)) fun _ => ?_
  refine Triple.bind (At.exits (Api.sqGetclass_exits (fun h => ?_) self.ref)) fun ret =>
    Triple.exists_pre fun c => Triple.of_pre fun done => ?_
  · exact ((fits h).space [self.obj] (by simp)).free
  refine Triple.bind (At.ensure fun h => done h) fun _ => Triple.of_pre fun ok => ?_
  subst ok
  exact expectPushed_at (decodes_handle .cls) [self.obj] rfl fits fun _ => ⟨c, rfl⟩

theorem instanceOf_balanced (cls : Class) (same : N → self.sq = cls.sq)
    (fits : H → Fits (w₀ self.sq) st.length 2) :
    Balanced env G H N w₀ self.sq st [] (instanceOf self cls) := by
  refine .of_at fun L => ?_
  refine Triple.bind (At.check (by simp [typeAssertions]) fun _ => same) fun _ =>
    Triple.of_pre fun eq => ?_
  refine Triple.bind (pushObject_at (o := cls.object) eq.symm
    fun h => (fits h).space [] (by simp)) fun _ => ?_
  refine Triple.bind (pushObject_at rfl fun h => (fits h).space [cls.obj] (by simp)) fun _ => ?_
  refine Triple.bind (At.exits (Api.sqInstanceof_exits self.ref cls.ref)) fun res =>
    Triple.exists_pre fun _ => Triple.of_pre fun done => ?_
  cases res with
  | none => exact At.panic fun h => by simpa using done h
  | some b =>
    refine Triple.bind (pop_at 2 (by omega) fun h => ?_) fun _ => Triple.pure fun _ at_ => at_
    have := (fits h).base
    simp
    omega

theorem get_balanced [IntoSquirrel κ] [LawfulInto κ] [FromSquirrel ν] [LawfulFrom ν] (key : κ)
    (here : N → Local self.sq key) (fits : H → Fits (w₀ self.sq) st.length 3) :
    Balanced env G H N w₀ self.sq st (Owns.handles key)
      (get env self key : Act World (Except CallError ν)) :=
  getWith_balanced key fits here (reads_get fun h => (fits h).base)

theorem set_balanced [IntoSquirrel κ] [LawfulInto κ] [IntoSquirrel ν] [LawfulInto ν] (key : κ)
    (value : ν) (here : N → Local self.sq (key, value))
    (fits : H → Fits (w₀ self.sq) st.length 3) :
    Balanced env G H N w₀ self.sq st (Owns.handles (key, value)) (set env self key value) :=
  setWith_balanced key value fits here (writes_set fun h => (fits h).base)

theorem rawGet_balanced [IntoSquirrel κ] [LawfulInto κ] [FromSquirrel ν] [LawfulFrom ν] (key : κ)
    (here : N → Local self.sq key) (fits : H → Fits (w₀ self.sq) st.length 3) :
    Balanced env G H N w₀ self.sq st (Owns.handles key)
      (rawGet env self key : Act World (Except CallError ν)) :=
  getWith_balanced key fits here reads_rawget

/-- A member that does not exist leaves its key and its value behind. -/
theorem rawSet_accounted [IntoSquirrel κ] [LawfulInto κ] [IntoSquirrel ν] [LawfulInto ν] (key : κ)
    (value : ν) (fits : H → Fits (w₀ self.sq) st.length 3) :
    Accounted env G H w₀ self.sq st (Owns.handles (key, value)) (rawSet env self key value) := by
  intro L
  have apart : Owns.handles (key, value) ++ L = Owns.handles key ++ (Owns.handles value ++ L) :=
    List.append_assoc _ _ _
  rw [apart]
  refine Triple.bind (pushObject_at rfl fun h => (fits h).space [] (by simp)) fun _ => ?_
  refine Triple.bind (unwindValue_at (LawfulInto.push key
    (fun h => (fits h).space [self.obj] (by simp)) fun _ => False.elim)) fun _ =>
      Triple.exists_pre fun k => Triple.of_pre fun _ => ?_
  refine Triple.bind (LawfulInto.push value (fun h => (fits h).space [k, self.obj] (by simp))
    fun _ => False.elim) fun _ => Triple.exists_pre fun v => Triple.of_pre fun _ => ?_
  refine Triple.bind (At.exits (Api.sqRawset_exits _ _ self.obj)) fun ret =>
    Triple.exists_pre fun left => Triple.of_pre fun _ => ?_
  refine Triple.bind (toRuntimeError_any (H := H) ret 1 one_pos _ fun h => ?_) fun e => ?_
  · have := (fits h).free
    split <;> simp <;> omega
  cases e with
  | error e =>
    refine Triple.pure ?_
    rintro _ ⟨stack, at_⟩
    exact ⟨stack, at_.later⟩
  | ok _ =>
    refine Triple.of_pre fun _ => Triple.bind (pop_at 1 one_pos fun h => ?_) fun _ =>
      Triple.pure fun _ at_ => ⟨st, at_.later⟩
    have := (fits h).base
    simp
    omega

end Handle.Instance

end Squirrels
