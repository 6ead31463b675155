import Squirrels.Binding.Array
import Squirrels.Binding.TableContract

/-!
# Contracts of arrays

The operations of `Array` are balanced but one: `sq_arrayinsert` removes the value on both of its
exits, and `Array::insert` pops it again when the index is out of range.
-/

namespace Squirrels

open Machines

namespace Handle.Array

variable {env : Env} {G H N : Prop} {w₀ : World} {st : List SQObject} {ν : Type} [Owns ν]
  {self : ArrayHandle}

theorem new_balanced {sq : VmId} {size : ℤ} (positive : N → 0 ≤ size)
    (fits : H → Fits (w₀ sq) st.length 2) :
    Balanced env G H N w₀ sq st [] (new env sq size) := by
  refine .of_at fun L => ?_
  refine Triple.bind (At.check (by simp [typeAssertions]) fun _ => positive) fun _ =>
    Triple.of_pre fun _ => ?_
  refine Triple.bind (At.exits (Api.sqNewarray_exits (fun h => ?_) size)) fun _ =>
    Triple.exists_pre fun r => Triple.of_pre fun _ => ?_
  · exact ((fits h).space [] (by simp)).free
  exact expectPushed_at (decodes_handle .array) [] rfl fits fun _ => ⟨r, rfl⟩

theorem get_balanced [FromSquirrel ν] [LawfulFrom ν] (idx : ℤ)
    (fits : H → Fits (w₀ self.sq) st.length 3) :
    Balanced env G H N w₀ self.sq st [] (get env self idx : Act World (Except CallError ν)) :=
  getWith_balanced idx fits (fun _ _ mem => by simp [Owns.handles] at mem)
    fun _ shown => (Api.sqGet_array_exits idx self.ref shown).leaves

theorem set_balanced [IntoSquirrel ν] [LawfulInto ν] (idx : ℤ) (value : ν)
    (here : N → Local self.sq value) (fits : H → Fits (w₀ self.sq) st.length 3) :
    Balanced env G H N w₀ self.sq st (Owns.handles value) (set env self idx value) := by
  refine setWith_balanced idx value fits here fun val key shown refs => ?_
  refine Triple.post (Api.sqSet_array_exits val idx self.ref shown refs) fun res s ⟨_, _, on⟩ =>
    ⟨[val, key, self.obj], fun _ => rfl, ?_⟩
  cases res <;> exact on.still

theorem append_balanced [IntoSquirrel ν] [LawfulInto ν] (value : ν)
    (here : N → Local self.sq value) (fits : H → Fits (w₀ self.sq) st.length 2) :
    Balanced env G H N w₀ self.sq st (Owns.handles value) (append env self value) := by
  refine .of_at fun L => ?_
  refine Triple.bind (pushObject_at rfl fun h => (fits h).space [] (by simp)) fun _ => ?_
  refine Triple.bind (LawfulInto.push value (fun h => (fits h).space [self.obj] (by simp))
    fun _ => here) fun _ => Triple.exists_pre fun v => Triple.of_pre fun _ => ?_
  refine Triple.bind (At.exits (Api.sqArrayappend_exits _ self.ref fun h => (fits h).base))
    fun ret => Triple.exists_pre fun _ => Triple.of_pre fun done => ?_
  refine Triple.bind (At.ensure fun h => done h) fun _ => Triple.of_pre fun _ => ?_
  refine Triple.post (pop_at 1 one_pos fun h => ?_) fun _ _ at_ => at_
  have := (fits h).base
  simp
  omega

theorem pop_balanced [FromSquirrel ν] [LawfulFrom ν] (fits : H → Fits (w₀ self.sq) st.length 3) :
    Balanced env G H N w₀ self.sq st [] (pop env self : Act World (Except CallError ν)) := by
  refine .of_at fun L => ?_
  refine Triple.bind (pushObject_at rfl fun h => (fits h).space [] (by simp)) fun _ => ?_
  refine Triple.bind (At.exits (Api.sqArraypop_exits self.ref (fun h => (fits h).base)
    fun h => ((fits h).space [self.obj] (by simp)).free)) fun ret => Triple.exists_pre fun v =>
      Triple.of_pre fun _ => ?_
  refine Triple.bind (toRuntimeError_at ret 1 [self.obj] (fun _ => rfl)
    fun h => (fits h).space [] (by simp)) fun e => ?_
  cases e with
  | error e => exact Triple.pure fun _ at_ => at_
  | ok _ =>
    refine Triple.of_pre fun _ => Triple.bind (takeTop_at [self.obj] rfl fits) fun r =>
      Triple.pure fun _ at_ => ?_
    cases r <;> exact at_

/-- An index out of range removes a slot that belongs to the caller. -/
theorem insert_accounted [IntoSquirrel ν] [LawfulInto ν] (idx : ℤ) (value : ν)
    (fits : H → Fits (w₀ self.sq) st.length 2) :
    Accounted env G H w₀ self.sq st (Owns.handles value) (insert env self idx value) := by
  intro L
  refine Triple.bind (pushObject_at rfl fun h => (fits h).space [] (by simp)) fun _ => ?_
  refine Triple.bind (LawfulInto.push value (fun h => (fits h).space [self.obj] (by simp))
    fun _ => False.elim) fun _ => Triple.exists_pre fun v => Triple.of_pre fun _ => ?_
  refine Triple.bind (At.exits (Api.sqArrayinsert_exits _ self.ref idx fun h => (fits h).base))
    fun ret => Triple.exists_pre fun _ => Triple.of_pre fun _ => ?_
  refine Triple.bind (Triple.pre (toRuntimeError_any (H := H) ret 2 (by omega) (k := self.obj :: st)
    (self.obj :: st) fun h => ?_) fun _ at_ => ?_) fun e => ?_
  · have := (fits h).free
    simp
    omega
  · cases ret <;> exact at_
  cases e with
  | error e => exact Triple.pure fun _ ⟨stack, at_⟩ => ⟨stack, at_.later⟩
  | ok _ =>
    refine Triple.of_pre fun _ => Triple.bind (pop_at 1 one_pos fun h => ?_) fun _ =>
      Triple.pure fun _ at_ => ⟨st, at_.later⟩
    have := (fits h).base
    simp
    omega

theorem remove_balanced (idx : ℤ) (fits : H → Fits (w₀ self.sq) st.length 1) :
    Balanced env G H N w₀ self.sq st [] (remove env self idx) := .of_at fun _ =>
  actWith_at fits (Api.sqArrayremove_exits self.ref idx fun h => (fits h).base)

theorem reverse_balanced (fits : H → Fits (w₀ self.sq) st.length 1) :
    Balanced env G H N w₀ self.sq st [] (reverse env self) := .of_at fun _ =>
  doWith_at fits (Api.sqArrayreverse_exits self.ref fun h => (fits h).base)

theorem clear_balanced (fits : H → Fits (w₀ self.sq) st.length 1) :
    Balanced env G H N w₀ self.sq st [] (clear env self) := .of_at fun _ =>
  doWith_at fits (Api.sqClear_exits _ (.inr rfl))

theorem resize_balanced (newSize : ℤ) (fits : H → Fits (w₀ self.sq) st.length 1) :
    Balanced env G H N w₀ self.sq st [] (resize env self newSize) := .of_at fun _ =>
  actWith_at fits (Api.sqArrayresize_exits self.ref newSize fun h => (fits h).base)

theorem cloneValue_balanced (fits : H → Fits (w₀ self.sq) st.length 3) :
    Balanced env G H N w₀ self.sq st [] (cloneValue env self) := .of_at fun _ =>
  makeWith_at (decodes_handle .array) fits
    (Api.sqClone_array_exits self.ref fun h => ((fits h).space [self.obj] (by simp)).free)

theorem iter_balanced (fits : H → Fits (w₀ self.sq) st.length 1) :
    Balanced env G H N w₀ self.sq st [] (iter self) := by
  refine .of_at fun L => ?_
  refine Triple.bind (cloneHandle_at self) fun array => Triple.of_pre fun eq => ?_
  subst eq
  refine Triple.bind (unwindValue_at (len_at fits)) fun len => Triple.pure fun _ at_ => at_

theorem intoIter_balanced (fits : H → Fits (w₀ self.sq) st.length 1) :
    Balanced env G H N w₀ self.sq st (Owns.handles self) (intoIter self) := .of_at fun _ =>
  Triple.bind (unwindValue_at (len_at fits)) fun _ => Triple.pure fun _ at_ => at_

/-- The iterator is borrowed: its handle stays with the caller. -/
theorem Items.next_at [FromSquirrel ν] [LawfulFrom ν] (items : Items) {L : List Object}
    (fits : H → Fits (w₀ items.array.sq) st.length 3) :
    Triple (At env G H w₀ items.array.sq st L) (items.next env)
      (fun (r : Option (Except CallError ν) × Items) =>
        Later env G H w₀ items.array.sq st (Owns.handles r.1 ++ L))
      (Failed env G N w₀ items.array.sq L) := by
  unfold Items.next
  split
  · exact Triple.pure fun _ at_ => at_.later
  · refine Triple.bind (get_balanced items.idx fits L) fun r => ?_
    cases r with
    | ok v => exact Triple.pure fun _ at_ => at_
    | error e => exact Triple.pure fun _ at_ => at_

end Handle.Array

end Squirrels
