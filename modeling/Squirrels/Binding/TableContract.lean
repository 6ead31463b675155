import Squirrels.Binding.SlotsContract
import Squirrels.Binding.Table

/-!
# Contracts of tables

Every operation of `Table` is balanced: each C function leaves on each of its exits the number of
slots that the operation pops, or the operation restores the top it started from.
-/

namespace Squirrels

open Machines

section Exits

variable {env : Env} {G H : Prop} {s₀ : SQVM} {st : List SQObject} {self : SQObject}
  {shown : SQObject → Prop}

theorem reads_get (base : H → s₀.stackbase ≤ st.length) :
    Reads env G H s₀ shown self st (Api.sqGet env (-2)) := fun key _ =>
  Api.sqGet_leaves (-2) key fun h => (base h).trans (Nat.le_add_right _ 2)

theorem reads_rawget : Reads env G H s₀ shown self st (Api.sqRawget env (-2)) := fun key _ =>
  (Api.sqRawget_exits (-2) key).leaves

theorem writes_set (base : H → s₀.stackbase ≤ st.length) :
    Writes env G H s₀ shown self st (Api.sqSet env (-3)) 3 := by
  intro val key _ refs
  refine Triple.post (Api.sqSet_leaves (-3) val key (fun h =>
    (base h).trans (Nat.le_add_right _ 3)) refs) fun res s ⟨_, _, on⟩ =>
      ⟨[val, key, self], fun _ => rfl, ?_⟩
  cases res <;> exact on

theorem writes_newslot (base : H → s₀.stackbase ≤ st.length) (bstatic : Bool)
    (typed : self.type = .ref .table ∨ self.type = .ref .cls) :
    Writes env G H s₀ shown self st (Api.sqNewslot env (-3) bstatic) 3 := by
  intro val key _ refs
  refine Triple.post (Api.sqNewslot_leaves bstatic val key self typed base refs)
      fun res s ⟨_, _, on⟩ => ⟨[val, key, self], fun _ => rfl, ?_⟩
  cases res <;> exact on

/-- On a table or a class the key and the value are removed on both exits. -/
theorem writes_rawset (typed : self.type = .ref .table ∨ self.type = .ref .cls) :
    Writes env G H s₀ shown self st (Api.sqRawset env (-3)) 1 := by
  intro val key _ refs
  refine Triple.post (Api.sqRawset_exits val key self refs) fun res s ⟨left, fact, on⟩ =>
    ⟨[self], fun _ => rfl, ?_⟩
  cases res with
  | ok => exact on.still
  | error =>
    by_cases h : H
    · have gone : left = false := fact h typed
      simpa [gone] using on.still
    · exact (on.any h _).still

end Exits

namespace Handle.Table

variable {env : Env} {G H N : Prop} {w₀ : World} {st : List SQObject} {κ ν : Type} [Owns κ] [Owns ν]
  {self : Table}

theorem new_balanced {sq : VmId} (fits : H → Fits (w₀ sq) st.length 2) :
    Balanced env G H N w₀ sq st [] (new env sq) := by
  refine .of_at fun L => ?_
  refine Triple.bind (At.exits (Api.sqNewtableex_exits (fun h => ?_) 0)) fun _ =>
    Triple.exists_pre fun r => Triple.of_pre fun _ => ?_
  · exact ((fits h).space [] (by simp)).free
  exact expectPushed_at (decodes_handle .table) [] rfl fits fun _ => ⟨r, rfl⟩

theorem withCapacity_balanced {sq : VmId} {slots : ℤ} (positive : N → 0 ≤ slots)
    (fits : H → Fits (w₀ sq) st.length 2) :
    Balanced env G H N w₀ sq st [] (withCapacity env sq slots) := by
  refine .of_at fun L => ?_
  refine Triple.bind (At.check (by simp [typeAssertions]) fun _ => positive) fun _ =>
    Triple.of_pre fun _ => ?_
  refine Triple.bind (At.exits (Api.sqNewtableex_exits (fun h => ?_) slots)) fun _ =>
    Triple.exists_pre fun r => Triple.of_pre fun _ => ?_
  · exact ((fits h).space [] (by simp)).free
  exact expectPushed_at (decodes_handle .table) [] rfl fits fun _ => ⟨r, rfl⟩

theorem get_balanced [IntoSquirrel κ] [LawfulInto κ] [FromSquirrel ν] [LawfulFrom ν] (key : κ)
    (here : N → Local self.sq key) (fits : H → Fits (w₀ self.sq) st.length 3) :
    Balanced env G H N w₀ self.sq st (Owns.handles key)
      (get env self key : Act World (Except CallError ν)) :=
  getWith_balanced key fits here (reads_get fun h => (fits h).base)

theorem rawGet_balanced [IntoSquirrel κ] [LawfulInto κ] [FromSquirrel ν] [LawfulFrom ν] (key : κ)
    (here : N → Local self.sq key) (fits : H → Fits (w₀ self.sq) st.length 3) :
    Balanced env G H N w₀ self.sq st (Owns.handles key)
      (rawGet env self key : Act World (Except CallError ν)) :=
  getWith_balanced key fits here reads_rawget

theorem set_balanced [IntoSquirrel κ] [LawfulInto κ] [IntoSquirrel ν] [LawfulInto ν] (key : κ)
    (value : ν) (here : N → Local self.sq (key, value))
    (fits : H → Fits (w₀ self.sq) st.length 3) :
    Balanced env G H N w₀ self.sq st (Owns.handles (key, value)) (set env self key value) :=
  setWith_balanced key value fits here (writes_newslot (fun h => (fits h).base) false (.inl rfl))

theorem assign_balanced [IntoSquirrel κ] [LawfulInto κ] [IntoSquirrel ν] [LawfulInto ν] (key : κ)
    (value : ν) (here : N → Local self.sq (key, value))
    (fits : H → Fits (w₀ self.sq) st.length 3) :
    Balanced env G H N w₀ self.sq st (Owns.handles (key, value)) (assign env self key value) :=
  setWith_balanced key value fits here (writes_set fun h => (fits h).base)

theorem rawSet_balanced [IntoSquirrel κ] [LawfulInto κ] [IntoSquirrel ν] [LawfulInto ν] (key : κ)
    (value : ν) (here : N → Local self.sq (key, value))
    (fits : H → Fits (w₀ self.sq) st.length 3) :
    Balanced env G H N w₀ self.sq st (Owns.handles (key, value)) (rawSet env self key value) :=
  setWith_balanced key value fits here (writes_rawset (.inl rfl))

theorem delete_balanced [IntoSquirrel κ] [LawfulInto κ] [FromSquirrel ν] [LawfulFrom ν] (key : κ)
    (here : N → Local self.sq key) (fits : H → Fits (w₀ self.sq) st.length 3) :
    Balanced env G H N w₀ self.sq st (Owns.handles key)
      (delete env self key : Act World (Except CallError ν)) := by
  intro L
  refine Triple.bind stackDepth_at fun prevTop => Triple.of_pre fun former => ?_
  refine Triple.bind (pushObject_at rfl fun h => (fits h).space [] (by simp)) fun _ => ?_
  refine Triple.bind (LawfulInto.push key (fun h => (fits h).space [self.obj] (by simp))
    fun _ => here) fun _ => Triple.exists_pre fun k => Triple.of_pre fun _ => ?_
  refine Triple.bind (At.leaves (Api.sqDeleteslot_leaves (-2) _ self.obj fun h => (fits h).base))
    fun ret => Triple.exists_pre fun x => Triple.of_pre fun _ => Later.pre fun H' less => ?_
  have fits' : H' → Fits (w₀ self.sq) st.length 3 := fun h => fits (less h)
  cases ret with
  | ok =>
    refine Triple.bind (takeTop_at [self.obj] rfl fits') fun r => Triple.pure fun _ at_ => ?_
    cases r <;> exact ⟨H', less, at_⟩
  | error =>
    refine Triple.bind (resizeStack_at x.2 (fun h => former (less h)) fun h => (fits' h).base)
      fun _ => ?_
    exact Triple.bind (getRuntimeError_at fun h => (fits' h).space [] (by simp)) fun e =>
      Triple.pure fun _ at_ => ⟨H', less, at_⟩

theorem clear_balanced (fits : H → Fits (w₀ self.sq) st.length 1) :
    Balanced env G H N w₀ self.sq st [] (clear env self) := .of_at fun _ =>
  doWith_at fits (Api.sqClear_exits _ (.inl rfl))

theorem rawDelete_balanced [IntoSquirrel κ] [LawfulInto κ] [FromSquirrel ν] [LawfulFrom ν]
    (key : κ) (here : N → Local self.sq key) (fits : H → Fits (w₀ self.sq) st.length 3) :
    Balanced env G H N w₀ self.sq st (Owns.handles key)
      (rawDelete env self key : Act World (Except Error (Option ν))) := by
  refine .of_at fun L => ?_
  refine Triple.bind (pushObject_at rfl fun h => (fits h).space [] (by simp)) fun _ => ?_
  refine Triple.bind (LawfulInto.push key (fun h => (fits h).space [self.obj] (by simp))
    fun _ => here) fun _ => Triple.exists_pre fun k => Triple.of_pre fun _ => ?_
  refine Triple.bind (At.exits (Api.sqRawdeleteslot_exits _ self.ref fun h => (fits h).base))
    fun ret => Triple.exists_pre fun v => Triple.of_pre fun done => ?_
  refine Triple.bind (At.ensure fun h => done h) fun _ => Triple.of_pre fun _ => ?_
  exact takeTop_at [self.obj] rfl fits

theorem containsKey_balanced [IntoSquirrel κ] [LawfulInto κ] (key : κ)
    (here : N → Local self.sq key) (fits : H → Fits (w₀ self.sq) st.length 2) :
    Balanced env G H N w₀ self.sq st (Owns.handles key) (containsKey env self key) := by
  refine .of_at fun L => ?_
  refine Triple.bind (pushObject_at rfl fun h => (fits h).space [] (by simp)) fun _ => ?_
  refine Triple.bind (LawfulInto.push key (fun h => (fits h).space [self.obj] (by simp))
    fun _ => here) fun _ => Triple.exists_pre fun k => Triple.of_pre fun _ => ?_
  refine Triple.bind (At.exits (Api.sqRawget_exits (-2) k)) fun ret => Triple.exists_pre fun v =>
    Triple.of_pre fun _ => ?_
  cases ret with
  | ok =>
    refine Triple.bind (pop_at 2 (by omega) fun h => ?_) fun _ => Triple.pure fun _ at_ => at_
    have := (fits h).base
    simp
    omega
  | error =>
    refine Triple.bind (pop_at 1 one_pos fun h => ?_) fun _ => Triple.pure fun _ at_ => at_
    have := (fits h).base
    simp
    omega

/-- A delegate of another machine would be pushed on the stack of that machine. -/
theorem setDelegate_balanced (delegate : Option Table)
    (same : ∀ d ∈ delegate, d.sq = self.sq) (fits : H → Fits (w₀ self.sq) st.length 2) :
    Balanced env G H N w₀ self.sq st [] (setDelegate env self delegate) := by
  refine .of_at fun L => ?_
  have pushed : Triple (At env G H w₀ self.sq (self.obj :: st) L) (pushDelegate self delegate)
      (fun _ w => ∃ mt, At env G H w₀ self.sq (mt :: self.obj :: st) L w)
      (Failed env G N w₀ self.sq L) := by
    have space : H → Space (w₀ self.sq) (self.obj :: st) := fun h =>
      (fits h).space [self.obj] (by simp)
    cases delegate with
    | none => exact Triple.post (push_at .null space) fun _ _ at_ => ⟨_, at_⟩
    | some d =>
      exact Triple.post (pushObject_at (o := d.object) (same d rfl) space) fun _ _ at_ => ⟨_, at_⟩
  refine Triple.bind (pushObject_at rfl fun h => (fits h).space [] (by simp)) fun _ => ?_
  refine Triple.bind pushed fun _ => Triple.exists_pre fun mt => ?_
  refine Triple.bind (At.exits (Api.sqSetdelegate_exits (-2) mt)) fun ret =>
    Triple.exists_pre fun _ => Triple.of_pre fun _ => ?_
  refine Triple.bind (toRuntimeError_at ret 2 [mt, self.obj] (fun _ => rfl)
    fun h => (fits h).space [] (by simp)) fun e => ?_
  cases e with
  | error e => exact Triple.pure fun _ at_ => at_
  | ok _ =>
    refine Triple.of_pre fun _ => Triple.bind (pop_at 1 one_pos fun h => ?_) fun _ =>
      Triple.pure fun _ at_ => at_
    have := (fits h).base
    simp
    omega

theorem getDelegate_balanced (fits : H → Fits (w₀ self.sq) st.length 3) :
    Balanced env G H N w₀ self.sq st [] (getDelegate env self) := .of_at fun _ =>
  makeWith_at (decodes_optionHandle .table) fits
    (Api.sqGetdelegate_exits (fun h => ((fits h).space [self.obj] (by simp)).free) self.ref)

theorem cloneValue_balanced (fits : H → Fits (w₀ self.sq) st.length 3) :
    Balanced env G H N w₀ self.sq st [] (cloneValue env self) := by
  intro L
  refine Triple.bind (pushObject_at rfl fun h => (fits h).space [] (by simp)) fun _ => ?_
  refine Triple.bind (At.leaves (Api.sqClone_leaves self.obj (fun h => (fits h).base)
    fun h => ((fits h).space [self.obj] (by simp)).free)) fun ret => Triple.exists_pre fun o =>
      Triple.of_pre fun typed => Later.pre fun H' less => ?_
  have fits' : H' → Fits (w₀ self.sq) st.length 3 := fun h => fits (less h)
  refine Triple.bind (toRuntimeError_at ret 1 [self.obj] (fun _ => rfl)
    fun h => (fits' h).space [] (by simp)) fun e => ?_
  cases e with
  | error e => exact Triple.pure fun _ at_ => ⟨H', less, at_⟩
  | ok _ =>
    refine Triple.of_pre fun _ => Triple.bind (takeTop_of (decodes_handle .table) [self.obj]
      rfl fits') fun r => Triple.of_pre fun read => ?_
    exact Triple.bind (expectOk_at fun h => read h (typed_ref (typed (less h)))) fun t =>
      Triple.pure fun _ at_ => ⟨H', less, at_⟩

/-! ## Iteration -/

/-- An iterator adds its table and its position to the stack. -/
theorem iter_at {L : List Object} (fits : H → Fits (w₀ self.sq) st.length 2) :
    Triple (At env G H w₀ self.sq st L) (iter self)
      (fun slots w => slots = ⟨self.sq⟩ ∧ At env G H w₀ self.sq (.null :: self.obj :: st) L w)
      (Failed env G N w₀ self.sq L) := by
  refine Triple.bind (pushObject_at rfl fun h => (fits h).space [] (by simp)) fun _ => ?_
  exact Triple.bind (push_at .null fun h => (fits h).space [self.obj] (by simp)) fun _ =>
    Triple.pure fun _ at_ => ⟨rfl, at_⟩

/-- A step takes the position on top of the stack to another one. -/
theorem Slots.next_at [FromSquirrel κ] [LawfulFrom κ] [FromSquirrel ν] [LawfulFrom ν]
    (slots : Slots) {L : List Object} {pos : SQObject} {r : ℕ}
    (valid : H → Api.ValidPosition pos) (fits : H → Fits (w₀ slots.sq) st.length 5) :
    Triple (At env G H w₀ slots.sq (pos :: .ref .table r :: st) L) (slots.next env)
      (fun (res : Option (Except Error (κ × ν))) w => ∃ pos', (H → Api.ValidPosition pos') ∧
        At env G H w₀ slots.sq (pos' :: .ref .table r :: st) (Owns.handles res ++ L) w)
      (Failed env G N w₀ slots.sq L) := by
  refine Triple.bind (At.exits (Api.sqNext_exits pos r valid fun h => ?_)) fun ret =>
    Triple.exists_pre fun x => Triple.of_pre fun moved => ?_
  · have := (fits h).free
    omega
  cases ret with
  | error => exact Triple.pure fun _ at_ => ⟨pos, valid, at_⟩
  | ok =>
    obtain ⟨next, k, v⟩ := x
    have next_valid : H → Api.ValidPosition (.integer next) := fun h => moved h rfl
    have space : H → Space (w₀ slots.sq) (v :: k :: .integer next :: .ref .table r :: st) :=
      fun h => (fits h).space [v, k, .integer next, .ref .table r] (by simp)
    have base : H → (w₀ slots.sq).stackbase ≤ st.length := fun h => (fits h).base
    refine Triple.bind (LawfulFrom.read space fun h => slot_second ?_) fun key => ?_
    · have := base h
      simp
      omega
    refine Triple.bind (unwindValue_at (LawfulFrom.read space fun h => slot_top ?_)) fun val => ?_
    · have := base h
      simp
      omega
    have paired : Owns.handles (key, val) = Owns.handles key ++ Owns.handles val := rfl
    refine Triple.bind (unwindValue_at (Triple.pre (pop_at 2 (by omega) fun h => ?_)
      fun _ at_ => at_.perm ?_)) fun _ => ?_
    · have := base h
      simp
      omega
    · rw [paired, ← List.append_assoc]
      exact List.Perm.append_right _ List.perm_append_comm
    cases key with
    | error e =>
      exact Triple.bind (dropValue_at val) fun _ => Triple.pure fun _ at_ =>
        ⟨.integer next, next_valid, at_⟩
    | ok key =>
      cases val with
      | error e =>
        refine Triple.bind (Triple.pre (dropValue_at key) fun _ at_ => ?_) fun _ =>
          Triple.pure fun _ at_ => ⟨.integer next, next_valid, at_⟩
        simpa [Owns.handles] using at_
      | ok val => exact Triple.pure fun _ at_ => ⟨.integer next, next_valid, at_⟩

/-- Dropping an iterator removes two slots, whichever they are. -/
theorem Slots.drop_accounted (slots : Slots) : Accounted env G H w₀ slots.sq st [] slots.drop :=
  fun _ => Triple.post (tryPop_at 2 (by omega) fun _ => False.elim)
    fun _ _ ⟨_, at_⟩ => ⟨_, at_.later⟩

end Handle.Table

end Squirrels
