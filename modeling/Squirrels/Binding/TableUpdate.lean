import Squirrels.Binding.SlotsExact
import Squirrels.Binding.Table
import Squirrels.Vm.TableExact

/-!
# Updating the slots of a table

`assign` and `raw_set` are documented to write slots that exist and to fail on all other keys, null
among them. The search of `SQTable::Set` does not tell null from the key of a free node, and
`sq_rawset` makes new slots, so each of them keeps to its documentation on some keys only.
-/

namespace Squirrels

open Machines Relation

/-- A machine that has just been opened, with a table on it. -/
def World.withTable (env : Env) (t : SQTable) : World :=
  Function.update (World.usual env) 0
    { (World.usual env) 0 with heap := (((World.usual env) 0).heap.newTable t).2 }

/-- The table of `World.withTable`. -/
def World.tableMade (env : Env) : Handle .table := ⟨0, ((World.usual env) 0).heap.tables.next⟩

namespace Handle.Table

/-- The slots of a table. -/
def slots (w : World) (self : Table) : SQTable := (w self.sq).heap.tables.read self.ref

/-- The slots of the table have become those of `t`, and nothing else of its machine has changed. -/
def Rewritten (w w' : World) (self : Table) (t : SQTable) : Prop :=
  w' self.sq = { (w self.sq).putTable self.ref t with
    refs := (w' self.sq).refs, overflowed := (w' self.sq).overflowed }

/-- The table has a slot for the key. -/
def HasSlot (w : World) (self : Table) (key : SQObject) : Prop :=
  key ≠ .null ∧ ∃ v, (slots w self).Holds key v

/-- What is documented of an operation that only updates: an existing slot gets the value, and there
is an error for every other key. -/
structure UpdatesOnly (w : World) (table : Table) (key val : SQObject)
    (op : Act World (Except CallError Unit)) : Prop where
  updates : HasSlot w table key → ∃ w' t, op.run w = (.ok (.ok ()), w') ∧
    Rewritten w w' table t ∧ (slots w table).SameShape t ∧ (slots w table).Put t key val ∧
    t.countUsed = (slots w table).countUsed
  refuses : ¬ HasSlot w table key → ∃ w' v, op.run w = (.ok (.error (.runtime v)), w') ∧
    slots w' table = slots w table

section Update

variable {env : Env} {w : World} {L : List Object} {self : Table} {κ ν : Type} [Owns κ]
  [IntoSquirrel κ] [ExactInto κ] [Owns ν] [IntoSquirrel ν] [ExactInto ν] {key : κ} {value : ν}
  {t : SQTable}

/-- A write that the C function makes. -/
theorem setWith_rewrites {write : ℤ → Act SQVM SQRESULT} {popped : ℤ}
    (owned : Owned (Owns.handles (key, value) ++ L) w)
    (based : (w self.sq).stackbase ≤ (w self.sq).top) (here : Local self.sq (key, value))
    (computes : Computes (write (-3)) ((((w self.sq).push self.obj).push
      (ExactInto.encode key)).push (ExactInto.encode value)) .ok
      (((w self.sq).putTable self.ref t).push self.obj)) :
    ∃ w', (self.setWith env write popped key value).run w = (.ok (.ok ()), w') ∧
      Rewritten w w' self t := by
  have yields : Yields w self.sq (w self.sq) _ (self.setWith env write popped key value) _ _ L :=
    setWith_yields based here computes rfl based
  obtain ⟨res, w', ran, rfl, after⟩ := yields.returns (Exactly.start owned self.sq)
  exact ⟨w', ran, after.machine⟩

/-- A write that the C function refuses. -/
theorem setWith_refuses {write : ℤ → Act SQVM SQRESULT} {n : ℕ} {s : SQVM}
    (owned : Owned (Owns.handles (key, value) ++ L) w)
    (based : (w self.sq).stackbase ≤ (w self.sq).top) (here : Local self.sq (key, value))
    (computes : Computes (write (-3)) ((((w self.sq).push self.obj).push
      (ExactInto.encode key)).push (ExactInto.encode value)) .error s)
    (root : s.root = (w self.sq).root) (positive : 0 < n) (enough : s.stackbase + n ≤ s.top)
    (unchanged : s.heap = (w self.sq).heap) :
    ∃ w' v, (self.setWith env write n key value).run w = (.ok (.error (.runtime v)), w') ∧
      slots w' self = slots w self := by
  have yields : Yields w self.sq (w self.sq) _ (self.setWith env write n key value) _ _ _ :=
    @setWith_fails env w (w self.sq) s L _ self κ ν _ _ _ _ _ _ write n key value based here
      computes root positive enough
  obtain ⟨res, w', ran, rfl, after⟩ := yields.returns (Exactly.start owned self.sq)
  refine ⟨w', _, ran, ?_⟩
  unfold slots
  rw [after.machine, ← unchanged]
  rfl

variable (owned : Owned (Owns.handles (key, value) ++ L) w)
  (based : (w self.sq).stackbase ≤ (w self.sq).top) (here : Local self.sq (key, value))

include owned based here

theorem assign_found (done : (slots w self).set env.hash (ExactInto.encode key)
      (ExactInto.encode value) = some t) :
    ∃ w', (assign env self key value).run w = (.ok (.ok ()), w') ∧ Rewritten w w' self t :=
  setWith_rewrites owned based here (Api.sqSet_table_computes rfl done)

theorem assign_missing (plain : (w self.sq).heap.delegates self.ref = none)
    (missing : (slots w self).find env.hash (ExactInto.encode key) = none) :
    ∃ w' v, (assign env self key value).run w = (.ok (.error (.runtime v)), w') ∧
      slots w' self = slots w self := by
  refine setWith_refuses (n := 3) owned based here
    (Api.sqSet_table_missing rfl missing plain) rfl (by decide) ?_ rfl
  show (w self.sq).stackbase + 3 ≤ (w self.sq).top + 3
  omega

theorem rawSet_null (null : ExactInto.encode key = .null) :
    ∃ w' v, (rawSet env self key value).run w = (.ok (.error (.runtime v)), w') ∧
      slots w' self = slots w self := by
  refine setWith_refuses (n := 1) owned based here
    (Api.sqRawset_null_computes null) rfl (by decide) ?_ rfl
  show (w self.sq).stackbase + 1 ≤ (w self.sq).top + 1
  omega

theorem rawSet_put (nonnull : ExactInto.encode key ≠ .null) :
    ∃ w', (rawSet env self key value).run w = (.ok (.ok ()), w') ∧ Rewritten w w' self
      ((slots w self).newSlot env.hash (ExactInto.encode key) (ExactInto.encode value)) :=
  setWith_rewrites owned based here (Api.sqRawset_table_computes rfl nonnull)

/-- `assign` does what is documented unless the key is null and the chain that null is searched in
has a free node; `raw_set` does unless the key is not null and has no slot. -/
theorem updates_only_iff (plain : (w self.sq).heap.delegates self.ref = none)
    (reachable : (slots w self).Reachable env.hash) :
    (UpdatesOnly w self (ExactInto.encode key) (ExactInto.encode value)
        (assign env self key value) ↔
      (ExactInto.encode key = .null →
        ∀ i, ReflTransGen (Chain.Link (slots w self).link)
          ((slots w self).mainPosition env.hash .null) i → (slots w self).Used i)) ∧
    (UpdatesOnly w self (ExactInto.encode key) (ExactInto.encode value)
        (rawSet env self key value) ↔
      (ExactInto.encode key ≠ .null → HasSlot w self (ExactInto.encode key))) := by
  have wf := reachable.wellFormed
  refine ⟨⟨fun meets null => ?_, fun condition => ⟨fun present => ?_, fun absent => ?_⟩⟩,
    ⟨fun meets nonnull => ?_, fun condition => ⟨fun present => ?_, fun absent => ?_⟩⟩⟩
  · -- a node that is found for null is written, with success
    rw [← wf.find_null_eq_none_iff]
    obtain ⟨w', v, refused, -⟩ := meets.refuses fun present => present.1 null
    cases found : (slots w self).find env.hash .null with
    | none => rfl
    | some i =>
      rw [← null] at found
      obtain ⟨t, done⟩ := SQTable.set_of_find found (ExactInto.encode value)
      obtain ⟨w'', ran, -⟩ := assign_found owned based here done
      rw [ran] at refused
      cases refused
  · obtain ⟨nonnull, v, i, isKey, -⟩ := present
    obtain ⟨t, done⟩ := SQTable.set_of_find ((wf.find_eq_some_iff nonnull).2 isKey)
      (ExactInto.encode value)
    obtain ⟨w', ran, after⟩ := assign_found owned based here done
    obtain ⟨wf', same⟩ := wf.set done
    exact ⟨w', _, ran, after, same, wf.set_put nonnull done, wf.countUsed_eq wf' same⟩
  · apply assign_missing owned based here plain
    by_cases null : ExactInto.encode key = .null
    · rw [null, wf.find_null_eq_none_iff]
      exact condition null
    · rw [wf.find_eq_none_iff null]
      exact fun i isKey => absent ⟨null, _, i, isKey, rfl⟩
  · -- a key without a slot gets one, with success
    by_contra absent
    obtain ⟨w', v, refused, -⟩ := meets.refuses absent
    obtain ⟨w'', ran, -⟩ := rawSet_put owned based here nonnull
    rw [ran] at refused
    cases refused
  · obtain ⟨nonnull, v, i, isKey, -⟩ := present
    obtain ⟨w', ran, after⟩ := rawSet_put owned based here nonnull
    obtain ⟨wf', put⟩ := wf.newSlot nonnull (ExactInto.encode value)
    have same := wf.newSlot_present nonnull (ExactInto.encode value) isKey
    exact ⟨w', _, ran, after, same, put, wf.countUsed_eq wf' same⟩
  · apply rawSet_null owned based here
    by_contra nonnull
    exact absent (condition nonnull)

end Update

/-- Both operations on a table with the key. -/
theorem updates_only_iff_present :
    let t := (SQTable.create 0).newSlot (Env.hash .returning) (.integer 1) (.integer 5)
    let self := World.tableMade .returning
    UpdatesOnly (World.withTable .returning t) self (.integer 1) (.integer 6)
        (assign .returning self (1 : ℤ) (6 : ℤ)) ∧
      UpdatesOnly (World.withTable .returning t) self (.integer 1) (.integer 6)
        (rawSet .returning self (1 : ℤ) (6 : ℤ)) := by
  intro t self
  have owned : Owned [] (World.withTable .returning t) := (owned_opened _ _ _).update rfl rfl
  have based : (World.withTable .returning t self.sq).stackbase ≤
      (World.withTable .returning t self.sq).top := by decide +kernel
  have content : slots (World.withTable .returning t) self = t := Store.read_alloc_self _ _
  have plain : (World.withTable .returning t self.sq).heap.delegates self.ref = none := by
    decide +kernel
  have reachable : t.Reachable (Env.hash .returning) := (SQTable.Reachable.create 0).newSlot
    (by decide) _
  have holds : t.Holds (.integer 1) (.integer 5) := ⟨1, by decide +kernel, by decide +kernel⟩
  have here : Local self.sq ((1, 6) : ℤ × ℤ) := fun o mem => absurd mem List.not_mem_nil
  rw [← content] at reachable holds
  have iff_ := @updates_only_iff .returning _ [] self ℤ ℤ _ _ _ _ _ _ 1 6 owned based here plain
    reachable
  refine ⟨iff_.1.2 fun null => ?_, iff_.2.2 fun nonnull => ⟨nonnull, _, holds⟩⟩
  cases null

/-- On a new table `assign` accepts null, and `raw_set` makes the slot of a key that has none. -/
theorem update_without_slot :
    ((do
        let table ← new .returning 0
        let assigned ← assign .returning table () (5 : ℤ)
        let put ← rawSet .returning table (1 : ℤ) (6 : ℤ)
        let n ← table.len
        pure (assigned, put, n)).run (World.usual .returning)).1 =
      .ok (.ok (), .ok (), 1) := by
  decide +kernel

end Handle.Table

end Squirrels
