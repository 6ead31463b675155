import Squirrels.Vm.Exact
import Squirrels.Vm.TableLaws

/-!
# What the C functions compute on tables
-/

namespace Squirrels

open Machines

/-- The machine with the table `r` rewritten. -/
def SQVM.putTable (s : SQVM) (r : ℕ) (t : SQTable) : SQVM :=
  { s with heap := s.heap.writeTable r t }

namespace SQVM

variable {env : Env} {s : SQVM} {r : ℕ} {key val : SQObject} {t : SQTable}

/-- `Set` on a table writes a slot that the search finds. -/
theorem set_table_run (done : (s.heap.tables.read r).set env.hash key val = some t) :
    (set env (.ref .table r) key val).run s = (.ok true, s.putTable r t) := by
  have written : s.heap.tableSet env.hash r key val = some (s.heap.writeTable r t) := by
    rw [Heap.tableSet, done, Option.map_some]
  unfold set
  rw [Act.run_bind_of_ok (Act.run_get s)]
  unfold setAtFuel
  rw [Act.run_bind_of_ok (Act.run_get s)]
  simp only [written]
  rfl

/-- A table without a delegate has no metamethods. -/
theorem getMetaMethod_table (plain : s.heap.delegates r = none) (mm : SQMetaMethod) :
    s.getMetaMethod env (.ref .table r) mm = none := by
  have none : s.delegateOf (.ref .table r) = none := plain
  simp only [getMetaMethod, none]
  rfl

/-- A table without a delegate does not take a slot that the search does not find. -/
theorem set_table_missing_run (missing : (s.heap.tables.read r).find env.hash key = none)
    (plain : s.heap.delegates r = none) :
    (set env (.ref .table r) key val).run s = (.ok false, s.raiseIdxError env key) := by
  have refused : s.heap.tableSet env.hash r key val = none := by
    rw [Heap.tableSet, SQTable.set, missing]
    rfl
  have noMethod := @getMetaMethod_table env s r plain .set
  unfold set
  rw [Act.run_bind_of_ok (Act.run_get s)]
  unfold setAtFuel
  rw [Act.run_bind_of_ok (Act.run_get s)]
  simp only [refused]
  unfold setRest
  have fallback : (fallBackSet env (setAtFuel env s.heap.delegateFuel) (.ref .table r) key
      val).run s = (.ok .noMatch, s) := by
    unfold fallBackSet
    rw [Act.run_bind_of_ok (Act.run_get s)]
    simp only [plain]
    unfold metaSet
    rw [Act.run_bind_of_ok (Act.run_get s)]
    simp only [noMethod]
    rfl
  rw [Act.run_bind_of_ok fallback]
  rfl

/-- `NewSlot` on a table writes the slot itself when it is there or there is no `_newslot`. -/
theorem newSlot_table_run (nonnull : key ≠ .null)
    (direct : (s.heap.tableGet env.hash r key).isSome = true ∨
      s.getMetaMethod env (.ref .table r) .newslot = none) (bstatic : Bool) :
    (newSlot env (.ref .table r) key val bstatic).run s =
      (.ok true, s.putTable r ((s.heap.tables.read r).newSlot env.hash key val)) := by
  unfold newSlot
  rw [if_neg nonnull, Act.run_bind_of_ok (Act.run_get s)]
  rcases direct with present | missing
  · have some : (s.heap.tableGet env.hash r key).isNone = false := by
      rw [Option.isNone_eq_false_iff]
      exact present
    simp only [some]
    rfl
  · simp only [missing]
    cases (s.heap.tableGet env.hash r key).isNone <;> rfl

/-- `NewSlot` on a table leaves a slot that is not there to `_newslot`. -/
theorem newSlot_table_diverted (nonnull : key ≠ .null) {closure : SQObject}
    (absent : s.heap.tableGet env.hash r key = none)
    (defined : s.getMetaMethod env (.ref .table r) .newslot = some closure) (bstatic : Bool) :
    (newSlot env (.ref .table r) key val bstatic).run s =
      (.ok (s.callMetaMethod env closure [.ref .table r, key, val]).1.ok,
        (s.callMetaMethod env closure [.ref .table r, key, val]).2) := by
  unfold newSlot
  rw [if_neg nonnull, Act.run_bind_of_ok (Act.run_get s)]
  simp only [absent, defined]
  rfl

/-- `DeleteSlot` without `_delslot` removes a slot that is there. -/
theorem deleteSlot_found (plain : s.getMetaMethod env (.ref .table r) .delslot = none)
    (found : s.heap.tableGet env.hash r key = some val) :
    (deleteSlot env r key).run s =
      (.ok (some val), s.putTable r ((s.heap.tables.read r).remove env.hash key)) := by
  unfold deleteSlot
  rw [Act.run_bind_of_ok (Act.run_get s)]
  simp only [plain, found]
  rfl

theorem deleteSlot_missing (plain : s.getMetaMethod env (.ref .table r) .delslot = none)
    (missing : s.heap.tableGet env.hash r key = none) :
    (deleteSlot env r key).run s = (.ok none, s.raiseIdxError env key) := by
  unfold deleteSlot
  rw [Act.run_bind_of_ok (Act.run_get s)]
  simp only [plain, missing]
  rfl

end SQVM

namespace Api

variable {env : Env} {s : SQVM} {r : ℕ} {idx : ℤ} {t : SQTable} {val : SQObject}

theorem sqSet_table_computes (found : s.stackGet idx = .ref .table r)
    (done : (s.heap.tables.read r).set env.hash (s.up 1) (s.up 0) = some t) :
    Computes (sqSet env idx) s .ok ((s.putTable r t).pop 2) := by
  apply Computes.get_bind
  intro refs flag
  have found' : { s with refs := refs, overflowed := flag }.stackGet idx = .ref .table r := found
  have done' : ({ s with refs := refs, overflowed := flag }.heap.tables.read r).set env.hash
      ({ s with refs := refs, overflowed := flag }.up 1)
      ({ s with refs := refs, overflowed := flag }.up 0) = some t := done
  rw [found', Act.run_bind_of_ok (SQVM.set_table_run done')]
  exact ⟨flag, rfl⟩

theorem sqSet_table_missing (found : s.stackGet idx = .ref .table r)
    (missing : (s.heap.tables.read r).find env.hash (s.up 1) = none)
    (plain : s.heap.delegates r = none) :
    Computes (sqSet env idx) s .error (s.raiseIdxError env (s.up 1)) := by
  apply Computes.get_bind
  intro refs flag
  have found' : { s with refs := refs, overflowed := flag }.stackGet idx = .ref .table r := found
  have missing' : ({ s with refs := refs, overflowed := flag }.heap.tables.read r).find env.hash
      ({ s with refs := refs, overflowed := flag }.up 1) = none := missing
  have plain' : { s with refs := refs, overflowed := flag }.heap.delegates r = none := plain
  rw [found', Act.run_bind_of_ok (SQVM.set_table_missing_run missing' plain')]
  exact ⟨flag, rfl⟩

theorem sqRawset_null_computes (null : s.up 1 = .null) :
    Computes (sqRawset env idx) s .error ((s.pop 2).raise "null key") := by
  apply Computes.get_bind
  intro refs flag
  have null' : { s with refs := refs, overflowed := flag }.up 1 = .null := null
  rw [if_pos null']
  exact ⟨flag, rfl⟩

/-- `sq_rawset` makes the slot when it is not there. -/
theorem sqRawset_table_computes (found : s.stackGet idx = .ref .table r)
    (nonnull : s.up 1 ≠ .null) :
    Computes (sqRawset env idx) s .ok
      ((s.putTable r ((s.heap.tables.read r).newSlot env.hash (s.up 1) (s.up 0))).pop 2) := by
  apply Computes.get_bind
  intro refs flag
  have found' : { s with refs := refs, overflowed := flag }.stackGet idx = .ref .table r := found
  have nonnull' : ¬ { s with refs := refs, overflowed := flag }.up 1 = .null := nonnull
  rw [if_neg nonnull', found']
  exact ⟨flag, rfl⟩

/-- `sq_newslot` up to the objects it works on. -/
theorem sqNewslot_run (deep : 3 ≤ s.depth) (found : s.stackGet idx = .ref .table r)
    (nonnull : s.up 1 ≠ .null) {stored : Bool} {s' : SQVM}
    (ran : (SQVM.newSlot env (.ref .table r) (s.up 1) (s.up 0) false).run s = (.ok stored, s')) :
    (sqNewslot env idx false).run s = (.ok .ok, s'.pop 2) := by
  unfold sqNewslot paramsCheck
  rw [Act.run_bind_of_ok (Act.run_get s), if_neg (Nat.not_lt.2 deep),
    Act.run_bind_of_ok (Act.run_get s), found, if_pos (.inl rfl), if_neg nonnull,
    Act.run_bind_of_ok ran]
  rfl

theorem sqNewslot_table_computes (deep : 3 ≤ s.depth) (found : s.stackGet idx = .ref .table r)
    (nonnull : s.up 1 ≠ .null)
    (direct : (s.heap.tableGet env.hash r (s.up 1)).isSome = true ∨
      s.getMetaMethod env (.ref .table r) .newslot = none) :
    Computes (sqNewslot env idx false) s .ok
      ((s.putTable r ((s.heap.tables.read r).newSlot env.hash (s.up 1) (s.up 0))).pop 2) := by
  intro refs flag
  refine ⟨flag, ?_⟩
  exact @sqNewslot_run env { s with refs := refs, overflowed := flag } r idx deep found nonnull _ _
    (@SQVM.newSlot_table_run env { s with refs := refs, overflowed := flag } r _ _ nonnull direct
      false)

theorem sqNewslot_null_computes (deep : 3 ≤ s.depth) (found : s.stackGet idx = .ref .table r)
    (null : s.up 1 = .null) :
    Computes (sqNewslot env idx false) s .error (s.raise "null is not a valid key") := by
  intro refs flag
  refine ⟨flag, ?_⟩
  have few : ¬ { s with refs := refs, overflowed := flag }.depth < 3 := Nat.not_lt.2 deep
  have found' : { s with refs := refs, overflowed := flag }.stackGet idx = .ref .table r := found
  have null' : { s with refs := refs, overflowed := flag }.up 1 = .null := null
  unfold sqNewslot paramsCheck
  rw [Act.run_bind_of_ok (Act.run_get _), if_neg few, Act.run_bind_of_ok (Act.run_get _), found',
    if_pos (.inl rfl), if_pos null']
  rfl

/-! ## Deletion -/

theorem sqDeleteslot_null_computes (deep : 2 ≤ s.depth) (found : s.stackGet idx = .ref .table r)
    (null : s.up 0 = .null) :
    Computes (sqDeleteslot env idx) s .error (s.raise "null is not a valid key") := by
  intro refs flag
  refine ⟨flag, ?_⟩
  have few : ¬ { s with refs := refs, overflowed := flag }.depth < 2 := Nat.not_lt.2 deep
  have found' : { s with refs := refs, overflowed := flag }.stackGet idx = .ref .table r := found
  have null' : { s with refs := refs, overflowed := flag }.up 0 = .null := null
  unfold sqDeleteslot paramsCheck
  rw [Act.run_bind_of_ok (Act.run_get _), if_neg few, Act.run_bind_of_ok (Act.run_get _), found']
  simp only [null', if_pos]
  rfl

theorem sqDeleteslot_found_computes (deep : 2 ≤ s.depth) (self : s.stackGet idx = .ref .table r)
    (nonnull : s.up 0 ≠ .null) (plain : s.getMetaMethod env (.ref .table r) .delslot = none)
    (found : s.heap.tableGet env.hash r (s.up 0) = some val) :
    Computes (sqDeleteslot env idx) s .ok
      ((s.putTable r ((s.heap.tables.read r).remove env.hash (s.up 0))).setUp 0 val) := by
  intro refs flag
  refine ⟨flag, ?_⟩
  have few : ¬ { s with refs := refs, overflowed := flag }.depth < 2 := Nat.not_lt.2 deep
  have self' : { s with refs := refs, overflowed := flag }.stackGet idx = .ref .table r := self
  have nonnull' : ¬ { s with refs := refs, overflowed := flag }.up 0 = .null := nonnull
  have ran := @SQVM.deleteSlot_found env { s with refs := refs, overflowed := flag } r
    (s.up 0) val plain found
  unfold sqDeleteslot paramsCheck
  rw [Act.run_bind_of_ok (Act.run_get _), if_neg few, Act.run_bind_of_ok (Act.run_get _), self']
  simp only
  rw [if_neg nonnull']
  exact (Act.run_bind_of_ok ran).trans rfl

theorem sqDeleteslot_missing_computes (deep : 2 ≤ s.depth) (self : s.stackGet idx = .ref .table r)
    (nonnull : s.up 0 ≠ .null) (plain : s.getMetaMethod env (.ref .table r) .delslot = none)
    (missing : s.heap.tableGet env.hash r (s.up 0) = none) :
    Computes (sqDeleteslot env idx) s .error ((s.raiseIdxError env (s.up 0)).pop 1) := by
  intro refs flag
  refine ⟨flag, ?_⟩
  have few : ¬ { s with refs := refs, overflowed := flag }.depth < 2 := Nat.not_lt.2 deep
  have self' : { s with refs := refs, overflowed := flag }.stackGet idx = .ref .table r := self
  have nonnull' : ¬ { s with refs := refs, overflowed := flag }.up 0 = .null := nonnull
  have ran := @SQVM.deleteSlot_missing env { s with refs := refs, overflowed := flag } r
    (s.up 0) plain missing
  unfold sqDeleteslot paramsCheck
  rw [Act.run_bind_of_ok (Act.run_get _), if_neg few, Act.run_bind_of_ok (Act.run_get _), self']
  simp only
  rw [if_neg nonnull']
  exact (Act.run_bind_of_ok ran).trans rfl

/-- `sq_rawdeleteslot` leaves the removed value, or null, in place of the key. -/
theorem sqRawdeleteslot_found_computes (deep : 2 ≤ s.depth)
    (self : s.stackGet idx = .ref .table r)
    (found : s.heap.tableGet env.hash r (s.up 0) = some val) :
    Computes (sqRawdeleteslot env idx) s .ok
      ((s.putTable r ((s.heap.tables.read r).remove env.hash (s.up 0))).setUp 0 val) := by
  intro refs flag
  refine ⟨flag, ?_⟩
  have few : ¬ { s with refs := refs, overflowed := flag }.depth < 2 := Nat.not_lt.2 deep
  have self' : { s with refs := refs, overflowed := flag }.stackGet idx = .ref .table r := self
  have found' : { s with refs := refs, overflowed := flag }.heap.tableGet env.hash r
      ({ s with refs := refs, overflowed := flag }.up 0) = some val := found
  unfold sqRawdeleteslot paramsCheck
  rw [Act.run_bind_of_ok (Act.run_get _), if_neg few, Act.run_bind_of_ok (Act.run_get _), self']
  simp only [found']
  rfl

theorem sqRawdeleteslot_missing_computes (deep : 2 ≤ s.depth)
    (self : s.stackGet idx = .ref .table r)
    (missing : s.heap.tableGet env.hash r (s.up 0) = none) :
    Computes (sqRawdeleteslot env idx) s .ok (s.setUp 0 .null) := by
  intro refs flag
  refine ⟨flag, ?_⟩
  have few : ¬ { s with refs := refs, overflowed := flag }.depth < 2 := Nat.not_lt.2 deep
  have self' : { s with refs := refs, overflowed := flag }.stackGet idx = .ref .table r := self
  have missing' : { s with refs := refs, overflowed := flag }.heap.tableGet env.hash r
      ({ s with refs := refs, overflowed := flag }.up 0) = none := missing
  unfold sqRawdeleteslot paramsCheck
  rw [Act.run_bind_of_ok (Act.run_get _), if_neg few, Act.run_bind_of_ok (Act.run_get _), self']
  simp only [missing']
  rfl

/-! ## Iteration -/

theorem containerNext_table (s : SQVM) (r p : ℕ) :
    containerNext s (.ref .table r) p = .ok (((s.heap.tables.read r).next p).map fun (pos, n) =>
      ⟨pos, n.key, s.heap.realval n.val⟩) := by
  unfold containerNext
  simp only
  rw [if_neg (by omega), Int.toNat_natCast]

theorem sqNext_table_run_end {p : ℕ} (found : s.stackGet idx = .ref .table r)
    (position : translateIndex (s.up 0) = some (p : ℤ))
    (ends : (s.heap.tables.read r).next p = none) :
    (sqNext env idx).run s = (.ok .error, s) := by
  unfold sqNext
  rw [Act.run_bind_of_ok (Act.run_get s), found]
  show (containerStep (.ref .table r) (s.up 0)).run s = _
  unfold containerStep
  rw [Act.run_bind_of_ok (Act.run_get s)]
  simp only [position, containerNext_table, ends]
  rfl

theorem sqNext_table_run {p p' : ℕ} {n : HashNode} (found : s.stackGet idx = .ref .table r)
    (position : translateIndex (s.up 0) = some (p : ℤ))
    (more : (s.heap.tables.read r).next p = some (p', n)) :
    (sqNext env idx).run s = (.ok .ok,
      ((s.setUp 0 (.integer p')).apiPush n.key).apiPush (s.heap.realval n.val)) := by
  unfold sqNext
  rw [Act.run_bind_of_ok (Act.run_get s), found]
  show (containerStep (.ref .table r) (s.up 0)).run s = _
  unfold containerStep
  rw [Act.run_bind_of_ok (Act.run_get s)]
  simp only [position, containerNext_table, more]
  rfl

theorem sqNext_table_ends {p : ℕ} (found : s.stackGet idx = .ref .table r)
    (position : translateIndex (s.up 0) = some (p : ℤ))
    (ends : (s.heap.tables.read r).next p = none) : Computes (sqNext env idx) s .error s :=
  fun refs flag => ⟨flag, @sqNext_table_run_end env { s with refs := refs, overflowed := flag } r
    idx p found position ends⟩

theorem sqNext_table_computes {p p' : ℕ} {n : HashNode} (found : s.stackGet idx = .ref .table r)
    (position : translateIndex (s.up 0) = some (p : ℤ))
    (more : (s.heap.tables.read r).next p = some (p', n)) :
    Computes (sqNext env idx) s .ok
      (((s.setUp 0 (.integer p')).push n.key).push (s.heap.realval n.val)) :=
  fun refs flag => ⟨_, @sqNext_table_run env { s with refs := refs, overflowed := flag } r idx p p'
    n found position more⟩

end Api

end Squirrels
