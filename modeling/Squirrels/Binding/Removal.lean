import Squirrels.Binding.ArrayModel
import Squirrels.Binding.TableUpdate

/-!
# Removals

`Array::pop`, `Table::delete` and `Table::raw_delete` remove in C and convert what was removed in
Rust. A removal that finds nothing leaves the container as it was; when the conversion fails, the
element is gone.
-/

namespace Squirrels

open Machines

/-- A conversion that succeeds. -/
def Converts {α : Type} (res : Except Error α) : Prop := ∃ a, res = .ok a

theorem liftError_eq_ok {α : Type} {res : Except Error α} {a : α} :
    liftError res = .ok a ↔ res = .ok a := by
  cases res <;> simp [liftError]

/-! ## Arrays -/

namespace Handle.Array

/-- The elements of an array. -/
def elements (w : World) (self : ArrayHandle) : List SQObject :=
  (w self.sq).heap.arrays.read self.ref

/-- A removal that fails leaves the elements as they are, and one that succeeds returns the element
it has removed. -/
structure RemovesLast {ν : Type} [Owns ν] [FromSquirrel ν] [ExactFrom ν] (w : World)
    (array : ArrayHandle) (op : Act World (Except CallError ν)) : Prop where
  failed : ∀ e w', op.run w = (.ok (.error e), w') → elements w' array = elements w array
  removed : ∀ v w', op.run w = (.ok (.ok v), w') →
    ∃ x, elements w array = elements w' array ++ [x] ∧ ExactFrom.decode array.sq x = .ok v

section Pop

variable {env : Env} {w : World} {L : List Object} {self : ArrayHandle} {ν : Type} [Owns ν]
  [FromSquirrel ν] [ExactFrom ν] (owned : Owned L w)
  (based : (w self.sq).stackbase ≤ (w self.sq).top)

include owned based

/-- The last element is removed, whether it converts or not. -/
theorem pop_run {xs : List SQObject} {x : SQObject} (last : elements w self = xs ++ [x]) :
    ∃ w', (pop env self).run w =
      (.ok (liftError (ExactFrom.decode self.sq x : Except Error ν)), w') ∧
        elements w' self = xs := by
  have some : 0 < ((w self.sq).heap.arrays.read self.ref).length := by
    show 0 < (elements w self).length
    simp [last]
  have computes : Computes (Api.sqArraypop env (-1)) ((w self.sq).push self.obj) .ok
      (((Api.putList (w self.sq) self.ref xs).push self.obj).push x) := by
    have deep : 1 ≤ ((w self.sq).push self.obj).depth := by
      show 1 ≤ (w self.sq).top + 1 - (w self.sq).stackbase
      omega
    have top : (elements w self).getLastD .null = x := by rw [last, List.getLastD_concat]
    have rest : (elements w self).dropLast = xs := by rw [last, List.dropLast_concat]
    rw [← top, ← rest]
    exact Api.sqArraypop_computes deep rfl some
  obtain ⟨e, taken⟩ := @takeTop_exact env w
    (((Api.putList (w self.sq) self.ref xs).push self.obj).push x) L ν _ _ _ self.sq 2 Nat.two_pos
    (show (w self.sq).stackbase + 2 ≤ (w self.sq).top + 2 by omega)
  have yields : Yields w self.sq (w self.sq) L (pop env self) _ _ _ :=
    Yields.bind (Yields.push self.obj) (Yields.bind (Yields.machine computes rfl)
      (Yields.bind (Yields.pure (Except.ok ())) (Yields.bind taken (Yields.pure _))))
  obtain ⟨res, w', ran, rfl, after⟩ := yields.returns (Exactly.start owned self.sq)
  refine ⟨w', ran, ?_⟩
  unfold elements
  rw [after.machine]
  exact Store.read_write_self _ _ _

omit [ExactFrom ν] in
/-- Nothing is removed from an empty array. -/
theorem pop_empty (none : elements w self = []) :
    ∃ w' v, (pop env self : Act World (Except CallError ν)).run w =
      (.ok (.error (.runtime v)), w') ∧ elements w' self = elements w self := by
  have deep : 1 ≤ ((w self.sq).push self.obj).depth := by
    show 1 ≤ (w self.sq).top + 1 - (w self.sq).stackbase
    omega
  have empty : ¬ 0 < ((w self.sq).heap.arrays.read self.ref).length := by
    show ¬ 0 < (elements w self).length
    simp [none]
  have computes := @Api.sqArraypop_empty env ((w self.sq).push self.obj) self.ref (-1) deep rfl
    empty
  have yields : Yields w self.sq (w self.sq) L (pop env self : Act World (Except CallError ν)) _ _
      _ :=
    Yields.bind (Yields.push self.obj) (Yields.bind (Yields.machine computes rfl)
      (Yields.bind (Yields.toRuntimeError (n := 1) one_pos
        (show (w self.sq).stackbase + 1 ≤ (w self.sq).top + 1 by omega)) (Yields.pure _)))
  obtain ⟨res, w', ran, rfl, after⟩ := yields.returns (Exactly.start owned self.sq)
  refine ⟨w', _, ran, ?_⟩
  unfold elements
  rw [after.machine]
  rfl

/-- `pop` loses the last element if it does not convert. -/
theorem pop_removesLast_iff :
    RemovesLast w self (pop env self : Act World (Except CallError ν)) ↔
      ∀ x, (elements w self).getLast? = some x →
        Converts (ExactFrom.decode self.sq x : Except Error ν) := by
  rcases List.eq_nil_or_concat' (elements w self) with none | ⟨xs, x, last⟩
  · obtain ⟨w₁, v, ran, same⟩ := @pop_empty env w L self ν _ _ owned based none
    rw [none]
    refine ⟨fun _ x absurd => by simp at absurd, fun _ =>
      ⟨fun e w' ran' => ?_, fun v w' ran' => ?_⟩⟩
    · rw [ran] at ran'
      obtain rfl := congrArg Prod.snd ran'
      exact same
    · rw [ran] at ran'
      cases congrArg Prod.fst ran'
  · obtain ⟨w₁, ran, rest⟩ := @pop_run env w L self ν _ _ _ owned based xs x last
    have only : (∀ y, (elements w self).getLast? = some y →
        Converts (ExactFrom.decode self.sq y : Except Error ν)) ↔
          Converts (ExactFrom.decode self.sq x : Except Error ν) := by
      rw [last, List.getLast?_concat]
      exact ⟨fun all => all x rfl, fun here y eq => Option.some.inj eq ▸ here⟩
    rw [only]
    constructor
    · intro removes
      cases decoded : (ExactFrom.decode self.sq x : Except Error ν) with
      | ok v => exact ⟨v, rfl⟩
      | error e =>
        rw [decoded] at ran
        have same := removes.failed _ _ ran
        rw [rest, last] at same
        simp at same
    · rintro ⟨v, decoded⟩
      rw [decoded] at ran
      refine ⟨fun e w' ran' => ?_, fun v' w' ran' => ?_⟩
      · rw [ran] at ran'
        cases congrArg Prod.fst ran'
      · rw [ran] at ran'
        obtain rfl := congrArg Prod.snd ran'
        obtain rfl := Except.ok.inj (Except.ok.inj (congrArg Prod.fst ran'))
        exact ⟨x, by rw [rest, last], decoded⟩

end Pop

end Handle.Array

/-! ## Tables -/

namespace Handle.Table

/-- The entries of the tables are the same. -/
def SameEntries (t t' : SQTable) : Prop := ∀ k v, k ≠ .null → (t'.Holds k v ↔ t.Holds k v)

/-- A removal that fails leaves the entries as they are, and one that succeeds returns the value it
has removed. `nothing` is what is returned for a key without a slot, if that is not an error. -/
structure RemovesEntry {ε α : Type} (w : World) (table : Table) (key : SQObject)
    (decode : SQObject → Except Error α) (nothing : Option α) (op : Act World (Except ε α)) :
    Prop where
  failed : ∀ e w', op.run w = (.ok (.error e), w') → SameEntries (slots w table) (slots w' table)
  removed : ∀ a w', op.run w = (.ok (.ok a), w') →
    (∃ val, key ≠ .null ∧ (slots w table).Holds key val ∧
      decode ((w table.sq).heap.realval val) = .ok a ∧
        (slots w table).Dropped (slots w' table) key) ∨
    (¬ HasSlot w table key ∧ nothing = some a ∧ SameEntries (slots w table) (slots w' table))

section Entries

variable {ε α : Type} {w w' : World} {self : Table} {key : SQObject}
  {decode : SQObject → Except Error α} {nothing : Option α} {op : Act World (Except ε α)}

/-- A removal that finds nothing. -/
theorem RemovesEntry.of_missing {res : Except ε α} (missing : ¬ HasSlot w self key)
    (ran : op.run w = (.ok res, w')) (answer : ∀ a, res = .ok a → nothing = some a)
    (same : slots w' self = slots w self) : RemovesEntry w self key decode nothing op := by
  have entries : SameEntries (slots w self) (slots w' self) := by
    rw [same]
    exact fun k v _ => Iff.rfl
  refine ⟨fun e w₁ ran' => ?_, fun a w₁ ran' => ?_⟩
  · rw [ran] at ran'
    obtain rfl := congrArg Prod.snd ran'
    exact entries
  · rw [ran] at ran'
    obtain rfl := congrArg Prod.snd ran'
    exact .inr ⟨missing, answer a (Except.ok.inj (congrArg Prod.fst ran')), entries⟩

/-- A removal that finds a value and takes it out loses it if it does not convert. -/
theorem RemovesEntry.iff_of_found {res : Except ε α} {val : SQObject} (nonnull : key ≠ .null)
    (holds : (slots w self).Holds key val) (ran : op.run w = (.ok res, w'))
    (converted : ∀ a, res = .ok a ↔ decode ((w self.sq).heap.realval val) = .ok a)
    (dropped : (slots w self).Dropped (slots w' self) key) :
    RemovesEntry w self key decode nothing op ↔
      Converts (decode ((w self.sq).heap.realval val)) := by
  constructor
  · intro removes
    cases res with
    | ok a => exact ⟨a, (converted a).1 rfl⟩
    | error e =>
      have kept := (removes.failed e w' ran key val nonnull).2 holds
      exact absurd rfl ((dropped key val nonnull).1 kept).1
  · rintro ⟨a, decoded⟩
    obtain rfl := (converted a).2 decoded
    refine ⟨fun e w₁ ran' => ?_, fun b w₁ ran' => ?_⟩
    · rw [ran] at ran'
      cases congrArg Prod.fst ran'
    · rw [ran] at ran'
      obtain rfl := congrArg Prod.snd ran'
      obtain rfl := Except.ok.inj (Except.ok.inj (congrArg Prod.fst ran'))
      exact .inl ⟨val, nonnull, holds, decoded, dropped⟩

end Entries

section Delete

variable {env : Env} {w : World} {L : List Object} {self : Table} {κ ν : Type} [Owns κ]
  [IntoSquirrel κ] [ExactInto κ] [Owns ν] [FromSquirrel ν] [ExactFrom ν] {key : κ} {o : SQObject}

/-- What the search for a key finds. -/
theorem tableGet_cases (wf : (slots w self).WellFormed env.hash) (k : SQObject) :
    (¬ HasSlot w self k ∧ (w self.sq).heap.tableGet env.hash self.ref k = none) ∨
      (k ≠ .null ∧ ∃ val, (slots w self).Holds k val ∧
        (w self.sq).heap.tableGet env.hash self.ref k = some ((w self.sq).heap.realval val)) := by
  by_cases null : k = .null
  · refine .inl ⟨fun present => present.1 null, ?_⟩
    unfold Heap.tableGet SQTable.get
    rw [if_pos null]
    rfl
  · cases got : (slots w self).get env.hash k with
    | none =>
      refine .inl ⟨fun ⟨_, val, holds⟩ => ?_, congrArg (Option.map _) got⟩
      have found := (wf.get_eq_some_iff null).2 holds
      rw [got] at found
      cases found
    | some val =>
      exact .inr ⟨null, val, (wf.get_eq_some_iff null).1 got, congrArg (Option.map _) got⟩

variable (owned : Owned (Owns.handles key ++ L) w)
  (based : (w self.sq).stackbase ≤ (w self.sq).top) (here : Local self.sq key)

include owned based here

theorem rawDelete_found
    (found : (w self.sq).heap.tableGet env.hash self.ref (ExactInto.encode key) = some o) :
    ∃ w', (rawDelete env self key).run w =
      (.ok (ExactFrom.decode self.sq o : Except Error (Option ν)), w') ∧
        slots w' self = (slots w self).remove env.hash (ExactInto.encode key) := by
  have deep : 2 ≤ (((w self.sq).push self.obj).push (ExactInto.encode key)).depth := by
    show 2 ≤ (w self.sq).top + 2 - (w self.sq).stackbase
    omega
  have computes := @Api.sqRawdeleteslot_found_computes env
    (((w self.sq).push self.obj).push (ExactInto.encode key)) self.ref (-2) o deep rfl found
  obtain ⟨e, taken⟩ := @takeTop_exact env w
    ((((w self.sq).putTable self.ref
      ((slots w self).remove env.hash (ExactInto.encode key))).push self.obj).push o)
    L (Option ν) _ _ _ self.sq 2 Nat.two_pos
    (show (w self.sq).stackbase + 2 ≤ (w self.sq).top + 2 by omega)
  have based' : ((w self.sq).push self.obj).stackbase ≤ ((w self.sq).push self.obj).top :=
    based.trans (Nat.le_succ _)
  have yields : Yields w self.sq (w self.sq) (Owns.handles key ++ L)
      (rawDelete env self key : Act World (Except Error (Option ν))) _ _ _ :=
    Yields.bind (Yields.push self.obj) (Yields.bind (ExactInto.pushed based' here)
      (Yields.bind (Yields.machine computes rfl) (Yields.bind (Yields.pure ()) taken)))
  obtain ⟨res, w', ran, rfl, after⟩ := yields.returns (Exactly.start owned self.sq)
  refine ⟨w', ran, ?_⟩
  unfold slots
  rw [after.machine]
  exact Store.read_write_self _ _ _

theorem rawDelete_missing
    (missing : (w self.sq).heap.tableGet env.hash self.ref (ExactInto.encode key) = none) :
    ∃ w', (rawDelete env self key : Act World (Except Error (Option ν))).run w =
      (.ok (.ok none), w') ∧ slots w' self = slots w self := by
  have deep : 2 ≤ (((w self.sq).push self.obj).push (ExactInto.encode key)).depth := by
    show 2 ≤ (w self.sq).top + 2 - (w self.sq).stackbase
    omega
  have computes := @Api.sqRawdeleteslot_missing_computes env
    (((w self.sq).push self.obj).push (ExactInto.encode key)) self.ref (-2) deep rfl missing
  obtain ⟨e, taken⟩ := @takeTop_exact env w
    (((w self.sq).push self.obj).push .null) L (Option ν) _ _ _ self.sq 2 Nat.two_pos
    (show (w self.sq).stackbase + 2 ≤ (w self.sq).top + 2 by omega)
  have based' : ((w self.sq).push self.obj).stackbase ≤ ((w self.sq).push self.obj).top :=
    based.trans (Nat.le_succ _)
  have yields : Yields w self.sq (w self.sq) (Owns.handles key ++ L)
      (rawDelete env self key : Act World (Except Error (Option ν))) _ _ _ :=
    Yields.bind (Yields.push self.obj) (Yields.bind (ExactInto.pushed based' here)
      (Yields.bind (Yields.machine computes rfl) (Yields.bind (Yields.pure ()) taken)))
  obtain ⟨res, w', ran, rfl, after⟩ := yields.returns (Exactly.start owned self.sq)
  refine ⟨w', ran, ?_⟩
  unfold slots
  rw [after.machine]
  rfl

theorem delete_found (nonnull : ExactInto.encode key ≠ .null)
    (plain : (w self.sq).getMetaMethod env (.ref .table self.ref) .delslot = none)
    (found : (w self.sq).heap.tableGet env.hash self.ref (ExactInto.encode key) = some o) :
    ∃ w', (delete env self key).run w =
      (.ok (liftError (ExactFrom.decode self.sq o : Except Error ν)), w') ∧
        slots w' self = (slots w self).remove env.hash (ExactInto.encode key) := by
  have deep : 2 ≤ (((w self.sq).push self.obj).push (ExactInto.encode key)).depth := by
    show 2 ≤ (w self.sq).top + 2 - (w self.sq).stackbase
    omega
  have computes := @Api.sqDeleteslot_found_computes env
    (((w self.sq).push self.obj).push (ExactInto.encode key)) self.ref (-2) o deep rfl nonnull
    plain found
  obtain ⟨e, taken⟩ := @takeTop_exact env w
    ((((w self.sq).putTable self.ref
      ((slots w self).remove env.hash (ExactInto.encode key))).push self.obj).push o)
    L ν _ _ _ self.sq 2 Nat.two_pos
    (show (w self.sq).stackbase + 2 ≤ (w self.sq).top + 2 by omega)
  have based' : ((w self.sq).push self.obj).stackbase ≤ ((w self.sq).push self.obj).top :=
    based.trans (Nat.le_succ _)
  have yields : Yields w self.sq (w self.sq) (Owns.handles key ++ L)
      (delete env self key : Act World (Except CallError ν)) _ _ _ :=
    Yields.bind Yields.stackDepth (Yields.bind (Yields.push self.obj)
      (Yields.bind (ExactInto.pushed based' here) (Yields.bind (Yields.machine computes rfl)
        (Yields.bind taken (Yields.pure _)))))
  obtain ⟨res, w', ran, rfl, after⟩ := yields.returns (Exactly.start owned self.sq)
  refine ⟨w', ran, ?_⟩
  unfold slots
  rw [after.machine]
  exact Store.read_write_self _ _ _

omit [ExactFrom ν] in
/-- A key that is not found, null among them, is an error, whatever the C function has popped. -/
theorem delete_missing
    (plain : (w self.sq).getMetaMethod env (.ref .table self.ref) .delslot = none)
    (missing : (w self.sq).heap.tableGet env.hash self.ref (ExactInto.encode key) = none) :
    ∃ w' v, (delete env self key : Act World (Except CallError ν)).run w =
      (.ok (.error (.runtime v)), w') ∧ slots w' self = slots w self := by
  have deep : 2 ≤ (((w self.sq).push self.obj).push (ExactInto.encode key)).depth := by
    show 2 ≤ (w self.sq).top + 2 - (w self.sq).stackbase
    omega
  have based' : ((w self.sq).push self.obj).stackbase ≤ ((w self.sq).push self.obj).top :=
    based.trans (Nat.le_succ _)
  obtain ⟨s, n, positive, popped, computes, base, top, root, heap⟩ : ∃ (s : SQVM) (n : ℕ), 0 < n ∧
      n ≤ s.top ∧ Computes (Api.sqDeleteslot env (-2))
        (((w self.sq).push self.obj).push (ExactInto.encode key)) .error s ∧
      s.stackbase = (w self.sq).stackbase ∧ s.top = (w self.sq).top + n ∧
      s.root = (w self.sq).root ∧ s.heap = (w self.sq).heap := by
    by_cases null : ExactInto.encode key = .null
    · exact ⟨_, 2, Nat.two_pos, Nat.le_add_left _ _,
        Api.sqDeleteslot_null_computes deep rfl null, rfl, rfl, rfl, rfl⟩
    · exact ⟨_, 1, one_pos, Nat.le_add_left _ _,
        Api.sqDeleteslot_missing_computes deep rfl null plain missing, rfl, rfl, rfl, rfl⟩
  have settop : Computes (Api.sqSettop (((w self.sq).top : ℤ) - (w self.sq).stackbase)) s ()
      (s.pop n) := by
    have eq : ((w self.sq).top : ℤ) - (w self.sq).stackbase = (s.top : ℤ) - s.stackbase - n := by
      omega
    rw [eq]
    exact Api.sqSettop_computes positive popped
  have yields : Yields w self.sq (w self.sq) (Owns.handles key ++ L)
      (delete env self key : Act World (Except CallError ν)) _ _ _ :=
    Yields.bind Yields.stackDepth (Yields.bind (Yields.push self.obj)
      (Yields.bind (ExactInto.pushed based' here) (Yields.bind (Yields.machine computes root)
        (Yields.bind (Yields.bind (Yields.ensure (by omega)) (Yields.machine settop rfl))
          (Yields.bind (Yields.getRuntimeError (show s.stackbase ≤ (s.stack.drop n).length by
            rw [List.length_drop]
            show s.stackbase ≤ s.top - n
            omega)) (Yields.pure _))))))
  obtain ⟨res, w', ran, rfl, after⟩ := yields.returns (Exactly.start owned self.sq)
  refine ⟨w', _, ran, ?_⟩
  unfold slots
  rw [after.machine, ← heap]
  rfl

/-- `delete` loses the value of the key if it does not convert. -/
theorem delete_removesEntry_iff (wf : (slots w self).WellFormed env.hash)
    (plain : (w self.sq).getMetaMethod env (.ref .table self.ref) .delslot = none) :
    RemovesEntry w self (ExactInto.encode key) (ExactFrom.decode self.sq) none
        (delete env self key : Act World (Except CallError ν)) ↔
      ∀ val, ExactInto.encode key ≠ .null → (slots w self).Holds (ExactInto.encode key) val →
        Converts (ExactFrom.decode self.sq ((w self.sq).heap.realval val) : Except Error ν) := by
  rcases tableGet_cases wf (ExactInto.encode key) with ⟨missing, got⟩ | ⟨nonnull, val, holds, got⟩
  · obtain ⟨w', v, ran, same⟩ := @delete_missing env w L self κ ν _ _ _ _ _ key owned based here
      plain got
    exact ⟨fun _ val nonnull holds => absurd ⟨nonnull, val, holds⟩ missing, fun _ =>
      .of_missing missing ran (fun _ absurd => by cases absurd) same⟩
  · obtain ⟨w', ran, removed⟩ := @delete_found env w L self κ ν _ _ _ _ _ _ key _ owned based here
      nonnull plain got
    rw [RemovesEntry.iff_of_found nonnull holds ran (fun _ => liftError_eq_ok)
      (removed ▸ (wf.remove nonnull).2)]
    exact ⟨fun converts v _ holds' => wf.holds_unique nonnull holds holds' ▸ converts, fun all =>
      all val nonnull holds⟩

/-- `raw_delete` loses the value of the key if it does not convert. -/
theorem rawDelete_removesEntry_iff (wf : (slots w self).WellFormed env.hash) :
    RemovesEntry w self (ExactInto.encode key) (ExactFrom.decode self.sq) (some none)
        (rawDelete env self key : Act World (Except Error (Option ν))) ↔
      ∀ val, ExactInto.encode key ≠ .null → (slots w self).Holds (ExactInto.encode key) val →
        Converts (ExactFrom.decode self.sq ((w self.sq).heap.realval val) :
          Except Error (Option ν)) := by
  rcases tableGet_cases wf (ExactInto.encode key) with ⟨missing, got⟩ | ⟨nonnull, val, holds, got⟩
  · obtain ⟨w', ran, same⟩ := @rawDelete_missing env w L self κ ν _ _ _ _ _ _ key owned based here
      got
    exact ⟨fun _ val nonnull holds => absurd ⟨nonnull, val, holds⟩ missing, fun _ =>
      .of_missing missing ran (fun _ eq => congrArg some (Except.ok.inj eq)) same⟩
  · obtain ⟨w', ran, removed⟩ := @rawDelete_found env w L self κ ν _ _ _ _ _ _ key _ owned based
      here got
    rw [RemovesEntry.iff_of_found nonnull holds ran (fun _ => Iff.rfl)
      (removed ▸ (wf.remove nonnull).2)]
    exact ⟨fun converts v _ holds' => wf.holds_unique nonnull holds holds' ▸ converts, fun all =>
      all val nonnull holds⟩

end Delete

end Handle.Table

/-! ## Removals that fail -/

open Handle.Array (elements RemovesLast) in
open Handle.Table (slots RemovesEntry) in
/-- A removal removes what it returns, and nothing when it fails, exactly when the element that it
takes out, if there is one, converts to the requested type. -/
theorem removes_only_iff {env : Env} {w : World} {L : List Object} {κ ν : Type} [Owns κ]
    [IntoSquirrel κ] [ExactInto κ] [Owns ν] [FromSquirrel ν] [ExactFrom ν] {array : ArrayHandle}
    {table : Table} {key : κ} (owned : Owned (Owns.handles key ++ L) w)
    (arrayBased : (w array.sq).stackbase ≤ (w array.sq).top)
    (tableBased : (w table.sq).stackbase ≤ (w table.sq).top) (here : Local table.sq key)
    (reachable : (slots w table).Reachable env.hash)
    (plain : (w table.sq).getMetaMethod env (.ref .table table.ref) .delslot = none) :
    (RemovesLast w array (Handle.Array.pop env array : Act World (Except CallError ν)) ↔
      ∀ x, (elements w array).getLast? = some x →
        Converts (ExactFrom.decode array.sq x : Except Error ν)) ∧
    (RemovesEntry w table (ExactInto.encode key) (ExactFrom.decode table.sq) none
        (Handle.Table.delete env table key : Act World (Except CallError ν)) ↔
      ∀ val, ExactInto.encode key ≠ .null → (slots w table).Holds (ExactInto.encode key) val →
        Converts (ExactFrom.decode table.sq ((w table.sq).heap.realval val) : Except Error ν)) ∧
    (RemovesEntry w table (ExactInto.encode key) (ExactFrom.decode table.sq) (some none)
        (Handle.Table.rawDelete env table key : Act World (Except Error (Option ν))) ↔
      ∀ val, ExactInto.encode key ≠ .null → (slots w table).Holds (ExactInto.encode key) val →
        Converts (ExactFrom.decode table.sq ((w table.sq).heap.realval val) :
          Except Error (Option ν))) :=
  ⟨Handle.Array.pop_removesLast_iff owned arrayBased,
    Handle.Table.delete_removesEntry_iff owned tableBased here reachable.wellFormed plain,
    Handle.Table.rawDelete_removesEntry_iff owned tableBased here reachable.wellFormed⟩

/-- An array of integers, and a table with a slot that does not hold an integer besides the one that
is removed. -/
theorem removes_only_iff_integers :
    let t := ((SQTable.create 0).newSlot (Env.hash .returning) (.integer 1) (.integer 5)).newSlot
      (Env.hash .returning) (.integer 2) .null
    let made := World.withTable .returning t
    let table := World.tableMade .returning
    let array : ArrayHandle := ⟨0, (made 0).heap.arrays.next⟩
    let w := Function.update made 0
      { made 0 with heap := ((made 0).heap.newArray [.integer 4, .integer 6]).2 }
    Handle.Array.elements w array = [.integer 4, .integer 6] ∧
      Handle.Array.RemovesLast w array
        (Handle.Array.pop .returning array : Act World (Except CallError ℤ)) ∧
      Handle.Table.RemovesEntry w table (.integer 1) (ExactFrom.decode 0) none
        (Handle.Table.delete .returning table (1 : ℤ) : Act World (Except CallError ℤ)) ∧
      Handle.Table.RemovesEntry w table (.integer 1) (ExactFrom.decode 0) (some none)
        (Handle.Table.rawDelete .returning table (1 : ℤ) :
          Act World (Except Error (Option ℤ))) := by
  intro t made table array w
  have opened : Owned [] made := (owned_opened _ _ _).update rfl rfl
  have owned : Owned [] w := opened.update rfl rfl
  have based : (w 0).stackbase ≤ (w 0).top := by decide +kernel
  have elements : Handle.Array.elements w array = [.integer 4, .integer 6] :=
    Store.read_alloc_self _ _
  have content : Handle.Table.slots w table = t := Store.read_alloc_self _ _
  have plain : (w 0).getMetaMethod .returning (.ref .table table.ref) .delslot = none :=
    SQVM.getMetaMethod_table (by decide +kernel) _
  have reachable : t.Reachable (Env.hash .returning) :=
    ((SQTable.Reachable.create 0).newSlot (by decide) _).newSlot (by decide) _
  have only : ∀ val, (Handle.Table.slots w table).Holds (.integer 1) val → val = .integer 5 := by
    intro val holds
    rw [content, ← reachable.wellFormed.get_eq_some_iff (by decide)] at holds
    exact Option.some.inj (holds.symm.trans (by decide +kernel))
  rw [← content] at reachable
  obtain ⟨pop, delete, rawDelete⟩ := @removes_only_iff .returning w [] ℤ ℤ _ _ _ _ _ _ array table 1
    owned based based (fun o mem => absurd mem List.not_mem_nil) reachable plain
  refine ⟨elements, pop.2 fun x last => ?_, delete.2 fun val _ holds => ?_,
    rawDelete.2 fun val _ holds => ?_⟩
  · rw [elements] at last
    obtain rfl := Option.some.inj last
    exact ⟨6, rfl⟩
  · rw [only val holds]
    exact ⟨5, rfl⟩
  · rw [only val holds]
    exact ⟨some 5, rfl⟩

/-- An element that is not a `bool` is removed by a call that asks for one and fails. -/
theorem removal_loses_element :
    ((do
        let array ← Handle.Array.new .returning 0 1
        let popped : Except CallError Bool ← Handle.Array.pop .returning array
        let left ← array.len
        let table ← Handle.Table.new .returning 0
        let _ ← Handle.Table.rawSet .returning table (1 : ℤ) (5 : ℤ)
        let deleted : Except CallError Bool ← Handle.Table.delete .returning table (1 : ℤ)
        let remains ← table.len
        let _ ← Handle.Table.rawSet .returning table (1 : ℤ) (5 : ℤ)
        let rawDeleted : Except Error (Option Bool) ←
          Handle.Table.rawDelete .returning table (1 : ℤ)
        let rawRemains ← table.len
        pure ((popped, left), (deleted, remains), (rawDeleted, rawRemains))).run
      (World.usual .returning)).1 =
      .ok ((.error (.other (.type "bool")), 0), (.error (.other (.type "bool")), 0),
        (.error (.type "bool"), 0)) := by
  decide +kernel

end Squirrels
