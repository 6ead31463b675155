import Mathlib.Data.Finmap
import Squirrels.Lib.Simulation
import Squirrels.Vm.TableLaws

/-!
# Tables as finite maps

A hash table answers every run of calls like a finite map, whatever the hash of its keys: nodes that
are moved out of a main position, free places, growth and shrinking do not show. An iteration of the
table meets each slot of the map once.
-/

namespace Squirrels

/-- A call on a table. -/
inductive TableCall where
  | get (key : SQObject)
  | set (key val : SQObject)
  | newSlot (key val : SQObject)
  | remove (key : SQObject)
  | clear
  | clone
  | countUsed
deriving DecidableEq, Repr

/-- What such a call returns. -/
inductive TableAnswer where
  | none
  | value (val : Option SQObject)
  | written (found : Bool)
  | created (fresh : Bool)
  | count (n : ℕ)
deriving DecidableEq, Repr

namespace SQTable

variable (hash : SQObject → ℕ) (t : SQTable)

/-- The calls on the nodes. `clone` goes on with the copy. `NewSlot` asserts that the key is not
null. -/
def call : TableCall → Option (TableAnswer × SQTable)
  | .get key => some (.value (t.get hash key), t)
  | .set key val =>
    match t.set hash key val with
    | some t' => some (.written true, t')
    | none => some (.written false, t)
  | .newSlot key val =>
    if key = .null then none
    else some (.created (t.newSlotResult hash key val), t.newSlot hash key val)
  | .remove key => some (.none, t.remove hash key)
  | .clear => some (.none, t.clear hash)
  | .clone => some (.none, t.clone hash)
  | .countUsed => some (.count t.countUsed, t)

end SQTable

/-- The slots of a table. -/
abbrev SlotMap := Finmap fun _ : SQObject => SQObject

/-- The calls on a finite map. To write or to remove a null key has no answer: the search for it
stops at an empty node, which `Set` then writes and `Remove` takes out of the count. -/
def TableCall.spec (m : SlotMap) : TableCall → Option (TableAnswer × SlotMap)
  | .get key => some (.value (m.lookup key), m)
  | .set key val =>
    if key = .null then none
    else if key ∈ m then some (.written true, m.insert key val) else some (.written false, m)
  | .newSlot key val =>
    if key = .null then none else some (.created (key ∉ m), m.insert key val)
  | .remove key => if key = .null then none else some (.none, m.erase key)
  | .clear => some (.none, ∅)
  | .clone => some (.none, m)
  | .countUsed => some (.count m.keys.card, m)

/-- The answer of the nodes agrees with that of the map. `NewSlot` tells of a new slot only when
there is one, and not when no free place was left for it (`WellFormed.newSlotResult_iff`). -/
def TableAnswer.Agrees : TableAnswer → TableAnswer → Prop
  | .created fresh, .created fresh' => fresh = true → fresh' = true
  | answer, answer' => answer = answer'

theorem TableAnswer.Agrees.refl (answer : TableAnswer) : answer.Agrees answer := by
  cases answer with
  | created fresh => exact id
  | none => rfl
  | value val => rfl
  | written found => rfl
  | count n => rfl

namespace SQTable

variable {hash : SQObject → ℕ} {t t' : SQTable} {m : SlotMap} {key val : SQObject}

/-- The table is an implementation of the map. -/
structure Represents (hash : SQObject → ℕ) (t : SQTable) (m : SlotMap) : Prop where
  wellFormed : t.WellFormed hash
  slots : ∀ k v, k ≠ .null → (t.Holds k v ↔ m.lookup k = some v)
  nonnull : SQObject.null ∉ m

theorem Represents.get_eq (represents : Represents hash t m) (key : SQObject) :
    t.get hash key = m.lookup key := by
  by_cases null : key = .null
  · rw [null, Finmap.lookup_eq_none.2 represents.nonnull, get, if_pos rfl]
  · apply Option.ext
    intro v
    rw [represents.wellFormed.get_eq_some_iff null, represents.slots key v null]

theorem Represents.mem_keys (represents : Represents hash t m) (k : SQObject) :
    k ∈ t.keys ↔ k ∈ m := by
  rw [SQTable.mem_keys]
  constructor
  · rintro ⟨nonnull, v, held⟩
    exact Finmap.mem_of_lookup_eq_some ((represents.slots k v nonnull).1 held)
  · intro mem
    have nonnull : k ≠ .null := fun null => represents.nonnull (null ▸ mem)
    obtain ⟨v, found⟩ := Finmap.mem_iff.1 mem
    exact ⟨nonnull, v, (represents.slots k v nonnull).2 found⟩

theorem Represents.countUsed_eq (represents : Represents hash t m) :
    t.countUsed = m.keys.card := by
  rw [← represents.wellFormed.card_keys]
  congr 1
  ext k
  rw [represents.mem_keys, Finmap.mem_keys]

theorem Represents.set_isSome (represents : Represents hash t m) (nonnull : key ≠ .null) :
    (t.set hash key val).isSome ↔ key ∈ m := by
  rw [SQTable.set, Option.isSome_map, ← represents.mem_keys, SQTable.mem_keys]
  constructor
  · intro some
    obtain ⟨i, found⟩ := Option.isSome_iff_exists.1 some
    exact ⟨nonnull, _, i, (represents.wellFormed.find_eq_some_iff nonnull).1 found, rfl⟩
  · rintro ⟨-, v, i, isKey, -⟩
    rw [(represents.wellFormed.find_eq_some_iff nonnull).2 isKey]
    rfl

/-- A slot with a new value. -/
theorem Represents.put (represents : Represents hash t m) (nonnull : key ≠ .null)
    (wf : WellFormed hash t') (put : Put t t' key val) : Represents hash t' (m.insert key val) where
  wellFormed := wf
  slots k v notNull := by
    rw [put k v notNull]
    by_cases same : k = key
    · rw [if_pos same, same, Finmap.lookup_insert, Option.some.injEq]
      exact eq_comm
    · rw [if_neg same, Finmap.lookup_insert_of_ne m same]
      exact represents.slots k v notNull
  nonnull mem := by
    rcases Finmap.mem_insert.1 mem with null | mem
    · exact nonnull null.symm
    · exact represents.nonnull mem

theorem Represents.drop (represents : Represents hash t m) (wf : WellFormed hash t')
    (dropped : Dropped t t' key) : Represents hash t' (m.erase key) where
  wellFormed := wf
  slots k v notNull := by
    rw [dropped k v notNull]
    by_cases same : k = key
    · rw [same, Finmap.lookup_erase]
      exact ⟨fun both => absurd rfl both.1, fun found => by cases found⟩
    · rw [Finmap.lookup_erase_ne same, ← represents.slots k v notNull]
      exact and_iff_right same
  nonnull mem := represents.nonnull (Finmap.mem_erase.1 mem).2

theorem represents_empty (wf : WellFormed hash t) (none : ∀ k v, k ≠ .null → ¬ t.Holds k v) :
    Represents hash t ∅ where
  wellFormed := wf
  slots k v notNull := by
    rw [Finmap.lookup_empty]
    exact ⟨fun held => absurd held (none k v notNull), fun found => by cases found⟩
  nonnull := Finmap.notMem_empty

theorem represents_create (hash : SQObject → ℕ) (initialSize : ℕ) :
    Represents hash (create initialSize) ∅ :=
  represents_empty (wellFormed_create hash initialSize) fun _ _ nonnull =>
    not_holds_allocNodes nonnull

/-- `NewSlot` tells of a new slot only when the map has none for the key. -/
theorem Represents.newSlotResult (represents : Represents hash t m) (nonnull : key ≠ .null)
    (fresh : t.newSlotResult hash key val = true) : key ∉ m := by
  intro mem
  obtain ⟨-, v, i, isKey, -⟩ := SQTable.mem_keys.1 ((represents.mem_keys key).2 mem)
  exact ((represents.wellFormed.newSlotResult_iff nonnull val).1 fresh).1 i isKey

/-- The answers of the nodes agree with those of the map. -/
theorem call_simulates :
    Calls.SimulatesUpTo TableAnswer.Agrees (Represents hash) (call hash) TableCall.spec := by
  intro t m c answer m' represents spec
  cases c with
  | get key =>
    cases spec
    exact ⟨_, t, by rw [call, represents.get_eq], .refl _, represents⟩
  | set key val =>
    rw [TableCall.spec] at spec
    split at spec
    · cases spec
    · rename_i nonnull
      have there : (t.set hash key val).isSome ↔ key ∈ m := represents.set_isSome nonnull
      cases done : t.set hash key val with
      | some t' =>
        rw [if_pos (there.1 (by rw [done]; rfl))] at spec
        cases spec
        exact ⟨_, t', by rw [call, done], .refl _, represents.put nonnull
          (represents.wellFormed.set done).1 (represents.wellFormed.set_put nonnull done)⟩
      | none =>
        rw [if_neg fun mem => by simpa [done] using there.2 mem] at spec
        cases spec
        exact ⟨_, t, by rw [call, done], .refl _, represents⟩
  | newSlot key val =>
    rw [TableCall.spec] at spec
    split at spec
    · cases spec
    · rename_i nonnull
      cases spec
      obtain ⟨wf, put⟩ := represents.wellFormed.newSlot nonnull val
      exact ⟨.created _, _, by rw [call, if_neg nonnull],
        fun fresh => decide_eq_true (represents.newSlotResult nonnull fresh),
        represents.put nonnull wf put⟩
  | remove key =>
    rw [TableCall.spec] at spec
    split at spec
    · cases spec
    · rename_i nonnull
      cases spec
      obtain ⟨wf, dropped⟩ := represents.wellFormed.remove nonnull
      exact ⟨_, _, rfl, .refl _, represents.drop wf dropped⟩
  | clear =>
    cases spec
    obtain ⟨wf, none⟩ := represents.wellFormed.clear
    exact ⟨_, _, rfl, .refl _, represents_empty wf none⟩
  | clone =>
    cases spec
    obtain ⟨wf, same⟩ := represents.wellFormed.clone
    exact ⟨_, _, rfl, .refl _, wf,
      fun k v nonnull => (same k v nonnull).trans (represents.slots k v nonnull),
      represents.nonnull⟩
  | countUsed =>
    cases spec
    exact ⟨_, t, by rw [call, represents.countUsed_eq], .refl _, represents⟩

/-- What calls of `Next` return, from a position on until there is nothing to iterate anymore. -/
def iterate (t : SQTable) : ℕ → ℕ → Option (List (SQObject × SQObject))
  | 0, _ => none
  | fuel + 1, idx =>
    match t.next idx with
    | none => some []
    | some (idx', n) => (t.iterate fuel idx').map ((n.key, n.val) :: ·)

/-- An iteration returns the entries that are not behind it. -/
theorem Behind.iterate {k p fuel : ℕ} (behind : t.Behind k p) (le : k ≤ t.entries.length)
    (enough : t.entries.length < k + fuel) :
    t.iterate fuel p = some ((t.entries.drop k).map fun n => (n.key, n.val)) := by
  induction fuel generalizing k p with
  | zero => omega
  | succ fuel ih =>
    have next := behind.next
    rw [SQTable.iterate]
    cases entry : t.entries[k]? with
    | none =>
      rw [entry] at next
      rw [next, List.drop_eq_nil_of_le (List.getElem?_eq_none_iff.1 entry)]
      rfl
    | some n =>
      rw [entry] at next
      obtain ⟨p', step, behind'⟩ := next
      obtain ⟨lt, isN⟩ := List.getElem?_eq_some_iff.1 entry
      rw [step, List.drop_eq_getElem_cons lt, isN]
      simp only [ih behind' lt (by omega), Option.map_some, List.map_cons]

/-- From a new table on, every run that a finite map answers is answered by the hash table, with
answers that agree, and at its end an iteration of the table meets the slots of the map, each key
once. -/
theorem run_finmap {initialSize : ℕ} {calls : List TableCall} {answers : List TableAnswer}
    (ran : Calls.run TableCall.spec ∅ calls = some (answers, m)) :
    ∃ answers' t, Calls.run (call hash) (create initialSize) calls = some (answers', t) ∧
      List.Forall₂ TableAnswer.Agrees answers' answers ∧
      ∃ slots, t.iterate (t.nodes.length + 1) 0 = some slots ∧
        (slots.map Prod.fst).Nodup ∧ ∀ k v, (k, v) ∈ slots ↔ m.lookup k = some v := by
  obtain ⟨answers', t, ran', agree, represents⟩ :=
    call_simulates.run (represents_create hash initialSize) ran
  have short : t.entries.length ≤ t.nodes.length := List.length_filter_le _ _
  have iterated : t.iterate (t.nodes.length + 1) 0 = some _ :=
    (behind_zero t).iterate (Nat.zero_le _) (by omega)
  refine ⟨answers', t, ran', agree, _, iterated, ?_, fun k v => ?_⟩
  · rw [List.drop_zero, List.map_map]
    exact represents.wellFormed.nodup_entries
  · have entry : (k, v) ∈ (t.entries.drop 0).map (fun n => (n.key, n.val)) ↔
        k ≠ .null ∧ t.Holds k v := by
      rw [← mem_entries, List.drop_zero, List.mem_map]
      exact exists_congr fun n => and_congr_right fun _ => Prod.ext_iff
    rw [entry]
    constructor
    · rintro ⟨nonnull, held⟩
      exact (represents.slots k v nonnull).1 held
    · intro found
      have nonnull : k ≠ .null := fun null =>
        represents.nonnull (null ▸ Finmap.mem_of_lookup_eq_some found)
      exact ⟨nonnull, (represents.slots k v nonnull).2 found⟩

/-- Five keys with one hash, of which one is written again and one goes. -/
def collidingKeys : List TableCall :=
  (List.range 5).map (fun k => .newSlot (.integer k) (.integer (k * k))) ++
    [.newSlot (.integer 4) .null, .remove (.integer 2), .get (.integer 2), .get (.integer 3),
      .set (.integer 2) .null, .countUsed]

theorem run_finmap_colliding : ∃ answers t,
    Calls.run (call fun _ => 0) (create 0) collidingKeys = some (answers, t) ∧
      List.Forall₂ TableAnswer.Agrees answers
        [.created true, .created true, .created true, .created true, .created true, .created false,
          .none, .value none, .value (some (.integer 9)), .written false, .count 4] ∧
      ∃ slots, t.iterate (t.nodes.length + 1) 0 = some slots ∧
        (slots.map Prod.fst).Nodup ∧ ∀ k v, (k, v) ∈ slots ↔
          (Calls.run TableCall.spec ∅ collidingKeys).get!.2.lookup k = some v :=
  run_finmap (by decide +kernel)

-- the fourth slot of a new table takes its last place, and `NewSlot` does not tell of it
example : (Calls.run (call fun _ => 0) (create 0) collidingKeys).map Prod.fst =
    some [.created true, .created true, .created true, .created false, .created true,
      .created false, .none, .value none, .value (some (.integer 9)), .written false,
      .count 4] := by
  decide +kernel

end SQTable

end Squirrels
