import Squirrels.Binding.StringHash
import Squirrels.Vm.StringTable

/-!
# Interned strings

The string tables of the machines of a process behave as one store that has an address for the bytes
of each live string: their buckets, their chains and their growth do not show. So within a machine
two handles have the same bytes exactly when they have the same pointer.
-/

namespace Squirrels

/-- The strings of a process: the string table of every machine, the addresses that the allocator
has handed out to each of them, and the live handles. -/
structure StringProcess where
  tables : VmId → SQStringTable
  allocated : List (VmId × ℕ)
  live : List StringPtr

namespace StringProcess

/-- The process before the first string. -/
def empty : StringProcess := ⟨fun _ => .new, [], []⟩

variable (p : StringProcess)

/-- `String::as_bytes`. -/
def asBytes (s : StringPtr) : List UInt8 := ((p.tables s.sq).memory s.ptr).val.take s.len

/-- `SQString::Create` when the allocator would return the address: the string, and the process. -/
def create (sq : VmId) (bytes : List UInt8) (malloc : ℕ) : ℕ × StringProcess :=
  let (s, t) := (p.tables sq).add bytes malloc
  (s, { p with
    tables := Function.update p.tables sq t
    allocated := if s = malloc then (sq, malloc) :: p.allocated else p.allocated })

/-- What may happen to the strings. -/
inductive Step : StringProcess → StringProcess → Prop where
  /-- The machine makes a string. -/
  | create {p : StringProcess} {sq : VmId} {bytes : List UInt8} {a : ℕ}
      (fresh : ∀ sq', (sq', a) ∉ p.allocated) : Step p (p.create sq bytes a).2
  /-- `String::new` and `String::from_stack`. -/
  | take {p : StringProcess} {sq : VmId} {bytes : List UInt8} {a : ℕ}
      (fresh : ∀ sq', (sq', a) ∉ p.allocated) :
      Step p { (p.create sq bytes a).2 with
        live := ⟨sq, (p.create sq bytes a).1, bytes.length⟩ :: p.live }
  /-- `SQString::Release` of a string that no handle keeps alive. -/
  | release {p : StringProcess} {sq : VmId} {a : ℕ} {t : SQStringTable}
      (mem : (sq, a) ∈ p.allocated) (unused : ∀ s ∈ p.live, s.sq = sq → s.ptr ≠ a)
      (removed : (p.tables sq).remove a = some t) :
      Step p { p with
        tables := Function.update p.tables sq t
        allocated := p.allocated.erase (sq, a) }
  /-- `String::clone`. -/
  | clone {p : StringProcess} {s : StringPtr} (live : s ∈ p.live) :
      Step p { p with live := s :: p.live }
  /-- A handle is dropped. -/
  | drop {p : StringProcess} (s : StringPtr) : Step p { p with live := p.live.erase s }

/-! ## The store -/

/-- The tables are an implementation of the store. -/
structure Implements (store : StringStore) : Prop where
  interns : ∀ sq, (p.tables sq).Interns (store.table sq)
  allocated : ∀ sq a, (sq, a) ∈ p.allocated ↔ ∃ bytes, store.table sq bytes = some a
  once : p.allocated.Nodup
  live : p.live = store.live

section Implements

variable {p} {store : StringStore} {sq : VmId} {bytes : List UInt8} {a : ℕ}

theorem implements_empty : empty.Implements .empty where
  interns _ := SQStringTable.interns_new
  allocated sq a := by simp [empty, StringStore.empty]
  once := List.nodup_nil
  live := rfl

theorem setEntry_here (store : StringStore) (sq : VmId) (bytes : List UInt8) (x : Option ℕ) :
    store.setEntry sq bytes x sq = Function.update (store.table sq) bytes x := by
  funext bytes'
  unfold StringStore.setEntry
  by_cases same : bytes' = bytes
  · rw [if_pos ⟨rfl, same⟩, same, Function.update_self]
  · rw [if_neg (fun h => same h.2), Function.update_of_ne same]

theorem setEntry_elsewhere (store : StringStore) {sq sq' : VmId} (bytes : List UInt8)
    (x : Option ℕ) (other : sq' ≠ sq) : store.setEntry sq bytes x sq' = store.table sq' := by
  funext bytes'
  exact if_neg fun h => other h.1

/-- One table and one entry of the store have changed. -/
theorem interns_update {tables : VmId → SQStringTable} {t : SQStringTable} {x : Option ℕ}
    (interns : ∀ sq', (tables sq').Interns (store.table sq'))
    (here : t.Interns (Function.update (store.table sq) bytes x)) (sq' : VmId) :
    (Function.update tables sq t sq').Interns (store.setEntry sq bytes x sq') := by
  by_cases same : sq' = sq
  · rw [same, Function.update_self, setEntry_here]
    exact here
  · rw [Function.update_of_ne same, setEntry_elsewhere store bytes _ same]
    exact interns sq'

/-- A string that is there is returned, and nothing changes. -/
theorem Implements.create_found (implements : p.Implements store)
    (fresh : ∀ sq', (sq', a) ∉ p.allocated) {s : ℕ} (found : store.table sq bytes = some s) :
    p.create sq bytes a = (s, p) := by
  have other : s ≠ a := fun eq => fresh sq ((implements.allocated sq a).2 ⟨bytes, eq ▸ found⟩)
  unfold create
  rw [(implements.interns sq).add_found a found]
  simp only [if_neg other, Function.update_eq_self]

/-- A string that is not there goes to the new address. -/
theorem Implements.create_new (implements : p.Implements store)
    (fresh : ∀ sq', (sq', a) ∉ p.allocated) (missing : store.table sq bytes = none) :
    (p.create sq bytes a).1 = a ∧ (p.create sq bytes a).2.live = p.live ∧
      (p.create sq bytes a).2.Implements { store with
        table := store.setEntry sq bytes (some a)
        chars := Function.update store.chars a bytes } := by
  have free : ∀ sq' bytes', store.table sq' bytes' ≠ some a := fun sq' bytes' found =>
    fresh sq' ((implements.allocated sq' a).2 ⟨bytes', found⟩)
  obtain ⟨t, added, interns⟩ := (implements.interns sq).add_new missing (free sq)
  unfold create
  rw [added]
  simp only [if_true]
  refine ⟨trivial, trivial, interns_update implements.interns interns, fun sq' a' => ?_,
    List.nodup_cons.2 ⟨fresh sq, implements.once⟩, implements.live⟩
  show (sq', a') ∈ (sq, a) :: p.allocated ↔
    ∃ bytes', store.setEntry sq bytes (some a) sq' bytes' = some a'
  rw [List.mem_cons, implements.allocated sq' a']
  constructor
  · rintro (here | ⟨bytes', found⟩)
    · cases here
      exact ⟨bytes, StringStore.setEntry_self sq bytes (some a)⟩
    · refine ⟨bytes', (StringStore.setEntry_of_table ?_).trans found⟩
      rintro ⟨rfl, rfl⟩
      rw [missing] at found
      cases found
  · rintro ⟨bytes', found⟩
    rcases StringStore.of_setEntry found with ⟨rfl, -, eq⟩ | old
    · exact .inl (by rw [Option.some.inj eq])
    · exact .inr ⟨bytes', old⟩

/-- A string without handles is removed; no assertion fails. -/
theorem Implements.release (implements : p.Implements store) (interned : store.Interned)
    (mem : (sq, a) ∈ p.allocated) : ∃ t bytes, (p.tables sq).remove a = some t ∧
      store.table sq bytes = some a ∧
      Implements { p with
        tables := Function.update p.tables sq t
        allocated := p.allocated.erase (sq, a) }
        { store with table := store.setEntry sq bytes none } := by
  obtain ⟨bytes, found⟩ := (implements.allocated sq a).1 mem
  obtain ⟨t, removed, interns⟩ := (implements.interns sq).remove found
  refine ⟨t, bytes, removed, found, interns_update implements.interns interns, fun sq' a' => ?_,
    implements.once.erase _, implements.live⟩
  show (sq', a') ∈ p.allocated.erase (sq, a) ↔
    ∃ bytes', store.setEntry sq bytes none sq' bytes' = some a'
  rw [implements.once.mem_erase_iff, implements.allocated sq' a']
  constructor
  · rintro ⟨other, bytes', found'⟩
    refine ⟨bytes', (StringStore.setEntry_of_table ?_).trans found'⟩
    rintro ⟨rfl, rfl⟩
    rw [found] at found'
    exact other (by rw [Option.some.inj found'])
  · rintro ⟨bytes', found'⟩
    rcases StringStore.of_setEntry found' with ⟨-, -, eq⟩ | old
    · cases eq
    · refine ⟨fun same => ?_, bytes', old⟩
      obtain ⟨rfl, rfl⟩ := Prod.mk.inj same
      -- an address has one string, and that string is gone
      have eq : bytes' = bytes := by
        rw [← interned.chars _ _ _ old, interned.chars _ _ _ found]
      rw [eq, StringStore.setEntry_self] at found'
      cases found'

/-- Every step of the tables is a few steps of the store. -/
theorem Implements.step {p' : StringProcess} (implements : p.Implements store)
    (interned : store.Interned) (step : Step p p') :
    ∃ store', Relation.ReflTransGen StringStore.Step store store' ∧ p'.Implements store' := by
  cases step with
  | @create sq bytes a fresh =>
    cases found : store.table sq bytes with
    | some s =>
      rw [implements.create_found fresh found]
      exact ⟨store, .refl, implements⟩
    | none =>
      obtain ⟨-, -, implements'⟩ := implements.create_new fresh found
      have free : store.Free a := fun sq' bytes' found' =>
        fresh sq' ((implements.allocated sq' a).2 ⟨bytes', found'⟩)
      exact ⟨_, .single (.add found free), implements'⟩
  | @take sq bytes a fresh =>
    cases found : store.table sq bytes with
    | some s =>
      rw [implements.create_found fresh found]
      refine ⟨_, .single (.take found), implements.interns, implements.allocated, implements.once,
        ?_⟩
      show _ :: p.live = _ :: store.live
      rw [implements.live]
    | none =>
      obtain ⟨here, live, implements'⟩ := implements.create_new fresh found
      have free : store.Free a := fun sq' bytes' found' =>
        fresh sq' ((implements.allocated sq' a).2 ⟨bytes', found'⟩)
      refine ⟨_, (Relation.ReflTransGen.single (.add found free)).tail
        (.take (StringStore.setEntry_self sq bytes (some a))), implements'.interns,
        implements'.allocated, implements'.once, ?_⟩
      show (⟨sq, (p.create sq bytes a).1, bytes.length⟩ : StringPtr) :: p.live = _
      rw [here, implements.live]
  | @release sq a t mem unused removed =>
    obtain ⟨t', bytes, removed', found, implements'⟩ := implements.release interned mem
    obtain rfl : t' = t := Option.some.inj (removed'.symm.trans removed)
    exact ⟨_, .single (.remove found (implements.live ▸ unused)), implements'⟩
  | @clone s live =>
    refine ⟨_, .single (.clone (implements.live ▸ live)), implements.interns,
      implements.allocated, implements.once, ?_⟩
    show s :: p.live = s :: store.live
    rw [implements.live]
  | drop s =>
    refine ⟨_, .single (.drop s), implements.interns, implements.allocated, implements.once, ?_⟩
    show p.live.erase s = store.live.erase s
    rw [implements.live]

/-- Every run of the tables is a run of the store. -/
theorem run_implements (run : Relation.ReflTransGen Step empty p) :
    ∃ store, Relation.ReflTransGen StringStore.Step .empty store ∧ p.Implements store := by
  induction run with
  | refl => exact ⟨_, .refl, implements_empty⟩
  | tail _ step ih =>
    obtain ⟨store, before, implements⟩ := ih
    obtain ⟨store', after, implements'⟩ := implements.step (StringStore.Interned.run before) step
    exact ⟨store', before.trans after, implements'⟩

/-- The bytes that a live handle reads are those of the store. -/
theorem Implements.asBytes (implements : p.Implements store) (interned : store.Interned)
    {s : StringPtr} (live : s ∈ p.live) :
    p.asBytes s = store.asBytes s ∧ store.table s.sq (p.asBytes s) = some s.ptr := by
  obtain ⟨bytes, found, len⟩ := interned.live s (implements.live ▸ live)
  obtain ⟨alive, list, chained, entries⟩ := (implements.interns s.sq).chained
  have val := ((entries bytes s.ptr).1 found).2
  have here : p.asBytes s = bytes := by
    unfold StringProcess.asBytes
    rw [val, len, List.take_length]
  have there : store.asBytes s = bytes := by
    unfold StringStore.asBytes
    rw [interned.chars _ _ _ found, len, List.take_length]
  rw [here, there]
  exact ⟨rfl, found⟩

/-- In every state the tables can reach: two live handles of a machine have the same bytes exactly
when they have the same pointer, a string that is made while a handle has its bytes is the string of
that handle, and a string whose last reference goes is found in its bucket. -/
theorem handles_interned (run : Relation.ReflTransGen Step empty p) :
    (∀ s ∈ p.live, ∀ s' ∈ p.live, s.sq = s'.sq →
      (p.asBytes s = p.asBytes s' ↔ s.ptr = s'.ptr)) ∧
    (∀ s ∈ p.live, ∀ a, (∀ sq, (sq, a) ∉ p.allocated) →
      p.create s.sq (p.asBytes s) a = (s.ptr, p)) ∧
    ∀ sq a, (sq, a) ∈ p.allocated → ∃ t, (p.tables sq).remove a = some t := by
  obtain ⟨store, before, implements⟩ := run_implements run
  have interned := StringStore.Interned.run before
  have found : ∀ s ∈ p.live, store.table s.sq (p.asBytes s) = some s.ptr := fun s live =>
    (implements.asBytes interned live).2
  refine ⟨fun s live s' live' same => ⟨fun eq => ?_, fun eq => ?_⟩,
    fun s live a fresh => implements.create_found fresh (found s live), fun sq a mem => ?_⟩
  · have first := found s live
    rw [eq, same, found s' live'] at first
    exact (Option.some.inj first).symm
  · rw [← interned.chars _ _ _ (found s live), ← interned.chars _ _ _ (found s' live'), eq]
  · obtain ⟨t, -, removed, -⟩ := implements.release interned mem
    exact ⟨t, removed⟩

end Implements

/-- A machine with the strings of the first bytes, more of them than the buckets it starts with. -/
def firstBytes : ℕ → StringProcess
  | 0 => empty
  | k + 1 => ((firstBytes k).create 0 [UInt8.ofNat k] k).2

theorem firstBytes_below (k : ℕ) : ∀ x ∈ (firstBytes k).allocated, x.2 < k := by
  induction k with
  | zero => exact fun x mem => absurd mem List.not_mem_nil
  | succ k ih =>
    intro x mem
    simp only [firstBytes, create] at mem
    split at mem
    · rcases List.mem_cons.1 mem with rfl | old
      · exact Nat.lt_succ_self k
      · exact Nat.lt_succ_of_lt (ih x old)
    · exact Nat.lt_succ_of_lt (ih x mem)

theorem firstBytes_fresh (k : ℕ) (sq : VmId) : (sq, k) ∉ (firstBytes k).allocated := fun mem =>
  absurd (firstBytes_below k _ mem) (Nat.lt_irrefl k)

theorem firstBytes_run (k : ℕ) : Relation.ReflTransGen Step empty (firstBytes k) := by
  induction k with
  | zero => exact .refl
  | succ k ih => exact ih.tail (.create (firstBytes_fresh k))

/-- A handle of one of five strings, and its clone. -/
theorem handles_interned_grown : ∃ p, Relation.ReflTransGen Step empty p ∧
    (p.tables 0).numofslots = 8 ∧ p.live = [⟨0, 3, 1⟩, ⟨0, 3, 1⟩] ∧
    (∀ s ∈ p.live, ∀ s' ∈ p.live, s.sq = s'.sq →
      (p.asBytes s = p.asBytes s' ↔ s.ptr = s'.ptr)) ∧
    (∀ s ∈ p.live, ∀ a, (∀ sq, (sq, a) ∉ p.allocated) →
      p.create s.sq (p.asBytes s) a = (s.ptr, p)) ∧
    ∀ sq a, (sq, a) ∈ p.allocated → ∃ t, (p.tables sq).remove a = some t := by
  have taken := (firstBytes_run 5).tail (@Step.take (firstBytes 5) 0 [3] 5 (firstBytes_fresh 5))
  have cloned := taken.tail (.clone List.mem_cons_self)
  exact ⟨_, cloned, by decide +kernel, by decide +kernel, handles_interned cloned⟩

end StringProcess

end Squirrels
