import Mathlib.Data.List.Basic
import Mathlib.Logic.Relation
import Squirrels.Binding.Object

/-!
# Hashing of strings

Handles of strings are compared by their bytes and hashed by the pointer to the characters. The
pointer is the one of the string table of the machine, where a string stays as long as a handle
refers to it; an address belongs to one live string of one machine.
-/

namespace Squirrels

/-- The fields of a `String` that equality and hashing read. -/
structure StringPtr where
  sq : VmId
  ptr : ℕ
  len : ℕ
deriving DecidableEq, Repr

/-- The strings of a process: the string table of every machine, with the address of the characters
of a string, the characters at an address, and the live handles. -/
structure StringStore where
  table : VmId → List UInt8 → Option ℕ
  chars : ℕ → List UInt8
  live : List StringPtr

namespace StringStore

/-- The process before the first string. -/
def empty : StringStore := ⟨fun _ _ => none, fun _ => [], []⟩

variable (p : StringStore)

/-- `String::as_bytes`. -/
def asBytes (s : StringPtr) : List UInt8 := (p.chars s.ptr).take s.len

/-- `PartialEq` of `String`. -/
def Equal (a b : StringPtr) : Prop := p.asBytes a = p.asBytes b

/-- `Hash` of `String`: what the hasher is fed. -/
def hash (_ : StringStore) (s : StringPtr) : ℕ := s.ptr

/-- No live string has its characters at the address. -/
def Free (a : ℕ) : Prop := ∀ sq bytes, p.table sq bytes ≠ some a

/-- Change one entry of a string table. -/
def setEntry (sq : VmId) (bytes : List UInt8) (x : Option ℕ) : VmId → List UInt8 → Option ℕ :=
  fun sq' bytes' => if sq' = sq ∧ bytes' = bytes then x else p.table sq' bytes'

/-- What may happen to the strings. -/
inductive Step : StringStore → StringStore → Prop where
  /-- `SQStringTable::Add` of a string that is not there yet. -/
  | add {p : StringStore} {sq : VmId} {bytes : List UInt8} {a : ℕ}
      (missing : p.table sq bytes = none) (free : p.Free a) :
      Step p { p with
        table := p.setEntry sq bytes (some a)
        chars := Function.update p.chars a bytes }
  /-- `SQStringTable::Remove` of a string that no handle keeps alive. -/
  | remove {p : StringStore} {sq : VmId} {bytes : List UInt8} {a : ℕ}
      (found : p.table sq bytes = some a) (unused : ∀ s ∈ p.live, s.sq = sq → s.ptr ≠ a) :
      Step p { p with table := p.setEntry sq bytes none }
  /-- `String::new` and `String::from_stack`, once the string is in the table. -/
  | take {p : StringStore} {sq : VmId} {bytes : List UInt8} {a : ℕ}
      (found : p.table sq bytes = some a) :
      Step p { p with live := ⟨sq, a, bytes.length⟩ :: p.live }
  /-- `String::clone`. -/
  | clone {p : StringStore} {s : StringPtr} (live : s ∈ p.live) :
      Step p { p with live := s :: p.live }
  /-- A handle is dropped. -/
  | drop {p : StringStore} (s : StringPtr) : Step p { p with live := p.live.erase s }

/-- The characters of a string are at its address, an address belongs to one machine, and a live
handle refers to a string of the table. -/
structure Interned : Prop where
  chars : ∀ sq bytes a, p.table sq bytes = some a → p.chars a = bytes
  apart : ∀ sq sq' bytes bytes' a, p.table sq bytes = some a → p.table sq' bytes' = some a →
    sq = sq'
  live : ∀ s ∈ p.live, ∃ bytes, p.table s.sq bytes = some s.ptr ∧ s.len = bytes.length

theorem interned_empty : empty.Interned :=
  ⟨fun _ _ _ absurd => (Option.some_ne_none _ absurd.symm).elim,
    fun _ _ _ _ _ absurd => (Option.some_ne_none _ absurd.symm).elim,
    fun _ mem => (List.not_mem_nil mem).elim⟩

variable {p}

theorem setEntry_self (sq : VmId) (bytes : List UInt8) (x : Option ℕ) :
    p.setEntry sq bytes x sq bytes = x := if_pos ⟨rfl, rfl⟩

/-- An entry of the changed table is the new one or an old one. -/
theorem of_setEntry {sq sq' : VmId} {bytes bytes' : List UInt8} {x : Option ℕ} {a : ℕ}
    (found : p.setEntry sq bytes x sq' bytes' = some a) :
    (sq' = sq ∧ bytes' = bytes ∧ x = some a) ∨ p.table sq' bytes' = some a := by
  unfold setEntry at found
  split at found
  · rename_i here
    exact .inl ⟨here.1, here.2, found⟩
  · exact .inr found

theorem setEntry_of_table {sq sq' : VmId} {bytes bytes' : List UInt8} {x : Option ℕ}
    (other : ¬ (sq' = sq ∧ bytes' = bytes)) :
    p.setEntry sq bytes x sq' bytes' = p.table sq' bytes' := if_neg other

theorem Interned.add (interned : p.Interned) {sq : VmId} {bytes : List UInt8} {a : ℕ}
    (missing : p.table sq bytes = none) (free : p.Free a) :
    Interned { p with
      table := p.setEntry sq bytes (some a)
      chars := Function.update p.chars a bytes } where
  chars sq' bytes' a' found := by
    rcases of_setEntry found with ⟨-, rfl, here⟩ | old
    · obtain rfl := Option.some.inj here
      exact Function.update_self _ _ _
    · have other : a' ≠ a := fun eq => free sq' bytes' (eq ▸ old)
      exact (Function.update_of_ne other _ _).trans (interned.chars sq' bytes' a' old)
  apart sq₁ sq₂ bytes₁ bytes₂ a' found found' := by
    rcases of_setEntry found with ⟨rfl, -, here⟩ | old <;>
      rcases of_setEntry found' with ⟨rfl, -, here'⟩ | old'
    · rfl
    · exact (free sq₂ bytes₂ (Option.some.inj here ▸ old')).elim
    · exact (free sq₁ bytes₁ (Option.some.inj here' ▸ old)).elim
    · exact interned.apart sq₁ sq₂ bytes₁ bytes₂ a' old old'
  live s mem := by
    obtain ⟨bytes', found, len⟩ := interned.live s mem
    refine ⟨bytes', (setEntry_of_table ?_).trans found, len⟩
    rintro ⟨rfl, rfl⟩
    rw [missing] at found
    cases found

theorem Interned.remove (interned : p.Interned) {sq : VmId} {bytes : List UInt8} {a : ℕ}
    (found : p.table sq bytes = some a) (unused : ∀ s ∈ p.live, s.sq = sq → s.ptr ≠ a) :
    Interned { p with table := p.setEntry sq bytes none } where
  chars sq' bytes' a' found' := by
    rcases of_setEntry found' with ⟨-, -, gone⟩ | old
    · cases gone
    · exact interned.chars sq' bytes' a' old
  apart sq₁ sq₂ bytes₁ bytes₂ a' found₁ found₂ := by
    rcases of_setEntry found₁ with ⟨-, -, gone⟩ | old
    · cases gone
    · rcases of_setEntry found₂ with ⟨-, -, gone⟩ | old'
      · cases gone
      · exact interned.apart sq₁ sq₂ bytes₁ bytes₂ a' old old'
  live s mem := by
    obtain ⟨bytes', kept, len⟩ := interned.live s mem
    refine ⟨bytes', (setEntry_of_table ?_).trans kept, len⟩
    rintro ⟨rfl, rfl⟩
    rw [found] at kept
    exact unused s mem rfl (Option.some.inj kept).symm

theorem Interned.step {p' : StringStore} (interned : p.Interned) (step : Step p p') :
    p'.Interned := by
  cases step with
  | add missing free => exact interned.add missing free
  | remove found unused => exact interned.remove found unused
  | @take sq bytes a found =>
    refine ⟨interned.chars, interned.apart, fun s mem => ?_⟩
    rcases List.mem_cons.1 mem with rfl | old
    · exact ⟨bytes, found, rfl⟩
    · exact interned.live s old
  | clone live =>
    refine ⟨interned.chars, interned.apart, fun s mem => ?_⟩
    rcases List.mem_cons.1 mem with rfl | old
    · exact interned.live s live
    · exact interned.live s old
  | drop s =>
    exact ⟨interned.chars, interned.apart, fun s' mem =>
      interned.live s' (List.mem_of_mem_erase mem)⟩

theorem Interned.run (run : Relation.ReflTransGen Step empty p) : p.Interned := by
  induction run with
  | refl => exact interned_empty
  | tail _ step ih => exact ih.step step

theorem Interned.found (interned : p.Interned) {s : StringPtr} (mem : s ∈ p.live) :
    p.table s.sq (p.asBytes s) = some s.ptr := by
  obtain ⟨bytes, found, len⟩ := interned.live s mem
  have same : p.asBytes s = bytes := by
    unfold asBytes
    rw [interned.chars _ _ _ found, len, List.take_length]
  rw [same]
  exact found

/-- Equal live handles feed the hasher the same data exactly when they are of one machine. -/
theorem hash_agrees_iff (run : Relation.ReflTransGen Step empty p) {a b : StringPtr}
    (liveA : a ∈ p.live) (liveB : b ∈ p.live) :
    (p.Equal a b → p.hash a = p.hash b) ↔ (p.asBytes a ≠ p.asBytes b ∨ a.sq = b.sq) := by
  have interned := Interned.run run
  have foundA := interned.found liveA
  have foundB := interned.found liveB
  constructor
  · intro agrees
    refine or_iff_not_imp_left.2 fun equal => ?_
    have same : a.ptr = b.ptr := agrees (not_not.1 equal)
    rw [same] at foundA
    exact interned.apart _ _ _ _ _ foundA foundB
  · rintro (differ | here) equal
    · exact (differ equal).elim
    · unfold Equal at equal
      rw [here, equal, foundB] at foundA
      exact (Option.some.inj foundA).symm

/-- `String::new` of a string that is not in the table of the machine yet. -/
theorem run_new (run : Relation.ReflTransGen Step empty p) {sq : VmId} {bytes : List UInt8} {a : ℕ}
    (missing : p.table sq bytes = none) (free : p.Free a) :
    Relation.ReflTransGen Step empty ⟨p.setEntry sq bytes (some a), Function.update p.chars a bytes,
      ⟨sq, a, bytes.length⟩ :: p.live⟩ :=
  (run.tail (.add missing free)).tail (.take (setEntry_self sq bytes (some a)))

/-- One byte as a string of the machines 0 and 1, with a handle of each. -/
theorem twice_reachable : ∃ p, Relation.ReflTransGen Step empty p ∧ ⟨0, 0, 1⟩ ∈ p.live ∧
    ⟨1, 1, 1⟩ ∈ p.live ∧ p.Equal ⟨0, 0, 1⟩ ⟨1, 1, 1⟩ := by
  have first := @run_new empty .refl 0 [97] 0 rfl fun _ _ absurd =>
    (Option.some_ne_none 0 absurd.symm).elim
  have second := @run_new _ first 1 [97] 1 rfl fun sq bytes found => by
    rcases of_setEntry found with ⟨-, -, eq⟩ | old
    · simp at eq
    · simp [empty] at old
  exact ⟨_, second, by simp, by simp, by simp [Equal, asBytes]⟩

/-- Strings of different bytes on two machines, and a clone of the first handle. -/
theorem hash_agrees_apart : ∃ p, Relation.ReflTransGen Step empty p ∧
    p.live = [⟨0, 0, 1⟩, ⟨1, 1, 1⟩, ⟨0, 0, 1⟩] ∧ p.asBytes ⟨0, 0, 1⟩ = [97] ∧
    p.asBytes ⟨1, 1, 1⟩ = [98] ∧
    (p.Equal ⟨0, 0, 1⟩ ⟨0, 0, 1⟩ → p.hash ⟨0, 0, 1⟩ = p.hash ⟨0, 0, 1⟩) ∧
    (p.Equal ⟨0, 0, 1⟩ ⟨1, 1, 1⟩ → p.hash ⟨0, 0, 1⟩ = p.hash ⟨1, 1, 1⟩) := by
  have first := @run_new empty .refl 0 [97] 0 rfl fun _ _ absurd =>
    (Option.some_ne_none 0 absurd.symm).elim
  have second := @run_new _ first 1 [98] 1 rfl fun sq bytes found => by
    rcases of_setEntry found with ⟨-, -, eq⟩ | old
    · simp at eq
    · simp [empty] at old
  have cloned := second.tail (.clone (s := ⟨0, 0, 1⟩) (by simp [empty]))
  refine ⟨_, cloned, rfl, rfl, rfl, ?_, ?_⟩
  · exact (hash_agrees_iff cloned (by simp) (by simp)).2 (.inr rfl)
  · exact (hash_agrees_iff cloned (by simp) (by simp)).2 (.inl (by decide))

/-- Equal strings of two machines are hashed differently. -/
theorem hash_differs : ∃ p a b, Relation.ReflTransGen Step empty p ∧ a ∈ p.live ∧ b ∈ p.live ∧
    ¬ (p.Equal a b → p.hash a = p.hash b) := by
  obtain ⟨p, run, first, second, equal⟩ := twice_reachable
  exact ⟨p, _, _, run, first, second, fun agrees => absurd (agrees equal) Nat.zero_ne_one⟩

end StringStore

end Squirrels
