import Mathlib.Logic.Relation
import Squirrels.Binding.Squirrel
import Squirrels.Lib.ByteMemory

/-!
# The payload of a userdata

`UserData::new` boxes a `Payload<U>`, the type identifier of `U` and a `RefCell<U>`. `borrow::<T>`
and `borrow_mut::<T>` cast the box to `Payload<T>` and read the identifier where that type has it.
The compiler lays out every instance of `Payload` as it likes, so the bytes that are read may be any
bytes of the stored payload, or bytes behind it.
-/

namespace Squirrels

/-- `isize::MAX`. -/
def isizeMax : ℕ := 2 ^ 63 - 1

/-- Where the compiler has put the fields of a `Payload`: the `TypeId` of 16 bytes, the flag of the
`RefCell` of 8 bytes and its value. -/
structure Layout where
  typeId : ℕ
  flag : ℕ
  value : ℕ
  size : ℕ
  typeId_flag : typeId + 16 ≤ flag ∨ flag + 8 ≤ typeId
  typeId_value : typeId + 16 ≤ value ∨ value + size ≤ typeId
  flag_value : flag + 8 ≤ value ∨ value + size ≤ flag

/-- The types of a program, with their identifiers and the layouts of their payloads. -/
structure RustTypes where
  Ty : Type
  typeId : Ty → List UInt8
  layout : Ty → Layout
  typeId_length : ∀ T, (typeId T).length = 16
  typeId_injective : Function.Injective typeId

/-- A userdata with the memory that its box is in. The live borrows are counted on the side: those
of the value, and the parts of the mutable one. -/
structure BoxedPayload where
  base : ℕ
  tag : ℕ
  mem : ByteMemory
  shared : ℕ
  exclusive : ℕ

/-! ## The flag of a `RefCell` -/

namespace BorrowFlag

theorem toInt_add_one {x : BitVec 64} (room : x.toInt < isizeMax) :
    (x + 1).toInt = x.toInt + 1 := by
  have low := x.le_toInt
  unfold isizeMax at room
  rw [BitVec.toInt_add, show (1 : BitVec 64).toInt = 1 from rfl]
  exact Int.bmod_eq_of_le (by omega) (by omega)

theorem toInt_sub_one {x : BitVec 64} (room : -2 ^ 63 < x.toInt) : (x - 1).toInt = x.toInt - 1 := by
  have high := x.toInt_lt
  rw [BitVec.toInt_sub, show (1 : BitVec 64).toInt = 1 from rfl]
  exact Int.bmod_eq_of_le (by omega) (by omega)

theorem toInt_add_one_full {x : BitVec 64} (full : x.toInt = isizeMax) : (x + 1).toInt ≤ 0 := by
  rw [BitVec.toInt_add, show (1 : BitVec 64).toInt = 1 from rfl, full]
  decide

theorem eq_zero_iff {x : BitVec 64} : x = 0 ↔ x.toInt = 0 := by
  rw [← BitVec.toInt_inj]
  rfl

end BorrowFlag

/-! ## Dispatch -/

namespace BoxedPayload

variable (rust : RustTypes) (T U : rust.Ty) (s : BoxedPayload)

/-- `UserData::new`, with the bytes of the value, in a box at an address of the memory. -/
def new (value : List UInt8) (base : ℕ) (mem : ByteMemory) : BoxedPayload :=
  { base := base
    tag := userdataTag
    mem := ((mem.write (base + (rust.layout U).value) value).writeWord
      (base + (rust.layout U).flag) 0).write (base + (rust.layout U).typeId) (rust.typeId U)
    shared := 0
    exclusive := 0 }

/-- The type identifier of the box, seen as a `Payload<T>`. -/
def typeId : List UInt8 := s.mem.read (s.base + (rust.layout T).typeId) 16

/-- The flag of the box, seen as a `Payload<T>`. -/
def flag : BitVec 64 := s.mem.readWord (s.base + (rust.layout T).flag)

/-- Set the flag of the box, seen as a `Payload<T>`. -/
def setFlag (b : BitVec 64) : BoxedPayload :=
  { s with mem := s.mem.writeWord (s.base + (rust.layout T).flag) b }

/-- `UserData::payload`. -/
def payload : Except Error Unit :=
  if s.tag ≠ userdataTag then .error (.type "a userdata object allocated by us")
  else if s.typeId rust T ≠ rust.typeId T then .error (.type "userdata of matching type")
  else .ok ()

/-- `UserData::borrow`: the address of the value. `RefCell::try_borrow` counts in the flag, and
fails when the count is not positive. -/
def borrow : Except Error ℕ × BoxedPayload :=
  match s.payload rust T with
  | .error e => (.error e, s)
  | .ok () =>
    let b := s.flag rust T + 1
    if 0 < b.toInt then
      (.ok (s.base + (rust.layout T).value), { s.setFlag rust T b with shared := s.shared + 1 })
    else (.error (.type "userdata not currently mutably borrowed"), s)

/-- `UserData::borrow_mut`: the address of the value. `RefCell::try_borrow_mut` fails unless the
flag is zero. -/
def borrowMut : Except Error ℕ × BoxedPayload :=
  match s.payload rust T with
  | .error e => (.error e, s)
  | .ok () =>
    if s.flag rust T = 0 then
      (.ok (s.base + (rust.layout T).value),
        { s.setFlag rust T (-1) with exclusive := s.exclusive + 1 })
    else (.error (.type "userdata not currently immutably borrowed"), s)

/-- What dispatch promises at the type `T` for a stored `U`: `Ok` is the stored value at its own
type, and is given exactly when the live borrows allow it; an error is `Error::Type` and changes
nothing. -/
structure Sound : Prop where
  borrow_ok : ∀ a s', s.borrow rust T = (.ok a, s') → T = U ∧ a = s.base + (rust.layout U).value
  borrow_iff : T = U → ((∃ a s', s.borrow rust T = (.ok a, s')) ↔ s.exclusive = 0)
  borrow_err : ∀ e s', s.borrow rust T = (.error e, s') → (∃ expected, e = .type expected) ∧ s' = s
  borrowMut_ok : ∀ a s', s.borrowMut rust T = (.ok a, s') →
    T = U ∧ a = s.base + (rust.layout U).value
  borrowMut_iff : T = U →
    ((∃ a s', s.borrowMut rust T = (.ok a, s')) ↔ s.shared = 0 ∧ s.exclusive = 0)
  borrowMut_err : ∀ e s', s.borrowMut rust T = (.error e, s') →
    (∃ expected, e = .type expected) ∧ s' = s

/-- The bytes where `T` has its identifier are not that of `T`, or the bytes where it has its flag
refuse a borrow; and the live borrows can be counted. -/
structure Distinct : Prop where
  other : T ≠ U → s.typeId rust T ≠ rust.typeId T ∨ (s.flag rust T + 1).toInt ≤ 0
  counted : T = U → s.exclusive = 0 → s.shared < isizeMax

/-- A step of a history. A `Ref` may be cloned and a `RefMut` split, and the bytes of the value,
like those outside of the fields, may change at any time. -/
inductive Step : BoxedPayload → BoxedPayload → Prop where
  | borrow {s : BoxedPayload} (T : rust.Ty) (distinct : Distinct rust T U s) :
      Step s (s.borrow rust T).2
  | borrowMut {s : BoxedPayload} (T : rust.Ty) (distinct : Distinct rust T U s) :
      Step s (s.borrowMut rust T).2
  | cloneRef {s : BoxedPayload} (live : 0 < s.shared) (room : s.shared < isizeMax) :
      Step s { s.setFlag rust U (s.flag rust U + 1) with shared := s.shared + 1 }
  | dropRef {s : BoxedPayload} (live : 0 < s.shared) :
      Step s { s.setFlag rust U (s.flag rust U - 1) with shared := s.shared - 1 }
  | splitRefMut {s : BoxedPayload} (live : 0 < s.exclusive) (room : s.exclusive ≤ isizeMax) :
      Step s { s.setFlag rust U (s.flag rust U - 1) with exclusive := s.exclusive + 1 }
  | dropRefMut {s : BoxedPayload} (live : 0 < s.exclusive) :
      Step s { s.setFlag rust U (s.flag rust U + 1) with exclusive := s.exclusive - 1 }
  | writes {s : BoxedPayload} (mem : ByteMemory)
      (typeId : mem.read (s.base + (rust.layout U).typeId) 16 = s.typeId rust U)
      (flag : mem.readWord (s.base + (rust.layout U).flag) = s.flag rust U) :
      Step s { s with mem := mem }

/-- The box holds the identifier of its type and a flag that counts the live borrows. -/
structure Counted : Prop where
  tag : s.tag = userdataTag
  typeId : s.typeId rust U = rust.typeId U
  flag : (s.flag rust U).toInt = (s.shared : ℤ) - s.exclusive
  alone : s.shared = 0 ∨ s.exclusive = 0

variable {rust T U s}

theorem new_counted (value : List UInt8) (base : ℕ) (mem : ByteMemory) :
    (new rust U value base mem).Counted rust U where
  tag := rfl
  typeId := by
    have written := @ByteMemory.read_write_self ((mem.write (base + (rust.layout U).value)
      value).writeWord (base + (rust.layout U).flag) 0) (base + (rust.layout U).typeId)
        (rust.typeId U)
    rw [rust.typeId_length] at written
    exact written
  flag := by
    have apart : base + (rust.layout U).flag + 8 ≤ base + (rust.layout U).typeId ∨
        base + (rust.layout U).typeId + (rust.typeId U).length ≤ base + (rust.layout U).flag := by
      have := (rust.layout U).typeId_flag
      rw [rust.typeId_length]
      omega
    have word : (new rust U value base mem).flag rust U = 0 := by
      unfold flag new ByteMemory.readWord
      rw [ByteMemory.read_write_apart apart]
      exact ByteMemory.readWord_writeWord _ _
    rw [word]
    rfl
  alone := .inl rfl

section Steps

variable (counted : s.Counted rust U)

include counted

/-- The flag is rewritten with other counts. -/
theorem Counted.setFlag {b : BitVec 64} {shared exclusive : ℕ}
    (flag : b.toInt = (shared : ℤ) - exclusive) (alone : shared = 0 ∨ exclusive = 0) :
    ({ s.setFlag rust U b with shared := shared, exclusive := exclusive } :
      BoxedPayload).Counted rust U where
  tag := counted.tag
  typeId := by
    have apart : s.base + (rust.layout U).typeId + 16 ≤ s.base + (rust.layout U).flag ∨
        s.base + (rust.layout U).flag + 8 ≤ s.base + (rust.layout U).typeId := by
      have := (rust.layout U).typeId_flag
      omega
    exact (ByteMemory.read_writeWord_apart apart).trans counted.typeId
  flag := by
    refine Eq.trans (congrArg BitVec.toInt ?_) flag
    exact ByteMemory.readWord_writeWord _ _
  alone := alone

theorem Counted.payload_self : s.payload rust U = .ok () := by
  unfold payload
  rw [if_neg (not_not.2 counted.tag), if_neg (not_not.2 counted.typeId)]

theorem Counted.shared_le : (s.shared : ℤ) - s.exclusive ≤ isizeMax := by
  have high := (s.flag rust U).toInt_lt
  rw [counted.flag] at high
  unfold isizeMax
  omega

theorem Counted.exclusive_le : -2 ^ 63 ≤ (s.shared : ℤ) - s.exclusive := by
  have low := (s.flag rust U).le_toInt
  rw [counted.flag] at low
  omega

/-- A borrow at the type of the value succeeds while no mutable one is live and there is room to
count it. -/
theorem Counted.borrow_self :
    s.borrow rust U =
      if s.exclusive = 0 ∧ s.shared < isizeMax then
        (.ok (s.base + (rust.layout U).value),
          { s.setFlag rust U (s.flag rust U + 1) with shared := s.shared + 1 })
      else (.error (.type "userdata not currently mutably borrowed"), s) := by
  have counts : 0 < (s.flag rust U + 1).toInt ↔ s.exclusive = 0 ∧ s.shared < isizeMax := by
    have bound := counted.shared_le
    have alone := counted.alone
    by_cases full : (s.flag rust U).toInt = isizeMax
    · have wrapped := BorrowFlag.toInt_add_one_full full
      rw [counted.flag] at full
      constructor
      · omega
      · omega
    · have room : (s.flag rust U).toInt < isizeMax := by
        rw [counted.flag] at full ⊢
        omega
      rw [BorrowFlag.toInt_add_one room, counted.flag]
      rw [counted.flag] at full
      constructor
      · omega
      · omega
  unfold borrow
  simp only [counted.payload_self, counts]

/-- A mutable borrow at the type of the value succeeds while no borrow is live. -/
theorem Counted.borrowMut_self :
    s.borrowMut rust U =
      if s.shared = 0 ∧ s.exclusive = 0 then
        (.ok (s.base + (rust.layout U).value),
          { s.setFlag rust U (-1) with exclusive := s.exclusive + 1 })
      else (.error (.type "userdata not currently immutably borrowed"), s) := by
  have counts : s.flag rust U = 0 ↔ s.shared = 0 ∧ s.exclusive = 0 := by
    have alone := counted.alone
    rw [BorrowFlag.eq_zero_iff, counted.flag]
    omega
  unfold borrowMut
  simp only [counted.payload_self, counts]

end Steps

section Other

variable (counted : s.Counted rust U)

include counted

/-- A call that does not find the identifier of its type fails. -/
theorem Counted.payload_mismatch (mismatch : s.typeId rust T ≠ rust.typeId T) :
    s.payload rust T = .error (.type "userdata of matching type") := by
  unfold payload
  rw [if_neg (not_not.2 counted.tag), if_pos mismatch]

theorem Counted.payload_match (matches_ : s.typeId rust T = rust.typeId T) :
    s.payload rust T = .ok () := by
  unfold payload
  rw [if_neg (not_not.2 counted.tag), if_neg (not_not.2 matches_)]

theorem Counted.borrow_other (other : T ≠ U) (distinct : s.Distinct rust T U) :
    ∃ expected, s.borrow rust T = (.error (.type expected), s) := by
  unfold borrow
  by_cases matches_ : s.typeId rust T = rust.typeId T
  · have refused := (distinct.other other).resolve_left (not_not.2 matches_)
    rw [counted.payload_match matches_]
    exact ⟨_, if_neg (not_lt.2 refused)⟩
  · rw [counted.payload_mismatch matches_]
    exact ⟨_, rfl⟩

theorem Counted.borrowMut_other (other : T ≠ U) (distinct : s.Distinct rust T U) :
    ∃ expected, s.borrowMut rust T = (.error (.type expected), s) := by
  unfold borrowMut
  by_cases matches_ : s.typeId rust T = rust.typeId T
  · have refused := (distinct.other other).resolve_left (not_not.2 matches_)
    have taken : s.flag rust T ≠ 0 := by
      intro zero
      rw [zero] at refused
      exact absurd refused (by decide)
    rw [counted.payload_match matches_]
    exact ⟨_, if_neg taken⟩
  · rw [counted.payload_mismatch matches_]
    exact ⟨_, rfl⟩

end Other

/-- A step of a history keeps the identifier and the count. -/
theorem Counted.step {s' : BoxedPayload} (counted : s.Counted rust U)
    (step : Step rust U s s') : s'.Counted rust U := by
  have alone := counted.alone
  have flag := counted.flag
  have high := counted.shared_le
  have low := counted.exclusive_le
  cases step with
  | borrow T distinct =>
    by_cases same : T = U
    · subst same
      rw [counted.borrow_self]
      split
      · refine @Counted.setFlag rust T s counted _ (s.shared + 1) s.exclusive ?_ (by omega)
        rw [BorrowFlag.toInt_add_one (by rw [flag]; omega), flag]
        omega
      · exact counted
    · obtain ⟨expected, refused⟩ := counted.borrow_other same distinct
      rw [refused]
      exact counted
  | borrowMut T distinct =>
    by_cases same : T = U
    · subst same
      rw [counted.borrowMut_self]
      split
      · refine @Counted.setFlag rust T s counted _ s.shared (s.exclusive + 1) ?_ (by omega)
        show (-1 : ℤ) = _
        omega
      · exact counted
    · obtain ⟨expected, refused⟩ := counted.borrowMut_other same distinct
      rw [refused]
      exact counted
  | cloneRef live room =>
    refine @Counted.setFlag rust U s counted _ (s.shared + 1) s.exclusive ?_ (by omega)
    rw [BorrowFlag.toInt_add_one (by rw [flag]; omega), flag]
    omega
  | dropRef live =>
    refine @Counted.setFlag rust U s counted _ (s.shared - 1) s.exclusive ?_ (by omega)
    rw [BorrowFlag.toInt_sub_one (by rw [flag]; omega), flag]
    omega
  | splitRefMut live room =>
    refine @Counted.setFlag rust U s counted _ s.shared (s.exclusive + 1) ?_ (by omega)
    unfold isizeMax at room
    rw [BorrowFlag.toInt_sub_one (by rw [flag]; omega), flag]
    omega
  | dropRefMut live =>
    refine @Counted.setFlag rust U s counted _ s.shared (s.exclusive - 1) ?_ (by omega)
    unfold isizeMax at high
    rw [BorrowFlag.toInt_add_one (by rw [flag]; unfold isizeMax; omega), flag]
    omega
  | writes mem typeId flag' =>
    exact ⟨counted.tag, typeId.trans counted.typeId, (congrArg BitVec.toInt flag').trans flag,
      alone⟩

theorem Counted.run {s₀ : BoxedPayload} (counted : s₀.Counted rust U)
    (run : Relation.ReflTransGen (Step rust U) s₀ s) : s.Counted rust U := by
  induction run with
  | refl => exact counted
  | tail _ step ih => exact ih.step step

/-- Dispatch at the type of the value. -/
theorem Counted.sound_self (counted : s.Counted rust U) :
    s.Sound rust U U ↔ (s.exclusive = 0 → s.shared < isizeMax) := by
  have borrows := counted.borrow_self
  have borrowsMut := counted.borrowMut_self
  constructor
  · intro sound free
    obtain ⟨a, s', ran⟩ := (sound.borrow_iff rfl).2 free
    rw [borrows] at ran
    split at ran
    · rename_i counts
      exact counts.2
    · cases ran
  · intro room
    refine ⟨fun a s' ran => ?_, fun _ => ⟨fun ⟨a, s', ran⟩ => ?_, fun free => ?_⟩,
      fun e s' ran => ?_, fun a s' ran => ?_, fun _ => ⟨fun ⟨a, s', ran⟩ => ?_, fun free => ?_⟩,
      fun e s' ran => ?_⟩
    · rw [borrows] at ran
      split at ran
      · cases ran
        exact ⟨rfl, rfl⟩
      · cases ran
    · rw [borrows] at ran
      split at ran
      · rename_i counts
        exact counts.1
      · cases ran
    · rw [borrows, if_pos ⟨free, room free⟩]
      exact ⟨_, _, rfl⟩
    · rw [borrows] at ran
      split at ran
      · cases ran
      · cases ran
        exact ⟨⟨_, rfl⟩, rfl⟩
    · rw [borrowsMut] at ran
      split at ran
      · cases ran
        exact ⟨rfl, rfl⟩
      · cases ran
    · rw [borrowsMut] at ran
      split at ran
      · assumption
      · cases ran
    · rw [borrowsMut, if_pos free]
      exact ⟨_, _, rfl⟩
    · rw [borrowsMut] at ran
      split at ran
      · cases ran
      · cases ran
        exact ⟨⟨_, rfl⟩, rfl⟩

/-- Dispatch at another type. -/
theorem Counted.sound_other (counted : s.Counted rust U) (other : T ≠ U) :
    s.Sound rust T U ↔
      (s.typeId rust T ≠ rust.typeId T ∨ (s.flag rust T + 1).toInt ≤ 0) := by
  constructor
  · intro sound
    by_contra misled
    obtain ⟨matches_, counts⟩ := not_or.1 misled
    have ran : s.borrow rust T = (.ok (s.base + (rust.layout T).value),
        { s.setFlag rust T (s.flag rust T + 1) with shared := s.shared + 1 }) := by
      unfold borrow
      rw [counted.payload_match (not_not.1 matches_)]
      exact if_pos (not_le.1 counts)
    exact other (sound.borrow_ok _ _ ran).1
  · intro told
    have distinct : s.Distinct rust T U := ⟨fun _ => told, fun same => absurd same other⟩
    obtain ⟨expected, refused⟩ := counted.borrow_other other distinct
    obtain ⟨expected', refused'⟩ := counted.borrowMut_other other distinct
    refine ⟨fun a s' ran => ?_, fun same => absurd same other, fun e s' ran => ?_,
      fun a s' ran => ?_, fun same => absurd same other, fun e s' ran => ?_⟩
    · rw [refused] at ran
      cases ran
    · rw [refused] at ran
      cases ran
      exact ⟨⟨_, rfl⟩, rfl⟩
    · rw [refused'] at ran
      cases ran
    · rw [refused'] at ran
      cases ran
      exact ⟨⟨_, rfl⟩, rfl⟩

theorem Counted.sound_iff (counted : s.Counted rust U) :
    s.Sound rust T U ↔ s.Distinct rust T U := by
  by_cases same : T = U
  · subst same
    rw [counted.sound_self]
    exact ⟨fun room => ⟨fun absurd => (absurd rfl).elim, fun _ => room⟩, fun distinct =>
      distinct.counted rfl⟩
  · rw [counted.sound_other same]
    exact ⟨fun told => ⟨fun _ => told, fun eq => absurd eq same⟩, fun distinct =>
      distinct.other same⟩

/-- Types that have their identifiers at one place are told apart. -/
theorem Counted.distinct_of_same_offset (counted : s.Counted rust U)
    (same : (rust.layout T).typeId = (rust.layout U).typeId)
    (room : s.exclusive = 0 → s.shared < isizeMax) : s.Distinct rust T U := by
  refine ⟨fun other => .inl ?_, fun _ => room⟩
  have read : s.typeId rust T = s.typeId rust U := by
    unfold BoxedPayload.typeId
    rw [same]
  rw [read, counted.typeId]
  exact fun eq => other (rust.typeId_injective eq).symm

/-- Over every history of borrows, dispatch at a type is sound exactly when the bytes that are read
tell the type from that of the value, as they do when both types have their identifiers at one
place, and the live borrows can be counted. -/
theorem dispatch_sound_iff {value : List UInt8} {base : ℕ} {mem : ByteMemory}
    (run : Relation.ReflTransGen (Step rust U) (new rust U value base mem) s) (T : rust.Ty) :
    (s.Sound rust T U ↔ s.Distinct rust T U) ∧
      ((rust.layout T).typeId = (rust.layout U).typeId →
        (s.exclusive = 0 → s.shared < isizeMax) → s.Sound rust T U) := by
  have counted := (new_counted value base mem).run run
  refine ⟨counted.sound_iff, fun same room => ?_⟩
  rw [counted.sound_iff]
  exact counted.distinct_of_same_offset same room

/-- Two types with values of sixteen bytes. The second has its identifier where the first has its
value. -/
def overlapping : RustTypes where
  Ty := Bool
  typeId second := List.replicate 16 (if second then 1 else 2)
  layout
    | false => ⟨0, 16, 24, 16, by decide, by decide, by decide⟩
    | true => ⟨24, 16, 0, 16, by decide, by decide, by decide⟩
  typeId_length _ := List.length_replicate
  typeId_injective := by decide

/-- A value of the first type that has been borrowed twice and given back once. -/
def borrowed : BoxedPayload :=
  let s := ((new overlapping false (List.replicate 16 3) 0 fun _ => 0).borrow overlapping false).2
  let s := (s.borrow overlapping false).2
  { s.setFlag overlapping false (s.flag overlapping false - 1) with shared := s.shared - 1 }

/-- While it is borrowed, such a value is not taken for one of the second type. -/
theorem dispatch_sound_iff_borrowed :
    borrowed.shared = 1 ∧ borrowed.Sound overlapping true false ∧
      (borrowed.borrow overlapping true).1 = .error (.type "userdata of matching type") := by
  have run : Relation.ReflTransGen (Step overlapping false)
      (new overlapping false (List.replicate 16 3) 0 fun _ => 0) borrowed := by
    refine .head (.borrow false ⟨fun other => absurd rfl other, fun _ _ => by decide +kernel⟩) ?_
    refine .head (.borrow false ⟨fun other => absurd rfl other, fun _ _ => by decide +kernel⟩) ?_
    exact .single (.dropRef (by decide +kernel))
  have distinct : borrowed.Distinct overlapping true false :=
    ⟨fun _ => .inl (by decide +kernel), fun same => nomatch same⟩
  exact ⟨by decide +kernel, (dispatch_sound_iff run true).1.2 distinct, by decide +kernel⟩

/-- A value of the first type that consists of the identifier of the second is borrowed as one of
the second. -/
theorem borrow_at_other_type :
    ((new overlapping false (List.replicate 16 1) 0 fun _ => 0).borrow overlapping true).1 =
        .ok 0 ∧
      ¬ (new overlapping false (List.replicate 16 1) 0 fun _ => 0).Sound overlapping true
        false := by
  have borrowed : ((new overlapping false (List.replicate 16 1) 0 fun _ => 0).borrow overlapping
      true).1 = .ok 0 := by decide +kernel
  exact ⟨borrowed, fun sound => absurd (sound.borrow_ok 0 _ (Prod.ext borrowed rfl)).1
    (show ¬ (true : Bool) = false by decide)⟩

end BoxedPayload

end Squirrels
