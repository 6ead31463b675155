import Mathlib.Algebra.Group.Nat.Defs
import Mathlib.Logic.Function.Basic

/-!
# Byte memory

Ranges of bytes at numeric addresses, and words in them, least significant byte first.
-/

/-- The bytes at all addresses. -/
abbrev ByteMemory : Type := ℕ → UInt8

namespace ByteMemory

variable (mem : ByteMemory)

/-- The bytes of a range. -/
def read (a : ℕ) : ℕ → List UInt8
  | 0 => []
  | n + 1 => mem a :: read (a + 1) n

/-- Write a range. -/
def write (a : ℕ) : List UInt8 → ByteMemory
  | [] => mem
  | b :: bs => Function.update (write (a + 1) bs) a b

variable {mem} {mem' : ByteMemory}

theorem read_congr {a n : ℕ} (same : ∀ x, a ≤ x → x < a + n → mem' x = mem x) :
    mem'.read a n = mem.read a n := by
  induction n generalizing a with
  | zero => rfl
  | succ n ih =>
    unfold read
    rw [same a (Nat.le_refl a) (by omega), ih fun x le lt => same x (by omega) (by omega)]

theorem write_outside {a x : ℕ} {bs : List UInt8} (outside : x < a ∨ a + bs.length ≤ x) :
    mem.write a bs x = mem x := by
  induction bs generalizing a with
  | nil => rfl
  | cons b bs ih =>
    rw [List.length_cons] at outside
    unfold write
    rw [Function.update_of_ne (by omega)]
    exact ih (by omega)

/-- A range that was written is read back. -/
theorem read_write_self (a : ℕ) (bs : List UInt8) : (mem.write a bs).read a bs.length = bs := by
  induction bs generalizing a with
  | nil => rfl
  | cons b bs ih =>
    show (mem.write a (b :: bs)) a :: (mem.write a (b :: bs)).read (a + 1) bs.length = b :: bs
    have rest : (mem.write a (b :: bs)).read (a + 1) bs.length =
        (mem.write (a + 1) bs).read (a + 1) bs.length :=
      read_congr fun x le _ => Function.update_of_ne (by omega) _ _
    rw [rest, ih]
    exact congrArg (· :: bs) (Function.update_self _ _ _)

/-- A range apart from the one that was written is left alone. -/
theorem read_write_apart {a c n : ℕ} {bs : List UInt8}
    (apart : c + n ≤ a ∨ a + bs.length ≤ c) : (mem.write a bs).read c n = mem.read c n :=
  read_congr fun _ _ _ => write_outside (by omega)

/-! ## Words -/

/-- The lowest bytes of a number. -/
def toBytes : ℕ → ℕ → List UInt8
  | 0, _ => []
  | k + 1, n => UInt8.ofNat (n % 256) :: toBytes k (n / 256)

/-- The number that bytes stand for. -/
def ofBytes : List UInt8 → ℕ
  | [] => 0
  | b :: bs => b.toNat + 256 * ofBytes bs

@[simp] theorem length_toBytes (k n : ℕ) : (toBytes k n).length = k := by
  induction k generalizing n with
  | zero => rfl
  | succ k ih => exact congrArg (· + 1) (ih _)

theorem ofBytes_append (bytes bytes' : List UInt8) :
    ofBytes (bytes ++ bytes') = ofBytes bytes + 256 ^ bytes.length * ofBytes bytes' := by
  induction bytes with
  | nil => rw [List.nil_append, List.length_nil, pow_zero, Nat.one_mul, ofBytes, Nat.zero_add]
  | cons b bytes ih =>
    rw [List.cons_append, ofBytes, ih, ofBytes, List.length_cons, Nat.pow_succ, Nat.mul_add,
      ← Nat.mul_assoc, Nat.mul_comm 256 (256 ^ _), Nat.add_assoc]

theorem ofBytes_toBytes {k n : ℕ} (lt : n < 256 ^ k) : ofBytes (toBytes k n) = n := by
  induction k generalizing n with
  | zero => exact (Nat.lt_one_iff.1 lt).symm
  | succ k ih =>
    have digit : (UInt8.ofNat (n % 256)).toNat = n % 256 := by
      rw [UInt8.toNat_ofNat']
      omega
    have rest : n / 256 < 256 ^ k := by
      rw [Nat.div_lt_iff_lt_mul (by decide), ← Nat.pow_succ]
      exact lt
    show (UInt8.ofNat (n % 256)).toNat + 256 * ofBytes (toBytes k (n / 256)) = n
    rw [digit, ih rest]
    omega

/-- The word of eight bytes. -/
def readWord (mem : ByteMemory) (a : ℕ) : BitVec 64 := BitVec.ofNat 64 (ofBytes (mem.read a 8))

/-- Write a word of eight bytes. -/
def writeWord (mem : ByteMemory) (a : ℕ) (x : BitVec 64) : ByteMemory :=
  mem.write a (toBytes 8 x.toNat)

theorem readWord_writeWord (a : ℕ) (x : BitVec 64) : (mem.writeWord a x).readWord a = x := by
  have written := @read_write_self mem a (toBytes 8 x.toNat)
  rw [length_toBytes] at written
  unfold readWord writeWord
  rw [written, ofBytes_toBytes x.isLt, BitVec.ofNat_toNat, BitVec.setWidth_eq]

theorem read_writeWord_apart {a c n : ℕ} {x : BitVec 64} (apart : c + n ≤ a ∨ a + 8 ≤ c) :
    (mem.writeWord a x).read c n = mem.read c n :=
  read_write_apart (by rwa [length_toBytes])

end ByteMemory
