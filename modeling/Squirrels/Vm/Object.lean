import Mathlib.Algebra.Group.Int.Defs
import Mathlib.Algebra.Group.Nat.Defs
import Mathlib.Data.List.TakeWhile

/-!
# Objects of the virtual machine

An `SQObject` is a tagged value. The scalars carry their value; a string carries its bytes, since
the string table of the machine keeps a single `SQString` for each byte sequence; the other
reference-counted objects carry their tag and their place in the heap. Two objects are the same
raw value exactly when they are equal.

Integers are the 64-bit `SQInteger` of the build, floats the bit patterns of its 32-bit `SQFloat`.
-/

namespace Squirrels

/-- The bytes of a C string literal. -/
def ascii (text : String) : List UInt8 := text.toList.map fun c => UInt8.ofNat c.toNat

/-- The part of a byte buffer that a C string function reads. -/
def cString (bytes : List UInt8) : List UInt8 := bytes.takeWhile (· ≠ 0)

/-- A text without NUL is a C string. -/
theorem cString_eq_self_iff (text : List UInt8) : cString text = text ↔ 0 ∉ text := by
  unfold cString
  rw [List.takeWhile_eq_self_iff]
  simp only [ne_eq, decide_eq_true_eq]
  exact ⟨fun all mem => all 0 mem rfl, fun none x mem zero => none (zero ▸ mem)⟩

/-- Tags of the reference-counted objects of the heap that a slot can hold. -/
inductive RefType where
  | table
  | array
  | userData
  | closure
  | nativeClosure
  | generator
  | thread
  | cls
  | inst
  | weakRef
deriving DecidableEq, Repr

/-- A tagged value. -/
inductive SQObject where
  | null
  | integer (n : ℤ)
  | float (bits : BitVec 32)
  | bool (b : Bool)
  | userPointer (p : ℕ)
  | string (bytes : List UInt8)
  | ref (t : RefType) (r : ℕ)
deriving DecidableEq, Repr

instance : Inhabited SQObject := ⟨.null⟩

/-- `SQObjectType`. No slot holds a function prototype or an outer value. -/
inductive SQObjectType where
  | null
  | integer
  | float
  | bool
  | userPointer
  | string
  | ref (t : RefType)
  | funcProto
  | outer
deriving DecidableEq, Repr

namespace SQObject

/-- `sq_type`. -/
def type : SQObject → SQObjectType
  | .null => .null
  | .integer _ => .integer
  | .float _ => .float
  | .bool _ => .bool
  | .userPointer _ => .userPointer
  | .string _ => .string
  | .ref t _ => .ref t

/-- `ISREFCOUNTED`. -/
def isRefCounted : SQObject → Bool
  | .string _ => true
  | .ref _ _ => true
  | _ => false

/-- `sq_isnumeric`. -/
def isNumeric : SQObject → Bool
  | .integer _ => true
  | .float _ => true
  | _ => false

/-- The tag of a script or native function. -/
def isFunction : SQObject → Bool
  | .ref .closure _ => true
  | .ref .nativeClosure _ => true
  | _ => false

/-- The tag of a weak reference. -/
def isWeakRef : SQObject → Bool
  | .ref .weakRef _ => true
  | _ => false

end SQObject

/-- `IdType2Name`. -/
def idType2Name : SQObjectType → String
  | .null => "null"
  | .integer => "integer"
  | .float => "float"
  | .bool => "bool"
  | .string => "string"
  | .userPointer => "userdata"
  | .ref .table => "table"
  | .ref .array => "array"
  | .ref .generator => "generator"
  | .ref .closure => "function"
  | .ref .nativeClosure => "function"
  | .ref .userData => "userdata"
  | .ref .thread => "thread"
  | .funcProto => "function"
  | .ref .cls => "class"
  | .ref .inst => "instance"
  | .ref .weakRef => "weakref"
  | .outer => "outer"

/-- The bit of a type mask that stands for a type. -/
def rawType : SQObjectType → ℕ
  | .null => 0x00000001
  | .integer => 0x00000002
  | .float => 0x00000004
  | .bool => 0x00000008
  | .string => 0x00000010
  | .ref .table => 0x00000020
  | .ref .array => 0x00000040
  | .ref .userData => 0x00000080
  | .ref .closure => 0x00000100
  | .ref .nativeClosure => 0x00000200
  | .ref .generator => 0x00000400
  | .userPointer => 0x00000800
  | .ref .thread => 0x00001000
  | .funcProto => 0x00002000
  | .ref .cls => 0x00004000
  | .ref .inst => 0x00008000
  | .ref .weakRef => 0x00010000
  | .outer => 0x00020000

/-! ## Number conversions -/

/-- The cast of a float to `SQInteger`: truncation towards zero. What does not fit, infinities and
NaNs included, becomes the least integer, as the conversion instruction has it. -/
def floatToInteger (bits : BitVec 32) : ℤ :=
  let exponent : ℕ := (bits.toNat / 2 ^ 23) % 2 ^ 8
  let significand : ℕ := bits.toNat % 2 ^ 23
  let magnitude : ℕ :=
    if exponent = 0 then 0
    else if 150 ≤ exponent then (2 ^ 23 + significand) * 2 ^ (exponent - 150)
    else (2 ^ 23 + significand) / 2 ^ (150 - exponent)
  let value : ℤ := if bits.msb then -magnitude else magnitude
  if -2 ^ 63 ≤ value ∧ value < 2 ^ 63 then value else -2 ^ 63

/-- The cast of an `SQInteger` to a float: round to the nearest, ties to even. -/
def integerToFloat (n : ℤ) : BitVec 32 :=
  let magnitude := n.natAbs
  let sign : ℕ := if n < 0 then 2 ^ 31 else 0
  if magnitude = 0 then 0
  else
    let length := magnitude.log2
    if length ≤ 23 then
      BitVec.ofNat 32 (sign + (length + 127 - 1) * 2 ^ 23 + magnitude * 2 ^ (23 - length))
    else
      let shift := length - 23
      let kept := magnitude / 2 ^ shift
      let rest := magnitude % 2 ^ shift
      let half := 2 ^ (shift - 1)
      let rounded := if half < rest ∨ (rest = half ∧ kept % 2 = 1) then kept + 1 else kept
      BitVec.ofNat 32 (sign + (length + 127 - 1) * 2 ^ 23 + rounded)

/-- `tointeger`, on a number. -/
def toInteger : SQObject → ℤ
  | .integer n => n
  | .float bits => floatToInteger bits
  | _ => 0

/-- `tofloat`, on a number. -/
def toFloat : SQObject → BitVec 32
  | .integer n => integerToFloat n
  | .float bits => bits
  | _ => 0

example : floatToInteger (integerToFloat (-7)) = -7 ∧ integerToFloat 1 = 0x3f800000#32 := by
  decide

/-! ## Hashes -/

/-- One step of `_hashstr`; a byte is a signed `char` widened to an unsigned short. -/
def hashByte (h : UInt64) (c : UInt8) : UInt64 :=
  let wide : UInt64 := if c < 128 then c.toUInt64 else c.toUInt64 + 0xff00
  h ^^^ ((h <<< 5) + (h >>> 2) + wide)

/-- The bytes `_hashstr` reads, last first: every byte of a short string, every `step`-th of a
long one. -/
def hashedBytes (bytes : List UInt8) : List UInt8 :=
  let step := bytes.length / 32 + 1
  (List.range (bytes.length / step)).map fun k => bytes.getD (bytes.length - 1 - k * step) 0

/-- `_hashstr`. -/
def hashString (bytes : List UInt8) : UInt64 :=
  (hashedBytes bytes).foldl hashByte (UInt64.ofNat bytes.length)

/-- `HashObj`; `address` is where the allocator put the objects of the heap. -/
def hashObj (address : RefType → ℕ → ℕ) : SQObject → ℕ
  | .string bytes => (hashString bytes).toNat
  | .float bits => (floatToInteger bits % 2 ^ 64).toNat
  | .bool b => if b then 1 else 0
  | .integer n => (n % 2 ^ 64).toNat
  | .null => 0
  | .userPointer p => p / 8
  | .ref t r => address t r / 8

end Squirrels
