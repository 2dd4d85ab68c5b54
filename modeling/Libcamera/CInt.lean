import Mathlib.Algebra.Group.Int

/-!
Contract: the C `int` of the sources, the conversions into it they make, and its `+`.

Owns: an `int` as the `Int` it holds; the 32-bit pattern that stores it, as `memcpy` copies
it; the conversion to `int` of an `unsigned int` or an `off_t` that does not fit, which C
leaves to the implementation and which every platform libcamera builds for takes modulo
2^32; and `+` on two `int`s, whose overflow is undefined.

Does not own: the `memcpy` of an `int` into bytes (`Libcamera.Ipc.Slave`).

Undefined behaviour is `none`, as everywhere in this development.
-/

set_option autoImplicit false

namespace Libcamera

/-- The `int` whose 32-bit pattern is `value`. -/
def signed (value : UInt32) : Int :=
  if value.toNat < 2 ^ 31 then value.toNat else value.toNat - 2 ^ 32

/-- The 32-bit pattern of `value` modulo 2^32. -/
def toInt32 (value : Int) : UInt32 :=
  UInt32.ofNat (value % 2 ^ 32).toNat

/-- `value`, an `unsigned int` or an `off_t`, converted to an `int`. -/
def toInt (value : Int) : Int :=
  signed (toInt32 value)

/-- Whether `value` is an `int`. -/
def isInt (value : Int) : Bool :=
  decide (-2 ^ 31 ≤ value ∧ value < 2 ^ 31)

/-- `a + b` on two `int`s; `none` where the sum is not an `int`, and the behaviour is
undefined. -/
def addInt (a b : Int) : Option Int :=
  if isInt (a + b) then some (a + b) else none

theorem toNat_uint32_ofNat (n : Nat) : (UInt32.ofNat n).toNat = n % 2 ^ 32 := by
  simp [UInt32.toNat, UInt32.ofNat]

theorem toNat_toInt32 (value : Int) : ((toInt32 value).toNat : Int) = value % 2 ^ 32 := by
  rw [toInt32, toNat_uint32_ofNat, Nat.mod_eq_of_lt (by omega), Int.toNat_of_nonneg (by omega)]

theorem isInt_iff (value : Int) : isInt value = true ↔ -2 ^ 31 ≤ value ∧ value < 2 ^ 31 := by
  simp [isInt]

theorem isInt_signed (value : UInt32) : isInt (signed value) = true := by
  have bound := value.toNat_lt_size
  rw [isInt_iff, signed]
  split <;> simp only [UInt32.size] at bound <;> omega

theorem isInt_toInt (value : Int) : isInt (toInt value) = true :=
  isInt_signed _

/-- An `int` stored as its pattern reads back as itself. -/
theorem signed_toInt32 {value : Int} (fits : isInt value = true) : signed (toInt32 value) = value := by
  have stored := toNat_toInt32 value
  rw [isInt_iff] at fits
  rw [signed]
  split <;> omega

/-- An `off_t` that is an `int` converts to itself. -/
theorem toInt_of_isInt {value : Int} (fits : isInt value = true) : toInt value = value :=
  signed_toInt32 fits

/-- Two values with the same pattern convert to the same `int`. -/
theorem toInt32_congr {x y : Int} (same : x % 2 ^ 32 = y % 2 ^ 32) : toInt32 x = toInt32 y := by
  unfold toInt32
  rw [same]

theorem addInt_eq_some_iff {a b sum : Int} : addInt a b = some sum ↔ isInt (a + b) = true ∧ a + b = sum := by
  unfold addInt
  split <;> simp_all

end Libcamera
