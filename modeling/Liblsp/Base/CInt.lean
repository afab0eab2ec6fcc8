/-!
# C integers on an LP64 machine

Values of the fixed-width types are integers in range; these are the
conversions C inserts.  An `int` that leaves its range wraps around, as the
generated code does.
-/

namespace Base

/-- The largest value of `int`. -/
def intMax : Int := 2147483647

/-- The smallest value of `int`. -/
def intMin : Int := -2147483648

/-- Store a value in an `int`. -/
def toInt (value : Int) : Int :=
  (value + 2147483648) % 4294967296 - 2147483648

/-- Convert a value to `size_t`. -/
def toSize (value : Int) : Nat :=
  (value % 18446744073709551616).toNat

/-- Arithmetic on `size_t`. -/
def wrapSize (value : Nat) : Nat := value % 18446744073709551616

/-- The pointer with an address, with `none` for `NULL`. -/
def toPointer (address : Nat) : Option Nat :=
  if address = 0 then none else some address

/-- Convert a value to `uint32_t`. -/
def toUint32 (value : Int) : UInt32 :=
  UInt32.ofNat (value % 4294967296).toNat

/-! ## Conversions to `uint32_t` are arithmetic modulo `2 ^ 32` -/

@[simp] theorem toUint32_toNat (value : Int) :
    (toUint32 value).toNat = (value % 4294967296).toNat := by
  have positive : (0 : Int) < 4294967296 := by decide
  have range := Int.emod_lt_of_pos value positive
  simp only [toUint32, UInt32.toNat_ofNat']
  omega

theorem toUint32_eq_iff {left right : Int} :
    toUint32 left = toUint32 right ↔ (left - right) % 4294967296 = 0 := by
  rw [← UInt32.toNat_inj, toUint32_toNat, toUint32_toNat]
  omega

theorem toUint32_add (left right : Int) :
    toUint32 (left + right) = toUint32 left + toUint32 right :=
  UInt32.ofInt_add left right

theorem toUint32_mul (left right : Int) :
    toUint32 (left * right) = toUint32 left * toUint32 right :=
  UInt32.ofInt_mul left right

theorem toUint32_sub (left right : Int) :
    toUint32 (left - right) = toUint32 left - toUint32 right := by
  calc
    toUint32 (left - right)
        = toUint32 (left - right) + toUint32 right - toUint32 right :=
      (UInt32.add_sub_cancel _ _).symm
    _ = toUint32 (left - right + right) - toUint32 right := by
      rw [toUint32_add]
    _ = toUint32 left - toUint32 right := by rw [Int.sub_add_cancel]

theorem intMin_neg : intMin < 0 := by decide

theorem toInt_of_range {value : Int}
    (above : intMin ≤ value) (below : value ≤ intMax) :
    toInt value = value := by
  simp only [toInt, intMin, intMax] at *
  omega

/-- An increment that is taken back leaves no trace, even at the limit. -/
theorem toInt_add_one_sub_one {value : Int}
    (above : intMin ≤ value) (below : value ≤ intMax) :
    toInt (toInt (value + 1) - 1) = value := by
  simp only [toInt, intMin, intMax] at *
  omega

theorem toSize_of_range {value : Int}
    (nonnegative : 0 ≤ value) (below : value ≤ intMax) :
    toSize value = value.toNat := by
  simp only [toSize, intMax] at *
  omega

theorem toSize_sub {left right : Nat} (ordered : right ≤ left)
    (below : left < 18446744073709551616) :
    toSize ((left : Int) - (right : Int)) = left - right := by
  simp only [toSize]
  omega

/-- A negative `int` becomes a `size_t` above every `int`. -/
theorem toSize_of_negative {value : Int}
    (above : intMin ≤ value) (negative : value < 0) :
    intMax < toSize value := by
  simp only [toSize, intMin, intMax] at *
  omega

theorem toSize_lt (value : Int) : toSize value < 18446744073709551616 := by
  simp only [toSize]
  omega

theorem toPointer_of_pos {address : Nat} (positive : 0 < address) :
    toPointer address = some address :=
  if_neg (Nat.ne_of_gt positive)

theorem wrapSize_lt (value : Nat) : wrapSize value < 18446744073709551616 :=
  Nat.mod_lt _ (by decide)

theorem wrapSize_of_lt {value : Nat} (below : value < 18446744073709551616) :
    wrapSize value = value :=
  Nat.mod_eq_of_lt below

end Base
