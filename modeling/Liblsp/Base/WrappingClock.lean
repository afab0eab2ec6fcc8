/-!
# Clocks that wrap around

A clock counts modulo some modulus.  A caller stores the reading at which a
duration will have passed and compares later readings with it as numbers.
That works exactly while the two are on the same side of a wrap.
-/

namespace Base

/-- What a clock shows some time after it showed `start`. -/
def clockReading (modulus start elapsed : Nat) : Nat :=
  (start + elapsed) % modulus

/-- The clock wraps around both before the duration ends and before the time
that has passed, or before neither. -/
def SameLap (modulus start duration elapsed : Nat) : Prop :=
  start + duration < modulus ↔ start + elapsed < modulus

instance (modulus start duration elapsed : Nat) :
    Decidable (SameLap modulus start duration elapsed) :=
  inferInstanceAs (Decidable (_ ↔ _))

variable {modulus start duration elapsed : Nat}

theorem clockReading_of_lt (before : start + elapsed < modulus) :
    clockReading modulus start elapsed = start + elapsed :=
  Nat.mod_eq_of_lt before

theorem clockReading_of_ge (started : start < modulus)
    (passed : elapsed < modulus) (after : modulus ≤ start + elapsed) :
    clockReading modulus start elapsed = start + elapsed - modulus := by
  have lap : start + elapsed - modulus < modulus := by omega
  rw [clockReading, Nat.mod_eq_sub_mod after, Nat.mod_eq_of_lt lap]

/-- The plain difference of the two readings is what is left of the duration
exactly when no wrap lies between them. -/
theorem clockReading_sub_eq_iff (started : start < modulus)
    (lasts : duration < modulus) (passed : elapsed < modulus) :
    clockReading modulus start duration - clockReading modulus start elapsed =
        duration - elapsed ↔
      SameLap modulus start duration elapsed := by
  by_cases ends : start + duration < modulus
  · rw [SameLap, iff_true_left ends, clockReading_of_lt ends]
    by_cases shown : start + elapsed < modulus
    · rw [clockReading_of_lt shown]
      omega
    · rw [clockReading_of_ge started passed (Nat.le_of_not_lt shown)]
      omega
  · rw [SameLap, iff_false_left ends,
      clockReading_of_ge started lasts (Nat.le_of_not_lt ends)]
    by_cases shown : start + elapsed < modulus
    · rw [clockReading_of_lt shown]
      omega
    · rw [clockReading_of_ge started passed (Nat.le_of_not_lt shown)]
      omega

end Base
