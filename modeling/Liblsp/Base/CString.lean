import Mathlib.Data.List.Basic

/-!
# Strings of C

A string is the memory from its first character on, up to a zero byte.
Comparing at most `n` characters without regard to case is the same as
comparing the strings cut off after `n` characters, in lower case.
-/

namespace Base

/-- `tolower` in the POSIX locale. -/
def tolower (char : UInt8) : UInt8 :=
  if 65 ≤ char ∧ char ≤ 90 then char + 32 else char

/-- `strncasecmp`, as the difference of the first characters that differ. -/
def strncasecmp (left right : Nat → UInt8) : Nat → Int
  | 0 => 0
  | n + 1 =>
      let result := ((tolower (left 0)).toNat : Int) - (tolower (right 0)).toNat
      if result ≠ 0 then result
      else if left 0 = 0 then 0
      else
        strncasecmp (fun place => left (place + 1))
          (fun place => right (place + 1)) n

/-- The characters of a string, at most `n`. -/
def cString (bytes : Nat → UInt8) : Nat → List UInt8
  | 0 => []
  | n + 1 =>
      if bytes 0 = 0 then []
      else bytes 0 :: cString (fun place => bytes (place + 1)) n

/-- Two strings are equal up to case, in their first `n` characters. -/
def EqualUpToCase (n : Nat) (left right : Nat → UInt8) : Prop :=
  (cString left n).map tolower = (cString right n).map tolower

instance (n : Nat) (left right : Nat → UInt8) :
    Decidable (EqualUpToCase n left right) :=
  inferInstanceAs (Decidable (_ = _))

theorem tolower_eq_zero_iff {char : UInt8} : tolower char = 0 ↔ char = 0 := by
  unfold tolower
  split
  · rename_i upper
    rw [← UInt8.toNat_inj, ← UInt8.toNat_inj, UInt8.toNat_add]
    have low := UInt8.le_iff_toNat_le.mp upper.1
    have high := UInt8.le_iff_toNat_le.mp upper.2
    simp only [UInt8.reduceToNat] at low high ⊢
    omega
  · exact Iff.rfl

section Strings

variable {n : Nat} {bytes left right : Nat → UInt8}

theorem cString_of_end (ends : bytes 0 = 0) : cString bytes (n + 1) = [] :=
  if_pos ends

theorem cString_of_char (char : bytes 0 ≠ 0) :
    cString bytes (n + 1) =
      bytes 0 :: cString (fun place => bytes (place + 1)) n :=
  if_neg char

theorem equalUpToCase_succ :
    EqualUpToCase (n + 1) left right ↔
      tolower (left 0) = tolower (right 0) ∧
        (left 0 = 0 ∨ EqualUpToCase n (fun place => left (place + 1))
          (fun place => right (place + 1))) := by
  unfold EqualUpToCase
  by_cases left_ends : left 0 = 0
  · have zero : tolower (left 0) = 0 := tolower_eq_zero_iff.mpr left_ends
    rw [cString_of_end left_ends, zero, eq_comm.trans tolower_eq_zero_iff]
    by_cases right_ends : right 0 = 0
    · simp [cString_of_end right_ends, left_ends, right_ends]
    · simp [cString_of_char right_ends, right_ends]
  · rw [cString_of_char left_ends]
    by_cases right_ends : right 0 = 0
    · have zero : tolower (right 0) = 0 := tolower_eq_zero_iff.mpr right_ends
      rw [cString_of_end right_ends, zero, tolower_eq_zero_iff]
      simp [left_ends]
    · rw [cString_of_char right_ends]
      simp [left_ends]

theorem strncasecmp_eq_zero_iff :
    strncasecmp left right n = 0 ↔ EqualUpToCase n left right := by
  induction n generalizing left right with
  | zero => exact iff_of_true rfl rfl
  | succ n induction =>
      have difference :
          ((tolower (left 0)).toNat : Int) - (tolower (right 0)).toNat = 0 ↔
            tolower (left 0) = tolower (right 0) := by
        rw [← UInt8.toNat_inj]
        omega
      rw [equalUpToCase_succ, strncasecmp]
      by_cases same : tolower (left 0) = tolower (right 0)
      · have equal := not_not.mpr (difference.mpr same)
        rw [if_neg equal, and_iff_right same]
        by_cases ends : left 0 = 0
        · rw [if_pos ends]
          exact iff_of_true rfl (.inl ends)
        · rw [if_neg ends, induction, or_iff_right ends]
      · have differ := mt difference.mp same
        rw [if_pos differ]
        exact iff_of_false differ fun equal => same equal.1

end Strings

end Base
