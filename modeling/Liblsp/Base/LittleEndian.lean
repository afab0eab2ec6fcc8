import Liblsp.Base.Memory
import Mathlib.Algebra.Group.Nat.Defs

/-!
# Little-endian numbers in memory

The bytes of a number, the least significant one first, and the number that
some bytes stand for.
-/

namespace Base

/-- The byte of a number at a place. -/
def byteAt (value place : Nat) : UInt8 :=
  UInt8.ofNat (value / 256 ^ place)

def ofBytes : List UInt8 → Nat
  | [] => 0
  | byte :: bytes => byte.toNat + 256 * ofBytes bytes

theorem ofBytes_readCells (value width : Nat) :
    ofBytes (readCells (byteAt value) 0 width) = value % 256 ^ width := by
  induction width generalizing value with
  | zero => simp [readCells, ofBytes, Nat.mod_one]
  | succ width induction =>
      have later : readCells (byteAt value) (0 + 1) width =
          readCells (byteAt (value / 256)) 0 width := by
        apply List.map_congr_left
        intro place _
        rw [byteAt, byteAt, Nat.zero_add, Nat.add_comm, Nat.pow_succ',
          Nat.div_div_eq_div_mul, Nat.zero_add]
      have first : readCells (byteAt value) 0 1 = [byteAt value 0] := rfl
      have low : (byteAt value 0).toNat = value % 256 := by simp [byteAt]
      have split := readCells_add (byteAt value) 0 1 width
      rw [Nat.add_comm] at split
      rw [split, first, later, List.singleton_append, ofBytes, induction,
        low, Nat.pow_succ', Nat.mod_mul]

end Base
