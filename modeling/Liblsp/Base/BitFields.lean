import Liblsp.Base.LittleEndian
import Mathlib.Logic.Function.Basic

/-!
# Bit-fields

Words of several bytes in memory, the least significant byte first, and fields
of some bits of a word.  A field is stored by writing its whole word back; the
fields of a layout do not overlap, so a store changes one of them.
-/

namespace Base

/-! ## Bits of a word -/

/-- The number that some bits of a word hold. -/
def readBits (word offset width : Nat) : Nat :=
  (word >>> offset) % 2 ^ width

/-- Replace some bits of a word by the lowest ones of a number. -/
def writeBits (word offset width value : Nat) : Nat :=
  (word >>> (offset + width)) <<< (offset + width) |||
    (value % 2 ^ width) <<< offset ||| word % 2 ^ offset

section Words

variable {word offset width value place : Nat}

theorem testBit_readBits :
    (readBits word offset width).testBit place =
      (decide (place < width) && word.testBit (offset + place)) := by
  rw [readBits, Nat.testBit_mod_two_pow, Nat.testBit_shiftRight]

theorem testBit_writeBits :
    (writeBits word offset width value).testBit place =
      if offset ≤ place ∧ place < offset + width then
        value.testBit (place - offset)
      else word.testBit place := by
  simp only [writeBits, Nat.testBit_or, Nat.testBit_shiftLeft,
    Nat.testBit_shiftRight, Nat.testBit_mod_two_pow]
  by_cases before : place < offset
  · have notStarted : ¬offset ≤ place := Nat.not_le.mpr before
    have notAfter : ¬offset + width ≤ place := by omega
    simp [before, notAfter, notStarted]
  · have started : offset ≤ place := Nat.le_of_not_lt before
    by_cases inside : place < offset + width
    · have within : place - offset < width := by omega
      have notAfter : ¬offset + width ≤ place := by omega
      simp [before, started, inside, within, notAfter]
    · have beyond : ¬place - offset < width := by omega
      have after : offset + width ≤ place := Nat.le_of_not_lt inside
      simp [before, started, inside, beyond, after]

theorem readBits_writeBits :
    readBits (writeBits word offset width value) offset width =
      value % 2 ^ width := by
  apply Nat.eq_of_testBit_eq
  intro place
  rw [testBit_readBits, testBit_writeBits, Nat.testBit_mod_two_pow]
  by_cases inside : place < width
  · simp [inside]
  · simp [inside]

theorem readBits_writeBits_apart {other count : Nat}
    (apart : other + count ≤ offset ∨ offset + width ≤ other) :
    readBits (writeBits word offset width value) other count =
      readBits word other count := by
  apply Nat.eq_of_testBit_eq
  intro place
  rw [testBit_readBits, testBit_readBits, testBit_writeBits]
  by_cases inside : place < count
  · have outside : ¬(offset ≤ other + place ∧
        other + place < offset + width) := by omega
    rw [if_neg outside]
  · simp [inside]

theorem writeBits_lt {size : Nat} (bounded : word < 2 ^ size)
    (within : offset + width ≤ size) :
    writeBits word offset width value < 2 ^ size := by
  apply Nat.lt_pow_two_of_testBit
  intro place beyond
  have outside : ¬(offset ≤ place ∧ place < offset + width) := by omega
  rw [testBit_writeBits, if_neg outside]
  exact Nat.testBit_lt_two_pow (Nat.lt_of_lt_of_le bounded
    (Nat.pow_le_pow_right (by decide) beyond))

/-- Words that agree on fields that cover them are the same. -/
theorem eq_of_readBits {left right size : Nat} (leftBound : left < 2 ^ size)
    (rightBound : right < 2 ^ size)
    (covered : ∀ place, place < size → ∃ offset width,
      offset ≤ place ∧ place < offset + width ∧
        readBits left offset width = readBits right offset width) :
    left = right := by
  apply Nat.eq_of_testBit_eq
  intro place
  by_cases inside : place < size
  · obtain ⟨offset, width, started, ends, same⟩ := covered place inside
    have bits := congrArg (·.testBit (place - offset)) same
    have within : place - offset < width := by omega
    have whole : offset + (place - offset) = place := by omega
    simpa only [testBit_readBits, within, whole, decide_true,
      Bool.true_and] using bits
  · have large : 2 ^ size ≤ 2 ^ place :=
      Nat.pow_le_pow_right (by decide) (Nat.le_of_not_lt inside)
    rw [Nat.testBit_lt_two_pow (Nat.lt_of_lt_of_le leftBound large),
      Nat.testBit_lt_two_pow (Nat.lt_of_lt_of_le rightBound large)]

end Words

/-! ## Words in memory -/

theorem ofBytes_lt (bytes : List UInt8) :
    ofBytes bytes < 256 ^ bytes.length := by
  induction bytes with
  | nil => exact Nat.one_pos
  | cons byte bytes induction =>
      have low : byte.toNat < 256 := byte.toNat_lt
      rw [ofBytes, List.length_cons, Nat.pow_succ']
      omega

theorem ofBytes_injective {left right : List UInt8}
    (lengths : left.length = right.length)
    (same : ofBytes left = ofBytes right) : left = right := by
  induction left generalizing right with
  | nil => exact (List.eq_nil_of_length_eq_zero lengths.symm).symm
  | cons byte bytes induction =>
      cases right with
      | nil => cases lengths
      | cons other others =>
          have low : byte.toNat < 256 := byte.toNat_lt
          have otherLow : other.toNat < 256 := other.toNat_lt
          rw [ofBytes, ofBytes] at same
          have first : byte.toNat = other.toNat := by omega
          have rest : ofBytes bytes = ofBytes others := by omega
          rw [UInt8.toNat_inj.mp first,
            induction (Nat.succ.inj lengths) rest]

/-- The word of some bytes at an address. -/
def readWord (memory : Nat → UInt8) (address bytes : Nat) : Nat :=
  ofBytes (readCells memory address bytes)

def writeWord (memory : Nat → UInt8) (address bytes word : Nat) :
    Nat → UInt8 :=
  writeCells memory address (readCells (byteAt word) 0 bytes)

section Memory

variable {memory : Nat → UInt8} {address bytes word : Nat}

theorem readWord_lt : readWord memory address bytes < 256 ^ bytes := by
  have bound := ofBytes_lt (readCells memory address bytes)
  rw [length_readCells] at bound
  exact bound

theorem readWord_writeWord (bounded : word < 256 ^ bytes) :
    readWord (writeWord memory address bytes word) address bytes = word := by
  have written := readCells_writeCells memory address
    (readCells (byteAt word) 0 bytes)
  rw [length_readCells] at written
  rw [readWord, writeWord, written, ofBytes_readCells,
    Nat.mod_eq_of_lt bounded]

theorem readWord_writeWord_apart {other count : Nat}
    (apart : other + count ≤ address ∨ address + bytes ≤ other) :
    readWord (writeWord memory address bytes word) other count =
      readWord memory other count := by
  rw [readWord, writeWord, readCells_writeCells_apart]
  · rfl
  · rw [length_readCells]
    exact apart

theorem writeWord_outside {other : Nat}
    (outside : other < address ∨ address + bytes ≤ other) :
    writeWord memory address bytes word other = memory other := by
  have cells := @readCells_writeCells_apart _ memory address other 1
    (readCells (byteAt word) 0 bytes) (by
      rw [length_readCells]
      omega)
  simpa [readCells, writeWord] using cells

end Memory

/-! ## Layouts -/

/-- Some bits of one of the words of a record. -/
structure BitField where
  unit : Nat
  offset : Nat
  width : Nat

/-- The fields of a record of words, each within its word and apart from the
others. -/
structure BitLayout (ι : Type*) where
  bytes : Nat
  units : Nat
  field : ι → BitField
  inside : ∀ i, (field i).unit < units
  within : ∀ i, (field i).offset + (field i).width ≤ 8 * bytes
  apart : ∀ i j, i ≠ j → (field i).unit = (field j).unit →
    (field i).offset + (field i).width ≤ (field j).offset ∨
      (field j).offset + (field j).width ≤ (field i).offset

namespace BitLayout

variable {ι : Type*}

/-- The bytes of a record. -/
def size (layout : BitLayout ι) : Nat := layout.bytes * layout.units

/-- Where the word of a field is. -/
def wordAt (layout : BitLayout ι) (start : Nat) (i : ι) : Nat :=
  start + layout.bytes * (layout.field i).unit

def load (layout : BitLayout ι) (memory : Nat → UInt8) (start : Nat)
    (i : ι) : Nat :=
  readBits (readWord memory (layout.wordAt start i) layout.bytes)
    (layout.field i).offset (layout.field i).width

def store (layout : BitLayout ι) (start : Nat) (memory : Nat → UInt8)
    (i : ι) (value : Nat) : Nat → UInt8 :=
  writeWord memory (layout.wordAt start i) layout.bytes
    (writeBits (readWord memory (layout.wordAt start i) layout.bytes)
      (layout.field i).offset (layout.field i).width value)

/-- Every bit of the record belongs to a field. -/
def Full (layout : BitLayout ι) : Prop :=
  ∀ unit, unit < layout.units → ∀ place, place < 8 * layout.bytes →
    ∃ i, (layout.field i).unit = unit ∧ (layout.field i).offset ≤ place ∧
      place < (layout.field i).offset + (layout.field i).width

section Stores

variable {layout : BitLayout ι} {memory : Nat → UInt8} {start value : Nat}
  {i j : ι}

theorem pow_bytes (bytes : Nat) : 256 ^ bytes = 2 ^ (8 * bytes) := by
  rw [Nat.pow_mul]

theorem load_store_self :
    layout.load (layout.store start memory i value) start i =
      value % 2 ^ (layout.field i).width := by
  have bound := @readWord_lt memory (layout.wordAt start i) layout.bytes
  rw [pow_bytes] at bound
  have written := @writeBits_lt _ _ _ value _ bound (layout.within i)
  rw [← pow_bytes] at written
  rw [load, store, readWord_writeWord written, readBits_writeBits]

theorem words_apart {bytes unit other : Nat} (less : unit < other) :
    bytes * unit + bytes ≤ bytes * other := by
  rw [← Nat.mul_succ]
  exact Nat.mul_le_mul_left bytes less

theorem load_store_of_ne (different : i ≠ j) :
    layout.load (layout.store start memory i value) start j =
      layout.load memory start j := by
  rcases Nat.lt_trichotomy (layout.field i).unit (layout.field j).unit with
    less | same | more
  · have behind := @words_apart layout.bytes _ _ less
    rw [load, store, readWord_writeWord_apart]
    · rfl
    · right
      unfold wordAt
      omega
  · have word : layout.wordAt start i = layout.wordAt start j := by
      rw [wordAt, same, wordAt]
    have bound := @readWord_lt memory (layout.wordAt start i) layout.bytes
    rw [pow_bytes] at bound
    have written := @writeBits_lt _ _ _ value _ bound (layout.within i)
    rw [← pow_bytes] at written
    rw [load, store, ← word, readWord_writeWord written,
      readBits_writeBits_apart (layout.apart i j different same).symm, word]
    rfl
  · have behind := @words_apart layout.bytes _ _ more
    rw [load, store, readWord_writeWord_apart]
    · rfl
    · left
      unfold wordAt
      omega

theorem load_store [DecidableEq ι] :
    layout.load (layout.store start memory i value) start =
      Function.update (layout.load memory start) i
        (value % 2 ^ (layout.field i).width) := by
  funext j
  by_cases same : j = i
  · subst same
    rw [Function.update_self]
    exact load_store_self
  · rw [Function.update_of_ne same]
    exact load_store_of_ne (Ne.symm same)

theorem store_outside {address : Nat}
    (outside : address < start ∨ start + layout.size ≤ address) :
    layout.store start memory i value address = memory address := by
  have behind := @words_apart layout.bytes _ _ (layout.inside i)
  apply writeWord_outside
  unfold wordAt
  unfold size at outside
  omega

/-! ### Many stores -/

/-- Stores one after the other. -/
def storeAll (layout : BitLayout ι) (start : Nat) (memory : Nat → UInt8)
    (stores : List (ι × Nat)) : Nat → UInt8 :=
  stores.foldl (fun memory one => layout.store start memory one.1 one.2)
    memory

/-- The values of the fields after some stores. -/
def valuesAfter [DecidableEq ι] (layout : BitLayout ι) (values : ι → Nat)
    (stores : List (ι × Nat)) : ι → Nat :=
  stores.foldl (fun values one => Function.update values one.1
    (one.2 % 2 ^ (layout.field one.1).width)) values

theorem load_storeAll [DecidableEq ι] (stores : List (ι × Nat)) :
    layout.load (layout.storeAll start memory stores) start =
      layout.valuesAfter (layout.load memory start) stores := by
  induction stores generalizing memory with
  | nil => rfl
  | cons first stores induction =>
      rw [storeAll, List.foldl_cons, valuesAfter, List.foldl_cons,
        ← load_store]
      exact induction

theorem storeAll_outside {address : Nat} (stores : List (ι × Nat))
    (outside : address < start ∨ start + layout.size ≤ address) :
    layout.storeAll start memory stores address = memory address := by
  induction stores generalizing memory with
  | nil => rfl
  | cons first stores induction =>
      rw [storeAll, List.foldl_cons]
      exact induction.trans (store_outside outside)

theorem load_of_readCells {other : Nat → UInt8} {otherStart : Nat}
    (same : readCells memory start layout.size =
      readCells other otherStart layout.size) (i : ι) :
    layout.load memory start i = layout.load other otherStart i := by
  have behind := @words_apart layout.bytes _ _ (layout.inside i)
  have word : ∀ (cells : Nat → UInt8) begin,
      readCells cells (begin + layout.bytes * (layout.field i).unit)
          layout.bytes =
        ((readCells cells begin layout.size).drop
          (layout.bytes * (layout.field i).unit)).take layout.bytes := by
    intro cells begin
    rw [drop_readCells cells (by unfold size; omega),
      take_readCells cells (by unfold size; omega)]
  rw [load, load, readWord, readWord, wordAt, wordAt, word, word, same]

theorem readWord_of_load (full : layout.Full) {other : Nat → UInt8}
    {otherStart : Nat}
    (same : ∀ i, layout.load memory start i = layout.load other otherStart i)
    {unit : Nat} (inside : unit < layout.units) :
    readCells memory (start + layout.bytes * unit) layout.bytes =
      readCells other (otherStart + layout.bytes * unit) layout.bytes := by
  apply ofBytes_injective
  · rw [length_readCells, length_readCells]
  · have left := @readWord_lt memory (start + layout.bytes * unit)
      layout.bytes
    have right := @readWord_lt other (otherStart + layout.bytes * unit)
      layout.bytes
    rw [pow_bytes] at left right
    apply eq_of_readBits left right
    intro place below
    obtain ⟨i, isUnit, started, ends⟩ := full unit inside place below
    refine ⟨_, _, started, ends, ?_⟩
    have agree := same i
    rw [load, load, wordAt, wordAt, isUnit] at agree
    exact agree

/-- A record without gaps is determined by its fields. -/
theorem readCells_of_load (full : layout.Full) {other : Nat → UInt8}
    {otherStart : Nat}
    (same : ∀ i, layout.load memory start i =
      layout.load other otherStart i) :
    readCells memory start layout.size =
      readCells other otherStart layout.size := by
  have upTo : ∀ count, count ≤ layout.units →
      readCells memory start (layout.bytes * count) =
        readCells other otherStart (layout.bytes * count) := by
    intro count
    induction count with
    | zero => exact fun _ => rfl
    | succ count induction =>
        intro below
        rw [Nat.mul_succ, readCells_add, readCells_add,
          induction (Nat.le_of_succ_le below), readWord_of_load full same below]
  exact upTo layout.units (Nat.le_refl _)

end Stores

end BitLayout

end Base
