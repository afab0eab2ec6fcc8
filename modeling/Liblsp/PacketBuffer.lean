import Liblsp.Base.AddressSpace
import Liblsp.Buffer

/-!
# A packet buffer in memory

The descriptor lies in the same memory as the bytes of its buffer, in front of
them.  A caller who is sent to the wrong place overwrites it.
-/

namespace Liblsp

open Base

/-- The fields of the descriptor that the operations use. -/
inductive BufferField where
  | headroom
  | tailroom
  | data
  | tail
  | endPtr
  | lspPacket
  | head

/-- The place of a field in words of eight bytes; in front of the first are
the pointer to the interface and the two of the list. -/
def BufferField.unit : BufferField → Nat
  | .headroom => 3
  | .tailroom => 4
  | .data => 5
  | .tail => 6
  | .endPtr => 7
  | .lspPacket => 8
  | .head => 9

namespace LspBuffer

def word (buff : LspBuffer) : BufferField → Nat
  | .headroom => buff.headroom
  | .tailroom => buff.tailroom
  | .data => buff.data
  | .tail => buff.tail
  | .endPtr => buff.endPtr
  | .lspPacket => buff.lspPacket
  | .head => buff.head

/-- The fields with their places, in the order in which `lsp_buffer_alloc`
stores them. -/
def words (buff : LspBuffer) : List (Nat × Nat) :=
  [BufferField.head, .tail, .data, .endPtr, .headroom, .tailroom,
    .lspPacket].map fun field => (field.unit, buff.word field)

/-- Every field is a number of 64 bits. -/
def Valid (buff : LspBuffer) : Prop :=
  ∀ field, buff.word field < 18446744073709551616

end LspBuffer

/-- A buffer in memory, with the address of its descriptor.  The interface is
kept apart, as no operation reads it. -/
structure PacketBuffer where
  iface : Option LspInterface
  block : Nat
  memory : Nat → UInt8

namespace PacketBuffer

def load (packet : PacketBuffer) (field : BufferField) : Nat :=
  loadUnit packet.memory packet.block field.unit

/-- The descriptor as the memory has it. -/
def buff (packet : PacketBuffer) : LspBuffer :=
  { iface := packet.iface
    headroom := packet.load .headroom
    tailroom := packet.load .tailroom
    data := packet.load .data
    tail := packet.load .tail
    endPtr := packet.load .endPtr
    lspPacket := packet.load .lspPacket
    head := packet.load .head }

/-- Store the descriptor; a field that an operation leaves alone gets the
value that it has. -/
def update (packet : PacketBuffer) (buff : LspBuffer) : PacketBuffer :=
  { packet with
    memory := storeUnits packet.block packet.memory buff.words }

/-- The buffer that `lsp_buffer_alloc` sets up in its block. -/
def alloc (iface : Option LspInterface) (len : Nat) (memory : Nat → UInt8)
    (block : Option Nat) : Option PacketBuffer :=
  match block, lspBufferAlloc iface len block with
  | some block, some buff =>
      some ((PacketBuffer.mk iface block memory).update buff)
  | _, _ => none

/-- The bytes between `data` and `tail`. -/
def content (packet : PacketBuffer) : List UInt8 :=
  readAround packet.memory packet.buff.data (lspBufferLength packet.buff)

/-- Write at an address. -/
def write (packet : PacketBuffer) (start : Nat) (bytes : List UInt8) :
    PacketBuffer :=
  { packet with memory := writeAround packet.memory start bytes }

/-- Write at a returned pointer, unless it is `NULL`. -/
def fill (packet : PacketBuffer) (returned : LspBuffer × Option Nat)
    (bytes : List UInt8) : PacketBuffer × Option (List UInt8) :=
  match returned with
  | (buff, none) => (packet.update buff, none)
  | (buff, some start) => ((packet.update buff).write start bytes, some [])

end PacketBuffer

/-! ## The descriptor in memory -/

namespace LspBuffer

theorem unit_lt (field : BufferField) : field.unit < 10 := by
  cases field <;> decide

theorem words_lt {buff : LspBuffer} {entry : Nat × Nat}
    (member : entry ∈ buff.words) : entry.1 < 10 := by
  obtain ⟨field, _, isEntry⟩ := List.mem_map.mp member
  rw [← isEntry]
  exact unit_lt field

theorem words_distinct (buff : LspBuffer) :
    (buff.words.map Prod.fst).Nodup := by
  simp [words, BufferField.unit]

theorem mem_words (buff : LspBuffer) (field : BufferField) :
    (field.unit, buff.word field) ∈ buff.words := by
  cases field <;> simp [words]

theorem iface_put (buff : LspBuffer) (len : Nat) :
    (lspBufferPut buff len).1.iface = buff.iface := by
  unfold lspBufferPut
  split <;> rfl

theorem iface_push (buff : LspBuffer) (len : Nat) :
    (lspBufferPush buff len).1.iface = buff.iface := by
  unfold lspBufferPush
  split <;> rfl

theorem iface_pull (buff : LspBuffer) (len : Nat) :
    (lspBufferPull buff len).1.iface = buff.iface := by
  simp only [lspBufferPull]
  generalize (if lspBufferLength buff < len then lspBufferLength buff
    else len) = count
  split <;> rfl

theorem Valid.put {buff : LspBuffer} (valid : buff.Valid) (len : Nat) :
    (lspBufferPut buff len).1.Valid := by
  unfold lspBufferPut
  split
  · exact valid
  · intro field
    cases field with
    | tailroom => exact toSize_lt _
    | tail => exact wrapSize_lt _
    | headroom => exact valid .headroom
    | data => exact valid .data
    | endPtr => exact valid .endPtr
    | lspPacket => exact valid .lspPacket
    | head => exact valid .head

theorem Valid.push {buff : LspBuffer} (valid : buff.Valid) (len : Nat) :
    (lspBufferPush buff len).1.Valid := by
  unfold lspBufferPush
  split
  · exact valid
  · intro field
    cases field with
    | headroom => exact toSize_lt _
    | data => exact toSize_lt _
    | tailroom => exact valid .tailroom
    | tail => exact valid .tail
    | endPtr => exact valid .endPtr
    | lspPacket => exact valid .lspPacket
    | head => exact valid .head

theorem Valid.pull {buff : LspBuffer} (valid : buff.Valid) (len : Nat) :
    (lspBufferPull buff len).1.Valid := by
  simp only [lspBufferPull]
  generalize (if lspBufferLength buff < len then lspBufferLength buff
    else len) = count
  split
  · intro field
    cases field with
    | headroom => exact wrapSize_lt _
    | tailroom => exact toSize_lt _
    | data => exact wrapSize_lt _
    | tail => exact wrapSize_lt _
    | endPtr => exact valid .endPtr
    | lspPacket => exact valid .lspPacket
    | head => exact valid .head
  · intro field
    cases field with
    | headroom => exact wrapSize_lt _
    | data => exact wrapSize_lt _
    | tailroom => exact valid .tailroom
    | tail => exact valid .tail
    | endPtr => exact valid .endPtr
    | lspPacket => exact valid .lspPacket
    | head => exact valid .head

theorem valid_of_alloc {iface : Option LspInterface} {len block : Nat}
    {buff : LspBuffer}
    (allocated : lspBufferAlloc iface len (some block) = some buff)
    (small : len < 18446744073709551616) : buff.Valid := by
  cases allocated
  intro field
  cases field with
  | headroom => exact toSize_lt _
  | tailroom => exact small
  | data => exact wrapSize_lt _
  | tail => exact wrapSize_lt _
  | endPtr => exact wrapSize_lt _
  | lspPacket => exact wrapSize_lt _
  | head => exact wrapSize_lt _

end LspBuffer

namespace PacketBuffer

variable {packet : PacketBuffer} {buff : LspBuffer}

theorem word_buff (packet : PacketBuffer) (field : BufferField) :
    packet.buff.word field = packet.load field := by
  cases field <;> rfl

theorem valid_buff (packet : PacketBuffer) : packet.buff.Valid := by
  intro field
  rw [word_buff]
  exact loadUnit_lt _ _ _

theorem buff_eq (iface : packet.iface = buff.iface)
    (loads : ∀ field, packet.load field = buff.word field) :
    packet.buff = buff := by
  unfold PacketBuffer.buff
  rw [iface, loads .headroom, loads .tailroom, loads .data, loads .tail,
    loads .endPtr, loads .lspPacket, loads .head]
  rfl

theorem buff_update (iface : packet.iface = buff.iface) (valid : buff.Valid) :
    (packet.update buff).buff = buff := by
  have small : ∀ entry, entry ∈ buff.words →
      entry.1 < 2305843009213693952 := by
    intro entry member
    have inside := LspBuffer.words_lt member
    omega
  have loads : ∀ field, loadUnit
      (storeUnits packet.block packet.memory buff.words) packet.block
        field.unit = buff.word field := by
    intro field
    exact loadUnit_storeUnits small buff.words_distinct (buff.mem_words field)
      (valid field)
  exact @buff_eq (packet.update buff) buff iface loads

@[simp] theorem update_buff (packet : PacketBuffer) :
    packet.update packet.buff = packet := by
  have same : ∀ entry, entry ∈ packet.buff.words →
      entry.2 = loadUnit packet.memory packet.block entry.1 := by
    intro entry member
    obtain ⟨field, _, isEntry⟩ := List.mem_map.mp member
    rw [← isEntry]
    exact packet.word_buff field
  have memory := storeUnits_same same
  rw [update, memory]

theorem update_apply {address : Nat}
    (behind : packet.block + alignedSizeofBuffer ≤ address)
    (valid : address < 18446744073709551616) :
    (packet.update buff).memory address = packet.memory address := by
  have size : alignedSizeofBuffer = 80 := rfl
  have words : ∀ entry, entry ∈ buff.words →
      packet.block + 8 * entry.1 + 8 ≤ address := by
    intro entry member
    have inside := LspBuffer.words_lt member
    omega
  exact storeUnits_apply words valid

theorem buff_congr {memory : Nat → UInt8}
    (within : packet.block + alignedSizeofBuffer ≤ 18446744073709551616)
    (same : ∀ address, address < packet.block + alignedSizeofBuffer →
      memory address = packet.memory address) :
    { packet with memory := memory : PacketBuffer }.buff = packet.buff := by
  have size : alignedSizeofBuffer = 80 := rfl
  apply buff_eq rfl
  intro field
  have inside := LspBuffer.unit_lt field
  have kept := @loadUnit_congr packet.memory packet.block field.unit memory
    (by omega) fun address _ before => same address (by omega)
  rw [word_buff]
  exact kept

theorem buff_write {start : Nat} {bytes : List UInt8}
    (behind : packet.block + alignedSizeofBuffer ≤ start)
    (within : start + bytes.length ≤ 18446744073709551616) :
    (packet.write start bytes).buff = packet.buff := by
  apply buff_congr (by omega)
  intro address inside
  rw [writeAround_apply within (by omega), writeCells, if_neg (by omega)]

/-- A caller that writes behind the descriptor gets the descriptor of the call
and the bytes that it has written. -/
theorem fill_some {start : Nat} {bytes : List UInt8}
    (iface : packet.iface = buff.iface) (valid : buff.Valid)
    (behind : packet.block + alignedSizeofBuffer ≤ start)
    (within : start + bytes.length < 18446744073709551616) :
    (packet.fill (buff, some start) bytes).1.buff = buff ∧
      ∀ address, packet.block + alignedSizeofBuffer ≤ address →
        address < 18446744073709551616 →
        (packet.fill (buff, some start) bytes).1.memory address =
          writeCells packet.memory start bytes address := by
  constructor
  · have kept := @buff_write (packet.update buff) start bytes behind
      (Nat.le_of_lt within)
    exact kept.trans (buff_update iface valid)
  · intro address outside small
    have written := @writeAround_apply _ (packet.update buff).memory start
      bytes address (Nat.le_of_lt within) small
    have same := @update_apply packet buff address outside small
    change writeAround (packet.update buff).memory start bytes address = _
    rw [written, writeCells, writeCells, same]

theorem fill_same (packet : PacketBuffer) (returned : LspBuffer × Option Nat)
    (len : Nat) :
    ∃ bytes : List UInt8, bytes.length = len ∧
      (packet.fill returned bytes).1 = packet.update returned.1 := by
  obtain ⟨buff, pointer⟩ := returned
  cases pointer with
  | none => exact ⟨List.replicate len 0, List.length_replicate, rfl⟩
  | some start =>
      refine ⟨readAround (packet.update buff).memory start len,
        length_readAround _ _ _, ?_⟩
      simp only [fill, write, writeAround_readAround]

/-- The descriptor is consistent and lies in front of the bytes. -/
structure InPlace (packet : PacketBuffer) : Prop where
  consistent : packet.buff.Consistent
  descriptor : packet.block + alignedSizeofBuffer ≤ packet.buff.head

namespace InPlace

theorem data_le (inPlace : packet.InPlace) :
    packet.block + alignedSizeofBuffer ≤ packet.buff.data := by
  have descriptor := inPlace.descriptor
  have data := inPlace.consistent.data
  omega

theorem end_lt (inPlace : packet.InPlace) :
    packet.buff.tail + packet.buff.tailroom < 18446744073709551616 := by
  rw [← inPlace.consistent.rest]
  exact inPlace.consistent.small

theorem fill (inPlace : packet.InPlace) (consistent : buff.Consistent)
    (head : buff.head = packet.buff.head)
    {returned : Option Nat} {bytes : List UInt8}
    (same : (packet.fill (buff, returned) bytes).1.buff = buff) :
    (packet.fill (buff, returned) bytes).1.InPlace := by
  have block : (packet.fill (buff, returned) bytes).1.block =
      packet.block := by
    cases returned <;> rfl
  constructor
  · rw [same]
    exact consistent
  · rw [same, block, head]
    exact inPlace.descriptor

end InPlace

end PacketBuffer

end Liblsp
