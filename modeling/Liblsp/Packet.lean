import Liblsp.Base.BitFields
import Liblsp.Base.Run
import Liblsp.BufferContents

/-!
# Packet headers

The header of `lsp_buffer.h` is eight bytes: two addresses and six bit-fields
in two words.  `lsp_buffer_alloc` points `lsp_packet` at the place where the
data of a buffer begins, so the header that a sender fills in there is the one
that a receiver finds after it has pulled the headers in front.
-/

namespace Liblsp

open Base

/-- The fields of `struct lsp_packet_s`, in their order. -/
inductive PacketField where
  | dstAddr
  | srcAddr
  | plen
  | proto
  | frag
  | seqnum
  | srcPort
  | dstPort
  deriving DecidableEq

/-- `LSP_PACKET_ADDR_BITS` and its siblings. -/
def lspPacketAddrBits : Nat := 16
def lspPacketPlenBits : Nat := 10
def lspPacketProtoBits : Nat := 6
def lspPacketFragBits : Nat := 3
def lspPacketSeqnumBits : Nat := 3
def lspPacketPortBits : Nat := 5

namespace PacketField

def bits : PacketField → Nat
  | .dstAddr => lspPacketAddrBits
  | .srcAddr => lspPacketAddrBits
  | .plen => lspPacketPlenBits
  | .proto => lspPacketProtoBits
  | .frag => lspPacketFragBits
  | .seqnum => lspPacketSeqnumBits
  | .srcPort => lspPacketPortBits
  | .dstPort => lspPacketPortBits

/-- `LSP_PACKET_ADDR_MAX` and its siblings. -/
def max (field : PacketField) : Nat := (1 <<< field.bits) - 1

/-- The place of a field on x86-64, where bit-fields fill a word of two bytes
from its lowest bit on. -/
def place : PacketField → BitField
  | .dstAddr => ⟨0, 0, lspPacketAddrBits⟩
  | .srcAddr => ⟨1, 0, lspPacketAddrBits⟩
  | .plen => ⟨2, 0, lspPacketPlenBits⟩
  | .proto => ⟨2, lspPacketPlenBits, lspPacketProtoBits⟩
  | .frag => ⟨3, 0, lspPacketFragBits⟩
  | .seqnum => ⟨3, lspPacketFragBits, lspPacketSeqnumBits⟩
  | .srcPort => ⟨3, lspPacketFragBits + lspPacketSeqnumBits,
      lspPacketPortBits⟩
  | .dstPort => ⟨3, lspPacketFragBits + lspPacketSeqnumBits +
      lspPacketPortBits, lspPacketPortBits⟩

end PacketField

/-- The four words of a header. -/
def lspPacketLayout : BitLayout PacketField where
  bytes := 2
  units := 4
  field := PacketField.place
  inside := by
    intro field
    cases field <;> decide
  within := by
    intro field
    cases field <;> decide
  apart := by
    intro field other
    cases field <;> cases other <;> decide

namespace PacketField

theorem width_place (field : PacketField) :
    (lspPacketLayout.field field).width = field.bits := by
  cases field <;> rfl

theorem size_eq : lspPacketLayout.size = 8 := rfl

theorem full : lspPacketLayout.Full := by
  intro unit inside bit below
  have small : bit < 16 := below
  match unit, inside with
  | 0, _ => exact ⟨.dstAddr, rfl, Nat.zero_le _, small⟩
  | 1, _ => exact ⟨.srcAddr, rfl, Nat.zero_le _, small⟩
  | 2, _ =>
      by_cases first : bit < 10
      · exact ⟨.plen, rfl, Nat.zero_le _, first⟩
      · exact ⟨.proto, rfl, Nat.le_of_not_lt first, small⟩
  | 3, _ =>
      by_cases first : bit < 3
      · exact ⟨.frag, rfl, Nat.zero_le _, first⟩
      · by_cases second : bit < 6
        · exact ⟨.seqnum, rfl, Nat.le_of_not_lt first, second⟩
        · by_cases third : bit < 11
          · exact ⟨.srcPort, rfl, Nat.le_of_not_lt second, third⟩
          · exact ⟨.dstPort, rfl, Nat.le_of_not_lt third, small⟩

/-- A value fits into its field just if it is at most the maximum. -/
theorem mod_eq_iff (field : PacketField) (value : Nat) :
    value % 2 ^ field.bits = value ↔ value ≤ field.max := by
  have positive : 0 < 2 ^ field.bits := Nat.two_pow_pos _
  rw [max, Nat.one_shiftLeft]
  constructor
  · intro same
    have below := Nat.mod_lt value positive
    omega
  · intro small
    exact Nat.mod_eq_of_lt (by omega)

end PacketField

/-- What a header at an address is, in whatever order its fields are stored
and however often. -/
structure HeaderSound (memory after : Nat → UInt8) (packet : Nat)
    (stores : List (PacketField × Nat)) : Prop where
  fields : lspPacketLayout.load after packet =
    lspPacketLayout.valuesAfter (lspPacketLayout.load memory packet) stores
  outside : ∀ address, address < packet ∨ packet + 8 ≤ address →
    after address = memory address
  determined : ∀ other otherPacket,
    (∀ field, lspPacketLayout.load other otherPacket field =
      lspPacketLayout.load after packet field) →
    readCells other otherPacket 8 = readCells after packet 8
  exact : ∀ field value,
    lspPacketLayout.load (lspPacketLayout.store packet after field value)
      packet field = value ↔ value ≤ field.max

/-- After any stores to the fields of a header each field holds the last value
that was stored to it, up to its width.  Nothing but the header changes, the
fields make up all of its bytes, and a value survives exactly up to the
maximum of its field. -/
theorem headerSound_of_stores (memory : Nat → UInt8) (packet : Nat)
    (stores : List (PacketField × Nat)) :
    HeaderSound memory (lspPacketLayout.storeAll packet memory stores) packet
      stores := by
  constructor
  · exact BitLayout.load_storeAll stores
  · intro address outside
    exact BitLayout.storeAll_outside stores outside
  · intro other otherPacket same
    exact BitLayout.readCells_of_load PacketField.full same
  · intro field value
    rw [BitLayout.load_store_self, PacketField.width_place]
    exact field.mod_eq_iff value

/-! ## Headers in buffers -/

/-- What a sender does: an operation on its buffer, or a store to a field of
the packet through the pointer of the descriptor. -/
inductive PacketOp where
  | buffer (op : BufferOp)
  | store (field : PacketField) (value : Nat)

namespace PacketOp

def run (packet : PacketBuffer) : PacketOp → PacketBuffer
  | .buffer op => (op.run packet).1
  | .store field value =>
      { packet with
        memory := lspPacketLayout.store packet.buff.lspPacket packet.memory
          field value }

def step (packet : PacketBuffer) (op : PacketOp) : Option PacketBuffer :=
  some (op.run packet)

/-- The stores to the fields. -/
def stores : PacketOp → List (PacketField × Nat)
  | .buffer _ => []
  | .store field value => [(field, value)]

/-- Only what is in front of the packet is pulled. -/
def KeepsPacket (packet : PacketBuffer) : PacketOp → Prop
  | .buffer (.pull len) => packet.buff.data + len ≤ packet.buff.lspPacket
  | .buffer (.put _) => True
  | .buffer (.push _) => True
  | .store .. => True

instance (packet : PacketBuffer) (op : PacketOp) :
    Decidable (op.KeepsPacket packet) :=
  match op with
  | .buffer (.pull _) => inferInstanceAs (Decidable (_ ≤ _))
  | .buffer (.put _) => inferInstanceAs (Decidable True)
  | .buffer (.push _) => inferInstanceAs (Decidable True)
  | .store .. => inferInstanceAs (Decidable True)

end PacketOp

/-- A buffer whose data hold a packet at an address, with headers in front. -/
structure HoldsPacket (packet : PacketBuffer) (start : Nat)
    (values : PacketField → Nat) : Prop where
  inPlace : packet.InPlace
  pointer : packet.buff.lspPacket = start
  front : packet.buff.data ≤ start
  behind : start + 8 ≤ packet.buff.tail
  values : lspPacketLayout.load packet.memory start = values

namespace HoldsPacket

variable {packet : PacketBuffer} {start : Nat} {values : PacketField → Nat}

theorem load_writeCells (memory : Nat → UInt8) {target : Nat}
    {bytes : List UInt8}
    (apart : start + 8 ≤ target ∨ target + bytes.length ≤ start) :
    lspPacketLayout.load (writeCells memory target bytes) start =
      lspPacketLayout.load memory start := by
  funext field
  apply BitLayout.load_of_readCells
  rw [PacketField.size_eq]
  exact readCells_writeCells_apart memory apart

/-- A header that lies between the pointers of a moved buffer is in the memory
that the caller has left. -/
theorem of_moves (holds : HoldsPacket packet start values)
    {next : PacketBuffer} {buff : LspBuffer} {memory : Nat → UInt8}
    (moves : BufferOp.Moves packet next buff memory)
    (pointer : buff.lspPacket = packet.buff.lspPacket)
    (front : buff.data ≤ start) (behind : start + 8 ≤ buff.tail)
    (values_eq : lspPacketLayout.load memory start = values) :
    HoldsPacket next start values := by
  have isMoved := moves.buff
  have after := holds.inPlace.data_le
  have before := holds.front
  have within := moves.inPlace.end_lt
  rw [isMoved] at within
  refine ⟨moves.inPlace, ?_, ?_, ?_, ?_⟩
  · rw [isMoved, pointer, holds.pointer]
  · rw [isMoved]
    exact front
  · rw [isMoved]
    exact behind
  · rw [← values_eq]
    funext field
    apply BitLayout.load_of_readCells
    rw [PacketField.size_eq]
    apply readCells_congr
    intro address here there
    exact moves.memory address (by omega) (by omega)

theorem put (holds : HoldsPacket packet start values) (bytes : List UInt8) :
    HoldsPacket (BufferOp.run packet (.put bytes)).1 start values := by
  have behind := holds.behind
  by_cases room : bytes.length ≤ packet.buff.tailroom
  · obtain ⟨moves, _⟩ := BufferOp.run_put holds.inPlace room
    apply holds.of_moves moves rfl holds.front
    · exact Nat.le_add_right_of_le behind
    · exact (load_writeCells packet.memory (.inl behind)).trans holds.values
  · rw [BufferOp.run_put_refused (Nat.lt_of_not_le room)]
    exact holds

theorem push (holds : HoldsPacket packet start values) (bytes : List UInt8) :
    HoldsPacket (BufferOp.run packet (.push bytes)).1 start values := by
  have data := holds.inPlace.consistent.data
  have front := holds.front
  by_cases room : bytes.length ≤ packet.buff.headroom
  · have before : packet.buff.data - bytes.length + bytes.length ≤ start := by
      omega
    obtain ⟨moves, _⟩ := BufferOp.run_push holds.inPlace room
    apply holds.of_moves moves rfl _ holds.behind
    · exact (load_writeCells packet.memory (.inr before)).trans holds.values
    · change packet.buff.data - bytes.length ≤ start
      omega
  · rw [BufferOp.run_push_refused (Nat.lt_of_not_le room)]
    exact holds

theorem pull (holds : HoldsPacket packet start values) {len : Nat}
    (inFront : packet.buff.data + len ≤ start) :
    HoldsPacket (BufferOp.run packet (.pull len)).1 start values := by
  obtain ⟨moves, _⟩ := BufferOp.run_pull holds.inPlace len
  apply holds.of_moves moves rfl _ holds.behind holds.values
  change packet.buff.data + min len (packet.buff.tail - packet.buff.data) ≤
    start
  omega

theorem buff_store (holds : HoldsPacket packet start values)
    (field : PacketField) (value : Nat) :
    (PacketOp.run packet (.store field value)).buff = packet.buff := by
  have after := holds.inPlace.data_le
  have front := holds.front
  have behind := holds.behind
  have within := holds.inPlace.end_lt
  apply PacketBuffer.buff_congr (by omega)
  intro address inside
  apply BitLayout.store_outside
  left
  rw [holds.pointer]
  omega

theorem store (holds : HoldsPacket packet start values)
    (field : PacketField) (value : Nat) :
    HoldsPacket (PacketOp.run packet (.store field value)) start
      (lspPacketLayout.valuesAfter values [(field, value)]) := by
  have same := holds.buff_store field value
  refine ⟨⟨?_, ?_⟩, ?_, ?_, ?_, ?_⟩
  · rw [same]
    exact holds.inPlace.consistent
  · rw [same]
    exact holds.inPlace.descriptor
  · rw [same]
    exact holds.pointer
  · rw [same]
    exact holds.front
  · rw [same]
    exact holds.behind
  · change lspPacketLayout.load (lspPacketLayout.store
      packet.buff.lspPacket packet.memory field value) start = _
    rw [holds.pointer, BitLayout.load_store, holds.values]
    rfl

theorem run (holds : HoldsPacket packet start values) {op : PacketOp}
    (keeps : op.KeepsPacket packet) :
    HoldsPacket (op.run packet) start
      (lspPacketLayout.valuesAfter values op.stores) := by
  cases op with
  | buffer op =>
      cases op with
      | put bytes => exact holds.put bytes
      | push bytes => exact holds.push bytes
      | pull len =>
          rw [PacketOp.KeepsPacket, holds.pointer] at keeps
          exact holds.pull keeps
  | store field value => exact holds.store field value

/-- The stores of a sender get into the fields, and nothing else does. -/
theorem of_run (holds : HoldsPacket packet start values) {ops : List PacketOp}
    {sent : PacketBuffer}
    (run : Run PacketOp.step (fun packet op => op.KeepsPacket packet) packet
      ops sent) :
    HoldsPacket sent start
      (lspPacketLayout.valuesAfter values (ops.flatMap PacketOp.stores)) := by
  induction run with
  | nil => exact holds
  | snoc _ keeps stepped induction =>
      cases stepped
      rw [List.flatMap_append, BitLayout.valuesAfter, List.foldl_append,
        List.flatMap_singleton]
      exact induction.run keeps

theorem content (holds : HoldsPacket packet start values) :
    packet.buff.data + lspBufferLength packet.buff = packet.buff.tail ∧
      (packet.content.drop (start - packet.buff.data)).take 8 =
        readCells packet.memory start 8 := by
  have front := holds.front
  have behind := holds.behind
  have within := holds.inPlace.end_lt
  have length := holds.inPlace.consistent.length
  have place : packet.buff.data + (start - packet.buff.data) = start := by
    omega
  refine ⟨by omega, ?_⟩
  rw [PacketBuffer.content, readAround_eq (by omega),
    drop_readCells _ (by omega), take_readCells _ (by omega), place]

end HoldsPacket

theorem holdsPacket_of_put {packet : PacketBuffer} {headroom len : Nat}
    (empty : BufferOp.Holds packet ⟨headroom, [], len⟩)
    (pointer : packet.buff.lspPacket = packet.buff.data)
    {header : List UInt8} (size : header.length = 8) (room : 8 ≤ len) :
    HoldsPacket (BufferOp.run packet (.put header)).1 packet.buff.lspPacket
      (lspPacketLayout.load (BufferOp.run packet (.put header)).1.memory
        packet.buff.lspPacket) := by
  have tailroom : packet.buff.tailroom = len := empty.tailroom
  have tail : packet.buff.tail = packet.buff.data := empty.length
  have fits : header.length ≤ packet.buff.tailroom := by omega
  obtain ⟨moves, _⟩ := BufferOp.run_put empty.inPlace fits
  have isMoved := moves.buff
  refine ⟨moves.inPlace, ?_, ?_, ?_, rfl⟩
  · rw [isMoved]
  · rw [isMoved]
    exact Nat.le_of_eq pointer.symm
  · rw [isMoved]
    change packet.buff.lspPacket + 8 ≤ packet.buff.tail + header.length
    omega

/-- A receiver gets the data of a sender in its buffer and pulls what is in
front of the packet. -/
def receive (receiver sent : PacketBuffer) : PacketBuffer :=
  (play BufferOp.run receiver
    [.put sent.content, .pull (sent.buff.lspPacket - sent.buff.data)]).1

/-- The receiver reads the fields and the payload that the sender has, where
its data begin; without headers in front this is where its `lsp_packet`
points. -/
structure PacketReceived (sent received : PacketBuffer)
    (values : PacketField → Nat) : Prop where
  sentFields : lspPacketLayout.load sent.memory sent.buff.lspPacket = values
  fields : lspPacketLayout.load received.memory received.buff.data = values
  payload : received.content.drop 8 =
    readCells sent.memory (sent.buff.lspPacket + 8)
      (sent.buff.tail - (sent.buff.lspPacket + 8))
  pointer : sent.buff.data = sent.buff.lspPacket →
    received.buff.data = received.buff.lspPacket

section Transfer

variable {receiver sent : PacketBuffer} {start headroom len : Nat}
  {values : PacketField → Nat}

theorem receive_holds (empty : BufferOp.Holds receiver ⟨headroom, [], len⟩)
    (room : sent.content.length ≤ len) :
    BufferOp.Holds (receive receiver sent)
      ⟨headroom + min (sent.buff.lspPacket - sent.buff.data)
          sent.content.length,
        sent.content.drop (min (sent.buff.lspPacket - sent.buff.data)
          sent.content.length),
        len - sent.content.length⟩ := by
  have arrived := (empty.put sent.content).1
  simp only [BufferOp.reference, if_pos room, List.nil_append] at arrived
  exact (arrived.pull _).1

theorem head_put {packet : PacketBuffer} (inPlace : packet.InPlace)
    (bytes : List UInt8) :
    (BufferOp.run packet (.put bytes)).1.buff.head = packet.buff.head ∧
      (BufferOp.run packet (.put bytes)).1.buff.lspPacket =
        packet.buff.lspPacket := by
  by_cases room : bytes.length ≤ packet.buff.tailroom
  · obtain ⟨moves, _⟩ := BufferOp.run_put inPlace room
    rw [moves.buff]
    exact ⟨rfl, rfl⟩
  · rw [BufferOp.run_put_refused (Nat.lt_of_not_le room)]
    exact ⟨rfl, rfl⟩

theorem head_pull {packet : PacketBuffer} (inPlace : packet.InPlace)
    (len : Nat) :
    (BufferOp.run packet (.pull len)).1.buff.head = packet.buff.head ∧
      (BufferOp.run packet (.pull len)).1.buff.lspPacket =
        packet.buff.lspPacket := by
  obtain ⟨moves, _⟩ := BufferOp.run_pull inPlace len
  rw [moves.buff]
  exact ⟨rfl, rfl⟩

theorem receive_head (empty : BufferOp.Holds receiver ⟨headroom, [], len⟩) :
    (receive receiver sent).buff.head = receiver.buff.head ∧
      (receive receiver sent).buff.lspPacket = receiver.buff.lspPacket := by
  have arrived := (empty.put sent.content).1.inPlace
  obtain ⟨putHead, putPacket⟩ := head_put empty.inPlace sent.content
  obtain ⟨pullHead, pullPacket⟩ := head_pull arrived
    (sent.buff.lspPacket - sent.buff.data)
  simp only [receive, play]
  exact ⟨pullHead.trans putHead, pullPacket.trans putPacket⟩

theorem receive_data (empty : BufferOp.Holds receiver ⟨headroom, [], len⟩)
    (room : sent.content.length ≤ len) :
    (receive receiver sent).buff.data =
      receiver.buff.data + min (sent.buff.lspPacket - sent.buff.data)
        sent.content.length := by
  have later := receive_holds empty room
  obtain ⟨head, _⟩ := @receive_head receiver sent headroom len empty
  have data := later.inPlace.consistent.data
  have start := empty.inPlace.consistent.data
  rw [later.headroom, head] at data
  rw [empty.headroom] at start
  rw [data, start, Nat.add_assoc]

/-- What arrives is the packet, with its payload behind it. -/
theorem received_of_holds (holds : HoldsPacket sent start values)
    (empty : BufferOp.Holds receiver ⟨headroom, [], len⟩)
    (pointer : receiver.buff.lspPacket = receiver.buff.data)
    (room : sent.content.length ≤ len) :
    PacketReceived sent (receive receiver sent) values := by
  have later := receive_holds empty room
  have data := receive_data empty room
  have isStart := holds.pointer
  have front := holds.front
  have behind := holds.behind
  obtain ⟨whole, header⟩ := holds.content
  obtain ⟨_, arrivedPointer⟩ := @receive_head receiver sent headroom len empty
  have last := holds.inPlace.end_lt
  have length : sent.content.length = lspBufferLength sent.buff := by
    rw [PacketBuffer.content, length_readAround]
  have within : min (sent.buff.lspPacket - sent.buff.data)
      sent.content.length = start - sent.buff.data := by
    omega
  rw [within] at later data
  have arrived : (receive receiver sent).content =
      sent.content.drop (start - sent.buff.data) := later.content
  have count : (sent.content.drop (start - sent.buff.data)).length =
      8 + (sent.buff.tail - (start + 8)) := by
    rw [List.length_drop]
    omega
  have cells := later.cells
  rw [count, readCells_add] at cells
  have shape : sent.content.drop (start - sent.buff.data) =
      readCells sent.memory start 8 ++
        readCells sent.memory (start + 8) (sent.buff.tail - (start + 8)) := by
    have place : sent.buff.data + (start - sent.buff.data) = start := by
      omega
    have rest : lspBufferLength sent.buff - (start - sent.buff.data) =
        8 + (sent.buff.tail - (start + 8)) := by
      omega
    rw [PacketBuffer.content, readAround_eq (by omega),
      drop_readCells _ (by omega), place, rest, readCells_add]
  rw [shape] at cells
  have same := (List.append_inj cells (by simp)).1
  constructor
  · rw [isStart]
    exact holds.values
  · rw [← holds.values]
    funext field
    apply BitLayout.load_of_readCells
    rw [PacketField.size_eq]
    exact same
  · rw [arrived, shape, isStart]
    exact List.drop_left' (length_readCells _ _ _)
  · intro atFront
    rw [data, arrivedPointer, pointer]
    omega

end Transfer

/-- A packet that a sender fills in field by field, while headers are pushed
and pulled in front of it and a payload is put behind it, is what a receiver
reads from its own buffer.  Both buffers fit into the blocks that were asked
for. -/
theorem received_of_run {iface otherIface : Option LspInterface}
    {len otherLen block otherBlock : Nat} {memory otherMemory : Nat → UInt8}
    {first other : PacketBuffer}
    (fits : BufferFits iface len)
    (isBlock : IsBlock block (lspBufferBlocksize iface len))
    (allocated : PacketBuffer.alloc iface len memory (some block) =
      some first)
    (room : 8 ≤ len) {header : List UInt8} (size : header.length = 8)
    {ops : List PacketOp} {sent : PacketBuffer}
    (run : Run PacketOp.step (fun packet op => op.KeepsPacket packet)
      (BufferOp.run first (.put header)).1 ops sent)
    (otherFits : BufferFits otherIface otherLen)
    (otherIsBlock : IsBlock otherBlock
      (lspBufferBlocksize otherIface otherLen))
    (otherAllocated : PacketBuffer.alloc otherIface otherLen otherMemory
      (some otherBlock) = some other)
    (otherRoom : sent.content.length ≤ otherLen) :
    PacketReceived sent (receive other sent)
      (lspPacketLayout.valuesAfter
        (lspPacketLayout.load (BufferOp.run first (.put header)).1.memory
          first.buff.lspPacket)
        (ops.flatMap PacketOp.stores)) := by
  obtain ⟨empty, pointer⟩ := BufferOp.holds_of_alloc allocated fits isBlock
  obtain ⟨otherEmpty, otherPointer⟩ :=
    BufferOp.holds_of_alloc otherAllocated otherFits otherIsBlock
  have start := holdsPacket_of_put empty pointer size room
  have holds := start.of_run run
  exact received_of_holds holds otherEmpty otherPointer otherRoom

section Examples

/-- Three fields are stored, one of them beyond its maximum, and the packet
gets a payload and a header in front. -/
def filledIn : List PacketOp :=
  [.store .dstAddr 7, .store .plen 3, .store .srcPort 40,
    .buffer (.put [1, 2, 3]), .buffer (.push [9, 9])]

theorem received_of_filledIn :
    ∃ first other sent,
      PacketBuffer.alloc none 12 (fun _ => 0) (some 4096) = some first ∧
      PacketBuffer.alloc none 16 (fun _ => 0) (some 8192) = some other ∧
      Run PacketOp.step (fun packet op => op.KeepsPacket packet)
        (BufferOp.run first (.put (List.replicate 8 0))).1 filledIn sent ∧
      (receive other sent).content = [7, 0, 0, 0, 3, 0, 0, 2, 1, 2, 3] ∧
      lspPacketLayout.load (receive other sent).memory
        (receive other sent).buff.data .srcPort = 8 := by
  have executed : ((PacketBuffer.alloc none 12 (fun _ => 0)
      (some 4096)).bind fun first =>
        (PacketBuffer.alloc none 16 (fun _ => 0)
          (some 8192)).bind fun other =>
            (execute PacketOp.step (fun packet op => op.KeepsPacket packet)
              (BufferOp.run first (.put (List.replicate 8 0))).1
              filledIn).map fun sent =>
                (decide (sent.content.length ≤ 16),
                  (receive other sent).content)) =
      some (true, [7, 0, 0, 0, 3, 0, 0, 2, 1, 2, 3]) := by
    decide +kernel
  obtain ⟨first, allocated, rest⟩ := Option.bind_eq_some_iff.mp executed
  obtain ⟨other, otherAllocated, ended⟩ := Option.bind_eq_some_iff.mp rest
  obtain ⟨sent, run, view⟩ := exists_run_of_execute ended
  simp only [Prod.mk.injEq, decide_eq_true_eq] at view
  obtain ⟨room, content⟩ := view
  have received := received_of_run (by unfold BufferFits; decide)
    ⟨by decide, by decide⟩ allocated (by decide) (by decide) run
    (by unfold BufferFits; decide) ⟨by decide, by decide⟩ otherAllocated room
  have fields : lspPacketLayout.valuesAfter
      (lspPacketLayout.load
        (BufferOp.run first (.put (List.replicate 8 0))).1.memory
        first.buff.lspPacket) (filledIn.flatMap PacketOp.stores) .srcPort =
      8 := rfl
  refine ⟨first, other, sent, allocated, otherAllocated, run, content, ?_⟩
  rw [received.fields, fields]

end Examples

end Liblsp
