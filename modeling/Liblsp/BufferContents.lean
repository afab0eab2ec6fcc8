import Liblsp.Base.Machine
import Liblsp.PacketBuffer

/-!
# A packet buffer is a byte string with headroom

A caller fills the region that a put or a push returns, and reads the one that
a pull returns.  Used so, the bytes between `data` and `tail` are a list that
grows at both ends and is consumed at the front.
-/

namespace Liblsp

open Base

/-- A call together with what its caller does at the returned pointer. -/
inductive BufferOp where
  | put (bytes : List UInt8)
  | push (bytes : List UInt8)
  | pull (len : Nat)

/-- A byte string between two rooms to grow. -/
structure ByteString where
  headroom : Nat
  bytes : List UInt8
  tailroom : Nat

namespace BufferOp

/-- The answer is `none` for `NULL`, and otherwise the bytes that the caller
finds: none for a put or a push, the removed ones for a pull. -/
def run (packet : PacketBuffer) :
    BufferOp → PacketBuffer × Option (List UInt8)
  | .put bytes => packet.fill (lspBufferPut packet.buff bytes.length) bytes
  | .push bytes => packet.fill (lspBufferPush packet.buff bytes.length) bytes
  | .pull len =>
      let count := min len (lspBufferLength packet.buff)
      let (buff, start) := lspBufferPull packet.buff len
      (packet.update buff,
        some (readAround (packet.update buff).memory start count))

def reference (string : ByteString) :
    BufferOp → ByteString × Option (List UInt8)
  | .put bytes =>
      if bytes.length ≤ string.tailroom then
        ({ string with
          bytes := string.bytes ++ bytes
          tailroom := string.tailroom - bytes.length }, some [])
      else (string, none)
  | .push bytes =>
      if bytes.length ≤ string.headroom then
        ({ string with
          headroom := string.headroom - bytes.length
          bytes := bytes ++ string.bytes }, some [])
      else (string, none)
  | .pull len =>
      let count := min len string.bytes.length
      ({ string with
        headroom := string.headroom + count
        bytes := string.bytes.drop count }, some (string.bytes.take count))

/-! ## One operation -/

section Steps

variable {packet : PacketBuffer}

theorem run_put_refused {bytes : List UInt8}
    (full : packet.buff.tailroom < bytes.length) :
    run packet (.put bytes) = (packet, none) := by
  rw [run, lspBufferPut, if_pos full, PacketBuffer.fill,
    PacketBuffer.update_buff]

theorem run_push_refused {bytes : List UInt8}
    (full : packet.buff.headroom < bytes.length) :
    run packet (.push bytes) = (packet, none) := by
  rw [run, lspBufferPush, if_pos full, PacketBuffer.fill,
    PacketBuffer.update_buff]

/-- What an operation does to a buffer in place: it moves the pointers and
leaves all bytes behind the descriptor to its caller. -/
structure Moves (packet next : PacketBuffer) (buff : LspBuffer)
    (memory : Nat → UInt8) : Prop where
  inPlace : next.InPlace
  buff : next.buff = buff
  memory : ∀ address, packet.block + alignedSizeofBuffer ≤ address →
    address < 18446744073709551616 → next.memory address = memory address

theorem run_put (inPlace : packet.InPlace) {bytes : List UInt8}
    (room : bytes.length ≤ packet.buff.tailroom) :
    Moves packet (run packet (.put bytes)).1
        { packet.buff with
          tailroom := packet.buff.tailroom - bytes.length
          tail := packet.buff.tail + bytes.length }
        (writeCells packet.memory packet.buff.tail bytes) ∧
      (run packet (.put bytes)).2 = some [] := by
  have moved := inPlace.consistent.lspBufferPut_eq room
  have consistent := inPlace.consistent.put bytes.length
  have valid := packet.valid_buff.put bytes.length
  rw [moved] at consistent valid
  have behind := Nat.le_trans inPlace.data_le inPlace.consistent.ordered
  have within := inPlace.end_lt
  obtain ⟨buff, memory⟩ := @PacketBuffer.fill_some packet _
    packet.buff.tail bytes rfl valid behind (by omega)
  rw [run, moved]
  exact ⟨⟨inPlace.fill consistent rfl buff, buff, memory⟩, rfl⟩

theorem run_push (inPlace : packet.InPlace) {bytes : List UInt8}
    (room : bytes.length ≤ packet.buff.headroom) :
    Moves packet (run packet (.push bytes)).1
        { packet.buff with
          headroom := packet.buff.headroom - bytes.length
          data := packet.buff.data - bytes.length }
        (writeCells packet.memory (packet.buff.data - bytes.length) bytes) ∧
      (run packet (.push bytes)).2 = some [] := by
  have moved := inPlace.consistent.lspBufferPush_eq room
  have consistent := inPlace.consistent.push bytes.length
  have valid := packet.valid_buff.push bytes.length
  rw [moved] at consistent valid
  have descriptor := inPlace.descriptor
  have data := inPlace.consistent.data
  have ordered := inPlace.consistent.ordered
  have within := inPlace.end_lt
  obtain ⟨buff, memory⟩ := @PacketBuffer.fill_some packet _
    (packet.buff.data - bytes.length) bytes rfl valid (by omega) (by omega)
  rw [run, moved]
  exact ⟨⟨inPlace.fill consistent rfl buff, buff, memory⟩, rfl⟩

theorem run_pull (inPlace : packet.InPlace) (len : Nat) :
    Moves packet (run packet (.pull len)).1
        { packet.buff with
          data := packet.buff.data +
            min len (packet.buff.tail - packet.buff.data)
          headroom := packet.buff.headroom +
            min len (packet.buff.tail - packet.buff.data) }
        packet.memory ∧
      (run packet (.pull len)).2 =
        some (readCells packet.memory packet.buff.data
          (min len (packet.buff.tail - packet.buff.data))) := by
  have moved := inPlace.consistent.lspBufferPull_eq len
  have consistent := inPlace.consistent.pull len
  have valid := packet.valid_buff.pull len
  rw [moved] at consistent valid
  have length := inPlace.consistent.length
  have behind := inPlace.data_le
  have ordered := inPlace.consistent.ordered
  have within := inPlace.end_lt
  have count := Nat.min_le_right len (packet.buff.tail - packet.buff.data)
  have buff := @PacketBuffer.buff_update packet _ rfl valid
  simp only [run, moved, length]
  refine ⟨⟨?_, buff, ?_⟩, ?_⟩
  · exact @PacketBuffer.InPlace.fill packet _ inPlace consistent rfl none []
      buff
  · intro address outside small
    exact PacketBuffer.update_apply outside small
  · rw [readAround_eq (by omega)]
    apply congrArg some
    apply readCells_congr
    intro address after before
    exact PacketBuffer.update_apply (by omega) (by omega)

end Steps

/-- The buffer holds the string. -/
structure Holds (packet : PacketBuffer) (string : ByteString) : Prop where
  inPlace : packet.InPlace
  headroom : packet.buff.headroom = string.headroom
  tailroom : packet.buff.tailroom = string.tailroom
  content : packet.content = string.bytes

namespace Holds

variable {packet : PacketBuffer} {string : ByteString}

theorem length (holds : Holds packet string) :
    packet.buff.tail = packet.buff.data + string.bytes.length := by
  have ordered := holds.inPlace.consistent.ordered
  have count := congrArg List.length holds.content
  rw [PacketBuffer.content, length_readAround,
    holds.inPlace.consistent.length] at count
  omega

theorem cells (holds : Holds packet string) :
    readCells packet.memory packet.buff.data string.bytes.length =
      string.bytes := by
  have length := holds.length
  have within := holds.inPlace.end_lt
  have content := holds.content
  rw [PacketBuffer.content, holds.inPlace.consistent.length,
    readAround_eq (by omega)] at content
  have count : packet.buff.tail - packet.buff.data = string.bytes.length :=
    by omega
  rw [← count]
  exact content

theorem content_of_cells (inPlace : packet.InPlace) {bytes : List UInt8}
    (length : packet.buff.tail = packet.buff.data + bytes.length)
    (cells : readCells packet.memory packet.buff.data bytes.length = bytes) :
    packet.content = bytes := by
  have within := inPlace.end_lt
  have count : packet.buff.tail - packet.buff.data = bytes.length := by omega
  rw [PacketBuffer.content, inPlace.consistent.length, count,
    readAround_eq (by omega)]
  exact cells

/-- A moved buffer holds what lies between its pointers in the memory that the
caller has left. -/
theorem of_moves {next : PacketBuffer} {buff : LspBuffer}
    {memory : Nat → UInt8} (inPlace : packet.InPlace)
    (moves : Moves packet next buff memory)
    (head : buff.head = packet.buff.head)
    (headroom : buff.headroom = string.headroom)
    (tailroom : buff.tailroom = string.tailroom)
    (length : buff.tail = buff.data + string.bytes.length)
    (cells : readCells memory buff.data string.bytes.length = string.bytes) :
    Holds next string := by
  have isMoved := moves.buff
  have descriptor := inPlace.descriptor
  have data := moves.inPlace.consistent.data
  have within := moves.inPlace.end_lt
  rw [isMoved] at data within
  refine ⟨moves.inPlace, ?_, ?_, ?_⟩
  · rw [isMoved, headroom]
  · rw [isMoved, tailroom]
  · apply content_of_cells moves.inPlace
    · rw [isMoved, length]
    · have same : readCells next.memory buff.data string.bytes.length =
          readCells memory buff.data string.bytes.length := by
        apply readCells_congr
        intro address after before
        exact moves.memory address (by omega) (by omega)
      rw [isMoved, same, cells]

theorem put (holds : Holds packet string) (bytes : List UInt8) :
    Holds (run packet (.put bytes)).1 (reference string (.put bytes)).1 ∧
      (run packet (.put bytes)).2 = (reference string (.put bytes)).2 := by
  have length := holds.length
  by_cases room : bytes.length ≤ packet.buff.tailroom
  · have spare : bytes.length ≤ string.tailroom := holds.tailroom ▸ room
    obtain ⟨moves, answer⟩ := run_put holds.inPlace room
    simp only [reference, if_pos spare]
    refine ⟨of_moves holds.inPlace moves rfl holds.headroom ?_ ?_ ?_, answer⟩
    · rw [holds.tailroom]
    · rw [List.length_append, ← Nat.add_assoc, ← length]
    · have untouched := @readCells_writeCells_apart UInt8 packet.memory
        packet.buff.tail packet.buff.data string.bytes.length bytes
        (.inl (Nat.le_of_eq length.symm))
      rw [List.length_append, readCells_add, untouched, holds.cells,
        ← length, readCells_writeCells]
  · have none : ¬bytes.length ≤ string.tailroom := holds.tailroom ▸ room
    rw [run_put_refused (Nat.lt_of_not_le room)]
    simp only [reference, if_neg none]
    exact ⟨holds, trivial⟩

theorem push (holds : Holds packet string) (bytes : List UInt8) :
    Holds (run packet (.push bytes)).1 (reference string (.push bytes)).1 ∧
      (run packet (.push bytes)).2 = (reference string (.push bytes)).2 := by
  have length := holds.length
  have data := holds.inPlace.consistent.data
  by_cases room : bytes.length ≤ packet.buff.headroom
  · have spare : bytes.length ≤ string.headroom := holds.headroom ▸ room
    have start : packet.buff.data - bytes.length + bytes.length =
        packet.buff.data := by omega
    obtain ⟨moves, answer⟩ := run_push holds.inPlace room
    simp only [reference, if_pos spare]
    refine ⟨of_moves holds.inPlace moves rfl ?_ holds.tailroom ?_ ?_, answer⟩
    · rw [holds.headroom]
    · rw [List.length_append, ← Nat.add_assoc, start]
      exact length
    · have untouched := @readCells_writeCells_apart UInt8 packet.memory
        (packet.buff.data - bytes.length) packet.buff.data
        string.bytes.length bytes (.inr (Nat.le_of_eq start))
      rw [List.length_append, readCells_add, readCells_writeCells, start,
        untouched, holds.cells]
  · have none : ¬bytes.length ≤ string.headroom := holds.headroom ▸ room
    rw [run_push_refused (Nat.lt_of_not_le room)]
    simp only [reference, if_neg none]
    exact ⟨holds, trivial⟩

theorem pull (holds : Holds packet string) (len : Nat) :
    Holds (run packet (.pull len)).1 (reference string (.pull len)).1 ∧
      (run packet (.pull len)).2 = (reference string (.pull len)).2 := by
  have length := holds.length
  have count : packet.buff.tail - packet.buff.data = string.bytes.length :=
    by omega
  have within : min len string.bytes.length ≤ string.bytes.length :=
    Nat.min_le_right _ _
  obtain ⟨moves, answer⟩ := run_pull holds.inPlace len
  rw [count] at moves answer
  simp only [reference]
  refine ⟨of_moves holds.inPlace moves rfl ?_ holds.tailroom ?_ ?_, ?_⟩
  · rw [holds.headroom]
  · rw [List.length_drop]
    change packet.buff.tail = packet.buff.data +
      min len string.bytes.length + _
    omega
  · rw [List.length_drop, ← drop_readCells packet.memory within, holds.cells]
  · rw [answer, ← take_readCells packet.memory within, holds.cells]

end Holds

theorem simulates : Simulates Holds run reference := by
  intro packet string op holds
  cases op with
  | put bytes => exact holds.put bytes
  | push bytes => exact holds.push bytes
  | pull len => exact holds.pull len

/-! ## Encapsulation -/

/-- Push headers one after the other, then pull them off again. -/
def encapsulate (headers : List (List UInt8)) : List BufferOp :=
  headers.map .push ++
    headers.reverse.map fun header => .pull header.length

private theorem encapsulate_cons (header : List UInt8)
    (headers : List (List UInt8)) :
    encapsulate (header :: headers) =
      [.push header] ++ (encapsulate headers ++ [.pull header.length]) := by
  simp [encapsulate]

/-- Headers that fit come off in reverse and leave the string as it was. -/
theorem reference_encapsulate (headers : List (List UInt8))
    (string : ByteString)
    (fit : headers.flatten.length ≤ string.headroom) :
    play reference string (encapsulate headers) =
      (string, headers.map (fun _ => some []) ++
        headers.reverse.map some) := by
  induction headers generalizing string with
  | nil => rfl
  | cons header headers induction =>
      rw [List.flatten_cons, List.length_append] at fit
      have room : header.length ≤ string.headroom := by omega
      let pushed : ByteString :=
        { string with
          headroom := string.headroom - header.length
          bytes := header ++ string.bytes }
      have first : play reference string [.push header] =
          (pushed, [some []]) := by
        simp [play, reference, room, pushed]
      have inner := induction pushed (by
        change _ ≤ string.headroom - header.length
        omega)
      have last : play reference pushed [.pull header.length] =
          (string, [some header]) := by
        simp [play, reference, pushed, room]
      rw [encapsulate_cons, play_append, first, play_append, inner, last]
      simp

theorem reference_of_none {string : ByteString} {op : BufferOp}
    (refused : (reference string op).2 = none) :
    (reference string op).1 = string := by
  cases op with
  | put bytes =>
      simp only [reference] at refused ⊢
      split at refused
      · cases refused
      · rename_i full
        rw [if_neg full]
  | push bytes =>
      simp only [reference] at refused ⊢
      split at refused
      · cases refused
      · rename_i full
        rw [if_neg full]
  | pull len => cases refused

/-- What a caller can rely on in a buffer that stands for a string. -/
structure RefinesString (packet : PacketBuffer) (string : ByteString) :
    Prop where
  content : packet.content = string.bytes
  refused : ∀ op, (run packet op).2 = none →
    (run packet op).1.content = packet.content
  unwraps : ∀ headers : List (List UInt8),
    headers.flatten.length ≤ packet.buff.headroom →
    (play run packet (encapsulate headers)).2 =
        headers.map (fun _ => some []) ++ headers.reverse.map some ∧
      (play run packet (encapsulate headers)).1.content = packet.content

theorem Holds.refinesString {packet : PacketBuffer} {string : ByteString}
    (holds : Holds packet string) : RefinesString packet string := by
  constructor
  · exact holds.content
  · intro op refused
    obtain ⟨next, answer⟩ := simulates packet string op holds
    have same := reference_of_none (answer.symm.trans refused)
    rw [next.content, same, holds.content]
  · intro headers fit
    obtain ⟨last, answers⟩ := simulates.play holds (encapsulate headers)
    rw [holds.headroom] at fit
    rw [reference_encapsulate headers string fit] at last answers
    refine ⟨answers, ?_⟩
    rw [last.content, holds.content]

/-! ## From an allocation on -/

theorem exists_alloc (iface : Option LspInterface) (len block : Nat)
    (memory : Nat → UInt8) :
    ∃ packet, PacketBuffer.alloc iface len memory (some block) =
      some packet :=
  ⟨_, rfl⟩

theorem alloc_some {iface : Option LspInterface} {len block : Nat}
    {memory : Nat → UInt8} {packet : PacketBuffer}
    (allocated : PacketBuffer.alloc iface len memory (some block) =
      some packet) :
    ∃ buff, lspBufferAlloc iface len (some block) = some buff ∧
      packet = (PacketBuffer.mk iface block memory).update buff := by
  cases allocated
  exact ⟨_, rfl, rfl⟩

theorem holds_of_alloc {iface : Option LspInterface} {len block : Nat}
    {memory : Nat → UInt8} {packet : PacketBuffer}
    (allocated : PacketBuffer.alloc iface len memory (some block) =
      some packet)
    (fits : BufferFits iface len)
    (isBlock : IsBlock block (lspBufferBlocksize iface len)) :
    Holds packet ⟨lspBufferHeadroom iface, [], len⟩ ∧
      packet.buff.lspPacket = packet.buff.data := by
  obtain ⟨buff, succeeded, isFirst⟩ := alloc_some allocated
  obtain ⟨consistent, parts⟩ :=
    LspBuffer.consistent_of_alloc succeeded fits isBlock
  have small : len < 18446744073709551616 := by
    unfold BufferFits at fits
    omega
  have iface_eq : buff.iface = iface := by
    cases succeeded
    rfl
  have stored : packet.buff = buff := by
    rw [isFirst]
    exact PacketBuffer.buff_update iface_eq.symm
      (LspBuffer.valid_of_alloc succeeded small)
  have block_eq : packet.block = block := by
    rw [isFirst]
    rfl
  have inPlace : packet.InPlace := by
    constructor
    · rw [stored]
      exact consistent
    · rw [stored, block_eq]
      exact Nat.le_of_eq parts.head.symm
  refine ⟨⟨inPlace, ?_, ?_, ?_⟩, ?_⟩
  · rw [stored, parts.headroom]
  · rw [stored, parts.tailroom]
  · apply Holds.content_of_cells inPlace
    · rw [stored, parts.empty]
      rfl
    · rfl
  · rw [stored, parts.lspPacket]

/-- Whatever is put, pushed and pulled, the bytes of a buffer that an
allocation returns are those of the byte string, and the caller finds the same
bytes. -/
def BufferRefines (iface : Option LspInterface) (len : Nat) : Prop :=
  ∀ block memory packet, IsBlock block (lspBufferBlocksize iface len) →
    PacketBuffer.alloc iface len memory (some block) = some packet →
    ∀ ops : List BufferOp,
      let string : ByteString := ⟨lspBufferHeadroom iface, [], len⟩
      RefinesString (play run packet ops).1 (play reference string ops).1 ∧
        (play run packet ops).2 = (play reference string ops).2

theorem bufferRefines_of_fits {iface : Option LspInterface} {len : Nat}
    (fits : BufferFits iface len) : BufferRefines iface len := by
  intro block memory packet isBlock allocated ops
  obtain ⟨start, _⟩ := holds_of_alloc allocated fits isBlock
  obtain ⟨last, answers⟩ := simulates.play start ops
  exact ⟨last.refinesString, answers⟩

/-! ## Blocks whose size has wrapped around -/

section Wrapped

variable {iface : Option LspInterface} {len : Nat}

theorem length_pull_zero {buff : LspBuffer}
    (beyond : buff.tail < wrapSize buff.data) :
    lspBufferLength (lspBufferPull buff 0).1 = 0 := by
  have moved : (lspBufferPull buff 0).1.tail =
      (lspBufferPull buff 0).1.data := by
    simp only [lspBufferPull, Nat.not_lt_zero, if_false, Nat.add_zero,
      if_pos beyond]
  rw [lspBufferLength, moved, Int.sub_self]
  rfl

/-- With all the room in use the data reach around the address space, and
`tail` comes before `data`. -/
theorem tail_lt_data {buff : LspBuffer} (wraps : ¬BufferFits iface len)
    (noWrap : len + lspBufferHeadroom iface < 18446744073709551616)
    (allocated : lspBufferAlloc iface len (some 4096) = some buff) :
    let full := (lspBufferPush (lspBufferPut buff len).1
      (lspBufferHeadroom iface)).1
    full.tail < wrapSize full.data := by
  have descriptor : alignedSizeofBuffer = 80 := rfl
  cases allocated
  simp only [lspBufferPut, lspBufferPush, Nat.lt_irrefl, if_false]
  simp only [BufferFits, wrapSize, toSize] at wraps ⊢
  omega

theorem run_put_same (packet : PacketBuffer) (len : Nat) :
    ∃ bytes : List UInt8, bytes.length = len ∧
      (run packet (.put bytes)).1.buff = (lspBufferPut packet.buff len).1 := by
  obtain ⟨bytes, length, same⟩ :=
    packet.fill_same (lspBufferPut packet.buff len) len
  have iface : packet.iface = (lspBufferPut packet.buff len).1.iface :=
    (LspBuffer.iface_put packet.buff len).symm
  refine ⟨bytes, length, ?_⟩
  rw [run, length, same,
    PacketBuffer.buff_update iface (packet.valid_buff.put len)]

theorem run_push_same (packet : PacketBuffer) (len : Nat) :
    ∃ bytes : List UInt8, bytes.length = len ∧
      (run packet (.push bytes)).1.buff =
        (lspBufferPush packet.buff len).1 := by
  obtain ⟨bytes, length, same⟩ :=
    packet.fill_same (lspBufferPush packet.buff len) len
  have iface : packet.iface = (lspBufferPush packet.buff len).1.iface :=
    (LspBuffer.iface_push packet.buff len).symm
  refine ⟨bytes, length, ?_⟩
  rw [run, length, same,
    PacketBuffer.buff_update iface (packet.valid_buff.push len)]

theorem content_pull_zero {packet : PacketBuffer}
    (beyond : packet.buff.tail < wrapSize packet.buff.data) :
    (run packet (.pull 0)).1.content = [] := by
  have iface : packet.iface = (lspBufferPull packet.buff 0).1.iface :=
    (LspBuffer.iface_pull packet.buff 0).symm
  have moved := PacketBuffer.buff_update iface (packet.valid_buff.pull 0)
  have empty := length_pull_zero beyond
  simp only [run, PacketBuffer.content]
  rw [moved, empty]
  rfl

/-- In such a block a full buffer loses its content to a pull of nothing. -/
theorem not_bufferRefines (wraps : ¬BufferFits iface len)
    (noWrap : len + lspBufferHeadroom iface < 18446744073709551616) :
    ¬BufferRefines iface len := by
  obtain ⟨size, short⟩ := LspBuffer.lspBufferBlocksize_lt wraps noWrap
  have descriptor : alignedSizeofBuffer = 80 := rfl
  have isBlock : IsBlock 4096 (lspBufferBlocksize iface len) :=
    ⟨by decide, by omega⟩
  obtain ⟨packet, allocated⟩ := exists_alloc iface len 4096 fun _ => 0
  obtain ⟨buff, succeeded, isFirst⟩ := alloc_some allocated
  have sameIface : iface = buff.iface := by
    cases succeeded
    rfl
  have stored : packet.buff = buff := by
    rw [isFirst]
    exact PacketBuffer.buff_update sameIface
      (LspBuffer.valid_of_alloc succeeded (by omega))
  obtain ⟨payload, payloadLength, filled⟩ := run_put_same packet len
  obtain ⟨header, headerLength, full⟩ :=
    run_push_same (run packet (.put payload)).1 (lspBufferHeadroom iface)
  have beyond := tail_lt_data wraps noWrap succeeded
  rw [filled, stored] at full
  rw [← full] at beyond
  intro refines
  obtain ⟨string, _⟩ := refines 4096 _ packet isBlock allocated
    [.put payload, .push header, .pull 0]
  have content := string.content
  have lost := content_pull_zero beyond
  simp only [play] at content
  rw [lost] at content
  simp only [reference, payloadLength, headerLength, Nat.le_refl, if_true,
    List.nil_append, Nat.zero_min, List.drop_zero] at content
  have lengths := congrArg List.length content
  rw [List.length_append, headerLength, payloadLength,
    List.length_nil] at lengths
  omega

end Wrapped

/-- An allocated buffer is a byte string with headroom exactly when the size
of its block does not wrap around. -/
theorem bufferRefines_iff {iface : Option LspInterface} {len : Nat}
    (noWrap : len + lspBufferHeadroom iface < 18446744073709551616) :
    BufferRefines iface len ↔ BufferFits iface len := by
  constructor
  · intro refines
    by_contra wraps
    exact not_bufferRefines wraps noWrap refines
  · exact bufferRefines_of_fits

section Examples

/-- A payload that is pulled past its end, and a push without room. -/
def clippedPull : List BufferOp :=
  [.put [5, 6, 7], .push [1, 2], .push [9, 9, 9, 9, 9, 9, 9], .pull 4,
    .pull 3, .put [8]]

theorem bufferRefines_clippedPull :
    ∃ packet, PacketBuffer.alloc none 4 (fun _ => 0) (some 4096) =
        some packet ∧
      (play run packet clippedPull).2 =
        [some [], some [], none, some [1, 2, 5, 6], some [7], some []] ∧
      RefinesString (play run packet clippedPull).1 ⟨11, [8], 0⟩ := by
  have refines := (@bufferRefines_iff none 4 (by decide)).mpr
    (by unfold BufferFits; decide)
  obtain ⟨string, answers⟩ := refines 4096 (fun _ => 0) _
    ⟨by decide, by decide⟩ rfl clippedPull
  exact ⟨_, rfl, answers.trans (by decide), string⟩

/-- An interface whose headers are eight bytes shorter than none. -/
def shortHeaders : LspInterface := ⟨-8⟩

/-- A header of 24 bytes. -/
def overwriting : List UInt8 :=
  [48, 16, 0, 0, 0, 0, 0, 0, 0, 0, 0, 0, 0, 0, 0, 0, 0, 0, 0, 0, 0, 0, 0, 0]

/-- The length and the headroom do not wrap around, but the size of the block
does: it is 76, and the data begin in the descriptor.  A push returns the
place of `tail`, which the caller overwrites. -/
theorem descriptor_overwritten :
    4 + lspBufferHeadroom (some shortHeaders) < 18446744073709551616 ∧
      lspBufferBlocksize (some shortHeaders) 4 = 76 ∧
      (∃ packet, PacketBuffer.alloc (some shortHeaders) 4 (fun _ => 0)
          (some 4096) = some packet ∧
        (lspBufferPush packet.buff overwriting.length).2 =
          some (packet.block + 8 * BufferField.tail.unit) ∧
        (run packet (.push overwriting)).1.content = []) ∧
      ¬BufferRefines (some shortHeaders) 4 := by
  have isBlock : IsBlock 4096 (lspBufferBlocksize (some shortHeaders) 4) :=
    ⟨by decide, by decide⟩
  have lost : ∀ packet, PacketBuffer.alloc (some shortHeaders) 4
      (fun _ => 0) (some 4096) = some packet →
      (run packet (.push overwriting)).1.content = [] := by
    intro packet allocated
    cases allocated
    decide +kernel
  refine ⟨by decide, by decide, ⟨_, rfl, by decide +kernel, lost _ rfl⟩, ?_⟩
  intro refines
  obtain ⟨string, _⟩ := refines 4096 (fun _ => 0) _ isBlock rfl
    [.push overwriting]
  have content := string.content
  have kept : (play reference ⟨lspBufferHeadroom (some shortHeaders), [], 4⟩
      [.push overwriting]).1.bytes = overwriting := by
    decide
  rw [kept] at content
  have empty := (lost _ rfl).symm.trans content
  cases empty

end Examples

end BufferOp

end Liblsp
