import Nachos.Filesys.FileHeader

/-!
# Packets and parcels

The headers of `machine/network.h` and `network/post.h`, and the buffers they are written
into.  A message is sent with two headers in front of its data: the mail header, which is
data to the network, and the packet header.  A header is copied as it is in memory, three
`int`s one behind the other.  What lies in a buffer behind the message has not been set.

A packet header with the data that belongs to it is a parcel.  Parcels that agree on the
data that their header counts carry the same message.
-/

namespace Nachos
namespace Network

open Filesys

abbrev NetworkAddress := Word

/-- `class PacketHeader`. -/
structure PacketHeader where
  toMachine : NetworkAddress
  fromMachine : NetworkAddress
  length : Word
  deriving DecidableEq, Repr

/-- `class MailHeader`. -/
structure MailHeader where
  toBox : Word
  fromBox : Word
  length : Word
  deriving DecidableEq, Repr

/-- `sizeof(PacketHeader)` and `sizeof(MailHeader)`. -/
def headerSize : Nat := 12

/-- `MaxWireSize`. -/
def maxWireSize : Nat := 64

/-- `MaxPacketSize`. -/
def maxPacketSize : Nat := maxWireSize - headerSize

/-- `MaxMailSize`. -/
def maxMailSize : Nat := maxPacketSize - headerSize

/-- Three `int`s at the start of a buffer. -/
def storeInts (buffer : Memory) (a b c : Word) : Memory :=
  ((buffer.storeInt 0 a).storeInt 4 b).storeInt 8 c

/-- `*(PacketHeader *)buffer = hdr`. -/
def PacketHeader.store (hdr : PacketHeader) (buffer : Memory) : Memory :=
  storeInts buffer hdr.toMachine hdr.fromMachine hdr.length

/-- `*(PacketHeader *)buffer`. -/
def PacketHeader.load (buffer : Memory) : PacketHeader :=
  ⟨buffer.loadInt 0, buffer.loadInt 4, buffer.loadInt 8⟩

/-- `bcopy((char *) &mailHdr, buffer, sizeof(MailHeader))`. -/
def MailHeader.store (hdr : MailHeader) (buffer : Memory) : Memory :=
  storeInts buffer hdr.toBox hdr.fromBox hdr.length

/-- `*(MailHeader *)buffer`. -/
def MailHeader.load (buffer : Memory) : MailHeader :=
  ⟨buffer.loadInt 0, buffer.loadInt 4, buffer.loadInt 8⟩

/-- The first bytes of a buffer. -/
def bytes (buffer : Memory) (n : Nat) : List Byte := (List.range n).map buffer

/-- `buffer + sizeof(MailHeader)`. -/
def behindHeader (buffer : Memory) : Memory := fun i => buffer (headerSize + i)

section Buffers

variable {buffer buffer' data : Memory} {a b c : Word} {n : Nat}

theorem loadInt_storeInts :
    (storeInts buffer a b c).loadInt 0 = a ∧ (storeInts buffer a b c).loadInt 4 = b ∧
      (storeInts buffer a b c).loadInt 8 = c := by
  unfold storeInts
  refine ⟨?_, ?_, loadInt_storeInt_self _ _ _⟩
  · rw [loadInt_storeInt_of_ne (by omega), loadInt_storeInt_of_ne (by omega),
      loadInt_storeInt_self]
  · rw [loadInt_storeInt_of_ne (by omega), loadInt_storeInt_self]

/-- What is copied to the start of a buffer. -/
theorem bcopy_start {i : Nat} (hi : i < n) : bcopy data 0 buffer 0 n i = data i := by
  unfold bcopy
  rw [if_pos (by omega)]
  congr 1
  omega

/-- What lies behind a header is copied. -/
theorem bcopy_behindHeader :
    bcopy data headerSize buffer 0 n = bcopy (behindHeader data) 0 buffer 0 n := by
  unfold bcopy behindHeader
  funext i
  rw [Nat.zero_add (i - 0)]

/-- What is copied behind a header leaves the header as it is. -/
theorem loadInt_bcopy_behind {k : Nat} (hk : k + 4 ≤ headerSize) :
    (bcopy data 0 buffer headerSize n).loadInt k = buffer.loadInt k := by
  apply loadInt_congr
  intro i _ hi
  unfold bcopy
  rw [if_neg (by omega)]

/-- What is copied behind a header lies there. -/
theorem behindHeader_bcopy {i : Nat} (hi : i < n) :
    behindHeader (bcopy data 0 buffer headerSize n) i = data i := by
  unfold behindHeader bcopy
  rw [if_pos (by omega)]
  congr 1
  omega

theorem PacketHeader.load_bcopy_store (hdr : PacketHeader) :
    PacketHeader.load (bcopy data 0 (hdr.store buffer) headerSize n) = hdr := by
  obtain ⟨hto, hfrom, hlength⟩ :=
    @loadInt_storeInts buffer hdr.toMachine hdr.fromMachine hdr.length
  unfold PacketHeader.load
  rw [loadInt_bcopy_behind (by decide), loadInt_bcopy_behind (by decide),
    loadInt_bcopy_behind (by decide)]
  unfold PacketHeader.store
  rw [hto, hfrom, hlength]

theorem MailHeader.load_bcopy_store (hdr : MailHeader) :
    MailHeader.load (bcopy data 0 (hdr.store buffer) headerSize n) = hdr := by
  obtain ⟨hto, hfrom, hlength⟩ :=
    @loadInt_storeInts buffer hdr.toBox hdr.fromBox hdr.length
  unfold MailHeader.load
  rw [loadInt_bcopy_behind (by decide), loadInt_bcopy_behind (by decide),
    loadInt_bcopy_behind (by decide)]
  unfold MailHeader.store
  rw [hto, hfrom, hlength]

theorem MailHeader.load_congr (h : ∀ i, i < headerSize → buffer i = buffer' i) :
    MailHeader.load buffer = MailHeader.load buffer' := by
  have h : ∀ i, i < 12 → buffer i = buffer' i := h
  unfold MailHeader.load
  rw [loadInt_congr fun i _ hi => h i (by omega), loadInt_congr fun i _ hi => h i (by omega),
    loadInt_congr fun i _ hi => h i (by omega)]

theorem bytes_congr (h : ∀ i, i < n → buffer i = buffer' i) : bytes buffer n = bytes buffer' n := by
  apply List.map_congr_left
  intro i hi
  exact h i (List.mem_range.mp hi)

end Buffers

/-- What the sender of a message has passed to `Send`, and what is read in a mailbox: the
mail header and the data. -/
structure Letter where
  mailHdr : MailHeader
  data : List Byte
  deriving DecidableEq, Repr

/-- A packet header, and data with a mail header at its start. -/
structure Parcel where
  pktHdr : PacketHeader
  content : Memory

namespace Parcel

def mailHdr (p : Parcel) : MailHeader := MailHeader.load p.content

def letter (p : Parcel) : Letter :=
  ⟨p.mailHdr, bytes (behindHeader p.content) p.mailHdr.length.toNat⟩

/-- The mailbox it is for. -/
def box (p : Parcel) : Int := p.mailHdr.toBox.toInt

/-- A parcel to machine `k`, whose post office has `numBoxes` mailboxes. -/
structure Valid (numBoxes : Int) (k : NetworkAddress) (p : Parcel) : Prop where
  receiver : p.pktHdr.toMachine = k
  size : p.pktHdr.length.toNat = headerSize + p.mailHdr.length.toNat
  small : p.mailHdr.length.toNat ≤ maxMailSize
  low : 0 ≤ p.box
  high : p.box < numBoxes

/-- The headers are the same, and the data that they count. -/
structure Agrees (p q : Parcel) : Prop where
  pktHdr : p.pktHdr = q.pktHdr
  content : ∀ i, i < q.pktHdr.length.toNat → p.content i = q.content i

variable {numBoxes : Int} {k : NetworkAddress} {p q : Parcel}

theorem Valid.pos (h : p.Valid numBoxes k) : 0 < p.pktHdr.length.toNat := by
  have hsize := h.size
  have hheader : 0 < headerSize := by decide
  omega

theorem Valid.length_ne (h : p.Valid numBoxes k) : p.pktHdr.length ≠ 0 := by
  intro hzero
  have hpos := h.pos
  rw [hzero] at hpos
  exact absurd hpos (by decide)

theorem Valid.le_maxPacketSize (h : p.Valid numBoxes k) :
    p.pktHdr.length.toNat ≤ maxPacketSize := by
  have hsize := h.size
  have hsmall := h.small
  unfold maxMailSize at hsmall
  have hheader : headerSize ≤ maxPacketSize := by decide
  omega

theorem Agrees.mailHdr (h : p.Agrees q) (hq : q.Valid numBoxes k) : p.mailHdr = q.mailHdr := by
  apply MailHeader.load_congr
  intro i hi
  apply h.content
  have hsize := hq.size
  omega

theorem Agrees.letter (h : p.Agrees q) (hq : q.Valid numBoxes k) : p.letter = q.letter := by
  unfold Parcel.letter
  rw [h.mailHdr hq]
  congr 1
  apply bytes_congr
  intro i hi
  apply h.content
  have hsize := hq.size
  omega

theorem Agrees.box (h : p.Agrees q) (hq : q.Valid numBoxes k) : p.box = q.box := by
  unfold Parcel.box
  rw [h.mailHdr hq]

theorem Agrees.valid (h : p.Agrees q) (hq : q.Valid numBoxes k) : p.Valid numBoxes k where
  receiver := by rw [h.pktHdr, hq.receiver]
  size := by rw [h.pktHdr, h.mailHdr hq, hq.size]
  small := by rw [h.mailHdr hq]; exact hq.small
  low := by rw [h.box hq]; exact hq.low
  high := by rw [h.box hq]; exact hq.high

end Parcel

/-- What is read in a packet. -/
def unwrap (packet : Memory) : Parcel := ⟨PacketHeader.load packet, behindHeader packet⟩

/-- A packet carries what was put into it. -/
theorem unwrap_wrapped (p : Parcel) (unset : Memory) :
    (unwrap (bcopy p.content 0 (p.pktHdr.store unset) headerSize p.pktHdr.length.toNat)).Agrees p
    where
  pktHdr := p.pktHdr.load_bcopy_store
  content _ hi := behindHeader_bcopy hi

/-- A parcel is copied to the start of another buffer. -/
theorem Parcel.agrees_bcopy (p : Parcel) (target : Memory) :
    (Parcel.mk p.pktHdr (bcopy p.content 0 target 0 p.pktHdr.length.toNat)).Agrees p where
  pktHdr := rfl
  content _ hi := bcopy_start hi

end Network
end Nachos
