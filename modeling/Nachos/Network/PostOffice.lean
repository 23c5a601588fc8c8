import Nachos.Lib.GuardedRun
import Nachos.Network.Packets

/-!
# The post office

This module embeds `machine/network.cc` and `network/post.cc` for any number of machines.
`Send` puts the two headers in front of the data and hands the packet to the network
under `sendLock`; `CheckPktAvail`, an interrupt handler, moves one packet from the socket
into `inbox`; the postal worker takes it from there, reads the mail header and puts it
into a mailbox; `Receive` takes it out.

A thread that waits for a lock, a semaphore or a mailbox makes its step when it can:
which of several waiting threads comes first is left open.  An operation of a lock, of a
semaphore or of the `SynchList` of a mailbox is one step, and so is an interrupt handler.
How these operations come about is not repeated here: `Threads.LockDiscipline`,
`Threads.SemaphoreDiscipline` and `Threads.ListOrder` show for every client of the kernel
that a lock has one owner, that a `P` takes one of what the first value and the `V`s have
put there, and that a `SynchList` hands out, under its lock, what was put into it and in
this order.  So each of them takes effect at one moment between its call and its return,
and the steps of the machines at these moments are a run here.  The network
may drop a packet, the socket of the receiver may refuse it, and the host may lose it on
its way; else the packets from one machine to another arrive as they were sent and in
this order.

`letters` and `read` are the history: the messages in the order in which they are handed
to the network, and what `Receive` hands out.
-/

namespace Nachos
namespace Network

open Threads Filesys

/-- `class Mail`. -/
structure Mail where
  pktHdr : PacketHeader
  mailHdr : MailHeader
  data : Memory

def Mail.letter (mail : Mail) : Letter :=
  ⟨mail.mailHdr, bytes mail.data mail.mailHdr.length.toNat⟩

/-- Where the postal worker is: before `messageAvailable->P()`, behind it, and behind
`network->Receive(buffer)`. -/
inductive WorkerPoint
  | waiting
  | signalled
  | received (pktHdr : PacketHeader)

/-- Where a thread is that uses the post office. -/
inductive ClientPoint
  | outside
  /-- In `Send`, before `sendLock->Acquire()`. -/
  | ready (pktHdr : PacketHeader) (buffer : Memory) (letter : Letter)
  | locked (pktHdr : PacketHeader) (buffer : Memory) (letter : Letter)
  /-- Before `messageSent->P()`. -/
  | sent (success : Bool)
  /-- Before `sendLock->Release()`. -/
  | done (success : Bool)
  /-- In `Receive`, before `messages->Remove()`, with the buffer of the caller. -/
  | asking (box : Int) (data : Memory)
  /-- Before the last `ASSERT` of `Receive`. -/
  | taken (mail : Mail)

/-- A machine: its `Network`, its `PostOffice` and the threads that use them. -/
structure Host where
  sendBusy : Bool
  inHdr : PacketHeader
  inbox : Memory
  /-- The `NetworkSendInt` interrupts that are pending. -/
  sending : Nat
  messageAvailable : Nat
  messageSent : Nat
  sendLock : Option ThreadId
  boxes : Int → List Mail
  worker : WorkerPoint
  /-- The buffer of the postal worker. -/
  buffer : Memory
  thread : ThreadId → ClientPoint
  letters : List (NetworkAddress × Letter)
  read : Int → List Mail

/-- Why there is no step. -/
inductive PostStop
  | assertFailed
  | blocked
  deriving DecidableEq, Repr

namespace Host

/-- A thread goes on to another point. -/
def move (h : Host) (t : ThreadId) (point : ClientPoint) : Host :=
  { h with thread := Function.update h.thread t point }

/-- What `Network::Send` puts into the socket, if it does, and what it returns: `lost` is
the draw, and `accepted` says whether the socket of the receiver takes the packet. -/
structure Outcome where
  packet : Option Memory
  success : Bool
  host : Host

/-- `Network::Send`. -/
def networkSend (ident : NetworkAddress) (hdr : PacketHeader) (data : Memory)
    (lost accepted : Bool) (unset : Memory) (h : Host) : Except PostStop Outcome :=
  if h.sendBusy = false ∧ 0 < hdr.length.toNat ∧ hdr.length.toNat ≤ maxPacketSize ∧
      hdr.fromMachine = ident then
    let scheduled := { h with sending := h.sending + 1 }
    if lost then .ok ⟨none, true, scheduled⟩
    else if accepted then
      .ok ⟨some (bcopy data 0 (hdr.store unset) headerSize hdr.length.toNat), true, scheduled⟩
    else .ok ⟨none, false, scheduled⟩
  else .error .assertFailed

/-- `Network::SendDone`, with `PostOffice::PacketSent`. -/
def sendDone (h : Host) : Except PostStop Host :=
  if h.sending = 0 then .error .blocked
  else .ok { h with
    sending := h.sending - 1, sendBusy := false, messageSent := h.messageSent + 1 }

/-- The packet that `Network::CheckPktAvail` reads, with `PostOffice::IncomingPacket`. -/
def readPacket (ident : NetworkAddress) (packet : Memory) (h : Host) : Except PostStop Host :=
  let inHdr := PacketHeader.load packet
  if inHdr.toMachine = ident ∧ inHdr.length.toNat ≤ maxPacketSize then
    .ok { h with
      inHdr := inHdr
      inbox := bcopy packet headerSize h.inbox 0 inHdr.length.toNat
      messageAvailable := h.messageAvailable + 1 }
  else .error .assertFailed

/-- `Network::Receive`, into the buffer of the postal worker. -/
def networkReceive (h : Host) : PacketHeader × Host :=
  (h.inHdr, { h with
    inHdr := { h.inHdr with length := 0 }
    buffer :=
      if h.inHdr.length ≠ 0 then bcopy h.inbox 0 h.buffer 0 h.inHdr.length.toNat
      else h.buffer })

/-- `PostOffice::Send` up to `sendLock->Acquire()`. -/
def send (numBoxes : Int) (netAddr : NetworkAddress) (t : ThreadId) (pktHdr : PacketHeader)
    (mailHdr : MailHeader) (data unset : Memory) (h : Host) : Except PostStop Host :=
  match h.thread t with
  | .outside =>
      if mailHdr.length.toNat ≤ maxMailSize ∧ 0 ≤ mailHdr.toBox.toInt ∧
          mailHdr.toBox.toInt < numBoxes then
        .ok (h.move t (.ready
          { pktHdr with
            fromMachine := netAddr, length := mailHdr.length + BitVec.ofNat 32 headerSize }
          (bcopy data 0 (mailHdr.store unset) headerSize mailHdr.length.toNat)
          ⟨mailHdr, bytes data mailHdr.length.toNat⟩))
      else .error .assertFailed
  | _ => .error .blocked

/-- `PostOffice::Receive` up to `messages->Remove()`. -/
def receive (numBoxes box : Int) (t : ThreadId) (data : Memory) (h : Host) :
    Except PostStop Host :=
  match h.thread t with
  | .outside =>
      if 0 ≤ box ∧ box < numBoxes then .ok (h.move t (.asking box data))
      else .error .assertFailed
  | _ => .error .blocked

/-- `Network::Send`, called in `PostOffice::Send`: the packet comes with the machine that
it goes to. -/
def transmit (ident : NetworkAddress) (t : ThreadId) (lost accepted : Bool) (unset : Memory)
    (h : Host) : Except PostStop (Option (NetworkAddress × Memory) × Host) :=
  match h.thread t with
  | .locked pktHdr buffer letter =>
      match h.networkSend ident pktHdr buffer lost accepted unset with
      | .error stop => .error stop
      | .ok outcome =>
          .ok (outcome.packet.map fun packet => (pktHdr.toMachine, packet),
            { outcome.host with
              letters := outcome.host.letters ++ [(pktHdr.toMachine, letter)] }.move t
                (.sent outcome.success))
  | _ => .error .blocked

/-- `MailBox::Get`: the next mail as it comes to the caller. -/
def get (box : Int) (data : Memory) (h : Host) : Except PostStop (Mail × Host) :=
  match h.boxes box with
  | [] => .error .blocked
  | mail :: rest =>
      let taken := { mail with data := bcopy mail.data 0 data 0 mail.mailHdr.length.toNat }
      .ok (taken, { h with
        boxes := Function.update h.boxes box rest
        read := Function.update h.read box (h.read box ++ [taken]) })

/-- A thread in `Send` or `Receive` goes on. -/
def goOn (t : ThreadId) (h : Host) : Except PostStop Host :=
  match h.thread t with
  | .outside => .error .blocked
  | .ready pktHdr buffer letter =>
      if h.sendLock = none then
        .ok ({ h with sendLock := some t }.move t (.locked pktHdr buffer letter))
      else .error .blocked
  -- `transmit`
  | .locked _ _ _ => .error .blocked
  | .sent success =>
      if h.messageSent = 0 then .error .blocked
      else .ok ({ h with messageSent := h.messageSent - 1 }.move t (.done success))
  | .done _ => .ok ({ h with sendLock := none }.move t .outside)
  | .asking box data =>
      match h.get box data with
      | .error stop => .error stop
      | .ok (mail, h') => .ok (h'.move t (.taken mail))
  | .taken mail =>
      if mail.mailHdr.length.toNat ≤ maxMailSize then .ok (h.move t .outside)
      else .error .assertFailed

/-- `MailBox::Put`, with the constructor of `Mail`. -/
def put (box : Int) (pktHdr : PacketHeader) (mailHdr : MailHeader) (data unset : Memory)
    (h : Host) : Except PostStop Host :=
  if mailHdr.length.toNat ≤ maxMailSize then
    let mail := ⟨pktHdr, mailHdr, bcopy data 0 unset 0 mailHdr.length.toNat⟩
    .ok { h with boxes := Function.update h.boxes box (h.boxes box ++ [mail]) }
  else .error .assertFailed

/-- The round of `PostOffice::PostalDelivery`. -/
def work (numBoxes : Int) (unset : Memory) (h : Host) : Except PostStop Host :=
  match h.worker with
  | .waiting =>
      if h.messageAvailable = 0 then .error .blocked
      else .ok { h with messageAvailable := h.messageAvailable - 1, worker := .signalled }
  | .signalled =>
      let (pktHdr, h') := h.networkReceive
      .ok { h' with worker := .received pktHdr }
  | .received pktHdr =>
      let mailHdr := MailHeader.load h.buffer
      if 0 ≤ mailHdr.toBox.toInt ∧ mailHdr.toBox.toInt < numBoxes ∧
          mailHdr.length.toNat ≤ maxMailSize then
        match h.put mailHdr.toBox.toInt pktHdr mailHdr (behindHeader h.buffer) unset with
        | .error stop => .error stop
        | .ok h' => .ok { h' with worker := .waiting }
      else .error .assertFailed

end Host

/-- The machines, and the packets in the sockets: `packets m k` are on their way from
machine `m` to machine `k`. -/
structure PostOffices where
  host : NetworkAddress → Host
  packets : NetworkAddress → NetworkAddress → List Memory

/-- What happens next on machine `m`, or to the packets. -/
inductive PostLabel
  | send (m : NetworkAddress) (t : ThreadId) (pktHdr : PacketHeader) (mailHdr : MailHeader)
      (data unset : Memory)
  | receive (m : NetworkAddress) (t : ThreadId) (box : Int) (data : Memory)
  | transmit (m : NetworkAddress) (t : ThreadId) (lost accepted : Bool) (unset : Memory)
  | goOn (m : NetworkAddress) (t : ThreadId)
  | work (m : NetworkAddress) (unset : Memory)
  | sendDone (m : NetworkAddress)
  /-- The network of machine `k` polls; the next packet in its socket is from machine `m`. -/
  | poll (m k : NetworkAddress)
  /-- The host loses a packet. -/
  | lose (m k : NetworkAddress) (place : Nat)

namespace PostOffices

/-- The machines when their post offices have been constructed.  `inHdr.length` is zero;
the other fields of the header and the buffers have not been set. -/
def start (unset : NetworkAddress → PacketHeader) (memory : NetworkAddress → Memory) :
    PostOffices where
  host m :=
    { sendBusy := false
      inHdr := { unset m with length := 0 }
      inbox := memory m
      sending := 0
      messageAvailable := 0
      messageSent := 0
      sendLock := none
      boxes := fun _ => []
      worker := .waiting
      buffer := memory m
      thread := fun _ => .outside
      letters := []
      read := fun _ => [] }
  packets _ _ := []

def setHost (s : PostOffices) (m : NetworkAddress) (h : Host) : PostOffices :=
  { s with host := Function.update s.host m h }

def setPackets (s : PostOffices) (m k : NetworkAddress) (packets : List Memory) :
    PostOffices :=
  { s with packets := Function.update s.packets m (Function.update (s.packets m) k packets) }

/-- A machine makes a step of its own. -/
def stepHost (m : NetworkAddress) (f : Host → Except PostStop Host) (s : PostOffices) :
    Except PostStop PostOffices := do
  .ok (s.setHost m (← f (s.host m)))

/-- Machine `m` hands a message to the network. -/
def transmit (m : NetworkAddress) (t : ThreadId) (lost accepted : Bool) (unset : Memory)
    (s : PostOffices) : Except PostStop PostOffices :=
  match (s.host m).transmit m t lost accepted unset with
  | .error stop => .error stop
  | .ok (none, h) => .ok (s.setHost m h)
  | .ok (some (k, packet), h) => .ok ((s.setPackets m k (s.packets m k ++ [packet])).setHost m h)

/-- `Network::CheckPktAvail` on machine `k`. -/
def poll (m k : NetworkAddress) (s : PostOffices) : Except PostStop PostOffices :=
  if (s.host k).inHdr.length ≠ 0 then .ok s
  else
    match s.packets m k with
    | [] => .ok s
    | packet :: rest => (s.setPackets m k rest).stepHost k fun h => h.readPacket k packet

/-- One step. -/
def step (numBoxes : Int) : PostLabel → PostOffices → Except PostStop PostOffices
  | .send m t pktHdr mailHdr data unset, s =>
      s.stepHost m fun h => h.send numBoxes m t pktHdr mailHdr data unset
  | .receive m t box data, s => s.stepHost m fun h => h.receive numBoxes box t data
  | .transmit m t lost accepted unset, s => s.transmit m t lost accepted unset
  | .goOn m t, s => s.stepHost m fun h => h.goOn t
  | .work m unset, s => s.stepHost m fun h => h.work numBoxes unset
  | .sendDone m, s => s.stepHost m fun h => h.sendDone
  | .poll m k, s => s.poll m k
  | .lose m k place, s => .ok (s.setPackets m k ((s.packets m k).eraseIdx place))

end PostOffices

end Network
end Nachos
