import Nachos.Network.PostOffice

/-!
# The mail between machines

Between two machines the messages for a mailbox are in a row: those that `Receive` has
handed out, those in the mailbox, the one that the postal worker holds, the one in
`inbox`, and those in the socket.  A step of a machine leaves the row as it is, moves its
next message on, or puts the message that is sent at its end; only the network and the
host take messages out of it.

`inbox` is free when no message is announced: `messageAvailable` counts the packet in it
until the postal worker comes for it, so that the interrupt handler never overwrites a
message and the worker never reads one twice.
-/

namespace Nachos
namespace Network

open Threads Filesys Lib

/-- The messages from machine `m` among mail. -/
def lettersFrom (m : NetworkAddress) (mails : List Mail) : List Letter :=
  (mails.filter fun mail => mail.pktHdr.fromMachine = m).map Mail.letter

/-- The messages from machine `m` for a mailbox among parcels. -/
def lettersFor (m : NetworkAddress) (b : Int) (parcels : List Parcel) : List Letter :=
  (parcels.filter fun p => p.pktHdr.fromMachine = m ∧ p.box = b).map Parcel.letter

namespace Host

/-- The parcel that the postal worker holds. -/
def held (h : Host) : List Parcel :=
  match h.worker with
  | .received pktHdr => [⟨pktHdr, h.buffer⟩]
  | _ => []

/-- The parcel in `inbox`. -/
def arrived (h : Host) : List Parcel :=
  if h.inHdr.length ≠ 0 then [⟨h.inHdr, h.inbox⟩] else []

/-- The signals that the postal worker has taken and not acted upon. -/
def signals (h : Host) : Nat :=
  match h.worker with
  | .signalled => 1
  | _ => 0

/-- The messages from machine `m` to a mailbox that have come in. -/
def stream (h : Host) (m : NetworkAddress) (b : Int) : List Letter :=
  lettersFrom m (h.read b ++ h.boxes b) ++ lettersFor m b (h.held ++ h.arrived)

/-- The messages that have been sent to a mailbox of machine `k`. -/
def sentTo (h : Host) (k : NetworkAddress) (b : Int) : List Letter :=
  (h.letters.filter fun l => l.1 = k ∧ l.2.mailHdr.toBox.toInt = b).map Prod.snd

end Host

namespace PostOffices

/-- The messages from machine `m` to a mailbox of machine `k`, in a row. -/
def row (s : PostOffices) (m k : NetworkAddress) (b : Int) : List Letter :=
  (s.host k).stream m b ++ lettersFor m b ((s.packets m k).map unwrap)

/-- What is taken out of a mailbox from one sender is part of what it has sent there, in
the same order and each message once, with its header and its data. -/
def InOrder (s : PostOffices) : Prop :=
  ∀ m k b, (lettersFrom m ((s.host k).read b)).Sublist ((s.host m).sentTo k b)

/-- Messages are not too long, and boxes are in range. -/
def Proper (numBoxes : Int) : PostLabel → Prop
  | .send _ _ _ mailHdr _ _ =>
      mailHdr.length.toNat ≤ maxMailSize ∧ 0 ≤ mailHdr.toBox.toInt ∧
        mailHdr.toBox.toInt < numBoxes
  | .receive _ _ box _ => 0 ≤ box ∧ box < numBoxes
  | _ => True

end PostOffices

/-- A step whose assertions hold; what it leads to is within `P`. -/
def Safe {A : Type} (P : A → Prop) : Except PostStop A → Prop
  | .ok a => P a
  | .error stop => stop = .blocked

section Letters

variable {m : NetworkAddress} {b : Int}

theorem lettersFrom_append (x y : List Mail) :
    lettersFrom m (x ++ y) = lettersFrom m x ++ lettersFrom m y := by
  unfold lettersFrom
  rw [List.filter_append, List.map_append]

theorem lettersFor_append (x y : List Parcel) :
    lettersFor m b (x ++ y) = lettersFor m b x ++ lettersFor m b y := by
  unfold lettersFor
  rw [List.filter_append, List.map_append]

theorem lettersFor_sublist {x y : List Parcel} (h : x.Sublist y) :
    (lettersFor m b x).Sublist (lettersFor m b y) :=
  (h.filter _).map _

/-- A single parcel. -/
theorem lettersFor_singleton (p : Parcel) :
    lettersFor m b [p] = if p.pktHdr.fromMachine = m ∧ p.box = b then [p.letter] else [] := by
  unfold lettersFor
  by_cases hp : p.pktHdr.fromMachine = m ∧ p.box = b
  · rw [if_pos hp, List.filter_cons_of_pos (by simpa using hp)]
    rfl
  · rw [if_neg hp, List.filter_cons_of_neg (by simpa using hp)]
    rfl

/-- Parcels that agree carry the same messages. -/
theorem lettersFor_agrees {numBoxes : Int} {k : NetworkAddress} {p q : Parcel}
    (h : p.Agrees q) (hq : q.Valid numBoxes k) : lettersFor m b [p] = lettersFor m b [q] := by
  rw [lettersFor_singleton, lettersFor_singleton, h.pktHdr, h.box hq, h.letter hq]

theorem lettersFrom_cons_congr {mail mail' : Mail} {rest : List Mail}
    (hpktHdr : mail.pktHdr = mail'.pktHdr) (hletter : mail.letter = mail'.letter) :
    lettersFrom m (mail :: rest) = lettersFrom m (mail' :: rest) := by
  unfold lettersFrom
  rw [List.filter_cons, List.filter_cons, hpktHdr]
  split
  · rw [List.map_cons, List.map_cons, hletter]
  · rfl

/-- A mail is put together from a parcel. -/
theorem lettersFrom_parcel {p : Parcel} {mail : Mail} (hpktHdr : mail.pktHdr = p.pktHdr)
    (hletter : mail.letter = p.letter) (hbox : p.box = b) :
    lettersFrom m [mail] = lettersFor m b [p] := by
  rw [lettersFor_singleton]
  unfold lettersFrom
  by_cases hm : p.pktHdr.fromMachine = m
  · rw [if_pos ⟨hm, hbox⟩, List.filter_cons_of_pos (by simpa [hpktHdr] using hm)]
    show [mail.letter] = [p.letter]
    rw [hletter]
  · rw [if_neg (fun h => hm h.1), List.filter_cons_of_neg (by simpa [hpktHdr] using hm)]
    rfl

/-- The letter of a mail whose data is copied. -/
theorem letter_bcopy (pktHdr : PacketHeader) (mailHdr : MailHeader) (source target : Memory) :
    Mail.letter ⟨pktHdr, mailHdr, bcopy source 0 target 0 mailHdr.length.toNat⟩ =
      ⟨mailHdr, bytes source mailHdr.length.toNat⟩ := by
  unfold Mail.letter
  congr 1
  apply bytes_congr
  intro i hi
  exact bcopy_start hi

end Letters

namespace ClientPoint

/-- What a thread has in hand is in order. -/
def Fits (numBoxes : Int) (k : NetworkAddress) : ClientPoint → Prop
  | .ready pktHdr buffer letter | .locked pktHdr buffer letter =>
      (Parcel.mk pktHdr buffer).Valid numBoxes pktHdr.toMachine ∧ pktHdr.fromMachine = k ∧
        (Parcel.mk pktHdr buffer).letter = letter
  | .taken mail => mail.mailHdr.length.toNat ≤ maxMailSize
  | _ => True

end ClientPoint

namespace Host

/-- The invariant of machine `k`. -/
structure Sound (numBoxes : Int) (k : NetworkAddress) (h : Host) : Prop where
  idle : h.sendBusy = false
  parcels : ∀ p ∈ h.held ++ h.arrived, p.Valid numBoxes k
  available : h.messageAvailable + h.signals = h.arrived.length
  clients : ∀ t, (h.thread t).Fits numBoxes k
  mails : ∀ b, ∀ mail ∈ h.boxes b, mail.mailHdr.length.toNat ≤ maxMailSize

/-- A step of machine `k` that keeps what has come in and what has been sent. -/
structure Keeps (numBoxes : Int) (k : NetworkAddress) (h h' : Host) : Prop where
  sound : h'.Sound numBoxes k
  stream : ∀ m b, h'.stream m b = h.stream m b
  letters : h'.letters = h.letters

variable {numBoxes : Int} {k : NetworkAddress} {h h' : Host} {t : ThreadId}
  {point : ClientPoint}

theorem Sound.move (hs : h.Sound numBoxes k) (hpoint : point.Fits numBoxes k) :
    (h.move t point).Sound numBoxes k where
  idle := hs.idle
  parcels := hs.parcels
  available := hs.available
  clients u := by
    show (Function.update h.thread t point u).Fits numBoxes k
    by_cases hu : u = t
    · rw [hu, Function.update_self]
      exact hpoint
    · rw [Function.update_of_ne hu]
      exact hs.clients u
  mails := hs.mails

theorem Sound.keeps_move (hs : h.Sound numBoxes k) (hpoint : point.Fits numBoxes k) :
    h.Keeps numBoxes k (h.move t point) :=
  ⟨hs.move hpoint, fun _ _ => rfl, rfl⟩

/-- What `Send` passes to the network. -/
theorem fits_ready {pktHdr : PacketHeader} {mailHdr : MailHeader} {data unset : Memory}
    (hsmall : mailHdr.length.toNat ≤ maxMailSize) (hlow : 0 ≤ mailHdr.toBox.toInt)
    (hhigh : mailHdr.toBox.toInt < numBoxes) :
    (ClientPoint.ready
      { pktHdr with
        fromMachine := k, length := mailHdr.length + BitVec.ofNat 32 headerSize }
      (bcopy data 0 (mailHdr.store unset) headerSize mailHdr.length.toNat)
      ⟨mailHdr, bytes data mailHdr.length.toNat⟩).Fits numBoxes k := by
  have hload : ∀ pktHdr', (Parcel.mk pktHdr'
      (bcopy data 0 (mailHdr.store unset) headerSize mailHdr.length.toNat)).mailHdr = mailHdr :=
    fun _ => mailHdr.load_bcopy_store
  have hlength : (mailHdr.length + BitVec.ofNat 32 headerSize).toNat =
      headerSize + mailHdr.length.toNat := by
    have hsmall : mailHdr.length.toNat ≤ 40 := hsmall
    unfold headerSize
    rw [BitVec.toNat_add, BitVec.toNat_ofNat]
    omega
  refine ⟨⟨rfl, ?_, ?_, ?_, ?_⟩, rfl, ?_⟩
  · rw [hload]
    exact hlength
  · rw [hload]
    exact hsmall
  · unfold Parcel.box
    rw [hload]
    exact hlow
  · unfold Parcel.box
    rw [hload]
    exact hhigh
  · unfold Parcel.letter
    rw [hload]
    congr 1
    apply bytes_congr
    intro i hi
    exact behindHeader_bcopy hi

theorem Sound.send (hs : h.Sound numBoxes k) {pktHdr : PacketHeader} {mailHdr : MailHeader}
    {data unset : Memory} (hsmall : mailHdr.length.toNat ≤ maxMailSize)
    (hlow : 0 ≤ mailHdr.toBox.toInt) (hhigh : mailHdr.toBox.toInt < numBoxes) :
    Safe (h.Keeps numBoxes k) (h.send numBoxes k t pktHdr mailHdr data unset) := by
  unfold Host.send
  cases h.thread t with
  | outside =>
      simp only
      rw [if_pos ⟨hsmall, hlow, hhigh⟩]
      exact hs.keeps_move (fits_ready hsmall hlow hhigh)
  | _ => rfl

theorem Sound.receive (hs : h.Sound numBoxes k) {box : Int} {data : Memory} (hlow : 0 ≤ box)
    (hhigh : box < numBoxes) : Safe (h.Keeps numBoxes k) (h.receive numBoxes box t data) := by
  unfold Host.receive
  cases h.thread t with
  | outside =>
      simp only
      rw [if_pos ⟨hlow, hhigh⟩]
      exact hs.keeps_move trivial
  | _ => rfl

theorem Sound.sendDone (hs : h.Sound numBoxes k) : Safe (h.Keeps numBoxes k) h.sendDone := by
  unfold Host.sendDone
  split
  · rfl
  · exact ⟨⟨rfl, hs.parcels, hs.available, hs.clients, hs.mails⟩, fun _ _ => rfl, rfl⟩

/-- `Get` moves the next mail of a mailbox to what has been read. -/
theorem Sound.get (hs : h.Sound numBoxes k) {box : Int} {data : Memory} :
    Safe (fun out => h.Keeps numBoxes k out.2 ∧ out.1.mailHdr.length.toNat ≤ maxMailSize)
      (h.get box data) := by
  unfold Host.get
  cases hbox : h.boxes box with
  | nil => rfl
  | cons mail rest =>
      have hsmall := hs.mails box mail (by rw [hbox]; exact List.mem_cons_self)
      refine ⟨⟨⟨hs.idle, hs.parcels, hs.available, hs.clients, ?_⟩, ?_, rfl⟩, hsmall⟩
      · intro b mail' hmail'
        change mail' ∈ Function.update h.boxes box rest b at hmail'
        by_cases hb : b = box
        · rw [hb, Function.update_self] at hmail'
          exact hs.mails box mail' (by rw [hbox]; exact List.mem_cons_of_mem _ hmail')
        · rw [Function.update_of_ne hb] at hmail'
          exact hs.mails b mail' hmail'
      · intro m b
        show lettersFrom m (Function.update h.read box _ b ++ Function.update h.boxes box rest b) ++
          lettersFor m b (h.held ++ h.arrived) = _
        unfold Host.stream
        congr 1
        by_cases hb : b = box
        · rw [hb, Function.update_self, Function.update_self, hbox, List.append_assoc,
            lettersFrom_append (h.read box), lettersFrom_append (h.read box)]
          congr 1
          have htaken : Mail.letter ⟨mail.pktHdr, mail.mailHdr,
              bcopy mail.data 0 data 0 mail.mailHdr.length.toNat⟩ = mail.letter :=
            letter_bcopy mail.pktHdr mail.mailHdr mail.data data
          exact lettersFrom_cons_congr rfl htaken
        · rw [Function.update_of_ne hb, Function.update_of_ne hb]

/-- A thread in `Send` or `Receive` makes a step of its own. -/
theorem Sound.goOn (hs : h.Sound numBoxes k) : Safe (h.Keeps numBoxes k) (h.goOn t) := by
  have hclient := hs.clients t
  unfold Host.goOn
  cases hpoint : h.thread t with
  | outside => rfl
  | locked pktHdr buffer letter => rfl
  | ready pktHdr buffer letter =>
      rw [hpoint] at hclient
      simp only
      split
      · exact ⟨Sound.move ⟨hs.idle, hs.parcels, hs.available, hs.clients, hs.mails⟩ hclient,
          fun _ _ => rfl, rfl⟩
      · rfl
  | sent success =>
      simp only
      split
      · rfl
      · exact ⟨Sound.move ⟨hs.idle, hs.parcels, hs.available, hs.clients, hs.mails⟩ trivial,
          fun _ _ => rfl, rfl⟩
  | done success =>
      exact ⟨Sound.move ⟨hs.idle, hs.parcels, hs.available, hs.clients, hs.mails⟩ trivial,
        fun _ _ => rfl, rfl⟩
  | asking box data =>
      have hget : Safe _ (h.get box data) := hs.get
      simp only
      cases hresult : h.get box data with
      | error stop =>
          rw [hresult] at hget
          exact hget
      | ok out =>
          rw [hresult] at hget
          obtain ⟨hkeeps, hsmall⟩ := hget
          exact ⟨hkeeps.sound.move hsmall, hkeeps.stream, hkeeps.letters⟩
  | taken mail =>
      rw [hpoint] at hclient
      have hsmall : mail.mailHdr.length.toNat ≤ maxMailSize := hclient
      simp only
      rw [if_pos hsmall]
      exact hs.keeps_move trivial

/-- The postal worker takes the message that is announced. -/
theorem Sound.networkReceive (hs : h.Sound numBoxes k) (hworker : h.worker = .signalled) :
    h.Keeps numBoxes k { h.networkReceive.2 with worker := .received h.networkReceive.1 } := by
  have havailable := hs.available
  unfold signals at havailable
  rw [hworker] at havailable
  have hlength : h.inHdr.length ≠ 0 := by
    intro hzero
    unfold arrived at havailable
    rw [if_neg (not_not.mpr hzero)] at havailable
    simp at havailable
  have harrived : h.arrived = [⟨h.inHdr, h.inbox⟩] := if_pos hlength
  have hheld : h.held = [] := by
    unfold held
    rw [hworker]
  have hvalid : (Parcel.mk h.inHdr h.inbox).Valid numBoxes k :=
    hs.parcels _ (by rw [hheld, harrived]; exact List.mem_cons_self)
  have hagrees := Parcel.agrees_bcopy ⟨h.inHdr, h.inbox⟩ h.buffer
  have hparcels : ({ h.networkReceive.2 with
      worker := .received h.networkReceive.1 } : Host).held ++
      ({ h.networkReceive.2 with worker := .received h.networkReceive.1 } : Host).arrived =
        [⟨h.inHdr, bcopy h.inbox 0 h.buffer 0 h.inHdr.length.toNat⟩] := by
    show [Parcel.mk h.inHdr (if h.inHdr.length ≠ 0 then _ else h.buffer)] ++
      (if (0 : Word) ≠ 0 then _ else []) = _
    rw [if_pos hlength, if_neg (by decide), List.append_nil]
  refine ⟨⟨hs.idle, ?_, ?_, hs.clients, hs.mails⟩, ?_, rfl⟩
  · intro p hp
    rw [hparcels, List.mem_singleton] at hp
    rw [hp]
    exact hagrees.valid hvalid
  · rw [harrived] at havailable
    show h.messageAvailable + 0 = (if (0 : Word) ≠ 0 then _ else []).length
    rw [if_neg (by decide)]
    simpa using havailable
  · intro m b
    unfold stream
    rw [hparcels, hheld, harrived, List.nil_append, lettersFor_agrees hagrees hvalid]
    rfl

/-- The message that the postal worker holds is put into its mailbox. -/
theorem Sound.deliver (hs : h.Sound numBoxes k) {pktHdr : PacketHeader} {unset : Memory}
    (hworker : h.worker = .received pktHdr) :
    Safe (h.Keeps numBoxes k) (h.work numBoxes unset) := by
  have hheld : h.held = [⟨pktHdr, h.buffer⟩] := by
    unfold held
    rw [hworker]
  have hvalid : (Parcel.mk pktHdr h.buffer).Valid numBoxes k :=
    hs.parcels _ (by rw [hheld]; exact List.mem_cons_self)
  have hletter := letter_bcopy pktHdr (MailHeader.load h.buffer) (behindHeader h.buffer) unset
  have hsmall : (MailHeader.load h.buffer).length.toNat ≤ maxMailSize := hvalid.small
  unfold work
  rw [hworker]
  simp only
  rw [if_pos ⟨hvalid.low, hvalid.high, hsmall⟩]
  unfold put
  rw [if_pos hsmall]
  refine ⟨⟨hs.idle, ?_, ?_, hs.clients, ?_⟩, ?_, rfl⟩
  · intro p hp
    exact hs.parcels p (List.mem_append_right _ hp)
  · have havailable := hs.available
    unfold signals at havailable
    rw [hworker] at havailable
    exact havailable
  · intro b mail hmail
    change mail ∈ Function.update h.boxes _ (h.boxes _ ++ [_]) b at hmail
    by_cases hb : b = (MailHeader.load h.buffer).toBox.toInt
    · rw [hb, Function.update_self, List.mem_append, List.mem_singleton] at hmail
      rcases hmail with hold | rfl
      · exact hs.mails _ mail hold
      · exact hsmall
    · rw [Function.update_of_ne hb] at hmail
      exact hs.mails b mail hmail
  · intro m b
    show lettersFrom m (h.read b ++ Function.update h.boxes _ (h.boxes _ ++ [_]) b) ++
      lettersFor m b ([] ++ h.arrived) = _
    unfold stream
    rw [hheld, List.nil_append, lettersFor_append [_], ← List.append_assoc]
    congr 1
    by_cases hb : b = (MailHeader.load h.buffer).toBox.toInt
    · rw [hb, Function.update_self, ← List.append_assoc, lettersFrom_append (_ ++ _)]
      congr 1
      exact lettersFrom_parcel rfl hletter rfl
    · rw [Function.update_of_ne hb, lettersFor_singleton, if_neg (fun h => hb h.2.symm),
        List.append_nil]

theorem Sound.work (hs : h.Sound numBoxes k) (unset : Memory) :
    Safe (h.Keeps numBoxes k) (h.work numBoxes unset) := by
  cases hworker : h.worker with
  | waiting =>
      have hheld : h.held = [] := by
        unfold held
        rw [hworker]
      have hsignals : h.signals = 0 := by
        unfold signals
        rw [hworker]
      have havailable := hs.available
      unfold Host.work
      rw [hworker]
      simp only
      split
      · rfl
      · rename_i hsignal
        refine ⟨⟨hs.idle, ?_, ?_, hs.clients, hs.mails⟩, ?_, rfl⟩
        · intro p hp
          exact hs.parcels p (List.mem_append_right _ hp)
        · show h.messageAvailable - 1 + 1 = h.arrived.length
          omega
        · intro m b
          unfold stream
          rw [hheld]
          rfl
  | signalled =>
      unfold Host.work
      rw [hworker]
      exact hs.networkReceive hworker
  | received pktHdr => exact hs.deliver hworker

/-- A packet is read into `inbox` when it is free. -/
theorem Sound.readPacket (hs : h.Sound numBoxes k) (hfree : h.inHdr.length = 0)
    {packet : Memory} (hvalid : (unwrap packet).Valid numBoxes k) :
    Safe (fun h' => h'.Sound numBoxes k ∧ h'.letters = h.letters ∧
      ∀ m b, h'.stream m b = h.stream m b ++ lettersFor m b [unwrap packet])
      (h.readPacket k packet) := by
  have hempty : h.arrived = [] := if_neg (not_not.mpr hfree)
  have hagrees := (unwrap packet).agrees_bcopy h.inbox
  have hto : (PacketHeader.load packet).toMachine = k := hvalid.receiver
  have hlength : (PacketHeader.load packet).length ≠ 0 := hvalid.length_ne
  unfold Host.readPacket
  simp only
  rw [if_pos ⟨hto, hvalid.le_maxPacketSize⟩, bcopy_behindHeader]
  have harrived : (if (PacketHeader.load packet).length ≠ 0 then
      [Parcel.mk (PacketHeader.load packet) (bcopy (behindHeader packet) 0 h.inbox 0
        (PacketHeader.load packet).length.toNat)] else []) = [_] := if_pos hlength
  refine ⟨⟨hs.idle, ?_, ?_, hs.clients, hs.mails⟩, rfl, ?_⟩
  · intro p hp
    rcases List.mem_append.mp hp with hheld | hnew
    · exact hs.parcels p (List.mem_append_left _ hheld)
    · change p ∈ (if (PacketHeader.load packet).length ≠ 0 then _ else []) at hnew
      rw [harrived, List.mem_singleton] at hnew
      rw [hnew]
      exact hagrees.valid hvalid
  · have havailable := hs.available
    rw [hempty, List.length_nil] at havailable
    show h.messageAvailable + 1 + h.signals = List.length (if _ ≠ 0 then _ else [])
    rw [harrived, List.length_singleton]
    omega
  · intro m b
    show lettersFrom m (h.read b ++ h.boxes b) ++
      lettersFor m b (h.held ++ if _ ≠ 0 then _ else []) = _
    unfold stream
    rw [harrived, hempty, List.append_nil, lettersFor_append, ← List.append_assoc]
    exact congrArg _ (lettersFor_agrees hagrees hvalid)

/-- A message is handed to the network. -/
theorem Sound.transmit (hs : h.Sound numBoxes k) {lost accepted : Bool} {unset : Memory} :
    Safe (fun out => out.2.Sound numBoxes k ∧ (∀ m b, out.2.stream m b = h.stream m b) ∧
      ∃ dest letter, out.2.letters = h.letters ++ [(dest, letter)] ∧
        ∀ place packet, out.1 = some (place, packet) → place = dest ∧
          (unwrap packet).Valid numBoxes dest ∧ (unwrap packet).pktHdr.fromMachine = k ∧
          (unwrap packet).letter = letter)
      (h.transmit k t lost accepted unset) := by
  have hclient := hs.clients t
  unfold Host.transmit
  cases hpoint : h.thread t with
  | locked pktHdr buffer letter =>
      rw [hpoint] at hclient
      obtain ⟨hvalid, hfrom, hletter⟩ := hclient
      simp only
      unfold networkSend
      have hsize : 0 < pktHdr.length.toNat ∧ pktHdr.length.toNat ≤ maxPacketSize :=
        ⟨hvalid.pos, hvalid.le_maxPacketSize⟩
      rw [if_pos ⟨hs.idle, hsize.1, hsize.2, hfrom⟩]
      have hsound : ∀ success, ({ h with
          sending := h.sending + 1
          letters := h.letters ++ [(pktHdr.toMachine, letter)] }.move t (.sent success)).Sound
            numBoxes k := fun success =>
        Sound.move ⟨hs.idle, hs.parcels, hs.available, hs.clients, hs.mails⟩ trivial
      have hagrees := unwrap_wrapped ⟨pktHdr, buffer⟩ unset
      cases lost with
      | true =>
          exact And.intro (hsound true) ⟨fun _ _ => rfl, pktHdr.toMachine, letter, rfl,
            fun _ _ h => absurd h (by simp)⟩
      | false =>
          cases accepted with
          | true =>
              refine And.intro (hsound true)
                ⟨fun _ _ => rfl, pktHdr.toMachine, letter, rfl, ?_⟩
              intro place packet hpacket
              obtain ⟨rfl, rfl⟩ := Prod.mk.inj (Option.some.inj hpacket)
              exact ⟨rfl, hagrees.valid hvalid, hagrees.pktHdr ▸ hfrom,
                (hagrees.letter hvalid).trans hletter⟩
          | false =>
              exact And.intro (hsound false) ⟨fun _ _ => rfl, pktHdr.toMachine, letter, rfl,
                fun _ _ h => absurd h (by simp)⟩
  | _ => rfl

theorem sentTo_of_append {dest : NetworkAddress} {letter : Letter} {b : Int}
    (hletters : h'.letters = h.letters ++ [(dest, letter)]) :
    h'.sentTo k b =
      h.sentTo k b ++ if dest = k ∧ letter.mailHdr.toBox.toInt = b then [letter] else [] := by
  unfold sentTo
  rw [hletters, List.filter_append, List.map_append]
  congr 1
  by_cases hl : dest = k ∧ letter.mailHdr.toBox.toInt = b
  · rw [if_pos hl, List.filter_cons_of_pos (by simpa using hl)]
    rfl
  · rw [if_neg hl, List.filter_cons_of_neg (by simpa using hl)]
    rfl

theorem sentTo_congr {b : Int} (hletters : h'.letters = h.letters) :
    h'.sentTo k b = h.sentTo k b := by
  unfold sentTo
  rw [hletters]

end Host

namespace PostOffices

/-- The invariant. -/
structure Sound (numBoxes : Int) (s : PostOffices) : Prop where
  host : ∀ k, (s.host k).Sound numBoxes k
  packet : ∀ m k, ∀ packet ∈ s.packets m k,
    (unwrap packet).Valid numBoxes k ∧ (unwrap packet).pktHdr.fromMachine = m
  row : ∀ m k b, (s.row m k b).Sublist ((s.host m).sentTo k b)

variable {numBoxes : Int} {s : PostOffices} {m k : NetworkAddress} {h' : Host}

theorem packets_setPackets (packets : List Memory) (a j : NetworkAddress) :
    (s.setPackets m k packets).packets a j =
      if a = m ∧ j = k then packets else s.packets a j := by
  show Function.update s.packets m (Function.update (s.packets m) k packets) a j = _
  by_cases ha : a = m
  · rw [ha, Function.update_self]
    by_cases hj : j = k
    · rw [hj, Function.update_self, if_pos ⟨rfl, rfl⟩]
    · rw [Function.update_of_ne hj, if_neg (fun h => hj h.2)]
  · rw [Function.update_of_ne ha, if_neg (fun h => ha h.1)]

theorem setPackets_self : s.setPackets m k (s.packets m k) = s := by
  unfold setPackets
  rw [Function.update_eq_self, Function.update_eq_self]

theorem host_setHost (a : NetworkAddress) :
    (s.setHost m h').host a = if a = m then h' else s.host a := by
  show Function.update s.host m h' a = _
  rw [Function.update_apply]

theorem Sound.host_setHost (hs : s.Sound numBoxes) (hsound : h'.Sound numBoxes m)
    (a : NetworkAddress) : ((s.setHost m h').host a).Sound numBoxes a := by
  rw [PostOffices.host_setHost]
  by_cases ha : a = m
  · rw [if_pos ha, ha]
    exact hsound
  · rw [if_neg ha]
    exact hs.host a

/-- A step of a machine that neither sends nor reads a packet. -/
theorem Sound.keeps (hs : s.Sound numBoxes) (hkeeps : (s.host m).Keeps numBoxes m h') :
    (s.setHost m h').Sound numBoxes where
  host := hs.host_setHost hkeeps.sound
  packet := hs.packet
  row a k b := by
    have hrow := hs.row a k b
    unfold PostOffices.row at hrow ⊢
    have hstream : ((s.setHost m h').host k).stream a b = (s.host k).stream a b := by
      rw [PostOffices.host_setHost]
      by_cases hk : k = m
      · rw [if_pos hk, hk, hkeeps.stream]
      · rw [if_neg hk]
    have hsent : ((s.setHost m h').host a).sentTo k b = (s.host a).sentTo k b := by
      rw [PostOffices.host_setHost]
      by_cases ha : a = m
      · rw [if_pos ha, ha, Host.sentTo_congr hkeeps.letters]
      · rw [if_neg ha]
    rw [hstream, hsent]
    exact hrow

theorem Sound.stepHost (hs : s.Sound numBoxes) {f : Host → Except PostStop Host}
    (hsafe : Safe ((s.host m).Keeps numBoxes m) (f (s.host m))) :
    Safe (Sound numBoxes) (s.stepHost m f) := by
  unfold PostOffices.stepHost
  cases hf : f (s.host m) with
  | error stop =>
      rw [hf] at hsafe
      exact hsafe
  | ok h' =>
      rw [hf] at hsafe
      exact hs.keeps hsafe

/-- The message that is sent comes to the end of its row, if at all. -/
theorem Sound.sent (hs : s.Sound numBoxes) {dest : NetworkAddress} {letter : Letter}
    {packets : List Memory} (hsound : h'.Sound numBoxes m)
    (hstream : ∀ a b, h'.stream a b = (s.host m).stream a b)
    (hletters : h'.letters = (s.host m).letters ++ [(dest, letter)])
    (hpackets : packets = [] ∨ ∃ packet, packets = [packet] ∧
      (unwrap packet).Valid numBoxes dest ∧ (unwrap packet).pktHdr.fromMachine = m ∧
      (unwrap packet).letter = letter) :
    ((s.setPackets m dest (s.packets m dest ++ packets)).setHost m h').Sound numBoxes where
  host := hs.host_setHost hsound
  packet a j packet hpacket := by
    change packet ∈ (s.setPackets m dest (s.packets m dest ++ packets)).packets a j at hpacket
    rw [packets_setPackets] at hpacket
    split at hpacket
    · rename_i haj
      obtain ⟨rfl, rfl⟩ := haj
      rcases List.mem_append.mp hpacket with hold | hnew
      · exact hs.packet a j packet hold
      · rcases hpackets with rfl | ⟨packet', rfl, hvalid, hfrom, -⟩
        · exact absurd hnew (by simp)
        · rw [List.mem_singleton.mp hnew]
          exact ⟨hvalid, hfrom⟩
    · exact hs.packet a j packet hpacket
  row a k b := by
    have hrow := hs.row a k b
    unfold PostOffices.row at hrow ⊢
    rw [PostOffices.host_setHost, PostOffices.host_setHost]
    have hsame : (if k = m then h' else s.host k).stream a b = (s.host k).stream a b := by
      by_cases hk : k = m
      · rw [if_pos hk, hk, hstream]
      · rw [if_neg hk]
    change ((if k = m then h' else s.host k).stream a b ++ lettersFor a b
      (((s.setPackets m dest (s.packets m dest ++ packets)).packets a k).map unwrap)).Sublist
        ((if a = m then h' else s.host a).sentTo k b)
    rw [hsame, packets_setPackets]
    by_cases ha : a = m
    case neg =>
      rw [if_neg ha, if_neg (fun h => ha h.1)]
      exact hrow
    rw [if_pos ha, Host.sentTo_of_append hletters]
    rw [ha] at hrow ⊢
    by_cases hk : k = dest
    case neg =>
      rw [if_neg (fun h => hk h.2)]
      exact hrow.trans (List.sublist_append_left _ _)
    rw [if_pos ⟨rfl, hk⟩, ← hk, List.map_append, lettersFor_append, ← List.append_assoc]
    apply List.Sublist.append hrow
    rcases hpackets with rfl | ⟨packet, rfl, -, hfrom, hletter⟩
    · exact List.nil_sublist _
    · rw [List.map_singleton, lettersFor_singleton, hletter]
      have hbox : (unwrap packet).box = letter.mailHdr.toBox.toInt := by
        rw [← hletter]
        rfl
      rw [hbox]
      by_cases hb : letter.mailHdr.toBox.toInt = b
      · rw [if_pos ⟨hfrom, hb⟩, if_pos ⟨rfl, hb⟩]
      · rw [if_neg (fun h => hb h.2)]
        exact List.nil_sublist _

/-- A packet comes out of the socket. -/
theorem Sound.polled (hs : s.Sound numBoxes) {packet : Memory} {rest : List Memory}
    (hpackets : s.packets m k = packet :: rest) (hsound : h'.Sound numBoxes k)
    (hletters : h'.letters = (s.host k).letters)
    (hstream : ∀ a b, h'.stream a b = (s.host k).stream a b ++ lettersFor a b [unwrap packet]) :
    ((s.setPackets m k rest).setHost k h').Sound numBoxes where
  host := hs.host_setHost hsound
  packet a j packet' hpacket' := by
    change packet' ∈ (s.setPackets m k rest).packets a j at hpacket'
    rw [packets_setPackets] at hpacket'
    split at hpacket'
    · rename_i haj
      obtain ⟨rfl, rfl⟩ := haj
      exact hs.packet a j packet' (by rw [hpackets]; exact List.mem_cons_of_mem _ hpacket')
    · exact hs.packet a j packet' hpacket'
  row a j b := by
    have hrow := hs.row a j b
    have hfrom := (hs.packet m k packet (by rw [hpackets]; exact List.mem_cons_self)).2
    unfold PostOffices.row at hrow ⊢
    rw [PostOffices.host_setHost, PostOffices.host_setHost]
    change ((if j = k then h' else s.host j).stream a b ++ lettersFor a b
      (((s.setPackets m k rest).packets a j).map unwrap)).Sublist
        ((if a = k then h' else s.host a).sentTo j b)
    have hsent : (if a = k then h' else s.host a).sentTo j b = (s.host a).sentTo j b := by
      by_cases ha : a = k
      · rw [if_pos ha, ha, Host.sentTo_congr hletters]
      · rw [if_neg ha]
    rw [hsent, packets_setPackets]
    by_cases hj : j = k
    case neg =>
      rw [if_neg hj, if_neg (fun h => hj h.2)]
      exact hrow
    rw [if_pos hj, hstream, List.append_assoc, ← hj]
    by_cases ha : a = m
    · -- the packet goes from the socket to `inbox`
      rw [if_pos ⟨ha, rfl⟩, ← lettersFor_append]
      rw [ha, hj, hpackets] at hrow
      rw [ha, hj]
      exact hrow
    · rw [if_neg (fun h => ha h.1), lettersFor_singleton,
        if_neg (fun h => ha (h.1.symm.trans hfrom)), List.nil_append]
      exact hrow

/-- The host loses a packet. -/
theorem Sound.lose (hs : s.Sound numBoxes) (place : Nat) :
    (s.setPackets m k ((s.packets m k).eraseIdx place)).Sound numBoxes where
  host := hs.host
  packet a j packet hpacket := by
    rw [packets_setPackets] at hpacket
    split at hpacket
    · rename_i haj
      obtain ⟨rfl, rfl⟩ := haj
      exact hs.packet a j packet (List.mem_of_mem_eraseIdx hpacket)
    · exact hs.packet a j packet hpacket
  row a j b := by
    refine List.Sublist.trans ?_ (hs.row a j b)
    unfold PostOffices.row
    rw [packets_setPackets]
    apply List.Sublist.append_left
    apply lettersFor_sublist
    apply List.Sublist.map
    split
    · rename_i haj
      rw [haj.1, haj.2]
      exact List.eraseIdx_sublist _ _
    · exact List.Sublist.refl _

theorem Sound.transmit (hs : s.Sound numBoxes) {t : ThreadId} {lost accepted : Bool}
    {unset : Memory} : Safe (Sound numBoxes) (s.transmit m t lost accepted unset) := by
  have hsafe : Safe _ ((s.host m).transmit m t lost accepted unset) := (hs.host m).transmit
  unfold PostOffices.transmit
  cases hresult : (s.host m).transmit m t lost accepted unset with
  | error stop =>
      rw [hresult] at hsafe
      exact hsafe
  | ok out =>
      rw [hresult] at hsafe
      obtain ⟨hsound, hstream, dest, letter, hletters, hpacket⟩ := hsafe
      obtain ⟨sent, h'⟩ := out
      cases sent with
      | none =>
          have hnone := hs.sent hsound hstream hletters (Or.inl rfl)
          rw [List.append_nil, setPackets_self] at hnone
          exact hnone
      | some sent =>
          obtain ⟨hplace, hvalid, hfrom, hletter⟩ := hpacket sent.1 sent.2 rfl
          have hsent := hs.sent hsound hstream hletters
            (Or.inr ⟨sent.2, rfl, hvalid, hfrom, hletter⟩)
          rw [← hplace] at hsent
          exact hsent

theorem Sound.poll (hs : s.Sound numBoxes) : Safe (Sound numBoxes) (s.poll m k) := by
  unfold PostOffices.poll
  split
  · exact hs
  · rename_i hfree
    cases hpackets : s.packets m k with
    | nil => exact hs
    | cons packet rest =>
        have hvalid := (hs.packet m k packet (by rw [hpackets]; exact List.mem_cons_self)).1
        have hsafe := (hs.host k).readPacket (not_not.mp hfree) hvalid
        show Safe _ (do
          .ok ((s.setPackets m k rest).setHost k (← (s.host k).readPacket k packet)))
        cases hread : (s.host k).readPacket k packet with
        | error stop =>
            rw [hread] at hsafe
            exact hsafe
        | ok h' =>
            rw [hread] at hsafe
            obtain ⟨hsound, hletters, hstream⟩ := hsafe
            exact hs.polled hpackets hsound hletters hstream

/-- Every step of proper messages keeps the invariant, and no assertion fails. -/
theorem Sound.step {label : PostLabel} (hs : s.Sound numBoxes) (hproper : Proper numBoxes label) :
    Safe (Sound numBoxes) (step numBoxes label s) := by
  cases label with
  | send m t pktHdr mailHdr data unset =>
      exact hs.stepHost ((hs.host m).send hproper.1 hproper.2.1 hproper.2.2)
  | receive m t box data => exact hs.stepHost ((hs.host m).receive hproper.1 hproper.2)
  | transmit m t lost accepted unset => exact hs.transmit
  | goOn m t => exact hs.stepHost (hs.host m).goOn
  | work m unset => exact hs.stepHost ((hs.host m).work unset)
  | sendDone m => exact hs.stepHost (hs.host m).sendDone
  | poll m k => exact hs.poll
  | lose m k place => exact hs.lose place

/-- A step that is made is one of proper messages: `Send` and `Receive` check. -/
theorem proper_of_step {label : PostLabel} {s' : PostOffices}
    (hstep : step numBoxes label s = .ok s') : Proper numBoxes label := by
  cases label with
  | send m t pktHdr mailHdr data unset =>
      obtain ⟨h', hsend, -⟩ := bind_eq_ok hstep
      change (s.host m).send numBoxes m t pktHdr mailHdr data unset = .ok h' at hsend
      unfold Host.send at hsend
      split at hsend
      · split at hsend
        · rename_i hproper
          exact hproper
        · exact absurd hsend (by simp)
      · exact absurd hsend (by simp)
  | receive m t box data =>
      obtain ⟨h', hreceive, -⟩ := bind_eq_ok hstep
      change (s.host m).receive numBoxes box t data = .ok h' at hreceive
      unfold Host.receive at hreceive
      split at hreceive
      · split at hreceive
        · rename_i hproper
          exact hproper
        · exact absurd hreceive (by simp)
      · exact absurd hreceive (by simp)
  | _ => trivial

theorem sound_start (unset : NetworkAddress → PacketHeader) (memory : NetworkAddress → Memory) :
    (start unset memory).Sound numBoxes where
  host _ :=
    { idle := rfl
      parcels := fun _ hp => absurd hp (by simp [start, Host.held, Host.arrived])
      available := by simp [start, Host.signals, Host.arrived]
      clients := fun _ => trivial
      mails := fun _ _ hmail => absurd hmail (by simp [start]) }
  packet _ _ _ hpacket := absurd hpacket (by simp [start])
  row _ _ _ := List.Sublist.refl _

/-- The invariant along a run. -/
theorem Sound.run {s' : PostOffices} (hs : s.Sound numBoxes)
    (hrun : Reach (PostOffices.step numBoxes) (fun _ _ => True) s s') : s'.Sound numBoxes := by
  refine hrun.invariant (fun u v label hu _ hstep => ?_) hs
  have hsafe := hu.step (proper_of_step hstep)
  rw [hstep] at hsafe
  exact hsafe

/-- What has been handed out is the first part of a row. -/
theorem Sound.inOrder (hs : s.Sound numBoxes) : s.InOrder := by
  intro m k b
  refine List.Sublist.trans ?_ (hs.row m k b)
  unfold PostOffices.row Host.stream
  rw [lettersFrom_append, List.append_assoc, List.append_assoc]
  exact List.sublist_append_left _ _

/-- In every run, what is taken out of a mailbox from one machine is part of what that
machine has sent there, in this order and unchanged, and no assertion fails for messages
that are not too long and boxes that there are. -/
theorem mail_inOrder {unset : NetworkAddress → PacketHeader} {memory : NetworkAddress → Memory}
    (hrun : Reach (step numBoxes) (fun _ _ => True) (start unset memory) s) :
    s.InOrder ∧ ∀ label, Proper numBoxes label → step numBoxes label s ≠ .error .assertFailed := by
  have hs := (sound_start unset memory).run hrun
  refine ⟨hs.inOrder, fun label hproper hfailed => ?_⟩
  have hsafe := hs.step hproper
  rw [hfailed] at hsafe
  have hblocked : PostStop.assertFailed = .blocked := hsafe
  exact absurd hblocked (by decide)

/-- Machine 7 sends two messages to machine 9, and the first one gets lost. -/
def twoMessages : List PostLabel :=
  [.send 7 0 ⟨9, 0, 0⟩ ⟨2, 3, 1⟩ (fun _ => 65) (fun _ => 0),
    .send 7 1 ⟨9, 0, 0⟩ ⟨2, 3, 2⟩ (fun _ => 66) (fun _ => 0), .goOn 7 0,
    .transmit 7 0 true true (fun _ => 0), .sendDone 7, .goOn 7 0, .goOn 7 0, .goOn 7 1,
    .transmit 7 1 false true (fun _ => 0), .receive 9 0 2 (fun _ => 0), .poll 7 9,
    .work 9 (fun _ => 0), .work 9 (fun _ => 0), .work 9 (fun _ => 0), .goOn 9 0, .goOn 9 0]

theorem mail_inOrder_twoMessages :
    ∃ s, Reach (step 10) (fun _ _ => True) (start (fun _ => ⟨0, 0, 0⟩) fun _ _ => 0) s ∧
      ((s.host 9).read 2).map Mail.letter = [⟨⟨2, 3, 2⟩, [66, 66]⟩] ∧
      (s.host 7).sentTo 9 2 = [⟨⟨2, 3, 1⟩, [65]⟩, ⟨⟨2, 3, 2⟩, [66, 66]⟩] ∧ s.InOrder := by
  have hreplay : (replay (step 10) (fun _ _ => true) twoMessages
      (start (fun _ => ⟨0, 0, 0⟩) fun _ _ => 0)).any (fun s => decide
        (((s.host 9).read 2).map Mail.letter = [⟨⟨2, 3, 2⟩, [66, 66]⟩] ∧
          (s.host 7).sentTo 9 2 = [⟨⟨2, 3, 1⟩, [65]⟩, ⟨⟨2, 3, 2⟩, [66, 66]⟩])) = true := by
    decide +kernel
  obtain ⟨s, hrun, hread, hsent⟩ := exists_reach_of_replay (fun _ _ _ => trivial) hreplay
  exact ⟨s, hrun, hread, hsent, (mail_inOrder hrun).1⟩

end PostOffices

end Network
end Nachos
