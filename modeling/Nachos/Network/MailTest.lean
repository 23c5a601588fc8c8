import Nachos.Network.Delivery

/-!
# The test of the mail

This module embeds `MailTest` of `network/nettest.cc`, for any number of machines that run it.
A machine sends a message to mailbox 0 of another one, waits for the first message in its own
mailbox 0, acknowledges it to the mailbox that the message names, and waits in mailbox 1 for
the acknowledgement of its own message.  `Send` and `Receive` are those of the post office:
packets may be lost, and the machines, their threads and their interrupts come in any order.

The main thread is thread 0, and no other thread uses the post office.  A machine that has
halted does nothing more; packets for it stay in its socket.
-/

namespace Nachos
namespace Network

open Threads Filesys Lib

/-- Where the main thread of a machine is in `MailTest`. -/
inductive TestPoint
  | beginning
  /-- In the first `Send`, and behind it. -/
  | greeting
  | greeted
  /-- In the first `Receive`, and behind it. -/
  | listening
  | heard
  /-- In the second `Send`, and behind it. -/
  | acknowledging
  | acknowledged
  /-- In the second `Receive`, and behind it. -/
  | awaiting
  | finished
  | halted
  deriving DecidableEq, Repr

/-- A line that `MailTest` prints. -/
inductive Line
  /-- "Got \"%s\" from %d, box %d" -/
  | got (text : List Byte) (fromMachine : NetworkAddress) (fromBox : Word)
  | plain (text : String)
  deriving DecidableEq, Repr

/-- The line for a `Send` that has failed. -/
def sendFailed : Line :=
  .plain ("The postOffice Send failed. You must not have the other Nachos running. " ++
    "Terminating Nachos.")

/-- `MailTest` on one machine.  `mail` stands for `inPktHdr`, `inMailHdr` and `buffer`. -/
structure Tester where
  point : TestPoint
  success : Bool
  mail : Mail
  printed : List Line

namespace Tester

/-- The line that is printed for what has been received. -/
def report (v : Tester) : Line :=
  .got ((bytes v.mail.data maxMailSize).takeWhile (· ≠ 0)) v.mail.pktHdr.fromMachine
    v.mail.mailHdr.fromBox

/-- `MailTest` prints that a `Send` has failed, and halts. -/
def fail (v : Tester) : Tester := { v with point := .halted, printed := v.printed ++ [sendFailed] }

end Tester

/-- The characters of a string. -/
def characters (text : List Char) : List Byte := text.map fun c => BitVec.ofNat 8 c.toNat

/-- `data` and `ack`. -/
def helloText : List Byte :=
  characters ['H', 'e', 'l', 'l', 'o', ' ', 't', 'h', 'e', 'r', 'e', '!']

def gotItText : List Byte := characters ['G', 'o', 't', ' ', 'i', 't', '!']

/-- A string in memory, with the null byte at its end. -/
def literal (text : List Byte) : Memory := fun k => (text ++ [0]).getD k 0

/-- `numBoxes`, as `Initialize` calls the constructor of the post office. -/
def numBoxes : Int := 10

/-- The machines, each of which runs `MailTest`. -/
structure MailTests where
  offices : PostOffices
  test : NetworkAddress → Tester

/-- What happens next: the main thread of machine `m` goes on, or something else happens to
the machines or to the packets. -/
inductive TestLabel
  | main (m : NetworkAddress) (pktHdr : PacketHeader) (unset : Memory)
  | other (label : PostLabel)

/-- The machine that makes a step in which no thread is called or returns. -/
def PostLabel.mover : PostLabel → Option NetworkAddress
  | .send m _ _ _ _ _ | .receive m _ _ _ | .transmit m _ _ _ _ | .goOn m _ | .work m _
  | .sendDone m => some m
  | .poll _ k => some k
  | .lose _ _ _ => none

/-- A step that the main thread does not make, or that it makes in the middle of `Send`. -/
def PostLabel.internal : PostLabel → Bool
  | .transmit _ t _ _ _ => t = 0
  | .work _ _ | .sendDone _ | .poll _ _ | .lose _ _ _ => true
  | .send _ _ _ _ _ _ | .receive _ _ _ _ | .goOn _ _ => false

namespace MailTests

/-- The main thread of machine `m` makes a step in the post office. -/
def enter (m : NetworkAddress) (v : Tester) (label : PostLabel) (s : MailTests) :
    Except PostStop MailTests := do
  .ok ⟨← PostOffices.step numBoxes label s.offices, Function.update s.test m v⟩

/-- The main thread makes a step of its own. -/
def setTest (m : NetworkAddress) (v : Tester) (s : MailTests) : MailTests :=
  ⟨s.offices, Function.update s.test m v⟩

/-- It goes on in `Send`, or returns. -/
def inSend (m : NetworkAddress) (next : TestPoint) (s : MailTests) :
    Except PostStop MailTests :=
  s.enter m
    (match (s.offices.host m).thread 0 with
      | .done success => { s.test m with point := next, success := success }
      | _ => s.test m) (.goOn m 0)

/-- It goes on in `Receive`, or returns. -/
def inReceive (m : NetworkAddress) (next : TestPoint) (s : MailTests) :
    Except PostStop MailTests :=
  s.enter m
    (match (s.offices.host m).thread 0 with
      | .taken mail => { s.test m with point := next, mail := mail }
      | _ => s.test m) (.goOn m 0)

/-- `MailTest` with its argument `farAddr`; the fields of `pktHdr` that it does not set and the
bytes `unset` are left from before. -/
def main (farAddr : NetworkAddress → NetworkAddress) (m : NetworkAddress)
    (pktHdr : PacketHeader) (unset : Memory) (s : MailTests) : Except PostStop MailTests :=
  let v := s.test m
  match v.point with
  | .beginning =>
      s.enter m { v with point := .greeting }
        (.send m 0 { pktHdr with toMachine := farAddr m } ⟨0, 1, 13⟩ (literal helloText) unset)
  | .greeting => s.inSend m .greeted
  | .greeted =>
      if v.success then s.enter m { v with point := .listening } (.receive m 0 0 v.mail.data)
      else .ok (s.setTest m v.fail)
  | .listening => s.inReceive m .heard
  | .heard =>
      s.enter m { v with point := .acknowledging, printed := v.printed ++ [v.report] }
        (.send m 0 { pktHdr with toMachine := v.mail.pktHdr.fromMachine }
          ⟨v.mail.mailHdr.fromBox, 1, 8⟩ (literal gotItText) unset)
  | .acknowledging => s.inSend m .acknowledged
  | .acknowledged =>
      if v.success then s.enter m { v with point := .awaiting } (.receive m 0 1 v.mail.data)
      else .ok (s.setTest m v.fail)
  | .awaiting => s.inReceive m .finished
  | .finished =>
      .ok (s.setTest m { v with point := .halted, printed := v.printed ++ [v.report] })
  | .halted => .error .blocked

/-- Machine `m` has halted. -/
def halted (s : MailTests) (m : NetworkAddress) : Bool := (s.test m).point = .halted

/-- One step. -/
def step (farAddr : NetworkAddress → NetworkAddress) :
    TestLabel → MailTests → Except PostStop MailTests
  | .main m pktHdr unset, s => s.main farAddr m pktHdr unset
  | .other label, s =>
      if label.internal ∧ ¬ label.mover.any s.halted then do
        .ok { s with offices := ← PostOffices.step numBoxes label s.offices }
      else .error .blocked

/-- All machines when they are started. -/
def start (unset : NetworkAddress → PacketHeader) (memory : NetworkAddress → Memory)
    (mail : NetworkAddress → Mail) : MailTests where
  offices := PostOffices.start unset memory
  test m := ⟨.beginning, false, mail m, []⟩

end MailTests

/-- The two messages. -/
def hello : Letter := ⟨⟨0, 1, 13⟩, helloText ++ [0]⟩

def gotIt : Letter := ⟨⟨1, 1, 8⟩, gotItText ++ [0]⟩

/-- What is printed for the messages of a machine. -/
def helloFrom (p : NetworkAddress) : Line := .got helloText p 1

def gotItFrom (p : NetworkAddress) : Line := .got gotItText p 1

/-- A thread in `Send` has this message for this machine in hand. -/
def ClientPoint.Carries (k : NetworkAddress) (l : Letter) : ClientPoint → Prop
  | .ready pktHdr _ letter | .locked pktHdr _ letter => pktHdr.toMachine = k ∧ letter = l
  | _ => False

/-- A thread that is in `Receive` waits for this mailbox, or has got such a mail from it. -/
def ClientPoint.Listens (box : Int) (P : Mail → Prop) : ClientPoint → Prop
  | .asking b _ => b = box
  | .taken mail => P mail
  | _ => True

section Invariant

variable (farAddr : NetworkAddress → NetworkAddress)
  (heard : NetworkAddress → NetworkAddress → Prop) (m : NetworkAddress)

/-- The mail is a first message to machine `m`. -/
def IsHello (mail : Mail) : Prop :=
  mail.letter = hello ∧ farAddr mail.pktHdr.fromMachine = m

/-- The mail is the acknowledgement for machine `m`: it comes from the machine to which `m`
has sent its message, and this machine has printed the message. -/
def IsGotIt (mail : Mail) : Prop :=
  mail.letter = gotIt ∧ mail.pktHdr.fromMachine = farAddr m ∧ heard (farAddr m) m

/-- Machine `m` has printed a first message. -/
def Greeted (printed : List Line) : Prop := ∃ p, farAddr p = m ∧ printed = [helloFrom p]

/-- What machine `m` can have printed. -/
def Told (printed : List Line) : Prop :=
  printed = [] ∨ printed = [sendFailed] ∨ ∃ p, farAddr p = m ∧
    (printed = [helloFrom p] ∨ printed = [helloFrom p, sendFailed] ∨
      printed = [helloFrom p, gotItFrom (farAddr m)] ∧ heard (farAddr m) m)

/-- A message that machine `m` means to send. -/
def Tester.Means (v : Tester) (k : NetworkAddress) (l : Letter) : Prop :=
  (k = farAddr m ∧ l = hello) ∨ (l = gotIt ∧ v.printed.head? = some (helloFrom k))

/-- What machine `m` knows where it is. -/
def Tester.Stage (thread : ClientPoint) (v : Tester) : Prop :=
  match v.point with
  | .beginning | .greeting | .greeted => v.printed = []
  | .listening => v.printed = [] ∧ thread.Listens 0 (IsHello farAddr m)
  | .heard => v.printed = [] ∧ IsHello farAddr m v.mail
  | .acknowledging | .acknowledged => Greeted farAddr m v.printed
  | .awaiting => Greeted farAddr m v.printed ∧ thread.Listens 1 (IsGotIt farAddr heard m)
  | .finished => Greeted farAddr m v.printed ∧ IsGotIt farAddr heard m v.mail
  | .halted => Told farAddr heard m v.printed

/-- Machine `m` sends what it means to send, and what it has received was meant for it. -/
structure Honest (h : Host) (v : Tester) : Prop where
  letters : ∀ k l, (k, l) ∈ h.letters → v.Means farAddr m k l
  carries : ∀ k l, (h.thread 0).Carries k l → v.Means farAddr m k l
  stage : v.Stage farAddr heard m (h.thread 0)

end Invariant

namespace MailTests

/-- Machine `q` has printed the first message of machine `m`. -/
def heard (s : MailTests) (q m : NetworkAddress) : Prop :=
  (s.test q).printed.head? = some (helloFrom m)

/-- The invariant of the machines. -/
structure Tested (farAddr : NetworkAddress → NetworkAddress) (s : MailTests) : Prop where
  sound : s.offices.Sound numBoxes
  honest : ∀ m, Honest farAddr s.heard m (s.offices.host m) (s.test m)

end MailTests

section Texts

variable {v : Tester} {text : List Byte} {box : Word} {mail : Mail}

/-- What `printf` takes for the string is what was sent, up to its null byte. -/
theorem report_of_letter (hletter : v.mail.letter = ⟨⟨box, 1, BitVec.ofNat 32 (text.length + 1)⟩,
    text ++ [0]⟩) (hlength : text.length + 1 ≤ maxMailSize) (hplain : ∀ c ∈ text, c ≠ 0) :
    v.report = .got text v.mail.pktHdr.fromMachine 1 := by
  obtain ⟨hheader, hbytes⟩ := Letter.mk.inj hletter
  have hsmall : maxMailSize = 40 := rfl
  have hcount : v.mail.mailHdr.length.toNat = text.length + 1 := by
    rw [hheader, BitVec.toNat_ofNat]
    omega
  rw [hcount] at hbytes
  obtain ⟨rest, hrest⟩ : ∃ rest, maxMailSize = text.length + 1 + rest :=
    ⟨maxMailSize - (text.length + 1), by omega⟩
  have hall : bytes v.mail.data maxMailSize = text ++ ([0] ++
      (List.range rest).map fun i => v.mail.data (text.length + 1 + i)) := by
    unfold bytes at hbytes ⊢
    rw [hrest, List.range_add, List.map_append, hbytes, List.append_assoc, List.map_map]
    rfl
  unfold Tester.report
  rw [hall, List.takeWhile_append_of_pos (by simpa using hplain), hheader]
  simp

theorem report_hello {farAddr : NetworkAddress → NetworkAddress} {m : NetworkAddress}
    (h : IsHello farAddr m v.mail) : v.report = helloFrom v.mail.pktHdr.fromMachine :=
  report_of_letter h.1 (by decide) (by decide)

theorem report_gotIt {farAddr : NetworkAddress → NetworkAddress}
    {heard : NetworkAddress → NetworkAddress → Prop} {m : NetworkAddress}
    (h : IsGotIt farAddr heard m v.mail) : v.report = gotItFrom (farAddr m) := by
  have hreport : v.report = gotItFrom v.mail.pktHdr.fromMachine :=
    report_of_letter h.1 (by decide) (by decide)
  rw [hreport, h.2.1]

end Texts

section Hosts

variable {h h' : Host} {m : NetworkAddress}

@[simp]
theorem Host.move_thread (h : Host) (t : ThreadId) (point : ClientPoint) :
    (h.move t point).thread t = point := Function.update_self _ _ _

/-- `Send` begins: the message is in the hands of the thread. -/
theorem send_main {pktHdr : PacketHeader} {mailHdr : MailHeader} {data unset : Memory}
    (hsend : h.send numBoxes m 0 pktHdr mailHdr data unset = .ok h') :
    h'.letters = h.letters ∧ ∀ k l, (h'.thread 0).Carries k l →
      k = pktHdr.toMachine ∧ l = ⟨mailHdr, bytes data mailHdr.length.toNat⟩ := by
  unfold Host.send at hsend
  split at hsend
  · split at hsend
    · obtain rfl := Except.ok.inj hsend
      refine ⟨rfl, fun k l hcarries => ?_⟩
      rw [Host.move_thread] at hcarries
      exact ⟨hcarries.1.symm, hcarries.2.symm⟩
    · exact absurd hsend (by simp)
  · exact absurd hsend (by simp)

/-- `Receive` begins. -/
theorem receive_main {box : Int} {data : Memory}
    (hreceive : h.receive numBoxes box 0 data = .ok h') :
    h'.letters = h.letters ∧ h'.thread 0 = .asking box data := by
  unfold Host.receive at hreceive
  split at hreceive
  · split at hreceive
    · obtain rfl := Except.ok.inj hreceive
      exact ⟨rfl, Host.move_thread _ _ _⟩
    · exact absurd hreceive (by simp)
  · exact absurd hreceive (by simp)

/-- A step of the main thread in `Send` or `Receive`: it returns, or it has got a mail, or it
is on its way in `Send`. -/
inductive Moves (h h' : Host) : Prop
  | sent (success : Bool) (hfrom : h.thread 0 = .done success) (hto : h'.thread 0 = .outside)
  | received (mail : Mail) (hfrom : h.thread 0 = .taken mail) (hto : h'.thread 0 = .outside)
  | takes (box : Int) (data : Memory) (mail : Mail) (hfrom : h.thread 0 = .asking box data)
      (hto : h'.thread 0 = .taken mail) (hmail : mail ∈ h'.read box)
  | locks (pktHdr : PacketHeader) (buffer : Memory) (letter : Letter)
      (hfrom : h.thread 0 = .ready pktHdr buffer letter)
      (hto : h'.thread 0 = .locked pktHdr buffer letter)
  | waits (success : Bool) (hfrom : h.thread 0 = .sent success)
      (hto : h'.thread 0 = .done success)

theorem goOn_main (hgoOn : h.goOn 0 = .ok h') : h'.letters = h.letters ∧ Moves h h' := by
  unfold Host.goOn at hgoOn
  cases hpoint : h.thread 0 with
  | outside => simp [hpoint] at hgoOn
  | locked pktHdr buffer letter => simp [hpoint] at hgoOn
  | ready pktHdr buffer letter =>
      simp only [hpoint] at hgoOn
      split at hgoOn
      · obtain rfl := Except.ok.inj hgoOn
        exact ⟨rfl, .locks pktHdr buffer letter hpoint (Host.move_thread _ _ _)⟩
      · exact absurd hgoOn (by simp)
  | sent success =>
      simp only [hpoint] at hgoOn
      split at hgoOn
      · exact absurd hgoOn (by simp)
      · obtain rfl := Except.ok.inj hgoOn
        exact ⟨rfl, .waits success hpoint (Host.move_thread _ _ _)⟩
  | done success =>
      simp only [hpoint] at hgoOn
      obtain rfl := Except.ok.inj hgoOn
      exact ⟨rfl, .sent success hpoint (Host.move_thread _ _ _)⟩
  | asking box data =>
      simp only [hpoint, Host.get] at hgoOn
      cases hbox : h.boxes box with
      | nil => simp [hbox] at hgoOn
      | cons mail rest =>
          simp only [hbox] at hgoOn
          obtain rfl := Except.ok.inj hgoOn
          refine ⟨rfl, .takes box data _ hpoint (Host.move_thread _ _ _) ?_⟩
          show _ ∈ Function.update h.read box _ box
          rw [Function.update_self]
          simp
  | taken mail =>
      simp only [hpoint] at hgoOn
      split at hgoOn
      · obtain rfl := Except.ok.inj hgoOn
        exact ⟨rfl, .received mail hpoint (Host.move_thread _ _ _)⟩
      · exact absurd hgoOn (by simp)

/-- A step that is not one of the main thread, or that hands its message to the network. -/
inductive Passes (h h' : Host) : Prop
  | kept (hthread : h'.thread 0 = h.thread 0) (hletters : h'.letters = h.letters)
  | sent (pktHdr : PacketHeader) (buffer : Memory) (letter : Letter) (success : Bool)
      (hfrom : h.thread 0 = .locked pktHdr buffer letter) (hto : h'.thread 0 = .sent success)
      (hletters : h'.letters = h.letters ++ [(pktHdr.toMachine, letter)])

theorem Passes.transmit {lost accepted : Bool} {unset : Memory}
    {packet : Option (NetworkAddress × Memory)}
    (htransmit : h.transmit m 0 lost accepted unset = .ok (packet, h')) : Passes h h' := by
  unfold Host.transmit at htransmit
  cases hthread : h.thread 0 with
  | locked pktHdr buffer letter =>
      simp only [hthread] at htransmit
      cases hsend : h.networkSend m pktHdr buffer lost accepted unset with
      | error stop => simp [hsend] at htransmit
      | ok outcome =>
          simp only [hsend] at htransmit
          obtain ⟨-, rfl⟩ := Prod.mk.inj (Except.ok.inj htransmit)
          have hsame : outcome.host.letters = h.letters := by
            unfold Host.networkSend at hsend
            split at hsend
            · dsimp only at hsend
              split at hsend
              · obtain rfl := Except.ok.inj hsend
                rfl
              · split at hsend
                · obtain rfl := Except.ok.inj hsend
                  rfl
                · obtain rfl := Except.ok.inj hsend
                  rfl
            · exact absurd hsend (by simp)
          refine .sent pktHdr buffer letter outcome.success hthread (Host.move_thread _ _ _) ?_
          rw [← hsame]
          rfl
  | _ => simp [hthread] at htransmit

theorem Passes.work {unset : Memory} (hwork : h.work numBoxes unset = .ok h') : Passes h h' := by
  unfold Host.work at hwork
  cases hworker : h.worker with
  | waiting =>
      simp only [hworker] at hwork
      split at hwork
      · exact absurd hwork (by simp)
      · obtain rfl := Except.ok.inj hwork
        exact .kept rfl rfl
  | signalled =>
      simp only [hworker] at hwork
      obtain rfl := Except.ok.inj hwork
      exact .kept rfl rfl
  | received pktHdr =>
      simp only [hworker] at hwork
      split at hwork
      · rename_i hproper
        unfold Host.put at hwork
        rw [if_pos hproper.2.2] at hwork
        obtain rfl := Except.ok.inj hwork
        exact .kept rfl rfl
      · exact absurd hwork (by simp)

theorem Passes.sendDone (hdone : h.sendDone = .ok h') : Passes h h' := by
  unfold Host.sendDone at hdone
  split at hdone
  · exact absurd hdone (by simp)
  · obtain rfl := Except.ok.inj hdone
    exact .kept rfl rfl

theorem Passes.readPacket {packet : Memory} (hread : h.readPacket m packet = .ok h') :
    Passes h h' := by
  unfold Host.readPacket at hread
  dsimp only at hread
  split at hread
  · obtain rfl := Except.ok.inj hread
    exact .kept rfl rfl
  · exact absurd hread (by simp)

variable {offices offices' : PostOffices}

/-- Other machines than the one that makes the step are as before. -/
theorem Passes.setHost (hpasses : Passes (offices.host m) h') (j : NetworkAddress) :
    Passes (offices.host j) ((offices.setHost m h').host j) := by
  rw [PostOffices.host_setHost]
  by_cases hj : j = m
  · rw [if_pos hj, hj]
    exact hpasses
  · rw [if_neg hj]
    exact .kept rfl rfl

theorem Passes.stepHost {f : Host → Except PostStop Host}
    (hpasses : ∀ h', f (offices.host m) = .ok h' → Passes (offices.host m) h')
    (hstep : offices.stepHost m f = .ok offices') (j : NetworkAddress) :
    Passes (offices.host j) (offices'.host j) := by
  obtain ⟨h', hf, hend⟩ := bind_eq_ok hstep
  obtain rfl := Except.ok.inj hend
  exact (hpasses h' hf).setHost j

/-- One case for each kind of step that is not one of the main thread. -/
theorem passes_step {label : PostLabel} (hinternal : label.internal = true)
    (hstep : PostOffices.step numBoxes label offices = .ok offices') (j : NetworkAddress) :
    Passes (offices.host j) (offices'.host j) := by
  cases label with
  | send k t pktHdr mailHdr data unset => simp [PostLabel.internal] at hinternal
  | receive k t box data => simp [PostLabel.internal] at hinternal
  | goOn k t => simp [PostLabel.internal] at hinternal
  | transmit k t lost accepted unset =>
      obtain rfl : t = 0 := of_decide_eq_true hinternal
      change offices.transmit k 0 lost accepted unset = .ok offices' at hstep
      unfold PostOffices.transmit at hstep
      cases htransmit : (offices.host k).transmit k 0 lost accepted unset with
      | error stop => simp [htransmit] at hstep
      | ok result =>
          obtain ⟨packet, h'⟩ := result
          have hpasses := Passes.transmit htransmit
          rw [htransmit] at hstep
          cases packet with
          | none =>
              obtain rfl := Except.ok.inj hstep
              exact hpasses.setHost j
          | some sent =>
              obtain rfl := Except.ok.inj hstep
              exact hpasses.setHost j
  | work k unset => exact Passes.stepHost (fun h' => Passes.work) hstep j
  | sendDone k => exact Passes.stepHost (fun h' => Passes.sendDone) hstep j
  | poll i k =>
      change offices.poll i k = .ok offices' at hstep
      unfold PostOffices.poll at hstep
      split at hstep
      · obtain rfl := Except.ok.inj hstep
        exact .kept rfl rfl
      · cases hpackets : offices.packets i k with
        | nil =>
            rw [hpackets] at hstep
            obtain rfl := Except.ok.inj hstep
            exact .kept rfl rfl
        | cons packet rest =>
            rw [hpackets] at hstep
            obtain ⟨h', hread, hend⟩ := bind_eq_ok hstep
            obtain rfl := Except.ok.inj hend
            have hpasses : Passes (offices.host k) h' := Passes.readPacket hread
            exact hpasses.setHost j
  | lose i k place =>
      obtain rfl := Except.ok.inj hstep
      exact .kept rfl rfl

end Hosts

section Steps

variable {farAddr : NetworkAddress → NetworkAddress}
  {heard heard' : NetworkAddress → NetworkAddress → Prop} {m k : NetworkAddress} {h h' : Host}
  {v v' : Tester} {printed : List Line} {mail : Mail} {box : Int}

theorem ClientPoint.Listens.mono {P Q : Mail → Prop} {thread : ClientPoint}
    (hPQ : ∀ mail, P mail → Q mail) (h : thread.Listens box P) : thread.Listens box Q := by
  cases thread with
  | asking b data => exact h
  | taken mail => exact hPQ mail h
  | outside => trivial
  | ready pktHdr buffer letter => trivial
  | locked pktHdr buffer letter => trivial
  | sent success => trivial
  | done success => trivial

/-- What a machine knows stays true when others print more. -/
theorem Honest.mono (hmono : ∀ q p, heard q p → heard' q p)
    (hh : Honest farAddr heard m h v) : Honest farAddr heard' m h v where
  letters := hh.letters
  carries := hh.carries
  stage := by
    have hgotIt : ∀ mail, IsGotIt farAddr heard m mail → IsGotIt farAddr heard' m mail :=
      fun mail hmail => ⟨hmail.1, hmail.2.1, hmono _ _ hmail.2.2⟩
    have hstage := hh.stage
    unfold Tester.Stage at hstage ⊢
    cases hpoint : v.point with
    | awaiting =>
        simp only [hpoint] at hstage
        exact ⟨hstage.1, hstage.2.mono hgotIt⟩
    | finished =>
        simp only [hpoint] at hstage
        exact ⟨hstage.1, hgotIt _ hstage.2⟩
    | halted =>
        simp only [hpoint] at hstage
        rcases hstage with hnone | hfailed | ⟨p, hp, hone | hfailed | ⟨hboth, hheard⟩⟩
        · exact Or.inl hnone
        · exact Or.inr (Or.inl hfailed)
        · exact Or.inr (Or.inr ⟨p, hp, Or.inl hone⟩)
        · exact Or.inr (Or.inr ⟨p, hp, Or.inr (Or.inl hfailed)⟩)
        · exact Or.inr (Or.inr ⟨p, hp, Or.inr (Or.inr ⟨hboth, hmono _ _ hheard⟩)⟩)
    | _ =>
        simp only [hpoint] at hstage
        exact hstage

theorem Greeted.told (h : Greeted farAddr m printed) : Told farAddr heard m printed := by
  obtain ⟨p, hp, hprinted⟩ := h
  exact Or.inr (Or.inr ⟨p, hp, Or.inl hprinted⟩)

/-- Wherever a machine is, it has printed what it can have printed. -/
theorem Honest.told (hh : Honest farAddr heard m h v) : Told farAddr heard m v.printed := by
  have hstage := hh.stage
  unfold Tester.Stage at hstage
  cases hpoint : v.point with
  | beginning | greeting | greeted =>
      simp only [hpoint] at hstage
      exact Or.inl hstage
  | listening | heard =>
      simp only [hpoint] at hstage
      exact Or.inl hstage.1
  | acknowledging | acknowledged =>
      simp only [hpoint] at hstage
      exact hstage.told
  | awaiting | finished =>
      simp only [hpoint] at hstage
      exact hstage.1.told
  | halted =>
      simp only [hpoint] at hstage
      exact hstage

/-- The first message that a machine has printed was meant for it. -/
theorem Told.head (h : Told farAddr heard m printed)
    (hhead : printed.head? = some (helloFrom k)) : farAddr k = m := by
  rcases h with rfl | rfl | ⟨p, hp, rfl | rfl | ⟨rfl, -⟩⟩
  · simp at hhead
  · simp [sendFailed, helloFrom] at hhead
  -- What is printed behind the first line does not matter.
  all_goals
    obtain ⟨-, rfl, -⟩ := Line.got.inj (Option.some.inj hhead)
    exact hp

/-- What is in a mailbox was sent there. -/
theorem mail_meant {offices : PostOffices} {test : NetworkAddress → Tester}
    (hsound : offices.Sound numBoxes)
    (hmeant : ∀ p k l, (k, l) ∈ (offices.host p).letters → (test p).Means farAddr p k l)
    (hmail : mail ∈ (offices.host m).read box) :
    (test mail.pktHdr.fromMachine).Means farAddr mail.pktHdr.fromMachine m mail.letter ∧
      mail.letter.mailHdr.toBox.toInt = box := by
  have hletter : mail.letter ∈ lettersFrom mail.pktHdr.fromMachine
      ((offices.host m).read box) := by
    unfold lettersFrom
    exact List.mem_map_of_mem (List.mem_filter.mpr ⟨hmail, by simp⟩)
  have hsent := (hsound.inOrder _ _ _).subset hletter
  unfold Host.sentTo at hsent
  obtain ⟨⟨k, l⟩, hmem, hl⟩ := List.mem_map.mp hsent
  obtain ⟨hletters, hcheck⟩ := List.mem_filter.mp hmem
  obtain ⟨hk, hbox⟩ := of_decide_eq_true hcheck
  change l = mail.letter at hl
  change k = m at hk
  rw [← hl, ← hk]
  exact ⟨hmeant _ _ _ hletters, hbox⟩

/-- A mail in mailbox 0 is a first message. -/
theorem isHello_of_means (hmeans : v.Means farAddr mail.pktHdr.fromMachine m mail.letter)
    (hbox : mail.letter.mailHdr.toBox.toInt = 0) : IsHello farAddr m mail := by
  rcases hmeans with ⟨hm, hletter⟩ | ⟨hletter, -⟩
  · exact ⟨hletter, hm.symm⟩
  · rw [hletter] at hbox
    exact absurd hbox (by decide)

/-- A mail in mailbox 1 is an acknowledgement, from a machine that has printed the message. -/
theorem isGotIt_of_means (hmeans : v.Means farAddr mail.pktHdr.fromMachine m mail.letter)
    (hbox : mail.letter.mailHdr.toBox.toInt = 1)
    (htold : Told farAddr heard mail.pktHdr.fromMachine v.printed)
    (hheard : v.printed.head? = some (helloFrom m) → heard mail.pktHdr.fromMachine m) :
    IsGotIt farAddr heard m mail := by
  rcases hmeans with ⟨-, hletter⟩ | ⟨hletter, hhead⟩
  · rw [hletter] at hbox
    exact absurd hbox (by decide)
  · have hfrom := htold.head hhead
    refine ⟨hletter, hfrom.symm, ?_⟩
    rw [hfrom]
    exact hheard hhead

/-- A step of the main thread in `Send` or `Receive` sends nothing new. -/
theorem Honest.goOn (hh : Honest farAddr heard m h v) (hgoOn : h.goOn 0 = .ok h')
    (hprinted : v'.printed = v.printed) (hstage : v'.Stage farAddr heard m (h'.thread 0)) :
    Honest farAddr heard m h' v' := by
  obtain ⟨hletters, hmoves⟩ := goOn_main hgoOn
  have hmeans : ∀ k l, v.Means farAddr m k l → v'.Means farAddr m k l := by
    intro k l hv
    unfold Tester.Means at hv ⊢
    rwa [hprinted]
  refine ⟨fun k l hl => hmeans k l (hh.letters k l (hletters ▸ hl)), fun k l hl => ?_, hstage⟩
  apply hmeans
  -- Only a thread that has just got the lock still has its message in hand.
  cases hmoves with
  | locks pktHdr buffer letter hfrom hto =>
      rw [hto] at hl
      apply hh.carries
      rw [hfrom]
      exact hl
  | sent success hfrom hto =>
      rw [hto] at hl
      exact absurd hl id
  | received mail hfrom hto =>
      rw [hto] at hl
      exact absurd hl id
  | takes box data mail hfrom hto hmail =>
      rw [hto] at hl
      exact absurd hl id
  | waits success hfrom hto =>
      rw [hto] at hl
      exact absurd hl id

/-- What a machine knows does not depend on where its main thread is, unless it waits for a
mail. -/
theorem Tester.Stage.goesOn {thread thread' : ClientPoint}
    (h : v.Stage farAddr heard m thread)
    (hlistens : ∀ box P, thread.Listens box P → thread'.Listens box P) :
    v.Stage farAddr heard m thread' := by
  unfold Tester.Stage at h ⊢
  cases hpoint : v.point with
  | listening =>
      simp only [hpoint] at h
      exact ⟨h.1, hlistens _ _ h.2⟩
  | awaiting =>
      simp only [hpoint] at h
      exact ⟨h.1, hlistens _ _ h.2⟩
  | _ =>
      simp only [hpoint] at h
      exact h

/-- What the network takes over is the message that the thread has in hand. -/
theorem Honest.passes (hh : Honest farAddr heard m h v) (hpasses : Passes h h') :
    Honest farAddr heard m h' v := by
  cases hpasses with
  | kept hthread hletters =>
      refine ⟨?_, ?_, ?_⟩
      · rw [hletters]
        exact hh.letters
      · rw [hthread]
        exact hh.carries
      · rw [hthread]
        exact hh.stage
  | sent pktHdr buffer letter success hfrom hto hletters =>
      refine ⟨fun k l hl => ?_, fun k l hl => ?_, ?_⟩
      · rw [hletters] at hl
        rcases List.mem_append.mp hl with hold | hnew
        · exact hh.letters k l hold
        · obtain ⟨rfl, rfl⟩ := Prod.mk.inj (List.mem_singleton.mp hnew)
          apply hh.carries
          rw [hfrom]
          exact ⟨rfl, rfl⟩
      · rw [hto] at hl
        exact absurd hl id
      · rw [hto]
        exact hh.stage.goesOn fun box P _ => trivial

end Steps

namespace MailTests

section Runs

variable {farAddr : NetworkAddress → NetworkAddress} {s s' : MailTests} {m : NetworkAddress}
  {v v' : Tester} {label : PostLabel}

/-- One machine moves, and prints nothing other than before, or more. -/
theorem Tested.moved (h : s.Tested farAddr) {h' : Host}
    (hsound : (s.offices.setHost m h').Sound numBoxes)
    (hhead : ∀ r, (s.test m).printed.head? = some r → v'.printed.head? = some r)
    (hm : Honest farAddr s.heard m h' v') :
    Tested farAddr ⟨s.offices.setHost m h', Function.update s.test m v'⟩ := by
  have hmono : ∀ q p, s.heard q p →
      heard ⟨s.offices.setHost m h', Function.update s.test m v'⟩ q p := by
    intro q p hq
    unfold heard at hq ⊢
    by_cases hqm : q = m
    · rw [hqm] at hq
      simp only
      rw [hqm, Function.update_self]
      exact hhead _ hq
    · simp only
      rw [Function.update_of_ne hqm]
      exact hq
  refine ⟨hsound, fun j => Honest.mono hmono ?_⟩
  rw [PostOffices.host_setHost]
  by_cases hj : j = m
  · simp only
    rw [hj, if_pos rfl, Function.update_self]
    exact hm
  · simp only
    rw [if_neg hj, Function.update_of_ne hj]
    exact h.honest j

/-- The main thread of a machine makes a step in the post office. -/
theorem Tested.entered (h : s.Tested farAddr) {f : Host → Except PostStop Host}
    (hlabel : PostOffices.step numBoxes label s.offices = s.offices.stepHost m f)
    (henter : s.enter m v' label = .ok s')
    (hhead : ∀ r, (s.test m).printed.head? = some r → v'.printed.head? = some r)
    (hm : ∀ h', f (s.offices.host m) = .ok h' → (s.offices.setHost m h').Sound numBoxes →
      Honest farAddr s.heard m h' v') : s'.Tested farAddr := by
  obtain ⟨offices', hstep, hend⟩ := bind_eq_ok henter
  obtain rfl := Except.ok.inj hend
  have hsound := h.sound.run (Reach.tail .refl trivial hstep)
  rw [hlabel] at hstep
  obtain ⟨h', hf, hend'⟩ := bind_eq_ok hstep
  obtain rfl := Except.ok.inj hend'
  exact h.moved hsound hhead (hm h' hf hsound)

/-- A machine calls `Send` with a message that it means to send. -/
theorem Tested.sends (h : s.Tested farAddr) {pktHdr : PacketHeader} {mailHdr : MailHeader}
    {data unset : Memory}
    (henter : s.enter m v' (.send m 0 pktHdr mailHdr data unset) = .ok s')
    (hhead : ∀ r, (s.test m).printed.head? = some r → v'.printed.head? = some r)
    (hkept : ∀ k l, (s.test m).Means farAddr m k l → v'.Means farAddr m k l)
    (hmeans : v'.Means farAddr m pktHdr.toMachine ⟨mailHdr, bytes data mailHdr.length.toNat⟩)
    (hstage : ∀ thread, v'.Stage farAddr s.heard m thread) : s'.Tested farAddr := by
  refine h.entered rfl henter hhead fun h' hsend _ => ?_
  obtain ⟨hletters, hcarries⟩ := send_main hsend
  refine ⟨fun k l hl => hkept k l ((h.honest m).letters k l (hletters ▸ hl)),
    fun k l hl => ?_, hstage _⟩
  obtain ⟨rfl, rfl⟩ := hcarries k l hl
  exact hmeans

/-- A machine calls `Receive`. -/
theorem Tested.receives (h : s.Tested farAddr) {box : Int} {data : Memory}
    (henter : s.enter m v' (.receive m 0 box data) = .ok s')
    (hprinted : v'.printed = (s.test m).printed)
    (hstage : v'.Stage farAddr s.heard m (.asking box data)) : s'.Tested farAddr := by
  refine h.entered rfl henter (fun r hr => hprinted ▸ hr) fun h' hreceive _ => ?_
  obtain ⟨hletters, hthread⟩ := receive_main hreceive
  refine ⟨fun k l hl => ?_, fun k l hl => ?_, ?_⟩
  · have hold := (h.honest m).letters k l (hletters ▸ hl)
    unfold Tester.Means at hold ⊢
    rwa [hprinted]
  · rw [hthread] at hl
    exact absurd hl id
  · rwa [hthread]

/-- A machine goes on in `Send`, or returns from it. -/
theorem Tested.goesOnSending (h : s.Tested farAddr) {next : TestPoint}
    (hin : s.inSend m next = .ok s')
    (hstage : ∀ thread, (s.test m).Stage farAddr s.heard m thread)
    (hnext : ∀ success thread,
      Tester.Stage farAddr s.heard m thread { s.test m with point := next, success := success }) :
    s'.Tested farAddr := by
  unfold inSend at hin
  cases hthread : (s.offices.host m).thread 0 with
  | done success =>
      rw [hthread] at hin
      exact h.entered rfl hin (fun r hr => hr) fun h' hgoOn _ =>
        (h.honest m).goOn hgoOn rfl (hnext success _)
  | _ =>
      rw [hthread] at hin
      exact h.entered rfl hin (fun r hr => hr) fun h' hgoOn _ =>
        (h.honest m).goOn hgoOn rfl (hstage _)

/-- A machine goes on in `Receive`, or returns from it; what it takes out of the mailbox was
sent there. -/
theorem Tested.goesOnReceiving (h : s.Tested farAddr) {next : TestPoint} {box : Int}
    {P : Mail → Prop} (hin : s.inReceive m next = .ok s')
    (hlistens : ((s.offices.host m).thread 0).Listens box P)
    (hmail : ∀ mail : Mail, mail.letter.mailHdr.toBox.toInt = box →
      (s.test mail.pktHdr.fromMachine).Means farAddr mail.pktHdr.fromMachine m mail.letter →
        P mail)
    (hstage : ∀ thread, thread.Listens box P → (s.test m).Stage farAddr s.heard m thread)
    (hnext : ∀ mail, P mail → ∀ thread,
      Tester.Stage farAddr s.heard m thread { s.test m with point := next, mail := mail }) :
    s'.Tested farAddr := by
  have hgoes : ∀ h', (s.offices.host m).goOn 0 = .ok h' →
      (s.offices.setHost m h').Sound numBoxes → (h'.thread 0).Listens box P := by
    intro h' hgoOn hsound
    obtain ⟨hletters, hmoves⟩ := goOn_main hgoOn
    cases hmoves with
    | sent success hfrom hto => rw [hto]; trivial
    | received mail hfrom hto => rw [hto]; trivial
    | locks pktHdr buffer letter hfrom hto => rw [hto]; trivial
    | waits success hfrom hto => rw [hto]; trivial
    -- Nothing but the history of the sender says what is in the mailbox.
    | takes b data mail hfrom hto hread =>
        rw [hfrom] at hlistens
        obtain rfl : b = box := hlistens
        rw [hto]
        have hhost : (s.offices.setHost m h').host m = h' := by
          rw [PostOffices.host_setHost, if_pos rfl]
        obtain ⟨hmeans, hbox⟩ := mail_meant (m := m) hsound
          (fun p k l hl => (h.honest p).letters k l (by
            rw [PostOffices.host_setHost] at hl
            by_cases hp : p = m
            · rw [if_pos hp, hletters] at hl
              rwa [hp]
            · rwa [if_neg hp] at hl)) (by rw [hhost]; exact hread)
        exact hmail mail hbox hmeans
  unfold inReceive at hin
  cases hthread : (s.offices.host m).thread 0 with
  | taken mail =>
      rw [hthread] at hin hlistens
      exact h.entered rfl hin (fun r hr => hr) fun h' hgoOn _ =>
        (h.honest m).goOn hgoOn rfl (hnext mail hlistens _)
  | _ =>
      rw [hthread] at hin
      exact h.entered rfl hin (fun r hr => hr) fun h' hgoOn hsound =>
        (h.honest m).goOn hgoOn rfl (hstage _ (hgoes h' hgoOn hsound))

/-- The main thread of a machine makes a step of its own: it prints, or halts. -/
theorem Tested.ends (h : s.Tested farAddr)
    (hhead : ∀ r, (s.test m).printed.head? = some r → v'.printed.head? = some r)
    (hstage : v'.Stage farAddr s.heard m ((s.offices.host m).thread 0)) :
    (s.setTest m v').Tested farAddr := by
  have hself : s.offices.setHost m (s.offices.host m) = s.offices := by
    unfold PostOffices.setHost
    rw [Function.update_eq_self]
  have hmeans : ∀ k l, (s.test m).Means farAddr m k l → v'.Means farAddr m k l := by
    rintro k l (hhello | ⟨hl, hk⟩)
    · exact Or.inl hhello
    · exact Or.inr ⟨hl, hhead _ hk⟩
  have hm := h.honest m
  have hmoved := h.moved (hself.symm ▸ h.sound) hhead
    ⟨fun k l hl => hmeans k l (hm.letters k l hl), fun k l hl => hmeans k l (hm.carries k l hl),
      hstage⟩
  rwa [hself] at hmoved

/-- The main thread of a machine goes on. -/
theorem Tested.main (h : s.Tested farAddr) {pktHdr : PacketHeader} {unset : Memory}
    (hmain : s.main farAddr m pktHdr unset = .ok s') : s'.Tested farAddr := by
  have hm := h.honest m
  have hstage := hm.stage
  have htests : ∀ p, Told farAddr s.heard p (s.test p).printed := fun p => (h.honest p).told
  unfold MailTests.main at hmain
  unfold Tester.Stage at hstage
  cases hpoint : (s.test m).point with
  | beginning =>
      simp only [hpoint] at hmain hstage
      exact h.sends hmain (fun r hr => hr) (fun k l hl => hl) (Or.inl ⟨rfl, by decide⟩)
        fun thread => hstage
  | greeting =>
      simp only [hpoint] at hmain hstage
      refine h.goesOnSending hmain (fun thread => ?_) fun success thread => hstage
      unfold Tester.Stage
      simp only [hpoint]
      exact hstage
  | greeted =>
      simp only [hpoint] at hmain hstage
      split at hmain
      · exact h.receives hmain rfl ⟨hstage, rfl⟩
      · obtain rfl := Except.ok.inj hmain
        have hlines : (s.test m).fail.printed = [sendFailed] := by
          rw [Tester.fail, hstage, List.nil_append]
        refine h.ends (fun r hr => ?_) (Or.inr (Or.inl hlines))
        rw [hstage] at hr
        simp at hr
  | listening =>
      simp only [hpoint] at hmain hstage
      obtain ⟨hnone, hlistens⟩ := hstage
      refine h.goesOnReceiving hmain hlistens
        (fun mail hbox hmeans => isHello_of_means hmeans hbox)
        (fun thread hthread => ?_) fun mail hmail thread => ⟨hnone, hmail⟩
      unfold Tester.Stage
      simp only [hpoint]
      exact ⟨hnone, hthread⟩
  | heard =>
      simp only [hpoint] at hmain hstage
      obtain ⟨hnone, hletter, hfar⟩ := hstage
      have hreport := report_hello (v := s.test m) ⟨hletter, hfar⟩
      have hheader : (s.test m).mail.mailHdr = ⟨0, 1, 13⟩ := (Letter.mk.inj hletter).1
      have hlines : (s.test m).printed ++ [(s.test m).report] =
          [helloFrom (s.test m).mail.pktHdr.fromMachine] := by
        rw [hnone, hreport, List.nil_append]
      -- Nothing has been printed before, so that no acknowledgement has been meant so far.
      refine h.sends hmain (fun r hr => ?_) (fun k l hl => ?_) (Or.inr ⟨?_, ?_⟩)
        fun thread => ⟨_, hfar, hlines⟩
      · rw [hnone] at hr
        simp at hr
      · rcases hl with hhello | ⟨-, hk⟩
        · exact Or.inl hhello
        · rw [hnone] at hk
          simp at hk
      · rw [hheader]
        decide
      · simp only [hlines, List.head?_cons]
  | acknowledging =>
      simp only [hpoint] at hmain hstage
      refine h.goesOnSending hmain (fun thread => ?_) fun success thread => hstage
      unfold Tester.Stage
      simp only [hpoint]
      exact hstage
  | acknowledged =>
      simp only [hpoint] at hmain hstage
      split at hmain
      · exact h.receives hmain rfl ⟨hstage, rfl⟩
      · obtain rfl := Except.ok.inj hmain
        obtain ⟨p, hp, hprinted⟩ := hstage
        -- The first message stays the first line.
        have hlines : (s.test m).fail.printed = [helloFrom p, sendFailed] := by
          rw [Tester.fail, hprinted]
          rfl
        refine h.ends (fun r hr => ?_) (Or.inr (Or.inr ⟨p, hp, Or.inr (Or.inl hlines)⟩))
        rw [hprinted] at hr
        rw [hlines]
        exact hr
  | awaiting =>
      simp only [hpoint] at hmain hstage
      obtain ⟨hgreeted, hlistens⟩ := hstage
      refine h.goesOnReceiving hmain hlistens
        (fun mail hbox hmeans => isGotIt_of_means hmeans hbox (htests _) id)
        (fun thread hthread => ?_) fun mail hmail thread => ⟨hgreeted, hmail⟩
      unfold Tester.Stage
      simp only [hpoint]
      exact ⟨hgreeted, hthread⟩
  | finished =>
      simp only [hpoint] at hmain hstage
      obtain rfl := Except.ok.inj hmain
      obtain ⟨⟨p, hp, hprinted⟩, hgotIt⟩ := hstage
      have hreport := report_gotIt (v := s.test m) hgotIt
      have hlines : (s.test m).printed ++ [(s.test m).report] =
          [helloFrom p, gotItFrom (farAddr m)] := by
        rw [hprinted, hreport]
        rfl
      refine h.ends (fun r hr => ?_)
        (Or.inr (Or.inr ⟨p, hp, Or.inr (Or.inr ⟨hlines, hgotIt.2.2⟩)⟩))
      rw [hprinted] at hr
      simp only [hlines]
      exact hr
  | halted => simp [hpoint] at hmain

/-- A step that is not one of the main thread. -/
theorem Tested.others (h : s.Tested farAddr) {offices' : PostOffices}
    (hinternal : label.internal = true)
    (hstep : PostOffices.step numBoxes label s.offices = .ok offices') :
    Tested farAddr ⟨offices', s.test⟩ where
  sound := h.sound.run (Reach.tail .refl trivial hstep)
  honest k := (h.honest k).passes (passes_step hinternal hstep k)

/-- Every step of every machine keeps the invariant. -/
theorem Tested.step {label : TestLabel} (h : s.Tested farAddr)
    (hstep : MailTests.step farAddr label s = .ok s') : s'.Tested farAddr := by
  cases label with
  | main m pktHdr unset => exact h.main hstep
  | other label =>
      change (if label.internal ∧ ¬ label.mover.any s.halted then _ else _) = _ at hstep
      split at hstep
      · rename_i hinternal
        obtain ⟨offices', hoffices, hend⟩ := bind_eq_ok hstep
        obtain rfl := Except.ok.inj hend
        exact h.others hinternal.1 hoffices
      · exact absurd hstep (by simp)

theorem tested_start (unset : NetworkAddress → PacketHeader) (memory : NetworkAddress → Memory)
    (mail : NetworkAddress → Mail) : (start unset memory mail).Tested farAddr where
  sound := PostOffices.sound_start unset memory
  honest _ :=
    { letters := fun _ _ hl => absurd hl (by simp [start, PostOffices.start])
      carries := fun _ _ hl => absurd hl id
      stage := rfl }

/-- The invariant along a run. -/
theorem Tested.run (h : s.Tested farAddr)
    (hrun : Reach (MailTests.step farAddr) (fun _ _ => True) s s') : s'.Tested farAddr :=
  hrun.invariant (fun _ _ _ hu _ hstep => hu.step hstep) h

/-- No assertion of the post office fails when the message and the boxes are proper. -/
theorem Tested.safe (h : s.Tested farAddr) (hproper : PostOffices.Proper numBoxes label)
    (f : PostOffices → MailTests) :
    (PostOffices.step numBoxes label s.offices >>= fun offices => .ok (f offices)) ≠
      .error .assertFailed := by
  intro hfailed
  have hsafe := h.sound.step hproper
  cases hstep : PostOffices.step numBoxes label s.offices with
  | ok offices' => simp [hstep, bind, Except.bind] at hfailed
  | error stop =>
      rw [hstep] at hsafe hfailed
      obtain rfl : stop = .blocked := hsafe
      exact absurd hfailed (by simp [bind, Except.bind])

theorem Tested.enter_ne (h : s.Tested farAddr) (hproper : PostOffices.Proper numBoxes label) :
    s.enter m v label ≠ .error .assertFailed :=
  h.safe hproper _

/-- No assertion fails in `MailTest`. -/
theorem Tested.main_ne (h : s.Tested farAddr) (pktHdr : PacketHeader) (unset : Memory) :
    s.main farAddr m pktHdr unset ≠ .error .assertFailed := by
  have hstage := (h.honest m).stage
  unfold MailTests.main
  unfold Tester.Stage at hstage
  cases hpoint : (s.test m).point with
  | beginning =>
      simp only [hpoint]
      apply h.enter_ne
      exact ⟨by decide, by decide, by decide⟩
  | greeting =>
      simp only [hpoint]
      apply h.enter_ne
      trivial
  | listening =>
      simp only [hpoint]
      apply h.enter_ne
      trivial
  | acknowledging =>
      simp only [hpoint]
      apply h.enter_ne
      trivial
  | awaiting =>
      simp only [hpoint]
      apply h.enter_ne
      trivial
  | greeted =>
      simp only [hpoint]
      split
      · apply h.enter_ne
        exact ⟨by decide, by decide⟩
      · simp
  | acknowledged =>
      simp only [hpoint]
      split
      · apply h.enter_ne
        exact ⟨by decide, by decide⟩
      · simp
  -- The mailbox of the acknowledgement is the one that the message names.
  | heard =>
      simp only [hpoint] at hstage ⊢
      have hheader : (s.test m).mail.mailHdr = ⟨0, 1, 13⟩ := (Letter.mk.inj hstage.2.1).1
      apply h.enter_ne
      rw [hheader]
      exact ⟨by decide, by decide, by decide⟩
  | finished => simp [hpoint]
  | halted => simp [hpoint]

/-- No assertion fails in a step of a machine. -/
theorem Tested.step_ne (h : s.Tested farAddr) (label : TestLabel) :
    MailTests.step farAddr label s ≠ .error .assertFailed := by
  cases label with
  | main m pktHdr unset => exact h.main_ne pktHdr unset
  | other label =>
      change (if label.internal ∧ ¬ label.mover.any s.halted then _ else _) ≠ _
      split
      · rename_i hinternal
        have hproper : PostOffices.Proper numBoxes label := by
          cases label with
          | send k t pktHdr mailHdr data unset => simp [PostLabel.internal] at hinternal
          | receive k t box data => simp [PostLabel.internal] at hinternal
          | _ => trivial
        exact h.safe hproper _
      · simp

end Runs

/-- Machine `m` goes through `Send`; the socket accepts the packet, or it does not. -/
def sending (accepted : Bool) (m : NetworkAddress) : List TestLabel :=
  [.main m ⟨0, 0, 0⟩ fun _ => 0, .main m ⟨0, 0, 0⟩ fun _ => 0,
    .other (.transmit m 0 false accepted fun _ => 0), .other (.sendDone m),
    .main m ⟨0, 0, 0⟩ fun _ => 0, .main m ⟨0, 0, 0⟩ fun _ => 0]

/-- Machine `m` goes through `Receive`; the next packet is from machine `k`. -/
def receiving (k m : NetworkAddress) : List TestLabel :=
  [.main m ⟨0, 0, 0⟩ fun _ => 0, .other (.poll k m), .other (.work m fun _ => 0),
    .other (.work m fun _ => 0), .other (.work m fun _ => 0), .main m ⟨0, 0, 0⟩ fun _ => 0,
    .main m ⟨0, 0, 0⟩ fun _ => 0]

/-- Machines 7 and 9 run the test with each other, and machine 9 comes to its end.  Machine 5
fails to send to machine 7. -/
def conversation : List TestLabel :=
  sending true 7 ++ sending true 9 ++ receiving 9 7 ++ receiving 7 9 ++ sending true 7 ++
    sending true 9 ++ receiving 7 9 ++ [.main 9 ⟨0, 0, 0⟩ fun _ => 0] ++
    sending false 5 ++ [.main 5 ⟨0, 0, 0⟩ fun _ => 0]

def partner (m : NetworkAddress) : NetworkAddress := if m = 7 then 9 else 7

end MailTests

end Network
end Nachos
