/-
# `TrafficDirector.Net.System` — a client, a session and its brokers

The session of `Session.Forward` between a client and the brokers it is connected
to one after the other.  Every connection is a FIFO queue; a broker connection may
go at any moment, with everything in flight on it but the packets that the session
had received.  The client gives a packet id to a new PUBLISH only when no PUBACK
is outstanding for it, and a broker answers each QoS 1 PUBLISH that it processes
with one PUBACK; whatever else it sends, it sends when it likes.

The session in the system is a journal, so that each frame on the way to a broker
is known by the client packet that it carries.  What is in a read buffer whose
connection goes is not tied to what the broker has sent: the decoder of that
connection may have taken a header out of it.
-/
import TrafficDirector.Session.Order

namespace TrafficDirector

open Resend (Stamped)

/-- The id of a QoS 1 PUBLISH. -/
def qos1Id (p : MqttPacket) : Option UInt16 :=
  match p.shape with
  | .publish .atLeastOnce i => some i
  | _ => none

/-- The id of a PUBLISH that needs one. -/
def publishId (p : MqttPacket) : Option UInt16 :=
  match p.shape with
  | .publish _ i => some i
  | _ => none

/-- The id of a PUBACK. -/
def pubackId (p : MqttPacket) : Option UInt16 :=
  match p.shape with
  | .publishAck i => some i
  | _ => none

/-- A raw frame to the client is the retransmit of a PUBLISH. -/
def Frame.ackId : Frame → Option UInt16
  | .packet p => pubackId p
  | _ => none

def Output.toClient? : Output → Option Frame
  | .toClient f => some f
  | _ => none

/-- A broker is connected. -/
def Outcome.connected : Outcome → Bool
  | .running s => s.broker.isSome
  | .ended _ => false

/-- The packets a dead connection had delivered to the session, undecoded. -/
def Outcome.leftover (c : Codec) : Outcome → List MqttPacket
  | .running s => s.leftoverPackets c
  | .ended _ => []

structure Net where
  journal : Journal
  /-- sent by the client, not yet read by the session -/
  upstream : List MqttPacket
  /-- for each id, the number of the QoS 1 PUBLISH whose PUBACK is outstanding -/
  awaiting : UInt16 → Option Nat
  /-- the client packets on their way on the present broker connection -/
  toBroker : List (Stamped MqttPacket)
  /-- those that were on their way on connections that are gone -/
  stray : List (Stamped MqttPacket)
  /-- the numbers of the client packets that a broker has processed -/
  processed : List Nat
  /-- sent by the broker on the present connection, not yet read by the session -/
  toProxy : List MqttPacket
  /-- on their way to the client -/
  toClient : List Frame

inductive NetEvent where
  /-- the client sends a packet -/
  | send (p : MqttPacket)
  /-- the client receives what is next for it -/
  | receive
  /-- the broker processes what is next for it; `answer` answers a QoS 1 PUBLISH -/
  | process (answer : MqttPacket)
  /-- the broker sends a packet of its own accord -/
  | push (p : MqttPacket)
  /-- a broker processes a packet that it got on a connection that is gone -/
  | straggle (m : Stamped MqttPacket)
  | session (e : Event)

namespace Net

/-- Nothing is in flight. -/
def initial (s : Session) : Net where
  journal := .initial s
  upstream := []
  awaiting := fun _ => none
  toBroker := []
  stray := []
  processed := []
  toProxy := []
  toClient := []

/-- The number of the next packet the client sends. -/
def nextSeq (n : Net) : Nat := n.journal.ledger.read.length + n.upstream.length

/-- No PUBACK is outstanding for the id of this packet. -/
def maySend (n : Net) (p : MqttPacket) : Bool :=
  match publishId p with
  | some i => (n.awaiting i).isNone
  | none => true

def await (n : Net) (i : Option UInt16) (seq : Option Nat) : UInt16 → Option Nat :=
  match i with
  | some i => Function.update n.awaiting i seq
  | none => n.awaiting

/-- What the session reads is what comes next. -/
def arrives (n : Net) (e : Event) : Bool :=
  (match e.clientPacket with
    | some p => decide (n.upstream.head? = some p)
    | none => true) &&
  (match e.brokerPacket with
    | some p => decide (n.toProxy.head? = some p)
    | none => true)

/-- What the broker has sent and the session has not read, after this event. -/
def unread (n : Net) (e : Event) : List MqttPacket :=
  if e.brokerPacket.isSome then n.toProxy.tail else n.toProxy

/-- After an event of the session, with what it has noted. -/
def advance (n : Net) (e : Event) (j : Journal) (notes : List Noted) : Net :=
  let sent := (if e.opens then [] else n.toBroker) ++ sources notes
  let up := j.session.connected
  { n with
    journal := j
    upstream := if e.clientPacket.isSome then n.upstream.tail else n.upstream
    toBroker := if up then sent else []
    stray := if up then n.stray else n.stray ++ sent
    toProxy := if up && !e.opens then n.unread e else []
    toClient := n.toClient ++ (notes.map Noted.out).filterMap Output.toClient? }

def sessionStep (c : Codec) (n : Net) (e : Event) : Option Net :=
  if n.arrives e then
    match journalStep c n.journal e with
    | some (j, notes) => some (n.advance e j notes)
    | none => none
  else none

/-- The broker takes `m`, and answers if it is a QoS 1 PUBLISH. -/
def processStep (n : Net) (m : Stamped MqttPacket) (rest : List (Stamped MqttPacket))
    (answer : MqttPacket) : Option Net :=
  let taken := { n with toBroker := rest, processed := m.seq :: n.processed }
  match qos1Id m.item with
  | some i =>
      if pubackId answer = some i then some { taken with toProxy := n.toProxy ++ [answer] }
      else none
  | none => some taken

/-- One step; its output is what the client receives. -/
def step (c : Codec) (n : Net) : NetEvent → Option (Net × List Frame)
  | .send p =>
      if n.maySend p then
        some ({ n with
          upstream := n.upstream ++ [p]
          awaiting := n.await (qos1Id p) (some n.nextSeq) }, [])
      else none
  | .receive =>
      match n.toClient with
      | f :: rest => some ({ n with toClient := rest, awaiting := n.await f.ackId none }, [f])
      | [] => none
  | .process answer =>
      match n.toBroker with
      | m :: rest => (n.processStep m rest answer).map (fun n' => (n', []))
      | [] => none
  | .push p =>
      if (pubackId p).isNone then some ({ n with toProxy := n.toProxy ++ [p] }, []) else none
  | .straggle m =>
      if m ∈ n.stray then some ({ n with processed := m.seq :: n.processed }, []) else none
  | .session e => (n.sessionStep c e).map (fun n' => (n', []))

/-- If the client is about to receive a PUBACK that it waits for, a broker has
processed the PUBLISH that it stands for. -/
def Truthful (n : Net) : Prop :=
  ∀ f rest i k, n.toClient = f :: rest → f.ackId = some i → n.awaiting i = some k →
    k ∈ n.processed

end Net

/-- The system as a machine. -/
def netMachine (c : Codec) : Machine Net NetEvent Frame := ⟨Net.step c⟩

end TrafficDirector
