/-
# `TrafficDirector.Migrate` — the migration channel

Parent and child, at the two ends of a Unix datagram pair: one datagram per
frozen session, each acknowledged before the next, then an END marker.  The state
is both programs at their blocking calls and the datagrams on the way; an event is
one such call that returns, with what the kernel makes of it.  Serialisation is a
parameter (`Json`), of which only the first byte of a text is assumed.

`Handoff.resumed` and `Handoff.adopted` are what the code around the two loops
does with their results.
-/
import TrafficDirector.Lib.Machine
import TrafficDirector.Session.Forward

namespace TrafficDirector

/-- `serde_json`, at snapshots.  A structure is written as an object. -/
structure Json where
  toVec : SessionSnapshot → Except IoError Bytes
  fromSlice : Bytes → Except IoError SessionSnapshot
  toVec_object : ∀ {s : SessionSnapshot} {p : Bytes}, toVec s = .ok p → p.head? = some 0x7b

/-- `TD-END` -/
def endMarker : Bytes := [0x54, 0x44, 0x2d, 0x45, 0x4e, 0x44]

def ackMarker : Bytes := [0x06]

/-- The size of the receive buffer: a longer datagram is truncated. -/
def recvLen : Nat := 1024 * 1024

/-- A datagram, and the client socket that travels with it. -/
structure Datagram where
  payload : Bytes
  fd : Option Int
deriving DecidableEq

namespace Datagram

def endOfSessions : Datagram := ⟨endMarker, none⟩

/-- What `recv_with_fd` returns of the payload. -/
def received (d : Datagram) : Bytes := d.payload.take recvLen

end Datagram

/-- `send_sessions`; `rest` are the sessions that have not been sent yet. -/
inductive Parent where
  /-- before the next datagram -/
  | sending (rest : List FrozenSession)
  /-- waiting for an ack -/
  | awaiting (rest : List FrozenSession)
  | finished (result : Except IoError Unit)
  /-- the process is gone -/
  | dead

/-- Inside the loop. -/
def Parent.active : Parent → Bool
  | .sending _ | .awaiting _ => true
  | _ => false

abbrev Received := List (SessionSnapshot × Int)

/-- `recv_sessions` -/
inductive Child where
  | receiving (sessions : Received)
  | finished (result : Except IoError Received)

/-- Inside the loop. -/
def Child.waiting : Child → Bool
  | .receiving _ => true
  | _ => false

structure Handoff where
  batch : FreezeBatch
  parent : Parent
  sent : Nat
  toChild : List Datagram
  toParent : List Bytes
  child : Child

inductive HandoffEvent where
  /-- the parent sends a session, or END after the last one -/
  | parentSends (io : Sent)
  /-- END is sent, and never arrives -/
  | endLost
  | parentReceives
  /-- the parent's wait for an ack ends in an error, such as its timeout -/
  | parentFails (e : String)
  | parentDies
  /-- the child receives a datagram; `fd` says whether a descriptor comes out of it -/
  | childReceives (fd : Bool) (ack : Sent)
  /-- the child's wait ends in an error, such as its timeout -/
  | childFails (e : String)

namespace Handoff

def start (batch : FreezeBatch) : Handoff where
  batch := batch
  parent := .sending batch.frozen
  sent := 0
  toChild := []
  toParent := []
  child := .receiving []

/-! ## The parent -/

/-- The rest of the loop of `send_sessions` is skipped, by its `?`. -/
def parentError (h : Handoff) (e : IoError) : Handoff := { h with parent := .finished (.error e) }

def sendSession (json : Json) (h : Handoff) (session : FrozenSession) (rest : List FrozenSession)
    (io : Sent) : Handoff :=
  match json.toVec session.snapshot with
  | .error e => h.parentError e
  | .ok payload =>
      match io with
      | .ok =>
          { h with
            parent := .awaiting rest
            toChild := h.toChild ++ [⟨payload, some session.clientFd⟩] }
      | .failed e => h.parentError (osError e)

def sendEnd (h : Handoff) (io : Sent) : Handoff :=
  match io with
  | .ok =>
      { h with parent := .finished (.ok ()), toChild := h.toChild ++ [Datagram.endOfSessions] }
  | .failed e => h.parentError (osError e)

def receiveAck (h : Handoff) (rest : List FrozenSession) (ack : Bytes) (acks : List Bytes) :
    Handoff :=
  if ack ≠ ackMarker then
    { h with parent := .finished (.error (invalidData "bad handoff ack")), toParent := acks }
  else { h with parent := .sending rest, sent := h.sent + 1, toParent := acks }

/-! ## The child -/

def childError (h : Handoff) (e : IoError) : Handoff := { h with child := .finished (.error e) }

/-- One datagram in the loop of `recv_sessions`. -/
def receiveDatagram (json : Json) (h : Handoff) (sessions : Received) (d : Datagram) (fd : Bool)
    (ack : Sent) : Handoff :=
  if d.received = endMarker then { h with child := .finished (.ok sessions) }
  else match json.fromSlice d.received with
    | .error e => h.childError e
    | .ok snapshot =>
        match if fd then d.fd else none with
        | none => h.childError (invalidData "snapshot without client fd")
        | some clientFd =>
            match ack with
            | .ok =>
                { h with
                  child := .receiving (sessions ++ [(snapshot, clientFd)])
                  toParent := h.toParent ++ [ackMarker] }
            | .failed e => h.childError (osError e)

/-! ## Both -/

def step (json : Json) (h : Handoff) : HandoffEvent → Option Handoff
  | .parentSends io =>
      match h.parent with
      | .sending [] => some (h.sendEnd io)
      | .sending (session :: rest) => some (h.sendSession json session rest io)
      | _ => none
  | .endLost =>
      match h.parent with
      | .sending [] => some { h with parent := .finished (.ok ()) }
      | _ => none
  | .parentReceives =>
      match h.parent, h.toParent with
      | .awaiting rest, ack :: acks => some (h.receiveAck rest ack acks)
      | _, _ => none
  | .parentFails e =>
      match h.parent with
      | .awaiting _ => some (h.parentError (osError e))
      | _ => none
  | .parentDies =>
      match h.parent with
      | .sending _ | .awaiting _ => some { h with parent := .dead }
      | _ => none
  | .childReceives fd ack =>
      match h.child, h.toChild with
      | .receiving sessions, d :: ds =>
          some ({ h with toChild := ds }.receiveDatagram json sessions d fd ack)
      | _, _ => none
  | .childFails e =>
      match h.child with
      | .receiving _ => some (h.childError (osError e))
      | _ => none

/-- The sessions that the parent resumes: after an error, those not counted in
`sent`. -/
def resumed (h : Handoff) : List FrozenSession :=
  match h.parent with
  | .finished (.error _) => h.batch.resumeSkipping h.sent
  | _ => []

/-- The sessions that the child adopts: all it has received, unless `recv_sessions`
fails. -/
def adopted (h : Handoff) : Received :=
  match h.child with
  | .finished (.ok sessions) => sessions
  | _ => []

/-- Both loops have ended, or the parent with its process. -/
def Finished (h : Handoff) : Prop := h.parent.active = false ∧ h.child.waiting = false

end Handoff

def handoffMachine (json : Json) : Machine Handoff HandoffEvent Unit :=
  ⟨fun h e => (h.step json e).map (fun h' => (h', []))⟩

end TrafficDirector
