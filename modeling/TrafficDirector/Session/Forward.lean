/-
# `TrafficDirector.Session.Forward` — the forward loop

The two-phase state machine of one session (connected, outage), the replay that
leads from the second phase back to the first, and freeze, rollback and adoption.

One iteration of the loop is one step.  What the loop waits for is in the event:
the packet a read yields, how each write goes, how a fresh broker connection
behaves during a replay.  A session outlives its process: the event `migrate` is
a freeze whose snapshot is adopted by the next generation, and the run goes on
with the adopted session.
-/
import TrafficDirector.Lib.Machine
import TrafficDirector.Session.Handshake
import TrafficDirector.Session.Outage

namespace TrafficDirector

open Framing (Reader)

/-! ## The replay -/

/-- How a broker connection that was just accepted behaves during one replay. -/
structure Attempt where
  /-- how many writes to the broker go through before one fails -/
  brokerWrites : Nat
  /-- the same for the client -/
  clientWrites : Nat
  /-- the first packet read, in answer to the CONNECT -/
  connack : Next
  /-- the second, in answer to the re-SUBSCRIBE if there is one -/
  suback : Next
  /-- the broker side's reader after these reads -/
  after : Reader UInt8
  /-- the text of the error of a failed write -/
  writeError : String
deriving DecidableEq

/-- What `establish_broker` reads and changes. -/
structure Replay where
  attempt : Attempt
  windows : InflightWindows
  buffer : OutageBuffer
  brokerLeftover : Bytes
  keepAlive : UInt16
  out : List Output

abbrev ReplayM := EStateM IoError Replay

def osError (e : String) : IoError := ⟨.os, e⟩

/-- One write to the broker; `err` is what becomes of an error. -/
def writeBroker (err : String → IoError) (f : Frame) : ReplayM Unit := fun r =>
  if r.attempt.brokerWrites = 0 then .error (err r.attempt.writeError) r
  else .ok ()
    { r with
      attempt := { r.attempt with brokerWrites := r.attempt.brokerWrites - 1 }
      out := r.out ++ [.toBroker f] }

def writeClient (err : String → IoError) (f : Frame) : ReplayM Unit := fun r =>
  if r.attempt.clientWrites = 0 then .error (err r.attempt.writeError) r
  else .ok ()
    { r with
      attempt := { r.attempt with clientWrites := r.attempt.clientWrites - 1 }
      out := r.out ++ [.toClient f] }

/-- CONNECT with the clean bit cleared. -/
def replayConnect (connectRaw : Bytes) : ReplayM Unit :=
  match forceSessionResumption connectRaw with
  | .error e => throw e
  | .ok raw => writeBroker osError (.connect raw)

/-- The CONNACK stays with the proxy; a Server Keep Alive in it is enforced. -/
def readConnack (c : Codec) : ReplayM Unit := do
  match (← get).attempt.connack with
  | .packet (.v3 (.connectAck _)) => pure ()
  | .packet (.v5 (.connectAck ack)) =>
      match ack.serverKeepaliveSec with
      | some secs => modify (fun r => { r with keepAlive := secs })
      | none => pure ()
  | .packet other =>
      throw (invalidData ("broker answered CONNECT replay with " ++ c.debug other))
  | .error e => throw (invalidData e)
  | .closed => throw ⟨.connectionAborted, "broker closed during CONNECT replay"⟩

/-- Any packet passes for the SUBACK; one that is none is logged. -/
def readSuback : ReplayM Unit := do
  match (← get).attempt.suback with
  | .packet (.v3 (.subscribeAck ..)) | .packet (.v5 (.subscribeAck _)) => pure ()
  | .packet _ => pure ()
  | .error e => throw (invalidData e)
  | .closed => throw ⟨.connectionAborted, "broker closed during re-SUBSCRIBE"⟩

/-- Re-SUBSCRIBE; the SUBACK is not forwarded. -/
def resubscribe (version : ProtocolVersion) (subscriptions : Subscriptions) : ReplayM Unit :=
  match subscriptions.resubscribePacket version with
  | none => pure ()
  | some packet => do
      writeBroker invalidData (.packet packet)
      readSuback

/-- Deliver the complete packets of the dead connection's read buffer. -/
def deliverLeftover (c : Codec) (version : ProtocolVersion) : ReplayM Unit := do
  (c.decodeAll version (← get).brokerLeftover).forM (fun p => writeClient invalidData (.packet p))
  modify (fun r => { r with brokerLeftover := [] })

def retransmitBroker : ReplayM Unit := do
  (← get).windows.brokerRetransmits.forM (fun raw => writeBroker osError (.raw raw))

def retransmitClient : ReplayM Unit := do
  (← get).windows.clientRetransmits.forM (fun raw => writeClient osError (.raw raw))

/-- The window entry a buffered packet becomes when it is flushed. -/
def flushBinding (entry : BufferedPublish) : Option (UInt16 × (C2bState × RawPacket)) :=
  if entry.raw.packetType = 3 then some (entry.packetId, (publishSent, entry.raw))
  else if entry.raw.packetType = 6 then some (entry.packetId, (pubrelSent, entry.raw))
  else none -- SUBSCRIBE and UNSUBSCRIBE: the acks chain normally

def flushWindow (w : InflightWindows) (entry : BufferedPublish) : InflightWindows :=
  match flushBinding entry with
  | some (packetId, (state, raw)) => w.insertC2bRaw packetId state raw
  | none => w

def flushEntry (entry : BufferedPublish) : ReplayM Unit := do
  modify (fun r => { r with windows := flushWindow r.windows entry })
  writeBroker osError (.raw entry.raw)

/-- Flush the outage buffer in arrival order.  `drain(..)` takes all entries out at
once: they are gone also when a write fails. -/
def flushBuffer : ReplayM Unit := do
  let entries := (← get).buffer.entries
  modify (fun r => { r with buffer := { r.buffer with entries := [] } })
  entries.forM flushEntry
  modify (fun r => { r with buffer := { r.buffer with bytes := 0 } })

/-- Replay the session onto a fresh broker connection. -/
def establishBroker (c : Codec) (hs : Handshake) (subscriptions : Subscriptions) :
    ReplayM Unit := do
  replayConnect hs.connectRaw
  readConnack c
  resubscribe hs.version subscriptions
  deliverLeftover c hs.version
  retransmitBroker
  retransmitClient
  flushBuffer

/-! ## Sessions -/

inductive OutageStep where
  | connect
  | backoff (d : Nat)
deriving DecidableEq

/-- The state of `forward_loop`.  `broker` is `none` in the outage phase. -/
structure Session where
  id : SessionId
  hs : Handshake
  client : Reader UInt8
  broker : Option (Reader UInt8)
  windows : InflightWindows
  subscriptions : Subscriptions
  buffer : OutageBuffer
  brokerLeftover : Bytes
  backoff : Nat
  step : OutageStep
  lastClientActivity : Nat
deriving DecidableEq

namespace Session

/-- The session `run_session` enters the loop with, once the first broker has
answered the CONNECT. -/
def initial (id : SessionId) (hs : Handshake) (client broker : Reader UInt8) (now : Nat) :
    Session where
  id := id
  hs := hs
  client := client
  broker := some broker
  windows := .new
  subscriptions := .empty
  buffer := .empty
  brokerLeftover := []
  backoff := brokerRetryInitial
  step := .connect
  lastClientActivity := now

/-- The snapshot `handle_freeze` takes: of both sides, the read buffer only. -/
def freeze (s : Session) (clientFd : Int) : FrozenSession where
  id := s.id
  snapshot :=
    { version := s.hs.versionByte
      connectRaw := s.hs.connectRaw
      clientBuf := s.client.buf
      brokerBuf := (s.broker.map Reader.buf).getD []
      windows := s.windows.snapshot
      subscriptions := s.subscriptions.entries
      buffered := s.buffer.entries }
  clientFd := clientFd

end Session

/-- What the coordinator does with a frozen session. -/
inductive FreezeReply where
  /-- it is gone before the snapshot reaches it -/
  | gaveUp
  | resumed (returned : FrozenSession)
  /-- the resume channel is dropped: the session was handed over -/
  | dropped

inductive FreezeOutcome where
  | resume (client : Reader UInt8) (broker : Option (Reader UInt8))
  | exit

/-- Freeze, then restore the read buffers on rollback.  The decoders stayed where
they are. -/
def handleFreeze (s : Session) (clientFd : Int) (reply : FreezeReply) : FreezeOutcome :=
  let restore (f : FrozenSession) : FreezeOutcome :=
    .resume ⟨s.client.held, f.snapshot.clientBuf⟩
      (s.broker.map (fun b => ⟨b.held, f.snapshot.brokerBuf⟩))
  match reply with
  | .gaveUp => restore (s.freeze clientFd)
  | .resumed returned => restore returned
  | .dropped => .exit

/-- Adopt a migrated session: the child's side of a hand-off. -/
def adoptSession (c : Codec) (snapshot : SessionSnapshot) (id : SessionId) (now : Nat) :
    Except IoError Session :=
  (Handshake.fromSnapshotVersion c snapshot.version snapshot.connectRaw).map (fun hs =>
    { id := id
      hs := hs
      client := .fresh snapshot.clientBuf
      broker := none
      windows := .fromSnapshot snapshot.windows
      subscriptions := ⟨snapshot.subscriptions⟩
      buffer := .ofEntries snapshot.buffered
      brokerLeftover := snapshot.brokerBuf
      backoff := brokerRetryInitial
      step := .connect
      lastClientActivity := now })

/-- The v5 DISCONNECT reasons that mean maintenance: the proxy intercepts these
and reconnects quietly. -/
def isRetryableDisconnect : V5.DisconnectReasonCode → Bool
  | .normalDisconnection | .serverShuttingDown | .serverBusy | .useAnotherServer
  | .serverMoved => true
  | _ => false

inductive Outcome where
  | running (s : Session)
  | ended (result : Except IoError Unit)

/-- One thing the loop reacts to.  `control.recv()` never yields `None`: the
registry keeps the sender until the session's own `Registration` is dropped. -/
inductive Event where
  /-- bytes from the client that complete no packet -/
  | clientBytes (after : Reader UInt8)
  /-- bytes from the broker that complete no packet -/
  | brokerBytes (after : Reader UInt8)
  /-- `client.next()`; `pong` and `forward` are the writes that may follow -/
  | clientRead (now : Nat) (next : Next) (after : Reader UInt8) (pong forward : Sent)
  /-- `b.next()`; `forward` is the write to the client that may follow -/
  | brokerRead (next : Next) (after : Reader UInt8) (forward : Sent)
  | freeze (clientFd : Int) (reply : FreezeReply)
  /-- a freeze, a completed hand-off, and the adoption under a new id -/
  | migrate (id : SessionId) (now : Nat)
  | keepalive (now : Nat) (notice : Sent)
  /-- the outage phase's wait: a connect attempt or a backoff sleep is over -/
  | wait (result : Option Attempt)

/-- `client.send(…).await.map_err(invalid_data)?` -/
def Sent.toClient : Sent → MqttPacket → Except IoError (List Output)
  | .ok, p => .ok [.toClient (.packet p)]
  | .failed e, _ => .error (invalidData e)

/-- A PINGREQ is answered at once. -/
def answerPing (packet : MqttPacket) (pong : Sent) : Except IoError (List Output) :=
  match packet with
  | .v3 .pingRequest => pong.toClient (.v3 .pingResponse)
  | .v5 .pingRequest => pong.toClient (.v5 .pingResponse)
  | _ => .ok []

/-- A client packet in the connected phase. -/
def clientPacket (c : Codec) (s : Session) (packet : MqttPacket) (pong forward : Sent) :
    Outcome × List Output :=
  match answerPing packet pong with
  | .error e => (.ended (.error e), [])
  | .ok pongs =>
      let s' :=
        { s with
          windows := s.windows.trackC2b c packet
          subscriptions := s.subscriptions.track packet }
      match forward with
      | .ok => (.running s', pongs ++ [.toBroker (.packet packet)])
      | .failed _ => (.running { s' with broker := none }, pongs)

/-- A client packet in the outage phase. -/
def outagePacket (c : Codec) (s : Session) (packet : MqttPacket) (pong : Sent) :
    Outcome × List Output :=
  match serviceOutagePacket c ⟨s.buffer, s.subscriptions, s.windows, []⟩ packet pong with
  | .error e => (.ended (.error e), [])
  | .ok v =>
      (.running
        { s with buffer := v.buffer, subscriptions := v.subscriptions, windows := v.windows },
        v.out)

/-- The broker connection is lost: what its reader had buffered is kept. -/
def Session.loseBroker (s : Session) (after : Reader UInt8) : Session :=
  { s with broker := none, brokerLeftover := after.buf }

/-- A packet of the broker, in the connected phase. -/
def brokerPacket (c : Codec) (s : Session) (packet : MqttPacket) (after : Reader UInt8)
    (forward : Sent) : Outcome × List Output :=
  match packet with
  | .v5 (.disconnect d) =>
      if isRetryableDisconnect d.reasonCode then (.running (s.loseBroker after), [])
      else
        match forward.toClient packet with
        | .ok out => (.ended (.ok ()), out)
        | .error e => (.ended (.error e), [])
  | .v3 .pingResponse | .v5 .pingResponse => (.running { s with broker := some after }, [])
  | _ =>
      let s' := { s with broker := some after, windows := s.windows.trackB2c c packet }
      match forward.toClient packet with
      | .ok out => (.running s', out)
      | .error e => (.ended (.error e), [])

/-- A v5 client is told why it is dropped; a failing write is ignored. -/
def closeForKeepalive (s : Session) (notice : Sent) : List Output :=
  match s.hs.version, notice with
  | .mqtt5, .ok => [.toClient (.packet (.v5 (.disconnect ⟨.keepAliveTimeout⟩)))]
  | _, _ => []

/-- What a replay by `establish_broker` starts from. -/
def Session.replay (s : Session) (a : Attempt) : Replay :=
  ⟨a, s.windows, s.buffer, s.brokerLeftover, s.hs.keepAlive, []⟩

/-- The session a successful replay leads to. -/
def Session.replayed (s : Session) (r : Replay) : Session :=
  { s with
    hs := { s.hs with keepAlive := r.keepAlive }
    broker := some r.attempt.after
    windows := r.windows
    buffer := r.buffer
    brokerLeftover := r.brokerLeftover
    backoff := brokerRetryInitial
    step := .connect }

/-- A broker has accepted the connection. -/
def connectBroker (c : Codec) (s : Session) (a : Attempt) : Outcome × List Output :=
  match establishBroker c s.hs s.subscriptions (s.replay a) with
  | .ok _ r => (.running (s.replayed r), .openBroker :: r.out)
  | .error e r => (.ended (.error e), .openBroker :: r.out)

/-- The freeze branch of either phase. -/
def freezeSession (s : Session) (clientFd : Int) (reply : FreezeReply) : Outcome :=
  match handleFreeze s clientFd reply with
  | .resume client broker => .running { s with client := client, broker := broker }
  | .exit => .ended (.ok ())

/-- A hand-off as the session sees it: frozen here, adopted there. -/
def migrateSession (c : Codec) (s : Session) (id : SessionId) (now : Nat) : Outcome :=
  match adoptSession c (s.freeze 0).snapshot id now with
  | .ok s' => .running s'
  | .error e => .ended (.error e)

/-- The branches both phases have in common. -/
def commonStep (c : Codec) (s : Session) : Event → Option (Outcome × List Output)
  | .clientBytes after => some (.running { s with client := after }, [])
  | .clientRead _ (.error e) _ _ _ => some (.ended (.error (invalidData e)), [])
  | .clientRead _ .closed _ _ _ => some (.ended (.ok ()), [])
  | .freeze clientFd reply => some (freezeSession s clientFd reply, [])
  | .migrate id now => some (migrateSession c s id now, [])
  | .keepalive now notice =>
      if clientDeadline s.hs.keepAlive s.lastClientActivity ≤ now then
        some (.ended (.ok ()), closeForKeepalive s notice)
      else none
  | _ => none

/-- The connected phase. -/
def connectedStep (c : Codec) (s : Session) (e : Event) : Option (Outcome × List Output) :=
  match e with
  | .clientRead now (.packet p) after pong forward =>
      some (clientPacket c { s with client := after, lastClientActivity := now } p pong forward)
  | .brokerBytes after => some (.running { s with broker := some after }, [])
  | .brokerRead (.packet p) after forward => some (brokerPacket c s p after forward)
  | .brokerRead (.error _) after _ | .brokerRead .closed after _ =>
      some (.running (s.loseBroker after), [])
  | e => commonStep c s e

/-- The outage phase: retry the broker while servicing the client. -/
def outageStep (c : Codec) (s : Session) (e : Event) : Option (Outcome × List Output) :=
  match e with
  | .clientRead now (.packet p) after pong _ =>
      some (outagePacket c { s with client := after, lastClientActivity := now } p pong)
  | .wait result =>
      match s.step, result with
      | .connect, some a => some (connectBroker c s a)
      | .connect, none =>
          some (.running
            { s with step := .backoff s.backoff, backoff := min (s.backoff * 2) brokerRetryMax }, [])
      | .backoff _, none => some (.running { s with step := .connect }, [])
      | .backoff _, some _ => none
  | e => commonStep c s e

/-- One iteration of `forward_loop`. -/
def forwardLoop (c : Codec) : Outcome → Event → Option (Outcome × List Output)
  | .ended _, _ => none
  | .running s, e => if s.broker.isSome then connectedStep c s e else outageStep c s e

/-- The session as a machine. -/
def sessionMachine (c : Codec) : Machine Outcome Event Output := ⟨forwardLoop c⟩

end TrafficDirector
