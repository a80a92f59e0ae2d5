/-
# `TrafficDirector.Session.Framed` — the sockets of a session as byte streams

The events of a session carry packets and the readers they leave.  `Polls` says
that these are what polling a socket yields when its stream arrives in given
chunks; other events may stand between the polls, as long as they leave the
socket's reader alone.  Along such a run the packets and the reader are those of
`Framing.feed`: `Polls.feed`, `Polls.client`, `Polls.broker`.
-/
import TrafficDirector.Session.Transition

namespace TrafficDirector

open Framing (Reader Fed)

namespace Codec

variable (c : Codec)

/-- The polls of a connection of version `v` for the chunks `cs`. -/
def feed (v : ProtocolVersion) (d : Reader UInt8) (cs : List Bytes) : Fed UInt8 MqttPacket :=
  Framing.feed (c.grammar v) c.hold d cs

/-- All packets that a connection of version `v` decodes from the chunks `cs`. -/
def read (v : ProtocolVersion) (d : Reader UInt8) (cs : List Bytes) : List MqttPacket :=
  Framing.read (c.grammar v) c.hold d cs

end Codec

/-- One of the two sockets of a session, as its events show it. -/
structure Socket where
  packet : Event → Option MqttPacket
  /-- what the poll of the socket that the event is the answer to has decoded, and
  the reader it leaves -/
  poll : Event → Option (List MqttPacket × Reader UInt8)
  /-- the event leaves this reader of the socket alone -/
  still : Reader UInt8 → Event → Prop
  packet_poll : ∀ e, (packet e).toList = (poll e).elim [] Prod.fst

def Event.clientPoll : Event → Option (List MqttPacket × Reader UInt8)
  | .clientBytes after => some ([], after)
  | .clientRead _ (.packet p) after _ _ => some ([p], after)
  | _ => none

def Event.brokerPoll : Event → Option (List MqttPacket × Reader UInt8)
  | .brokerBytes after => some ([], after)
  | .brokerRead (.packet p) after _ => some ([p], after)
  | _ => none

def clientSocket : Socket where
  packet := Event.clientPacket
  poll := Event.clientPoll
  still d e := ∀ s : Session, s.client = d → s.clientAfter e = d
  packet_poll e := by
    cases e with
    | clientRead now next after pong forward => cases next <;> rfl
    | _ => rfl

/-- The socket of one broker connection: none of the events opens another. -/
def brokerSocket : Socket where
  packet := Event.brokerPacket
  poll := Event.brokerPoll
  still d e := e.opens = false ∧ ∀ s : Session, s.broker = some d → s.brokerAfter e = some d
  packet_poll e := by
    cases e with
    | brokerRead next after forward => cases next <;> rfl
    | _ => rfl

/-- From the reader `d`, the events poll the socket for the chunks `cs`. -/
inductive Polls (c : Codec) (v : ProtocolVersion) (socket : Socket) :
    Reader UInt8 → List Event → List Bytes → Prop where
  | done {d : Reader UInt8} : Polls c v socket d [] []
  | other {d : Reader UInt8} {e : Event} {es : List Event} {cs : List Bytes}
      (unread : socket.poll e = none) (still : socket.still d e) (rest : Polls c v socket d es cs) :
      Polls c v socket d (e :: es) cs
  | poll {d d' : Reader UInt8} {e : Event} {es : List Event} {chunk : Bytes}
      {ps : List MqttPacket} {cs : List Bytes}
      (polled : Framing.poll (c.grammar v) c.hold d chunk = ⟨ps, d', false⟩)
      (read : socket.poll e = some (ps, d')) (rest : Polls c v socket d' es cs) :
      Polls c v socket d (e :: es) (chunk :: cs)

variable {c : Codec} {v : ProtocolVersion} {d : Reader UInt8} {es : List Event} {cs : List Bytes}
  {s t : Session} {out : List Output}

theorem Socket.filterMap_packet_cons (socket : Socket) (e : Event) :
    (e :: es).filterMap socket.packet
      = (socket.poll e).elim [] Prod.fst ++ es.filterMap socket.packet := by
  rw [← socket.packet_poll]
  cases h : socket.packet e with
  | none => rw [List.filterMap_cons_none h]; rfl
  | some p => rw [List.filterMap_cons_some h]; rfl

/-- The packets of such events are those that the chunks bring. -/
theorem Polls.feed {socket : Socket} (h : Polls c v socket d es cs) :
    (c.feed v d cs).failed = false ∧ (c.feed v d cs).items = es.filterMap socket.packet := by
  induction h with
  | done => exact ⟨rfl, rfl⟩
  | other unread still rest ih =>
      rw [socket.filterMap_packet_cons, unread]
      exact ih
  | poll polled read rest ih =>
      obtain ⟨hok, hitems⟩ := ih
      rw [Codec.feed, Framing.feed_cons polled, socket.filterMap_packet_cons, read]
      exact ⟨hok, congrArg (_ ++ ·) hitems⟩

theorem Event.clientAfter_of_poll {e : Event} {ps : List MqttPacket} {d' : Reader UInt8}
    (h : e.clientPoll = some (ps, d')) : s.clientAfter e = d' := by
  unfold Event.clientPoll at h
  split at h
  · exact (Prod.mk.inj (Option.some.inj h)).2
  · exact (Prod.mk.inj (Option.some.inj h)).2
  · exact nomatch h

theorem Event.brokerAfter_of_poll {e : Event} {ps : List MqttPacket} {d' : Reader UInt8}
    (h : e.brokerPoll = some (ps, d')) : s.brokerAfter e = some d' := by
  unfold Event.brokerPoll at h
  split at h
  · exact congrArg some (Prod.mk.inj (Option.some.inj h)).2
  · exact congrArg some (Prod.mk.inj (Option.some.inj h)).2
  · exact nomatch h

theorem Event.opens_of_poll {e : Event} {r : List MqttPacket × Reader UInt8}
    (h : e.brokerPoll = some r) : e.opens = false := by
  cases e with
  | wait => exact nomatch h
  | _ => rfl

/-- A session that polls its client has the reader that the chunks lead to. -/
theorem Polls.client (h : Polls c v clientSocket d es cs) (hd : s.client = d)
    (hrun : (sessionMachine c).run (.running s) es = some (.running t, out)) :
    t.client = (c.feed v d cs).reader := by
  induction h generalizing s out with
  | done =>
      obtain ⟨rfl, -⟩ := running_inj (Option.some.inj hrun)
      exact hd
  | other unread still rest ih =>
      obtain ⟨s₁, o₁, o₂, ht, hr, -⟩ := run_cons_running hrun
      exact ih (ht.client.trans (still s hd)) hr
  | poll polled read rest ih =>
      obtain ⟨s₁, o₁, o₂, ht, hr, -⟩ := run_cons_running hrun
      rw [Codec.feed, Framing.feed_cons polled]
      exact ih (ht.client.trans (Event.clientAfter_of_poll read)) hr

/-- Without a new connection, a session that has one at the end has it all along. -/
theorem run_up (hopen : ∀ e ∈ es, e.opens = false)
    (hrun : (sessionMachine c).run (.running s) es = some (.running t, out))
    (up : t.broker.isSome = true) : s.broker.isSome = true := by
  cases hdown : s.broker with
  | some d => rfl
  | none =>
      have : t.broker = none :=
        run_transitions (I := fun s => s.broker = none)
          (fun e he _ _ _ hs ht => (ht.outage (hopen e he) hs).1) hdown hrun
      rw [this] at up
      exact nomatch up

theorem Polls.opens (h : Polls c v brokerSocket d es cs) : ∀ e ∈ es, e.opens = false := by
  induction h with
  | done => exact fun e he => nomatch he
  | other unread still rest ih => exact List.forall_mem_cons.mpr ⟨still.1, ih⟩
  | poll polled read rest ih =>
      exact List.forall_mem_cons.mpr ⟨Event.opens_of_poll read, ih⟩

/-- The same of a broker connection, as long as it stays. -/
theorem Polls.broker (h : Polls c v brokerSocket d es cs) (hd : s.broker = some d)
    (hrun : (sessionMachine c).run (.running s) es = some (.running t, out))
    (up : t.broker.isSome = true) : t.broker = some (c.feed v d cs).reader := by
  induction h generalizing s out with
  | done =>
      obtain ⟨rfl, -⟩ := running_inj (Option.some.inj hrun)
      exact hd
  | other unread still rest ih =>
      obtain ⟨s₁, o₁, o₂, ht, hr, -⟩ := run_cons_running hrun
      have up₁ := run_up rest.opens hr up
      exact ih ((ht.broker (hd ▸ rfl) up₁).trans (still.2 s hd)) hr
  | poll polled read rest ih =>
      obtain ⟨s₁, o₁, o₂, ht, hr, -⟩ := run_cons_running hrun
      have up₁ := run_up rest.opens hr up
      rw [Codec.feed, Framing.feed_cons polled]
      exact ih ((ht.broker (hd ▸ rfl) up₁).trans (Event.brokerAfter_of_poll read)) hr

end TrafficDirector
