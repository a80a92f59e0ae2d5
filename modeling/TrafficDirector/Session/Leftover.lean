/-
# `TrafficDirector.Session.Leftover` — the broker's byte stream across an outage

When a broker connection is gone, what its reader had buffered is kept, and the
next replay decodes it with a new codec.  `leftoverGenuine_iff` says when the
packets that come out are the next ones of the dead connection's stream: when the
dead codec held no fixed header, or its buffer does not start with the likeness of
a frame.  Where the buffer is not kept (a failed write to the broker, a hand-off
during the outage), it is when there was no complete packet in it.
`leftoverKept_iff` is about the bytes themselves, at the loss of the connection.
-/
import TrafficDirector.Session.Framed
import TrafficDirector.ReferenceCodec

namespace TrafficDirector

open Framing (Reader)

variable {c : Codec} {v : ProtocolVersion} {d after : Reader UInt8} {s s' t u : Session}
  {e : Event} {es es' : List Event} {b chunk : Bytes} {cs : List Bytes}
  {out o₀ o₁ o₂ o₃ : List Output}

/-- How a broker connection ends whose reader is `d`: the event, the bytes that came
in with it, and the reader it leaves. -/
inductive Dies (c : Codec) (v : ProtocolVersion) (d : Reader UInt8) :
    Event → Bytes → Reader UInt8 → Prop where
  /-- the connection is reset -/
  | reset {next : Next} {forward : Sent} (dead : ∀ p, next ≠ .packet p) :
      Dies c v d (.brokerRead next d forward) [] d
  /-- it is closed, and the decoder is asked once more -/
  | closed {next : Next} {d' : Reader UInt8} {forward : Sent} (dead : ∀ p, next ≠ .packet p)
      (polled : Framing.poll (c.grammar v) c.hold d [] = ⟨[], d', false⟩) :
      Dies c v d (.brokerRead next d' forward) [] d'
  | undecodable {err : String} {chunk : Bytes} {d' : Reader UInt8} {forward : Sent}
      (polled : Framing.poll (c.grammar v) c.hold d chunk = ⟨[], d', true⟩) :
      Dies c v d (.brokerRead (.error err) d' forward) chunk d'
  /-- the broker says DISCONNECT -/
  | disconnected {p : MqttPacket} {chunk : Bytes} {d' : Reader UInt8} {forward : Sent}
      (polled : Framing.poll (c.grammar v) c.hold d chunk = ⟨[p], d', false⟩) :
      Dies c v d (.brokerRead (.packet p) d' forward) chunk d'
  /-- the session is frozen and handed over -/
  | frozen {id : SessionId} {now : Nat} : Dies c v d (.migrate id now) [] d
  /-- a write to the broker fails -/
  | writeFailed {now : Nat} {p : MqttPacket} {client : Reader UInt8} {pong : Sent} {err : String} :
      Dies c v d (.clientRead now (.packet p) client pong (.failed err)) [] d

/-- The event is a client packet that cannot be written to the broker. -/
def Event.sendFails : Event → Bool
  | .clientRead _ (.packet _) _ _ (.failed _) => true
  | _ => false

/-- The packets read from a broker connection that brought `stream`, then those the
next replay takes out of the leftover and sends to the client, are the packets of
the stream. -/
def LeftoverGenuine (c : Codec) (v : ProtocolVersion) (stream : Bytes) (es : List Event)
    (u : Session) : Prop :=
  es.filterMap Event.brokerPacket ++ u.leftoverPackets c = ((c.grammar v).parse stream).items

/-- The reader at a connection's end is one whose buffer says it all. -/
def LeftoverWhole (c : Codec) (v : ProtocolVersion) (after : Reader UInt8) (dropped : Bool) : Prop :=
  if dropped then ∀ p r, (c.grammar v).scan after.content ≠ .item p r
  else after.held = [] ∨ ∀ p r, (c.grammar v).scan after.buf ≠ .item p r

theorem Next.brokerPacket_dead {next : Next} {d : Reader UInt8} {forward : Sent}
    (dead : ∀ p, next ≠ .packet p) : Event.brokerPacket (.brokerRead next d forward) = none := by
  cases next with
  | packet p => exact absurd rfl (dead p)
  | _ => rfl

/-- What the end of a connection takes off its stream, and what it leaves. -/
theorem Dies.items (h : Dies c v d e chunk after) :
    ((c.grammar v).parse (d.content ++ chunk)).items
      = e.brokerPacket.toList ++ ((c.grammar v).parse after.content).items := by
  cases h with
  | reset dead => rw [Next.brokerPacket_dead dead, List.append_nil]; rfl
  | closed dead polled => rw [Next.brokerPacket_dead dead, Framing.poll_parse polled]; rfl
  | undecodable polled => rw [Framing.poll_parse polled]; rfl
  | disconnected polled => rw [Framing.poll_parse polled]; rfl
  | frozen => rw [List.append_nil]; rfl
  | writeFailed => rw [List.append_nil]; rfl

/-- A reader that holds something has nothing complete. -/
theorem Dies.held (h : Dies c v d e chunk after)
    (hd : d.held ≠ [] → (c.grammar v).scan d.content = .more) (hafter : after.held ≠ []) :
    ∀ p r, (c.grammar v).scan after.content ≠ .item p r := by
  have hsame : after = d → ∀ p r, (c.grammar v).scan after.content ≠ .item p r := by
    rintro rfl p r hp
    exact nomatch (hd hafter).symm.trans hp
  cases h with
  | reset dead => exact hsame rfl
  | closed dead polled => exact Framing.poll_held polled hafter
  | undecodable polled => exact Framing.poll_held polled hafter
  | disconnected polled => exact Framing.poll_held polled hafter
  | frozen => exact hsame rfl
  | writeFailed => exact hsame rfl

/-- What is kept of a connection when it is gone. -/
theorem Dies.leftover (h : Dies c v d e chunk after) (hd : t.broker = some d)
    (hsettled : t.Settled) (ht : Transition c t e s' out) (down : s'.broker = none) :
    s'.brokerLeftover = if e.sendFails then [] else after.buf := by
  have up : t.broker.isSome = true := hd ▸ rfl
  cases ht with
  | idle quiet same =>
      rw [← same.up, down] at up
      exact nomatch up
  | forwarded =>
      have hnone : t.broker = none := down
      exact nomatch hnone.symm.trans hd
  | unsent => exact (hsettled up).2
  | held hnone => exact nomatch hnone.symm.trans hd
  | delivered => exact nomatch down
  | lost =>
      cases h with
      | _ => rfl
  | replayed hnone => exact nomatch hnone.symm.trans hd
  | migrated id now keepAlive =>
      cases h with
      | frozen =>
          show (t.broker.map Reader.buf).getD [] = d.buf
          rw [hd]
          rfl

/-- A connection that is lost leaves all undecoded bytes, exactly when there are none
to be lost by a failed write, or none in the decoder. -/
theorem leftoverKept_iff {id : SessionId} {hs : Handshake} {client broker : Reader UInt8}
    {now : Nat}
    (hreach : (sessionMachine c).run (.running (Session.initial id hs client broker now)) es
      = some (.running t, o₀))
    (hd : t.broker = some d) (hdies : Dies c t.hs.version d e chunk after)
    (hstep : forwardLoop c (.running t) e = some (.running s', o₁)) (down : s'.broker = none) :
    s'.brokerLeftover = after.content ↔
      if e.sendFails then after.content = [] else after.held = [] := by
  have hsettled := run_settled (Session.settled_initial id hs client broker now) hreach
  rw [hdies.leftover hd hsettled (forwardLoop_running hstep) down]
  cases e.sendFails with
  | true => exact eq_comm
  | false => exact List.self_eq_append_left

/-- What is kept of it at any later point of the outage. -/
theorem run_outage (down : s.broker = none)
    (hrun : (sessionMachine c).run (.running s) es = some (.running u, out))
    (hopen : ∀ e ∈ es, e.opens = false) :
    u.brokerLeftover = if es.any Event.migrates then [] else s.brokerLeftover := by
  induction es generalizing s out with
  | nil =>
      obtain ⟨rfl, -⟩ := running_inj (Option.some.inj hrun)
      rfl
  | cons e es ih =>
      obtain ⟨s₁, o₁, o₂, ht, hr, -⟩ := run_cons_running hrun
      obtain ⟨hopen₁, hopen₂⟩ := List.forall_mem_cons.mp hopen
      obtain ⟨down₁, -, hleft⟩ := ht.outage hopen₁ down
      rw [ih down₁ hr hopen₂, hleft, List.any_cons]
      cases e.migrates with
      | false => rfl
      | true => exact ite_self _

theorem leftoverPackets_eq (u : Session) :
    u.leftoverPackets c = ((c.grammar u.hs.version).parse u.brokerLeftover).items :=
  Framing.drain_eq _

/-- Whether the kept buffer says all there is left to say. -/
theorem leftoverWhole_iff {dropped : Bool}
    (h : after.held ≠ [] → ∀ p r, (c.grammar v).scan after.content ≠ .item p r) :
    ((c.grammar v).parse (if dropped then [] else after.buf)).items
        = ((c.grammar v).parse after.content).items ↔ LeftoverWhole c v after dropped := by
  cases dropped with
  | false => exact Framing.items_buf_eq_iff h
  | true =>
      show ((c.grammar v).parse []).items = _ ↔ ∀ p r, _
      rw [← Framing.Grammar.parse_items_eq_nil, eq_comm]
      exact Iff.rfl

/-- A session reads a broker connection whose stream is `b ++ cs.flatten ++ chunk`
until the connection dies at `e`; an outage of events `es'` follows.  What is then
taken out of the leftover are the next packets of that stream exactly when the
buffer at the end is whole. -/
theorem leftoverGenuine_iff {id : SessionId} {hs : Handshake} {client broker : Reader UInt8}
    {now : Nat} {es₀ : List Event}
    (hreach : (sessionMachine c).run (.running (Session.initial id hs client broker now)) es₀
      = some (.running s, o₀))
    (hopened : s.broker = some (.fresh b))
    (hread : (sessionMachine c).run (.running s) es = some (.running t, o₁))
    (hpolls : Polls c s.hs.version brokerSocket (.fresh b) es cs) (hd : t.broker = some d)
    (hdies : Dies c s.hs.version d e chunk after)
    (hstep : forwardLoop c (.running t) e = some (.running s', o₂)) (down : s'.broker = none)
    (houtage : (sessionMachine c).run (.running s') es' = some (.running u, o₃))
    (hopen : ∀ e ∈ es', e.opens = false) :
    LeftoverGenuine c s.hs.version (b ++ cs.flatten ++ chunk) (es ++ [e]) u ↔
      LeftoverWhole c s.hs.version after (e.sendFails || es'.any Event.migrates) := by
  have hreader : d = (c.feed s.hs.version (.fresh b) cs).reader :=
    Option.some.inj (hd.symm.trans (hpolls.broker hopened hread (hd ▸ rfl)))
  obtain ⟨hok, hitems⟩ := hpolls.feed
  have ht := forwardLoop_running hstep
  -- the leftover
  have hsettled := run_settled (run_settled (Session.settled_initial id hs client broker now) hreach) hread
  have hleft : u.brokerLeftover
      = if e.sendFails || es'.any Event.migrates then [] else after.buf := by
    rw [run_outage down houtage hopen, hdies.leftover hd hsettled ht down]
    cases e.sendFails with
    | false => rfl
    | true => exact ite_self _
  have hversion : u.hs.version = s.hs.version :=
    (run_version houtage).trans (ht.connect.2.trans (run_version hread))
  -- the stream
  have hstream : ((c.grammar s.hs.version).parse (b ++ cs.flatten ++ chunk)).items
      = (es ++ [e]).filterMap Event.brokerPacket
        ++ ((c.grammar s.hs.version).parse after.content).items := by
    have hlast : [e].filterMap Event.brokerPacket = e.brokerPacket.toList := by
      cases h : e.brokerPacket with
      | none => exact List.filterMap_cons_none h
      | some p => exact List.filterMap_cons_some h
    have hparse := Framing.feed_parse chunk cs (.fresh b) hok
    rw [Reader.content_fresh] at hparse
    rw [hparse, List.filterMap_append, hlast, List.append_assoc, ← hdies.items, hreader]
    exact congrArg (· ++ _) hitems
  have hheld : d.held ≠ [] → (c.grammar s.hs.version).scan d.content = .more := by
    rw [hreader]
    exact Framing.feed_held cs (.fresh b) (fun hne => absurd rfl hne) hok
  rw [LeftoverGenuine, leftoverPackets_eq, hversion, hleft, hstream,
    List.append_cancel_left_eq]
  exact leftoverWhole_iff (hdies.held hheld)

namespace ReferenceCodec

/-- The broker's PUBACK is read, with the first byte of another packet behind it. -/
def readPuback : Event := .brokerRead (.packet (puback one)) (.fresh [0x30]) .ok

/-- The broker closes in the middle of that packet. -/
def closesEarly : Event := .brokerRead (.error "bytes remaining on stream") (.fresh [0x30]) .ok

/-- A PUBACK is read, with another one behind it. -/
def readTwo : Event := .brokerRead (.packet (puback one)) (.fresh (encode (puback two)).toBytes) .ok

/-- A client packet that cannot be written to the broker. -/
def unwritten : Event :=
  .clientRead 5000 (.packet (publish two [])) (.fresh []) .ok (.failed "broken pipe")

end ReferenceCodec

open ReferenceCodec in
/-- The broker's close loses nothing of the lone byte that has come in. -/
theorem leftoverKept_closed : ∃ t, t.brokerLeftover = [0x30] ∧
    (sessionMachine (codec true)).run (.running session) [readPuback, closesEarly]
      = some (.running t, [.toClient (.packet (puback one))]) := by
  have hdies : Dies (codec true) .mqtt3 (.fresh [0x30]) closesEarly [] (.fresh [0x30]) :=
    .closed (fun p hp => nomatch hp) rfl
  have hrun : (sessionMachine (codec true)).run (.running session) [readPuback]
      = some (.running _, _) := rfl
  exact ⟨_, (leftoverKept_iff hrun rfl hdies rfl rfl).mpr rfl, rfl⟩

open ReferenceCodec in
/-- The lone byte is nobody's packet. -/
theorem leftoverGenuine_partial : ∃ t out,
    (sessionMachine (codec true)).run (.running session) [readPuback, closesEarly]
      = some (.running t, out) ∧
    LeftoverGenuine (codec true) .mqtt3 [0x40, 2, 0, 1, 0x30] [readPuback, closesEarly] t := by
  have hpolls : Polls (codec true) .mqtt3 brokerSocket (.fresh []) [readPuback]
      [[0x40, 2, 0, 1, 0x30]] := .poll rfl rfl .done
  have hdies : Dies (codec true) .mqtt3 (.fresh [0x30]) closesEarly [] (.fresh [0x30]) :=
    .closed (fun p hp => nomatch hp) rfl
  refine ⟨_, _, rfl, ?_⟩
  have hstart : (sessionMachine (codec true)).run (.running session) []
      = some (.running session, []) := rfl
  have hrun : (sessionMachine (codec true)).run (.running session) [readPuback]
      = some (.running _, _) := rfl
  exact (leftoverGenuine_iff hstart rfl hrun hpolls rfl hdies rfl rfl (Machine.run_nil _ _)
    (fun e he => nomatch he)).mpr (Or.inl rfl)

open ReferenceCodec in
/-- A PUBLISH with a topic of 16386 bytes, of which the length and "AB" have arrived
when the broker closes.  The codec has taken the fixed header, so the rest reads as
the acknowledgement of packet 0x4142, which the broker has never sent. -/
theorem leftover_forges_puback : ∃ t out,
    (sessionMachine (codec true)).run (.running session)
      [.brokerBytes ⟨[0x30, 0x84, 0x80, 1], [0x40, 2, 0x41, 0x42]⟩,
        .brokerRead .closed ⟨[0x30, 0x84, 0x80, 1], [0x40, 2, 0x41, 0x42]⟩ .ok]
      = some (.running t, out) ∧
    Polls (codec true) .mqtt3 brokerSocket (.fresh [])
      [.brokerBytes ⟨[0x30, 0x84, 0x80, 1], [0x40, 2, 0x41, 0x42]⟩]
      [[0x30, 0x84, 0x80, 1, 0x40, 2, 0x41, 0x42]] ∧
    t.leftoverPackets (codec true) = [puback ⟨0x4142, by decide⟩] ∧
    ¬ LeftoverGenuine (codec true) .mqtt3 [0x30, 0x84, 0x80, 1, 0x40, 2, 0x41, 0x42]
      [.brokerBytes ⟨[0x30, 0x84, 0x80, 1], [0x40, 2, 0x41, 0x42]⟩,
        .brokerRead .closed ⟨[0x30, 0x84, 0x80, 1], [0x40, 2, 0x41, 0x42]⟩ .ok] t := by
  refine ⟨_, _, rfl, .poll rfl rfl .done, by decide, ?_⟩
  unfold LeftoverGenuine
  decide

open ReferenceCodec in
/-- Two PUBACKs come in at once; before the second one is decoded, a client packet
cannot be written to the broker.  The second PUBACK is gone. -/
theorem failed_write_drops_puback : ∃ t s' out,
    (sessionMachine (codec true)).run (.running session) [readTwo] = some (.running t, out) ∧
    t.broker = some (.fresh (encode (puback two)).toBytes) ∧
    forwardLoop (codec true) (.running t) unwritten = some (.running s', []) ∧
    s'.broker = none ∧ s'.brokerLeftover = [] ∧
    (codec true).decodeAll .mqtt3 (encode (puback two)).toBytes = [puback two] := by
  refine ⟨_, _, _, rfl, rfl, rfl, rfl, rfl, by decide⟩

end TrafficDirector
