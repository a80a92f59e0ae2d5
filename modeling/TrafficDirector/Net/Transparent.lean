/-
# `TrafficDirector.Net.Transparent` — the proxy between two byte streams

As long as its first broker connection lasts, a session passes on what it reads, packet by
packet, and answers PINGREQs itself (`run_relayed`).  Together with `Session.Arrival` and
`Session.Framed` this is a statement about bytes: the broker's side is sent what the
client's stream says, from the CONNECT on, and the client's side what the broker's stream
says, whatever the chunks and whichever side is read first (`streams_transparent`).
-/
import TrafficDirector.Net.System
import TrafficDirector.Session.Answers
import TrafficDirector.Session.Arrival
import TrafficDirector.Session.Framed

namespace TrafficDirector

open Framing (Reader)

/-- `PassedOn`, by a look at the packet. -/
def MqttPacket.isPassedOn : MqttPacket → Bool
  | .v5 (.disconnect _) => false
  | p => p.shape ≠ .pingResponse

theorem MqttPacket.isPassedOn_iff (p : MqttPacket) : p.isPassedOn = true ↔ p.PassedOn := by
  rcases p with p | p
  · cases p <;> simp [isPassedOn, PassedOn]
  · cases p <;> simp [isPassedOn, PassedOn]

/-- What a connected session does on an event. -/
def Event.relayed (e : Event) : List Output :=
  match e.clientPacket with
  | some p => e.pong ++ [.toBroker (.packet p)]
  | none =>
      (e.brokerPacket.toList.filter MqttPacket.isPassedOn).map (fun p => .toClient (.packet p))

/-- The bytes that are written to the broker. -/
def Output.brokerBytes (c : Codec) : Output → Bytes
  | .toBroker f => f.bytes c
  | _ => []

namespace Codec

/-- The encoding of a stream of packets. -/
def encodeAll (c : Codec) (ps : List MqttPacket) : Bytes := ps.flatMap (fun p => (encodeRaw c p).toBytes)

theorem encodeAll_cons (c : Codec) (p : MqttPacket) (ps : List MqttPacket) :
    c.encodeAll (p :: ps) = (encodeRaw c p).toBytes ++ c.encodeAll ps :=
  List.flatMap_cons

theorem encodeAll_append (c : Codec) (ps qs : List MqttPacket) :
    c.encodeAll (ps ++ qs) = c.encodeAll ps ++ c.encodeAll qs :=
  List.flatMap_append

/-- The packets of a byte stream. -/
def packets (c : Codec) (v : ProtocolVersion) (b : Bytes) : List MqttPacket :=
  ((c.grammar v).parse b).items

end Codec

variable {c : Codec} {s s' t : Session} {e : Event} {es : List Event} {out : List Output}
  {p : MqttPacket} {v : ProtocolVersion}

/-! ## Packets -/

theorem answerPing_eq {now : Nat} {after : Reader UInt8} {pong forward : Sent}
    {pongs : List Output} (h : answerPing p pong = .ok pongs) :
    pongs = (Event.clientRead now (.packet p) after pong forward).pong := by
  show pongs = if p.shape = .pingRequest then _ else _
  unfold answerPing at h
  split at h
  · exact (Sent.toClient_ok h).trans (if_pos rfl).symm
  · exact (Sent.toClient_ok h).trans (if_pos rfl).symm
  · next hv3 hv5 =>
      rw [if_neg]
      · exact (Except.ok.inj h).symm
      · intro hping
        rcases p with q | q
        · cases q <;> simp_all [MqttPacket.shape, Publish.shape]
          split at hping <;> cases hping
        · cases q <;> simp_all [MqttPacket.shape, Publish.shape]
          split at hping <;> cases hping

theorem Event.Quiet.relayed (quiet : e.Quiet) : e.relayed = [] := by
  rw [Event.relayed, quiet.clientPacket]
  cases hp : e.brokerPacket with
  | none => rfl
  | some p =>
      obtain ⟨after, forward, rfl⟩ := Event.eq_brokerRead hp
      have hnot : ¬ p.isPassedOn = true := fun h => quiet (p.isPassedOn_iff.mp h)
      show ([p].filter MqttPacket.isPassedOn).map _ = []
      rw [List.filter_cons_of_neg hnot]
      rfl

/-- A step from one connected state to another. -/
theorem Transition.relayed (h : Transition c s e s' out) (up : s.broker.isSome = true)
    (up' : s'.broker.isSome = true) : out = e.relayed := by
  cases h with
  | idle quiet same => exact quiet.relayed.symm
  | forwarded _ answered =>
      rw [answerPing_eq answered]
      rfl
  | unsent => cases up'
  | held down =>
      rw [down] at up
      cases up
  | @delivered p after _ passedOn =>
      show _ = ([p].filter MqttPacket.isPassedOn).map _
      rw [List.filter_singleton, p.isPassedOn_iff.mpr passedOn]
      rfl
  | lost => cases up'
  | replayed down =>
      rw [down] at up
      cases up
  | migrated => cases up'

/-- A session whose connection lasts passes on what it reads. -/
theorem run_relayed (hopen : ∀ e ∈ es, e.opens = false)
    (hrun : (sessionMachine c).run (.running s) es = some (.running t, out))
    (up : t.broker.isSome = true) : out = es.flatMap Event.relayed := by
  induction es generalizing s out with
  | nil =>
      obtain ⟨-, rfl⟩ := running_inj (Option.some.inj hrun)
      rfl
  | cons e es ih =>
      have hopen' : ∀ e ∈ es, e.opens = false := fun e' he' => hopen e' (List.mem_cons_of_mem e he')
      have upS := run_up hopen hrun up
      obtain ⟨s₁, o₁, o₂, ht, hr, rfl⟩ := run_cons_running hrun
      have up₁ := run_up hopen' hr up
      rw [List.flatMap_cons, ht.relayed upS up₁, ih hopen' hr]

/-! ## What the two sides are sent -/

theorem relayed_of_client (hp : e.clientPacket = some p) :
    e.relayed = e.pong ++ [.toBroker (.packet p)] := by
  rw [Event.relayed, hp]

theorem relayed_of_other (hp : e.clientPacket = none) : e.relayed =
    (e.brokerPacket.toList.filter MqttPacket.isPassedOn).map (fun p => .toClient (.packet p)) := by
  rw [Event.relayed, hp]

theorem brokerPacket_of_client (hp : e.clientPacket = some p) : e.brokerPacket = none := by
  obtain ⟨now, after, pong, forward, rfl⟩ := Event.eq_clientRead hp
  rfl

theorem pong_cases (hp : e.clientPacket = some p) :
    e.pong = if p.shape = .pingRequest then [.toClient (.packet p.pingResponse)] else [] := by
  rw [Event.pong, hp]

@[simp] theorem packetToClient_toBroker (f : Frame) : Output.packetToClient (.toBroker f) = none := rfl

@[simp] theorem packetToClient_packet (p : MqttPacket) :
    Output.packetToClient (.toClient (.packet p)) = some p := rfl

/-- To the broker: the client's packets. -/
theorem brokerBytes_relayed (c : Codec) (es : List Event) :
    (es.flatMap Event.relayed).flatMap (Output.brokerBytes c)
      = c.encodeAll (es.filterMap Event.clientPacket) := by
  induction es with
  | nil => rfl
  | cons e es ih =>
      rw [List.flatMap_cons, List.flatMap_append, ih]
      cases hp : e.clientPacket with
      | none =>
          rw [relayed_of_other hp, List.filterMap_cons_none hp, List.flatMap_map]
          have hsilent : ∀ ps : List MqttPacket,
              ps.flatMap (fun p => Output.brokerBytes c (.toClient (.packet p))) = [] := by
            intro ps
            exact List.flatMap_eq_nil_iff.mpr (fun _ _ => rfl)
          rw [hsilent]
          rfl
      | some p =>
          rw [relayed_of_client hp, List.filterMap_cons_some hp, List.flatMap_append, pong_cases hp]
          split
          · simp [Output.brokerBytes, Frame.bytes, Codec.encodeAll]
          · simp [Output.brokerBytes, Frame.bytes, Codec.encodeAll]

/-- A packet that the proxy does not send of its own accord. -/
def MqttPacket.notPong (p : MqttPacket) : Bool := p.shape ≠ .pingResponse

theorem isPassedOn_notPong (hp : p.isPassedOn = true) : p.notPong = true :=
  decide_eq_true (p.isPassedOn_iff.mp hp).1

theorem pingResponse_shape (p : MqttPacket) : p.pingResponse.shape = .pingResponse := by
  cases p <;> rfl

/-- To the client, PINGRESPs aside: the broker's packets. -/
theorem packetsToClient_relayed (es : List Event) :
    ((es.flatMap Event.relayed).filterMap Output.packetToClient).filter MqttPacket.notPong
      = (es.filterMap Event.brokerPacket).filter MqttPacket.isPassedOn := by
  induction es with
  | nil => rfl
  | cons e es ih =>
      rw [List.flatMap_cons, List.filterMap_append, List.filter_append, ih]
      cases hp : e.clientPacket with
      | none =>
          rw [relayed_of_other hp]
          cases hb : e.brokerPacket with
          | none => rw [List.filterMap_cons_none hb]; rfl
          | some q =>
              rw [List.filterMap_cons_some hb, List.filter_cons]
              cases hq : q.isPassedOn with
              | true => simp [hq, isPassedOn_notPong hq]
              | false => simp [hq]
      | some p =>
          rw [relayed_of_client hp, List.filterMap_cons_none (brokerPacket_of_client hp),
            pong_cases hp]
          split
          · simp [MqttPacket.notPong, pingResponse_shape]
          · rfl

/-- PINGRESPs to the client: one for each PINGREQ. -/
theorem pongs_relayed (es : List Event) :
    ((es.flatMap Event.relayed).filterMap Output.packetToClient).countP
        (fun p => p.shape = .pingResponse)
      = (es.filterMap Event.clientPacket).countP (fun p => p.shape = .pingRequest) := by
  induction es with
  | nil => rfl
  | cons e es ih =>
      rw [List.flatMap_cons, List.filterMap_append, List.countP_append, ih]
      cases hp : e.clientPacket with
      | none =>
          rw [relayed_of_other hp, List.filterMap_cons_none hp]
          cases hb : e.brokerPacket with
          | none => exact Nat.zero_add _
          | some q =>
              cases hq : q.isPassedOn with
              | true =>
                  have hpong : q.shape ≠ .pingResponse := (q.isPassedOn_iff.mp hq).1
                  simp [hq, hpong]
              | false => simp [hq]
      | some p =>
          rw [relayed_of_client hp, List.filterMap_cons_some hp, pong_cases hp, List.countP_cons]
          by_cases hping : p.shape = .pingRequest
          · have hpong : ([Output.toClient (.packet p.pingResponse)] ++
                [Output.toBroker (.packet p)]).filterMap Output.packetToClient = [p.pingResponse] := rfl
            rw [if_pos hping, hpong, List.countP_singleton, Nat.add_comm]
            simp [hping, pingResponse_shape]
          · simp [hping]

/-! ## Streams -/

section Streams

variable {vc : VersionCodec} {i : Incoming} {hs : Handshake} {client : Reader UInt8}
  {chunks cs cs' : List Bytes} {later : Bytes} {id : SessionId} {now : Nat} {o : Opening}

theorem packets_item {b rest : Bytes} (h : (c.grammar v).scan b = .item p rest) :
    c.packets v b = p :: c.packets v rest := by
  rw [Codec.packets, Framing.Grammar.parse_item h]
  rfl

/-- What has been read of a stream, and what has not. -/
theorem Polls.packets {socket : Socket} {d : Reader UInt8} (h : Polls c v socket d es cs)
    (later : Bytes) : c.packets v (d.content ++ cs.flatten ++ later)
      = es.filterMap socket.packet ++ c.packets v ((c.feed v d cs).reader.content ++ later) := by
  have hparse := Framing.feed_parse later cs d h.feed.1
  rw [Codec.packets, hparse, ← h.feed.2]
  rfl

/-- A client arrives and is connected to a broker, and the session polls both sockets while
this first broker connection lasts.  Then, up to what is still unread, the broker has been
sent the packets of the client's stream, and the client those of the broker's stream that
are passed on; besides these the client has been sent as many PINGRESPs as it has sent
PINGREQs.  The CONNECT, which `run_session` has written before the loop, is `hs.connectRaw`. -/
theorem streams_transparent (harrives : i.handshake c vc = .ok (client, hs, chunks))
    (henters : runSession hs client id now o = .ok s)
    (hrun : (sessionMachine c).run (.running s) es = some (.running t, out))
    (up : t.broker.isSome = true)
    (hclient : Polls c hs.version clientSocket client es cs)
    (hchunks : cs.flatten ++ later = chunks.flatten)
    (hbroker : Polls c hs.version brokerSocket o.after es cs') :
    hs.connectRaw ++ out.flatMap (Output.brokerBytes c)
        ++ c.encodeAll (c.packets hs.version (t.client.content ++ later))
      = c.encodeAll (c.packets hs.version i.stream) ∧
    (out.filterMap Output.packetToClient).filter MqttPacket.notPong
        ++ (c.packets hs.version ((t.broker.map Reader.content).getD [])).filter
          MqttPacket.isPassedOn
      = (c.packets hs.version (o.after.content ++ cs'.flatten)).filter MqttPacket.isPassedOn ∧
    (out.filterMap Output.packetToClient).countP (fun p => p.shape = .pingResponse)
        + (c.packets hs.version (t.client.content ++ later)).countP (fun p => p.shape = .pingRequest)
      = (c.packets hs.version (client.content ++ chunks.flatten)).countP
          (fun p => p.shape = .pingRequest) := by
  obtain ⟨connect, -, hconnect, hofConnect, -⟩ := handshake_eq_ok harrives
  have hraw : hs.connectRaw = (encodeRaw c connect).toBytes := congrArg Handshake.connectRaw hofConnect
  obtain ⟨-, rfl⟩ := runSession_eq_ok.mp henters
  have hout := run_relayed hbroker.opens hrun up
  have hread := hclient.packets later
  rw [List.append_assoc, hchunks, ← hclient.client rfl hrun] at hread
  have hreadB := hbroker.packets []
  rw [List.append_nil, List.append_nil] at hreadB
  have hbrokerReader := hbroker.broker rfl hrun up
  refine ⟨?_, ?_, ?_⟩
  · rw [packets_item hconnect, hread, Codec.encodeAll_cons, Codec.encodeAll_append, hout,
      brokerBytes_relayed, hraw, List.append_assoc]
    rfl
  · rw [hout, packetsToClient_relayed, hbrokerReader, hreadB, List.filter_append]
    rfl
  · rw [hout, pongs_relayed, hread, List.countP_append]
    rfl

end Streams

open ReferenceCodec in
/-- A client sends CONNECT and PINGREQ; the broker answers the PINGREQ, and acknowledges
something. -/
theorem streams_transparent_ping : ∃ t out,
    (sessionMachine (codec true)).run (.running { session with client := .fresh [0xc0] })
      [forwarded ping, delivered (.v3 .pingResponse), delivered (puback one)]
        = some (.running t, out) ∧
    ReferenceCodec.handshake.connectRaw ++ out.flatMap (Output.brokerBytes (codec true))
        ++ (codec true).encodeAll ((codec true).packets .mqtt3 (t.client.content ++ []))
      = (codec true).encodeAll ((codec true).packets .mqtt3 arriving.stream) ∧
    (out.filterMap Output.packetToClient).filter MqttPacket.notPong = [puback one] := by
  have hrun : (sessionMachine (codec true)).run (.running { session with client := .fresh [0xc0] })
      [forwarded ping, delivered (.v3 .pingResponse), delivered (puback one)]
        = some (_, _) := rfl
  have hclient : Polls (codec true) .mqtt3 clientSocket (.fresh [0xc0])
      [forwarded ping, delivered (.v3 .pingResponse), delivered (puback one)] [[0]] :=
    .poll rfl rfl (.other rfl (fun _ h => h) (.other rfl (fun _ h => h) .done))
  have hbroker : Polls (codec true) .mqtt3 brokerSocket (.fresh [])
      [forwarded ping, delivered (.v3 .pingResponse), delivered (puback one)]
      [[0xd0, 0], [0x40, 2, 0, 1]] :=
    .other rfl ⟨rfl, fun _ h => h⟩ (.poll rfl rfl (.poll rfl rfl .done))
  have harrives : arriving.handshake (codec true) versionCodec
      = .ok (.fresh [0xc0], ReferenceCodec.handshake, [[0]]) := rfl
  have henters : runSession ReferenceCodec.handshake (.fresh [0xc0]) 0 0
      ⟨.ok, .ok, .packet connack, .fresh [], .ok⟩ = .ok { session with client := .fresh [0xc0] } := rfl
  have hread : [[0]].flatten ++ [] = ([[0]] : List Bytes).flatten := rfl
  obtain ⟨hup, hdown, -⟩ := streams_transparent harrives henters hrun rfl hclient hread hbroker
  exact ⟨_, _, hrun, hup, by decide⟩

end TrafficDirector
