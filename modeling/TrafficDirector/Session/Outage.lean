/-
# `TrafficDirector.Session.Outage` — servicing the client while the broker is down

Publishes with a delivery guarantee, PUBRELs, SUBSCRIBEs and UNSUBSCRIBEs are
held back in a bounded buffer, unanswered, until the next replay flushes them.
Only the keepalive is answered locally.

`serviceOutagePacket_eq` gives the handler in terms of the packet's shape.
-/
import Mathlib.Algebra.GroupWithZero.Nat
import TrafficDirector.Session.Subscriptions
import TrafficDirector.Session.Wire

namespace TrafficDirector

/-- in milliseconds -/
def brokerRetryInitial : Nat := 100

/-- in milliseconds -/
def brokerRetryMax : Nat := 5000

def outageBufferMaxBytes : Nat := 1024 * 1024

structure OutageBuffer where
  entries : List BufferedPublish
  bytes : Nat
deriving DecidableEq

namespace OutageBuffer

/-- `OutageBuffer::default` -/
def empty : OutageBuffer := ⟨[], 0⟩

def push (b : OutageBuffer) (packetId : UInt16) (raw : RawPacket) (qos : QoS) :
    Except IoError OutageBuffer :=
  if b.bytes + raw.len > outageBufferMaxBytes then
    .error ⟨.quotaExceeded, "outage buffer full, closing session"⟩
  else .ok ⟨b.entries ++ [⟨packetId, raw, qos.toU8⟩], b.bytes + raw.len⟩

theorem push_eq_ok {b b' : OutageBuffer} {i : UInt16} {raw : RawPacket} {qos : QoS} :
    b.push i raw qos = .ok b' ↔ b.bytes + raw.len ≤ outageBufferMaxBytes ∧
      b' = ⟨b.entries ++ [⟨i, raw, qos.toU8⟩], b.bytes + raw.len⟩ := by
  rw [push]
  split
  · next h => exact ⟨fun h' => absurd h' (by simp), fun h' => absurd h'.1 (by omega)⟩
  · next h =>
      rw [Except.ok.injEq]
      exact ⟨fun e => ⟨by omega, e.symm⟩, fun e => e.2.symm⟩

/-- The recomputation of the byte count on adoption. -/
def ofEntries (entries : List BufferedPublish) : OutageBuffer :=
  ⟨entries, (entries.map (fun p => p.raw.len)).sum⟩

/-- The byte counter is the sum over the entries. -/
def Counted (b : OutageBuffer) : Prop := b = ofEntries b.entries

theorem Counted.push {b b' : OutageBuffer} {i : UInt16} {raw : RawPacket} {qos : QoS}
    (h : b.Counted) (hpush : b.push i raw qos = .ok b') : b'.Counted := by
  have hbytes : b.bytes = (b.entries.map (fun p => p.raw.len)).sum := congrArg bytes h
  obtain ⟨-, rfl⟩ := push_eq_ok.mp hpush
  rw [Counted, ofEntries, List.map_append, List.sum_append, ← hbytes]
  rfl

end OutageBuffer

/-- What `service_outage_packet` may change, and what it sends to the client. -/
structure Serviced where
  buffer : OutageBuffer
  subscriptions : Subscriptions
  windows : InflightWindows
  out : List Output

namespace Serviced

/-- `buffer.push(…)?` -/
def push (s : Serviced) (packetId : UInt16) (raw : RawPacket) (qos : QoS) :
    Except IoError Serviced :=
  (s.buffer.push packetId raw qos).map (fun b => { s with buffer := b })

/-- `client.send(…).await.map_err(invalid_data)?` -/
def send (s : Serviced) (p : MqttPacket) : Sent → Except IoError Serviced
  | .ok => .ok { s with out := s.out ++ [.toClient (.packet p)] }
  | .failed e => .error (invalidData e)

def track (s : Serviced) (p : MqttPacket) : Serviced :=
  { s with subscriptions := s.subscriptions.track p }

end Serviced

/-- Service one client packet during an outage; `pong` is how a PINGRESP goes. -/
def serviceOutagePacket (c : Codec) (s : Serviced) (packet : MqttPacket) (pong : Sent) :
    Except IoError Serviced :=
  let disconnected : IoError := ⟨.unexpectedEof, "client disconnected"⟩
  match packet with
  -- client acks of broker publishes keep the b2c window accurate
  | .v3 (.publishAck _) | .v3 (.publishReceived _) | .v3 (.publishComplete _)
  | .v5 (.publishAck _) | .v5 (.publishReceived _) | .v5 (.publishComplete _) =>
      .ok { s with windows := s.windows.trackC2b c packet }
  | .v3 (.publish p) =>
      -- at most once: may be dropped
      if h : p.qos = .atMostOnce then .ok s
      else s.push (p.expectId h).get (encodeRaw c packet) p.qos
  | .v3 (.publishRelease packetId) => s.push packetId.get (encodeRaw c packet) .exactlyOnce
  | .v3 .pingRequest => s.send (.v3 .pingResponse) pong
  | .v3 (.subscribe packetId _) =>
      (s.track packet).push packetId.get (encodeRaw c packet) .atLeastOnce
  | .v3 (.unsubscribe packetId _) =>
      (s.track packet).push packetId.get (encodeRaw c packet) .atLeastOnce
  | .v3 .disconnect => .error disconnected
  | .v5 (.publish p) =>
      if h : p.qos = .atMostOnce then .ok s
      else s.push (p.expectId h).get (encodeRaw c packet) p.qos
  | .v5 (.publishRelease ack) => s.push ack.packetId.get (encodeRaw c packet) .exactlyOnce
  | .v5 .pingRequest => s.send (.v5 .pingResponse) pong
  | .v5 (.subscribe subscribe) =>
      (s.track packet).push subscribe.packetId.get (encodeRaw c packet) .atLeastOnce
  | .v5 (.unsubscribe unsubscribe) =>
      (s.track packet).push unsubscribe.packetId.get (encodeRaw c packet) .atLeastOnce
  | .v5 (.disconnect _) => .error disconnected
  | _ => .ok s

/-- The PINGRESP of a packet's version. -/
def MqttPacket.pingResponse : MqttPacket → MqttPacket
  | .v3 _ => .v3 .pingResponse
  | .v5 _ => .v5 .pingResponse

theorem serviceOutagePacket_eq (c : Codec) (s : Serviced) (packet : MqttPacket) (pong : Sent) :
    serviceOutagePacket c s packet pong = match packet.shape with
      | .publishAck _ | .publishReceived _ | .publishComplete _ =>
          .ok { s with windows := s.windows.trackC2b c packet }
      | .publish qos i => s.push i (encodeRaw c packet) qos
      | .publishRelease i => s.push i (encodeRaw c packet) .exactlyOnce
      | .subscribe i | .unsubscribe i =>
          (s.track packet).push i (encodeRaw c packet) .atLeastOnce
      | .pingRequest => s.send packet.pingResponse pong
      | .disconnect => .error ⟨.unexpectedEof, "client disconnected"⟩
      | _ => .ok s := by
  rcases packet with p | p <;> cases p
  case v3.publish p | v5.publish p =>
    by_cases h : p.qos = .atMostOnce
    · have hshape : p.shape = .publishAtMostOnce := dif_pos h
      exact (dif_pos h).trans (by rw [MqttPacket.shape, hshape])
    · exact (dif_neg h).trans (by rw [MqttPacket.shape, Publish.shape_of_qos h])
  all_goals rfl

/-- The buffer entry of a client packet. -/
def bufferedAs (c : Codec) (packet : MqttPacket) : Option BufferedPublish :=
  match packet.shape with
  | .publish qos i => some ⟨i, encodeRaw c packet, qos.toU8⟩
  | .publishRelease i => some ⟨i, encodeRaw c packet, QoS.exactlyOnce.toU8⟩
  | .subscribe i | .unsubscribe i => some ⟨i, encodeRaw c packet, QoS.atLeastOnce.toU8⟩
  | _ => none

theorem bufferedAs_raw {c : Codec} {packet : MqttPacket} {entry : BufferedPublish}
    (h : bufferedAs c packet = some entry) : entry.raw = encodeRaw c packet := by
  unfold bufferedAs at h
  split at h
  case h_5 => exact nomatch h
  all_goals rw [← Option.some.inj h]

theorem Serviced.push_ok {s s' : Serviced} {i : UInt16} {raw : RawPacket} {qos : QoS}
    (h : s.push i raw qos = .ok s') :
    s' = { s with buffer := ⟨s.buffer.entries ++ [⟨i, raw, qos.toU8⟩],
      s.buffer.bytes + raw.len⟩ } := by
  rw [Serviced.push] at h
  cases hb : s.buffer.push i raw qos with
  | error e => rw [hb] at h; exact absurd h (by simp [Except.map])
  | ok b =>
      rw [hb] at h
      rw [← Except.ok.inj h, (OutageBuffer.push_eq_ok.mp hb).2]

/-- A serviced packet goes to the buffer as `bufferedAs` says, and nowhere else;
the c2b window does not change. -/
theorem serviceOutagePacket_ok {c : Codec} {s s' : Serviced} {packet : MqttPacket} {pong : Sent}
    (h : serviceOutagePacket c s packet pong = .ok s') :
    s'.buffer.entries = s.buffer.entries ++ (bufferedAs c packet).toList ∧
      s'.windows.c2b = s.windows.c2b := by
  rw [serviceOutagePacket_eq] at h
  unfold bufferedAs
  cases hshape : packet.shape <;> rw [hshape] at h
  case publish | publishRelease | subscribe | unsubscribe =>
    rw [Serviced.push_ok h]
    exact ⟨rfl, rfl⟩
  case pingRequest =>
    cases pong with
    | ok => rw [← Except.ok.inj h]; exact ⟨(List.append_nil _).symm, rfl⟩
    | failed e => exact nomatch h
  case disconnect => exact nomatch h
  case publishAck | publishReceived | publishComplete =>
    rw [← Except.ok.inj h]
    exact ⟨(List.append_nil _).symm, (InflightWindows.trackC2b_c2b ..).trans (by rw [hshape])⟩
  all_goals
    rw [← Except.ok.inj h]
    exact ⟨(List.append_nil _).symm, rfl⟩

theorem Serviced.push_counted {s s' : Serviced} {i : UInt16} {raw : RawPacket} {qos : QoS}
    (h : s.buffer.Counted) (hpush : s.push i raw qos = .ok s') : s'.buffer.Counted := by
  rw [Serviced.push] at hpush
  cases hb : s.buffer.push i raw qos with
  | error e => rw [hb] at hpush; exact nomatch hpush
  | ok b =>
      rw [hb] at hpush
      rw [← Except.ok.inj hpush]
      exact h.push hb

theorem serviceOutagePacket_counted {c : Codec} {s s' : Serviced} {packet : MqttPacket}
    {pong : Sent} (hs : s.buffer.Counted) (h : serviceOutagePacket c s packet pong = .ok s') :
    s'.buffer.Counted := by
  rw [serviceOutagePacket_eq] at h
  cases hshape : packet.shape <;> rw [hshape] at h
  case publish | publishRelease | subscribe | unsubscribe =>
    exact Serviced.push_counted (by exact hs) h
  case pingRequest =>
    cases pong with
    | ok => rw [← Except.ok.inj h]; exact hs
    | failed e => exact nomatch h
  case disconnect => exact nomatch h
  all_goals rw [← Except.ok.inj h]; exact hs

/-- The table follows the client during an outage as it does otherwise. -/
theorem serviceOutagePacket_subscriptions {c : Codec} {s s' : Serviced} {packet : MqttPacket}
    {pong : Sent} (h : serviceOutagePacket c s packet pong = .ok s') :
    s'.subscriptions = s.subscriptions.track packet := by
  have hother : (∀ i, packet.shape ≠ .subscribe i) → (∀ i, packet.shape ≠ .unsubscribe i) →
      s.subscriptions.track packet = s.subscriptions := fun hs hu =>
    Subscriptions.track_eq_self (Subscriptions.assignments_eq_nil hs hu)
  rw [serviceOutagePacket_eq] at h
  cases hshape : packet.shape <;> rw [hshape] at h hother
  case publish | publishRelease =>
    rw [Serviced.push_ok h, hother (by simp) (by simp)]
  case subscribe | unsubscribe =>
    rw [Serviced.push_ok h]
    rfl
  case pingRequest =>
    cases pong with
    | ok => rw [← Except.ok.inj h, hother (by simp) (by simp)]
    | failed e => exact nomatch h
  case disconnect => exact nomatch h
  all_goals rw [← Except.ok.inj h, hother (by simp) (by simp)]

/-- Nothing but a PINGRESP is written, and that to the client. -/
theorem serviceOutagePacket_out {c : Codec} {s s' : Serviced} {packet : MqttPacket} {pong : Sent}
    (h : serviceOutagePacket c s packet pong = .ok s') :
    ∃ fs ⊆ [Frame.packet packet.pingResponse], s'.out = s.out ++ fs.map .toClient := by
  have silent : ∃ fs ⊆ [Frame.packet packet.pingResponse], s.out = s.out ++ fs.map .toClient :=
    ⟨[], List.nil_subset _, (List.append_nil _).symm⟩
  rw [serviceOutagePacket_eq] at h
  cases hshape : packet.shape <;> rw [hshape] at h
  case publish | publishRelease | subscribe | unsubscribe =>
    rw [Serviced.push_ok h]
    exact silent
  case pingRequest =>
    cases pong with
    | ok => rw [← Except.ok.inj h]; exact ⟨_, List.Subset.refl _, rfl⟩
    | failed e => exact nomatch h
  case disconnect => exact nomatch h
  all_goals
    rw [← Except.ok.inj h]
    exact silent

theorem Serviced.push_error {s : Serviced} {i : UInt16} {raw : RawPacket} {qos : QoS}
    {err : IoError} (h : s.push i raw qos = .error err) :
    outageBufferMaxBytes < s.buffer.bytes + raw.len := by
  unfold Serviced.push OutageBuffer.push at h
  split at h
  · next hfull => exact hfull
  · exact nomatch h

/-- What fails: a DISCONNECT, a PINGRESP that cannot be written, a full buffer. -/
theorem serviceOutagePacket_error {c : Codec} {s : Serviced} {packet : MqttPacket} {pong : Sent}
    {err : IoError} (h : serviceOutagePacket c s packet pong = .error err) :
    packet.shape = .disconnect ∨ (packet.shape = .pingRequest ∧ ∃ text, pong = .failed text) ∨
      ∃ entry, bufferedAs c packet = some entry ∧
        outageBufferMaxBytes < s.buffer.bytes + entry.raw.len := by
  rw [serviceOutagePacket_eq] at h
  unfold bufferedAs
  cases hshape : packet.shape with
  | publish qos i =>
      rw [hshape] at h
      exact Or.inr (Or.inr ⟨_, rfl, Serviced.push_error h⟩)
  | publishRelease i =>
      rw [hshape] at h
      exact Or.inr (Or.inr ⟨_, rfl, Serviced.push_error h⟩)
  | subscribe i =>
      rw [hshape] at h
      exact Or.inr (Or.inr ⟨_, rfl, Serviced.push_error (s := s.track packet) h⟩)
  | unsubscribe i =>
      rw [hshape] at h
      exact Or.inr (Or.inr ⟨_, rfl, Serviced.push_error (s := s.track packet) h⟩)
  | pingRequest =>
      rw [hshape] at h
      cases pong with
      | ok => exact nomatch h
      | failed text => exact Or.inr (Or.inl ⟨rfl, text, rfl⟩)
  | disconnect => exact Or.inl rfl
  | _ => rw [hshape] at h; exact nomatch h

end TrafficDirector
