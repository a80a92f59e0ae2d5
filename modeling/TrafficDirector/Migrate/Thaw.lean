/-
# `TrafficDirector.Migrate.Thaw` — a thawed session behaves as the frozen one

A snapshot has the two windows in one list, and the outage buffer without its byte
count.  The windows cannot hold what `from_snapshot` would not give back (their ids are
distinct, and their states those of their direction, by their types), and the count is
right in every reachable session (`run_counted`).  So the session that the next
generation adopts starts with all of it, and goes on as this one would have
(`thaw_restores`).
-/
import TrafficDirector.Migrate.Outage
import TrafficDirector.Session.Keepalive

namespace TrafficDirector

open Framing (Reader)

variable {json : Json} {c : Codec} {s s' : Session} {e : Event} {es : List Event}
  {out : List Output}

/-! ## The byte count -/

theorem Transition.counted (h : Transition c s e s' out) (hs : s.buffer.Counted) :
    s'.buffer.Counted := by
  cases h with
  | idle quiet same =>
      rw [same.buffer]
      exact hs
  | held down serviced =>
      exact serviceOutagePacket_counted (s := ⟨s.buffer, s.subscriptions, s.windows, []⟩) hs serviced
  | replayed down patched serves => exact rfl
  | migrated id now keepAlive => exact rfl
  | _ => exact hs

theorem run_counted (hs : s.buffer.Counted)
    (hrun : (sessionMachine c).run (.running s) es = some (.running s', out)) :
    s'.buffer.Counted :=
  run_transitions (I := fun s => s.buffer.Counted) (fun _ _ _ _ _ hs ht => ht.counted hs) hs hrun

/-! ## What comes back -/

/-- The adopted session `s'` has what the frozen session `s` had. -/
structure Thawed (s s' : Session) : Prop where
  version : s'.hs.version = s.hs.version
  connectRaw : s'.hs.connectRaw = s.hs.connectRaw
  clientBuf : s'.client.buf = s.client.buf
  subscriptions : s'.subscriptions = s.subscriptions
  buffered : s'.buffer.entries = s.buffer.entries
  bytes : s'.buffer.bytes = (s'.buffer.entries.map (fun p => p.raw.len)).sum
  counted : s'.buffer = s.buffer
  c2b : s'.windows.c2b.entries = s.windows.c2b.entries
  b2c : s'.windows.b2c.entries = s.windows.b2c.entries

theorem Session.thawed_adopted (hs : s.buffer.Counted) (id : SessionId) (now : Nat)
    (keepAlive : UInt16) : Thawed s (s.adopted id now keepAlive) where
  version := rfl
  connectRaw := rfl
  clientBuf := rfl
  subscriptions := rfl
  buffered := rfl
  bytes := rfl
  counted := hs.symm
  c2b := rfl
  b2c := rfl

theorem Thawed.windows (h : Thawed s s') : s'.windows = s.windows := by
  have hc2b := OrdMap.ext_entries h.c2b
  have hb2c := OrdMap.ext_entries h.b2c
  cases hw : s.windows
  cases hw' : s'.windows
  rw [hw, hw'] at hc2b hb2c
  obtain rfl : _ = _ := hc2b
  obtain rfl : _ = _ := hb2c
  rfl

/-! ## What goes on -/

/-- What may happen to windows and buffer. -/
inductive WindowOp where
  | trackC2b (p : MqttPacket)
  | trackB2c (p : MqttPacket)
  /-- a client packet is held back in the buffer -/
  | push (entry : BufferedPublish)
  /-- the buffer is flushed into the c2b window -/
  | flush

def WindowOp.apply (c : Codec) (s : Session) : WindowOp → Session
  | .trackC2b p => { s with windows := s.windows.trackC2b c p }
  | .trackB2c p => { s with windows := s.windows.trackB2c c p }
  | .push entry =>
      { s with buffer := ⟨s.buffer.entries ++ [entry], s.buffer.bytes + entry.raw.len⟩ }
  | .flush => { s with windows := s.flushedWindows, buffer := .empty }

theorem WindowOp.apply_congr (op : WindowOp) (hw : s'.windows = s.windows)
    (hb : s'.buffer = s.buffer) :
    (op.apply c s').windows = (op.apply c s).windows ∧
      (op.apply c s').buffer = (op.apply c s).buffer := by
  cases op with
  | trackC2b p => exact ⟨congrArg (·.trackC2b c p) hw, hb⟩
  | trackB2c p => exact ⟨congrArg (·.trackB2c c p) hw, hb⟩
  | push entry =>
      refine ⟨hw, ?_⟩
      rw [apply, apply, hb]
  | flush =>
      refine ⟨?_, rfl⟩
      show s'.flushedWindows = s.flushedWindows
      rw [Session.flushedWindows, Session.flushedWindows, hw, hb]

/-- Windows and buffer are all that decides how windows and buffer go on. -/
theorem foldl_apply_congr (ops : List WindowOp) (hw : s'.windows = s.windows)
    (hb : s'.buffer = s.buffer) :
    (ops.foldl (WindowOp.apply c) s').windows = (ops.foldl (WindowOp.apply c) s).windows := by
  induction ops generalizing s s' with
  | nil => exact hw
  | cons op ops ih =>
      obtain ⟨hw, hb⟩ := op.apply_congr (c := c) hw hb
      exact ih hw hb

/-- The next generation adopts a frozen session with all that it had, and whatever
happens then to windows and buffer, it retransmits what this one would have. -/
theorem thaw_restores {version : ProtocolVersion} {connect packet : MqttPacket}
    {rest payload : Bytes} {client : Reader UInt8} {id₀ id : SessionId} {now₀ now : Nat}
    {o : Opening} {s₀ : Session} {clientFd : Int}
    (hcodec : (c.grammar version).scan (encodeRaw c connect).toBytes = .item packet rest)
    (hstart : runSession (Handshake.ofConnect c version connect) client id₀ now₀ o = .ok s₀)
    (hrun : (sessionMachine c).run (.running s₀) es = some (.running s, out))
    (hsend : json.toVec (s.freeze clientFd).snapshot = .ok payload)
    (hround : json.fromSlice payload = .ok (s.freeze clientFd).snapshot) :
    ∃ s', handOver json c s clientFd id now = .ok s' ∧ Thawed s s' ∧
      ∀ ops : List WindowOp,
        (ops.foldl (WindowOp.apply c) s').windows.brokerRetransmits
          = (ops.foldl (WindowOp.apply c) s).windows.brokerRetransmits ∧
        (ops.foldl (WindowOp.apply c) s').windows.clientRetransmits
          = (ops.foldl (WindowOp.apply c) s).windows.clientRetransmits := by
  obtain ⟨-, rfl⟩ := runSession_eq_ok.mp hstart
  have hcounted : s.buffer.Counted := by
    refine run_counted ?_ hrun
    rfl
  obtain ⟨hraw, hversion⟩ : s.ConnectedAs (Handshake.ofConnect c version connect) :=
    run_transitions (I := fun s => s.ConnectedAs (Handshake.ofConnect c version connect))
      (fun _ _ _ _ _ hs ht => ht.connectedAs hs) ⟨rfl, rfl⟩ hrun
  -- adoption decodes the CONNECT again
  have hhs : Handshake.fromSnapshotVersion c s.hs.versionByte s.hs.connectRaw
      = .ok { s.hs with keepAlive := keepAliveOf packet } := by
    have hscan : (c.grammar s.hs.version).scan s.hs.connectRaw = .item packet rest := by
      rw [hraw, hversion]
      exact hcodec
    rw [Handshake.fromSnapshotVersion_versionByte, hscan]
  obtain ⟨s', hadopt⟩ : ∃ s', adoptSession c (s.freeze clientFd).snapshot id now = .ok s' := by
    unfold adoptSession
    rw [show Handshake.fromSnapshotVersion c (s.freeze clientFd).snapshot.version
      (s.freeze clientFd).snapshot.connectRaw = _ from hhs]
    exact ⟨_, rfl⟩
  have hthawed : Thawed s s' := by
    obtain ⟨keepAlive, rfl⟩ := adoptSession_freeze hadopt
    exact s.thawed_adopted hcounted id now keepAlive
  refine ⟨s', (handOver_eq hsend hround).trans hadopt, hthawed, fun ops => ?_⟩
  have hw := foldl_apply_congr (c := c) ops hthawed.windows hthawed.counted
  exact ⟨congrArg _ hw, congrArg _ hw⟩

namespace ReferenceCodec

/-- The snapshot after `busyOutage`. -/
def busySnapshot : SessionSnapshot where
  version := 4
  connectRaw := handshake.connectRaw
  clientBuf := [0xc0]
  brokerBuf := []
  windows :=
    [⟨1, .c2bPublishSent, encode (publish one [])⟩, ⟨2, .b2cPublishSent, encode (publish two [])⟩]
  subscriptions := [⟨"t", 1⟩]
  buffered := [⟨2, encode (publish two []), 1⟩]

def busyText : Bytes :=
  ("\x7b\"version\":4,\"connect_raw\":[16,13,0,4,77,81,84,84,4,0,0,60,0,1,99]," ++
    "\"client_buf\":[192],\"broker_buf\":[],\"windows\":[" ++
    "\x7b\"packet_id\":1,\"state\":\"C2BPublishSent\",\"raw\":[50,5,0,1,116,0,1]\x7d," ++
    "\x7b\"packet_id\":2,\"state\":\"B2CPublishSent\",\"raw\":[50,5,0,1,116,0,2]\x7d]," ++
    "\"subscriptions\":[\x7b\"topic_filter\":\"t\",\"options\":1\x7d]," ++
    "\"buffered\":[\x7b\"packet_id\":2,\"raw\":[50,5,0,1,116,0,2],\"qos\":1\x7d]\x7d").toList.map
      (fun c => c.toNat.toUInt8)

theorem busyText_head : busyText.head? = some 0x7b := by
  refine head_bytes (head_append (head_append (head_append (head_append (head_append ?_ _) _) _) _) _)
  exact head_literal rfl

/-- Serialisation, at that snapshot. -/
def busyJson : Json where
  toVec s := if s = busySnapshot then .ok busyText else .error (invalidData "another snapshot")
  fromSlice b := if b = busyText then .ok busySnapshot else .error (invalidData "another text")
  toVec_object h := by
    split at h
    · rw [← Except.ok.inj h]
      exact busyText_head
    · exact nomatch h

end ReferenceCodec

open ReferenceCodec in
theorem thaw_restores_busy : ∃ t out s',
    (sessionMachine (codec true)).run (.running session) busyOutage = some (.running t, out) ∧
    (t.freeze 7).snapshot = busySnapshot ∧
    handOver busyJson (codec true) t 7 1 9 = .ok s' ∧ Thawed t s' := by
  have hstart : runSession (.ofConnect (codec true) .mqtt3 connectPacket) (.fresh []) 0 0
      (opening connack) = .ok session := rfl
  have hrun : (sessionMachine (codec true)).run (.running session) busyOutage
      = some (.running _, _) := rfl
  have hsend : busyJson.toVec busySnapshot = .ok busyText := by
    simp only [busyJson, if_true]
  have hround : busyJson.fromSlice busyText = .ok busySnapshot := by
    simp only [busyJson, if_true]
  have hthaw : ∃ s', handOver busyJson (codec true) _ 7 1 9 = .ok s' ∧ Thawed _ s' ∧ _ :=
    thaw_restores rfl hstart hrun hsend hround
  obtain ⟨s', hover, hthawed, -⟩ := hthaw
  exact ⟨_, _, s', hrun, rfl, hover, hthawed⟩

end TrafficDirector
