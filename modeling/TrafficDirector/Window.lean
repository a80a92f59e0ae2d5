/-
# `TrafficDirector.Window` — the QoS in-flight windows

The bookkeeping of QoS 1/2 packets that have been forwarded but not yet
acknowledged end to end, one insertion-ordered window per direction, keyed by
packet id.  Entries hold the encoded packet, so a retransmit is one bit flip.

The code keeps both windows as vectors of `(id, (state, raw))` with linear
scans; here a window is an `OrdMap`, and the state of an entry is a subtype that
only has the states of its direction.  `trackC2b_c2b` and its siblings say what
tracking does to each window in terms of the packet's shape; the later modules
use these and never unfold the two-version handlers.
-/
import TrafficDirector.Lib.OrdMap
import TrafficDirector.Codec

namespace TrafficDirector

inductive WindowState where
  /-- the client's PUBLISH went to the broker; awaiting PUBACK/PUBREC -/
  | c2bPublishSent
  /-- the client's PUBREL went to the broker; awaiting PUBCOMP -/
  | c2bPubrelSent
  /-- the broker's PUBLISH went to the client; awaiting PUBACK/PUBREC -/
  | b2cPublishSent
  /-- the client's PUBREC went to the broker; awaiting PUBREL -/
  | b2cPubrecForwarded
deriving DecidableEq, Repr

def WindowState.isC2b : WindowState → Bool
  | .c2bPublishSent | .c2bPubrelSent => true
  | .b2cPublishSent | .b2cPubrecForwarded => false

abbrev C2bState := { s : WindowState // s.isC2b = true }

abbrev B2cState := { s : WindowState // s.isC2b = false }

def publishSent : C2bState := ⟨.c2bPublishSent, rfl⟩

def pubrelSent : C2bState := ⟨.c2bPubrelSent, rfl⟩

def deliverySent : B2cState := ⟨.b2cPublishSent, rfl⟩

def pubrecForwarded : B2cState := ⟨.b2cPubrecForwarded, rfl⟩

structure WindowEntry where
  packetId : UInt16
  state : WindowState
  raw : RawPacket
deriving DecidableEq

def dupFlag : UInt8 := 0x08

def withDup (raw : RawPacket) : RawPacket := { raw with head := raw.head ||| dupFlag }

structure InflightWindows where
  c2b : OrdMap UInt16 (C2bState × RawPacket)
  b2c : OrdMap UInt16 (B2cState × RawPacket)
deriving DecidableEq

namespace InflightWindows

/-- `InflightWindows::new` -/
def new : InflightWindows := ⟨.empty, .empty⟩

variable (c : Codec)

def c2bInsert (w : InflightWindows) (p : Publish) (packet : MqttPacket) : InflightWindows :=
  if h : p.qos = .atMostOnce then w
  else { w with c2b := w.c2b.insert (p.expectId h).get (publishSent, encodeRaw c packet) }

def b2cInsert (w : InflightWindows) (p : Publish) (packet : MqttPacket) : InflightWindows :=
  if h : p.qos = .atMostOnce then w
  else { w with b2c := w.b2c.insert (p.expectId h).get (deliverySent, encodeRaw c packet) }

/-- Only an entry that is there changes its state. -/
def c2bTransition (w : InflightWindows) (packetId : NonZeroU16) (state : C2bState)
    (packet : MqttPacket) : InflightWindows :=
  if w.c2b.contains packetId.get then
    { w with c2b := w.c2b.insert packetId.get (state, encodeRaw c packet) }
  else w

/-- The entry keeps its packet. -/
def b2cTransition (w : InflightWindows) (packetId : NonZeroU16) (state : B2cState) :
    InflightWindows :=
  { w with b2c := w.b2c.adjust packetId.get (fun e => (state, e.2)) }

def removeC2b (w : InflightWindows) (packetId : NonZeroU16) : InflightWindows :=
  { w with c2b := w.c2b.erase packetId.get }

def removeB2c (w : InflightWindows) (packetId : NonZeroU16) : InflightWindows :=
  { w with b2c := w.b2c.erase packetId.get }

/-- `insert_c2b_raw`, used when the outage buffer is flushed -/
def insertC2bRaw (w : InflightWindows) (packetId : UInt16) (state : C2bState)
    (raw : RawPacket) : InflightWindows :=
  { w with c2b := w.c2b.insert packetId (state, raw) }

/-- Account for a packet about to be forwarded from the client to the broker. -/
def trackC2b (w : InflightWindows) (packet : MqttPacket) : InflightWindows :=
  match packet with
  | .v3 (.publish p) => w.c2bInsert c p packet
  | .v3 (.publishRelease packetId) => w.c2bTransition c packetId pubrelSent packet
  | .v3 (.publishAck packetId) => w.removeB2c packetId
  | .v3 (.publishReceived packetId) => w.b2cTransition packetId pubrecForwarded
  | .v3 (.publishComplete packetId) => w.removeB2c packetId
  | .v5 (.publish p) => w.c2bInsert c p packet
  | .v5 (.publishRelease ack) => w.c2bTransition c ack.packetId pubrelSent packet
  | .v5 (.publishAck ack) => w.removeB2c ack.packetId
  | .v5 (.publishReceived ack) => w.b2cTransition ack.packetId pubrecForwarded
  | .v5 (.publishComplete ack) => w.removeB2c ack.packetId
  | _ => w

/-- Account for a packet about to be forwarded from the broker to the client. -/
def trackB2c (w : InflightWindows) (packet : MqttPacket) : InflightWindows :=
  match packet with
  | .v3 (.publish p) => w.b2cInsert c p packet
  | .v3 (.publishAck packetId) => w.removeC2b packetId
  | .v3 (.publishComplete packetId) => w.removeC2b packetId
  | .v5 (.publish p) => w.b2cInsert c p packet
  | .v5 (.publishAck ack) => w.removeC2b ack.packetId
  | .v5 (.publishComplete ack) => w.removeC2b ack.packetId
  | _ => w

/-- What a retransmit of a c2b entry puts on the wire.  The two b2c states are
the code's `unreachable!` arm. -/
def brokerRetransmit : C2bState × RawPacket → RawPacket
  | (⟨.c2bPublishSent, _⟩, raw) => withDup raw
  | (⟨.c2bPubrelSent, _⟩, raw) => raw
  | (⟨.b2cPublishSent, h⟩, _) => absurd h (by decide)
  | (⟨.b2cPubrecForwarded, h⟩, _) => absurd h (by decide)

/-- Packets to re-send toward the broker. -/
def brokerRetransmits (w : InflightWindows) : List RawPacket :=
  w.c2b.values.map brokerRetransmit

/-- What a retransmit of a b2c entry puts on the wire, if anything. -/
def clientRetransmit : B2cState × RawPacket → Option RawPacket
  | (⟨.b2cPublishSent, _⟩, raw) => some (withDup raw)
  | (⟨.b2cPubrecForwarded, _⟩, _) => none
  | (⟨.c2bPublishSent, h⟩, _) => absurd h (by decide)
  | (⟨.c2bPubrelSent, h⟩, _) => absurd h (by decide)

/-- Packets to re-send toward the client. -/
def clientRetransmits (w : InflightWindows) : List RawPacket :=
  w.b2c.values.filterMap clientRetransmit

/-- Serialize into the session snapshot: the c2b window, then the b2c window. -/
def snapshot (w : InflightWindows) : List WindowEntry :=
  w.c2b.entries.map (fun e => ⟨e.1, e.2.1.val, e.2.2⟩)
    ++ w.b2c.entries.map (fun e => ⟨e.1, e.2.1.val, e.2.2⟩)

/-- Put one snapshot entry back into the window of its state. -/
def restore (w : InflightWindows) (entry : WindowEntry) : InflightWindows :=
  if h : entry.state.isC2b = true then
    { w with c2b := w.c2b.insert entry.packetId (⟨entry.state, h⟩, entry.raw) }
  else
    let state : B2cState := ⟨entry.state, eq_false_of_ne_true h⟩
    { w with b2c := w.b2c.insert entry.packetId (state, entry.raw) }

/-- Restore from a session snapshot. -/
def fromSnapshot (entries : List WindowEntry) : InflightWindows := entries.foldl restore new

/-! ## What tracking does to each window -/

variable (w : InflightWindows) (packet : MqttPacket)

theorem trackC2b_c2b : (w.trackC2b c packet).c2b = match packet.shape with
    | .publish _ i => w.c2b.insert i (publishSent, encodeRaw c packet)
    | .publishRelease i =>
        if w.c2b.contains i then w.c2b.insert i (pubrelSent, encodeRaw c packet) else w.c2b
    | _ => w.c2b := by
  rcases packet with p | p <;> cases p
  case v3.publish p | v5.publish p =>
    by_cases h : p.qos = .atMostOnce
    · simp [trackC2b, c2bInsert, MqttPacket.shape, Publish.shape, h]
    · simp [trackC2b, c2bInsert, MqttPacket.shape, Publish.shape_of_qos h, h]
  case v3.publishRelease i =>
    simp only [trackC2b, c2bTransition, MqttPacket.shape]
    split <;> rfl
  case v5.publishRelease ack =>
    simp only [trackC2b, c2bTransition, MqttPacket.shape]
    split <;> rfl
  all_goals rfl

theorem trackC2b_b2c : (w.trackC2b c packet).b2c = match packet.shape with
    | .publishAck i | .publishComplete i => w.b2c.erase i
    | .publishReceived i => w.b2c.adjust i (fun e => (pubrecForwarded, e.2))
    | _ => w.b2c := by
  rcases packet with p | p <;> cases p
  case v3.publish p | v5.publish p =>
    by_cases h : p.qos = .atMostOnce
    · simp [trackC2b, c2bInsert, MqttPacket.shape, Publish.shape, h]
    · simp [trackC2b, c2bInsert, MqttPacket.shape, Publish.shape_of_qos h, h]
  case v3.publishRelease i =>
    simp only [trackC2b, c2bTransition, MqttPacket.shape]
    split <;> rfl
  case v5.publishRelease ack =>
    simp only [trackC2b, c2bTransition, MqttPacket.shape]
    split <;> rfl
  all_goals rfl

theorem trackB2c_c2b : (w.trackB2c c packet).c2b = match packet.shape with
    | .publishAck i | .publishComplete i => w.c2b.erase i
    | _ => w.c2b := by
  rcases packet with p | p <;> cases p
  case v3.publish p | v5.publish p =>
    by_cases h : p.qos = .atMostOnce
    · simp [trackB2c, b2cInsert, MqttPacket.shape, Publish.shape, h]
    · simp [trackB2c, b2cInsert, MqttPacket.shape, Publish.shape_of_qos h, h]
  all_goals rfl

theorem trackB2c_b2c : (w.trackB2c c packet).b2c = match packet.shape with
    | .publish _ i => w.b2c.insert i (deliverySent, encodeRaw c packet)
    | _ => w.b2c := by
  rcases packet with p | p <;> cases p
  case v3.publish p | v5.publish p =>
    by_cases h : p.qos = .atMostOnce
    · simp [trackB2c, b2cInsert, MqttPacket.shape, Publish.shape, h]
    · simp [trackB2c, b2cInsert, MqttPacket.shape, Publish.shape_of_qos h, h]
  all_goals rfl

/-! ## Snapshots -/

theorem foldl_restore_c2b (l : List (UInt16 × (C2bState × RawPacket))) (w : InflightWindows) :
    (l.map (fun e => WindowEntry.mk e.1 e.2.1.val e.2.2)).foldl restore w
      = { w with c2b := w.c2b.insertAll l } := by
  induction l generalizing w with
  | nil => rfl
  | cons e l ih =>
      have he : restore w ⟨e.1, e.2.1.val, e.2.2⟩ = { w with c2b := w.c2b.insert e.1 e.2 } :=
        dif_pos e.2.1.property
      rw [List.map_cons, List.foldl_cons, he, ih, OrdMap.insertAll_cons]

theorem foldl_restore_b2c (l : List (UInt16 × (B2cState × RawPacket))) (w : InflightWindows) :
    (l.map (fun e => WindowEntry.mk e.1 e.2.1.val e.2.2)).foldl restore w
      = { w with b2c := w.b2c.insertAll l } := by
  induction l generalizing w with
  | nil => rfl
  | cons e l ih =>
      have he : restore w ⟨e.1, e.2.1.val, e.2.2⟩ = { w with b2c := w.b2c.insert e.1 e.2 } :=
        dif_neg (by simp [e.2.1.property])
      rw [List.map_cons, List.foldl_cons, he, ih, OrdMap.insertAll_cons]

/-- Both windows come back from a snapshot, entry order included. -/
@[simp] theorem fromSnapshot_snapshot : fromSnapshot w.snapshot = w := by
  rw [fromSnapshot, snapshot, List.foldl_append, foldl_restore_c2b, foldl_restore_b2c]
  simp [new, OrdMap.insertAll_entries]

end InflightWindows

/-! ## Sequences of broker packets -/

/-- The id whose c2b entry a broker packet removes. -/
def acknowledgedId (p : MqttPacket) : Option UInt16 :=
  match p.shape with
  | .publishAck i | .publishComplete i => some i
  | _ => none

/-- The b2c entry a broker packet makes. -/
def deliveryEntry (c : Codec) (p : MqttPacket) : Option (UInt16 × (B2cState × RawPacket)) :=
  match p.shape with
  | .publish _ i => some (i, (deliverySent, encodeRaw c p))
  | _ => none

namespace InflightWindows

variable {c : Codec}

theorem trackB2c_c2b_eq (w : InflightWindows) (p : MqttPacket) :
    (w.trackB2c c p).c2b = w.c2b.eraseAll (acknowledgedId p).toList := by
  rw [trackB2c_c2b]
  unfold acknowledgedId
  cases p.shape <;> rfl

theorem trackB2c_b2c_eq (w : InflightWindows) (p : MqttPacket) :
    (w.trackB2c c p).b2c = w.b2c.insertAll (deliveryEntry c p).toList := by
  rw [trackB2c_b2c]
  unfold deliveryEntry
  cases p.shape <;> rfl

theorem foldl_trackB2c (ps : List MqttPacket) (w : InflightWindows) :
    ps.foldl (trackB2c c) w =
      ⟨w.c2b.eraseAll (ps.filterMap acknowledgedId),
        w.b2c.insertAll (ps.filterMap (deliveryEntry c))⟩ := by
  induction ps generalizing w with
  | nil => rfl
  | cons p ps ih =>
      rw [List.foldl_cons, ih, trackB2c_c2b_eq, trackB2c_b2c_eq]
      cases ha : acknowledgedId p <;> cases hd : deliveryEntry c p <;>
        simp [ha, hd, OrdMap.eraseAll]

end InflightWindows

end TrafficDirector
