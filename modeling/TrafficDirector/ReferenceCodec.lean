/-
# `TrafficDirector.ReferenceCodec` — a concrete codec

An instance of `Codec` with the MQTT layout of the packets it decodes, for
running the model on given bytes.  MQTT 3.1.1 is complete on the broker's side
of a session (CONNACK, PUBLISH, the acknowledgements, SUBACK, PINGRESP) and has
CONNECT and DISCONNECT; MQTT 5 has the same packets with empty property sections,
except that a PUBLISH may have a Topic Alias.  Text is ASCII.
-/
import TrafficDirector.Session.Forward

namespace TrafficDirector.ReferenceCodec

open TrafficDirector

/-! ## Encoding -/

def be16 (n : UInt16) : Bytes := [(n >>> 8).toUInt8, n.toUInt8]

def text (s : String) : Bytes :=
  let b := s.toList.map (fun c => c.toNat.toUInt8)
  be16 b.length.toUInt16 ++ b

/-- The remaining length, in at most `k` bytes. -/
def varint : Nat → Nat → Bytes
  | 0, _ => []
  | k + 1, n =>
      if n < 128 then [n.toUInt8] else (n % 128 + 128).toUInt8 :: varint k (n / 128)

/-- A frame of type `t` with flags `f`. -/
def frame (t f : Fin 16) (body : Bytes) : RawPacket :=
  ⟨UInt8.ofNat (16 * t.val + f.val), varint 4 body.length ++ body⟩

theorem head_shift : ∀ t f : Fin 16, UInt8.ofNat (16 * t.val + f.val) >>> 4 = UInt8.ofNat t.val := by
  decide

theorem frame_packetType (t f : Fin 16) (body : Bytes) :
    (frame t f body).packetType = UInt8.ofNat t.val :=
  head_shift t f

def publishFlags (p : Publish) : Fin 16 :=
  Fin.ofNat 16 (p.dup.toNat * 8 + p.qos.toU8.toNat * 2 + p.retain.toNat)

def optionalId : Option NonZeroU16 → Bytes
  | none => []
  | some i => be16 i.get

/-- A property section with nothing in it but the Topic Alias. -/
def publishProperties : Option PublishProperties → Bytes
  | some ⟨some a⟩ => [3, 0x23] ++ be16 a.get
  | _ => [0]

def v3ConnackCode : V3.ConnectAckReason → UInt8
  | .connectionAccepted => 0
  | .unacceptableProtocolVersion => 1
  | .identifierRejected => 2
  | .serviceUnavailable => 3
  | .badUserNameOrPassword => 4
  | .notAuthorized => 5

def v3SubscribeCode : V3.SubscribeReturnCode → UInt8
  | .success q => q.toU8
  | .failure => 0x80

def encodeV3 : V3.Packet → RawPacket
  | .connect c => frame 1 0
      (text "MQTT" ++ [4, if c.cleanSession then 2 else 0] ++ be16 c.keepAlive ++ text c.clientId)
  | .connectAck a => frame 2 0 [a.sessionPresent.toUInt8, v3ConnackCode a.returnCode]
  | .publish p => frame 3 (publishFlags p) (text p.topic ++ optionalId p.packetId ++ p.payload)
  | .publishAck i => frame 4 0 (be16 i.get)
  | .publishReceived i => frame 5 0 (be16 i.get)
  | .publishRelease i => frame 6 2 (be16 i.get)
  | .publishComplete i => frame 7 0 (be16 i.get)
  | .subscribe i fs =>
      frame 8 2 (be16 i.get ++ fs.flatMap (fun f => text f.1 ++ [f.2.toU8]))
  | .subscribeAck i st => frame 9 0 (be16 i.get ++ st.map v3SubscribeCode)
  | .unsubscribe i fs => frame 10 2 (be16 i.get ++ fs.flatMap text)
  | .unsubscribeAck i => frame 11 0 (be16 i.get)
  | .pingRequest => frame 12 0 []
  | .pingResponse => frame 13 0 []
  | .disconnect => frame 14 0 []

/-- Reason codes are written as 0 (success), or 0x80 where there is another one,
except in DISCONNECT. -/
def disconnectCode : V5.DisconnectReasonCode → UInt8
  | .normalDisconnection => 0x00
  | .serverBusy => 0x89
  | .serverShuttingDown => 0x8b
  | .keepAliveTimeout => 0x8d
  | .useAnotherServer => 0x9c
  | .serverMoved => 0x9d
  | _ => 0x80

def encodeV5 : V5.Packet → RawPacket
  | .connect c => frame 1 0
      (text "MQTT" ++ [5, if c.cleanStart then 2 else 0] ++ be16 c.keepAlive ++ [0] ++
        text c.clientId)
  | .connectAck a =>
      frame 2 0 [a.sessionPresent.toUInt8, if a.reasonCode = .success then 0 else 0x80, 0]
  | .publish p =>
      frame 3 (publishFlags p)
        (text p.topic ++ optionalId p.packetId ++ publishProperties p.properties ++ p.payload)
  | .publishAck a => frame 4 0 (be16 a.packetId.get)
  | .publishReceived a => frame 5 0 (be16 a.packetId.get)
  | .publishRelease a => frame 6 2 (be16 a.packetId.get)
  | .publishComplete a => frame 7 0 (be16 a.packetId.get)
  | .subscribe s => frame 8 2
      (be16 s.packetId.get ++ [0] ++ s.topicFilters.flatMap (fun f => text f.1 ++ [f.2.qos.toU8]))
  | .subscribeAck a => frame 9 0 (be16 a.packetId.get ++ [0] ++ a.status.map (fun _ => 0))
  | .unsubscribe u => frame 10 2 (be16 u.packetId.get ++ [0] ++ u.topicFilters.flatMap text)
  | .unsubscribeAck a => frame 11 0 (be16 a.packetId.get ++ [0])
  | .pingRequest => frame 12 0 []
  | .pingResponse => frame 13 0 []
  | .disconnect d => frame 14 0 [disconnectCode d.reasonCode, 0]
  | .auth => frame 15 0 []

def encode : MqttPacket → RawPacket
  | .v3 p => encodeV3 p
  | .v5 p => encodeV5 p

theorem encode_type (p : MqttPacket) : (encode p).packetType = p.packetType := by
  rcases p with p | p <;> cases p <;> exact frame_packetType _ _ _

/-! ## Decoding -/

def readU16 : Bytes → Option (UInt16 × Bytes)
  | hi :: lo :: bs => some (hi.toUInt16 <<< 8 ||| lo.toUInt16, bs)
  | _ => none

def readId (b : Bytes) : Option (NonZeroU16 × Bytes) :=
  match readU16 b with
  | some (n, bs) => if h : n ≠ 0 then some (⟨n, h⟩, bs) else none
  | none => none

def readText (b : Bytes) : Option (String × Bytes) :=
  match readU16 b with
  | some (n, bs) =>
      if n.toNat ≤ bs.length then
        some (String.ofList ((bs.take n.toNat).map (fun u => Char.ofNat u.toNat)), bs.drop n.toNat)
      else none
  | none => none

/-- The part of an MQTT 5 body after its empty property section. -/
def skipProperties (v : ProtocolVersion) (b : Bytes) : Option Bytes :=
  match v, b with
  | .mqtt3, b => some b
  | .mqtt5, 0 :: b => some b
  | .mqtt5, _ => none

/-- The properties of a PUBLISH, and the part of its body after them. -/
def readPublishProperties (v : ProtocolVersion) (b : Bytes) :
    Option (Option PublishProperties × Bytes) :=
  match v, b with
  | .mqtt3, b => some (none, b)
  | .mqtt5, 0 :: b => some (none, b)
  | .mqtt5, 3 :: 0x23 :: b => (readId b).map (fun r => (some ⟨some r.1⟩, r.2))
  | .mqtt5, _ => none

def readPublish (v : ProtocolVersion) (first : UInt8) (b : Bytes) : Option Publish := do
  let (topic, b) ← readText b
  let dup := first &&& 8 ≠ 0
  let retain := first &&& 1 ≠ 0
  match ← QoS.tryFrom ((first >>> 1) &&& 3) with
  | .atMostOnce =>
      let (properties, payload) ← readPublishProperties v b
      return ⟨dup, retain, .atMostOnce, topic, none, payload, properties, fun h => absurd rfl h⟩
  | qos =>
      let (i, b) ← readId b
      let (properties, payload) ← readPublishProperties v b
      return ⟨dup, retain, qos, topic, some i, payload, properties, fun _ => rfl⟩

def readConnect (level : UInt8) (b : Bytes) : Option (Bool × UInt16 × String) := do
  let (name, b) ← readText b
  match b with
  | l :: flags :: b =>
      let (keepAlive, b) ← readU16 b
      let b ← skipProperties (if level = 4 then .mqtt3 else .mqtt5) b
      let (clientId, _) ← readText b
      if name = "MQTT" ∧ l = level then return (flags &&& 2 ≠ 0, keepAlive, clientId) else none
  | _ => none

def v3ConnackReason (n : UInt8) : Option V3.ConnectAckReason :=
  if n = 0 then some .connectionAccepted
  else if n = 1 then some .unacceptableProtocolVersion
  else if n = 2 then some .identifierRejected
  else if n = 3 then some .serviceUnavailable
  else if n = 4 then some .badUserNameOrPassword
  else if n = 5 then some .notAuthorized
  else none

def v3SubscribeReturn (n : UInt8) : V3.SubscribeReturnCode :=
  match QoS.tryFrom n with
  | some q => .success q
  | none => .failure

def parseV3 (first : UInt8) (b : Bytes) : Option V3.Packet := do
  match (first >>> 4).toNat with
  | 1 =>
      let (clean, keepAlive, clientId) ← readConnect 4 b
      return .connect ⟨clean, keepAlive, clientId⟩
  | 2 =>
      match b with
      | [present, code] => return .connectAck ⟨← v3ConnackReason code, present &&& 1 ≠ 0⟩
      | _ => none
  | 3 => return .publish (← readPublish .mqtt3 first b)
  | 4 => return .publishAck (← readId b).1
  | 5 => return .publishReceived (← readId b).1
  | 6 => return .publishRelease (← readId b).1
  | 7 => return .publishComplete (← readId b).1
  | 9 =>
      let (i, b) ← readId b
      return .subscribeAck i (b.map v3SubscribeReturn)
  | 11 => return .unsubscribeAck (← readId b).1
  | 12 => return .pingRequest
  | 13 => return .pingResponse
  | 14 => return .disconnect
  | _ => none

def disconnectReason (n : UInt8) : V5.DisconnectReasonCode :=
  if n = 0x00 then .normalDisconnection
  else if n = 0x89 then .serverBusy
  else if n = 0x8b then .serverShuttingDown
  else if n = 0x8d then .keepAliveTimeout
  else if n = 0x9c then .useAnotherServer
  else if n = 0x9d then .serverMoved
  else .unspecifiedError

def parseV5 (first : UInt8) (b : Bytes) : Option V5.Packet := do
  match (first >>> 4).toNat with
  | 1 =>
      let (clean, keepAlive, clientId) ← readConnect 5 b
      return .connect ⟨clean, keepAlive, clientId, 0⟩
  | 2 =>
      match b with
      | [present, code, 0] =>
          return .connectAck ⟨present &&& 1 ≠ 0,
            if code = 0 then .success else .unspecifiedError, none, none⟩
      | _ => none
  | 3 => return .publish (← readPublish .mqtt5 first b)
  | 4 => return .publishAck ⟨(← readId b).1, .success⟩
  | 5 => return .publishReceived ⟨(← readId b).1, .success⟩
  | 6 => return .publishRelease ⟨(← readId b).1, .success⟩
  | 7 => return .publishComplete ⟨(← readId b).1, .success⟩
  | 9 =>
      let (i, b) ← readId b
      let b ← skipProperties .mqtt5 b
      return .subscribeAck ⟨i, b.map (fun _ => .granted .atMostOnce)⟩
  | 11 => return .unsubscribeAck ⟨(← readId b).1⟩
  | 12 => return .pingRequest
  | 13 => return .pingResponse
  | 14 =>
      match b with
      | code :: _ => return .disconnect ⟨disconnectReason code⟩
      | [] => return .disconnect ⟨.normalDisconnection⟩
  | _ => none

def parse (v : ProtocolVersion) (first : UInt8) (b : Bytes) : Option MqttPacket :=
  match v with
  | .mqtt3 => (parseV3 first b).map .v3
  | .mqtt5 => (parseV5 first b).map .v5

/-- The codec; `takesHeader` is the one freedom of its decoder. -/
def codec (takesHeader : Bool) : Codec where
  encode := encode
  parse := parse
  takesHeader _ := takesHeader
  debug p := toString p.packetType.toNat
  decodeError _ _ := "malformed packet"
  encode_type := encode_type

/-- A client that asks for a persistent MQTT 3.1.1 session with a keepalive of 60 s. -/
def connectPacket : MqttPacket := .v3 (.connect ⟨false, 60, "c"⟩)

def handshake : Handshake := ⟨.mqtt3, (encode connectPacket).toBytes, 60⟩

/-- Its session, with nothing buffered on either side. -/
def session : Session := Session.initial 0 handshake (.fresh []) (.fresh []) 0

def connack : MqttPacket := .v3 (.connectAck ⟨.connectionAccepted, true⟩)

def publish (i : NonZeroU16) (payload : Bytes) : MqttPacket :=
  .v3 (.publish ⟨false, false, .atLeastOnce, "t", some i, payload, none, Publish.hasId_some i⟩)

def puback (i : NonZeroU16) : MqttPacket := .v3 (.publishAck i)

def one : NonZeroU16 := ⟨1, NonZeroU16.one_ne_zero⟩

def two : NonZeroU16 := ⟨2, by decide⟩

def subscribe : MqttPacket := .v3 (.subscribe one [("t", .atLeastOnce)])

def suback : MqttPacket := .v3 (.subscribeAck one [.success .atLeastOnce])

def unsubscribe : MqttPacket := .v3 (.unsubscribe one ["t"])

def ping : MqttPacket := .v3 .pingRequest

/-- An MQTT 5 client that asks for a keepalive of 60 s. -/
def connectV5 : MqttPacket := .v5 (.connect ⟨false, 60, "c", 0⟩)

/-- Its session. -/
def sessionV5 : Session :=
  Session.initial 0 ⟨.mqtt5, (encode connectV5).toBytes, 60⟩ (.fresh []) (.fresh []) 0

/-- An accepting CONNACK with this Server Keep Alive. -/
def connackV5 (serverKeepalive : Option UInt16) : MqttPacket :=
  .v5 (.connectAck ⟨true, .success, serverKeepalive, none⟩)

/-- A SUBSCRIBE with this Subscription Identifier. -/
def subscribeV5 (id : Option Nat) : MqttPacket :=
  .v5 (.subscribe ⟨one, id, [("t", ⟨.atLeastOnce, false, false, .atSubscribe⟩)]⟩)

def subackV5 : MqttPacket := .v5 (.subscribeAck ⟨one, [.granted .atLeastOnce]⟩)

/-- A client packet, read and forwarded at second 5. -/
def forwarded (p : MqttPacket) : Event := .clientRead 5000 (.packet p) (.fresh []) .ok .ok

/-- A broker packet, read and delivered. -/
def delivered (p : MqttPacket) : Event := .brokerRead (.packet p) (.fresh []) .ok

/-- The broker closes its side. -/
def brokerCloses : Event := .brokerRead .closed (.fresh []) .ok

/-- One exchange in each window, a subscription, a PUBLISH held back in the outage, and
the first byte of the client's next packet. -/
def busyOutage : List Event :=
  [forwarded (publish one []), forwarded subscribe, delivered (publish two []), brokerCloses,
    forwarded (publish two []), .clientBytes (.fresh [0xc0])]

/-- A broker that accepts the connection and answers the re-SUBSCRIBE. -/
def accepting : Attempt := ⟨9, 9, .packet connack, .packet suback, .fresh [], ""⟩

/-- The same with MQTT 5. -/
def acceptingV5 : Attempt := ⟨9, 9, .packet (connackV5 none), .packet subackV5, .fresh [], ""⟩

example : (codec true).decodeAll .mqtt3
    ((encode (puback one)).toBytes ++ (encode (.v3 .pingResponse)).toBytes ++ [0x30, 5, 0])
      = [puback one, .v3 .pingResponse] := by
  decide

end TrafficDirector.ReferenceCodec
