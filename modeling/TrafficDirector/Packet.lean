/-
# `TrafficDirector.Packet` — the MQTT packets the proxy handles

The packet types of the codec crate for MQTT 3.1.1 (`v3`) and MQTT 5 (`v5`),
with the fields the proxy reads, writes or compares.  The two versions are two
types, as in the codec, and the handlers of the proxy match on both.

`MqttPacket.shape` forgets the version.  It is not part of the code: each handler
is proved once to depend on the shape (and the encoding) of a packet only, and
the proofs then split on shapes instead of on two packet types.
-/
import Mathlib.Tactic.Common

namespace TrafficDirector

abbrev Bytes := List UInt8

/-- `std::num::NonZeroU16`, the type of packet identifiers. -/
abbrev NonZeroU16 := { n : UInt16 // n ≠ 0 }

theorem NonZeroU16.one_ne_zero : (1 : UInt16) ≠ 0 := by decide

def NonZeroU16.get (n : NonZeroU16) : UInt16 := n.val

inductive ProtocolVersion where
  | mqtt3
  | mqtt5
deriving DecidableEq, Repr

inductive QoS where
  | atMostOnce
  | atLeastOnce
  | exactlyOnce
deriving DecidableEq, Repr

/-- `qos as u8` -/
def QoS.toU8 : QoS → UInt8
  | .atMostOnce => 0
  | .atLeastOnce => 1
  | .exactlyOnce => 2

/-- `QoS::try_from(u8)` -/
def QoS.tryFrom (n : UInt8) : Option QoS :=
  if n = 0 then some .atMostOnce
  else if n = 1 then some .atLeastOnce
  else if n = 2 then some .exactlyOnce
  else none

structure PublishProperties where
  topicAlias : Option NonZeroU16
deriving DecidableEq

/-- A PUBLISH of either version.  The decoder yields no PUBLISH above QoS 0
without a packet id; the windows' `expect("QoS>0 PUBLISH must have a packet id")`
relies on it. -/
structure Publish where
  dup : Bool
  retain : Bool
  qos : QoS
  topic : String
  packetId : Option NonZeroU16
  payload : Bytes
  properties : Option PublishProperties
  hasId : qos ≠ .atMostOnce → packetId.isSome = true
deriving DecidableEq

theorem Publish.hasId_some {qos : QoS} (i : NonZeroU16) (_ : qos ≠ .atMostOnce) :
    (some i).isSome = true :=
  rfl

/-- `packet_id.expect("QoS>0 PUBLISH must have a packet id")` -/
def Publish.expectId (p : Publish) (h : p.qos ≠ .atMostOnce) : NonZeroU16 :=
  p.packetId.get (p.hasId h)

namespace V3

structure Connect where
  cleanSession : Bool
  keepAlive : UInt16
  clientId : String
deriving DecidableEq

inductive ConnectAckReason where
  | connectionAccepted
  | unacceptableProtocolVersion
  | identifierRejected
  | serviceUnavailable
  | badUserNameOrPassword
  | notAuthorized
deriving DecidableEq

structure ConnectAck where
  returnCode : ConnectAckReason
  sessionPresent : Bool
deriving DecidableEq

inductive SubscribeReturnCode where
  | success (qos : QoS)
  | failure
deriving DecidableEq

/-- `rmqtt_codec::v3::Packet` -/
inductive Packet where
  | connect (c : Connect)
  | connectAck (ack : ConnectAck)
  | publish (p : Publish)
  | publishAck (packetId : NonZeroU16)
  | publishReceived (packetId : NonZeroU16)
  | publishRelease (packetId : NonZeroU16)
  | publishComplete (packetId : NonZeroU16)
  | subscribe (packetId : NonZeroU16) (topicFilters : List (String × QoS))
  | subscribeAck (packetId : NonZeroU16) (status : List SubscribeReturnCode)
  | unsubscribe (packetId : NonZeroU16) (topicFilters : List String)
  | unsubscribeAck (packetId : NonZeroU16)
  | pingRequest
  | pingResponse
  | disconnect
deriving DecidableEq

end V3

namespace V5

structure Connect where
  cleanStart : Bool
  keepAlive : UInt16
  clientId : String
  sessionExpiryIntervalSecs : Nat
deriving DecidableEq

inductive ConnectAckReason where
  | success
  | unspecifiedError
  | malformedPacket
  | protocolError
  | implementationSpecificError
  | unsupportedProtocolVersion
  | clientIdentifierNotValid
  | badUserNameOrPassword
  | notAuthorized
  | serverUnavailable
  | serverBusy
  | banned
  | badAuthenticationMethod
  | topicNameInvalid
  | packetTooLarge
  | quotaExceeded
  | payloadFormatInvalid
  | retainNotSupported
  | qosNotSupported
  | useAnotherServer
  | serverMoved
  | connectionRateExceeded
deriving DecidableEq

structure ConnectAck where
  sessionPresent : Bool
  reasonCode : ConnectAckReason
  serverKeepaliveSec : Option UInt16
  assignedClientId : Option String
deriving DecidableEq

/-- Reason codes of PUBACK and PUBREC. -/
inductive PublishAckReason where
  | success
  | noMatchingSubscribers
  | unspecifiedError
  | implementationSpecificError
  | notAuthorized
  | topicNameInvalid
  | packetIdentifierInUse
  | quotaExceeded
  | payloadFormatInvalid
deriving DecidableEq

/-- Reason codes of PUBREL and PUBCOMP. -/
inductive PublishAck2Reason where
  | success
  | packetIdNotFound
deriving DecidableEq

structure PublishAck where
  packetId : NonZeroU16
  reasonCode : PublishAckReason
deriving DecidableEq

structure PublishAck2 where
  packetId : NonZeroU16
  reasonCode : PublishAck2Reason
deriving DecidableEq

inductive RetainHandling where
  | atSubscribe
  | atSubscribeNew
  | noAtSubscribe
deriving DecidableEq

/-- `retain_handling as u8` -/
def RetainHandling.toU8 : RetainHandling → UInt8
  | .atSubscribe => 0
  | .atSubscribeNew => 1
  | .noAtSubscribe => 2

/-- `RetainHandling::try_from(u8)` -/
def RetainHandling.tryFrom (n : UInt8) : Option RetainHandling :=
  if n = 0 then some .atSubscribe
  else if n = 1 then some .atSubscribeNew
  else if n = 2 then some .noAtSubscribe
  else none

structure SubscriptionOptions where
  qos : QoS
  noLocal : Bool
  retainAsPublished : Bool
  retainHandling : RetainHandling
deriving DecidableEq

structure Subscribe where
  packetId : NonZeroU16
  /-- the Subscription Identifier property -/
  id : Option Nat
  topicFilters : List (String × SubscriptionOptions)
deriving DecidableEq

inductive SubscribeAckReason where
  | granted (qos : QoS)
  | unspecifiedError
  | implementationSpecificError
  | notAuthorized
  | topicFilterInvalid
  | packetIdentifierInUse
  | quotaExceeded
  | sharedSubscriptionNotSupported
  | subscriptionIdentifiersNotSupported
  | wildcardSubscriptionsNotSupported
deriving DecidableEq

structure SubscribeAck where
  packetId : NonZeroU16
  status : List SubscribeAckReason
deriving DecidableEq

structure Unsubscribe where
  packetId : NonZeroU16
  topicFilters : List String
deriving DecidableEq

structure UnsubscribeAck where
  packetId : NonZeroU16
deriving DecidableEq

inductive DisconnectReasonCode where
  | normalDisconnection
  | disconnectWithWillMessage
  | unspecifiedError
  | malformedPacket
  | protocolError
  | implementationSpecificError
  | notAuthorized
  | serverBusy
  | serverShuttingDown
  | badAuthenticationMethod
  | keepAliveTimeout
  | sessionTakenOver
  | topicFilterInvalid
  | topicNameInvalid
  | receiveMaximumExceeded
  | topicAliasInvalid
  | packetTooLarge
  | messageRateTooHigh
  | quotaExceeded
  | administrativeAction
  | payloadFormatInvalid
  | retainNotSupported
  | qosNotSupported
  | useAnotherServer
  | serverMoved
  | sharedSubscriptionNotSupported
  | connectionRateExceeded
  | maximumConnectTime
  | subscriptionIdentifiersNotSupported
  | wildcardSubscriptionsNotSupported
deriving DecidableEq

structure Disconnect where
  reasonCode : DisconnectReasonCode
deriving DecidableEq

/-- `rmqtt_codec::v5::Packet` -/
inductive Packet where
  | connect (c : Connect)
  | connectAck (ack : ConnectAck)
  | publish (p : Publish)
  | publishAck (ack : PublishAck)
  | publishReceived (ack : PublishAck)
  | publishRelease (ack : PublishAck2)
  | publishComplete (ack : PublishAck2)
  | subscribe (subscribe : Subscribe)
  | subscribeAck (ack : SubscribeAck)
  | unsubscribe (unsubscribe : Unsubscribe)
  | unsubscribeAck (ack : UnsubscribeAck)
  | pingRequest
  | pingResponse
  | disconnect (d : Disconnect)
  | auth
deriving DecidableEq

end V5

/-- `rmqtt_codec::MqttPacket`.  `MqttPacket::Version` is left out: the version
codec is gone before a packet reaches any handler. -/
inductive MqttPacket where
  | v3 (p : V3.Packet)
  | v5 (p : V5.Packet)
deriving DecidableEq

/-- A packet without its version, up to what the handlers look at. -/
inductive Shape where
  | publishAtMostOnce
  | publish (qos : QoS) (id : UInt16)
  | publishAck (id : UInt16)
  | publishReceived (id : UInt16)
  | publishRelease (id : UInt16)
  | publishComplete (id : UInt16)
  | subscribe (id : UInt16)
  | subscribeAck (id : UInt16)
  | unsubscribe (id : UInt16)
  | pingRequest
  | pingResponse
  | disconnect
  | other
deriving DecidableEq

def Publish.shape (p : Publish) : Shape :=
  if h : p.qos = .atMostOnce then .publishAtMostOnce
  else .publish p.qos (p.expectId h).get

def MqttPacket.shape : MqttPacket → Shape
  | .v3 (.publish p) | .v5 (.publish p) => p.shape
  | .v3 (.publishAck id) => .publishAck id.get
  | .v5 (.publishAck ack) => .publishAck ack.packetId.get
  | .v3 (.publishReceived id) => .publishReceived id.get
  | .v5 (.publishReceived ack) => .publishReceived ack.packetId.get
  | .v3 (.publishRelease id) => .publishRelease id.get
  | .v5 (.publishRelease ack) => .publishRelease ack.packetId.get
  | .v3 (.publishComplete id) => .publishComplete id.get
  | .v5 (.publishComplete ack) => .publishComplete ack.packetId.get
  | .v3 (.subscribe id _) => .subscribe id.get
  | .v5 (.subscribe s) => .subscribe s.packetId.get
  | .v3 (.subscribeAck id _) => .subscribeAck id.get
  | .v5 (.subscribeAck ack) => .subscribeAck ack.packetId.get
  | .v3 (.unsubscribe id _) => .unsubscribe id.get
  | .v5 (.unsubscribe u) => .unsubscribe u.packetId.get
  | .v3 .pingRequest | .v5 .pingRequest => .pingRequest
  | .v3 .pingResponse | .v5 .pingResponse => .pingResponse
  | .v3 .disconnect | .v5 (.disconnect _) => .disconnect
  | .v3 (.connect _) | .v5 (.connect _) | .v3 (.connectAck _) | .v5 (.connectAck _)
  | .v3 (.unsubscribeAck _) | .v5 (.unsubscribeAck _) | .v5 .auth => .other

/-- A PUBLISH as a packet of the given version. -/
def MqttPacket.ofPublish (v : ProtocolVersion) (p : Publish) : MqttPacket :=
  match v with
  | .mqtt3 => .v3 (.publish p)
  | .mqtt5 => .v5 (.publish p)

@[simp] theorem MqttPacket.shape_ofPublish (v : ProtocolVersion) (p : Publish) :
    (MqttPacket.ofPublish v p).shape = p.shape := by
  cases v <;> rfl

theorem Publish.shape_of_qos {p : Publish} (h : p.qos ≠ .atMostOnce) :
    p.shape = .publish p.qos (p.expectId h).get := by
  rw [Publish.shape, dif_neg h]

end TrafficDirector
