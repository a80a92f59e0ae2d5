/-
# `TrafficDirector.Session.Handshake` — the CONNECT a session keeps

The raw CONNECT that is replayed toward every later broker connection, the
clean-bit patch applied on replay, and the keepalive the proxy enforces.
-/
import TrafficDirector.Session.Wire

namespace TrafficDirector

/-! ## The clean-bit patch -/

/-- The number of bytes of a remaining-length varint: up to the first byte whose
top bit is clear. -/
def varintLen : Bytes → Option Nat
  | [] => none
  | byte :: bs => if byte &&& 0x80 = 0 then some 1 else (varintLen bs).map (· + 1)

/-- Clear the clean_session (v3) or clean_start (v5) bit, bit 1 of the CONNECT
flags, so that the broker resumes the session. -/
def forceSessionResumption (connectRaw : Bytes) : Except IoError Bytes :=
  let invalid : IoError := ⟨.invalidData, "malformed CONNECT in snapshot"⟩
  match varintLen (connectRaw.drop 1) with
  | none => .error invalid
  | some n =>
      let i := n + 1
      match connectRaw[i]?, connectRaw[i + 1]? with
      | some hi, some lo =>
          let nameLen := hi.toNat * 256 + lo.toNat
          let flagsAt := i + 2 + nameLen + 1
          match connectRaw[flagsAt]? with
          | some flags => .ok (connectRaw.set flagsAt (flags &&& ~~~ 0x02))
          | none => .error invalid
      | _, _ => .error invalid

/-! ## Handshake -/

structure Handshake where
  version : ProtocolVersion
  connectRaw : Bytes
  /-- seconds, 0 when disabled -/
  keepAlive : UInt16
deriving DecidableEq

def keepAliveOf : MqttPacket → UInt16
  | .v3 (.connect c) => c.keepAlive
  | .v5 (.connect c) => c.keepAlive
  | _ => 0

namespace Handshake

def versionByte (hs : Handshake) : UInt8 :=
  match hs.version with
  | .mqtt3 => 4
  | .mqtt5 => 5

/-- The version and CONNECT of a snapshot; the keepalive is read off the CONNECT. -/
def fromSnapshotVersion (c : Codec) (version : UInt8) (connectRaw : Bytes) :
    Except IoError Handshake :=
  let decoded (v : ProtocolVersion) : Except IoError Handshake :=
    match (c.grammar v).scan connectRaw with
    | .bad => .error (invalidData (c.decodeError v connectRaw))
    | .more => .error (invalidData "undecodable CONNECT in snapshot")
    | .item packet _ => .ok ⟨v, connectRaw, keepAliveOf packet⟩
  if version = 4 then decoded .mqtt3
  else if version = 5 then decoded .mqtt5
  else .error ⟨.invalidData, "unknown MQTT protocol level " ++ toString version.toNat⟩

theorem fromSnapshotVersion_versionByte (c : Codec) (hs : Handshake) :
    fromSnapshotVersion c hs.versionByte hs.connectRaw =
      match (c.grammar hs.version).scan hs.connectRaw with
      | .bad => .error (invalidData (c.decodeError hs.version hs.connectRaw))
      | .more => .error (invalidData "undecodable CONNECT in snapshot")
      | .item packet _ => .ok { hs with keepAlive := keepAliveOf packet } := by
  obtain ⟨v, raw, ka⟩ := hs
  cases v <;> rfl

/-- Adoption keeps everything of a handshake but the keepalive. -/
theorem fromSnapshotVersion_ok {c : Codec} {hs hs' : Handshake}
    (h : fromSnapshotVersion c hs.versionByte hs.connectRaw = .ok hs') :
    ∃ keepAlive, hs' = { hs with keepAlive := keepAlive } := by
  rw [fromSnapshotVersion_versionByte] at h
  split at h
  · exact absurd h (by simp)
  · exact absurd h (by simp)
  · next packet _ _ => exact ⟨_, (Except.ok.inj h).symm⟩

end Handshake

/-! ## Keepalive -/

/-- When a silent client is dropped: 1.5 times its keepalive after the last
packet, in milliseconds; a year if the keepalive is disabled. -/
def clientDeadline (keepAlive : UInt16) (lastActivity : Nat) : Nat :=
  if keepAlive = 0 then lastActivity + 3600 * 24 * 365 * 1000
  else lastActivity + keepAlive.toNat * 1000 * 3 / 2

end TrafficDirector
