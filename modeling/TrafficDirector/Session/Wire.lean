/-
# `TrafficDirector.Session.Wire` — what a session reads from and writes to its sockets

The outcomes of `next()` and of a write, the errors a session ends with, and the
frames it writes.
-/
import TrafficDirector.Registry

namespace TrafficDirector

inductive ErrorKind where
  | invalidData
  | unexpectedEof
  | quotaExceeded
  | connectionAborted
  /-- an error of the operating system -/
  | os
deriving DecidableEq, Repr

/-- `std::io::Error` -/
structure IoError where
  kind : ErrorKind
  message : String
deriving DecidableEq

/-- `session::invalid_data` -/
def invalidData (e : String) : IoError := ⟨.invalidData, e⟩

/-- What `Framed::next` has to say. -/
inductive Next where
  | packet (p : MqttPacket)
  | error (e : String)
  | closed
deriving DecidableEq

/-- How a write went; a failure comes with the error text. -/
inductive Sent where
  | ok
  | failed (e : String)
deriving DecidableEq

/-- What one write puts on the wire: a packet through the codec, the bytes kept
of an earlier packet, or the patched CONNECT. -/
inductive Frame where
  | packet (p : MqttPacket)
  | raw (r : RawPacket)
  | connect (bytes : Bytes)
deriving DecidableEq

def Frame.bytes (c : Codec) : Frame → Bytes
  | .packet p => (encodeRaw c p).toBytes
  | .raw r => r.toBytes
  | .connect b => b

/-- An observable action of a session. -/
inductive Output where
  /-- a new broker connection, after which `toBroker` goes there -/
  | openBroker
  | toBroker (f : Frame)
  | toClient (f : Frame)
deriving DecidableEq

end TrafficDirector
