/-
# `TrafficDirector.Session.Arrival` — a client arrives

`handshake` looks for the protocol version in what the client sends, with a codec that takes
nothing out of the buffer, and then decodes the CONNECT with the codec of that version.
The bytes come in chunks, as the network has them.

`handshake_iff`: which handshake is read, and what is left of the stream for the session,
is a matter of the bytes alone.  `arrived_replayable`: the CONNECT that is kept of it can be
replayed, and the session handed over, for as long as the session lives.
-/
import TrafficDirector.Lib.Polling
import TrafficDirector.Session.Entry
import TrafficDirector.Session.Patch
import TrafficDirector.Session.Survival

namespace TrafficDirector

open Framing (Reader)

/-- `rmqtt_codec::version::VersionCodec`, which yields the version of a CONNECT and leaves
the CONNECT in the buffer. -/
structure VersionCodec extends Framing.Peeker UInt8 ProtocolVersion where
  /-- the text of the error `decode` returns on this byte string -/
  decodeError : Bytes → String

/-- What comes from a client that has just connected. -/
structure Incoming where
  chunks : List Bytes
  /-- the error that the last read ends in; without one the client has closed -/
  failure : Option String

namespace Incoming

def stream (i : Incoming) : Bytes := i.chunks.flatten

/-- What `handshake` makes of `next()` at the end of the stream, with `buf` undecoded. -/
def endError (i : Incoming) (buf : Bytes) : IoError :=
  match i.failure with
  | some e => invalidData e
  | none =>
      if buf = [] then ⟨.unexpectedEof, "client closed before CONNECT"⟩
      else invalidData "bytes remaining on stream"

end Incoming

/-- Read the client's CONNECT, and keep it encoded for later replay.  What is left is the
reader of the connection and the chunks to come. -/
def Incoming.handshake (c : Codec) (vc : VersionCodec) (i : Incoming) :
    Except IoError (Reader UInt8 × Handshake × List Bytes) :=
  match Framing.look vc.toPeeker i.chunks [] with
  | .bad buf => .error (invalidData (vc.decodeError buf))
  | .more buf => .error (i.endError buf)
  | .found version buf chunks =>
      -- the codec of the version starts with what is in the buffer
      match Framing.nextFrame (c.grammar version) c.hold chunks (.fresh buf) with
      | .bad d => .error (invalidData (c.decodeError version d.content))
      | .more d => .error (i.endError d.buf)
      | .item connect d chunks => .ok (d, .ofConnect c version connect, chunks)

variable {c : Codec} {vc : VersionCodec} {i : Incoming} {version : ProtocolVersion}
  {connect : MqttPacket} {rest : Bytes} {d : Reader UInt8} {hs : Handshake} {chunks : List Bytes}

theorem look_stream (h : vc.peek i.stream = .found version) :
    ∃ buf chunks, Framing.look vc.toPeeker i.chunks [] = .found version buf chunks ∧
      buf ++ chunks.flatten = i.stream :=
  Framing.look_of_found vc.toPeeker [] h

/-- A CONNECT at the head of the stream is read, and what follows it is left. -/
theorem handshake_of_scan (hversion : vc.peek i.stream = .found version)
    (hconnect : (c.grammar version).scan i.stream = .item connect rest) :
    ∃ d chunks, i.handshake c vc = .ok (d, Handshake.ofConnect c version connect, chunks) ∧
      d.held = [] ∧ d.content ++ chunks.flatten = rest := by
  obtain ⟨buf, chunks, hlook, hstream⟩ := look_stream hversion
  rw [← hstream] at hconnect
  obtain ⟨d, chunks', hnext, hheld, hrest⟩ :=
    Framing.nextFrame_of_item c.hold (.fresh buf) hconnect
  refine ⟨d, chunks', ?_, hheld, hrest⟩
  simp only [Incoming.handshake, hlook, hnext]

theorem scan_of_handshake (h : i.handshake c vc = .ok (d, hs, chunks)) :
    ∃ version connect rest, vc.peek i.stream = .found version ∧
      (c.grammar version).scan i.stream = .item connect rest := by
  cases hpeek : vc.peek i.stream with
  | more =>
      have hlook : Framing.look vc.toPeeker i.chunks [] = .more i.stream :=
        Framing.look_of_more vc.toPeeker [] hpeek
      rw [Incoming.handshake, hlook] at h
      cases h
  | bad =>
      obtain ⟨buf, hlook⟩ := Framing.look_of_bad vc.toPeeker [] hpeek
      rw [Incoming.handshake, hlook] at h
      cases h
  | found version =>
      obtain ⟨buf, chunks', hlook, hstream⟩ := look_stream hpeek
      cases hscan : (c.grammar version).scan i.stream with
      | item connect rest => exact ⟨version, connect, rest, rfl, hscan⟩
      | more =>
          rw [← hstream] at hscan
          obtain ⟨d', hnext, -⟩ := Framing.nextFrame_of_more c.hold (.fresh buf) hscan
          simp only [Incoming.handshake, hlook, hnext] at h
          cases h
      | bad =>
          rw [← hstream] at hscan
          obtain ⟨d', hnext⟩ := Framing.nextFrame_of_bad c.hold (.fresh buf) hscan
          simp only [Incoming.handshake, hlook, hnext] at h
          cases h

/-- What a handshake has read, and what it leaves: the codec holds nothing when the session
begins. -/
theorem handshake_eq_ok (h : i.handshake c vc = .ok (d, hs, chunks)) :
    ∃ connect, vc.peek i.stream = .found hs.version ∧
      (c.grammar hs.version).scan i.stream = .item connect (d.content ++ chunks.flatten) ∧
      hs = .ofConnect c hs.version connect ∧ d.held = [] := by
  obtain ⟨version, connect, rest, hversion, hconnect⟩ := scan_of_handshake h
  obtain ⟨d', chunks', hok, hheld, hrest⟩ := handshake_of_scan hversion hconnect
  obtain ⟨rfl, htail⟩ := Prod.mk.inj (Except.ok.inj (h.symm.trans hok))
  obtain ⟨rfl, rfl⟩ := Prod.mk.inj htail
  rw [← hrest] at hconnect
  exact ⟨connect, hversion, hconnect, rfl, hheld⟩

/-- A handshake is read exactly if the stream starts with a version and a packet of it, and
however the stream is cut, it is that packet's, and what follows the packet is left. -/
theorem handshake_iff (c : Codec) (vc : VersionCodec) (i : Incoming) (hs : Handshake)
    (rest : Bytes) :
    (∃ d chunks, i.handshake c vc = .ok (d, hs, chunks) ∧ d.held = [] ∧
        d.content ++ chunks.flatten = rest) ↔
      ∃ version connect, vc.peek i.stream = .found version ∧
        (c.grammar version).scan i.stream = .item connect rest ∧
        hs = .ofConnect c version connect := by
  constructor
  · rintro ⟨d, chunks, hok, -, rfl⟩
    obtain ⟨connect, hversion, hconnect, hofConnect, -⟩ := handshake_eq_ok hok
    exact ⟨hs.version, connect, hversion, hconnect, hofConnect⟩
  · rintro ⟨version, connect, hversion, hconnect, rfl⟩
    exact handshake_of_scan hversion hconnect

/-! ## The CONNECT that is kept -/

/-- If the codec lays out the client's CONNECT as the standard says, and reads it back, then
in every state of the session a replay sends it with the clean bit cleared and nothing
else changed, and the next process makes of it the handshake that this one has read. -/
theorem arrived_replayable {id : SessionId} {now : Nat} {o : Opening} {s t : Session}
    {es : List Event} {out : List Output} {w : WireConnect}
    (harrives : i.handshake c vc = .ok (d, hs, chunks))
    (hconnect : (c.grammar hs.version).scan i.stream = .item connect rest)
    (hencodes : w.Encodes (encodeRaw c connect).toBytes)
    (hdecodes : (c.grammar hs.version).scan (encodeRaw c connect).toBytes = .item connect [])
    (henters : runSession hs d id now o = .ok s)
    (hrun : (sessionMachine c).run (.running s) es = some (.running t, out)) :
    (∃ raw, forceSessionResumption t.hs.connectRaw = .ok raw ∧ w.resuming.Encodes raw) ∧
    ∀ id now, ∃ s', migrateSession c t id now = .running s' ∧ s'.hs = hs := by
  obtain ⟨connect', -, hconnect', hofConnect, -⟩ := handshake_eq_ok harrives
  obtain ⟨rfl, -⟩ := Framing.Scan.item.inj (hconnect'.symm.trans hconnect)
  obtain ⟨-, rfl⟩ := runSession_eq_ok.mp henters
  have hraw : hs.connectRaw = (encodeRaw c connect').toBytes :=
    congrArg Handshake.connectRaw hofConnect
  have hkeeps : t.hs.connectRaw = hs.connectRaw ∧ t.hs.version = hs.version := by
    refine run_transitions (I := fun t : Session =>
      t.hs.connectRaw = hs.connectRaw ∧ t.hs.version = hs.version) ?_ ⟨rfl, rfl⟩ hrun
    intro e _ s s' o h ht
    exact ⟨ht.connect.1.trans h.1, ht.connect.2.trans h.2⟩
  rw [← hraw] at hencodes hdecodes
  refine ⟨?_, ?_⟩
  · rw [hkeeps.1]
    exact hencodes.patched
  · intro id' now'
    have hkeepAlive : hs.keepAlive = keepAliveOf connect' :=
      congrArg Handshake.keepAlive hofConnect
    have hsame : (⟨hs.version, hs.connectRaw, keepAliveOf connect'⟩ : Handshake) = hs := by
      rw [← hkeepAlive]
    have hadopts : Handshake.fromSnapshotVersion c (t.freeze 0).snapshot.version
        (t.freeze 0).snapshot.connectRaw = .ok hs := by
      refine (Handshake.fromSnapshotVersion_versionByte c t.hs).trans ?_
      rw [hkeeps.1, hkeeps.2, hdecodes]
      exact congrArg Except.ok hsame
    have hmigrates : ∃ s', adoptSession c (t.freeze 0).snapshot id' now' = .ok s' ∧ s'.hs = hs := by
      rw [adoptSession, hadopts]
      exact ⟨_, rfl, rfl⟩
    obtain ⟨s', hadopt, hhs⟩ := hmigrates
    refine ⟨s', ?_, hhs⟩
    rw [migrateSession, hadopt]

namespace ReferenceCodec

/-- The version that a CONNECT names after its fixed header. -/
def connectVersion (b : Bytes) : Framing.Look ProtocolVersion :=
  if b.length < 7 then .more
  else if b.take 6 = [0, 4, 0x4d, 0x51, 0x54, 0x54] then
    if b[6]? = some (4 : UInt8) then .found .mqtt3
    else if b[6]? = some (5 : UInt8) then .found .mqtt5
    else .bad
  else .bad

def peekVersion (b : Bytes) : Framing.Look ProtocolVersion :=
  match fixedHeader b with
  | .more => .more
  | .bad => .bad
  | .complete first _ k => if first = 0x10 then connectVersion (b.drop k) else .bad

theorem connectVersion_append {b : Bytes} (c : Bytes) (h : connectVersion b ≠ .more) :
    connectVersion (b ++ c) = connectVersion b := by
  have hlen : ¬ b.length < 7 := fun hlt => h (if_pos hlt)
  have hlen' : ¬ (b ++ c).length < 7 := by
    rw [List.length_append]
    omega
  rw [connectVersion, connectVersion, if_neg hlen, if_neg hlen',
    List.take_append_of_le_length (by omega), List.getElem?_append_left (by omega)]

theorem peekVersion_append {b : Bytes} (c : Bytes) (h : peekVersion b ≠ .more) :
    peekVersion (b ++ c) = peekVersion b := by
  have hdecided : fixedHeader b ≠ .more := by
    intro hmore
    refine h ?_
    rw [peekVersion, hmore]
  have happ := fixedHeader_append c hdecided
  unfold peekVersion at h ⊢
  rw [happ]
  cases hh : fixedHeader b with
  | more => exact absurd hh hdecided
  | bad => rfl
  | complete first n k =>
      rw [hh] at h
      simp only at h ⊢
      split
      · next hconnect =>
          rw [if_pos hconnect] at h
          rw [List.drop_append_of_le_length (fixedHeader_len hh).2]
          exact connectVersion_append c h
      · rfl

/-- The version codec, for CONNECTs of MQTT 3.1.1 and 5. -/
def versionCodec : VersionCodec where
  peek := peekVersion
  peek_nil := rfl
  found_append c h := (peekVersion_append c (by rw [h]; simp)).trans h
  bad_append c h := (peekVersion_append c (by rw [h]; simp)).trans h
  decodeError _ := "invalid protocol"

/-- A client whose CONNECT and PINGREQ come in four pieces. -/
def arriving : Incoming where
  chunks := [[0x10], [13, 0, 4, 0x4d, 0x51, 0x54], [0x54, 4, 0, 0, 60, 0, 1, 99, 0xc0], [0]]
  failure := none

example : (arriving.handshake (codec true) versionCodec).toOption
    = some (Reader.fresh [0xc0], handshake, [[0]]) := by
  decide

/-- The CONNECT of `connectPacket`, field by field. -/
theorem connectPacket_encodes :
    ∃ p : WireConnect, p.Encodes (encodeRaw (codec true) connectPacket).toBytes := by
  refine ⟨{ cleanConnect with
    version := .v311, clean := false, willQos := 0, willRetain := false, properties := []
    will := none, userName := none, password := none }, [13], [], [], rfl, ?_, .none, rfl⟩
  exact .absent (by decide)

end ReferenceCodec

open ReferenceCodec in
theorem arrived_replayable_ping : ∃ d chunks s t out,
    arriving.handshake (codec true) versionCodec = .ok (d, ReferenceCodec.handshake, chunks) ∧
    runSession ReferenceCodec.handshake d 3 0 ⟨.ok, .ok, .packet connack, .fresh [], .ok⟩ = .ok s ∧
    (sessionMachine (codec true)).run (.running s) [forwarded ping] = some (.running t, out) ∧
    ∃ s', migrateSession (codec true) t 4 9 = .running s' ∧ s'.hs = ReferenceCodec.handshake := by
  have harrives : arriving.handshake (codec true) versionCodec
      = .ok (Reader.fresh [0xc0], ReferenceCodec.handshake, [[0]]) := by
    rfl
  have hconnect : ((codec true).grammar .mqtt3).scan arriving.stream
      = .item connectPacket [0xc0, 0] := by
    rfl
  have hdecodes : ((codec true).grammar .mqtt3).scan
      (encodeRaw (codec true) connectPacket).toBytes = .item connectPacket [] := by
    rfl
  let s := Session.initial 3 ReferenceCodec.handshake (.fresh [0xc0]) (.fresh []) 0
  have hrun : (sessionMachine (codec true)).run (.running s) [forwarded ping]
      = some (.running { s with client := .fresh [], lastClientActivity := 5000 },
          [.toClient (.packet (.v3 .pingResponse)), .toBroker (.packet ping)]) := by
    rfl
  have hruns : runSession ReferenceCodec.handshake (.fresh [0xc0]) 3 0
      ⟨.ok, .ok, .packet connack, .fresh [], .ok⟩ = .ok s := by
    rfl
  obtain ⟨p, hencodes⟩ := connectPacket_encodes
  refine ⟨_, _, _, _, _, harrives, hruns, hrun, ?_⟩
  exact (arrived_replayable harrives hconnect hencodes hdecodes hruns hrun).2 4 9

end TrafficDirector
