/-
# `TrafficDirector.Migrate.Size` — which sessions fit into a datagram

A frozen session goes to the next process as one datagram of JSON text, which is received
into a buffer of 1 MiB; a longer datagram loses its end.  The limits of the proxy are on
bytes, and a byte takes two to four characters of the text.  `migrates_iff`: a session that
`sendmsg` takes comes out as it went in exactly if its text, of `SessionSnapshot.size`
characters, fits.
-/
import TrafficDirector.Lib.Json
import TrafficDirector.Migrate
import TrafficDirector.ReferenceCodec
import TrafficDirector.Session.Transition

namespace TrafficDirector

open Framing (Reader)
open JsonText (Text number string array object bytes decimals arraySize bytesSize escapedSize)

/-! ## The text of a snapshot -/

def WindowState.name : WindowState → String
  | .c2bPublishSent => "C2BPublishSent"
  | .c2bPubrelSent => "C2BPubrelSent"
  | .b2cPublishSent => "B2CPublishSent"
  | .b2cPubrecForwarded => "B2CPubrecForwarded"

def WindowEntry.text (w : WindowEntry) : Text :=
  object [("packet_id", number w.packetId.toNat), ("state", string w.state.name),
    ("raw", bytes w.raw.toBytes)]

def SubscriptionEntry.text (e : SubscriptionEntry) : Text :=
  object [("topic_filter", string e.topicFilter), ("options", number e.options.toNat)]

def BufferedPublish.text (p : BufferedPublish) : Text :=
  object [("packet_id", number p.packetId.toNat), ("raw", bytes p.raw.toBytes),
    ("qos", number p.qos.toNat)]

def SessionSnapshot.text (s : SessionSnapshot) : Text :=
  object [("version", number s.version.toNat), ("connect_raw", bytes s.connectRaw),
    ("client_buf", bytes s.clientBuf), ("broker_buf", bytes s.brokerBuf),
    ("windows", array (s.windows.map WindowEntry.text)),
    ("subscriptions", array (s.subscriptions.map SubscriptionEntry.text)),
    ("buffered", array (s.buffered.map BufferedPublish.text))]

/-- `serde_json` writes this snapshot as its text and reads it back from there; a text
that is cut short is not JSON. -/
structure Json.Writes (json : Json) (s : SessionSnapshot) : Prop where
  toVec : json.toVec s = .ok s.text
  fromSlice : json.fromSlice s.text = .ok s
  cut : ∀ n < s.text.length, ∃ e, json.fromSlice (s.text.take n) = .error e

/-! ## Its length -/

def WindowEntry.size (w : WindowEntry) : Nat :=
  32 + decimals w.packetId.toNat + w.state.name.length + bytesSize w.raw.toBytes

def SubscriptionEntry.size (e : SubscriptionEntry) : Nat :=
  30 + escapedSize e.topicFilter + decimals e.options.toNat

def BufferedPublish.size (p : BufferedPublish) : Nat :=
  28 + decimals p.packetId.toNat + bytesSize p.raw.toBytes + decimals p.qos.toNat

def SessionSnapshot.size (s : SessionSnapshot) : Nat :=
  95 + decimals s.version.toNat + bytesSize s.connectRaw + bytesSize s.clientBuf
    + bytesSize s.brokerBuf + arraySize (s.windows.map WindowEntry.size)
    + arraySize (s.subscriptions.map SubscriptionEntry.size)
    + arraySize (s.buffered.map BufferedPublish.size)

theorem WindowState.length_name (state : WindowState) :
    (string state.name).length = state.name.length + 2 := by
  cases state <;> decide

theorem WindowEntry.length_text (w : WindowEntry) : w.text.length = w.size := by
  rw [text, JsonText.length_object, arraySize]
  simp only [List.map_cons, List.map_nil, List.sum_cons, List.sum_nil, JsonText.length_number,
    JsonText.length_bytes, WindowState.length_name]
  rw [show (string "packet_id").length = 11 from rfl, show (string "state").length = 7 from rfl,
    show (string "raw").length = 5 from rfl, size]
  omega

theorem SubscriptionEntry.length_text (e : SubscriptionEntry) : e.text.length = e.size := by
  rw [text, JsonText.length_object, arraySize]
  simp only [List.map_cons, List.map_nil, List.sum_cons, List.sum_nil, JsonText.length_number,
    JsonText.length_string e.topicFilter]
  rw [show (string "topic_filter").length = 14 from rfl,
    show (string "options").length = 9 from rfl, size]
  omega

theorem BufferedPublish.length_text (p : BufferedPublish) : p.text.length = p.size := by
  rw [text, JsonText.length_object, arraySize]
  simp only [List.map_cons, List.map_nil, List.sum_cons, List.sum_nil, JsonText.length_number,
    JsonText.length_bytes]
  rw [show (string "packet_id").length = 11 from rfl, show (string "raw").length = 5 from rfl,
    show (string "qos").length = 5 from rfl, size]
  omega

theorem SessionSnapshot.length_text (s : SessionSnapshot) : s.text.length = s.size := by
  have hwindows : (s.windows.map WindowEntry.text).map List.length
      = s.windows.map WindowEntry.size := by
    rw [List.map_map]
    exact List.map_congr_left (fun w _ => w.length_text)
  have hsubscriptions : (s.subscriptions.map SubscriptionEntry.text).map List.length
      = s.subscriptions.map SubscriptionEntry.size := by
    rw [List.map_map]
    exact List.map_congr_left (fun e _ => e.length_text)
  have hbuffered : (s.buffered.map BufferedPublish.text).map List.length
      = s.buffered.map BufferedPublish.size := by
    rw [List.map_map]
    exact List.map_congr_left (fun p _ => p.length_text)
  rw [text, JsonText.length_object, arraySize]
  simp only [List.map_cons, List.map_nil, List.sum_cons, List.sum_nil, JsonText.length_number,
    JsonText.length_bytes, JsonText.length_array, hwindows, hsubscriptions, hbuffered]
  rw [show (string "version").length = 9 from rfl,
    show (string "connect_raw").length = 13 from rfl,
    show (string "client_buf").length = 12 from rfl,
    show (string "broker_buf").length = 12 from rfl,
    show (string "windows").length = 9 from rfl,
    show (string "subscriptions").length = 15 from rfl,
    show (string "buffered").length = 10 from rfl, size]
  omega

/-! ## Through the channel -/

/-- The payload that is built of a session fits into the receive buffer. -/
def Fits (json : Json) (session : FrozenSession) : Prop :=
  ∀ payload, json.toVec session.snapshot = .ok payload → payload.length ≤ recvLen

/-- The parent sends the session, `sendmsg` takes the datagram (the default `SO_SNDBUF`
refuses one above about 212 kB), and the child reads the same session. -/
def HandsOver (json : Json) (session : FrozenSession) : Prop :=
  ∀ h : Handoff, ∀ rest sessions, h.parent = .sending (session :: rest) →
    h.child = .receiving sessions → h.toChild = [] →
    ∃ h₁ h₂, h.step json (.parentSends .ok) = some h₁ ∧
      h₁.step json (.childReceives true .ok) = some h₂ ∧
      h₂.child = .receiving (sessions ++ [(session.snapshot, session.clientFd)])

variable {json : Json} {frozen : FrozenSession} {s : Session} {fd : Int}

theorem fits_iff (hjson : json.Writes frozen.snapshot) :
    Fits json frozen ↔ frozen.snapshot.size ≤ recvLen := by
  rw [← frozen.snapshot.length_text]
  constructor
  · intro h
    exact h _ hjson.toVec
  · intro h payload hpayload
    obtain rfl := Except.ok.inj (hjson.toVec.symm.trans hpayload)
    exact h

/-- A datagram of a session does not look like END, not even when its end is cut off. -/
theorem SessionSnapshot.text_ne_endMarker (s : SessionSnapshot) (n : Nat) :
    s.text.take n ≠ endMarker := by
  intro h
  have hhead := congrArg List.head? h
  cases n with
  | zero => exact nomatch hhead
  | succ n => exact absurd (Option.some.inj hhead) (by decide)

theorem Handoff.child_receiveDatagram (h : Handoff) (sessions : Received) {d : Datagram}
    {clientFd : Int} (hend : d.received ≠ endMarker) (hfd : d.fd = some clientFd) :
    (h.receiveDatagram json sessions d true .ok).child = match json.fromSlice d.received with
      | .ok snapshot => .receiving (sessions ++ [(snapshot, clientFd)])
      | .error e => .finished (.error e) := by
  rw [receiveDatagram, if_neg hend, if_pos rfl, hfd]
  cases json.fromSlice d.received <;> rfl

/-- What the child makes of a session that the parent sends. -/
theorem Handoff.step_sent {h : Handoff} {rest : List FrozenSession} {sessions : Received}
    (hjson : json.Writes frozen.snapshot) (hparent : h.parent = .sending (frozen :: rest))
    (hchild : h.child = .receiving sessions) (hempty : h.toChild = []) :
    ∃ h₁ h₂, h.step json (.parentSends .ok) = some h₁ ∧
      h₁.step json (.childReceives true .ok) = some h₂ ∧
      h₂.child = match json.fromSlice (frozen.snapshot.text.take recvLen) with
        | .ok snapshot => .receiving (sessions ++ [(snapshot, frozen.clientFd)])
        | .error e => .finished (.error e) := by
  obtain ⟨batch, parent, sent, toChild, toParent, child⟩ := h
  obtain rfl : parent = .sending (frozen :: rest) := hparent
  obtain rfl : child = .receiving sessions := hchild
  obtain rfl : toChild = [] := hempty
  have hsend : (Handoff.mk batch (.sending (frozen :: rest)) sent [] toParent
      (.receiving sessions)).step json (.parentSends .ok)
        = some (Handoff.mk batch (.awaiting rest) sent
          [⟨frozen.snapshot.text, some frozen.clientFd⟩] toParent (.receiving sessions)) := by
    simp only [step, sendSession, hjson.toVec, List.nil_append]
  refine ⟨_, _, hsend, rfl, ?_⟩
  exact child_receiveDatagram _ sessions (frozen.snapshot.text_ne_endMarker recvLen) rfl

/-- A session is read exactly if it is not too large. -/
theorem handsOver_iff (hjson : json.Writes frozen.snapshot) :
    HandsOver json frozen ↔ frozen.snapshot.size ≤ recvLen := by
  rw [← frozen.snapshot.length_text]
  constructor
  · intro hover
    by_contra hlong
    obtain ⟨e, he⟩ := hjson.cut recvLen (Nat.lt_of_not_le hlong)
    -- a hand-off of this session alone
    obtain ⟨batch, hbatch⟩ : ∃ batch : FreezeBatch, batch.frozen = [frozen] :=
      ⟨⟨[frozen], [frozen.id], rfl, List.nodup_singleton _, List.nodup_singleton _⟩, rfl⟩
    have hparent : (Handoff.start batch).parent = .sending (frozen :: []) :=
      congrArg Parent.sending hbatch
    obtain ⟨h₁, h₂, hsend, hreceive, hread⟩ := hover _ _ _ hparent rfl rfl
    obtain ⟨h₁', h₂', hsend', hreceive', hread'⟩ := Handoff.step_sent hjson hparent rfl rfl
    obtain rfl := Option.some.inj (hsend.symm.trans hsend')
    obtain rfl := Option.some.inj (hreceive.symm.trans hreceive')
    rw [he] at hread'
    exact nomatch hread.symm.trans hread'
  · intro hfits h rest sessions hparent hchild hempty
    obtain ⟨h₁, h₂, hsend, hreceive, hread⟩ := Handoff.step_sent hjson hparent hchild hempty
    rw [List.take_of_length_le hfits, hjson.fromSlice] at hread
    exact ⟨h₁, h₂, hsend, hreceive, hread⟩

/-- If `sendmsg` takes its datagram, a session goes through the migration channel exactly
if its size does not exceed that of the receive buffer. -/
theorem migrates_iff (hjson : json.Writes (s.freeze fd).snapshot) :
    (Fits json (s.freeze fd) ↔ (s.freeze fd).snapshot.size ≤ recvLen) ∧
      (HandsOver json (s.freeze fd) ↔ (s.freeze fd).snapshot.size ≤ recvLen) :=
  ⟨fits_iff hjson, handsOver_iff hjson⟩

/-! ## Two characters for each byte of the outage buffer -/

theorem SessionSnapshot.two_mul_len_lt_size {snapshot : SessionSnapshot} {p : BufferedPublish}
    (hp : p ∈ snapshot.buffered) : 2 * p.raw.len < snapshot.size := by
  have hsize := JsonText.lt_arraySize (List.mem_map_of_mem (f := BufferedPublish.size) hp)
  have hbytes := JsonText.two_mul_length_lt_bytesSize p.raw.toBytes
  have hlen : p.raw.toBytes.length = p.raw.len := rfl
  rw [BufferedPublish.size] at hsize
  rw [size]
  omega

theorem forwardLoop_held {c : Codec} {p : MqttPacket} {q : QoS} {i : UInt16}
    (down : s.broker = none) (hshape : p.shape = .publish q i)
    (hroom : s.buffer.bytes + (encodeRaw c p).len ≤ outageBufferMaxBytes) :
    ∃ s', forwardLoop c (.running s) (ReferenceCodec.forwarded p) = some (.running s', []) ∧
      s'.buffer = ⟨s.buffer.entries ++ [⟨i, encodeRaw c p, q.toU8⟩],
        s.buffer.bytes + (encodeRaw c p).len⟩ := by
  have hpush : s.buffer.push i (encodeRaw c p) q = .ok ⟨s.buffer.entries
      ++ [⟨i, encodeRaw c p, q.toU8⟩], s.buffer.bytes + (encodeRaw c p).len⟩ :=
    OutageBuffer.push_eq_ok.mpr ⟨hroom, rfl⟩
  have hserviced : serviceOutagePacket c ⟨s.buffer, s.subscriptions, s.windows, []⟩ p .ok
      = .ok ⟨⟨s.buffer.entries ++ [⟨i, encodeRaw c p, q.toU8⟩],
        s.buffer.bytes + (encodeRaw c p).len⟩, s.subscriptions, s.windows, []⟩ := by
    rw [serviceOutagePacket_eq, hshape]
    show (s.buffer.push i (encodeRaw c p) q).map _ = _
    rw [hpush]
    rfl
  rw [forwardLoop_outage down]
  show ∃ s', some (outagePacket c { s with
    client := .fresh [], lastClientActivity := 5000 } p .ok) = _ ∧ _
  rw [outagePacket]
  dsimp only
  rw [hserviced]
  exact ⟨_, rfl, rfl⟩

/-- Writes the texts, and reads the one of this snapshot. -/
def textJson (snapshot : SessionSnapshot) : Json where
  toVec s := .ok s.text
  fromSlice p :=
    if p = snapshot.text then .ok snapshot else .error (invalidData "EOF while parsing an object")
  toVec_object h := by
    rw [← Except.ok.inj h]
    rfl

theorem textJson_writes (snapshot : SessionSnapshot) : (textJson snapshot).Writes snapshot where
  toVec := rfl
  fromSlice := if_pos rfl
  cut n hn := by
    refine ⟨_, if_neg (fun heq => ?_)⟩
    have hlength := congrArg List.length heq
    rw [List.length_take] at hlength
    omega

namespace ReferenceCodec

theorem length_varint (k n : Nat) : (varint k n).length ≤ k := by
  induction k generalizing n with
  | zero => exact Nat.le_refl 0
  | succ k ih =>
      rw [varint]
      split
      · exact Nat.le_add_left 1 k
      · exact Nat.succ_le_succ (ih (n / 128))

/-- A PUBLISH is a little longer than its payload. -/
theorem len_publish (i : NonZeroU16) (payload : Bytes) :
    payload.length ≤ (encode (publish i payload)).len ∧
      (encode (publish i payload)).len ≤ payload.length + 10 := by
  have hlen : (encode (publish i payload)).len
      = (varint 4 (payload.length + 5)).length + (payload.length + 5) + 1 := by
    show (varint 4 _ ++ _).length + 1 = _
    rw [List.length_append]
    simp [text, be16, optionalId]
  have hvarint := length_varint 4 (payload.length + 5)
  omega

/-- A PUBLISH, read after the broker has closed. -/
def heldBack (payload : Bytes) : List Event := [brokerCloses, forwarded (publish one payload)]

theorem run_heldBack {payload : Bytes} (hroom : payload.length + 10 ≤ outageBufferMaxBytes) :
    ∃ s out, (sessionMachine (codec true)).run (.running session) (heldBack payload)
        = some (.running s, out) ∧
      s.buffer = ⟨[⟨1, encode (publish one payload), 1⟩], (encode (publish one payload)).len⟩ := by
  have hlen := (len_publish one payload).2
  have hfits : (encodeRaw (codec true) (publish one payload)).len ≤ outageBufferMaxBytes :=
    Nat.le_trans hlen hroom
  have hcloses : forwardLoop (codec true) (.running session) brokerCloses
      = some (.running (session.loseBroker (.fresh [])), []) := rfl
  obtain ⟨s, hheld, hbuffer⟩ := forwardLoop_held (c := codec true)
    (s := session.loseBroker (.fresh [])) (p := publish one payload) (q := .atLeastOnce) (i := 1)
    rfl rfl ((Nat.zero_add _).symm ▸ hfits)
  refine ⟨s, _, run_cons hcloses (run_cons hheld (Machine.run_nil _ _)), ?_⟩
  rw [hbuffer]
  exact congrArg (OutageBuffer.mk _) (Nat.zero_add _)

end ReferenceCodec

open ReferenceCodec in
/-- A session with entries in both windows, the table and the outage buffer. -/
theorem migrates_busy : ∃ t out,
    (sessionMachine (codec true)).run (.running session) busyOutage = some (.running t, out) ∧
    (t.freeze 7).snapshot.size = 359 ∧ Fits (textJson (t.freeze 7).snapshot) (t.freeze 7) ∧
    HandsOver (textJson (t.freeze 7).snapshot) (t.freeze 7) := by
  have hbusy : (sessionMachine (codec true)).run (.running session) busyOutage
      = some (.running _, _) := rfl
  obtain ⟨t, out, hrun, hsize⟩ : ∃ t out,
      (sessionMachine (codec true)).run (.running session) busyOutage = some (.running t, out) ∧
      (t.freeze 7).snapshot.size = 359 := ⟨_, _, hbusy, by decide⟩
  have hle : (t.freeze 7).snapshot.size ≤ recvLen := hsize.trans_le (by decide)
  obtain ⟨hfits, hover⟩ := migrates_iff (textJson_writes (t.freeze 7).snapshot)
  exact ⟨t, out, hrun, hsize, hfits.mpr hle, hover.mpr hle⟩

open ReferenceCodec in
/-- One PUBLISH of 600000 bytes, held back within all limits, is too large. -/
theorem held_back_too_large : ∃ s out,
    (sessionMachine (codec true)).run (.running session) (heldBack (List.replicate 600000 0))
      = some (.running s, out) ∧
    s.buffer.bytes ≤ outageBufferMaxBytes ∧
    (encode (publish one (List.replicate 600000 0))).len ≤ maxPacketSize ∧
    (textJson (s.freeze 7).snapshot).Writes (s.freeze 7).snapshot ∧
    ∀ json : Json, json.Writes (s.freeze 7).snapshot →
      ¬ Fits json (s.freeze 7) ∧ ¬ HandsOver json (s.freeze 7) := by
  obtain ⟨payload, hpayload⟩ : ∃ payload : Bytes, payload = List.replicate 600000 0 := ⟨_, rfl⟩
  have hlength : payload.length = 600000 := by
    rw [hpayload, List.length_replicate]
  rw [← hpayload]
  obtain ⟨hge, hle⟩ := len_publish one payload
  obtain ⟨s, out, hrun, hbuffer⟩ := run_heldBack (hlength.symm ▸ (by decide) : payload.length + 10 ≤ _)
  have hlarge : ¬ (s.freeze 7).snapshot.size ≤ recvLen := by
    have hmem : ⟨1, encode (publish one payload), 1⟩ ∈ (s.freeze 7).snapshot.buffered := by
      show _ ∈ s.buffer.entries
      rw [hbuffer]
      exact List.mem_singleton.mpr rfl
    have hsize := SessionSnapshot.two_mul_len_lt_size hmem
    have hrecv : recvLen = 1048576 := rfl
    dsimp only at hsize
    omega
  refine ⟨s, out, hrun, ?_, ?_, textJson_writes _, ?_⟩
  · rw [hbuffer]
    show (encode (publish one payload)).len ≤ 1048576
    omega
  · show (encode (publish one payload)).len ≤ 1048576
    omega
  · intro json hjson
    exact ⟨fun hfits => hlarge ((fits_iff hjson).mp hfits),
      fun hover => hlarge ((handsOver_iff hjson).mp hover)⟩

end TrafficDirector
