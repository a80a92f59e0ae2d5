/-
# `TrafficDirector.Session.Withheld` — what the outage buffer holds

While the broker is away, PUBLISHes above QoS 0, PUBRELs, SUBSCRIBEs and UNSUBSCRIBEs
are withheld.  The buffer counts its bytes in `push`, zeroes the count in the flush and
counts anew in `adopt_session`; the record machine below keeps, beside each session, the
client packets read since the last flush.

In every reachable session the buffer is exactly what these packets say, its count is
right and within the limit (`withheld_exactly`).  A packet that does not fit leaves the
buffer as it is and ends the session.
-/
import TrafficDirector.Session.Keepalive

namespace TrafficDirector

open Framing (Reader)

/-! ## `push` in place -/

def OutageBuffer.full : IoError := ⟨.quotaExceeded, "outage buffer full, closing session"⟩

/-- The code of `push`, on the buffer that it changes. -/
def OutageBuffer.pushMut (packetId : UInt16) (raw : RawPacket) (qos : QoS) :
    EStateM IoError OutageBuffer Unit := do
  let b ← get
  if b.bytes + raw.len > outageBufferMaxBytes then
    throw full
  modify (fun b => { b with bytes := b.bytes + raw.len })
  modify (fun b => { b with entries := b.entries ++ [⟨packetId, raw, qos.toU8⟩] })

/-- When it fails, the buffer is as it was. -/
theorem OutageBuffer.pushMut_eq (b : OutageBuffer) (packetId : UInt16) (raw : RawPacket) (qos : QoS) :
    pushMut packetId raw qos b = match b.push packetId raw qos with
      | .ok b' => .ok () b'
      | .error e => .error e b := by
  rw [push]
  by_cases h : b.bytes + raw.len > outageBufferMaxBytes
  · rw [if_pos h]
    rw [pushMut, Script.get_bind, if_pos h]
    rfl
  · rw [if_neg h]
    rw [pushMut, Script.get_bind, if_neg h]
    rfl

/-! ## The packets -/

/-- The packets that are withheld, by their ids. -/
def MqttPacket.withheld : MqttPacket → Option NonZeroU16
  | .v3 (.publish p) | .v5 (.publish p) => if p.qos = .atMostOnce then none else p.packetId
  | .v3 (.publishRelease packetId) => some packetId
  | .v5 (.publishRelease ack) => some ack.packetId
  | .v3 (.subscribe packetId _) => some packetId
  | .v5 (.subscribe subscribe) => some subscribe.packetId
  | .v3 (.unsubscribe packetId _) => some packetId
  | .v5 (.unsubscribe unsubscribe) => some unsubscribe.packetId
  | _ => none

/-- What is kept of a packet. -/
def withheldAs (c : Codec) (p : MqttPacket) : Option (UInt16 × RawPacket) :=
  p.withheld.map (fun i => (i.get, encodeRaw c p))

/-- The client packets read in the outage phase since the last flush.  A session whose
flush fails has ended. -/
def readSince : Outcome → List MqttPacket → Event → List Output → List MqttPacket
  | .running s, ps, .clientRead _ (.packet p) _ _ _, _ => if s.broker.isSome then ps else ps ++ [p]
  | .running _, _, .wait (some _), _ => []
  | _, ps, _, _ => ps

/-- A session with these packets. -/
def withheldMachine (c : Codec) : Machine (Outcome × List MqttPacket) Event Output :=
  (sessionMachine c).record readSince

/-- The buffer is what the packets `ps` say; it is counted exactly, and within the limit. -/
structure Exact (c : Codec) (s : Session) (ps : List MqttPacket) : Prop where
  counted : s.buffer.bytes = (s.buffer.entries.map (fun e => e.raw.len)).sum
  bounded : s.buffer.bytes ≤ outageBufferMaxBytes
  entries : s.buffer.entries.map (fun e => (e.packetId, e.raw)) = ps.filterMap (withheldAs c)

/-- An entry holds an encoded PUBLISH above QoS 0, PUBREL, SUBSCRIBE or UNSUBSCRIBE, under
its id. -/
def Genuine (c : Codec) (entry : BufferedPublish) : Prop :=
  ∃ p i, p.withheld = some i ∧ entry.packetId = i.get ∧ entry.raw = encodeRaw c p ∧
    entry.raw.toBytes ≠ [] ∧ entry.raw.packetType = p.packetType ∧ p.packetType ∈ [3, 6, 8, 10]

/-- A withheld packet read now: it goes to the end of the buffer if it fits; otherwise
nothing is appended, and the session ends. -/
def Takes (c : Codec) (s : Session) (p : MqttPacket) (i : NonZeroU16) : Prop :=
  ∀ now after pong forward,
    if outageBufferMaxBytes < s.buffer.bytes + (encodeRaw c p).len then
      (∀ qos, OutageBuffer.pushMut i.get (encodeRaw c p) qos s.buffer
        = .error OutageBuffer.full s.buffer) ∧
      forwardLoop c (.running s) (.clientRead now (.packet p) after pong forward)
        = some (.ended (.error OutageBuffer.full), [])
    else ∃ s' qos, forwardLoop c (.running s) (.clientRead now (.packet p) after pong forward)
        = some (.running s', []) ∧
      s'.buffer.entries = s.buffer.entries ++ [⟨i.get, encodeRaw c p, qos⟩]

variable {c : Codec} {s s' : Session} {e : Event} {out : List Output} {ps : List MqttPacket}
  {p : MqttPacket} {i : NonZeroU16}

/-! ## One packet -/

theorem Publish.packetId_eq {p : Publish} (h : p.qos ≠ .atMostOnce) :
    p.packetId = some (p.expectId h) :=
  (Option.some_get (p.hasId h)).symm

/-- The handler withholds these packets and no others. -/
theorem bufferedAs_eq_withheld (c : Codec) (p : MqttPacket) :
    (bufferedAs c p).map (fun e => (e.packetId, e.raw)) = withheldAs c p := by
  rcases p with p | p <;> cases p
  case v3.publish p | v5.publish p =>
    unfold bufferedAs withheldAs MqttPacket.withheld
    by_cases h : p.qos = .atMostOnce
    · simp only [MqttPacket.shape, Publish.shape, dif_pos h, if_pos h]
      rfl
    · simp only [MqttPacket.shape, Publish.shape_of_qos h, if_neg h, Publish.packetId_eq h]
      rfl
  all_goals rfl

theorem packetType_of_withheld (h : p.withheld = some i) : p.packetType ∈ [3, 6, 8, 10] := by
  rcases p with p | p <;> cases p
  case v3.publish | v3.publishRelease | v3.subscribe | v3.unsubscribe => simp [MqttPacket.packetType]
  case v5.publish | v5.publishRelease | v5.subscribe | v5.unsubscribe => simp [MqttPacket.packetType]
  all_goals cases h

/-- A withheld packet is pushed, at most after its topics have been tracked. -/
theorem serviceOutagePacket_withheld (h : p.withheld = some i) (s : Serviced) (pong : Sent) :
    ∃ (v : Serviced) (qos : QoS), v.buffer = s.buffer ∧ v.out = s.out ∧
      serviceOutagePacket c s p pong = v.push i.get (encodeRaw c p) qos := by
  rcases p with p | p <;> cases p
  case v3.publish p | v5.publish p =>
    simp only [MqttPacket.withheld] at h
    split at h
    · cases h
    · next hqos =>
        rw [Publish.packetId_eq hqos] at h
        cases h
        exact ⟨s, p.qos, rfl, rfl, dif_neg hqos⟩
  case v3.publishRelease | v5.publishRelease =>
    cases h
    exact ⟨s, .exactlyOnce, rfl, rfl, rfl⟩
  case v3.subscribe | v3.unsubscribe | v5.subscribe | v5.unsubscribe =>
    cases h
    exact ⟨s.track _, .atLeastOnce, rfl, rfl, rfl⟩
  all_goals cases h

theorem Serviced.push_eq (s : Serviced) (packetId : UInt16) (raw : RawPacket) (qos : QoS) :
    s.push packetId raw qos =
      if outageBufferMaxBytes < s.buffer.bytes + raw.len then .error OutageBuffer.full
      else .ok { s with buffer :=
        ⟨s.buffer.entries ++ [⟨packetId, raw, qos.toU8⟩], s.buffer.bytes + raw.len⟩ } := by
  rw [Serviced.push, OutageBuffer.push]
  split
  · rfl
  · rfl

/-- What the outage phase does with a withheld packet, on either side of the limit. -/
theorem takes (h : p.withheld = some i) (down : s.broker = none) : Takes c s p i := by
  intro now after pong forward
  have hdown : s.broker.isSome = false := by rw [down, Option.isSome_none]
  obtain ⟨v, qos, hbuffer, hout, hservice⟩ := serviceOutagePacket_withheld (c := c) h
    ⟨s.buffer, s.subscriptions, s.windows, []⟩ pong
  have hstep : forwardLoop c (.running s) (.clientRead now (.packet p) after pong forward)
      = some (outagePacket c (s.heard now after) p pong) := by
    simp only [forwardLoop, hdown]
    rfl
  rw [hstep, outagePacket]
  have hservice : serviceOutagePacket c ⟨(s.heard now after).buffer,
      (s.heard now after).subscriptions, (s.heard now after).windows, []⟩ p pong
      = v.push i.get (encodeRaw c p) qos := hservice
  rw [hservice, Serviced.push_eq, hbuffer]
  split
  · next hfull =>
      refine ⟨?_, rfl⟩
      intro qos'
      rw [OutageBuffer.pushMut_eq, OutageBuffer.push, if_pos hfull]
      rfl
  · exact ⟨_, qos.toU8, by rw [hout], rfl⟩

/-! ## Runs -/

theorem exact_initial (id : SessionId) (hs : Handshake) (client broker : Reader UInt8) (now : Nat) :
    Exact c (Session.initial id hs client broker now) [] where
  counted := rfl
  bounded := Nat.zero_le _
  entries := rfl

/-- Nothing has changed for the buffer. -/
theorem Exact.of_buffer (h : Exact c s ps) (hbuffer : s'.buffer = s.buffer) : Exact c s' ps where
  counted := by
    rw [hbuffer]
    exact h.counted
  bounded := by
    rw [hbuffer]
    exact h.bounded
  entries := by
    rw [hbuffer]
    exact h.entries

theorem OutageBuffer.counted_iff {b : OutageBuffer} :
    b.Counted ↔ b.bytes = (b.entries.map (fun e => e.raw.len)).sum := by
  constructor
  · intro h
    exact congrArg OutageBuffer.bytes h
  · intro h
    obtain ⟨entries, bytes⟩ := b
    obtain rfl : bytes = (entries.map (fun e => e.raw.len)).sum := h
    rfl

/-- What is serviced stays within the limit. -/
theorem serviceOutagePacket_bounded {s v : Serviced} {pong : Sent} (hs : s.buffer.Counted)
    (hv : serviceOutagePacket c s p pong = .ok v) (h : s.buffer.bytes ≤ outageBufferMaxBytes) :
    v.buffer.bytes ≤ outageBufferMaxBytes := by
  cases hp : p.withheld with
  | none =>
      -- nothing has been appended, so the count is the old one
      have hnone : bufferedAs c p = none := by
        have hmap := bufferedAs_eq_withheld c p
        rw [withheldAs, hp, Option.map_none, Option.map_eq_none_iff] at hmap
        exact hmap
      have hentries := (serviceOutagePacket_ok hv).1
      rw [hnone, Option.toList_none, List.append_nil] at hentries
      have hcount := serviceOutagePacket_counted hs hv
      rw [OutageBuffer.counted_iff, hentries, ← OutageBuffer.counted_iff.mp hs] at hcount
      rw [hcount]
      exact h
  | some i =>
      obtain ⟨v₀, qos, hbuffer, -, hservice⟩ := serviceOutagePacket_withheld (c := c) hp s pong
      rw [hv, Serviced.push_eq] at hservice
      split at hservice
      · cases hservice
      · next hfits =>
          rw [Except.ok.inj hservice]
          exact Nat.le_of_not_lt hfits

/-- A packet serviced in the outage phase. -/
theorem Exact.held (h : Exact c s ps) {v : Serviced} {pong : Sent} (hbuffer : s'.buffer = v.buffer)
    (hv : serviceOutagePacket c ⟨s.buffer, s.subscriptions, s.windows, []⟩ p pong = .ok v) :
    Exact c s' (ps ++ [p]) where
  counted := by
    rw [hbuffer, ← OutageBuffer.counted_iff]
    exact serviceOutagePacket_counted (OutageBuffer.counted_iff.mpr h.counted) hv
  bounded := by
    rw [hbuffer]
    exact serviceOutagePacket_bounded (OutageBuffer.counted_iff.mpr h.counted) hv h.bounded
  entries := by
    rw [hbuffer, (serviceOutagePacket_ok hv).1, List.map_append, h.entries, List.filterMap_append]
    refine congrArg (_ ++ ·) ?_
    rw [List.filterMap_cons, ← bufferedAs_eq_withheld]
    cases bufferedAs c p with
    | none => rfl
    | some entry => rfl

theorem readSince_quiet {e : Event} (h : e.Quiet) :
    readSince (.running s) ps e out = ps := by
  unfold readSince
  split
  · exact h.elim
  · exact h.elim
  · rfl

theorem Exact.step (h : Exact c s ps) (ht : Transition c s e s' out) :
    Exact c s' (readSince (.running s) ps e out) := by
  cases ht with
  | idle quiet same =>
      rw [readSince_quiet quiet]
      exact h.of_buffer same.buffer
  | forwarded up answered =>
      rw [readSince, if_pos up]
      exact h.of_buffer rfl
  | unsent up answered =>
      rw [readSince, if_pos up]
      exact h.of_buffer rfl
  | held down serviced =>
      rw [readSince, if_neg (by rw [down]; exact Bool.false_ne_true)]
      exact h.held rfl serviced
  | delivered up passedOn => exact h.of_buffer rfl
  | lost up quiet => exact h.of_buffer rfl
  | replayed down patched serves => exact ⟨rfl, Nat.zero_le _, rfl⟩
  | migrated id now keepAlive =>
      refine ⟨rfl, ?_, h.entries⟩
      exact Nat.le_trans (Nat.le_of_eq h.counted.symm) h.bounded

/-- The invariant of a session with the packets read. -/
def AllExact (c : Codec) : Outcome × List MqttPacket → Prop
  | (.running s, ps) => Exact c s ps
  | (.ended _, _) => True

theorem run_exact {k : Outcome × List MqttPacket} {es : List Event} (hk : AllExact c k)
    (hrun : (withheldMachine c).run k es = some ((.running s, ps), out)) : Exact c s ps := by
  refine Machine.run_induction (I := AllExact c) ?_ hk hrun
  rintro ⟨o, ps⟩ e ⟨o', ps'⟩ out hk hs
  obtain ⟨hstep, rfl⟩ := Machine.record_step_eq_some.mp hs
  cases o' with
  | ended r => trivial
  | running s' =>
      obtain ⟨s, rfl⟩ := running_of_step hstep
      exact hk.step (forwardLoop_running hstep)

theorem Exact.genuine (h : Exact c s ps) {entry : BufferedPublish} (hentry : entry ∈ s.buffer.entries) :
    Genuine c entry := by
  have hmem : (entry.packetId, entry.raw) ∈ ps.filterMap (withheldAs c) := by
    rw [← h.entries]
    exact List.mem_map_of_mem hentry
  obtain ⟨p, -, hp⟩ := List.mem_filterMap.mp hmem
  obtain ⟨i, hi, heq⟩ := Option.map_eq_some_iff.mp hp
  obtain ⟨hid, hraw⟩ := Prod.mk.inj heq
  refine ⟨p, i, hi, hid.symm, hraw.symm, List.cons_ne_nil _ _, ?_, packetType_of_withheld hi⟩
  rw [← hraw]
  exact c.encode_type p

/-- In every run, whatever has been withheld, flushed, frozen, rolled back and adopted in
it: the buffer is what the client packets read since the last flush say, exactly counted
and within the limit; its entries are what they should be; and the next packet that does
not fit is not appended and ends the session. -/
theorem withheld_exactly {hs : Handshake} {client : Reader UInt8} {id : SessionId} {now : Nat}
    {opening : Opening} {s₀ : Session} {es : List Event}
    (hstart : runSession hs client id now opening = .ok s₀)
    (hrun : (withheldMachine c).run (.running s₀, []) es = some ((.running s, ps), out)) :
    Exact c s ps ∧ (∀ entry ∈ s.buffer.entries, Genuine c entry) ∧
      (s.broker = none → ∀ p i, p.withheld = some i → Takes c s p i) := by
  have hinitial : AllExact c (.running s₀, []) := by
    rw [(runSession_eq_ok.mp hstart).2]
    exact exact_initial ..
  have hexact := run_exact hinitial hrun
  refine ⟨hexact, fun _ hentry => hexact.genuine hentry, ?_⟩
  intro down p i hp
  exact takes hp down

namespace ReferenceCodec

/-- The broker goes away; a PUBLISH is withheld, a PINGREQ is answered; the session is
handed over, and an UNSUBSCRIBE is withheld by the next generation. -/
def withheldTwice : List Event :=
  [brokerCloses, forwarded (publish two [0]), forwarded ping, .migrate 1 9, forwarded unsubscribe]

end ReferenceCodec

open ReferenceCodec in
theorem withheld_exactly_handed_over : ∃ s₀ s out,
    runSession (.ofConnect (codec true) .mqtt3 connectPacket) (.fresh []) 0 0 (opening connack)
      = .ok s₀ ∧
    (withheldMachine (codec true)).run (.running s₀, []) withheldTwice
      = some ((.running s, [publish two [0], ping, unsubscribe]), out) ∧
    Exact (codec true) s [publish two [0], ping, unsubscribe] := by
  have hstart : runSession (.ofConnect (codec true) .mqtt3 connectPacket) (.fresh []) 0 0
      (opening connack) = .ok _ := rfl
  have hrun : (withheldMachine (codec true)).run
      (.running (Session.initial 0 (.ofConnect (codec true) .mqtt3 connectPacket) (.fresh [])
        (.fresh []) 0), []) withheldTwice
      = some ((.running _, [publish two [0], ping, unsubscribe]), _) := rfl
  exact ⟨_, _, _, hstart, hrun, (withheld_exactly hstart hrun).1⟩

end TrafficDirector
