/-
# `TrafficDirector.Session.Entry` — how a session becomes connected

There are two ways into the connected phase: `run_session`, for a client that has
just sent its CONNECT, and the replay of an outage.  Both read the broker's answer
to a CONNECT; neither looks at what the answer says.  `connackChecked_iff` says what
keeps a refusing answer from being taken for success: on the first way nothing but a
failure of the connection, on the second that the replay stops before its first
retransmission.
-/
import TrafficDirector.ReferenceCodec
import TrafficDirector.Session.Transition

namespace TrafficDirector

open Framing (Reader)
open Script

/-! ## The first connection -/

/-- What `handshake` keeps of the client's CONNECT. -/
def Handshake.ofConnect (c : Codec) (version : ProtocolVersion) (connect : MqttPacket) :
    Handshake :=
  ⟨version, (encodeRaw c connect).toBytes, keepAliveOf connect⟩

/-- How broker and client behave while `run_session` connects them. -/
structure Opening where
  /-- the TCP connection to the broker -/
  dial : Sent
  /-- the write of the CONNECT -/
  connect : Sent
  /-- the broker's answer -/
  answer : Next
  after : Reader UInt8
  /-- the write of the answer to the client -/
  forward : Sent
deriving DecidableEq

/-- `io?` -/
def Sent.orElse (err : String → IoError) : Sent → Except IoError Unit
  | .ok => .ok ()
  | .failed e => .error (err e)

/-- The packet read, whatever it is. -/
def Next.expectPacket : Next → Except IoError MqttPacket
  | .packet p => .ok p
  | .error e => .error (invalidData e)
  | .closed => .error ⟨.connectionAborted, "broker closed during handshake"⟩

/-- The session that `run_session` registers and enters `forward_loop` with, `hs`
being what the handshake with the client has left. -/
def runSession (hs : Handshake) (client : Reader UInt8) (id : SessionId) (now : Nat)
    (o : Opening) : Except IoError Session := do
  o.dial.orElse osError
  o.connect.orElse osError
  let _ack ← o.answer.expectPacket
  let hs := { hs with keepAlive := o.answer.keepAliveOr hs.keepAlive }
  o.forward.orElse invalidData
  return Session.initial id hs client o.after now

/-- A CONNACK that accepts the connection. -/
def Next.accepts : Next → Bool
  | .packet (.v3 (.connectAck ack)) => ack.returnCode = .connectionAccepted
  | .packet (.v5 (.connectAck ack)) => ack.reasonCode = .success
  | _ => false

/-- Nothing fails between the two sockets. -/
structure Opening.Carries (o : Opening) : Prop where
  dial : o.dial = .ok
  connect : o.connect = .ok
  answer : o.answer.isPacket = true
  forward : o.forward = .ok

theorem Sent.orElse_eq_ok {err : String → IoError} {io : Sent} {u : Unit} :
    io.orElse err = .ok u ↔ io = .ok := by
  cases io with
  | ok => exact ⟨fun _ => rfl, fun _ => rfl⟩
  | failed e => exact ⟨fun h => (nomatch h), fun h => (nomatch h)⟩

theorem Next.expectPacket_eq_ok {n : Next} :
    (∃ p, n.expectPacket = .ok p) ↔ n.isPacket = true := by
  cases n with
  | packet p => exact ⟨fun _ => rfl, fun _ => ⟨p, rfl⟩⟩
  | error e => exact ⟨fun ⟨_, h⟩ => (nomatch h), fun h => (nomatch h)⟩
  | closed => exact ⟨fun ⟨_, h⟩ => (nomatch h), fun h => (nomatch h)⟩

theorem runSession_eq_ok {hs : Handshake} {client : Reader UInt8} {id : SessionId} {now : Nat}
    {o : Opening} {s : Session} :
    runSession hs client id now o = .ok s ↔ o.Carries ∧
      s = Session.initial id { hs with keepAlive := o.answer.keepAliveOr hs.keepAlive }
        client o.after now := by
  simp only [runSession, except_bind_eq_ok, Sent.orElse_eq_ok]
  constructor
  · rintro ⟨_, hdial, _, hconnect, p, hp, _, hforward, hs⟩
    exact ⟨⟨hdial, hconnect, Next.expectPacket_eq_ok.mp ⟨p, hp⟩, hforward⟩,
      (Except.ok.inj hs).symm⟩
  · rintro ⟨⟨hdial, hconnect, hanswer, hforward⟩, rfl⟩
    obtain ⟨p, hp⟩ := Next.expectPacket_eq_ok.mpr hanswer
    exact ⟨(), hdial, (), hconnect, p, hp, (), hforward, rfl⟩

/-! ## The replay -/

variable {c : Codec} {s : Session} {a : Attempt}

namespace Session

/-- What a replay writes before it comes to the windows. -/
def replayOpening (c : Codec) (s : Session) (raw : Bytes) : List Output :=
  [.toBroker (.connect raw)]
    ++ ((resubscribeFrames s.hs.version s.subscriptions).map .toBroker
    ++ ((s.leftoverPackets c).map .packet).map .toClient)

end Session

/-- The replay fails before it has retransmitted or flushed anything. -/
def NothingReplayed (c : Codec) (s : Session) (a : Attempt) : Prop :=
  ∃ e r, establishBroker c s.hs s.subscriptions (s.replay a) = .error e r ∧
    r.windows = s.windows ∧ r.buffer = s.buffer ∧
    r.out <+: s.replayOpening c (patchedConnect s.hs.connectRaw)

/-- CONNECT, re-SUBSCRIBE, leftover. -/
def replayOpen (c : Codec) (hs : Handshake) (subscriptions : Subscriptions) : ReplayM Unit := do
  replayConnect hs.connectRaw
  readConnack c
  resubscribe hs.version subscriptions
  deliverLeftover c hs.version

/-- Windows and buffer. -/
def catchUp : ReplayM Unit := do
  retransmitBroker
  retransmitClient
  flushBuffer

theorem establishBroker_eq (hs : Handshake) (subscriptions : Subscriptions) :
    establishBroker c hs subscriptions = replayOpen c hs subscriptions >>= fun _ => catchUp := by
  simp only [establishBroker, replayOpen, catchUp, bind_assoc]

/-- The connection gets as far as the windows. -/
structure Opens (c : Codec) (s : Session) (a : Attempt) : Prop where
  patched : ∃ raw, forceSessionResumption s.hs.connectRaw = .ok raw
  connack : a.connack.isConnack = true
  suback : s.subscriptions.entries ≠ [] → a.suback.isPacket = true
  brokerWrites : 1 + (resubscribeFrames s.hs.version s.subscriptions).length ≤ a.brokerWrites
  clientWrites : (s.leftoverPackets c).length ≤ a.clientWrites

/-- The replay of `s` when it comes to the windows. -/
def Session.opened (c : Codec) (s : Session) (a : Attempt) : Replay where
  attempt :=
    { a with
      brokerWrites := a.brokerWrites
        - (1 + (resubscribeFrames s.hs.version s.subscriptions).length)
      clientWrites := a.clientWrites - (s.leftoverPackets c).length }
  windows := s.windows
  buffer := s.buffer
  brokerLeftover := []
  keepAlive := a.connack.keepAliveOr s.hs.keepAlive
  out := s.replayOpening c (patchedConnect s.hs.connectRaw)

theorem replayOpen_eq_ok {u : Unit} {r : Replay} :
    replayOpen c s.hs s.subscriptions (s.replay a) = .ok u r ↔ Opens c s a ∧ r = s.opened c a := by
  simp only [replayOpen, bind_eq_ok, replayConnect_eq_ok, readConnack_eq_ok, resubscribe_eq_ok,
    deliverLeftover_eq_ok]
  constructor
  · rintro ⟨_, _, ⟨raw, hraw, h₁, rfl⟩, _, _, ⟨h₂, rfl⟩, _, _, ⟨h₃, h₃', rfl⟩, h₄, rfl⟩
    simp only [Replay.sentBroker, Session.replay, List.length_cons, List.length_nil] at h₁ h₂ h₃ h₃' h₄
    refine ⟨⟨⟨raw, hraw⟩, h₂, h₃', by omega, h₄⟩, ?_⟩
    simp [Session.opened, Replay.sentBroker, Replay.sentClient, Session.replay,
      Session.replayOpening, Session.leftoverPackets, patchedConnect_ok hraw, Nat.sub_sub]
  · rintro ⟨⟨⟨raw, hraw⟩, h₂, h₃', h₃, h₄⟩, rfl⟩
    refine ⟨(), _, ⟨raw, hraw, ?_, rfl⟩, (), _, ⟨h₂, rfl⟩, (), _, ⟨?_, h₃', rfl⟩, h₄, ?_⟩
    · show 0 < a.brokerWrites
      omega
    · simp only [Replay.sentBroker, Session.replay, List.length_cons, List.length_nil]
      omega
    · simp [Session.opened, Replay.sentBroker, Replay.sentClient, Session.replay,
        Session.replayOpening, Session.leftoverPackets, patchedConnect_ok hraw, Nat.sub_sub]

/-! ## What writing leaves alone -/

/-- Only bytes are written: windows and buffer stay, and nothing written is taken back. -/
def OnlyWrites (r r' : Replay) : Prop :=
  r'.windows = r.windows ∧ r'.buffer = r.buffer ∧ r.out <+: r'.out

theorem OnlyWrites.refl (r : Replay) : OnlyWrites r r := ⟨rfl, rfl, List.prefix_refl _⟩

theorem OnlyWrites.trans (r r' r'' : Replay) (h : OnlyWrites r r') (h' : OnlyWrites r' r'') :
    OnlyWrites r r'' :=
  ⟨h'.1.trans h.1, h'.2.1.trans h.2.1, h.2.2.trans h'.2.2⟩

theorem writeBroker_moves (err : String → IoError) (f : Frame) :
    Moves OnlyWrites (writeBroker err f) where
  ok _ _ _ h := (writeBroker_eq_ok.mp h).2 ▸ ⟨rfl, rfl, List.prefix_append _ _⟩
  error r _ _ h := writeBroker_error h ▸ .refl r

theorem writeClient_moves (err : String → IoError) (f : Frame) :
    Moves OnlyWrites (writeClient err f) where
  ok _ _ _ h := (writeClient_eq_ok.mp h).2 ▸ ⟨rfl, rfl, List.prefix_append _ _⟩
  error r _ _ h := writeClient_error h ▸ .refl r

theorem replayConnect_moves (connectRaw : Bytes) :
    Moves OnlyWrites (replayConnect connectRaw) := by
  unfold replayConnect
  split
  · exact Moves.throw OnlyWrites.refl _
  · exact writeBroker_moves _ _

theorem readConnack_moves (c : Codec) : Moves OnlyWrites (readConnack c) where
  ok _ _ _ h := (readConnack_eq_ok.mp h).2 ▸ ⟨rfl, rfl, List.prefix_refl _⟩
  error r _ _ h := readConnack_error h ▸ .refl r

theorem readSuback_moves : Moves OnlyWrites readSuback where
  ok r _ _ h := (readSuback_eq_ok.mp h).2 ▸ .refl r
  error r _ _ h := readSuback_error h ▸ .refl r

theorem resubscribe_moves (v : ProtocolVersion) (subs : Subscriptions) :
    Moves OnlyWrites (resubscribe v subs) := by
  unfold resubscribe
  split
  · exact Moves.pure OnlyWrites.refl ()
  · exact (writeBroker_moves _ _).bind OnlyWrites.trans (fun _ => readSuback_moves)

theorem deliverLeftover_moves (c : Codec) (v : ProtocolVersion) :
    Moves OnlyWrites (deliverLeftover c v) := by
  refine Moves.get_bind (fun r => Moves.bind OnlyWrites.trans ?_ (fun _ => ?_))
  · exact Moves.forM OnlyWrites.refl OnlyWrites.trans (fun p => writeClient_moves _ _) _
  · exact Moves.modify (fun r => ⟨rfl, rfl, List.prefix_refl _⟩)

theorem retransmitBroker_moves : Moves OnlyWrites retransmitBroker :=
  Moves.get_bind (fun _ =>
    Moves.forM OnlyWrites.refl OnlyWrites.trans (fun _ => writeBroker_moves _ _) _)

theorem retransmitClient_moves : Moves OnlyWrites retransmitClient :=
  Moves.get_bind (fun _ =>
    Moves.forM OnlyWrites.refl OnlyWrites.trans (fun _ => writeClient_moves _ _) _)

theorem replayOpen_moves (c : Codec) (hs : Handshake) (subs : Subscriptions) :
    Moves OnlyWrites (replayOpen c hs subs) := by
  refine (replayConnect_moves _).bind OnlyWrites.trans (fun _ => ?_)
  refine (readConnack_moves c).bind OnlyWrites.trans (fun _ => ?_)
  exact (resubscribe_moves _ _).bind OnlyWrites.trans (fun _ => deliverLeftover_moves c _)

/-- The same of a step that may change the windows. -/
def KeepsBuffer (r r' : Replay) : Prop := r'.buffer = r.buffer

theorem KeepsBuffer.refl (r : Replay) : KeepsBuffer r r := rfl

theorem KeepsBuffer.trans (r r' r'' : Replay) (h : KeepsBuffer r r') (h' : KeepsBuffer r' r'') :
    KeepsBuffer r r'' :=
  Eq.trans h' h

theorem flushEntry_moves (b : BufferedPublish) : Moves KeepsBuffer (flushEntry b) := by
  refine Moves.bind KeepsBuffer.trans (Moves.modify (fun r => KeepsBuffer.refl _)) (fun _ => ?_)
  exact ⟨fun r u r' h => ((writeBroker_moves _ _).ok r u r' h).2.1,
    fun r e r' h => ((writeBroker_moves _ _).error r e r' h).2.1⟩

/-- A flush takes all entries out, whether or not it writes them. -/
theorem flushBuffer_entries {e : IoError} {r r' : Replay} (h : flushBuffer r = .error e r') :
    r'.buffer.entries = [] := by
  have hloop := Moves.forM KeepsBuffer.refl KeepsBuffer.trans flushEntry_moves r.buffer.entries
  rw [flushBuffer, get_bind, bind_eq_error] at h
  rcases h with h | ⟨_, r₁, h₁, h⟩
  · cases h
  · rw [modify_eq_ok.mp h₁] at h
    rcases bind_eq_error.mp h with h | ⟨_, r₂, h₂, h⟩
    · rw [hloop.error _ e r' h]
    · cases h

/-! ## Catching up -/

/-- Only the log may have changed, and it has only grown. -/
def Grows (r r' : Replay) : Prop := r.out <+: r'.out

theorem Grows.refl (r : Replay) : Grows r r := List.prefix_refl _

theorem Grows.trans (r r' r'' : Replay) (h : Grows r r') (h' : Grows r' r'') : Grows r r'' :=
  List.IsPrefix.trans h h'

theorem OnlyWrites.moves {x : ReplayM Unit} (h : Moves OnlyWrites x) : Moves Grows x where
  ok r u r' h' := (h.ok r u r' h').2.2
  error r e r' h' := (h.error r e r' h').2.2

theorem flushBuffer_moves : Moves Grows flushBuffer := by
  refine Moves.get_bind (fun r => Moves.bind Grows.trans (Moves.modify Grows.refl) (fun _ => ?_))
  refine Moves.bind Grows.trans (Moves.forM Grows.refl Grows.trans (fun b => ?_) _)
    (fun _ => Moves.modify Grows.refl)
  exact Moves.bind Grows.trans (Moves.modify Grows.refl)
    (fun _ => OnlyWrites.moves (writeBroker_moves _ _))

/-- The script fails before it has written anything or changed windows or buffer. -/
def FailsAtOnce (x : ReplayM Unit) (r : Replay) : Prop :=
  ∃ e r', x r = .error e r' ∧ r'.windows = r.windows ∧ r'.buffer = r.buffer ∧ r'.out <+: r.out

/-- A script that starts with a write fails at once when that write fails. -/
theorem failsAtOnce_bind {w : ReplayM Unit} {k : Unit → ReplayM Unit} {r : Replay} {o : Output}
    (hok : ∀ u r', w r = .ok u r' → r'.out = r.out ++ [o])
    (herr : ∀ e r', w r = .error e r' → r' = r) (hk : ∀ u, Moves Grows (k u)) :
    FailsAtOnce (w >>= k) r ↔ ∃ e r', w r = .error e r' := by
  constructor
  · rintro ⟨e, r', h, -, -, hout⟩
    rcases bind_eq_error.mp h with h | ⟨u, r₁, h₁, h⟩
    · exact ⟨e, r', h⟩
    · have hgrows := List.IsPrefix.trans ((hk u).error r₁ e r' h) hout
      rw [hok u r₁ h₁] at hgrows
      have hlen := hgrows.length_le
      simp only [List.length_append, List.length_singleton] at hlen
      omega
  · rintro ⟨e, r', h⟩
    obtain rfl := herr e r' h
    exact ⟨e, r', bind_eq_error.mpr (Or.inl h), rfl, rfl, List.prefix_refl _⟩

theorem writeBroker_fails {err : String → IoError} {f : Frame} {r : Replay} :
    (∃ e r', writeBroker err f r = .error e r') ↔ r.attempt.brokerWrites = 0 := by
  unfold writeBroker
  split
  · next h => exact ⟨fun _ => h, fun _ => ⟨_, _, rfl⟩⟩
  · next h => exact ⟨fun ⟨_, _, h'⟩ => (nomatch h'), fun h' => absurd h' h⟩

theorem writeClient_fails {err : String → IoError} {f : Frame} {r : Replay} :
    (∃ e r', writeClient err f r = .error e r') ↔ r.attempt.clientWrites = 0 := by
  unfold writeClient
  split
  · next h => exact ⟨fun _ => h, fun _ => ⟨_, _, rfl⟩⟩
  · next h => exact ⟨fun ⟨_, _, h'⟩ => (nomatch h'), fun h' => absurd h' h⟩

theorem flushBuffer_failsAtOnce (r : Replay) : ¬ FailsAtOnce flushBuffer r := by
  rintro ⟨e, r', h, -, hbuffer, -⟩
  have hnil : r.buffer.entries = [] := hbuffer ▸ flushBuffer_entries h
  have hfits : r.buffer.entries.length ≤ r.attempt.brokerWrites := by
    rw [hnil]
    exact Nat.zero_le _
  exact nomatch h.symm.trans (flushBuffer_eq_ok (u := ()).mpr ⟨hfits, rfl⟩)

theorem catchUp_failsAtOnce {r : Replay} : FailsAtOnce catchUp r ↔
    (r.windows.brokerRetransmits ≠ [] ∧ r.attempt.brokerWrites = 0) ∨
    (r.windows.brokerRetransmits = [] ∧ r.windows.clientRetransmits ≠ [] ∧
      r.attempt.clientWrites = 0) := by
  have hrest : ∀ u : Unit, Moves Grows (retransmitClient >>= fun _ => flushBuffer) := fun _ =>
    Moves.bind Grows.trans (OnlyWrites.moves retransmitClient_moves) (fun _ => flushBuffer_moves)
  cases hb : r.windows.brokerRetransmits with
  | cons raw raws =>
      have hfirst : catchUp r = (writeBroker osError (.raw raw) >>= fun _ =>
          raws.forM (fun raw => writeBroker osError (.raw raw)) >>= fun u =>
            (retransmitClient >>= fun _ => flushBuffer)) r := by
        rw [catchUp, retransmitBroker, bind_assoc, get_bind, hb]
        exact congrFun (bind_assoc _ _ _) r
      rw [FailsAtOnce, hfirst]
      refine (failsAtOnce_bind (o := .toBroker (.raw raw)) (fun u r' h => ?_)
        (fun e r' h => writeBroker_error h)
        (fun u => ?_)).trans ?_
      · exact (writeBroker_eq_ok.mp h).2 ▸ rfl
      · refine Moves.bind Grows.trans ?_ hrest
        exact OnlyWrites.moves
          (Moves.forM OnlyWrites.refl OnlyWrites.trans (fun _ => writeBroker_moves _ _) _)
      · rw [writeBroker_fails]
        simp
  | nil =>
      have hsilent : catchUp r = (retransmitClient >>= fun _ => flushBuffer) r := by
        rw [catchUp, retransmitBroker, bind_assoc, get_bind, hb]
        rfl
      rw [FailsAtOnce, hsilent]
      cases hcl : r.windows.clientRetransmits with
      | cons raw raws =>
          have hfirst : (retransmitClient >>= fun _ => flushBuffer) r
              = (writeClient osError (.raw raw) >>= fun _ =>
                raws.forM (fun raw => writeClient osError (.raw raw)) >>= fun u =>
                  flushBuffer) r := by
            rw [retransmitClient, bind_assoc, get_bind, hcl]
            exact congrFun (bind_assoc _ _ _) r
          rw [hfirst]
          refine (failsAtOnce_bind (o := .toClient (.raw raw)) (fun u r' h => ?_)
            (fun e r' h => writeClient_error h)
            (fun u => ?_)).trans ?_
          · exact (writeClient_eq_ok.mp h).2 ▸ rfl
          · refine Moves.bind Grows.trans ?_ (fun _ => flushBuffer_moves)
            exact OnlyWrites.moves
              (Moves.forM OnlyWrites.refl OnlyWrites.trans (fun _ => writeClient_moves _ _) _)
          · rw [writeClient_fails]
            simp
      | nil =>
          have hflush : (retransmitClient >>= fun _ => flushBuffer) r = flushBuffer r := by
            rw [retransmitClient, bind_assoc, get_bind, hcl]
            rfl
          rw [hflush]
          refine ⟨fun h => absurd h (flushBuffer_failsAtOnce r), ?_⟩
          simp

/-! ## Refused connections -/

/-- The replay does not come to the windows, or its first retransmission fails. -/
def StopsShort (c : Codec) (s : Session) (a : Attempt) : Prop :=
  ¬ Opens c s a ∨
  (s.windows.brokerRetransmits ≠ [] ∧
    a.brokerWrites = 1 + (resubscribeFrames s.hs.version s.subscriptions).length) ∨
  (s.windows.brokerRetransmits = [] ∧ s.windows.clientRetransmits ≠ [] ∧
    a.clientWrites = (s.leftoverPackets c).length)

theorem replayOpen_out {e : IoError} {r : Replay}
    (h : replayOpen c s.hs s.subscriptions (s.replay a) = .error e r) :
    r.out <+: s.replayOpening c (patchedConnect s.hs.connectRaw) := by
  cases hraw : forceSessionResumption s.hs.connectRaw with
  | error e' =>
      rw [replayOpen, replayConnect, hraw] at h
      rw [← (EStateM.Result.error.inj h).2]
      exact List.nil_prefix
  | ok raw =>
      have hconnect : Follows Replay.out (replayConnect s.hs.connectRaw) (s.replay a)
          [.toBroker (.connect raw)] := by
        unfold replayConnect
        rw [hraw]
        exact writeBroker_follows _ _ _
      rw [patchedConnect_ok hraw]
      refine (hconnect.bind (fun r₁ h₁ => ?_)).error e r h
      obtain ⟨_, -, -, rfl⟩ := replayConnect_eq_ok.mp h₁
      refine (readConnack_follows c _).bind_silent (fun r₂ h₂ => ?_)
      obtain ⟨-, rfl⟩ := readConnack_eq_ok.mp h₂
      refine (resubscribe_follows _ _ _).bind (fun r₃ h₃ => ?_)
      obtain ⟨-, -, rfl⟩ := resubscribe_eq_ok.mp h₃
      exact deliverLeftover_follows c _ _

theorem nothingReplayed_iff : NothingReplayed c s a ↔ StopsShort c s a := by
  rw [NothingReplayed, establishBroker_eq]
  by_cases hopen : Opens c s a
  · have hok := replayOpen_eq_ok (u := ()).mpr ⟨hopen, rfl⟩
    have hrest : (replayOpen c s.hs s.subscriptions >>= fun _ => catchUp) (s.replay a)
        = catchUp (s.opened c a) := bind_of_ok hok
    have hb := hopen.brokerWrites
    have hc := hopen.clientWrites
    rw [hrest]
    refine (catchUp_failsAtOnce (r := s.opened c a)).trans ?_
    show (s.windows.brokerRetransmits ≠ [] ∧ a.brokerWrites - _ = 0) ∨
      (s.windows.brokerRetransmits = [] ∧ s.windows.clientRetransmits ≠ [] ∧
        a.clientWrites - _ = 0) ↔ _
    rw [StopsShort, or_iff_right (not_not_intro hopen)]
    refine or_congr (and_congr_right (fun _ => ?_))
      (and_congr_right (fun _ => and_congr_right (fun _ => ?_)))
    · omega
    · omega
  · refine ⟨fun _ => Or.inl hopen, fun _ => ?_⟩
    cases h : replayOpen c s.hs s.subscriptions (s.replay a) with
    | ok u r => exact absurd (replayOpen_eq_ok.mp h).1 hopen
    | error e r =>
        obtain ⟨hwindows, hbuffer, -⟩ := (replayOpen_moves c s.hs s.subscriptions).error _ e r h
        exact ⟨e, r, bind_eq_error.mpr (Or.inl h), hwindows, hbuffer, replayOpen_out h⟩

/-- `run_session` enters the loop on an accepting answer only. -/
def EntersAccepted (hs : Handshake) (client : Reader UInt8) (id : SessionId) (now : Nat)
    (o : Opening) : Prop :=
  ∀ s, runSession hs client id now o = .ok s → o.answer.accepts = true

/-- Without an accepting answer, `establish_broker` fails with windows and buffer as
they were and nothing of them written. -/
def ReplaysAccepted (c : Codec) (s : Session) (a : Attempt) : Prop :=
  a.connack.accepts = false → NothingReplayed c s a

/-- An answer that does not accept the connection stops the session from being
connected exactly when something else stops it. -/
theorem connackChecked_iff (c : Codec) (hs : Handshake) (client : Reader UInt8) (id : SessionId)
    (now : Nat) (o : Opening) (s : Session) (a : Attempt) :
    (EntersAccepted hs client id now o ↔ (o.Carries → o.answer.accepts = true)) ∧
    (ReplaysAccepted c s a ↔ a.connack.accepts = true ∨ StopsShort c s a) := by
  constructor
  · constructor
    · exact fun h ho => h _ (runSession_eq_ok.mpr ⟨ho, rfl⟩)
    · exact fun h s hs => h (runSession_eq_ok.mp hs).1
  · rw [ReplaysAccepted, nothingReplayed_iff]
    cases a.connack.accepts with
    | true => exact ⟨fun _ => Or.inl rfl, fun _ h => (nomatch h)⟩
    | false => exact ⟨fun h => Or.inr (h rfl), fun h _ => h.resolve_left (fun h' => nomatch h')⟩

namespace ReferenceCodec

def notAuthorized : Next := .packet (.v3 (.connectAck ⟨.notAuthorized, false⟩))

/-- The broker refuses the CONNECT, and its side of the socket takes what it is sent. -/
def refuses : Attempt := ⟨10, 10, notAuthorized, .closed, .fresh [], ""⟩

end ReferenceCodec

open ReferenceCodec in
/-- A refused client is in the loop; a refused replay has emptied the buffer of an
UNSUBSCRIBE into a connection that the broker is about to close. -/
theorem refused_connack_taken :
    ¬ EntersAccepted handshake (.fresh []) 0 0 ⟨.ok, .ok, notAuthorized, .fresh [], .ok⟩ ∧
    ∃ t out, (sessionMachine (codec true)).run (.running session)
        [brokerCloses, forwarded unsubscribe] = some (.running t, out) ∧
      t.buffer.entries.map (fun b => b.raw) = [encode unsubscribe] ∧
      (∃ r, establishBroker (codec true) t.hs t.subscriptions (t.replay refuses) = .ok () r ∧
        r.buffer = .empty) ∧
      ¬ ReplaysAccepted (codec true) t refuses := by
  refine ⟨fun h => absurd (h _ rfl) (by decide), _, _, rfl, rfl, ⟨_, rfl, rfl⟩, fun h => ?_⟩
  obtain ⟨e, r, h, -⟩ := h rfl
  exact nomatch h

end TrafficDirector
