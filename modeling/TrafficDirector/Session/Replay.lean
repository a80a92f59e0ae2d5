/-
# `TrafficDirector.Session.Replay` — what one replay does

`establish_broker` has some ten steps that can fail.  This module says once what
it does as a whole, so that nothing later unfolds it:

* `establishBroker_eq_ok`: it succeeds iff the broker and the client `serve` the
  attempt, and then in one given state, with all of `replayPlan` written;
* `establishBroker_follows`: when it fails, a prefix of the plan was written;
* `connectBroker_cases`: both, as the step of the outage phase.
-/
import TrafficDirector.Lib.Script
import TrafficDirector.Session.Forward

namespace TrafficDirector

open Framing (Reader)
open Script

namespace Replay

/-- After writing `fs` to the broker. -/
def sentBroker (r : Replay) (fs : List Frame) : Replay :=
  { r with
    attempt := { r.attempt with brokerWrites := r.attempt.brokerWrites - fs.length }
    out := r.out ++ fs.map .toBroker }

/-- After writing `fs` to the client. -/
def sentClient (r : Replay) (fs : List Frame) : Replay :=
  { r with
    attempt := { r.attempt with clientWrites := r.attempt.clientWrites - fs.length }
    out := r.out ++ fs.map .toClient }

theorem sentBroker_cons (r : Replay) (f : Frame) (fs : List Frame) :
    r.sentBroker (f :: fs) = (r.sentBroker [f]).sentBroker fs := by
  simp [sentBroker, Nat.sub_sub, Nat.add_comm]

theorem sentClient_cons (r : Replay) (f : Frame) (fs : List Frame) :
    r.sentClient (f :: fs) = (r.sentClient [f]).sentClient fs := by
  simp [sentClient, Nat.sub_sub, Nat.add_comm]

theorem foldl_sentBroker {α : Type} (f : α → Frame) (l : List α) (r : Replay) :
    l.foldl (fun r a => r.sentBroker [f a]) r = r.sentBroker (l.map f) := by
  induction l generalizing r with
  | nil => simp [sentBroker]
  | cons a l ih => rw [List.foldl_cons, ih, List.map_cons, ← sentBroker_cons]

theorem foldl_sentClient {α : Type} (f : α → Frame) (l : List α) (r : Replay) :
    l.foldl (fun r a => r.sentClient [f a]) r = r.sentClient (l.map f) := by
  induction l generalizing r with
  | nil => simp [sentClient]
  | cons a l ih => rw [List.foldl_cons, ih, List.map_cons, ← sentClient_cons]

end Replay

/-! ## The parts -/

theorem writeBroker_eq_ok {err : String → IoError} {f : Frame} {u : Unit} {r r' : Replay} :
    writeBroker err f r = .ok u r' ↔ 0 < r.attempt.brokerWrites ∧ r' = r.sentBroker [f] := by
  unfold writeBroker
  split
  · next h => simp [h]
  · next h =>
      constructor
      · intro e; exact ⟨by omega, (EStateM.Result.ok.inj e).2.symm⟩
      · rintro ⟨-, rfl⟩; rfl

theorem writeClient_eq_ok {err : String → IoError} {f : Frame} {u : Unit} {r r' : Replay} :
    writeClient err f r = .ok u r' ↔ 0 < r.attempt.clientWrites ∧ r' = r.sentClient [f] := by
  unfold writeClient
  split
  · next h => simp [h]
  · next h =>
      constructor
      · intro e; exact ⟨by omega, (EStateM.Result.ok.inj e).2.symm⟩
      · rintro ⟨-, rfl⟩; rfl

theorem forM_writeBroker_eq_ok {α : Type} {err : String → IoError} {f : α → Frame} {l : List α}
    {u : Unit} {r r' : Replay} :
    l.forM (fun a => writeBroker err (f a)) r = .ok u r' ↔
      l.length ≤ r.attempt.brokerWrites ∧ r' = r.sentBroker (l.map f) := by
  rw [← Replay.foldl_sentBroker]
  exact forM_eq_ok (fun r : Replay => r.attempt.brokerWrites)
    (fun a r r' => writeBroker_eq_ok) (fun r a => rfl)

theorem forM_writeClient_eq_ok {α : Type} {err : String → IoError} {f : α → Frame} {l : List α}
    {u : Unit} {r r' : Replay} :
    l.forM (fun a => writeClient err (f a)) r = .ok u r' ↔
      l.length ≤ r.attempt.clientWrites ∧ r' = r.sentClient (l.map f) := by
  rw [← Replay.foldl_sentClient]
  exact forM_eq_ok (fun r : Replay => r.attempt.clientWrites)
    (fun a r r' => writeClient_eq_ok) (fun r a => rfl)

/-- After flushing `es` into the c2b window and to the broker. -/
def Replay.flushed (r : Replay) (es : List BufferedPublish) : Replay :=
  { r.sentBroker (es.map (fun e => .raw e.raw)) with
    windows := es.foldl flushWindow r.windows }

theorem foldl_flushed (es : List BufferedPublish) (r : Replay) :
    es.foldl (fun r e => r.flushed [e]) r = r.flushed es := by
  induction es generalizing r with
  | nil => simp [Replay.flushed, Replay.sentBroker]
  | cons e es ih =>
      rw [List.foldl_cons, ih]
      simp [Replay.flushed, Replay.sentBroker, Nat.sub_sub, Nat.add_comm]

theorem flushEntry_eq_ok {e : BufferedPublish} {r r' : Replay} :
    flushEntry e r = .ok () r' ↔ 0 < r.attempt.brokerWrites ∧ r' = r.flushed [e] := by
  simp only [flushEntry, bind_eq_ok, modify_eq_ok, writeBroker_eq_ok]
  constructor
  · rintro ⟨_, r₁, rfl, h⟩; exact h
  · intro h; exact ⟨(), _, rfl, h⟩

theorem replayConnect_eq_ok {connectRaw : Bytes} {u : Unit} {r r' : Replay} :
    replayConnect connectRaw r = .ok u r' ↔ ∃ raw, forceSessionResumption connectRaw = .ok raw ∧
      0 < r.attempt.brokerWrites ∧ r' = r.sentBroker [.connect raw] := by
  unfold replayConnect
  cases forceSessionResumption connectRaw with
  | error e => simp
  | ok raw => simp [writeBroker_eq_ok]

def Next.isConnack : Next → Bool
  | .packet (.v3 (.connectAck _)) | .packet (.v5 (.connectAck _)) => true
  | _ => false

def Next.isPacket : Next → Bool
  | .packet _ => true
  | _ => false

/-- The keepalive after this CONNACK. -/
def Next.keepAliveOr (keepAlive : UInt16) : Next → UInt16
  | .packet (.v5 (.connectAck ack)) => ack.serverKeepaliveSec.getD keepAlive
  | _ => keepAlive

theorem readConnack_eq_ok {c : Codec} {u : Unit} {r r' : Replay} :
    readConnack c r = .ok u r' ↔ r.attempt.connack.isConnack = true ∧
      r' = { r with keepAlive := r.attempt.connack.keepAliveOr r.keepAlive } := by
  rw [readConnack, get_bind]
  cases r.attempt.connack with
  | error e => simp [Next.isConnack]
  | closed => simp [Next.isConnack]
  | packet p =>
      rcases p with p | p <;> cases p
      case v5.connectAck ack =>
        cases hk : ack.serverKeepaliveSec with
        | none => simp [hk, Next.isConnack, Next.keepAliveOr]
        | some secs => simp [hk, Next.isConnack, Next.keepAliveOr]
      all_goals simp [Next.isConnack, Next.keepAliveOr]

/-- The re-SUBSCRIBE, as the frames it takes. -/
def resubscribeFrames (version : ProtocolVersion) (subscriptions : Subscriptions) : List Frame :=
  (subscriptions.resubscribePacket version).toList.map .packet

theorem readSuback_eq_ok {u : Unit} {r r' : Replay} :
    readSuback r = .ok u r' ↔ r.attempt.suback.isPacket = true ∧ r' = r := by
  rw [readSuback, get_bind]
  cases r.attempt.suback with
  | error e => simp [Next.isPacket]
  | closed => simp [Next.isPacket]
  | packet p => rcases p with p | p <;> cases p <;> simp [Next.isPacket]

theorem resubscribe_eq_ok {v : ProtocolVersion} {subs : Subscriptions} {u : Unit}
    {r r' : Replay} :
    resubscribe v subs r = .ok u r' ↔
      (resubscribeFrames v subs).length ≤ r.attempt.brokerWrites ∧
      (subs.entries ≠ [] → r.attempt.suback.isPacket = true) ∧
      r' = r.sentBroker (resubscribeFrames v subs) := by
  unfold resubscribe resubscribeFrames
  cases h : subs.resubscribePacket v with
  | none => simp [Subscriptions.resubscribePacket_eq_none.mp h, Replay.sentBroker]
  | some p =>
      have hne : subs.entries ≠ [] := by
        intro he
        rw [Subscriptions.resubscribePacket_eq_none.mpr he] at h
        exact absurd h (by simp)
      simp only [bind_eq_ok, writeBroker_eq_ok, readSuback_eq_ok]
      constructor
      · rintro ⟨_, r₁, ⟨hpos, rfl⟩, hp, rfl⟩
        exact ⟨hpos, fun _ => hp, rfl⟩
      · rintro ⟨hpos, hp, rfl⟩
        exact ⟨(), _, ⟨hpos, rfl⟩, hp hne, rfl⟩

theorem deliverLeftover_eq_ok {c : Codec} {v : ProtocolVersion} {u : Unit} {r r' : Replay} :
    deliverLeftover c v r = .ok u r' ↔
      (c.decodeAll v r.brokerLeftover).length ≤ r.attempt.clientWrites ∧
      r' = { r.sentClient ((c.decodeAll v r.brokerLeftover).map .packet) with
        brokerLeftover := [] } := by
  simp only [deliverLeftover, get_bind, bind_eq_ok, forM_writeClient_eq_ok, modify_eq_ok]
  constructor
  · rintro ⟨_, r₁, ⟨h, rfl⟩, rfl⟩; exact ⟨h, rfl⟩
  · rintro ⟨h, rfl⟩; exact ⟨(), _, ⟨h, rfl⟩, rfl⟩

theorem forM_flushEntry_eq_ok {es : List BufferedPublish} {u : Unit} {r r' : Replay} :
    es.forM flushEntry r = .ok u r' ↔ es.length ≤ r.attempt.brokerWrites ∧ r' = r.flushed es := by
  rw [← foldl_flushed]
  exact forM_eq_ok (fun r : Replay => r.attempt.brokerWrites)
    (fun e r r' => flushEntry_eq_ok) (fun r e => rfl)

/-- The buffer with its entries taken out. -/
def Replay.drained (r : Replay) : Replay := { r with buffer := { r.buffer with entries := [] } }

theorem flushBuffer_eq_ok {u : Unit} {r r' : Replay} :
    flushBuffer r = .ok u r' ↔ r.buffer.entries.length ≤ r.attempt.brokerWrites ∧
      r' = { r.flushed r.buffer.entries with buffer := .empty } := by
  simp only [flushBuffer, get_bind, bind_eq_ok, forM_flushEntry_eq_ok, modify_eq_ok]
  constructor
  · rintro ⟨_, _, rfl, _, _, ⟨h, rfl⟩, rfl⟩; exact ⟨h, rfl⟩
  · rintro ⟨h, rfl⟩; exact ⟨(), r.drained, rfl, (), _, ⟨h, rfl⟩, rfl⟩

/-! ## The flush -/

def flushBindings (entries : List BufferedPublish) : List (UInt16 × (C2bState × RawPacket)) :=
  entries.filterMap flushBinding

theorem foldl_flushWindow (entries : List BufferedPublish) (w : InflightWindows) :
    entries.foldl flushWindow w = { w with c2b := w.c2b.insertAll (flushBindings entries) } := by
  induction entries generalizing w with
  | nil => rfl
  | cons e es ih =>
      rw [List.foldl_cons, ih]
      cases h : flushBinding e with
      | none => simp [flushWindow, flushBindings, h]
      | some b => simp [flushWindow, flushBindings, h, InflightWindows.insertC2bRaw]

/-! ## The whole -/

/-- The CONNECT as a replay sends it. -/
def patchedConnect (connectRaw : Bytes) : Bytes :=
  match forceSessionResumption connectRaw with
  | .ok raw => raw
  | .error _ => []

theorem patchedConnect_ok {connectRaw raw : Bytes}
    (h : forceSessionResumption connectRaw = .ok raw) : patchedConnect connectRaw = raw := by
  rw [patchedConnect, h]

namespace Session

/-- The complete packets in the leftover. -/
def leftoverPackets (c : Codec) (s : Session) : List MqttPacket :=
  c.decodeAll s.hs.version s.brokerLeftover

/-- What a replay writes when nothing goes wrong; `raw` is the patched CONNECT. -/
def replayPlan (c : Codec) (s : Session) (raw : Bytes) : List Output :=
  [.toBroker (.connect raw)]
    ++ ((resubscribeFrames s.hs.version s.subscriptions).map .toBroker
    ++ (((s.leftoverPackets c).map .packet).map .toClient
    ++ ((s.windows.brokerRetransmits.map .raw).map .toBroker
    ++ ((s.windows.clientRetransmits.map .raw).map .toClient
    ++ (s.buffer.entries.map (fun e => .raw e.raw)).map .toBroker))))

/-- The c2b window with the buffered packets in it. -/
def flushedWindows (s : Session) : InflightWindows :=
  s.buffer.entries.foldl flushWindow s.windows

/-- The session after a replay that succeeds. -/
def afterReplay (s : Session) (a : Attempt) : Session :=
  { s with
    hs := { s.hs with keepAlive := a.connack.keepAliveOr s.hs.keepAlive }
    broker := some a.after
    windows := s.flushedWindows
    buffer := .empty
    brokerLeftover := []
    backoff := brokerRetryInitial
    step := .connect }

end Session

/-- The broker (and the client) let the whole replay happen. -/
structure Serves (c : Codec) (s : Session) (a : Attempt) : Prop where
  patched : ∃ raw, forceSessionResumption s.hs.connectRaw = .ok raw
  connack : a.connack.isConnack = true
  suback : s.subscriptions.entries ≠ [] → a.suback.isPacket = true
  brokerWrites : 1 + (resubscribeFrames s.hs.version s.subscriptions).length
    + s.windows.brokerRetransmits.length + s.buffer.entries.length ≤ a.brokerWrites
  clientWrites : (s.leftoverPackets c).length + s.windows.clientRetransmits.length
    ≤ a.clientWrites

theorem retransmitBroker_eq_ok {u : Unit} {r r' : Replay} :
    retransmitBroker r = .ok u r' ↔
      r.windows.brokerRetransmits.length ≤ r.attempt.brokerWrites ∧
      r' = r.sentBroker (r.windows.brokerRetransmits.map .raw) := by
  rw [retransmitBroker, get_bind, forM_writeBroker_eq_ok]

theorem retransmitClient_eq_ok {u : Unit} {r r' : Replay} :
    retransmitClient r = .ok u r' ↔
      r.windows.clientRetransmits.length ≤ r.attempt.clientWrites ∧
      r' = r.sentClient (r.windows.clientRetransmits.map .raw) := by
  rw [retransmitClient, get_bind, forM_writeClient_eq_ok]

/-- A replay that succeeds was served, wrote its plan and leads to `afterReplay`. -/
theorem establishBroker_ok {c : Codec} {s : Session} {a : Attempt} {u : Unit} {r : Replay}
    (h : establishBroker c s.hs s.subscriptions (s.replay a) = .ok u r) :
    ∃ raw, forceSessionResumption s.hs.connectRaw = .ok raw ∧ Serves c s a ∧
      s.replayed r = s.afterReplay a ∧ r.out = s.replayPlan c raw := by
  simp only [establishBroker, bind_eq_ok, replayConnect_eq_ok, readConnack_eq_ok,
    resubscribe_eq_ok, deliverLeftover_eq_ok, retransmitBroker_eq_ok, retransmitClient_eq_ok,
    flushBuffer_eq_ok] at h
  obtain ⟨_, _, ⟨raw, hraw, h₁, rfl⟩, _, _, ⟨h₂, rfl⟩, _, _, ⟨h₃, h₃', rfl⟩, _, _, ⟨h₄, rfl⟩,
    _, _, ⟨h₅, rfl⟩, _, _, ⟨h₆, rfl⟩, h₇, rfl⟩ := h
  simp only [Replay.sentBroker, Replay.sentClient, Session.replay, List.length_map,
    List.length_cons, List.length_nil] at h₁ h₂ h₃ h₃' h₄ h₅ h₆ h₇
  refine ⟨raw, hraw, ⟨⟨raw, hraw⟩, h₂, h₃', ?_, ?_⟩, rfl, ?_⟩
  · omega
  · simp only [Session.leftoverPackets]
    omega
  · simp [Replay.flushed, Replay.sentBroker, Replay.sentClient, Session.replay,
      Session.replayPlan, Session.leftoverPackets]

/-- A replay that is served succeeds. -/
theorem establishBroker_of_serves {c : Codec} {s : Session} {a : Attempt}
    (h : Serves c s a) :
    ∃ r, establishBroker c s.hs s.subscriptions (s.replay a) = .ok () r := by
  obtain ⟨⟨raw, hraw⟩, hack, hsub, hb, hc⟩ := h
  simp only [establishBroker, bind_eq_ok, replayConnect_eq_ok, readConnack_eq_ok,
    resubscribe_eq_ok, deliverLeftover_eq_ok, retransmitBroker_eq_ok, retransmitClient_eq_ok,
    flushBuffer_eq_ok]
  simp only [Session.leftoverPackets] at hc
  refine ⟨_, (), _, ⟨raw, hraw, ?_, rfl⟩, (), _, ⟨hack, rfl⟩, (), _, ⟨?_, hsub, rfl⟩, (), _,
    ⟨?_, rfl⟩, (), _, ⟨?_, rfl⟩, (), _, ⟨?_, rfl⟩, ?_, rfl⟩
  all_goals
    simp only [Replay.sentBroker, Replay.sentClient, Session.replay, List.length_map,
      List.length_cons, List.length_nil]
    omega

/-! ## What a replay has written when it fails -/

theorem writeBroker_error {err : String → IoError} {f : Frame} {e : IoError} {r r' : Replay}
    (h : writeBroker err f r = .error e r') : r' = r := by
  unfold writeBroker at h
  split at h
  · exact (EStateM.Result.error.inj h).2.symm
  · exact nomatch h

theorem writeClient_error {err : String → IoError} {f : Frame} {e : IoError} {r r' : Replay}
    (h : writeClient err f r = .error e r') : r' = r := by
  unfold writeClient at h
  split at h
  · exact (EStateM.Result.error.inj h).2.symm
  · exact nomatch h

theorem readConnack_error {c : Codec} {e : IoError} {r r' : Replay}
    (h : readConnack c r = .error e r') : r' = r := by
  rw [readConnack, get_bind] at h
  cases hn : r.attempt.connack with
  | error e => rw [hn] at h; exact (EStateM.Result.error.inj h).2.symm
  | closed => rw [hn] at h; exact (EStateM.Result.error.inj h).2.symm
  | packet p =>
      rw [hn] at h
      rcases p with p | p <;> cases p
      case v3.connectAck => exact nomatch h
      case v5.connectAck ack =>
        obtain ⟨_, _, secs, _⟩ := ack
        cases secs with
        | none => exact nomatch h
        | some secs => exact nomatch h
      all_goals exact (EStateM.Result.error.inj h).2.symm

theorem readSuback_error {e : IoError} {r r' : Replay} (h : readSuback r = .error e r') :
    r' = r := by
  rw [readSuback, get_bind] at h
  cases hn : r.attempt.suback with
  | error e => rw [hn] at h; exact (EStateM.Result.error.inj h).2.symm
  | closed => rw [hn] at h; exact (EStateM.Result.error.inj h).2.symm
  | packet p =>
      rw [hn] at h
      rcases p with p | p <;> cases p <;> exact nomatch h

theorem writeBroker_follows (err : String → IoError) (f : Frame) (r : Replay) :
    Follows Replay.out (writeBroker err f) r [.toBroker f] where
  ok r' h := by rw [(writeBroker_eq_ok.mp h).2]; rfl
  error e r' h := by rw [writeBroker_error h]; exact List.prefix_append _ _

theorem writeClient_follows (err : String → IoError) (f : Frame) (r : Replay) :
    Follows Replay.out (writeClient err f) r [.toClient f] where
  ok r' h := by rw [(writeClient_eq_ok.mp h).2]; rfl
  error e r' h := by rw [writeClient_error h]; exact List.prefix_append _ _

theorem readConnack_follows (c : Codec) (r : Replay) :
    Follows Replay.out (readConnack c) r [] :=
  .silent (fun r' h => by rw [(readConnack_eq_ok.mp h).2])
    (fun e r' h => by rw [readConnack_error h])

theorem readSuback_follows (r : Replay) : Follows Replay.out readSuback r [] :=
  .silent (fun r' h => by rw [(readSuback_eq_ok.mp h).2])
    (fun e r' h => by rw [readSuback_error h])

theorem resubscribe_follows (v : ProtocolVersion) (subs : Subscriptions) (r : Replay) :
    Follows Replay.out (resubscribe v subs) r ((resubscribeFrames v subs).map .toBroker) := by
  unfold resubscribe resubscribeFrames
  cases subs.resubscribePacket v with
  | none => exact Follows.silent (fun r' h => by rw [(pure_eq_ok.mp h).2]) (fun e r' h => nomatch h)
  | some p => exact (writeBroker_follows _ _ r).bind (fun r' _ => readSuback_follows r')

theorem deliverLeftover_follows (c : Codec) (v : ProtocolVersion) (r : Replay) :
    Follows Replay.out (deliverLeftover c v) r
      (((c.decodeAll v r.brokerLeftover).map .packet).map .toClient) := by
  have hloop := Follows.forM (fun p r => writeClient_follows invalidData (.packet p) r)
    (c.decodeAll v r.brokerLeftover) r
  have h := hloop.bind (q := []) (y := modify (fun r => { r with brokerLeftover := [] }))
    (fun r' _ => Follows.modify rfl)
  rw [List.append_nil] at h
  rw [List.map_map]
  exact h.get_bind

theorem retransmitBroker_follows (r : Replay) :
    Follows Replay.out retransmitBroker r
      ((r.windows.brokerRetransmits.map .raw).map .toBroker) := by
  have h := Follows.forM (fun raw r => writeBroker_follows osError (.raw raw) r) r.windows.brokerRetransmits r
  rw [List.map_map]
  exact h.get_bind

theorem retransmitClient_follows (r : Replay) :
    Follows Replay.out retransmitClient r
      ((r.windows.clientRetransmits.map .raw).map .toClient) := by
  have h := Follows.forM (fun raw r => writeClient_follows osError (.raw raw) r) r.windows.clientRetransmits r
  rw [List.map_map]
  exact h.get_bind

theorem flushEntry_follows (e : BufferedPublish) (r : Replay) :
    Follows Replay.out (flushEntry e) r [.toBroker (.raw e.raw)] :=
  Follows.bind_silent (Follows.modify rfl) (fun r' _ => writeBroker_follows _ _ r')

theorem flushBuffer_follows (r : Replay) :
    Follows Replay.out flushBuffer r
      ((r.buffer.entries.map (fun e => .raw e.raw)).map .toBroker) := by
  have h := (Follows.forM flushEntry_follows r.buffer.entries r.drained).bind (q := [])
    (y := modify (fun r => { r with buffer := { r.buffer with bytes := 0 } }))
    (fun r' _ => Follows.modify rfl)
  rw [List.append_nil] at h
  rw [List.map_map]
  exact ⟨fun r' h' => h.ok r' h', fun e r' h' => h.error e r' h'⟩

theorem establishBroker_follows {c : Codec} {s : Session} {raw : Bytes} (a : Attempt)
    (hraw : forceSessionResumption s.hs.connectRaw = .ok raw) :
    Follows Replay.out (establishBroker c s.hs s.subscriptions) (s.replay a)
      (s.replayPlan c raw) := by
  have hconnect : Follows Replay.out (replayConnect s.hs.connectRaw) (s.replay a)
      [.toBroker (.connect raw)] := by
    unfold replayConnect
    rw [hraw]
    exact writeBroker_follows _ _ _
  refine hconnect.bind (fun r₁ h₁ => ?_)
  obtain ⟨_, -, -, rfl⟩ := replayConnect_eq_ok.mp h₁
  refine (readConnack_follows c _).bind_silent (fun r₂ h₂ => ?_)
  obtain ⟨-, rfl⟩ := readConnack_eq_ok.mp h₂
  refine (resubscribe_follows _ _ _).bind (fun r₃ h₃ => ?_)
  obtain ⟨-, -, rfl⟩ := resubscribe_eq_ok.mp h₃
  refine (deliverLeftover_follows c _ _).bind (fun r₄ h₄ => ?_)
  obtain ⟨-, rfl⟩ := deliverLeftover_eq_ok.mp h₄
  refine (retransmitBroker_follows _).bind (fun r₅ h₅ => ?_)
  obtain ⟨-, rfl⟩ := retransmitBroker_eq_ok.mp h₅
  refine (retransmitClient_follows _).bind (fun r₆ h₆ => ?_)
  obtain ⟨-, rfl⟩ := retransmitClient_eq_ok.mp h₆
  exact flushBuffer_follows _

/-- The step that leaves the outage phase: the whole replay, or the end of the
session after some of it. -/
theorem connectBroker_cases (c : Codec) (s : Session) (a : Attempt) :
    (∃ raw, forceSessionResumption s.hs.connectRaw = .ok raw ∧ Serves c s a ∧
      connectBroker c s a = (.running (s.afterReplay a), .openBroker :: s.replayPlan c raw)) ∨
    (∃ e out, ¬ Serves c s a ∧ out <+: s.replayPlan c (patchedConnect s.hs.connectRaw) ∧
      connectBroker c s a = (.ended (.error e), .openBroker :: out)) := by
  unfold connectBroker
  cases h : establishBroker c s.hs s.subscriptions (s.replay a) with
  | ok u r =>
      obtain ⟨raw, hraw, hserves, hs, hout⟩ := establishBroker_ok h
      exact Or.inl ⟨raw, hraw, hserves, by simp only [hs, hout]⟩
  | error e r =>
      have hserves : ¬ Serves c s a := by
        intro hserves
        obtain ⟨r', hr'⟩ := establishBroker_of_serves hserves
        exact nomatch h.symm.trans hr'
      cases hraw : forceSessionResumption s.hs.connectRaw with
      | ok raw =>
          rw [patchedConnect_ok hraw]
          exact Or.inr ⟨e, r.out, hserves, (establishBroker_follows a hraw).error e r h, rfl⟩
      | error e' =>
          -- nothing has been written yet
          have hout : r.out = [] := by
            rw [establishBroker, replayConnect, hraw] at h
            rw [← (EStateM.Result.error.inj h).2]
            rfl
          exact Or.inr ⟨e, r.out, hserves, hout ▸ List.nil_prefix, rfl⟩

end TrafficDirector
