/-
# `TrafficDirector.Session.Twins` — the same machine for MQTT 3.1.1 and MQTT 5

Two sessions, one of each version, are twins (`Session.Twins`) if they show the same to a
reader who sees of an encoded packet its type only.  Each iteration of the loop keeps
them twins on events that are alike, and makes outputs of the same kinds, a replay
included; so every run does (`runs_alike`).

There is one exception.  The outage buffer is bounded in bytes of encoded packets, and
a packet of MQTT 5 is longer than its like: it may not fit where the other does, and
then one session ends and the other goes on (`runs_differ`).
-/
import TrafficDirector.Session.Resumption
import TrafficDirector.Session.Versions

namespace TrafficDirector

open Framing (Reader)
open Machine (Related Together)
open Script (Agree Coupled Matched)

/-! ## The replay -/

/-- Reads that yield packets that are alike, or fail alike. -/
inductive AlikeNext : Next → Next → Prop
  | packet {p p' : MqttPacket} (h : Alike p p') : AlikeNext (.packet p) (.packet p')
  | error (e e' : String) : AlikeNext (.error e) (.error e')
  | closed : AlikeNext .closed .closed

/-- Connections on which as many writes go through, with answers that are alike. -/
structure Attempt.Twins (a a' : Attempt) : Prop where
  brokerWrites : a.brokerWrites = a'.brokerWrites
  clientWrites : a.clientWrites = a'.clientWrites
  connack : AlikeNext a.connack a'.connack
  suback : AlikeNext a.suback a'.suback

/-- The complete packets in the two buffers are alike. -/
def AlikeBytes (c : Codec) (b b' : Bytes) : Prop :=
  List.Forall₂ Alike (c.decodeAll .mqtt3 b) (c.decodeAll .mqtt5 b')

structure Replay.Twins (c : Codec) (r r' : Replay) : Prop where
  attempt : r.attempt.Twins r'.attempt
  windows : r.windows.Twins r'.windows
  buffer : r.buffer.entries.map BufferedPublish.brief = r'.buffer.entries.map BufferedPublish.brief
  leftover : AlikeBytes c r.brokerLeftover r'.brokerLeftover
  out : r.out.map Output.kind = r'.out.map Output.kind

variable {c : Codec} {p p' : MqttPacket}

/-- Lists with the same image are related element by element. -/
theorem forall₂_of_map_eq {α β κ : Type} {f : α → κ} {g : β → κ} {l : List α} {l' : List β}
    (h : l.map f = l'.map g) : List.Forall₂ (fun a b => f a = g b) l l' := by
  have hmap : List.Forall₂ Eq (l.map f) (l'.map g) := h ▸ List.forall₂_same.mpr (fun _ _ => rfl)
  exact List.forall₂_map_left_iff.mp (List.forall₂_map_right_iff.mp hmap)

/-- Two parts of a replay that keep twins twins, and fail with errors of the same kind. -/
abbrev CoupledReplays (c : Codec) : ReplayM Unit → ReplayM Unit → Prop :=
  Coupled (Replay.Twins c) SameKind

theorem writeBroker_coupled {err : String → IoError} (herr : ∀ t t', SameKind (err t) (err t'))
    {f f' : Frame} (hf : f.packetType = f'.packetType) :
    CoupledReplays c (writeBroker err f) (writeBroker err f') := by
  intro r r' h
  have hwrites := h.attempt.brokerWrites
  unfold writeBroker
  by_cases hnone : r.attempt.brokerWrites = 0
  · rw [if_pos hnone, if_pos (hwrites ▸ hnone)]
    exact .error (herr _ _) h
  · rw [if_neg hnone, if_neg (hwrites ▸ hnone)]
    refine .ok { h with attempt := ?_, out := ?_ }
    · exact { h.attempt with brokerWrites := congrArg (· - 1) hwrites }
    · exact map_kind_append h.out (congrArg OutputKind.toBroker hf)

theorem writeClient_coupled {err : String → IoError} (herr : ∀ t t', SameKind (err t) (err t'))
    {f f' : Frame} (hf : f.packetType = f'.packetType) :
    CoupledReplays c (writeClient err f) (writeClient err f') := by
  intro r r' h
  have hwrites := h.attempt.clientWrites
  unfold writeClient
  by_cases hnone : r.attempt.clientWrites = 0
  · rw [if_pos hnone, if_pos (hwrites ▸ hnone)]
    exact .error (herr _ _) h
  · rw [if_neg hnone, if_neg (hwrites ▸ hnone)]
    refine .ok { h with attempt := ?_, out := ?_ }
    · exact { h.attempt with clientWrites := congrArg (· - 1) hwrites }
    · exact map_kind_append h.out (congrArg OutputKind.toClient hf)

/-- Both CONNECTs can be patched, or neither can. -/
def AlikeConnects (raw raw' : Bytes) : Prop :=
  (forceSessionResumption raw).isOk = (forceSessionResumption raw').isOk

theorem forceSessionResumption_error {raw : Bytes} {e : IoError}
    (h : forceSessionResumption raw = .error e) : e.kind = .invalidData := by
  simp only [forceSessionResumption] at h
  split at h
  · cases h
    rfl
  · split at h
    · split at h
      · cases h
      · cases h
        rfl
    · cases h
      rfl

theorem replayConnect_coupled {raw raw' : Bytes} (h : AlikeConnects raw raw') :
    CoupledReplays c (replayConnect raw) (replayConnect raw') := by
  unfold AlikeConnects at h
  unfold replayConnect
  cases hraw : forceSessionResumption raw with
  | error e =>
      cases hraw' : forceSessionResumption raw' with
      | error e' =>
          have hkind := forceSessionResumption_error hraw
          exact Coupled.throw (hkind.trans (forceSessionResumption_error hraw').symm)
      | ok patched => rw [hraw, hraw'] at h; cases h
  | ok patched =>
      cases hraw' : forceSessionResumption raw' with
      | error e' => rw [hraw, hraw'] at h; cases h
      | ok patched' => exact writeBroker_coupled osError_sameKind rfl

theorem readConnack_coupled : CoupledReplays c (readConnack c) (readConnack c) := by
  refine Coupled.get_bind (fun r r' h => ?_)
  have hconnack := h.attempt.connack
  generalize r.attempt.connack = connack at hconnack ⊢
  generalize r'.attempt.connack = connack' at hconnack ⊢
  cases hconnack with
  | packet hp =>
      cases hp with
      | connectAck ack ack' =>
          -- a Server Keep Alive is not something twins have in common
          cases hsecs : ack'.serverKeepaliveSec with
          | none =>
              simp only [hsecs]
              exact Coupled.pure
          | some secs =>
              simp only [hsecs]
              exact Script.coupled_pure_modify (fun _ _ hr => { hr with })
      | _ => exact Coupled.throw rfl
  | error e e' => exact Coupled.throw rfl
  | closed => exact Coupled.throw rfl

theorem readSuback_coupled : CoupledReplays c readSuback readSuback := by
  refine Coupled.get_bind (fun r r' h => ?_)
  have hsuback := h.attempt.suback
  generalize r.attempt.suback = suback at hsuback ⊢
  generalize r'.attempt.suback = suback' at hsuback ⊢
  cases hsuback with
  | packet hp => cases hp <;> exact Coupled.pure
  | error e e' => exact Coupled.throw rfl
  | closed => exact Coupled.throw rfl

theorem resubscribe_coupled {s s' : Subscriptions} (h : s.grants = s'.grants) :
    CoupledReplays c (resubscribe .mqtt3 s) (resubscribe .mqtt5 s') := by
  have hpacket := Subscriptions.resubscribePacket_alike h
  unfold resubscribe
  generalize s.resubscribePacket .mqtt3 = packet at hpacket ⊢
  generalize s'.resubscribePacket .mqtt5 = packet' at hpacket ⊢
  cases hpacket with
  | none => exact Coupled.pure
  | some hp =>
      refine Coupled.bind ?_ readSuback_coupled
      exact writeBroker_coupled invalidData_sameKind hp.packetType

theorem deliverLeftover_coupled :
    CoupledReplays c (deliverLeftover c .mqtt3) (deliverLeftover c .mqtt5) := by
  refine Coupled.get_bind (fun r r' h => ?_)
  refine Coupled.bind (Coupled.forM h.leftover ?_) (Coupled.modify ?_)
  · intro p p' hp
    exact writeClient_coupled invalidData_sameKind hp.packetType
  · intro r r' hr
    refine { hr with leftover := ?_ }
    show List.Forall₂ Alike (c.decodeAll .mqtt3 []) (c.decodeAll .mqtt5 [])
    rw [Codec.decodeAll_nil, Codec.decodeAll_nil]
    exact .nil

theorem retransmitBroker_coupled : CoupledReplays c retransmitBroker retransmitBroker := by
  refine Coupled.get_bind (fun r r' h => ?_)
  refine Coupled.forM (forall₂_of_map_eq h.windows.brokerRetransmits) ?_
  intro raw raw' hraw
  exact writeBroker_coupled osError_sameKind hraw

theorem retransmitClient_coupled : CoupledReplays c retransmitClient retransmitClient := by
  refine Coupled.get_bind (fun r r' h => ?_)
  refine Coupled.forM (forall₂_of_map_eq h.windows.clientRetransmits) ?_
  intro raw raw' hraw
  exact writeClient_coupled osError_sameKind hraw

theorem flushWindow_twins {w w' : InflightWindows} (h : w.Twins w') {e e' : BufferedPublish}
    (he : e.brief = e'.brief) : (flushWindow w e).Twins (flushWindow w' e') := by
  obtain ⟨i, raw, qos⟩ := e
  obtain ⟨i', raw', qos'⟩ := e'
  obtain ⟨rfl, hrest⟩ := Prod.mk.inj he
  have hraw : raw.packetType = raw'.packetType := (Prod.mk.inj hrest).1
  unfold flushWindow flushBinding
  rw [← hraw]
  by_cases hpublish : raw.packetType = 3
  · rw [if_pos hpublish, if_pos hpublish]
    exact { h with c2b := h.insert_c2b i publishSent hraw }
  · rw [if_neg hpublish, if_neg hpublish]
    by_cases hrelease : raw.packetType = 6
    · rw [if_pos hrelease, if_pos hrelease]
      exact { h with c2b := h.insert_c2b i pubrelSent hraw }
    · rw [if_neg hrelease, if_neg hrelease]
      exact h

theorem flushBuffer_coupled : CoupledReplays c flushBuffer flushBuffer := by
  refine Coupled.get_bind (fun r r' h => ?_)
  refine Coupled.bind (Coupled.modify (fun _ _ hr => { hr with buffer := rfl })) ?_
  refine Coupled.bind (Coupled.forM (forall₂_of_map_eq h.buffer) ?_)
    (Coupled.modify (fun _ _ hr => { hr with }))
  intro e e' he
  refine Coupled.bind (Coupled.modify ?_) ?_
  · intro r r' hr
    exact { hr with windows := flushWindow_twins hr.windows he }
  · exact writeBroker_coupled osError_sameKind (Prod.mk.inj (Prod.mk.inj he).2).1

theorem establishBroker_coupled {hs hs' : Handshake} (hversion : hs.version = .mqtt3)
    (hversion' : hs'.version = .mqtt5) (hconnect : AlikeConnects hs.connectRaw hs'.connectRaw)
    {s s' : Subscriptions} (h : s.grants = s'.grants) :
    CoupledReplays c (establishBroker c hs s) (establishBroker c hs' s') := by
  unfold establishBroker
  rw [hversion, hversion']
  refine (replayConnect_coupled hconnect).bind (readConnack_coupled.bind ?_)
  refine (resubscribe_coupled h).bind (deliverLeftover_coupled.bind ?_)
  exact retransmitBroker_coupled.bind (retransmitClient_coupled.bind flushBuffer_coupled)

/-! ## The loop -/

/-- A session of MQTT 3.1.1 and one of MQTT 5 that are the same but for the encoding. -/
structure Session.Twins (c : Codec) (s s' : Session) : Prop where
  version : s.hs.version = .mqtt3
  version' : s'.hs.version = .mqtt5
  connect : AlikeConnects s.hs.connectRaw s'.hs.connectRaw
  connected : s.broker.isSome = s'.broker.isSome
  windows : s.windows.Twins s'.windows
  subscriptions : s.subscriptions.grants = s'.subscriptions.grants
  buffer : s.buffer.entries.map BufferedPublish.brief = s'.buffer.entries.map BufferedPublish.brief
  leftover : AlikeBytes c s.brokerLeftover s'.brokerLeftover
  backoff : s.backoff = s'.backoff
  step : s.step = s'.step

/-- Both go on as twins, or both have ended, and alike. -/
inductive Outcome.Twins (c : Codec) : Outcome → Outcome → Prop
  | running {s s' : Session} (h : s.Twins c s') : Twins c (.running s) (.running s')
  | closed : Twins c (.ended (.ok ())) (.ended (.ok ()))
  | failed {e e' : IoError} (h : SameKind e e') : Twins c (.ended (.error e)) (.ended (.error e'))

/-- What may happen to twins: packets that are alike, no DISCONNECT of the server among
them, and connections that are lost and accepted at the same time. -/
inductive AlikeEvents (c : Codec) : Event → Event → Prop
  | clientBytes (after after' : Reader UInt8) :
      AlikeEvents c (.clientBytes after) (.clientBytes after')
  | brokerBytes (after after' : Reader UInt8) :
      AlikeEvents c (.brokerBytes after) (.brokerBytes after')
  | clientRead (now : Nat) (after after' : Reader UInt8) (pong forward : Sent) {next next' : Next}
      (h : AlikeNext next next') :
      AlikeEvents c (.clientRead now next after pong forward)
        (.clientRead now next' after' pong forward)
  | brokerPacket (after after' : Reader UInt8) (forward : Sent) {p p' : MqttPacket}
      (h : Alike p p') (hserver : p.shape ≠ .disconnect) :
      AlikeEvents c (.brokerRead (.packet p) after forward) (.brokerRead (.packet p') after' forward)
  | brokerError (e e' : String) (forward : Sent) {after after' : Reader UInt8}
      (h : AlikeBytes c after.buf after'.buf) :
      AlikeEvents c (.brokerRead (.error e) after forward) (.brokerRead (.error e') after' forward)
  | brokerClosed (forward : Sent) {after after' : Reader UInt8}
      (h : AlikeBytes c after.buf after'.buf) :
      AlikeEvents c (.brokerRead .closed after forward) (.brokerRead .closed after' forward)
  | refused : AlikeEvents c (.wait none) (.wait none)
  | accepted {a a' : Attempt} (h : a.Twins a') : AlikeEvents c (.wait (some a)) (.wait (some a'))

/-- The event is a client packet that the outage buffer should take and has no room for. -/
def Outcome.overflows (c : Codec) : Outcome → Event → Bool
  | .running s, .clientRead _ (.packet p) _ _ _ => s.broker.isNone && s.buffer.overflows c p
  | _, _ => false

/-- The step leaves twins, and has made outputs of the same kinds. -/
def StepTwins (c : Codec) (r r' : Outcome × List Output) : Prop :=
  r.1.Twins c r'.1 ∧ r.2.map Output.kind = r'.2.map Output.kind

variable {s s' : Session}

theorem Session.twins_initial {connect connect' : MqttPacket} (hwrites : c.WritesConnect connect)
    (hwrites' : c.WritesConnect connect') (id id' : SessionId)
    (client client' broker broker' : Reader UInt8) (now now' : Nat) :
    (Session.initial id (.ofConnect c .mqtt3 connect) client broker now).Twins c
      (Session.initial id' (.ofConnect c .mqtt5 connect') client' broker' now') where
  version := rfl
  version' := rfl
  connect := by
    obtain ⟨h, hh, -⟩ := hwrites
    obtain ⟨h', hh', -⟩ := hwrites'
    obtain ⟨raw, hraw, -⟩ := connectHeader_patched hh
    obtain ⟨raw', hraw', -⟩ := connectHeader_patched hh'
    exact (congrArg Except.isOk hraw).trans (congrArg Except.isOk hraw').symm
  connected := rfl
  windows := ⟨rfl, rfl⟩
  subscriptions := rfl
  buffer := rfl
  leftover := by
    show List.Forall₂ Alike (c.decodeAll .mqtt3 []) (c.decodeAll .mqtt5 [])
    rw [Codec.decodeAll_nil, Codec.decodeAll_nil]
    exact .nil
  backoff := rfl
  step := rfl

theorem toClient_twins (hp : p.packetType = p'.packetType) (sent : Sent) :
    Agree (fun out out' => out.map Output.kind = out'.map Output.kind) SameKind
      (sent.toClient p) (sent.toClient p') := by
  cases sent with
  | ok => exact .ok (congrArg (fun t => [OutputKind.toClient t]) hp)
  | failed e => exact .error rfl

theorem answerPing_twins (hp : Alike p p') (pong : Sent) :
    Agree (fun out out' => out.map Output.kind = out'.map Output.kind) SameKind
      (answerPing p pong) (answerPing p' pong) := by
  cases hp with
  | pingRequest =>
      have htype : (MqttPacket.v3 .pingResponse).packetType
          = (MqttPacket.v5 .pingResponse).packetType := rfl
      exact toClient_twins htype pong
  | _ => exact .ok rfl

theorem clientPacket_twins (h : s.Twins c s') (hp : Alike p p') (pong forward : Sent) :
    StepTwins c (clientPacket c s p pong forward) (clientPacket c s' p' pong forward) := by
  have hpong := answerPing_twins hp pong
  unfold clientPacket
  generalize answerPing p pong = answer at hpong ⊢
  generalize answerPing p' pong = answer' at hpong ⊢
  cases hpong with
  | error he => exact ⟨.failed he, rfl⟩
  | ok hpongs =>
      cases forward with
      | ok =>
          refine ⟨.running { h with windows := ?_, subscriptions := ?_ }, ?_⟩
          · exact h.windows.trackC2b hp
          · exact Subscriptions.grants_track h.subscriptions hp
          · exact map_kind_append hpongs (congrArg OutputKind.toBroker hp.packetType)
      | failed e =>
          refine ⟨.running { h with connected := rfl, windows := ?_, subscriptions := ?_ }, hpongs⟩
          · exact h.windows.trackC2b hp
          · exact Subscriptions.grants_track h.subscriptions hp

theorem outagePacket_twins (h : s.Twins c s') (hp : Alike p p')
    (hroom : s.buffer.overflows c p = s'.buffer.overflows c p') (pong : Sent) :
    StepTwins c (outagePacket c s p pong) (outagePacket c s' p' pong) := by
  have hbefore : Serviced.Twins ⟨s.buffer, s.subscriptions, s.windows, []⟩
      ⟨s'.buffer, s'.subscriptions, s'.windows, []⟩ :=
    ⟨h.buffer, h.subscriptions, h.windows, rfl⟩
  have hserviced := serviceOutagePacket_twins hbefore hp hroom pong
  unfold outagePacket
  generalize serviceOutagePacket c ⟨s.buffer, s.subscriptions, s.windows, []⟩ p pong = v
    at hserviced ⊢
  generalize serviceOutagePacket c ⟨s'.buffer, s'.subscriptions, s'.windows, []⟩ p' pong = v'
    at hserviced ⊢
  cases hserviced with
  | error he => exact ⟨.failed he, rfl⟩
  | ok hv =>
      refine ⟨.running { h with windows := ?_, subscriptions := ?_, buffer := ?_ }, hv.out⟩
      · exact hv.windows
      · exact hv.subscriptions
      · exact hv.buffer

theorem brokerPacket_twins (h : s.Twins c s') (hp : Alike p p') (hserver : p.shape ≠ .disconnect)
    (after after' : Reader UInt8) (forward : Sent) :
    StepTwins c (brokerPacket c s p after forward) (brokerPacket c s' p' after' forward) := by
  have htracked := h.windows.trackB2c (c := c) hp
  cases forward with
  | ok =>
      cases hp with
      | disconnect d => exact absurd rfl hserver
      | pingResponse => exact ⟨.running { h with connected := rfl }, rfl⟩
      | _ => exact ⟨.running { h with connected := rfl, windows := htracked }, rfl⟩
  | failed e =>
      cases hp with
      | disconnect d => exact absurd rfl hserver
      | pingResponse => exact ⟨.running { h with connected := rfl }, rfl⟩
      | _ => exact ⟨.failed rfl, rfl⟩

/-- Both have heard from their clients. -/
theorem Session.Twins.heard (h : s.Twins c s') (after after' : Reader UInt8) (now : Nat) :
    Session.Twins c { s with client := after, lastClientActivity := now }
      { s' with client := after', lastClientActivity := now } :=
  { h with }

/-- Both lose their brokers, with packets in the read buffers that are alike. -/
theorem Session.Twins.loseBroker (h : s.Twins c s') {after after' : Reader UInt8}
    (hleft : AlikeBytes c after.buf after'.buf) :
    (s.loseBroker after).Twins c (s'.loseBroker after') :=
  { h with connected := rfl, leftover := hleft }

theorem connectBroker_twins (h : s.Twins c s') {a a' : Attempt} (ha : a.Twins a') :
    StepTwins c (connectBroker c s a) (connectBroker c s' a') := by
  have hreplay := establishBroker_coupled h.version h.version' h.connect h.subscriptions
    (s.replay a) (s'.replay a') ⟨ha, h.windows, h.buffer, h.leftover, rfl⟩
  unfold connectBroker
  generalize establishBroker c s.hs s.subscriptions (s.replay a) = r at hreplay ⊢
  generalize establishBroker c s'.hs s'.subscriptions (s'.replay a') = r' at hreplay ⊢
  cases hreplay with
  | ok hr =>
      refine ⟨.running ?_, congrArg (OutputKind.openBroker :: ·) hr.out⟩
      exact { h with
        connected := rfl
        windows := hr.windows
        buffer := hr.buffer
        leftover := hr.leftover
        backoff := rfl
        step := rfl }
  | error he hr => exact ⟨.failed he, congrArg (OutputKind.openBroker :: ·) hr.out⟩

/-- Twins take the same steps on events that are alike, unless a packet overflows the
outage buffer of one of them only. -/
theorem forwardLoop_twins {o o' : Outcome} {e e' : Event} (h : o.Twins c o')
    (he : AlikeEvents c e e') (hroom : o.overflows c e = o'.overflows c e') :
    Option.Rel (StepTwins c) (forwardLoop c o e) (forwardLoop c o' e') := by
  cases h with
  | closed => exact .none
  | failed _ => exact .none
  | @running s s' h =>
      have hup := h.connected
      rw [forwardLoop, forwardLoop, ← hup]
      cases hbroker : s.broker with
      | some b =>
          simp only [Option.isSome_some, if_true]
          cases he with
          | clientBytes after after' => exact .some ⟨.running { h with }, rfl⟩
          | brokerBytes after after' => exact .some ⟨.running { h with connected := rfl }, rfl⟩
          | clientRead now after after' pong forward hnext =>
              cases hnext with
              | packet hp => exact .some (clientPacket_twins (h.heard after after' now) hp pong forward)
              | error e e' => exact .some ⟨.failed rfl, rfl⟩
              | closed => exact .some ⟨.closed, rfl⟩
          | brokerPacket after after' forward hp hserver =>
              exact .some (brokerPacket_twins h hp hserver after after' forward)
          | brokerError e e' forward hleft => exact .some ⟨.running (h.loseBroker hleft), rfl⟩
          | brokerClosed forward hleft => exact .some ⟨.running (h.loseBroker hleft), rfl⟩
          | refused => exact .none
          | accepted ha => exact .none
      | none =>
          have hdown : s'.broker = none := by
            rw [hbroker] at hup
            exact Option.isNone_iff_eq_none.mp (Option.isSome_eq_false_iff.mp hup.symm)
          simp only [Option.isSome_none, Bool.false_eq_true, if_false]
          cases he with
          | clientBytes after after' => exact .some ⟨.running { h with }, rfl⟩
          | brokerBytes after after' => exact .none
          | clientRead now after after' pong forward hnext =>
              cases hnext with
              | packet hp =>
                  rw [Outcome.overflows, Outcome.overflows, hbroker, hdown] at hroom
                  exact .some (outagePacket_twins (h.heard after after' now) hp hroom pong)
              | error e e' => exact .some ⟨.failed rfl, rfl⟩
              | closed => exact .some ⟨.closed, rfl⟩
          | brokerPacket after after' forward hp hserver => exact .none
          | brokerError e e' forward hleft => exact .none
          | brokerClosed forward hleft => exact .none
          | refused =>
              cases hstep : s.step with
              | connect =>
                  have hstep' : s'.step = .connect := h.step ▸ hstep
                  simp only [outageStep, hstep, hstep']
                  refine .some ⟨.running { h with backoff := ?_, step := ?_ }, rfl⟩
                  · exact congrArg (fun d => min (d * 2) brokerRetryMax) h.backoff
                  · exact congrArg OutageStep.backoff h.backoff
              | backoff d =>
                  have hstep' : s'.step = .backoff d := h.step ▸ hstep
                  simp only [outageStep, hstep, hstep']
                  exact .some ⟨.running { h with step := rfl }, rfl⟩
          | accepted ha =>
              cases hstep : s.step with
              | connect =>
                  have hstep' : s'.step = .connect := h.step ▸ hstep
                  simp only [outageStep, hstep, hstep']
                  exact .some (connectBroker_twins h ha)
              | backoff d =>
                  have hstep' : s'.step = .backoff d := h.step ▸ hstep
                  simp only [outageStep, hstep, hstep']
                  exact .none

/-- In every run on events that are alike, as long as no packet overflows the outage
buffer of one session only, both sessions go on as twins or end together, and send packets
of the same kinds. -/
theorem runs_alike {es es' : List Event} (h : s.Twins c s')
    (hevents : List.Forall₂ (AlikeEvents c) es es')
    (hroom : Together (sessionMachine c) (sessionMachine c)
      (fun o o' e e' => o.overflows c e = o'.overflows c e') (.running s) (.running s') es es') :
    Related (Outcome.Twins c) Output.kind Output.kind
      ((sessionMachine c).run (.running s) es) ((sessionMachine c).run (.running s') es') :=
  Machine.run_coupled (fun _ _ _ _ => forwardLoop_twins) hevents (.running h) hroom

/-- A held-back PUBLISH ends the session exactly if there is no room for it. -/
theorem outagePacket_publish (s : Session) {qos : QoS} {i : UInt16}
    (hshape : p.shape = .publish qos i) (pong : Sent) :
    outagePacket c s p pong =
      (if s.buffer.overflows c p then
        .ended (.error ⟨.quotaExceeded, "outage buffer full, closing session"⟩)
      else
        .running { s with buffer := ⟨s.buffer.entries ++ [⟨i, encodeRaw c p, qos.toU8⟩],
          s.buffer.bytes + (encodeRaw c p).len⟩ }, []) := by
  have hoverflows : s.buffer.overflows c p
      = decide (outageBufferMaxBytes < s.buffer.bytes + (encodeRaw c p).len) := by
    rw [OutageBuffer.overflows, bufferedAs, hshape]
  rw [outagePacket, serviceOutagePacket_eq, hshape, hoverflows]
  simp only [Serviced.push, OutageBuffer.push, decide_eq_true_eq]
  by_cases hfull : outageBufferMaxBytes < s.buffer.bytes + (encodeRaw c p).len
  · rw [if_pos hfull, if_pos hfull]
    rfl
  · rw [if_neg hfull, if_neg hfull]
    rfl

namespace ReferenceCodec

/-- A PUBLISH of either version. -/
def publishIn (v : ProtocolVersion) (payload : Bytes) : MqttPacket :=
  .ofPublish v
    ⟨false, false, .atLeastOnce, "t", some one, payload, none, Publish.hasId_some one⟩

theorem publishIn_shape (v : ProtocolVersion) (payload : Bytes) :
    (publishIn v payload).shape = .publish .atLeastOnce 1 := by
  rw [publishIn, MqttPacket.shape_ofPublish]
  rfl

theorem publishIn_alike (payload : Bytes) :
    Alike (publishIn .mqtt3 payload) (publishIn .mqtt5 payload) :=
  .publish rfl rfl

set_option maxRecDepth 4000 in
theorem sessions_twins : session.Twins (codec true) sessionV5 := by
  have hwrites : (codec true).WritesConnect connectPacket := ⟨_, rfl, rfl⟩
  have hwrites' : (codec true).WritesConnect connectV5 := ⟨_, rfl, rfl⟩
  exact Session.twins_initial hwrites hwrites' 0 0 (.fresh []) (.fresh []) (.fresh []) (.fresh [])
    0 0

/-- A packet of the client, read after the broker has closed. -/
def afterLoss (p : MqttPacket) : List Event := [brokerCloses, forwarded p]

/-- MQTT 3.1.1 takes nine bytes beside this payload, and MQTT 5 ten. -/
def large : Bytes := List.replicate (outageBufferMaxBytes - 9) 0

/-- The session ends exactly if the packet does not fit. -/
theorem run_afterLoss {s : Session} (hup : s.broker.isSome = true) (hempty : s.buffer = .empty)
    {p : MqttPacket} {qos : QoS} {i : UInt16} (hshape : p.shape = .publish qos i) :
    ∃ s', (sessionMachine (codec true)).run (.running s) (afterLoss p) =
      some (if OutageBuffer.empty.overflows (codec true) p then
        .ended (.error ⟨.quotaExceeded, "outage buffer full, closing session"⟩)
      else .running s', []) := by
  have hcloses : forwardLoop (codec true) (.running s) brokerCloses
      = some (.running (s.loseBroker (.fresh [])), []) := forwardLoop_connected hup
  have hread : forwardLoop (codec true) (.running (s.loseBroker (.fresh []))) (forwarded p)
      = some (outagePacket (codec true)
        { s.loseBroker (.fresh []) with client := .fresh [], lastClientActivity := 5000 } p .ok) :=
    rfl
  rw [outagePacket_publish _ hshape] at hread
  rw [← hempty]
  exact ⟨_, run_cons hcloses (run_cons hread (Machine.run_nil _ _))⟩

theorem len_publishIn {payload : Bytes} (hlength : payload.length = outageBufferMaxBytes - 9) :
    (encode (publishIn .mqtt3 payload)).len = outageBufferMaxBytes ∧
      (encode (publishIn .mqtt5 payload)).len = outageBufferMaxBytes + 1 := by
  have hbody : (text "t" ++ optionalId (some one) ++ payload).length = 1048572 := by
    simp [text, be16, optionalId, hlength, outageBufferMaxBytes]
  have hbody' : (text "t" ++ optionalId (some one) ++ publishProperties none ++ payload).length
      = 1048573 := by
    simp [text, be16, optionalId, publishProperties, hlength, outageBufferMaxBytes]
  constructor
  · show (varint 4 _ ++ _).length + 1 = _
    rw [List.length_append, hbody]
    rfl
  · show (varint 4 _ ++ _).length + 1 = _
    rw [List.length_append, hbody']
    rfl

/-- It fits in an empty buffer in MQTT 3.1.1 only. -/
theorem overflows_publishIn {payload : Bytes} (hlength : payload.length = outageBufferMaxBytes - 9) :
    OutageBuffer.empty.overflows (codec true) (publishIn .mqtt3 payload) = false ∧
      OutageBuffer.empty.overflows (codec true) (publishIn .mqtt5 payload) = true := by
  obtain ⟨hfits, hlonger⟩ := len_publishIn hlength
  constructor
  · rw [OutageBuffer.overflows, bufferedAs, publishIn_shape]
    refine decide_eq_false (Nat.not_lt.mpr ?_)
    exact Nat.le_of_eq ((Nat.zero_add _).trans hfits)
  · rw [OutageBuffer.overflows, bufferedAs, publishIn_shape]
    refine decide_eq_true ?_
    exact Nat.lt_of_lt_of_eq (Nat.lt_succ_self _) ((Nat.zero_add _).trans hlonger).symm

end ReferenceCodec

open ReferenceCodec in
/-- The same PUBLISH is held back in one version and ends the session in the other. -/
theorem runs_differ :
    session.Twins (codec true) sessionV5 ∧
    List.Forall₂ (AlikeEvents (codec true)) (afterLoss (publishIn .mqtt3 large))
      (afterLoss (publishIn .mqtt5 large)) ∧
    (∃ s, (sessionMachine (codec true)).run (.running session)
      (afterLoss (publishIn .mqtt3 large)) = some (.running s, [])) ∧
    (sessionMachine (codec true)).run (.running sessionV5) (afterLoss (publishIn .mqtt5 large))
      = some (.ended (.error ⟨.quotaExceeded, "outage buffer full, closing session"⟩), []) := by
  have hlength : large.length = outageBufferMaxBytes - 9 := List.length_replicate
  obtain ⟨hfits, hfull⟩ := overflows_publishIn hlength
  refine ⟨sessions_twins, ?_, ?_, ?_⟩
  · refine .cons (.brokerClosed _ ?_) (.cons (.clientRead _ _ _ _ _ (.packet ?_)) .nil)
    · rw [AlikeBytes, Framing.Reader.fresh, Codec.decodeAll_nil, Codec.decodeAll_nil]
      exact .nil
    · exact publishIn_alike large
  · obtain ⟨s, hrun⟩ := run_afterLoss (s := session) rfl rfl (publishIn_shape .mqtt3 large)
    rw [hfits] at hrun
    exact ⟨s, hrun⟩
  · obtain ⟨s, hrun⟩ := run_afterLoss (s := sessionV5) rfl rfl (publishIn_shape .mqtt5 large)
    rw [hfull] at hrun
    exact hrun

namespace ReferenceCodec

/-- A PUBLISH, the loss of the broker, a SUBSCRIBE that is held back, and a replay. -/
def bothPhases (v : ProtocolVersion) (subscribe : MqttPacket) (accepting : Attempt) : List Event :=
  [forwarded (publishIn v [7]), brokerCloses, forwarded subscribe, .wait (some accepting)]

theorem subscribe_alike : Alike subscribe (subscribeV5 none) :=
  .subscribe one none [("t", ⟨.atLeastOnce, false, false, .atSubscribe⟩)]

theorem bothPhases_alike : List.Forall₂ (AlikeEvents (codec true))
    (bothPhases .mqtt3 subscribe accepting) (bothPhases .mqtt5 (subscribeV5 none) acceptingV5) := by
  refine .cons (.clientRead _ _ _ _ _ (.packet (publishIn_alike [7]))) ?_
  refine .cons (.brokerClosed _ ?_) ?_
  · rw [AlikeBytes, Framing.Reader.fresh, Codec.decodeAll_nil, Codec.decodeAll_nil]
    exact .nil
  · refine .cons (.clientRead _ _ _ _ _ (.packet subscribe_alike)) (.cons (.accepted ?_) .nil)
    exact ⟨rfl, rfl, .packet (.connectAck _ _), .packet (.subscribeAck _ _ _)⟩

end ReferenceCodec

set_option maxRecDepth 4000 in
open ReferenceCodec in
theorem runs_alike_replayed : Related (Outcome.Twins (codec true)) Output.kind Output.kind
    ((sessionMachine (codec true)).run (.running session) (bothPhases .mqtt3 subscribe accepting))
    ((sessionMachine (codec true)).run (.running sessionV5)
      (bothPhases .mqtt5 (subscribeV5 none) acceptingV5)) := by
  refine runs_alike sessions_twins bothPhases_alike ?_
  refine (Machine.together_cons rfl rfl).mpr ⟨rfl, ?_⟩
  refine (Machine.together_cons rfl rfl).mpr ⟨rfl, ?_⟩
  refine (Machine.together_cons rfl rfl).mpr ⟨rfl, ?_⟩
  exact ⟨rfl, fun _ _ _ _ _ _ => trivial⟩

end TrafficDirector
