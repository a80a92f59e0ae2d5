/-
# `TrafficDirector.Session.Delivery` — broker packets, live and left over

A packet of the broker reaches the client on one of two paths: the connected
phase reads it, or it sits in the read buffer when the connection goes and the
next replay drains it.  The two handlers differ: the drain forwards everything
and tracks nothing.  `leftoverAgrees_iff` says for which buffers this does not
show, and `replaySwallowsOwn_iff` when the packet that the replay takes for the
SUBACK is the SUBACK.
-/
import TrafficDirector.ReferenceCodec
import TrafficDirector.Session.Transition

namespace TrafficDirector

open Framing (Reader)
open Script

variable {c : Codec} {s : Session}

/-! ## The live path -/

/-- The event of reading a broker packet that the client then takes. -/
def Event.ofBroker (p : MqttPacket) : Event := .brokerRead (.packet p) (.fresh []) .ok

/-- In the connected phase, packets that are passed on reach the client in order
and are tracked in order. -/
theorem run_ofBroker {ps : List MqttPacket} (hup : s.broker.isSome = true)
    (hps : ∀ p ∈ ps, p.PassedOn) : ∃ broker, broker.isSome = true ∧
      (sessionMachine c).run (.running s) (ps.map Event.ofBroker) =
        some (.running { s with
            broker := broker, windows := ps.foldl (InflightWindows.trackB2c c) s.windows },
          ps.map (fun p => .toClient (.packet p))) := by
  induction ps generalizing s with
  | nil => exact ⟨s.broker, hup, rfl⟩
  | cons p ps ih =>
      have hp := brokerPacket_passedOn (c := c) (s := s) (.fresh []) (hps p List.mem_cons_self)
      have hstep : forwardLoop c (.running s) (Event.ofBroker p) = some (_, _) :=
        (if_pos hup).trans (congrArg some hp)
      obtain ⟨broker, hb, hrun⟩ := ih (s := { s with
        broker := some (.fresh []), windows := s.windows.trackB2c c p }) rfl
        (fun p' hp' => hps p' (List.mem_cons_of_mem _ hp'))
      exact ⟨broker, hb, Machine.run_cons_eq_some.mpr ⟨_, _, _, hstep, hrun, rfl⟩⟩

/-! ## The leftover path against the live path -/

/-- What the broker branch of the connected phase makes of a sequence of packets.
After an intercepted DISCONNECT the rest is leftover, for the next replay. -/
def liveDrain (c : Codec) : Session → List MqttPacket → Outcome × List Output
  | s, [] => (.running s, [])
  | s, p :: ps =>
      match brokerPacket c s p (.fresh []) .ok with
      | (.running s', out) =>
          if s'.broker.isSome then
            let r := liveDrain c s' ps
            (r.1, out ++ r.2)
          else (.running s', out ++ ps.map (fun p => .toClient (.packet p)))
      | (.ended r, out) => (.ended r, out)

theorem liveDrain_passedOn {ps : List MqttPacket} (hup : s.broker.isSome = true)
    (hps : ∀ p ∈ ps, p.PassedOn) : ∃ broker,
      liveDrain c s ps = (.running { s with
          broker := broker, windows := ps.foldl (InflightWindows.trackB2c c) s.windows },
        ps.map (fun p => .toClient (.packet p))) := by
  induction ps generalizing s with
  | nil => exact ⟨s.broker, rfl⟩
  | cons p ps ih =>
      obtain ⟨broker, h⟩ := ih (s := { s with
        broker := some (.fresh []), windows := s.windows.trackB2c c p }) rfl
        (fun p' hp' => hps p' (List.mem_cons_of_mem _ hp'))
      refine ⟨broker, ?_⟩
      rw [liveDrain, brokerPacket_passedOn _ (hps p List.mem_cons_self)]
      simp only [Option.isSome_some, if_true, h]
      rfl

theorem brokerPacket_swallowed {s' : Session} {p : MqttPacket} {after : Reader UInt8}
    {out : List Output} (hp : ¬ p.PassedOn)
    (h : brokerPacket c s p after .ok = (.running s', out)) : out = [] := by
  unfold brokerPacket at h
  split at h
  · split at h
    · exact (running_inj h).2.symm
    · exact nomatch (Prod.mk.inj h).1
  · exact (running_inj h).2.symm
  · exact (running_inj h).2.symm
  · next hd h₃ h₅ =>
      refine absurd ⟨?_, hd⟩ hp
      rcases p with p | p <;> cases p <;> simp_all [MqttPacket.shape, Publish.shape]
      all_goals split <;> simp

/-- Only a sequence that is passed on whole reaches the client whole. -/
theorem liveDrain_length {ps : List MqttPacket} {s' : Session} {out : List Output}
    (h : liveDrain c s ps = (.running s', out)) :
    out.length ≤ ps.length ∧ (out.length = ps.length → ∀ p ∈ ps, p.PassedOn) := by
  induction ps generalizing s s' out with
  | nil =>
      obtain ⟨-, rfl⟩ := running_inj h
      exact ⟨Nat.le_refl _, fun _ p hp => absurd hp List.not_mem_nil⟩
  | cons p ps ih =>
      rw [liveDrain] at h
      split at h
      · next s₁ out₁ hb =>
          have hout₁ : out₁.length ≤ 1 ∧ (¬ p.PassedOn → out₁ = []) := by
            by_cases hp : p.PassedOn
            · rw [brokerPacket_passedOn _ hp] at hb
              obtain ⟨-, rfl⟩ := running_inj hb
              exact ⟨Nat.le_refl _, fun hn => absurd hp hn⟩
            · exact ⟨by rw [brokerPacket_swallowed hp hb]; exact Nat.zero_le 1,
                fun _ => brokerPacket_swallowed hp hb⟩
          split at h
          · next hup =>
              cases hr : liveDrain c s₁ ps with
              | mk o out₂ =>
              rw [hr] at h
              obtain ⟨rfl, rfl⟩ := Prod.mk.inj h
              obtain ⟨hlen, hall⟩ := ih hr
              simp only [List.length_append, List.length_cons]
              refine ⟨by omega, fun heq p' hp' => ?_⟩
              rcases List.mem_cons.mp hp' with rfl | hp'
              · by_contra hn
                rw [hout₁.2 hn] at heq
                simp only [List.length_nil] at heq
                omega
              · exact hall (by omega) p' hp'
          · next hdown =>
              have hn : ¬ p.PassedOn := by
                intro hp
                rw [brokerPacket_passedOn _ hp] at hb
                obtain ⟨rfl, -⟩ := running_inj hb
                exact hdown rfl
              obtain ⟨-, rfl⟩ := running_inj h
              rw [hout₁.2 hn]
              simp
      · exact nomatch (Prod.mk.inj h).1

/-- Draining `buf` in a replay does what the connected phase would have done with
the packets in it: the same frames to the client, the same windows. -/
def LeftoverAgrees (c : Codec) (s : Session) (buf : Bytes) : Prop :=
  ∀ r r' : Replay, r.windows = s.windows → r.brokerLeftover = buf → r.out = [] →
    deliverLeftover c s.hs.version r = .ok () r' →
    ∃ s', liveDrain c s (c.decodeAll s.hs.version buf) = (.running s', r'.out) ∧
      s'.windows = r'.windows

/-- No packet that the live path would have swallowed, no acknowledgement of an
open exchange, and no delivery that is not already in the b2c window. -/
structure LeftoverHarmless (c : Codec) (s : Session) (ps : List MqttPacket) : Prop where
  passedOn : ∀ p ∈ ps, p.PassedOn
  acknowledged : ∀ p ∈ ps, ∀ i, acknowledgedId p = some i → i ∉ s.windows.c2b.keys
  delivered : ∀ i entry, OrdMap.lastFor i (ps.filterMap (deliveryEntry c)) = some entry →
    s.windows.b2c.get? i = some entry

theorem windows_trackB2c_eq_self {ps : List MqttPacket} {w : InflightWindows} :
    ps.foldl (InflightWindows.trackB2c c) w = w ↔
      (∀ p ∈ ps, ∀ i, acknowledgedId p = some i → i ∉ w.c2b.keys) ∧
      ∀ i entry, OrdMap.lastFor i (ps.filterMap (deliveryEntry c)) = some entry →
        w.b2c.get? i = some entry := by
  obtain ⟨c2b, b2c⟩ := w
  rw [InflightWindows.foldl_trackB2c, InflightWindows.mk.injEq, OrdMap.eraseAll_eq_self, OrdMap.insertAll_eq_self]
  simp only [List.mem_filterMap]
  constructor
  · rintro ⟨h, h'⟩; exact ⟨fun p hp i hi => h i ⟨p, hp, hi⟩, h'⟩
  · rintro ⟨h, h'⟩
    refine ⟨?_, h'⟩
    rintro i ⟨p, hp, hi⟩
    exact h p hp i hi

theorem LeftoverAgrees.harmless {buf : Bytes} (hup : s.broker.isSome = true)
    (h : LeftoverAgrees c s buf) : LeftoverHarmless c s (c.decodeAll s.hs.version buf) := by
  -- a replay whose client takes every write
  obtain ⟨r, hr⟩ : ∃ r : Replay, r = ⟨⟨0, (c.decodeAll s.hs.version buf).length, .closed, .closed,
    .fresh [], ""⟩, s.windows, .empty, buf, 0, []⟩ := ⟨_, rfl⟩
  have hdrain : deliverLeftover c s.hs.version r = .ok () _ :=
    deliverLeftover_eq_ok.mpr ⟨Nat.le_of_eq (by rw [hr]), rfl⟩
  obtain ⟨s', hlive, hwin⟩ := h r _ (by rw [hr]) (by rw [hr]) (by rw [hr]) hdrain
  rw [hr] at hlive hwin
  have hps := (liveDrain_length hlive).2 (by simp [Replay.sentClient])
  obtain ⟨broker, hlive'⟩ := liveDrain_passedOn (c := c) hup hps
  rw [hlive'] at hlive
  obtain ⟨rfl, -⟩ := running_inj hlive
  obtain ⟨hack, hdel⟩ := windows_trackB2c_eq_self.mp hwin
  exact ⟨hps, hack, hdel⟩

/-- The leftover path agrees with the live path exactly on harmless buffers. -/
theorem leftoverAgrees_iff {buf : Bytes} (hup : s.broker.isSome = true) :
    LeftoverAgrees c s buf ↔ LeftoverHarmless c s (c.decodeAll s.hs.version buf) := by
  refine ⟨LeftoverAgrees.harmless hup, fun h r r' hwin hleft hout hdrain => ?_⟩
  obtain ⟨-, rfl⟩ := deliverLeftover_eq_ok.mp hdrain
  obtain ⟨broker, hlive⟩ := liveDrain_passedOn (c := c) hup h.passedOn
  refine ⟨{ s with broker := broker }, ?_, hwin.symm⟩
  rw [hlive, windows_trackB2c_eq_self.mpr ⟨h.acknowledged, h.delivered⟩]
  simp [Replay.sentClient, hleft, hout, List.map_map]

open ReferenceCodec in
/-- With nothing in the window, a PUBACK in the buffer is harmless. -/
theorem leftoverAgrees_stray_puback :
    LeftoverAgrees (codec true) session (encode (puback one)).toBytes := by
  refine (leftoverAgrees_iff rfl).mpr ?_
  rw [show (codec true).decodeAll session.hs.version (encode (puback one)).toBytes
    = [puback one] by decide]
  refine ⟨?_, ?_, ?_⟩
  · simp [MqttPacket.PassedOn, puback, MqttPacket.shape]
  · simp [session, Session.initial, InflightWindows.new, OrdMap.keys, OrdMap.empty]
  · exact fun i entry h => by cases h

open ReferenceCodec in
/-- The PUBACK of a forwarded PUBLISH is in the read buffer when the broker goes:
it reaches the client, and the PUBLISH stays in the window. -/
theorem leftover_puback_diverges : ∃ s out,
    (sessionMachine (codec true)).run (.running session) [forwarded (publish one [])]
      = some (.running s, out) ∧
    ¬ LeftoverAgrees (codec true) s (encode (puback one)).toBytes := by
  refine ⟨_, _, rfl, fun h => ?_⟩
  have hack := (h.harmless rfl).acknowledged (puback one) (by decide) 1 rfl
  exact hack (by decide)

/-! ## The replay's own SUBACK -/

/-- What a broker sends of its own accord on a resumed session. -/
def MqttPacket.IsRedelivery (p : MqttPacket) : Prop :=
  p.shape = .publishAtMostOnce ∨ (∃ q i, p.shape = .publish q i) ∨ ∃ i, p.shape = .publishRelease i

theorem MqttPacket.IsRedelivery.passedOn {p : MqttPacket} (h : p.IsRedelivery) : p.PassedOn := by
  rcases h with h | ⟨q, i, h⟩ | ⟨i, h⟩
  · exact passedOn_of_shape (by simp [h]) (by simp [h])
  · exact passedOn_of_shape (by simp [h]) (by simp [h])
  · exact passedOn_of_shape (by simp [h]) (by simp [h])

/-- What the broker sends after its CONNACK: redeliveries, and among them the
SUBACK of the re-SUBSCRIBE if there is one. -/
def afterConnack (s : Session) (pre : List MqttPacket) (suback : MqttPacket)
    (post : List MqttPacket) : List MqttPacket :=
  if s.subscriptions.entries = [] then pre ++ post else pre ++ suback :: post

/-- Of these packets, the one that the replay reads for the SUBACK. -/
def takenForSuback (s : Session) (ps : List MqttPacket) : Next :=
  if s.subscriptions.entries = [] then .closed
  else match ps with
    | [] => .closed
    | p :: _ => .packet p

/-- And the ones that are left for the connected phase. -/
def leftForLater (s : Session) (ps : List MqttPacket) : List MqttPacket :=
  if s.subscriptions.entries = [] then ps else ps.drop 1

/-- Whenever a broker that sends `ps` after its CONNACK serves the replay, and the
connected phase has read the rest of `ps`, the client has got `redelivered`, no
more and no less, and all of it was tracked. -/
def SwallowsOnlyOwn (c : Codec) (s : Session) (ps redelivered : List MqttPacket) : Prop :=
  ∀ a, Serves c s a → a.suback = takenForSuback s ps →
    ∃ s' raw, (sessionMachine c).run (.running s)
        (.wait (some a) :: (leftForLater s ps).map Event.ofBroker)
          = some (.running s', (.openBroker :: s.replayPlan c raw)
            ++ redelivered.map (fun p => .toClient (.packet p))) ∧
      s'.windows.b2c = s.windows.b2c.insertAll (redelivered.filterMap (deliveryEntry c))

/-- A served replay, followed by broker packets that are passed on. -/
theorem run_replay_ofBroker {a : Attempt} {ps : List MqttPacket} (hdown : s.broker = none)
    (hstep : s.step = .connect) (hserves : Serves c s a) (hps : ∀ p ∈ ps, p.PassedOn) :
    ∃ s' raw, (sessionMachine c).run (.running s) (.wait (some a) :: ps.map Event.ofBroker)
        = some (.running s', (.openBroker :: s.replayPlan c raw)
          ++ ps.map (fun p => .toClient (.packet p))) ∧
      s'.windows.b2c = s.windows.b2c.insertAll (ps.filterMap (deliveryEntry c)) := by
  rcases connectBroker_cases c s a with ⟨raw, hraw, -, hc⟩ | ⟨_, _, hno, _⟩
  · have hwait : forwardLoop c (.running s) (.wait (some a)) =
        some (.running (s.afterReplay a), .openBroker :: s.replayPlan c raw) := by
      simp only [forwardLoop, hdown, Option.isSome_none, Bool.false_eq_true, if_false,
        outageStep, hstep]
      exact congrArg some hc
    obtain ⟨broker, -, hrun⟩ := run_ofBroker (c := c) (s := s.afterReplay a) rfl hps
    refine ⟨_, raw, Machine.run_cons_eq_some.mpr ⟨_, _, _, hwait, hrun, rfl⟩, ?_⟩
    simp only [InflightWindows.foldl_trackB2c, Session.afterReplay, Session.flushedWindows, foldl_flushWindow]
  · exact absurd hserves hno

/-- The broker that sends `ps` after its CONNACK and lets every write happen. -/
def servingAttempt (c : Codec) (s : Session) (ps : List MqttPacket) : Attempt where
  brokerWrites := 1 + (resubscribeFrames s.hs.version s.subscriptions).length
    + s.windows.brokerRetransmits.length + s.buffer.entries.length
  clientWrites := (s.leftoverPackets c).length + s.windows.clientRetransmits.length
  connack := .packet (.v3 (.connectAck ⟨.connectionAccepted, true⟩))
  suback := takenForSuback s ps
  after := .fresh []
  writeError := ""

/-- A packet ahead of the SUBACK is swallowed in its place. -/
theorem not_swallowsOnlyOwn {p suback : MqttPacket} {pre post : List MqttPacket}
    (hdown : s.broker = none) (hstep : s.step = .connect)
    (hpatched : ∃ raw, forceSessionResumption s.hs.connectRaw = .ok raw)
    (hsub : suback.shape = .subscribeAck Subscriptions.resubscribeId.get)
    (hpre : ∀ p' ∈ p :: pre, p'.IsRedelivery) (hpost : ∀ p' ∈ post, p'.IsRedelivery)
    (htable : s.subscriptions.entries ≠ []) :
    ¬ SwallowsOnlyOwn c s (p :: pre ++ suback :: post) (p :: pre ++ post) := by
  have hsubp : suback.PassedOn :=
    MqttPacket.passedOn_of_shape (by simp [hsub]) (by simp [hsub])
  have htaken : takenForSuback s (p :: pre ++ suback :: post) = .packet p := by
    simp [takenForSuback, htable]
  have hserves : Serves c s (servingAttempt c s (p :: pre ++ suback :: post)) :=
    ⟨hpatched, rfl, fun _ => congrArg Next.isPacket htaken, Nat.le_refl _,
      Nat.le_refl _⟩
  intro h
  obtain ⟨s', raw, hrun, -⟩ := h _ hserves rfl
  have hpassed : ∀ p' ∈ pre ++ suback :: post, p'.PassedOn := by
    intro p' hp'
    rcases List.mem_append.mp hp' with h | h
    · exact (hpre p' (List.mem_cons_of_mem _ h)).passedOn
    · rcases List.mem_cons.mp h with rfl | h
      · exact hsubp
      · exact (hpost p' h).passedOn
  obtain ⟨s'', raw', hrun', -⟩ := run_replay_ofBroker hdown hstep hserves hpassed
  -- what the client got begins after `p` and has the SUBACK in it
  have hlater : leftForLater s (p :: pre ++ suback :: post) = pre ++ suback :: post := by
    simp [leftForLater, htable]
  rw [hlater, hrun'] at hrun
  have hout := (List.append_inj (Prod.mk.inj (Option.some.inj hrun)).2
    (by simp [Session.replayPlan])).2
  have hmem : Output.toClient (.packet suback) ∈
      (p :: pre ++ post).map (fun p => Output.toClient (.packet p)) := by
    rw [← hout]
    exact List.mem_map_of_mem (List.mem_append_right _ List.mem_cons_self)
  obtain ⟨p', hp', heq⟩ := List.mem_map.mp hmem
  obtain rfl : p' = suback := Frame.packet.inj (Output.toClient.inj heq)
  have hred : p'.IsRedelivery := (List.mem_append.mp hp').elim (hpre p') (hpost p')
  rcases hred with h | ⟨_, _, h⟩ | ⟨_, h⟩ <;> cases hsub.symm.trans h

/-- The replay swallows its own SUBACK, and only that, exactly when there is none
to wait for or it is the first packet after the CONNACK. -/
theorem replaySwallowsOwn_iff {pre post : List MqttPacket} {suback : MqttPacket}
    (hdown : s.broker = none) (hstep : s.step = .connect)
    (hpatched : ∃ raw, forceSessionResumption s.hs.connectRaw = .ok raw)
    (hsub : suback.shape = .subscribeAck Subscriptions.resubscribeId.get)
    (hpre : ∀ p ∈ pre, p.IsRedelivery) (hpost : ∀ p ∈ post, p.IsRedelivery) :
    SwallowsOnlyOwn c s (afterConnack s pre suback post) (pre ++ post) ↔
      s.subscriptions.entries = [] ∨ pre = [] := by
  unfold afterConnack
  constructor
  · intro h
    by_contra hno
    obtain ⟨htable, hne⟩ := not_or.mp hno
    cases pre with
    | nil => exact hne rfl
    | cons p pre =>
        rw [if_neg htable] at h
        exact not_swallowsOnlyOwn hdown hstep hpatched hsub hpre hpost htable h
  · intro h a hserves _
    by_cases htable : s.subscriptions.entries = []
    · simp only [htable, if_true, leftForLater]
      exact run_replay_ofBroker hdown hstep hserves (fun p hp =>
        ((List.mem_append.mp hp).elim (hpre p) (hpost p)).passedOn)
    · obtain rfl := h.resolve_left htable
      simp only [htable, if_false, leftForLater, List.nil_append, List.drop_one, List.tail_cons]
      exact run_replay_ofBroker hdown hstep hserves (fun p hp => (hpost p hp).passedOn)

theorem isRedelivery_publish (i : NonZeroU16) (payload : Bytes) :
    (ReferenceCodec.publish i payload).IsRedelivery :=
  Or.inr (Or.inl ⟨_, _, rfl⟩)

open ReferenceCodec in
/-- A subscribed client, and a broker that answers before it redelivers. -/
theorem replaySwallowsOwn_suback_first : ∃ s out,
    (sessionMachine (codec true)).run (.running session) [forwarded subscribe, brokerCloses]
      = some (.running s, out) ∧
    SwallowsOnlyOwn (codec true) s (afterConnack s [] suback [publish one []])
      ([] ++ [publish one []]) := by
  refine ⟨_, _, rfl, (replaySwallowsOwn_iff rfl rfl ⟨_, rfl⟩ rfl ?_ ?_).mpr (Or.inr rfl)⟩
  · exact fun p hp => absurd hp List.not_mem_nil
  · exact fun p hp => List.mem_singleton.mp hp ▸ isRedelivery_publish one []

open ReferenceCodec in
/-- The same client, and a broker that redelivers a PUBLISH first: the replay
swallows it, and the client gets a SUBACK it never asked for. -/
theorem replay_swallows_redelivery : ∃ s out,
    (sessionMachine (codec true)).run (.running session) [forwarded subscribe, brokerCloses]
      = some (.running s, out) ∧
    ¬ SwallowsOnlyOwn (codec true) s (afterConnack s [publish one []] suback [])
      ([publish one []] ++ []) := by
  refine ⟨_, _, rfl, ?_⟩
  rw [afterConnack, if_neg (by decide)]
  refine not_swallowsOnlyOwn rfl rfl ⟨_, rfl⟩ rfl ?_ ?_ (by decide)
  · exact fun p hp => List.mem_singleton.mp hp ▸ isRedelivery_publish one []
  · exact fun p hp => absurd hp List.not_mem_nil

end TrafficDirector
