/-
# `TrafficDirector.Session.Disconnect` — what follows a client's DISCONNECT

The outage phase ends the session on a DISCONNECT.  The connected phase forwards
it like any other packet and goes on, so that a broker loss before the client's
TCP close starts a replay: `disconnectFinal_iff`.
-/
import TrafficDirector.ReferenceCodec
import TrafficDirector.Session.Transition

namespace TrafficDirector

open Framing (Reader)

/-- Opening a broker connection, or writing to one. -/
def Output.reachesBroker : Output → Bool
  | .openBroker | .toBroker _ => true
  | .toClient _ => false

/-- Whatever happens from here on, no broker connection is opened or written to. -/
def QuietFrom (c : Codec) (o : Outcome) : Prop :=
  ∀ es o' out, (sessionMachine c).run o es = some (o', out) → ∀ x ∈ out, x.reachesBroker = false

/-- The event `e`, which reads the DISCONNECT `p`, is the session's last word to
any broker: `p` itself may be forwarded, and nothing after it. -/
def DisconnectFinal (c : Codec) (s : Session) (e : Event) (p : MqttPacket) : Prop :=
  ∀ o out, forwardLoop c (.running s) e = some (o, out) →
    (∀ x ∈ out, x.reachesBroker = true → x = .toBroker (.packet p)) ∧ QuietFrom c o

variable {c : Codec} {s : Session}

theorem quietFrom_ended (r : Except IoError Unit) : QuietFrom c (.ended r) := by
  intro es o' out h x hx
  cases es with
  | nil =>
      obtain ⟨-, rfl⟩ := Prod.mk.inj (Option.some.inj h)
      exact absurd hx List.not_mem_nil
  | cons e es =>
      obtain ⟨_, _, _, hs, _⟩ := Machine.run_cons_eq_some.mp h
      exact nomatch hs

theorem connectBroker_opens (c : Codec) (s : Session) (a : Attempt) :
    ∃ o out, connectBroker c s a = (o, .openBroker :: out) := by
  rcases connectBroker_cases c s a with ⟨_, _, _, h⟩ | ⟨_, _, _, _, h⟩
  · exact ⟨_, _, h⟩
  · exact ⟨_, _, h⟩

/-- In the outage phase a new broker connection is always a step or two away. -/
theorem not_quietFrom_outage (hdown : s.broker = none) : ¬ QuietFrom c (.running s) := by
  let a : Attempt := ⟨0, 0, .closed, .closed, .fresh [], ""⟩
  intro h
  cases hstep : s.step with
  | connect =>
      obtain ⟨o, out, hc⟩ := connectBroker_opens c s a
      have hwait := (forwardLoop_wait hdown hstep).trans (congrArg some hc)
      exact nomatch h _ _ _ (run_cons hwait (Machine.run_nil _ _)) .openBroker List.mem_cons_self
  | backoff d =>
      let s' := { s with broker := none, step := OutageStep.connect }
      obtain ⟨o, out, hc⟩ := connectBroker_opens c s' a
      have hsleep : forwardLoop c (.running s) (.wait none) = some (.running s', []) := by
        rw [forwardLoop_outage hdown]
        simp only [outageStep, hstep, s', hdown]
      have hwait := (forwardLoop_wait (c := c) (s := s') (a := a) rfl rfl).trans (congrArg some hc)
      exact nomatch h _ _ _ (run_cons hsleep (run_cons hwait (Machine.run_nil _ _))) .openBroker List.mem_cons_self

/-- Losing the broker is always possible in the connected phase. -/
theorem not_quietFrom_running : ¬ QuietFrom c (.running s) := by
  cases hb : s.broker with
  | none => exact not_quietFrom_outage hb
  | some b =>
      intro h
      refine not_quietFrom_outage (c := c) (s := s.loseBroker b) rfl
        (fun es o out hrun x hx => ?_)
      have hlose : forwardLoop c (.running s) (.brokerRead .closed b .ok)
          = some (.running (s.loseBroker b), []) :=
        forwardLoop_connected (by rw [hb]; rfl)
      exact h _ _ _ (run_cons hlose hrun) x hx

theorem answerPing_disconnect {p : MqttPacket} (h : p.shape = .disconnect) (pong : Sent) :
    answerPing p pong = .ok [] := by
  unfold answerPing
  split
  · exact nomatch h
  · exact nomatch h
  · rfl

/-- A DISCONNECT is final exactly when it is read during an outage. -/
theorem disconnectFinal_iff {e : Event} {p : MqttPacket} (hp : e.clientPacket = some p)
    (hshape : p.shape = .disconnect) : DisconnectFinal c s e p ↔ s.broker = none := by
  obtain ⟨now, after, pong, forward, rfl⟩ := Event.eq_clientRead hp
  constructor
  · intro h
    by_contra hne
    have hup : s.broker.isSome = true := Option.isSome_iff_ne_none.mpr hne
    have hstep : forwardLoop c (.running s) (.clientRead now (.packet p) after pong forward)
        = some (clientPacket c (s.heard now after) p pong forward) :=
      forwardLoop_connected hup
    unfold clientPacket at hstep
    rw [answerPing_disconnect hshape] at hstep
    cases forward with
    | ok => exact not_quietFrom_running (h _ _ hstep).2
    | failed err => exact not_quietFrom_running (h _ _ hstep).2
  · intro hdown o out hstep
    rw [forwardLoop_outage hdown] at hstep
    simp only [outageStep, outagePacket, serviceOutagePacket_eq, hshape, Option.some.injEq,
      Prod.mk.injEq] at hstep
    obtain ⟨rfl, rfl⟩ := hstep
    exact ⟨fun x hx => absurd hx List.not_mem_nil, quietFrom_ended _⟩

open ReferenceCodec in
theorem disconnectFinal_outage :
    DisconnectFinal (codec true) { session with broker := none } (forwarded (.v3 .disconnect))
      (.v3 .disconnect) :=
  (disconnectFinal_iff rfl rfl).mpr rfl

open ReferenceCodec in
/-- The DISCONNECT is forwarded, the broker closes its side before the client
does, and the session connects again and replays the CONNECT. -/
theorem disconnect_replayed :
    ¬ DisconnectFinal (codec true) session (forwarded (.v3 .disconnect)) (.v3 .disconnect) ∧
    ∃ s raw, (sessionMachine (codec true)).run (.running session)
      [forwarded (.v3 .disconnect), brokerCloses,
        .wait (some ⟨9, 9, .packet connack, .closed, .fresh [], ""⟩)]
      = some (.running s, [.toBroker (.packet (.v3 .disconnect)), .openBroker,
          .toBroker (.connect raw)]) := by
  refine ⟨fun h => ?_, _, _, rfl⟩
  have hquiet := (h _ _ rfl).2 [brokerCloses, .wait (some ⟨0, 0, .closed, .closed, .fresh [], ""⟩)]
    _ _ rfl .openBroker List.mem_cons_self
  exact nomatch hquiet

end TrafficDirector
