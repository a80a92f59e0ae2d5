/-
# `TrafficDirector.Session.Transition` — what one step can do

`Transition` lists, with its full effect, every way a session goes from running
to running; `forwardLoop_running` says that there are no others, and
`forwardLoop_out` what a step may write, be it the last.  Every invariant of a
session is proved by cases on `Transition`.
-/
import TrafficDirector.Session.Replay

namespace TrafficDirector

open Framing (Reader)

/-- The packet this event reads from the client. -/
def Event.clientPacket : Event → Option MqttPacket
  | .clientRead _ (.packet p) _ _ _ => some p
  | _ => none

theorem Event.eq_clientRead {e : Event} {p : MqttPacket} (h : e.clientPacket = some p) :
    ∃ now after pong forward, e = .clientRead now (.packet p) after pong forward := by
  unfold Event.clientPacket at h
  split at h
  · next now p' after pong forward => exact ⟨now, after, pong, forward, by rw [Option.some.inj h]⟩
  · exact nomatch h

/-- The packet this event reads from an open broker connection. -/
def Event.brokerPacket : Event → Option MqttPacket
  | .brokerRead (.packet p) _ _ => some p
  | _ => none

theorem Event.eq_brokerRead {e : Event} {p : MqttPacket} (h : e.brokerPacket = some p) :
    ∃ after forward, e = .brokerRead (.packet p) after forward := by
  unfold Event.brokerPacket at h
  split at h
  · next p' after forward => exact ⟨after, forward, by rw [Option.some.inj h]⟩
  · exact nomatch h

/-- The broker packets passed on to the client: all but a PINGRESP and a v5
DISCONNECT. -/
def MqttPacket.PassedOn (p : MqttPacket) : Prop :=
  p.shape ≠ .pingResponse ∧ ∀ d, p ≠ .v5 (.disconnect d)

theorem MqttPacket.passedOn_of_shape {p : MqttPacket} (hping : p.shape ≠ .pingResponse)
    (hdisconnect : p.shape ≠ .disconnect) : p.PassedOn := by
  refine ⟨hping, ?_⟩
  rintro d rfl
  exact hdisconnect rfl

/-- What only packets that are passed on have, others do not have. -/
theorem eq_none_of_not_passedOn {α : Type} {g : MqttPacket → Option α}
    (hg : ∀ p a, g p = some a → p.PassedOn) {p : MqttPacket} (hp : ¬ p.PassedOn) : g p = none := by
  cases ha : g p with
  | none => rfl
  | some a => exact absurd (hg p a ha) hp

/-- An event that brings no packet but one that is swallowed, and neither a
connection nor a hand-off. -/
def Event.Quiet : Event → Prop
  | .clientRead _ (.packet _) _ _ _ => False
  | .brokerRead (.packet p) _ _ => ¬ p.PassedOn
  | .wait (some _) => False
  | .migrate _ _ => False
  | _ => True

theorem Event.Quiet.clientPacket {e : Event} (h : e.Quiet) : e.clientPacket = none := by
  unfold Event.clientPacket
  split
  · exact absurd h id
  · rfl

/-- The event accepts a new broker connection. -/
def Event.opens : Event → Bool
  | .wait (some _) => true
  | _ => false

theorem Event.Quiet.opens {e : Event} (h : e.Quiet) : e.opens = false := by
  unfold Event.opens
  split
  · exact h.elim
  · rfl

theorem Event.not_wait {e : Event} (h : e.opens = false) (a : Attempt) : e ≠ .wait (some a) := by
  rintro rfl
  exact nomatch h

/-- The event hands the session over to the next generation. -/
def Event.migrates : Event → Bool
  | .migrate _ _ => true
  | _ => false

/-- The client side's reader after this event. -/
def Session.clientAfter (s : Session) : Event → Reader UInt8
  | .clientBytes after | .clientRead _ _ after _ _ => after
  | .freeze _ (.resumed returned) => ⟨s.client.held, returned.snapshot.clientBuf⟩
  | .migrate _ _ => .fresh s.client.buf
  | _ => s.client

/-- The broker side's reader after this event, if the connection stays. -/
def Session.brokerAfter (s : Session) : Event → Option (Reader UInt8)
  | .brokerBytes after | .brokerRead _ after _ => some after
  | .freeze _ (.resumed returned) =>
      s.broker.map (fun b => ⟨b.held, returned.snapshot.brokerBuf⟩)
  | _ => s.broker

/-- The event took `s` to `s'` and changed nothing but readers and the retry
schedule. -/
structure Same (e : Event) (s s' : Session) : Prop where
  hs : s'.hs = s.hs
  client : s'.client = s.clientAfter e
  broker : s'.broker = s.brokerAfter e
  up : s'.broker.isSome = s.broker.isSome
  windows : s'.windows = s.windows
  subscriptions : s'.subscriptions = s.subscriptions
  buffer : s'.buffer = s.buffer
  brokerLeftover : s'.brokerLeftover = s.brokerLeftover

/-- The session as the next process generation adopts it. -/
def Session.adopted (s : Session) (id : SessionId) (now : Nat) (keepAlive : UInt16) : Session where
  id := id
  hs := { s.hs with keepAlive := keepAlive }
  client := .fresh s.client.buf
  broker := none
  windows := s.windows
  subscriptions := s.subscriptions
  buffer := .ofEntries s.buffer.entries
  brokerLeftover := (s.broker.map Reader.buf).getD []
  backoff := brokerRetryInitial
  step := .connect
  lastClientActivity := now

/-- The session after reading a client packet, the packet itself apart. -/
def Session.heard (s : Session) (now : Nat) (after : Reader UInt8) : Session :=
  { s with client := after, lastClientActivity := now }

/-- The session with a client packet accounted for. -/
def Session.tracked (c : Codec) (s : Session) (p : MqttPacket) : Session :=
  { s with windows := s.windows.trackC2b c p, subscriptions := s.subscriptions.track p }

inductive Transition (c : Codec) (s : Session) : Event → Session → List Output → Prop where
  | idle {e : Event} {s' : Session} (quiet : e.Quiet) (same : Same e s s') :
      Transition c s e s' []
  | forwarded {now : Nat} {p : MqttPacket} {after : Reader UInt8} {pong : Sent}
      {pongs : List Output} (up : s.broker.isSome = true) (answered : answerPing p pong = .ok pongs) :
      Transition c s (.clientRead now (.packet p) after pong .ok)
        ((s.heard now after).tracked c p) (pongs ++ [.toBroker (.packet p)])
  | unsent {now : Nat} {p : MqttPacket} {after : Reader UInt8} {pong : Sent} {e : String}
      {pongs : List Output} (up : s.broker.isSome = true) (answered : answerPing p pong = .ok pongs) :
      Transition c s (.clientRead now (.packet p) after pong (.failed e))
        { (s.heard now after).tracked c p with broker := none } pongs
  | held {now : Nat} {p : MqttPacket} {after : Reader UInt8} {pong forward : Sent} {v : Serviced}
      (down : s.broker = none)
      (serviced : serviceOutagePacket c ⟨s.buffer, s.subscriptions, s.windows, []⟩ p pong = .ok v) :
      Transition c s (.clientRead now (.packet p) after pong forward)
        { s.heard now after with
          buffer := v.buffer, subscriptions := v.subscriptions, windows := v.windows } v.out
  | delivered {p : MqttPacket} {after : Reader UInt8} (up : s.broker.isSome = true)
      (passedOn : p.PassedOn) :
      Transition c s (.brokerRead (.packet p) after .ok)
        { s with broker := some after, windows := s.windows.trackB2c c p } [.toClient (.packet p)]
  | lost {next : Next} {after : Reader UInt8} {forward : Sent} (up : s.broker.isSome = true)
      (quiet : Event.Quiet (.brokerRead next after forward)) :
      Transition c s (.brokerRead next after forward) (s.loseBroker after) []
  | replayed {a : Attempt} {raw : Bytes} (down : s.broker = none)
      (patched : forceSessionResumption s.hs.connectRaw = .ok raw) (serves : Serves c s a) :
      Transition c s (.wait (some a)) (s.afterReplay a) (.openBroker :: s.replayPlan c raw)
  | migrated (id : SessionId) (now : Nat) (keepAlive : UInt16) :
      Transition c s (.migrate id now) (s.adopted id now keepAlive) []

/-- Adopting a snapshot gives back the session it was taken of, with fresh
readers and no broker. -/
theorem adoptSession_freeze {c : Codec} {s s' : Session} {fd : Int} {id : SessionId} {now : Nat}
    (h : adoptSession c (s.freeze fd).snapshot id now = .ok s') :
    ∃ keepAlive, s' = s.adopted id now keepAlive := by
  unfold adoptSession at h
  cases hhs : Handshake.fromSnapshotVersion c (s.freeze fd).snapshot.version
      (s.freeze fd).snapshot.connectRaw with
  | error e => rw [hhs] at h; exact nomatch h
  | ok hs =>
      rw [hhs] at h
      obtain ⟨keepAlive, rfl⟩ := Handshake.fromSnapshotVersion_ok hhs
      refine ⟨keepAlive, ?_⟩
      rw [← Except.ok.inj h]
      simp [Session.freeze, Session.adopted]

theorem answerPing_ok (p : MqttPacket) : ∃ pongs, answerPing p .ok = .ok pongs := by
  unfold answerPing
  split <;> exact ⟨_, rfl⟩

theorem answerPing_toClient {p : MqttPacket} {pong : Sent} {pongs : List Output}
    (h : answerPing p pong = .ok pongs) :
    ∃ fs ⊆ [Frame.packet p.pingResponse], pongs = fs.map .toClient := by
  unfold answerPing at h
  split at h
  case h_3 => exact ⟨[], List.nil_subset _, (Except.ok.inj h).symm⟩
  all_goals
    cases pong with
    | ok => exact ⟨_, List.Subset.refl _, (Except.ok.inj h).symm⟩
    | failed e => exact nomatch h

variable {c : Codec} {s s' : Session} {e : Event} {out : List Output}

theorem running_inj {s s' : Session} {o o' : List Output}
    (h : (Outcome.running s, o) = (Outcome.running s', o')) : s = s' ∧ o = o' :=
  ⟨Outcome.running.inj (Prod.mk.inj h).1, (Prod.mk.inj h).2⟩

theorem commonStep_running (h : commonStep c s e = some (.running s', out)) :
    Transition c s e s' out := by
  unfold commonStep at h
  split at h
  case h_1 after =>
    obtain ⟨rfl, rfl⟩ := running_inj (Option.some.inj h)
    exact .idle trivial ⟨rfl, rfl, rfl, rfl, rfl, rfl, rfl, rfl⟩
  case h_4 clientFd reply =>
    obtain ⟨h₁, rfl⟩ := Prod.mk.inj (Option.some.inj h)
    cases reply with
    | dropped => exact nomatch h₁
    | gaveUp =>
        rw [← Outcome.running.inj h₁]
        refine .idle trivial ⟨rfl, rfl, ?_, by simp, rfl, rfl, rfl, rfl⟩
        show s.broker.map (fun b => ⟨b.held, (s.broker.map Reader.buf).getD []⟩) = s.broker
        cases s.broker <;> rfl
    | resumed returned =>
        rw [← Outcome.running.inj h₁]
        exact .idle trivial ⟨rfl, rfl, rfl, by simp, rfl, rfl, rfl, rfl⟩
  case h_5 id now =>
    obtain ⟨h₁, rfl⟩ := Prod.mk.inj (Option.some.inj h)
    unfold migrateSession at h₁
    split at h₁
    · next s₁ hs₁ =>
        obtain ⟨keepAlive, rfl⟩ := adoptSession_freeze hs₁
        rw [← Outcome.running.inj h₁]
        exact .migrated id now keepAlive
    · exact nomatch h₁
  case h_6 now notice =>
    split at h
    · exact nomatch (Prod.mk.inj (Option.some.inj h)).1
    · exact nomatch h
  all_goals exact nomatch h

theorem clientPacket_running {p : MqttPacket} {now : Nat} {after : Reader UInt8}
    {pong forward : Sent} (up : s.broker.isSome = true)
    (h : clientPacket c (s.heard now after) p pong forward = (.running s', out)) :
    Transition c s (.clientRead now (.packet p) after pong forward) s' out := by
  unfold clientPacket at h
  split at h
  · exact nomatch (Prod.mk.inj h).1
  · next pongs hpongs =>
      cases forward with
      | ok =>
          obtain ⟨rfl, rfl⟩ := running_inj h
          exact .forwarded up hpongs
      | failed e =>
          obtain ⟨rfl, rfl⟩ := running_inj h
          exact .unsent up hpongs

theorem brokerPacket_passedOn {p : MqttPacket} (after : Reader UInt8) (h : p.PassedOn) :
    brokerPacket c s p after .ok =
      (.running { s with broker := some after, windows := s.windows.trackB2c c p },
        [.toClient (.packet p)]) := by
  unfold brokerPacket
  split
  · next d => exact absurd rfl (h.2 d)
  · exact absurd rfl h.1
  · exact absurd rfl h.1
  · rfl

theorem brokerPacket_running {p : MqttPacket} {after : Reader UInt8} {forward : Sent}
    (up : s.broker.isSome = true)
    (h : brokerPacket c s p after forward = (.running s', out)) :
    Transition c s (.brokerRead (.packet p) after forward) s' out := by
  unfold brokerPacket at h
  split at h
  · split at h
    · obtain ⟨rfl, rfl⟩ := running_inj h
      exact .lost up (fun hp => hp.2 _ rfl)
    · split at h
      · exact nomatch (Prod.mk.inj h).1
      · exact nomatch (Prod.mk.inj h).1
  · obtain ⟨rfl, rfl⟩ := running_inj h
    exact .idle (fun hp => hp.1 rfl) ⟨rfl, rfl, rfl, up.symm, rfl, rfl, rfl, rfl⟩
  · obtain ⟨rfl, rfl⟩ := running_inj h
    exact .idle (fun hp => hp.1 rfl) ⟨rfl, rfl, rfl, up.symm, rfl, rfl, rfl, rfl⟩
  · next hd h₃ h₅ =>
      cases forward with
      | failed e => exact nomatch (Prod.mk.inj h).1
      | ok =>
          obtain ⟨rfl, rfl⟩ := running_inj h
          refine .delivered up ⟨?_, hd⟩
          rcases p with p | p <;> cases p <;> simp_all [MqttPacket.shape, Publish.shape]
          all_goals split <;> simp

/-- A running session goes to a running one by a `Transition` only. -/
theorem forwardLoop_running (h : forwardLoop c (.running s) e = some (.running s', out)) :
    Transition c s e s' out := by
  simp only [forwardLoop] at h
  split at h
  · next up =>
      unfold connectedStep at h
      split at h
      · exact clientPacket_running up (Option.some.inj h)
      · obtain ⟨rfl, rfl⟩ := running_inj (Option.some.inj h)
        exact .idle trivial ⟨rfl, rfl, rfl, up.symm, rfl, rfl, rfl, rfl⟩
      · exact brokerPacket_running up (Option.some.inj h)
      · obtain ⟨rfl, rfl⟩ := running_inj (Option.some.inj h)
        exact .lost up trivial
      · obtain ⟨rfl, rfl⟩ := running_inj (Option.some.inj h)
        exact .lost up trivial
      · exact commonStep_running h
  · next hup =>
      have down : s.broker = none := by simpa using hup
      unfold outageStep at h
      split at h
      · next now p after pong forward =>
          have h := Option.some.inj h
          unfold outagePacket at h
          split at h
          · exact nomatch (Prod.mk.inj h).1
          · next v hv =>
              obtain ⟨rfl, rfl⟩ := running_inj h
              exact .held down hv
      · next result =>
          split at h
          · next a _ =>
              have h := Option.some.inj h
              rcases connectBroker_cases c s a with ⟨raw, hraw, hserves, hc⟩ | ⟨_, _, _, _, hc⟩
              · rw [hc] at h
                obtain ⟨rfl, rfl⟩ := running_inj h
                exact .replayed down hraw hserves
              · rw [hc] at h
                exact nomatch (Prod.mk.inj h).1
          · obtain ⟨rfl, rfl⟩ := running_inj (Option.some.inj h)
            exact .idle trivial ⟨rfl, rfl, rfl, rfl, rfl, rfl, rfl, rfl⟩
          · obtain ⟨rfl, rfl⟩ := running_inj (Option.some.inj h)
            exact .idle trivial ⟨rfl, rfl, rfl, rfl, rfl, rfl, rfl, rfl⟩
          · exact nomatch h
      · exact commonStep_running h

/-- The table after a step. -/
theorem Transition.subscriptions (h : Transition c s e s' out) :
    s'.subscriptions = e.clientPacket.toList.foldl Subscriptions.track s.subscriptions := by
  cases h with
  | idle quiet same =>
      rw [same.subscriptions, quiet.clientPacket]
      rfl
  | held down serviced => exact serviceOutagePacket_subscriptions serviced
  | _ => rfl

/-! ## The readers -/

theorem Transition.client (h : Transition c s e s' out) : s'.client = s.clientAfter e := by
  cases h with
  | idle quiet same => exact same.client
  | _ => rfl

/-- A connection that stays is read by nothing but the events that say so. -/
theorem Transition.broker (h : Transition c s e s' out) (up : s.broker.isSome = true)
    (up' : s'.broker.isSome = true) : s'.broker = s.brokerAfter e := by
  cases h with
  | idle quiet same => exact same.broker
  | unsent => exact nomatch up'
  | lost => exact nomatch up'
  | migrated => exact nomatch up'
  | replayed down patched serves =>
      rw [down] at up
      exact nomatch up
  | _ => rfl

/-- Version and CONNECT never change. -/
theorem Transition.connect (h : Transition c s e s' out) :
    s'.hs.connectRaw = s.hs.connectRaw ∧ s'.hs.version = s.hs.version := by
  cases h with
  | idle quiet same => rw [same.hs]; exact ⟨rfl, rfl⟩
  | _ => exact ⟨rfl, rfl⟩

/-- Without a new connection an outage goes on, and keeps its leftover unless the
session is handed over. -/
theorem Transition.outage (h : Transition c s e s' out) (hopen : e.opens = false)
    (down : s.broker = none) :
    s'.broker = none ∧ s'.hs.version = s.hs.version ∧
      s'.brokerLeftover = if e.migrates then [] else s.brokerLeftover := by
  cases h with
  | idle quiet same =>
      have hup := same.up
      rw [down] at hup
      refine ⟨by simpa using hup, by rw [same.hs], ?_⟩
      cases e with
      | migrate => exact quiet.elim
      | _ => exact same.brokerLeftover
  | forwarded up => rw [down] at up; exact nomatch up
  | unsent up => rw [down] at up; exact nomatch up
  | held => exact ⟨down, rfl, rfl⟩
  | delivered up => rw [down] at up; exact nomatch up
  | lost up => rw [down] at up; exact nomatch up
  | replayed => exact nomatch hopen
  | migrated id now keepAlive =>
      refine ⟨rfl, rfl, ?_⟩
      show (s.broker.map Reader.buf).getD [] = []
      rw [down]
      rfl

/-! ## What a step writes -/

theorem forwardLoop_wait_inv {a : Attempt} {o : Outcome}
    (h : forwardLoop c (.running s) (.wait (some a)) = some (o, out)) :
    s.broker = none ∧ connectBroker c s a = (o, out) := by
  simp only [forwardLoop] at h
  split at h
  · exact nomatch h
  · next hup =>
      simp only [outageStep] at h
      split at h
      · next a' _ ha => exact ⟨by simpa using hup, Option.some.inj ha ▸ Option.some.inj h⟩
      · next hn => exact nomatch hn
      · next hn => exact nomatch hn
      · exact nomatch h

/-- An attempt opens a connection and follows the plan of the replay. -/
theorem connectBroker_followsPlan (c : Codec) (s : Session) (a : Attempt) :
    (connectBroker c s a).2 <+:
      .openBroker :: s.replayPlan c (patchedConnect s.hs.connectRaw) := by
  rcases connectBroker_cases c s a with ⟨raw, hraw, -, hc⟩ | ⟨e, out, -, hout, hc⟩
  · rw [patchedConnect_ok hraw]
    exact hc ▸ List.prefix_rfl
  · rw [hc]
    exact (List.prefix_cons_inj _).mpr hout

theorem Sent.toClient_ok {forward : Sent} {p : MqttPacket} {out : List Output}
    (h : forward.toClient p = .ok out) : out = [.toClient (.packet p)] := by
  cases forward with
  | ok => exact (Except.ok.inj h).symm
  | failed e => exact nomatch h

/-- What a client that was silent for too long may be told. -/
def keepaliveNotice : Frame := .packet (.v5 (.disconnect ⟨.keepAliveTimeout⟩))

/-- A step that ends the session writes the packet it has read from the broker, or
the keepalive notice, to the client. -/
def EndsWith (e : Event) (out : List Output) : Prop :=
  (∃ p, e.brokerPacket = some p ∧ out = [.toClient (.packet p)]) ∨
    ∃ fs ⊆ [keepaliveNotice], out = fs.map .toClient

theorem EndsWith.toClient (h : EndsWith e out) : ∃ fs : List Frame, out = fs.map .toClient := by
  rcases h with ⟨p, -, rfl⟩ | ⟨fs, -, rfl⟩
  · exact ⟨[_], rfl⟩
  · exact ⟨fs, rfl⟩

theorem EndsWith.nil : EndsWith e [] :=
  Or.inr ⟨[], List.nil_subset _, rfl⟩

theorem brokerPacket_ended_out {p : MqttPacket} {after : Reader UInt8} {forward : Sent}
    {r : Except IoError Unit} (h : brokerPacket c s p after forward = (.ended r, out)) :
    EndsWith (.brokerRead (.packet p) after forward) out := by
  unfold brokerPacket at h
  split at h
  · split at h
    · exact nomatch (Prod.mk.inj h).1
    · split at h
      · next out' hout =>
          rw [← (Prod.mk.inj h).2, Sent.toClient_ok hout]
          exact Or.inl ⟨_, rfl, rfl⟩
      · rw [← (Prod.mk.inj h).2]
        exact .nil
  · exact nomatch (Prod.mk.inj h).1
  · exact nomatch (Prod.mk.inj h).1
  · cases forward with
    | ok => exact nomatch (Prod.mk.inj h).1
    | failed err =>
        rw [← (Prod.mk.inj h).2]
        exact .nil

theorem commonStep_out {o : Outcome} (h : commonStep c s e = some (o, out)) : EndsWith e out := by
  unfold commonStep at h
  split at h
  case h_6 now notice =>
    split at h
    · rw [← (Prod.mk.inj (Option.some.inj h)).2]
      unfold closeForKeepalive
      split
      · exact Or.inr ⟨_, List.Subset.refl _, rfl⟩
      · exact .nil
    · exact nomatch h
  case h_7 => exact nomatch h
  all_goals
    rw [← (Prod.mk.inj (Option.some.inj h)).2]
    exact .nil

theorem forwardLoop_ended_out {r : Except IoError Unit}
    (h : forwardLoop c (.running s) e = some (.ended r, out)) (hwait : ∀ a, e ≠ .wait (some a)) :
    EndsWith e out := by
  simp only [forwardLoop] at h
  split at h
  · unfold connectedStep at h
    split at h
    · have h := Option.some.inj h
      unfold clientPacket at h
      split at h
      · rw [← (Prod.mk.inj h).2]
        exact .nil
      · split at h
        · exact nomatch (Prod.mk.inj h).1
        · exact nomatch (Prod.mk.inj h).1
    · exact nomatch (Prod.mk.inj (Option.some.inj h)).1
    · exact brokerPacket_ended_out (Option.some.inj h)
    · exact nomatch (Prod.mk.inj (Option.some.inj h)).1
    · exact nomatch (Prod.mk.inj (Option.some.inj h)).1
    · exact commonStep_out h
  · unfold outageStep at h
    split at h
    · have h := Option.some.inj h
      unfold outagePacket at h
      split at h
      · rw [← (Prod.mk.inj h).2]
        exact .nil
      · exact nomatch (Prod.mk.inj h).1
    · split at h
      · exact absurd rfl (hwait _)
      · exact nomatch (Prod.mk.inj (Option.some.inj h)).1
      · exact nomatch (Prod.mk.inj (Option.some.inj h)).1
      · exact nomatch h
    · exact commonStep_out h

/-- Apart from replays, a step writes to the client and forwards the packet it read. -/
theorem forwardLoop_out {o : Outcome} (h : forwardLoop c (.running s) e = some (o, out))
    (hwait : ∀ a, e ≠ .wait (some a)) :
    ∃ fs : List Frame, out = fs.map .toClient ∨
      ∃ now p after pong, e = .clientRead now (.packet p) after pong .ok ∧
        s.broker.isSome = true ∧ out = fs.map .toClient ++ [.toBroker (.packet p)] := by
  cases o with
  | running s' =>
      cases forwardLoop_running h with
      | idle quiet same => exact ⟨[], Or.inl rfl⟩
      | forwarded up answered =>
          obtain ⟨fs, -, rfl⟩ := answerPing_toClient answered
          exact ⟨fs, Or.inr ⟨_, _, _, _, rfl, up, rfl⟩⟩
      | unsent up answered =>
          obtain ⟨fs, -, rfl⟩ := answerPing_toClient answered
          exact ⟨fs, Or.inl rfl⟩
      | held down serviced =>
          obtain ⟨fs, -, hfs⟩ := serviceOutagePacket_out serviced
          exact ⟨fs, Or.inl hfs⟩
      | delivered up passedOn => exact ⟨[_], Or.inl rfl⟩
      | lost up quiet => exact ⟨[], Or.inl rfl⟩
      | replayed down patched serves => exact absurd rfl (hwait _)
      | migrated id now keepAlive => exact ⟨[], Or.inl rfl⟩
  | ended r =>
      obtain ⟨fs, hfs⟩ := (forwardLoop_ended_out h hwait).toClient
      exact ⟨fs, Or.inl hfs⟩

/-! ## Runs -/

theorem forwardLoop_connected (hup : s.broker.isSome = true) :
    forwardLoop c (.running s) e = connectedStep c s e :=
  if_pos hup

theorem forwardLoop_outage (hdown : s.broker = none) :
    forwardLoop c (.running s) e = outageStep c s e := by
  rw [forwardLoop, hdown]; rfl

theorem run_cons {o o' o'' : Outcome} {es : List Event} {out' : List Output}
    (hs : forwardLoop c o e = some (o', out))
    (hr : (sessionMachine c).run o' es = some (o'', out')) :
    (sessionMachine c).run o (e :: es) = some (o'', out ++ out') :=
  Machine.run_cons_eq_some.mpr ⟨o', out, out', hs, hr, rfl⟩

/-- A broker connection attempt in the outage phase. -/
theorem forwardLoop_wait {a : Attempt} (hdown : s.broker = none) (hstep : s.step = .connect) :
    forwardLoop c (.running s) (.wait (some a)) = some (connectBroker c s a) := by
  rw [forwardLoop_outage hdown]
  simp only [outageStep, hstep]

theorem running_of_run {o : Outcome} {es : List Event} {t : Session}
    (h : (sessionMachine c).run o es = some (.running t, out)) : ∃ s, o = .running s := by
  cases o with
  | running s => exact ⟨s, rfl⟩
  | ended r =>
      cases es with
      | nil => exact nomatch (Prod.mk.inj (Option.some.inj h)).1
      | cons e es =>
          obtain ⟨_, _, _, hs, _⟩ := Machine.run_cons_eq_some.mp h
          exact nomatch hs

/-- A session that runs after a step ran before it. -/
theorem running_of_step {o : Outcome} (h : forwardLoop c o e = some (.running s', out)) :
    ∃ s, o = .running s :=
  running_of_run (run_cons h (Machine.run_nil _ _))

/-- The first step of a run that still runs at its end. -/
theorem run_cons_running {es : List Event} {t : Session}
    (h : (sessionMachine c).run (.running s) (e :: es) = some (.running t, out)) :
    ∃ s₁ o₁ o₂, Transition c s e s₁ o₁ ∧
      (sessionMachine c).run (.running s₁) es = some (.running t, o₂) ∧ out = o₁ ++ o₂ := by
  obtain ⟨o, o₁, o₂, hs, hr, rfl⟩ := Machine.run_cons_eq_some.mp h
  obtain ⟨s₁, rfl⟩ := running_of_run hr
  exact ⟨s₁, o₁, o₂, forwardLoop_running hs, hr, rfl⟩

/-- What every transition on an event of the run preserves, the run preserves. -/
theorem run_transitions {I : Session → Prop} {es : List Event} {t : Session}
    (hstep : ∀ e ∈ es, ∀ s s' o, I s → Transition c s e s' o → I s') (hI : I s)
    (h : (sessionMachine c).run (.running s) es = some (.running t, out)) : I t := by
  induction es generalizing s out with
  | nil =>
      obtain ⟨rfl, -⟩ := running_inj (Option.some.inj h)
      exact hI
  | cons e es ih =>
      obtain ⟨s₁, o₁, o₂, hs, hr, -⟩ := run_cons_running h
      exact ih (fun e' he' => hstep e' (List.mem_cons_of_mem _ he'))
        (hstep e List.mem_cons_self s s₁ o₁ hI hs) hr

/-- What every transition preserves of a session and its history, a run preserves. -/
theorem run_gather_transitions {α : Type} {f : Outcome → Event → List α}
    {I : Session → List α → Prop} {es : List Event} {t : Session} {l : List α}
    (hstep : ∀ e s s' o l, I s l → Transition c s e s' o → I s' (l ++ f (.running s) e))
    (hI : I s l) (h : (sessionMachine c).run (.running s) es = some (.running t, out)) :
    I t (l ++ (sessionMachine c).gather f (.running s) es) := by
  induction es generalizing s l out with
  | nil =>
      obtain ⟨rfl, -⟩ := running_inj (Option.some.inj h)
      rw [Machine.gather, List.append_nil]
      exact hI
  | cons e es ih =>
      obtain ⟨o, o₁, o₂, hs, hr, -⟩ := Machine.run_cons_eq_some.mp h
      obtain ⟨s₁, rfl⟩ := running_of_run hr
      rw [Machine.gather_cons hs, ← List.append_assoc]
      exact ih (hstep e s s₁ o₁ l hI (forwardLoop_running hs)) hr

theorem run_version {es : List Event} {t : Session}
    (h : (sessionMachine c).run (.running s) es = some (.running t, out)) :
    t.hs.version = s.hs.version :=
  run_transitions (I := fun t => t.hs.version = s.hs.version)
    (fun _ _ _ _ _ h ht => ht.connect.2.trans h) rfl h

/-! ## The connected phase holds nothing back -/

/-- Whatever was held back during an outage is gone once a broker is there. -/
def Session.Settled (s : Session) : Prop :=
  s.broker.isSome = true → s.buffer.entries = [] ∧ s.brokerLeftover = []

theorem Session.settled_initial (id : SessionId) (hs : Handshake) (client broker : Reader UInt8)
    (now : Nat) : (Session.initial id hs client broker now).Settled :=
  fun _ => ⟨rfl, rfl⟩

theorem Transition.settled (hs : s.Settled) (h : Transition c s e s' out) : s'.Settled := by
  cases h with
  | idle quiet same =>
      intro up
      rw [same.up] at up
      rw [same.buffer, same.brokerLeftover]
      exact hs up
  | forwarded up answered => exact fun _ => hs up
  | unsent up answered => exact fun up' => nomatch up'
  | held down serviced =>
      intro up
      exact absurd (down ▸ up : (none : Option (Reader UInt8)).isSome = true) (by simp)
  | delivered up passedOn => exact fun _ => hs up
  | lost up quiet => exact fun up' => nomatch up'
  | replayed down patched serves => exact fun _ => ⟨rfl, rfl⟩
  | migrated id now keepAlive => exact fun up' => nomatch up'

theorem run_settled {es : List Event} {t : Session} (hs : s.Settled)
    (h : (sessionMachine c).run (.running s) es = some (.running t, out)) : t.Settled :=
  run_transitions (fun _ _ _ _ _ hs ht => ht.settled hs) hs h

end TrafficDirector
