/-
# `TrafficDirector.Session.Timed` — sessions with a clock

The events of a session happen at times, in milliseconds, and client packets arrive
at the socket at times of their own.  The `select` takes any branch that is ready:
a packet that has arrived, a sleep that is over, the keepalive when its deadline has
passed.  Nothing says that it takes one soon, or which of several.

Each iteration of the loop makes its future `wait` anew.  So a backoff sleep is
counted from the beginning of the iteration that ends with it, and an iteration
that begins in the outage phase with the step `Connect` starts a connect attempt.

What an arm does once it is chosen, its writes included, takes no time: an event is stamped
with the time at which its iteration ends, and that is when the next one begins.
-/
import TrafficDirector.Session.Requests

namespace TrafficDirector

open Framing (Reader)

/-! ## The retry schedule -/

/-- The step and the backoff after an event that the session survives. -/
def Session.retryAfter (s : Session) : Event → OutageStep × Nat
  | .wait none =>
      match s.step with
      | .connect => (.backoff s.backoff, min (s.backoff * 2) brokerRetryMax)
      | .backoff _ => (.connect, s.backoff)
  | .wait (some _) | .migrate _ _ => (.connect, brokerRetryInitial)
  | _ => (s.step, s.backoff)

/-- When the client was last heard, after the event. -/
def Session.heardAfter (s : Session) : Event → Nat
  | .clientRead now (.packet _) _ _ _ | .migrate _ now => now
  | _ => s.lastClientActivity

/-- What an event that the session survives does to its retry schedule and to its
keepalive timer. -/
structure Clocked (s : Session) (e : Event) (s' : Session) : Prop where
  retry : (s'.step, s'.backoff) = s.retryAfter e
  heard : s'.lastClientActivity = s.heardAfter e

variable {c : Codec} {s s' : Session} {e : Event} {out : List Output}

theorem commonStep_clocked (h : commonStep c s e = some (.running s', out)) :
    Clocked s e s' := by
  have ht := commonStep_running h
  unfold commonStep at h
  split at h
  case h_1 after =>
    obtain ⟨rfl, -⟩ := running_inj (Option.some.inj h)
    exact ⟨rfl, rfl⟩
  case h_4 clientFd reply =>
    have h := (Prod.mk.inj (Option.some.inj h)).1
    unfold freezeSession at h
    split at h
    · rw [← Outcome.running.inj h]
      exact ⟨rfl, rfl⟩
    · exact nomatch h
  case h_5 id now =>
    cases ht with
    | idle quiet same => exact quiet.elim
    | migrated => exact ⟨rfl, rfl⟩
  case h_6 now notice =>
    split at h
    · exact nomatch (Prod.mk.inj (Option.some.inj h)).1
    · exact nomatch h
  case h_7 => exact nomatch h
  all_goals exact nomatch (Prod.mk.inj (Option.some.inj h)).1

theorem connectedStep_clocked (h : connectedStep c s e = some (.running s', out)) :
    Clocked s e s' := by
  unfold connectedStep at h
  split at h
  · next now p after pong forward =>
      have h := Option.some.inj h
      unfold clientPacket at h
      split at h
      · exact nomatch (Prod.mk.inj h).1
      · cases forward with
        | ok => obtain ⟨rfl, -⟩ := running_inj h; exact ⟨rfl, rfl⟩
        | failed text => obtain ⟨rfl, -⟩ := running_inj h; exact ⟨rfl, rfl⟩
  · obtain ⟨rfl, -⟩ := running_inj (Option.some.inj h); exact ⟨rfl, rfl⟩
  · next p after forward =>
      have h := Option.some.inj h
      unfold brokerPacket at h
      split at h
      · split at h
        · obtain ⟨rfl, -⟩ := running_inj h; exact ⟨rfl, rfl⟩
        · split at h
          · exact nomatch (Prod.mk.inj h).1
          · exact nomatch (Prod.mk.inj h).1
      · obtain ⟨rfl, -⟩ := running_inj h; exact ⟨rfl, rfl⟩
      · obtain ⟨rfl, -⟩ := running_inj h; exact ⟨rfl, rfl⟩
      · cases forward with
        | ok => obtain ⟨rfl, -⟩ := running_inj h; exact ⟨rfl, rfl⟩
        | failed text => exact nomatch (Prod.mk.inj h).1
  · obtain ⟨rfl, -⟩ := running_inj (Option.some.inj h); exact ⟨rfl, rfl⟩
  · obtain ⟨rfl, -⟩ := running_inj (Option.some.inj h); exact ⟨rfl, rfl⟩
  · exact commonStep_clocked h

theorem outageStep_clocked (h : outageStep c s e = some (.running s', out)) :
    Clocked s e s' := by
  unfold outageStep at h
  split at h
  · have h := Option.some.inj h
    unfold outagePacket at h
    split at h
    · exact nomatch (Prod.mk.inj h).1
    · obtain ⟨rfl, -⟩ := running_inj h; exact ⟨rfl, rfl⟩
  · next result =>
      split at h
      · have h := Option.some.inj h
        unfold connectBroker at h
        split at h
        · obtain ⟨rfl, -⟩ := running_inj h; exact ⟨rfl, rfl⟩
        · exact nomatch (Prod.mk.inj h).1
      · next hstep =>
          obtain ⟨rfl, -⟩ := running_inj (Option.some.inj h)
          exact ⟨by simp only [Session.retryAfter, hstep], rfl⟩
      · next hstep =>
          obtain ⟨rfl, -⟩ := running_inj (Option.some.inj h)
          exact ⟨by simp only [Session.retryAfter, hstep], rfl⟩
      · exact nomatch h
  · exact commonStep_clocked h

theorem forwardLoop_clocked (h : forwardLoop c (.running s) e = some (.running s', out)) :
    Clocked s e s' := by
  simp only [forwardLoop] at h
  split at h
  · exact connectedStep_clocked h
  · exact outageStep_clocked h

/-- While connected, the retry schedule is at its beginning; and no sleep is shorter
than the first. -/
structure Session.Scheduled (s : Session) : Prop where
  connected : s.broker.isSome = true → s.step = .connect ∧ s.backoff = brokerRetryInitial
  backoff : brokerRetryInitial ≤ s.backoff
  sleep : ∀ d, s.step = .backoff d → brokerRetryInitial ≤ d

theorem Session.scheduled_initial (id : SessionId) (hs : Handshake) (client broker : Reader UInt8)
    (now : Nat) : (Session.initial id hs client broker now).Scheduled where
  connected _ := ⟨rfl, rfl⟩
  backoff := Nat.le_refl _
  sleep _ h := nomatch h

/-- An outage that opens no connection goes on. -/
theorem forwardLoop_outage_goesOn (hopen : e.opens = false) (down : s.broker = none)
    (h : forwardLoop c (.running s) e = some (.running s', out)) : s'.broker = none :=
  ((forwardLoop_running h).outage hopen down).1

/-- Nothing is waited for while a broker is there. -/
theorem forwardLoop_wait_down {result : Option Attempt} {o : Outcome}
    (h : forwardLoop c (.running s) (.wait result) = some (o, out)) : s.broker = none := by
  cases hb : s.broker with
  | none => rfl
  | some b =>
      rw [forwardLoop_connected (hb ▸ rfl)] at h
      exact nomatch h

theorem forwardLoop_scheduled (hsch : s.Scheduled)
    (h : forwardLoop c (.running s) e = some (.running s', out)) : s'.Scheduled := by
  obtain ⟨hstep, hback⟩ := Prod.mk.inj (forwardLoop_clocked h).retry
  have hstart : (s'.step, s'.backoff) = (.connect, brokerRetryInitial) → s'.Scheduled := by
    intro h'
    obtain ⟨h₁, h₂⟩ := Prod.mk.inj h'
    exact ⟨fun _ => ⟨h₁, h₂⟩, Nat.le_of_eq h₂.symm, fun d hd => nomatch h₁.symm.trans hd⟩
  -- an event that leaves the schedule alone opens no connection
  have hsame : e.opens = false → (s'.step, s'.backoff) = (s.step, s.backoff) → s'.Scheduled := by
    intro hopen h'
    obtain ⟨h₁, h₂⟩ := Prod.mk.inj h'
    refine ⟨fun up' => ?_, h₂.symm ▸ hsch.backoff, fun d hd => hsch.sleep d (h₁ ▸ hd)⟩
    cases hb : s.broker with
    | none =>
        rw [forwardLoop_outage_goesOn hopen hb h] at up'
        exact nomatch up'
    | some b =>
        rw [h₁, h₂]
        exact hsch.connected (hb ▸ rfl)
  cases e with
  | wait result =>
      cases result with
      | some a => exact hstart (forwardLoop_clocked h).retry
      | none =>
          have down' := forwardLoop_outage_goesOn rfl (forwardLoop_wait_down h) h
          have hmax : brokerRetryInitial ≤ brokerRetryMax := by decide
          have hlow := hsch.backoff
          refine ⟨fun up' => (nomatch down' ▸ up'), ?_, fun d hd => ?_⟩
          · rw [hback]
            show _ ≤ (match s.step with
              | .connect => (OutageStep.backoff s.backoff, min (s.backoff * 2) brokerRetryMax)
              | .backoff _ => (.connect, s.backoff)).2
            cases s.step with
            | connect => exact Nat.le_min.mpr ⟨by omega, hmax⟩
            | backoff d => exact hlow
          · cases hs : s.step with
            | connect =>
                simp only [hs] at hstep
                rw [← OutageStep.backoff.inj (hstep.symm.trans hd)]
                exact hlow
            | backoff d' =>
                simp only [hs] at hstep
                exact nomatch hstep.symm.trans hd
  | migrate id now => exact hstart (forwardLoop_clocked h).retry
  | _ => exact hsame rfl (forwardLoop_clocked h).retry

/-- An iteration that begins here starts a connect attempt, if it comes to its `wait`. -/
def Outcome.dials : Outcome → Bool
  | .running s => s.broker.isNone && s.step = .connect
  | .ended _ => false

/-- The event is the end of what the outage phase waits for. -/
def Event.waits : Event → Bool
  | .wait _ => true
  | _ => false

/-- The event leads to a connect attempt without a sleep before it: it takes the
connection away, or it is chosen while an attempt is under way. -/
def Session.redials (s : Session) (e : Event) : Bool :=
  if s.broker.isSome then e.loses
  else e.migrates || (s.step = .connect && !e.waits)

/-- The event ends a backoff sleep. -/
def Session.wakes (s : Session) : Event → Bool
  | .wait none => s.step ≠ .connect
  | _ => false

theorem forwardLoop_dials (hsch : s.Scheduled)
    (h : forwardLoop c (.running s) e = some (.running s', out)) :
    (Outcome.running s').dials = (s.redials e || s.wakes e) := by
  obtain ⟨hstep, -⟩ := Prod.mk.inj (forwardLoop_clocked h).retry
  simp only [Outcome.dials, hstep, Session.redials]
  cases hb : s.broker with
  | some b =>
      have up : s.broker.isSome = true := hb ▸ rfl
      obtain ⟨hconnect, -⟩ := hsch.connected up
      have hloses := forwardLoop_loses up h
      rw [← Option.isNone_iff_eq_none, ← Bool.eq_iff_iff] at hloses
      rw [hloses]
      cases e with
      | wait result => cases (forwardLoop_wait_down h).symm.trans hb
      | migrate id now => rfl
      | _ => simp [Session.wakes, hconnect]
  | none =>
      cases e with
      | wait result =>
          cases result with
          | some a =>
              cases forwardLoop_running h with
              | idle quiet same => exact quiet.elim
              | replayed => simp [Session.wakes, Event.migrates, Event.waits, Session.afterReplay]
          | none =>
              rw [forwardLoop_outage_goesOn rfl hb h]
              cases hs : s.step <;> simp [Session.wakes, Event.migrates, Event.waits, hs]
      | migrate id now =>
          rw [forwardLoop_outage_goesOn rfl hb h]
          rfl
      | _ =>
          rw [forwardLoop_outage_goesOn rfl hb h]
          simp [Session.wakes, Event.migrates, Event.waits]

/-! ## The timed machine -/

/-- The event ends the iteration of the loop: it is not just bytes that complete no
packet. -/
def Event.completes : Event → Bool
  | .clientBytes _ | .brokerBytes _ => false
  | _ => true

/-- The time that the event itself records. -/
def Event.stamp : Event → Option Nat
  | .clientRead now _ _ _ _ | .migrate _ now | .keepalive now _ => some now
  | _ => none

/-- How long the iteration must have lasted: a sleep is not over sooner. -/
def Session.sleeps (s : Session) : Event → Nat
  | .wait none =>
      match s.step with
      | .connect => 0
      | .backoff d => d
  | _ => 0

/-- The client packets that wait to be read, after the event: the first one is read. -/
def unread (waiting : List MqttPacket) (e : Event) : Option (List MqttPacket) :=
  match e.clientPacket, waiting with
  | none, waiting => some waiting
  | some p, q :: waiting => if q = p then some waiting else none
  | some _, [] => none

structure Timed where
  session : Outcome
  now : Nat
  /-- when the present iteration of the loop began -/
  began : Nat
  /-- whether its `select` has come to its `wait`: it has not when it found another
  branch ready before -/
  polled : Bool
  /-- the client packets that have arrived and not been read -/
  waiting : List MqttPacket
  lastArrival : Nat
  /-- when the connect attempts so far were started, the last one first -/
  starts : List Nat

inductive TimedEvent where
  /-- a client packet arrives at the socket -/
  | arrives (t : Nat) (p : MqttPacket)
  /-- an event of the session; `polls` is for the iteration that begins then -/
  | steps (t : Nat) (e : Event) (polls : Bool)

def TimedEvent.time : TimedEvent → Nat
  | .arrives t _ | .steps t _ _ => t

namespace Timed

/-- `run_session` has dialed its broker at `dialed`, and enters the loop at `now`;
packets may have come in behind the CONNECT. -/
def initial (s : Session) (dialed now : Nat) (waiting : List MqttPacket) : Timed where
  session := .running s
  now := now
  began := now
  polled := false
  waiting := waiting
  lastArrival := now
  starts := [dialed]

/-- The event can happen at `t`. -/
def Ready (k : Timed) (s : Session) (t : Nat) (e : Event) : Prop :=
  k.now ≤ t ∧ k.began + s.sleeps e ≤ t ∧ (e.waits = true → k.polled = true) ∧
    ∀ now ∈ e.stamp, now = t

instance (k : Timed) (s : Session) (t : Nat) (e : Event) : Decidable (k.Ready s t e) := by
  unfold Ready
  infer_instance

/-- After the event, which has led the session to `o`. -/
def after (k : Timed) (o : Outcome) (t : Nat) (e : Event) (polls : Bool)
    (waiting : List MqttPacket) : Timed where
  session := o
  now := t
  began := if e.completes then t else k.began
  polled := if e.completes then polls else k.polled
  waiting := waiting
  lastArrival := k.lastArrival
  starts := if e.completes && o.dials && polls then t :: k.starts else k.starts

def step (c : Codec) (k : Timed) : TimedEvent → Option (Timed × List Output)
  | .arrives t p =>
      if k.now ≤ t then
        some ({ k with now := t, waiting := k.waiting ++ [p], lastArrival := t }, [])
      else none
  | .steps t e polls =>
      match k.session with
      | .ended _ => none
      | .running s =>
          if k.Ready s t e then
            match unread k.waiting e, forwardLoop c (.running s) e with
            | some waiting, some (o, out) => some (k.after o t e polls waiting, out)
            | _, _ => none
          else none

end Timed

/-- A session with a clock. -/
def timedMachine (c : Codec) : Machine Timed TimedEvent Output := ⟨Timed.step c⟩

variable {k k' : Timed} {t : Nat} {polls : Bool}

theorem Timed.arrives_eq_some {p : MqttPacket} :
    Timed.step c k (.arrives t p) = some (k', out) ↔ k.now ≤ t ∧
      k' = { k with now := t, waiting := k.waiting ++ [p], lastArrival := t } ∧ out = [] := by
  simp only [Timed.step]
  split
  · next hle =>
      rw [Option.some.injEq, Prod.mk.injEq]
      exact ⟨fun ⟨hk, ho⟩ => ⟨hle, hk.symm, ho.symm⟩, fun ⟨_, hk, ho⟩ => ⟨hk.symm, ho.symm⟩⟩
  · next hlt => exact ⟨fun h => (nomatch h), fun h => absurd h.1 hlt⟩

theorem Timed.steps_eq_some : Timed.step c k (.steps t e polls) = some (k', out) ↔
    ∃ s o waiting, k.session = .running s ∧ k.Ready s t e ∧ unread k.waiting e = some waiting ∧
      forwardLoop c (.running s) e = some (o, out) ∧ k' = k.after o t e polls waiting := by
  simp only [Timed.step]
  constructor
  · intro h
    split at h
    · exact nomatch h
    · next s hs =>
        split at h
        · next hready =>
            split at h
            · next waiting o out' hw hf =>
                obtain ⟨rfl, rfl⟩ := Prod.mk.inj (Option.some.inj h)
                exact ⟨s, o, waiting, hs, hready, hw, hf, rfl⟩
            · exact nomatch h
        · exact nomatch h
  · rintro ⟨s, o, waiting, hs, hready, hw, hf, rfl⟩
    rw [hs]
    dsimp only
    rw [if_pos hready, hw, hf]

/-- What a step of the clock is for the session. -/
def TimedEvent.event : TimedEvent → Option Event
  | .arrives _ _ => none
  | .steps _ e _ => some e

/-- The clock adds no behaviour: without it, a run is one of the session. -/
theorem timedMachine_projects {es : List TimedEvent} (h : (timedMachine c).run k es = some (k', out)) :
    (sessionMachine c).run k.session (es.filterMap TimedEvent.event) = some (k'.session, out) := by
  induction es generalizing k out with
  | nil =>
      obtain ⟨rfl, rfl⟩ := Prod.mk.inj (Option.some.inj h)
      rfl
  | cons ev es ih =>
      obtain ⟨k₁, out₁, out₂, hs, hr, rfl⟩ := Machine.run_cons_eq_some.mp h
      have hr := ih hr
      cases ev with
      | arrives t p =>
          obtain ⟨-, rfl, rfl⟩ := (Timed.arrives_eq_some (c := c)).mp hs
          exact hr
      | steps t e polls =>
          obtain ⟨s, o, waiting, hk, -, -, hf, rfl⟩ := Timed.steps_eq_some.mp hs
          rw [hk]
          exact run_cons hf hr

/-- A session that runs after a step ran before it. -/
theorem Timed.running_back {ev : TimedEvent} (h : Timed.step c k ev = some (k', out))
    (hs : k'.session = .running s') : ∃ s, k.session = .running s := by
  cases ev with
  | arrives t p =>
      obtain ⟨-, rfl, -⟩ := (Timed.arrives_eq_some (c := c)).mp h
      exact ⟨s', hs⟩
  | steps t e polls =>
      obtain ⟨s, _, _, hk, -⟩ := Timed.steps_eq_some.mp h
      exact ⟨s, hk⟩

end TrafficDirector
