/-
# `TrafficDirector.Session.Silence` — clients dropped for their silence

The keepalive timer runs from the last packet that the session has read, not from
the last one that the client has sent.  A client that is never silent for long is
kept in the runs that read what has arrived before they take the keepalive branch;
`keepalive_silent_iff` says that no others keep it.
-/
import TrafficDirector.ReferenceCodec
import TrafficDirector.Session.Timed

namespace TrafficDirector

open Framing (Reader)

/-! ## Lively clients -/

namespace TimedEvent

/-- The keepalive branch is taken, and ends the session. -/
def Drops : TimedEvent → Prop
  | .steps _ (.keepalive _ _) _ => True
  | _ => False

instance (ev : TimedEvent) : Decidable ev.Drops := by
  unfold Drops
  split <;> infer_instance

end TimedEvent

namespace Timed

/-- At the time of the event, the client's last packet has arrived less than 1.5 times
the keepalive ago. -/
def Lively (k : Timed) (ev : TimedEvent) : Prop :=
  match k.session with
  | .running s => ev.time < clientDeadline s.hs.keepAlive k.lastArrival
  | .ended _ => True

instance : ∀ (k : Timed) (ev : TimedEvent), Decidable (k.Lively ev)
  | { session := .running _, .. }, _ => inferInstanceAs (Decidable (_ < _))
  | { session := .ended _, .. }, _ => .isTrue trivial

/-- The keepalive branch is not taken before what has arrived. -/
def ReadsFirst (k : Timed) (ev : TimedEvent) : Prop := ev.Drops → k.waiting = []

instance (k : Timed) (ev : TimedEvent) : Decidable (k.ReadsFirst ev) :=
  inferInstanceAs (Decidable (ev.Drops → k.waiting = []))

/-- A client of which nothing waits has been heard since its last packet came in. -/
structure Heard (k : Timed) : Prop where
  arrived : k.lastArrival ≤ k.now
  heard : ∀ s, k.session = .running s → k.waiting = [] → k.lastArrival ≤ s.lastClientActivity

end Timed

variable {c : Codec} {s : Session} {k k' : Timed} {e : Event} {out : List Output}

/-! ## One step -/

theorem clientDeadline_mono (keepAlive : UInt16) {a b : Nat} (h : a ≤ b) :
    clientDeadline keepAlive a ≤ clientDeadline keepAlive b := by
  unfold clientDeadline
  split
  · exact Nat.add_le_add_right h _
  · omega

/-- The keepalive branch is ready when the deadline has passed. -/
theorem forwardLoop_keepalive {now : Nat} {notice : Sent} {o : Outcome}
    (h : forwardLoop c (.running s) (.keepalive now notice) = some (o, out)) :
    clientDeadline s.hs.keepAlive s.lastClientActivity ≤ now := by
  have hcommon : forwardLoop c (.running s) (.keepalive now notice) =
      commonStep c s (.keepalive now notice) := by
    rw [forwardLoop]
    split <;> rfl
  rw [hcommon, commonStep] at h
  split at h
  · assumption
  · cases h

/-- An event that is no packet of the client leaves what waits. -/
theorem unread_eq {waiting waiting' : List MqttPacket} (he : e.clientPacket = none)
    (h : unread waiting e = some waiting') : waiting' = waiting := by
  unfold unread at h
  rw [he] at h
  exact (Option.some.inj h).symm

/-- The client is heard at the event, or it is not heard and nothing of it is read. -/
theorem Session.heardAfter_cases (s : Session) {t : Nat} (hstamp : ∀ now ∈ e.stamp, now = t) :
    s.heardAfter e = t ∨ (s.heardAfter e = s.lastClientActivity ∧ e.clientPacket = none) := by
  cases e with
  | clientRead now next after pong forward =>
      cases next with
      | packet p => exact Or.inl (hstamp now rfl)
      | error text => exact Or.inr ⟨rfl, rfl⟩
      | closed => exact Or.inr ⟨rfl, rfl⟩
  | migrate id now => exact Or.inl (hstamp now rfl)
  | _ => exact Or.inr ⟨rfl, rfl⟩

theorem Timed.heard_step {ev : TimedEvent} (h : k.Heard)
    (hs : Timed.step c k ev = some (k', out)) : k'.Heard := by
  cases ev with
  | arrives t p =>
      obtain ⟨hle, rfl, -⟩ := (Timed.arrives_eq_some (c := c)).mp hs
      exact ⟨Nat.le_refl t, fun s _ hnil => nomatch (List.append_eq_nil_iff.mp hnil).2⟩
  | steps t e polls =>
      obtain ⟨s, o, waiting, hk, hready, hw, hf, rfl⟩ := Timed.steps_eq_some.mp hs
      obtain ⟨hnow, -, -, hstamp⟩ := hready
      refine ⟨Nat.le_trans h.arrived hnow, fun s' hs' hnil => ?_⟩
      have hs' : o = .running s' := hs'
      subst hs'
      show k.lastArrival ≤ s'.lastClientActivity
      rw [(forwardLoop_clocked hf).heard]
      rcases s.heardAfter_cases hstamp with ht | ⟨hsame, hnone⟩
      · rw [ht]
        exact Nat.le_trans h.arrived hnow
      · have hnil : waiting = [] := hnil
        rw [hsame]
        exact h.heard s hk ((unread_eq hnone hw).symm.trans hnil)

/-- A lively client of which nothing waits is not dropped. -/
theorem Timed.not_drops {ev : TimedEvent} (h : k.Heard) (lively : k.Lively ev)
    (first : k.ReadsFirst ev) (hs : Timed.step c k ev = some (k', out)) : ¬ ev.Drops := by
  intro hdrops
  unfold TimedEvent.Drops at hdrops
  split at hdrops
  · next t now notice polls =>
      obtain ⟨s, o, waiting, hk, hready, -, hf, -⟩ := Timed.steps_eq_some.mp hs
      have hnow : now = t := hready.2.2.2 now rfl
      have hheard := clientDeadline_mono s.hs.keepAlive (h.heard s hk (first trivial))
      have hdue := forwardLoop_keepalive hf
      unfold Timed.Lively at lively
      rw [hk] at lively
      have lively : t < _ := lively
      omega
  · exact hdrops

/-! ## Runs -/

/-- A client whose packets arrive less than 1.5 times the keepalive apart is never
dropped by the keepalive branch: exactly in the runs that take this branch with
nothing waiting to be read, if they take it. -/
theorem keepalive_silent_iff {id : SessionId} {hs : Handshake} {client broker : Reader UInt8}
    {now dialed : Nat} {waiting : List MqttPacket} {es : List TimedEvent}
    (hrun : (timedMachine c).run
        (.initial (Session.initial id hs client broker now) dialed now waiting) es
      = some (k, out))
    (lively : (timedMachine c).Along Timed.Lively
      (.initial (Session.initial id hs client broker now) dialed now waiting) es) :
    (∀ ev ∈ es, ¬ ev.Drops) ↔
      (timedMachine c).Along Timed.ReadsFirst
        (.initial (Session.initial id hs client broker now) dialed now waiting) es := by
  have hstart : (Timed.initial (Session.initial id hs client broker now) dialed now waiting).Heard :=
    ⟨Nat.le_refl _, fun s hs _ => (Outcome.running.inj hs) ▸ Nat.le_refl _⟩
  rw [← Machine.along_forall (G := fun ev => ¬ ev.Drops) hrun]
  constructor
  · refine Machine.along_mono (I := fun _ => True) (fun _ _ _ _ _ hnot _ => ?_) trivial hrun
    exact ⟨trivial, fun hdrops => absurd hdrops hnot⟩
  · intro first
    refine Machine.along_mono (I := Timed.Heard) (fun k ev k' out hI hG hs => ?_) hstart hrun
      (Machine.along_and lively first)
    exact ⟨Timed.heard_step hI hs, Timed.not_drops hI hG.1 hG.2 hs⟩

namespace ReferenceCodec

/-- The session of `session`, with its clock at 0. -/
def clocked : Timed := .initial session 0 0 []

/-- A ping of the client is read and forwarded. -/
def readPing (now : Nat) : TimedEvent :=
  .steps now (.clientRead now (.packet ping) (.fresh []) .ok .ok) false

/-- The client pings 50 s, 110 s and 160 s after it has connected; a freeze, which is
rolled back, takes from second 100 to second 170, when the pings are read. -/
def frozenPings : List TimedEvent :=
  [.arrives 50000 ping, readPing 50000, .arrives 110000 ping, .arrives 160000 ping,
    .steps 170000 (.freeze 0 .gaveUp) false, readPing 170000, readPing 170000]

/-- The same pings; the broker closes, and the next one is so slow that the replay is
done at second 170.  Then the keepalive branch is taken. -/
def replayedPings : List TimedEvent :=
  [.arrives 50000 ping, readPing 50000, .steps 60000 brokerCloses true, .arrives 110000 ping,
    .arrives 160000 ping, .steps 170000 (.wait (some accepting)) false,
    .steps 170000 (.keepalive 170000 .ok) false]

end ReferenceCodec

open ReferenceCodec in
/-- After the freeze, the packets are read and the client is kept. -/
theorem keepalive_silent_read : ∃ k out,
    (timedMachine (codec true)).run clocked frozenPings = some (k, out) ∧
    ∀ ev ∈ frozenPings, ¬ ev.Drops := by
  have hrun : (timedMachine (codec true)).run clocked frozenPings = some (_, _) := rfl
  exact ⟨_, _, hrun, (keepalive_silent_iff hrun (by decide +kernel)).mpr (by decide +kernel)⟩

open ReferenceCodec in
/-- The deadline, 90 s after the ping that was read, passes during the replay: two
pings wait when the `select` takes the keepalive branch. -/
theorem keepalive_drops_lively : ∃ k out,
    (timedMachine (codec true)).run clocked replayedPings = some (k, out) ∧
    (timedMachine (codec true)).Along Timed.Lively clocked replayedPings ∧
    k.waiting = [ping, ping] ∧ k.session = .ended (.ok ()) ∧
    ¬ ∀ ev ∈ replayedPings, ¬ ev.Drops :=
  ⟨_, _, rfl, by decide +kernel, rfl, rfl, by decide⟩

end TrafficDirector
