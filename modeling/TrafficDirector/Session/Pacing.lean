/-
# `TrafficDirector.Session.Pacing` — how far apart the connect attempts are

A connect attempt that follows a backoff sleep comes at least `BROKER_RETRY_INITIAL`
after the one before.  The others have no such pause before them: the first attempt
after a lost connection or a hand-over, and the one that replaces an attempt the
`select` has dropped.  `paced_iff` says that nothing but these can come too soon.
-/
import TrafficDirector.ReferenceCodec
import TrafficDirector.Session.Timed

namespace TrafficDirector

open Framing (Reader)

/-! ## Instants that are apart -/

/-- Instants, the last one first, of which any two neighbours are `d` apart. -/
def Apart (d : Nat) : List Nat → Prop :=
  List.IsChain (fun later earlier => earlier + d ≤ later)

instance (d : Nat) (l : List Nat) : Decidable (Apart d l) :=
  inferInstanceAs (Decidable (List.IsChain _ _))

theorem apart_cons {d x : Nat} {l : List Nat} :
    Apart d (x :: l) ↔ (∀ y ∈ l.head?, y + d ≤ x) ∧ Apart d l := by
  cases l with
  | nil => exact ⟨fun _ => ⟨fun _ hy => (nomatch hy), .nil⟩, fun _ => .singleton x⟩
  | cons y l =>
      refine List.isChain_cons_cons.trans (and_congr_left (fun _ => ?_))
      exact ⟨fun h z hz => Option.some.inj hz ▸ h, fun h => h y rfl⟩

/-- So many instants take so long. -/
theorem Apart.lasts {d x first : Nat} {l : List Nat} (h : Apart d (x :: l))
    (hfirst : (x :: l).getLast? = some first) : first + l.length * d ≤ x := by
  induction l generalizing x with
  | nil =>
      have hx : x = first := Option.some.inj hfirst
      rw [hx]
      simp
  | cons y l ih =>
      obtain ⟨hxy, hl⟩ := apart_cons.mp h
      have hx : y + d ≤ x := hxy y rfl
      have hy := ih hl (by rwa [List.getLast?_cons_cons] at hfirst)
      rw [List.length_cons, Nat.succ_mul]
      omega

/-! ## Attempts -/

namespace Timed

/-- Any two consecutive connect attempts are `BROKER_RETRY_INITIAL` apart, and so many
attempts take as long as that. -/
structure Paced (k : Timed) : Prop where
  apart : Apart brokerRetryInitial k.starts
  lasts : ∀ last rest first, k.starts = last :: rest → k.starts.getLast? = some first →
    first + rest.length * brokerRetryInitial ≤ last

theorem paced_of_apart {k : Timed} (h : Apart brokerRetryInitial k.starts) : k.Paced where
  apart := h
  lasts last rest first hstarts hfirst := by
    rw [hstarts] at h hfirst
    exact h.lasts hfirst

/-- If the event leads to an attempt without a sleep before it, the last attempt is
long enough ago. -/
def Spaced (k : Timed) : TimedEvent → Prop
  | .arrives _ _ => True
  | .steps t e polls =>
      match k.session with
      | .running s => (s.redials e && e.completes && polls) = true →
          ∀ x ∈ k.starts.head?, x + brokerRetryInitial ≤ t
      | .ended _ => True

instance (k : Timed) (ev : TimedEvent) : Decidable (k.Spaced ev) := by
  unfold Spaced
  split
  · infer_instance
  · split <;> infer_instance

/-- The attempts so far have started before the present iteration, or with it. -/
structure Clock (k : Timed) : Prop where
  scheduled : ∀ s, k.session = .running s → s.Scheduled
  starts : ∀ x ∈ k.starts, x ≤ k.began
  began : k.began ≤ k.now

end Timed

variable {c : Codec} {s s' : Session} {k k' : Timed} {e : Event} {out : List Output}
  {t : Nat} {polls : Bool}

/-! ## One step -/

theorem Timed.clock_step {ev : TimedEvent} (h : k.Clock)
    (hs : Timed.step c k ev = some (k', out)) : k'.Clock := by
  cases ev with
  | arrives t p =>
      obtain ⟨hle, rfl, -⟩ := (Timed.arrives_eq_some (c := c)).mp hs
      exact ⟨h.scheduled, h.starts, Nat.le_trans h.began hle⟩
  | steps t e polls =>
      obtain ⟨s, o, waiting, hk, ⟨hnow, -⟩, -, hf, rfl⟩ := Timed.steps_eq_some.mp hs
      have hbegan : k.began ≤ t := Nat.le_trans h.began hnow
      refine ⟨fun s' hs' => ?_, fun x hx => ?_, ?_⟩
      · have hs' : o = .running s' := hs'
        subst hs'
        exact forwardLoop_scheduled (h.scheduled s hk) hf
      · have hx : x ∈ if e.completes && o.dials && polls then t :: k.starts else k.starts := hx
        show x ≤ if e.completes then t else k.began
        cases hcomp : e.completes with
        | false =>
            rw [hcomp] at hx
            exact h.starts x hx
        | true =>
            rw [hcomp] at hx
            have hold : x ∈ k.starts → x ≤ t := fun hx => Nat.le_trans (h.starts x hx) hbegan
            split at hx
            · exact (List.mem_cons.mp hx).elim (fun h => Nat.le_of_eq h) hold
            · exact hold hx
      · show (if e.completes then t else k.began) ≤ t
        split
        · exact Nat.le_refl t
        · exact hbegan

/-- An attempt that follows a sleep is paced by it. -/
theorem Timed.wakes_spaced (h : k.Clock) (hk : k.session = .running s) (hready : k.Ready s t e)
    (hwakes : s.wakes e = true) : ∀ x ∈ k.starts.head?, x + brokerRetryInitial ≤ t := by
  intro x hx
  have hx := h.starts x (List.mem_of_mem_head? hx)
  have hslept := hready.2.1
  unfold Session.wakes at hwakes
  split at hwakes
  · cases hstep : s.step with
    | connect =>
        rw [hstep] at hwakes
        exact nomatch hwakes
    | backoff d =>
        have hlong := (h.scheduled s hk).sleep d hstep
        simp only [Session.sleeps, hstep] at hslept
        omega
  · exact nomatch hwakes

theorem Timed.paced_step {ev : TimedEvent} (h : k.Clock) (hpaced : k.Paced)
    (hs : Timed.step c k ev = some (k', out)) (hlive : k'.session = .running s') :
    k'.Paced ↔ k.Spaced ev := by
  cases ev with
  | arrives t p =>
      obtain ⟨-, rfl, -⟩ := (Timed.arrives_eq_some (c := c)).mp hs
      exact iff_of_true ⟨hpaced.apart, hpaced.lasts⟩ trivial
  | steps t e polls =>
      obtain ⟨s, o, waiting, hk, hready, -, hf, rfl⟩ := Timed.steps_eq_some.mp hs
      have ho : o = .running s' := hlive
      subst ho
      have hdials := forwardLoop_dials (h.scheduled s hk) hf
      have hspaced : k.Spaced (.steps t e polls) ↔
          ((s.redials e && e.completes && polls) = true →
            ∀ x ∈ k.starts.head?, x + brokerRetryInitial ≤ t) := by
        unfold Timed.Spaced
        rw [hk]
      have hpaced' : (k.after (.running s') t e polls waiting).Paced ↔
          ((e.completes && (Outcome.running s').dials && polls) = true →
            ∀ x ∈ k.starts.head?, x + brokerRetryInitial ≤ t) := by
        have hstarts : (k.after (.running s') t e polls waiting).starts =
          if e.completes && (Outcome.running s').dials && polls then t :: k.starts
          else k.starts := rfl
        refine Iff.trans ⟨fun h => h.apart, Timed.paced_of_apart⟩ ?_
        rw [hstarts]
        split
        · next hnew =>
            refine (apart_cons.trans (and_iff_left hpaced.apart)).trans ?_
            exact ⟨fun h _ => h, fun h => h hnew⟩
        · next hnew => exact iff_of_true hpaced.apart (fun h => absurd h hnew)
      rw [hspaced, hpaced', hdials]
      cases hwakes : s.wakes e with
      | true =>
          have hslept := Timed.wakes_spaced h hk hready hwakes
          exact iff_of_true (fun _ => hslept) (fun _ => hslept)
      | false => rw [Bool.or_false, Bool.and_comm e.completes]

/-! ## Runs -/

/-- Whatever the broker does, consecutive connect attempts are `BROKER_RETRY_INITIAL`
apart: exactly in the runs in which no attempt without a sleep before it comes sooner
than that after the last one. -/
theorem paced_iff {id : SessionId} {hs : Handshake} {client broker : Reader UInt8}
    {dialed now : Nat} {waiting : List MqttPacket} {es : List TimedEvent} (hdialed : dialed ≤ now)
    (hrun : (timedMachine c).run
        (.initial (Session.initial id hs client broker now) dialed now waiting) es
      = some (k, out))
    (hlive : k.session = .running s) :
    (timedMachine c).Always Timed.Paced
        (.initial (Session.initial id hs client broker now) dialed now waiting) es ↔
      (timedMachine c).Along Timed.Spaced
        (.initial (Session.initial id hs client broker now) dialed now waiting) es := by
  have hclock : (Timed.initial (Session.initial id hs client broker now) dialed now waiting).Clock :=
    { scheduled := fun s hs' => Outcome.running.inj hs' ▸ Session.scheduled_initial ..
      starts := fun x hx => (List.mem_singleton.mp hx) ▸ hdialed
      began := Nat.le_refl _ }
  refine (Machine.always_iff_live (L := fun k s => k.session = .running s)
    (J := fun k _ => k.Clock) (fun k ev k' out s' hk' hs => ?_) (fun _ _ => hclock) hrun
    hlive).trans (and_iff_right (Timed.paced_of_apart (.singleton _)))
  obtain ⟨s, hk⟩ := Timed.running_back hs hk'
  exact ⟨s, hk, fun hI => ⟨Timed.clock_step hI hs, fun hP => Timed.paced_step hI hP hs hk'⟩⟩

namespace ReferenceCodec

/-- A second after the session has entered the loop, its broker closes; the next one
refuses, and accepts when it is asked again. -/
def refusedOnce : List TimedEvent :=
  [.steps 1000 brokerCloses true, .steps 1010 (.wait none) true, .steps 1110 (.wait none) true,
    .steps 1120 (.wait (some accepting)) false]

/-- The broker accepts, and closes after the replay: twice. -/
def acceptedOnly : List TimedEvent :=
  [.steps 1000 brokerCloses true, .steps 1002 (.wait (some accepting)) false,
    .steps 1003 brokerCloses true]

end ReferenceCodec

open ReferenceCodec in
/-- An attempt that is refused is followed by a sleep. -/
theorem paced_refused : ∃ k out s,
    (timedMachine (codec true)).run (.initial session 0 0 []) refusedOnce = some (k, out) ∧
    k.session = .running s ∧ k.starts = [1110, 1000, 0] ∧
    (timedMachine (codec true)).Always Timed.Paced (.initial session 0 0 []) refusedOnce :=
  have hrun : (timedMachine (codec true)).run (.initial session 0 0 []) refusedOnce
      = some (_, _) := rfl
  ⟨_, _, _, hrun, rfl, rfl, (paced_iff (Nat.le_refl 0) hrun rfl).mpr (by decide +kernel)⟩

open ReferenceCodec in
/-- A broker that closes after each replay is dialed again at once, each time. -/
theorem unpaced_accepted : ∃ k out,
    (timedMachine (codec true)).run (.initial session 0 0 []) acceptedOnly = some (k, out) ∧
    k.starts = [1003, 1000, 0] ∧ ¬ k.Paced :=
  ⟨_, _, rfl, rfl, fun h => absurd h.apart (by decide +kernel)⟩

end TrafficDirector
