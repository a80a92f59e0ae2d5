/-
# `TrafficDirector.Session.Retries` — the attempts of an outage, in two runs

A broker that answers an attempt `delay` after it was started, and the pauses of the
backoff, fix the instants at which connect attempts start: `attempt B t₀ 0`,
`attempt B t₀ 1`, and so on.  But each packet of the client, and each freeze, makes
the loop build its `wait` anew: a pending attempt is started again, and a sleep
begins again at its full length.  `retries_undisturbed` compares the runs of an
outage in which that does not happen: they keep to the same instants.
`retries_restarted` has a client that sends faster than the backoff.
-/
import Mathlib.Algebra.GroupWithZero.Nat
import TrafficDirector.ReferenceCodec
import TrafficDirector.Session.Timed

namespace TrafficDirector

open Framing (Reader)

/-! ## The instants of the attempts -/

/-- How the broker answers a connect attempt, by the instant it was started. -/
structure BrokerTimes where
  delay : Nat → Nat
  accepts : Nat → Bool

/-- The pause after a failed attempt, by the number of failures before it. -/
def pause (n : Nat) : Nat := min (brokerRetryInitial * 2 ^ n) brokerRetryMax

/-- The instant of the attempt with this number, in an outage that began at `t₀`. -/
def attempt (B : BrokerTimes) (t₀ : Nat) : Nat → Nat
  | 0 => t₀
  | n + 1 => attempt B t₀ n + B.delay (attempt B t₀ n) + pause n

/-- The first attempts, the last of them first. -/
def attempts (B : BrokerTimes) (t₀ : Nat) : Nat → List Nat
  | 0 => []
  | n + 1 => attempt B t₀ n :: attempts B t₀ n

theorem pause_succ (n : Nat) : pause (n + 1) = min (pause n * 2) brokerRetryMax := by
  unfold pause
  rw [Nat.pow_succ, ← Nat.mul_assoc]
  omega

variable {B : BrokerTimes} {t₀ : Nat} {old : List Nat}

theorem attempt_mono {i j : Nat} (h : i ≤ j) : attempt B t₀ i ≤ attempt B t₀ j := by
  induction h with
  | refl => exact Nat.le_refl _
  | step _ ih =>
      refine Nat.le_trans ih ?_
      rw [attempt, Nat.add_assoc]
      exact Nat.le_add_right _ _

theorem mem_attempts {x n : Nat} :
    x ∈ attempts B t₀ n ↔ ∃ i < n, attempt B t₀ i = x := by
  induction n with
  | zero => exact ⟨fun h => (nomatch h), fun ⟨i, hi, _⟩ => absurd hi (Nat.not_lt_zero i)⟩
  | succ n ih =>
      rw [attempts, List.mem_cons, ih]
      constructor
      · rintro (rfl | ⟨i, hi, rfl⟩)
        · exact ⟨n, Nat.lt_succ_self n, rfl⟩
        · exact ⟨i, Nat.lt_succ_of_lt hi, rfl⟩
      · rintro ⟨i, hi, rfl⟩
        rcases Nat.lt_succ_iff_lt_or_eq.mp hi with hi | rfl
        · exact Or.inr ⟨i, hi, rfl⟩
        · exact Or.inl rfl

/-! ## Runs of an outage -/

namespace Timed

/-- The broker is lost, or the session was handed over, and nothing has happened since. -/
structure OutageBegins (k : Timed) (s : Session) (old : List Nat) : Prop where
  session : k.session = .running s
  down : s.broker = none
  step : s.step = .connect
  backoff : s.backoff = brokerRetryInitial
  now : k.now ≤ k.began
  starts : k.starts = if k.polled then k.began :: old else old

/-- When the present iteration is over, if nothing comes in between. -/
def due (k : Timed) (B : BrokerTimes) (s : Session) : Nat :=
  match s.step with
  | .connect => k.began + B.delay k.began
  | .backoff d => k.began + d

/-- The time by which the present iteration ends, if nobody is late: at once when the
`select` has found a branch ready before it came to its `wait`. -/
def limit (k : Timed) (B : BrokerTimes) (s : Session) : Nat :=
  if k.polled then k.due B s else k.began

/-- The broker answers as `B` says, sleeps take no longer than they should, and time
does not pass over what is due.  A broker that accepts ends the outage. -/
def Punctual (B : BrokerTimes) (k : Timed) (ev : TimedEvent) : Prop :=
  match k.session with
  | .running s =>
      ev.time ≤ k.limit B s ∧
        match ev with
        | .steps t (.wait none) _ =>
            t = k.due B s ∧ (s.step = .connect → B.accepts k.began = false)
        | .steps _ (.wait (some _)) _ | .steps _ (.migrate _ _) _ => False
        | _ => True
  | .ended _ => True

instance (B : BrokerTimes) : ∀ (k : Timed) (ev : TimedEvent), Decidable (k.Punctual B ev)
  | { session := .running _, .. }, _ =>
      @instDecidableAnd _ _ (inferInstanceAs (Decidable (_ ≤ _))) (by split <;> infer_instance)
  | { session := .ended _, .. }, _ => .isTrue trivial

/-- No packet of the client and no freeze ends an iteration whose `wait` is under way. -/
def Undisturbed (k : Timed) : TimedEvent → Prop
  | .arrives _ _ => True
  | .steps _ e _ => e.completes = true → e.waits = false → k.polled = false

instance (k : Timed) : ∀ ev : TimedEvent, Decidable (k.Undisturbed ev)
  | .arrives _ _ => .isTrue trivial
  | .steps _ e _ =>
      inferInstanceAs (Decidable (e.completes = true → e.waits = false → k.polled = false))

/-- The attempts that are over: when each started, and how long it was given. -/
def attempted (k : Timed) (l : List (Nat × Nat)) (ev : TimedEvent) (_ : List Output) :
    List (Nat × Nat) :=
  match ev with
  | .arrives _ _ => l
  | .steps t e _ =>
      if e.completes && k.polled && k.session.dials then (k.began, t - k.began) :: l else l

end Timed

/-- A session with a clock, and its attempts. -/
def retryMachine (c : Codec) : Machine (Timed × List (Nat × Nat)) TimedEvent Output :=
  (timedMachine c).record Timed.attempted

/-- Where in the schedule the session is, after `n` failed attempts. -/
inductive OnSchedule (B : BrokerTimes) (t₀ : Nat) (old : List Nat) (k : Timed) (s : Session)
    (n : Nat) : Prop where
  | dialing (step : s.step = .connect) (backoff : s.backoff = pause n)
      (began : k.began = attempt B t₀ n)
      (starts : k.starts = attempts B t₀ (if k.polled then n + 1 else n) ++ old)
  | sleeping (step : s.step = .backoff (pause n)) (backoff : s.backoff = pause (n + 1))
      (began : k.began = attempt B t₀ n + B.delay (attempt B t₀ n))
      (starts : k.starts = attempts B t₀ (n + 1) ++ old)

/-- The outage has kept to the schedule. -/
structure Regular (B : BrokerTimes) (t₀ : Nat) (old : List Nat) (k : Timed)
    (l : List (Nat × Nat)) (s : Session) : Prop where
  down : s.broker = none
  now : k.now ≤ k.limit B s
  given : ∀ p ∈ l, p.2 = B.delay p.1
  schedule : ∃ n, OnSchedule B t₀ old k s n

variable {c : Codec} {s s' : Session} {k k' : Timed} {e : Event} {out : List Output}
  {t n : Nat} {polls : Bool} {l : List (Nat × Nat)} {waiting : List MqttPacket}

theorem Timed.began_le_limit (k : Timed) (B : BrokerTimes) (s : Session) :
    k.began ≤ k.limit B s := by
  unfold Timed.limit Timed.due
  split
  · cases s.step with
    | connect => exact Nat.le_add_right _ _
    | backoff d => exact Nat.le_add_right _ _
  · exact Nat.le_refl _

theorem Timed.OutageBegins.regular (h : k.OutageBegins s old) : Regular B k.began old k [] s where
  down := h.down
  now := Nat.le_trans h.now (k.began_le_limit B s)
  given p hp := nomatch hp
  schedule := by
    refine ⟨0, .dialing h.step h.backoff rfl ?_⟩
    rw [h.starts]
    cases k.polled <;> rfl

theorem Regular.starts (h : Regular B t₀ old k l s) :
    ∃ n, k.starts = attempts B t₀ n ++ old := by
  obtain ⟨n, hn⟩ := h.schedule
  cases hn with
  | dialing step backoff began starts => exact ⟨_, starts⟩
  | sleeping step backoff began starts => exact ⟨_, starts⟩

/-- The instants before now are those of the schedule. -/
theorem Regular.mem_starts (h : Regular B t₀ old k l s) {x : Nat} (hx : x < k.now) :
    x ∈ k.starts ↔ (∃ i, attempt B t₀ i = x) ∨ x ∈ old := by
  -- all that is not started yet is due later
  have hsuffices : ∀ m, k.starts = attempts B t₀ m ++ old → k.now ≤ attempt B t₀ m →
      (x ∈ k.starts ↔ (∃ i, attempt B t₀ i = x) ∨ x ∈ old) := by
    intro m hstarts hnow
    rw [hstarts, List.mem_append, mem_attempts]
    refine or_congr_left (exists_congr (fun i => and_iff_right_of_imp (fun hi => ?_)))
    refine Nat.lt_of_not_le (fun hle => ?_)
    have hle : attempt B t₀ m ≤ attempt B t₀ i := attempt_mono hle
    omega
  have hnow := h.now
  obtain ⟨n, hn⟩ := h.schedule
  cases hn with
  | dialing step backoff began starts =>
      refine hsuffices _ starts ?_
      rw [Timed.limit, Timed.due, step, began] at hnow
      split at hnow
      · next hpolled =>
          rw [if_pos hpolled, attempt]
          exact Nat.le_trans hnow (Nat.le_add_right _ _)
      · next hpolled => rwa [if_neg hpolled]
  | sleeping step backoff began starts =>
      refine hsuffices _ starts ?_
      rw [Timed.limit, Timed.due, step, began] at hnow
      rw [attempt]
      split at hnow
      · exact hnow
      · exact Nat.le_trans hnow (Nat.le_add_right _ _)

/-! ## One step -/

/-- An event that leaves the schedule alone, and either does not end the iteration or
comes at the instant it began, before its `wait`. -/
theorem Regular.same (h : Regular B t₀ old k l s)
    (hretry : (s'.step, s'.backoff) = (s.step, s.backoff)) (down' : s'.broker = none)
    (ht : t ≤ k.limit B s) (hbegan : k.began ≤ t)
    (calm : e.completes = true → k.polled = false) :
    Regular B t₀ old (k.after (.running s') t e polls waiting)
      (k.attempted l (.steps t e polls) out) s' := by
  obtain ⟨hstep, hback⟩ := Prod.mk.inj hretry
  have hdials : (Outcome.running s').dials = decide (s.step = .connect) := by
    rw [Outcome.dials, down', hstep]
    rfl
  cases hcomp : e.completes with
  | false =>
      have hafter : k.after (.running s') t e polls waiting =
          { k with session := .running s', now := t, waiting := waiting } := by
        simp only [Timed.after, hcomp, Bool.false_and, Bool.false_eq_true, if_false]
      have hl : k.attempted l (.steps t e polls) out = l := by
        simp only [Timed.attempted, hcomp, Bool.false_and, Bool.false_eq_true, if_false]
      rw [hafter, hl]
      refine ⟨down', ?_, h.given, h.schedule.imp (fun n hn => ?_)⟩
      · show t ≤ if k.polled then Timed.due _ B s' else k.began
        rw [Timed.due, hstep]
        exact ht
      · cases hn with
        | dialing step backoff began starts =>
            exact .dialing (hstep.trans step) (hback.trans backoff) began starts
        | sleeping step backoff began starts =>
            exact .sleeping (hstep.trans step) (hback.trans backoff) began starts
  | true =>
      have hpolled := calm hcomp
      have ht : t = k.began := by
        rw [Timed.limit, hpolled] at ht
        exact Nat.le_antisymm ht hbegan
      subst ht
      have hafter : k.after (.running s') k.began e polls waiting =
          { k with
            session := .running s', now := k.began, polled := polls, waiting := waiting
            starts := if decide (s.step = .connect) && polls then k.began :: k.starts
              else k.starts } := by
        simp only [Timed.after, hcomp, hdials, Bool.true_and, if_true]
      have hl : k.attempted l (.steps k.began e polls) out = l := by
        simp only [Timed.attempted, hpolled, Bool.and_false, Bool.false_and, Bool.false_eq_true,
          if_false]
      have hlimit := (k.after (.running s') k.began e polls waiting).began_le_limit B s'
      rw [hafter] at hlimit
      rw [hafter, hl]
      refine ⟨down', hlimit, h.given, h.schedule.imp (fun n hn => ?_)⟩
      cases hn with
      | dialing step backoff began starts =>
          refine .dialing (hstep.trans step) (hback.trans backoff) began ?_
          rw [hpolled] at starts
          show (if decide (s.step = .connect) && polls then k.began :: k.starts else k.starts) = _
          rw [decide_eq_true step, starts, began]
          cases polls <;> rfl
      | sleeping step backoff began starts =>
          refine .sleeping (hstep.trans step) (hback.trans backoff) began ?_
          show (if decide (s.step = .connect) && polls then k.began :: k.starts else k.starts) = _
          rw [step]
          exact starts

/-- What the session waits for is over, on time. -/
theorem Regular.waited (h : Regular B t₀ old k l s) (hk : k.session = .running s)
    (hretry : (s'.step, s'.backoff) = s.retryAfter (.wait none)) (down' : s'.broker = none)
    (hpolled : k.polled = true) :
    Regular B t₀ old (k.after (.running s') (k.due B s) (.wait none) polls waiting)
      (k.attempted l (.steps (k.due B s) (.wait none) polls) out) s' := by
  obtain ⟨n, hn⟩ := h.schedule
  have hnow := (k.after (.running s') (k.due B s) (.wait none) polls waiting).began_le_limit B s'
  cases hn with
  | dialing step backoff began starts =>
      -- the attempt has failed: a pause begins
      simp only [Session.retryAfter, step, Prod.mk.injEq] at hretry
      obtain ⟨hstep, hback⟩ := hretry
      rw [hpolled] at starts
      have hdue : k.due B s = attempt B t₀ n + B.delay (attempt B t₀ n) := by
        rw [Timed.due, step, began]
      have hl : k.attempted l (.steps (k.due B s) (.wait none) polls) out =
          (k.began, B.delay k.began) :: l := by
        simp only [Timed.attempted, Event.completes, hpolled, hk, Outcome.dials, h.down, step,
          Timed.due]
        simp
      rw [hl]
      refine ⟨down', hnow, ?_, n, .sleeping ?_ ?_ hdue ?_⟩
      · exact List.forall_mem_cons.mpr ⟨rfl, h.given⟩
      · rw [hstep, backoff]
      · rw [hback, backoff, pause_succ]
      · have hdials : (Outcome.running s').dials = false := by
          rw [Outcome.dials, hstep]
          exact Bool.and_false _
        show (if _ && (Outcome.running s').dials && polls then _ else k.starts) = _
        rw [hdials]
        exact starts
  | sleeping step backoff began starts =>
      -- the sleep is over: the next attempt starts
      simp only [Session.retryAfter, step, Prod.mk.injEq] at hretry
      obtain ⟨hstep, hback⟩ := hretry
      have hdue : k.due B s = attempt B t₀ (n + 1) := by
        rw [Timed.due, step, began, attempt]
      have hl : k.attempted l (.steps (k.due B s) (.wait none) polls) out = l := by
        simp only [Timed.attempted, hk, Outcome.dials, step]
        simp
      rw [hl]
      refine ⟨down', hnow, h.given, n + 1, .dialing hstep ?_ hdue ?_⟩
      · rw [hback, backoff]
      · have hdials : (Outcome.running s').dials = true := by
          rw [Outcome.dials, hstep, down']
          rfl
        show (if Event.completes (.wait none) && (Outcome.running s').dials && polls
          then k.due B s :: k.starts else k.starts) =
            attempts B t₀ (if polls then n + 1 + 1 else n + 1) ++ old
        rw [hdials, hdue, starts]
        cases polls <;> rfl

theorem Regular.step {ev : TimedEvent} (h : Regular B t₀ old k l s) (hk : k.session = .running s)
    (punctual : k.Punctual B ev) (calm : k.Undisturbed ev)
    (hs : Timed.step c k ev = some (k', out)) (hk' : k'.session = .running s') :
    Regular B t₀ old k' (k.attempted l ev out) s' := by
  unfold Timed.Punctual at punctual
  rw [hk] at punctual
  obtain ⟨ht, hev⟩ := punctual
  cases ev with
  | arrives t p =>
      obtain ⟨-, rfl, -⟩ := (Timed.arrives_eq_some (c := c)).mp hs
      have hk' : k.session = .running s' := hk'
      obtain rfl := Outcome.running.inj (hk.symm.trans hk')
      refine ⟨h.down, ht, h.given, h.schedule.imp (fun n hn => ?_)⟩
      cases hn with
      | dialing step backoff began starts => exact .dialing step backoff began starts
      | sleeping step backoff began starts => exact .sleeping step backoff began starts
  | steps t e polls =>
      obtain ⟨s₀, o, waiting, hk₀, ⟨hnow, hslept, hpolled, -⟩, -, hf, rfl⟩ :=
        Timed.steps_eq_some.mp hs
      obtain rfl := Outcome.running.inj (hk.symm.trans hk₀)
      have ho : o = .running s' := hk'
      subst ho
      have hretry := (forwardLoop_clocked hf).retry
      have hbegan : k.began ≤ t := Nat.le_trans (Nat.le_add_right _ _) hslept
      cases e with
      | wait result =>
          cases result with
          | some a => exact hev.elim
          | none =>
              obtain ⟨rfl, -⟩ := hev
              exact h.waited hk hretry (forwardLoop_outage_goesOn rfl h.down hf) (hpolled rfl)
      | migrate id now => exact hev.elim
      | _ =>
          exact h.same hretry (forwardLoop_outage_goesOn rfl h.down hf) ht hbegan
            (fun hcomp => calm hcomp rfl)

theorem Event.loses_completes (h : e.loses = true) : e.completes = true := by
  cases e with
  | clientBytes after => exact nomatch h
  | brokerBytes after => exact nomatch h
  | _ => rfl

/-- An outage begins where a connection is lost or the session is handed over. -/
theorem Timed.outageBegins (hsch : s.Scheduled) (hk : k.session = .running s)
    (hgone : (s.broker.isSome = true ∧ s'.broker = none) ∨ e.migrates = true)
    (hs : Timed.step c k (.steps t e polls) = some (k', out)) (hk' : k'.session = .running s') :
    k'.OutageBegins s' k.starts := by
  obtain ⟨s₀, o, waiting, hk₀, -, -, hf, rfl⟩ := Timed.steps_eq_some.mp hs
  obtain rfl := Outcome.running.inj (hk.symm.trans hk₀)
  have ho : o = .running s' := hk'
  subst ho
  have hbegins : s'.broker = none ∧ e.completes = true ∧ s'.step = .connect ∧
      s'.backoff = brokerRetryInitial := by
    have hretry := (forwardLoop_clocked hf).retry
    cases e with
    | migrate id now =>
        obtain ⟨hstep, hback⟩ := Prod.mk.inj hretry
        refine ⟨?_, rfl, hstep, hback⟩
        cases hb : s.broker with
        | none => exact forwardLoop_outage_goesOn rfl hb hf
        | some b => exact (forwardLoop_loses (hb ▸ rfl) hf).mpr rfl
    | wait result =>
        obtain ⟨up, -⟩ := hgone.resolve_right (fun h => nomatch h)
        rw [forwardLoop_wait_down hf] at up
        exact nomatch up
    | _ =>
        obtain ⟨up, down'⟩ := hgone.resolve_right (fun h => nomatch h)
        obtain ⟨hstep, hback⟩ := Prod.mk.inj hretry
        obtain ⟨hstep₀, hback₀⟩ := hsch.connected up
        have hcomp := Event.loses_completes ((forwardLoop_loses up hf).mp down')
        exact ⟨down', hcomp, hstep.trans hstep₀, hback.trans hback₀⟩
  obtain ⟨down', hcomp, hstep, hback⟩ := hbegins
  have hbegan : (k.after (.running s') t e polls waiting).began = t := by
    simp only [Timed.after, hcomp, if_true]
  refine ⟨hk', down', hstep, hback, Nat.le_of_eq hbegan.symm, ?_⟩
  simp only [Timed.after, Outcome.dials, hcomp, down', hstep]
  rfl

/-! ## Runs -/

theorem run_regular {k₀ : Timed} {s₀ : Session} {es : List TimedEvent}
    (begins : k₀.OutageBegins s₀ old)
    (hrun : (retryMachine c).run (k₀, []) es = some ((k, l), out)) (hlive : k.session = .running s)
    (punctual : (retryMachine c).Along (fun k ev => k.1.Punctual B ev) (k₀, []) es)
    (calm : (retryMachine c).Along (fun k ev => k.1.Undisturbed ev) (k₀, []) es) :
    Regular B k₀.began old k l s := by
  refine Machine.run_along (I := fun k => ∀ s, k.1.session = .running s →
      Regular B k₀.began old k.1 k.2 s)
    (fun k ev k' out hI hG hs s' hk' => ?_) (fun s hs => ?_)
    (Machine.along_and (M := retryMachine c) punctual calm) hrun s hlive
  · obtain ⟨hs, hl⟩ := Machine.record_step_eq_some.mp hs
    obtain ⟨s, hk⟩ := Timed.running_back hs hk'
    rw [hl]
    exact (hI s hk).step hk hG.1 hG.2 hs hk'
  · obtain rfl := Outcome.running.inj (begins.session.symm.trans hs)
    exact begins.regular

/-- Two runs of one outage against a broker that behaves the same.  If in neither of
them a packet of the client or a freeze ends an iteration whose `wait` is under way,
connect attempts start at the same instants, those of the schedule, and each is given
the time the broker takes to answer. -/
theorem retries_undisturbed {k₀ k₁ k₂ : Timed} {s₀ s₁ s₂ : Session} {es₁ es₂ : List TimedEvent}
    {l₁ l₂ : List (Nat × Nat)} {out₁ out₂ : List Output} (begins : k₀.OutageBegins s₀ old)
    (hrun₁ : (retryMachine c).run (k₀, []) es₁ = some ((k₁, l₁), out₁))
    (hrun₂ : (retryMachine c).run (k₀, []) es₂ = some ((k₂, l₂), out₂))
    (hlive₁ : k₁.session = .running s₁) (hlive₂ : k₂.session = .running s₂)
    (punctual₁ : (retryMachine c).Along (fun k ev => k.1.Punctual B ev) (k₀, []) es₁)
    (punctual₂ : (retryMachine c).Along (fun k ev => k.1.Punctual B ev) (k₀, []) es₂)
    (calm₁ : (retryMachine c).Along (fun k ev => k.1.Undisturbed ev) (k₀, []) es₁)
    (calm₂ : (retryMachine c).Along (fun k ev => k.1.Undisturbed ev) (k₀, []) es₂) :
    (∀ x, x < k₁.now → x < k₂.now → (x ∈ k₁.starts ↔ x ∈ k₂.starts)) ∧
      (∀ x d₁ d₂, (x, d₁) ∈ l₁ → (x, d₂) ∈ l₂ → d₁ = d₂) ∧
      (∃ n, k₁.starts = attempts B k₀.began n ++ old) ∧
      (∃ n, k₂.starts = attempts B k₀.began n ++ old) := by
  have h₁ := run_regular begins hrun₁ hlive₁ punctual₁ calm₁
  have h₂ := run_regular begins hrun₂ hlive₂ punctual₂ calm₂
  refine ⟨fun x hx₁ hx₂ => (h₁.mem_starts hx₁).trans (h₂.mem_starts hx₂).symm,
    fun x d₁ d₂ hd₁ hd₂ => (h₁.given _ hd₁).trans (h₂.given _ hd₂).symm, ?_, ?_⟩
  · exact h₁.starts
  · exact h₂.starts

namespace ReferenceCodec

/-- A broker that refuses each attempt after 1 ms. -/
def refusing : BrokerTimes := ⟨fun _ => 1, fun _ => false⟩

/-- The session after its broker has closed, at second 1. -/
def lost : Session := session.loseBroker (.fresh [])

def outage : Timed :=
  (Timed.initial session 0 0 []).after (.running lost) 1000 brokerCloses true []

/-- A client that sends nothing before 1200 ms. -/
def quietRetries : List TimedEvent :=
  [.steps 1001 (.wait none) true, .steps 1101 (.wait none) true, .steps 1102 (.wait none) true,
    .arrives 1200 ping]

/-- The client pings `d` after the first attempt has failed. -/
def pingedRetries (d : Nat) (polls : Bool) : List TimedEvent :=
  [.steps 1001 (.wait none) polls, .arrives (1001 + d) ping,
    .steps (1001 + d) (.clientRead (1001 + d) (.packet ping) (.fresh []) .ok .ok) true,
    .steps (1101 + d) (.wait none) true, .steps (1102 + d) (.wait none) true,
    .arrives 1200 ping]

theorem outage_begins : outage.OutageBegins lost [0] :=
  ⟨rfl, rfl, rfl, rfl, Nat.le_refl _, rfl⟩

end ReferenceCodec

open ReferenceCodec in
/-- A ping that is read at the instant the sleep begins changes nothing. -/
theorem retries_undisturbed_pinged : ∃ k₁ k₂ l₁ l₂ out₁ out₂,
    (retryMachine (codec true)).run (outage, []) quietRetries = some ((k₁, l₁), out₁) ∧
    (retryMachine (codec true)).run (outage, []) (pingedRetries 0 false)
      = some ((k₂, l₂), out₂) ∧
    k₁.starts = [1101, 1000, 0] ∧
    ∀ x, x < k₁.now → x < k₂.now → (x ∈ k₁.starts ↔ x ∈ k₂.starts) := by
  have hquiet : (retryMachine (codec true)).run (outage, []) quietRetries
      = some ((_, _), _) := rfl
  have hpinged : (retryMachine (codec true)).run (outage, []) (pingedRetries 0 false)
      = some ((_, _), _) := rfl
  exact ⟨_, _, _, _, _, _, hquiet, hpinged, rfl,
    (retries_undisturbed (B := refusing) outage_begins hquiet hpinged rfl rfl (by decide +kernel)
      (by decide +kernel) (by decide +kernel) (by decide +kernel)).1⟩

open ReferenceCodec in
/-- A ping in the middle of the sleep: the broker behaves the same, and the next
attempt starts 59 ms later. -/
theorem retries_restarted : ∃ k₁ k₂ l₁ l₂ out₁ out₂,
    (retryMachine (codec true)).run (outage, []) quietRetries = some ((k₁, l₁), out₁) ∧
    (retryMachine (codec true)).run (outage, []) (pingedRetries 59 true)
      = some ((k₂, l₂), out₂) ∧
    (retryMachine (codec true)).Along (fun k ev => k.1.Punctual refusing ev) (outage, [])
      quietRetries ∧
    (retryMachine (codec true)).Along (fun k ev => k.1.Punctual refusing ev) (outage, [])
      (pingedRetries 59 true) ∧
    k₁.starts = [1101, 1000, 0] ∧ k₂.starts = [1160, 1000, 0] ∧
    ¬ ∀ x, x < k₁.now → x < k₂.now → (x ∈ k₁.starts ↔ x ∈ k₂.starts) :=
  ⟨_, _, _, _, _, _, rfl, rfl, by decide +kernel, by decide +kernel, rfl, rfl,
    fun h => absurd ((h 1101 (by decide) (by decide)).mp (by decide)) (by decide)⟩

end TrafficDirector
