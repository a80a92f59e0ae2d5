/-
# `TrafficDirector.Server.Drain` — waiting for the last session

`wait_drained` loads the count of the sessions and, if it is not zero, creates a
`Notified` future and waits for it.  The drop of a guard takes one off the count and, if
it was the last, calls `notify_waiters`, which wakes the futures that exist at that
moment.  Each of these is a step of its own here, and they come in any order.

Between the load and the creation of the future the waiter is not to be woken.
`served_iff` says that this is the only thing that can go wrong: the waiter returns when
the guards are gone, unless the last of them notifies in between.
-/
import TrafficDirector.Lib.Machine
import TrafficDirector.Server

namespace TrafficDirector

/-- Where a guard is, of its drop. -/
inductive SessionGuard where
  | held
  /-- it has taken the count to zero, and has not notified yet -/
  | last
  | dropped
deriving DecidableEq

/-- Where `wait_drained` is. -/
inductive Waiter where
  /-- at the head of its loop -/
  | looping
  /-- it has seen a session, and has no `Notified` yet -/
  | checked
  | waiting
  /-- its `Notified` has been woken -/
  | woken
  | returned
deriving DecidableEq

structure Drain where
  tracker : DrainTracker
  guards : List SessionGuard
  waiter : Waiter
deriving DecidableEq

inductive DrainEvent where
  /-- the waiter's next step -/
  | waiter
  | fetchSub (i : Nat)
  | notifyWaiters (i : Nat)
deriving DecidableEq

namespace Drain

/-- `n` sessions, and the waiter is called. -/
def start (n : Nat) : Drain := ⟨⟨n⟩, List.replicate n .held, .looping⟩

/-- A step of `wait_drained`; there is none while it waits. -/
def waiterStep (s : Drain) : Option Drain :=
  match s.waiter with
  | .looping => some { s with waiter := if s.tracker.sessions = 0 then .returned else .checked }
  | .checked => some { s with waiter := .waiting }
  | .woken => some { s with waiter := .looping }
  | .waiting | .returned => none

def notified : Waiter → Waiter
  | .waiting => .woken
  | w => w

def step (s : Drain) : DrainEvent → Option Drain
  | .waiter => s.waiterStep
  | .fetchSub i =>
      if s.guards[i]? = some .held then
        some { s with
          tracker := s.tracker.dropGuard
          guards := s.guards.set i (if s.tracker.sessions = 1 then .last else .dropped) }
      else none
  | .notifyWaiters i =>
      if s.guards[i]? = some .last then
        some { s with guards := s.guards.set i .dropped, waiter := notified s.waiter }
      else none

/-- All drops have finished. -/
def Finished (s : Drain) : Prop := ∀ guard ∈ s.guards, guard = .dropped

instance (s : Drain) : Decidable s.Finished := List.decidableBAll (· = SessionGuard.dropped) s.guards

end Drain

def drainMachine : Machine Drain DrainEvent Empty := ⟨fun s e => (s.step e).map (fun s' => (s', []))⟩

/-- Once all drops have finished, the waiter returns, and needs nobody for it. -/
def Drain.Served (s : Drain) : Prop :=
  s.Finished → ∃ k ≤ 2, ∃ t o, drainMachine.run s (List.replicate k .waiter) = some (t, o) ∧
    t.waiter = .returned

/-- The last guard does not notify between the waiter's load and its `Notified`. -/
def NotifiesWaiting (s : Drain) (e : DrainEvent) : Prop :=
  ∀ i, e = .notifyWaiters i → s.waiter ≠ .checked

instance (s : Drain) (e : DrainEvent) : Decidable (NotifiesWaiting s e) := by
  cases e with
  | notifyWaiters i =>
      exact decidable_of_iff (s.waiter ≠ .checked) ⟨fun h _ _ => h, fun h => h i rfl⟩
  | _ => exact isTrue (fun _ heq => by cases heq)

variable {s s' : Drain} {e : DrainEvent} {o : List Empty}

theorem drainMachine_step : drainMachine.step s e = some (s', o) ↔ s.step e = some s' ∧ o = [] := by
  simp only [drainMachine, Option.map_eq_some_iff, Prod.mk.injEq]
  constructor
  · rintro ⟨s'', h, rfl, rfl⟩
    exact ⟨h, rfl⟩
  · rintro ⟨h, rfl⟩
    exact ⟨s', h, rfl, rfl⟩

/-! ## The count -/

namespace Drain

/-- The count is that of the guards that are held; the guard that took it to zero is the
only one left. -/
structure Counted (s : Drain) : Prop where
  held : s.tracker.sessions = s.guards.count .held
  last : .last ∈ s.guards → s.guards.count .last = 1 ∧ s.guards.count .held = 0

theorem finished_iff : s.Finished ↔ s.guards.count .held = 0 ∧ s.guards.count .last = 0 := by
  simp only [List.count_eq_zero]
  constructor
  · intro h
    constructor
    · intro hmem
      have hdropped := h _ hmem
      cases hdropped
    · intro hmem
      have hdropped := h _ hmem
      cases hdropped
  · rintro ⟨hheld, hlast⟩ guard hmem
    cases guard with
    | held => exact absurd hmem hheld
    | last => exact absurd hmem hlast
    | dropped => rfl

theorem counted_start (n : Nat) : (start n).Counted where
  held := by simp [start]
  last h := by simp [start, List.mem_replicate] at h

theorem count_replaced {l : List SessionGuard} {i : Nat} {a : SessionGuard} (h : l[i]? = some a)
    (b g : SessionGuard) : (l.set i g).count b + (if a = b then 1 else 0) =
      l.count b + (if g = b then 1 else 0) := by
  obtain ⟨hi, rfl⟩ := List.getElem?_eq_some_iff.mp h
  have hpos : l[i] = b → 0 < l.count b := by
    rintro rfl
    exact List.count_pos_iff.mpr (List.getElem_mem hi)
  rw [List.count_set hi]
  simp only [beq_iff_eq]
  by_cases hb : l[i] = b
  · have hcount := hpos hb
    simp only [hb, if_true]
    omega
  · simp only [hb, if_false]
    omega

theorem waiterStep_keeps (h : s.waiterStep = some s') :
    s'.tracker = s.tracker ∧ s'.guards = s.guards := by
  unfold waiterStep at h
  split at h
  · cases h; exact ⟨rfl, rfl⟩
  · cases h; exact ⟨rfl, rfl⟩
  · cases h; exact ⟨rfl, rfl⟩
  · cases h
  · cases h

theorem fetchSub_step {i : Nat} (h : s.step (.fetchSub i) = some s') :
    s.guards[i]? = some .held ∧ s' = { s with
      tracker := s.tracker.dropGuard
      guards := s.guards.set i (if s.tracker.sessions = 1 then .last else .dropped) } := by
  simp only [step] at h
  split at h
  · next hi => exact ⟨hi, (Option.some.inj h).symm⟩
  · cases h

theorem notifyWaiters_step {i : Nat} (h : s.step (.notifyWaiters i) = some s') :
    s.guards[i]? = some .last ∧
      s' = { s with guards := s.guards.set i .dropped, waiter := notified s.waiter } := by
  simp only [step] at h
  split at h
  · next hi => exact ⟨hi, (Option.some.inj h).symm⟩
  · cases h

/-- A guard that is held is not alone with one that is about to notify. -/
theorem Counted.not_last {i : Nat} (h : s.Counted) (hi : s.guards[i]? = some .held) :
    s.guards.count .last = 0 := by
  have hheld : 0 < s.guards.count .held := List.count_pos_iff.mpr (List.mem_of_getElem? hi)
  rw [List.count_eq_zero]
  intro hlast
  have hzero := (h.last hlast).2
  omega

theorem Counted.step (h : s.Counted) (hs : s.step e = some s') : s'.Counted := by
  cases e with
  | waiter =>
      obtain ⟨htracker, hguards⟩ := waiterStep_keeps hs
      exact ⟨by rw [htracker, hguards]; exact h.held, by rw [hguards]; exact h.last⟩
  | fetchSub i =>
      obtain ⟨hi, rfl⟩ := fetchSub_step hs
      have hlast := h.not_last hi
      have hheld := h.held
      have hpos : 0 < s.guards.count .held := List.count_pos_iff.mpr (List.mem_of_getElem? hi)
      have hcountHeld := count_replaced hi .held (if s.tracker.sessions = 1 then .last else .dropped)
      have hcountLast := count_replaced hi .last (if s.tracker.sessions = 1 then .last else .dropped)
      by_cases hone : s.tracker.sessions = 1
      · simp only [hone, if_true, reduceCtorEq, if_false] at hcountHeld hcountLast ⊢
        refine ⟨?_, fun _ => ⟨?_, ?_⟩⟩
        · show s.tracker.sessions - 1 = (s.guards.set i .last).count .held
          omega
        · show (s.guards.set i .last).count .last = 1
          omega
        · show (s.guards.set i .last).count .held = 0
          omega
      · simp only [hone, if_true, reduceCtorEq, if_false] at hcountHeld hcountLast ⊢
        refine ⟨?_, fun hmem => ?_⟩
        · show s.tracker.sessions - 1 = (s.guards.set i .dropped).count .held
          omega
        · have hcount : 0 < (s.guards.set i .dropped).count .last := List.count_pos_iff.mpr hmem
          omega
  | notifyWaiters i =>
      obtain ⟨hi, rfl⟩ := notifyWaiters_step hs
      obtain ⟨hone, hzero⟩ := h.last (List.mem_of_getElem? hi)
      have hcountHeld := count_replaced hi .held .dropped
      have hcountLast := count_replaced hi .last .dropped
      simp only [if_true, reduceCtorEq, if_false] at hcountHeld hcountLast
      have hheld := h.held
      refine ⟨?_, fun hmem => ?_⟩
      · show s.tracker.sessions = (s.guards.set i .dropped).count .held
        omega
      · have hcount : 0 < (s.guards.set i .dropped).count .last := List.count_pos_iff.mpr hmem
        omega

/-! ## The missed notification -/

/-- Nobody is left who would wake the waiter. -/
def Doomed (s : Drain) : Prop := s.Finished ∧ (s.waiter = .checked ∨ s.waiter = .waiting)

theorem Counted.sessions (h : s.Counted) (hf : s.Finished) : s.tracker.sessions = 0 :=
  h.held.trans (finished_iff.mp hf).1

theorem doomed_waiterStep (h : s.Counted) (hs : s.waiterStep = some s') :
    s'.Doomed ↔ s.Doomed := by
  have hfinished : s'.Finished ↔ s.Finished := by
    unfold Finished
    rw [(waiterStep_keeps hs).2]
  unfold Doomed
  rw [hfinished]
  refine and_congr_right (fun hf => ?_)
  unfold waiterStep at hs
  cases hw : s.waiter with
  | looping =>
      rw [hw] at hs
      simp only [h.sessions hf, if_true] at hs
      cases hs
      simp
  | checked => rw [hw] at hs; cases hs; simp
  | waiting => rw [hw] at hs; cases hs
  | woken => rw [hw] at hs; cases hs; simp
  | returned => rw [hw] at hs; cases hs

theorem doomed_step (h : s.Counted) (hs : s.step e = some s') :
    s'.Doomed ↔ s.Doomed ∨ ¬ NotifiesWaiting s e := by
  cases e with
  | waiter =>
      rw [doomed_waiterStep h hs, or_iff_left]
      exact fun hn => hn (fun i hi => by cases hi)
  | fetchSub i =>
      have hcounted := h.step hs
      obtain ⟨hi, rfl⟩ := fetchSub_step hs
      refine iff_of_false ?_ (not_or.mpr ⟨?_, fun hn => hn (fun j hj => by cases hj)⟩)
      · -- a guard that takes the count to zero has still to notify
        rintro ⟨hf, -⟩
        have hzero : s.tracker.sessions - 1 = 0 := hcounted.sessions hf
        have hpos : 0 < s.guards.count .held := List.count_pos_iff.mpr (List.mem_of_getElem? hi)
        have hone : s.tracker.sessions = 1 := by
          have hheld := h.held
          omega
        have hlast := count_replaced hi .last (if s.tracker.sessions = 1 then .last else .dropped)
        simp only [hone, if_true, reduceCtorEq, if_false] at hlast hf
        have hnone : (s.guards.set i .last).count .last = 0 := (finished_iff.mp hf).2
        omega
      · rintro ⟨hf, -⟩
        have hdropped := hf _ (List.mem_of_getElem? hi)
        cases hdropped
  | notifyWaiters i =>
      obtain ⟨hi, rfl⟩ := notifyWaiters_step hs
      have hnot : ¬ s.Doomed := by
        rintro ⟨hf, -⟩
        have hdropped := hf _ (List.mem_of_getElem? hi)
        cases hdropped
      have hfinished : ({ s with
          guards := s.guards.set i .dropped, waiter := notified s.waiter } : Drain).Finished := by
        obtain ⟨hone, hzero⟩ := h.last (List.mem_of_getElem? hi)
        have hcountHeld := count_replaced hi .held .dropped
        have hcountLast := count_replaced hi .last .dropped
        simp only [if_true, reduceCtorEq, if_false] at hcountHeld hcountLast
        refine finished_iff.mpr ⟨?_, ?_⟩
        · show (s.guards.set i .dropped).count .held = 0
          omega
        · show (s.guards.set i .dropped).count .last = 0
          omega
      rw [or_iff_right hnot, Doomed, and_iff_right hfinished]
      unfold NotifiesWaiting
      cases hw : s.waiter <;> simp [notified]

/-- The waiter returns on its own unless it is too late for it to be woken. -/
theorem served_iff_not_doomed (h : s.Counted) : s.Served ↔ ¬ s.Doomed := by
  constructor
  · rintro hserved ⟨hf, hw⟩
    obtain ⟨k, -, t, o, hrun, ht⟩ := hserved hf
    -- its own steps lead it to its future, and no further
    have hstuck : ∀ k (s t : Drain) o, s.waiter = .checked ∨ s.waiter = .waiting →
        drainMachine.run s (List.replicate k .waiter) = some (t, o) → t.waiter ≠ .returned := by
      intro k
      induction k with
      | zero =>
          intro s t o hw hrun
          obtain ⟨rfl, -⟩ := Prod.mk.inj (Option.some.inj hrun)
          rcases hw with hw | hw <;> simp [hw]
      | succ k ih =>
          intro s t o hw hrun
          obtain ⟨s₁, o₁, o₂, hs, hrun, -⟩ := Machine.run_cons_eq_some.mp hrun
          obtain ⟨hs, -⟩ := drainMachine_step.mp hs
          simp only [Drain.step, waiterStep] at hs
          rcases hw with hw | hw
          · rw [hw] at hs
            cases hs
            exact ih _ t o₂ (Or.inr rfl) hrun
          · rw [hw] at hs
            cases hs
    exact hstuck k s t o hw hrun ht
  · intro hnot hf
    have hzero := h.sessions hf
    have hload : ∀ s : Drain, s.tracker.sessions = 0 → s.waiter = .looping →
        drainMachine.step s .waiter = some ({ s with waiter := .returned }, []) := by
      intro s hzero hw
      simp [drainMachine, Drain.step, waiterStep, hw, hzero]
    cases hw : s.waiter with
    | looping =>
        exact ⟨1, by decide, _, _, Machine.run_cons_eq_some.mpr
          ⟨_, _, _, hload s hzero hw, rfl, rfl⟩, rfl⟩
    | checked => exact absurd ⟨hf, Or.inl hw⟩ hnot
    | waiting => exact absurd ⟨hf, Or.inr hw⟩ hnot
    | woken =>
        have hpoll : drainMachine.step s .waiter = some ({ s with waiter := .looping }, []) := by
          simp [drainMachine, Drain.step, waiterStep, hw]
        exact ⟨2, Nat.le_refl 2, _, _, Machine.run_cons_eq_some.mpr ⟨_, _, _, hpoll,
          Machine.run_cons_eq_some.mpr ⟨_, _, _, hload _ hzero rfl, rfl, rfl⟩, rfl⟩, rfl⟩
    | returned => exact ⟨0, Nat.zero_le 2, s, [], rfl, hw⟩

end Drain

/-- After any run of the waiter and `n` guards, the waiter is served exactly if the last
guard has not notified in the waiter's blind spot. -/
theorem served_iff {n : Nat} {es : List DrainEvent}
    (hrun : drainMachine.run (.start n) es = some (s, o)) :
    s.Served ↔ drainMachine.Along NotifiesWaiting (.start n) es := by
  have hcounted : s.Counted := Machine.run_induction
    (fun _ _ _ _ h hs => h.step (drainMachine_step.mp hs).1) (Drain.counted_start n) hrun
  have hstart : ¬ (Drain.start n).Doomed := by
    rintro ⟨-, hw | hw⟩ <;> cases hw
  rw [Drain.served_iff_not_doomed hcounted, Machine.along_iff (I := Drain.Counted)
    (fun _ _ _ _ h hs => h.step (drainMachine_step.mp hs).1)
    (fun _ _ _ _ h hs => Drain.doomed_step h (drainMachine_step.mp hs).1)
    (Drain.counted_start n) hrun, and_iff_right hstart]

/-- One session, which ends while the waiter is between its load and its `Notified`. -/
def endsUnnoticed : List DrainEvent := [.waiter, .fetchSub 0, .notifyWaiters 0]

/-- The waiter waits for a notification that has been given. -/
theorem drain_misses_last : ∃ s,
    drainMachine.run (.start 1) (endsUnnoticed ++ [.waiter]) = some (s, []) ∧
      s.tracker.sessions = 0 ∧ s.Finished ∧ s.waiter = .waiting ∧ ¬ s.Served := by
  refine ⟨⟨⟨0⟩, [.dropped], .waiting⟩, rfl, rfl, by decide, rfl, ?_⟩
  rw [Drain.served_iff_not_doomed ⟨by decide, by decide⟩]
  exact fun h => h ⟨by decide, Or.inr rfl⟩

/-- The notification finds the waiter waiting. -/
theorem served_iff_noticed : ∃ s,
    drainMachine.run (.start 1) [.waiter, .fetchSub 0, .waiter, .notifyWaiters 0]
      = some (s, []) ∧ s.waiter = .woken ∧ s.Served := by
  have hrun : drainMachine.run (.start 1) [.waiter, .fetchSub 0, .waiter, .notifyWaiters 0]
      = some (⟨⟨0⟩, [.dropped], .woken⟩, []) := rfl
  exact ⟨_, hrun, rfl, (served_iff hrun).mpr (by decide)⟩

end TrafficDirector
