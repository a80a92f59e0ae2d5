/-
# `TrafficDirector.TdInit.Reaping` — nobody is left behind, and the loop comes to rest

As PID 1 the init has to reap whatever becomes its child, the program and each generation
that a shed orphans.  `reaped_exactly` is the ledger of that: what `waitpid` has reaped and
the zombies are the ends there have been, and these and the running children are everybody
there has been.  It ends with all of them reaped, unless `waitpid` has failed on one that a
real-time signal has killed; then the init exits with 1, and may leave others behind.

The loop turns on its own only while there is a signal to pass on or a zombie to reap:
`loop_settles`.  The potential of a state is the number of steps until it rests.
-/
import Mathlib.Data.List.Perm.Basic
import TrafficDirector.TdInit.Status

namespace TrafficDirector.TdInit

/-! ## The ledger -/

def Event.ended : Event → Option (Pid × WaitStatus)
  | .exits pid status => some (pid, status)
  | _ => none

def Event.adopted : Event → Option Pid
  | .adopts pid => some pid
  | _ => none

/-- Who has ended, and how. -/
def ended (es : List Event) : List (Pid × WaitStatus) := es.filterMap Event.ended

/-- Who has been reparented to the init. -/
def adopted (es : List Event) : List Pid := es.filterMap Event.adopted

/-- Everybody is in one place. -/
structure Accounts (child : Pid) (es : List Event) (s : Init) : Prop where
  ends : (reaped es ++ s.zombies).Perm (ended es)
  everybody : ((ended es).map Prod.fst ++ s.running).Perm (child :: adopted es)

variable {child : Pid} {es : List Event} {s s' : Init} {e : Event} {o : List Signal}

theorem Accounts.start : Accounts child [] (.start child) where
  ends := .refl _
  everybody := .refl _

theorem ended_concat (es : List Event) (e : Event) : ended (es ++ [e]) = ended es ++ ended [e] :=
  List.filterMap_append

theorem adopted_concat (es : List Event) (e : Event) :
    adopted (es ++ [e]) = adopted es ++ adopted [e] :=
  List.filterMap_append

/-- A step that moves nobody. -/
theorem Accounts.idle (h : Accounts child es s) (hreaped : reaped [e] = []) (hended : ended [e] = [])
    (hadopted : adopted [e] = []) (hzombies : s'.zombies = s.zombies)
    (hrunning : s'.running = s.running) : Accounts child (es ++ [e]) s' where
  ends := by
    rw [reaped_concat, ended_concat, hreaped, hended, hzombies, List.append_nil, List.append_nil]
    exact h.ends
  everybody := by
    rw [ended_concat, adopted_concat, hended, hadopted, hrunning, List.append_nil, List.append_nil]
    exact h.everybody

theorem Accounts.reap (h : Accounts child es s) {pid : Pid} {status : WaitStatus}
    (zombie : (pid, status) ∈ s.zombies) :
    Accounts child (es ++ [.waitpid (some (pid, status))]) (s.reap pid status) where
  ends := by
    have hmoved : ((pid, status) :: s.zombies.erase (pid, status)).Perm s.zombies :=
      (List.perm_cons_erase zombie).symm
    rw [reaped_concat, ended_concat, List.append_assoc]
    show (reaped es ++ ((pid, status) :: s.zombies.erase (pid, status))).Perm (ended es ++ [])
    rw [List.append_nil]
    exact (hmoved.append_left _).trans h.ends
  everybody := by
    rw [ended_concat, adopted_concat]
    show ((ended es ++ []).map Prod.fst ++ s.running).Perm (child :: (adopted es ++ []))
    rw [List.append_nil, List.append_nil]
    exact h.everybody

theorem Accounts.exit (h : Accounts child es s) {pid : Pid} {status : WaitStatus}
    (running : pid ∈ s.running) :
    Accounts child (es ++ [.exits pid status]) (s.exit pid status) where
  ends := by
    rw [reaped_concat, ended_concat]
    show ((reaped es ++ []) ++ (s.zombies ++ [(pid, status)])).Perm (ended es ++ [(pid, status)])
    rw [List.append_nil, ← List.append_assoc]
    exact h.ends.append_right _
  everybody := by
    have hmoved : (pid :: s.running.erase pid).Perm s.running := (List.perm_cons_erase running).symm
    rw [ended_concat, adopted_concat]
    show ((ended es ++ [(pid, status)]).map Prod.fst ++ s.running.erase pid).Perm
      (child :: (adopted es ++ []))
    rw [List.map_append, List.append_assoc, List.append_nil]
    exact (hmoved.append_left _).trans h.everybody

theorem Accounts.adopt (h : Accounts child es s) (pid : Pid) :
    Accounts child (es ++ [.adopts pid]) { s with running := s.running ++ [pid] } where
  ends := by
    rw [reaped_concat, ended_concat]
    show ((reaped es ++ []) ++ s.zombies).Perm (ended es ++ [])
    rw [List.append_nil, List.append_nil]
    exact h.ends
  everybody := by
    rw [ended_concat, adopted_concat]
    show ((ended es ++ []).map Prod.fst ++ (s.running ++ [pid])).Perm
      (child :: (adopted es ++ [pid]))
    rw [List.append_nil, ← List.append_assoc, ← List.cons_append]
    exact h.everybody.append_right _

theorem Accounts.step (h : Accounts child es s) (hs : s.step e = some (s', o)) :
    Accounts child (es ++ [e]) s' := by
  cases steps_of_step hs with
  | signal live => exact h.idle rfl rfl rfl rfl rfl
  | takes loop pending => exact h.idle rfl rfl rfl rfl rfl
  | finds loop pending => exact h.idle rfl rfl rfl rfl rfl
  | passes loop => exact h.idle rfl rfl rfl rfl rfl
  | blocks loop zombies => exact h.idle rfl rfl rfl rfl rfl
  | reaps loop zombie => exact h.reap zombie
  | exits live running => exact h.exit running
  | adopts live running => exact h.adopt _

theorem Accounts.run {es' : List Event} (h : Accounts child es s)
    (hrun : machine.run s es' = some (s', o)) : Accounts child (es ++ es') s' := by
  induction es' generalizing es s o with
  | nil =>
      cases hrun
      rw [List.append_nil]
      exact h
  | cons e es' ih =>
      obtain ⟨t, o₁, o₂, hs, hrun, -⟩ := Machine.run_cons_eq_some.mp hrun
      have hnext := ih (h.step hs) hrun
      rw [List.append_assoc] at hnext
      exact hnext

theorem Accounts.all_reaped {status : Int} (h : Accounts child es s) (hdone : Done es s status) :
    (reaped es).Perm (ended es) ∧ ((reaped es).map Prod.fst).Perm (child :: adopted es) := by
  have hends := h.ends
  have heverybody := h.everybody
  rw [hdone.zombies, List.append_nil] at hends
  rw [hdone.running, List.append_nil] at heverybody
  exact ⟨hends, (hends.map Prod.fst).trans heverybody⟩

/-- What has been reaped and the zombies are the ends there have been, each once; these and
the running children are everybody.  When the init exits everybody has been reaped; or
`waitpid` has just failed on a child killed by a real-time signal, and the status is 1. -/
theorem reaped_exactly (hrun : machine.run (.start child) es = some (s, o)) :
    (reaped es ++ s.zombies).Perm (ended es) ∧
    ((ended es).map Prod.fst ++ s.running).Perm (child :: adopted es) ∧
    ∀ status, s.loop = .exited status →
      ((reaped es).Perm (ended es) ∧ ((reaped es).map Prod.fst).Perm (child :: adopted es)) ∨
      ∃ pre pid, es = pre ++ [.waitpid (some (pid, .realTime))] ∧ status = 1 := by
  have haccounts : Accounts child es s := Accounts.start.run hrun
  refine ⟨haccounts.ends, haccounts.everybody, ?_⟩
  intro status hexit
  exact ((Sound.start.run hrun).done status hexit).imp_left haccounts.all_reaped

theorem reaped_exactly_shed :
    ((reaped (shed (.exited 0))).map Prod.fst).Perm (7 :: adopted (shed (.exited 0))) := by
  have hrun : machine.run (.start 7) (shed (.exited 0)) = some (_, _) := rfl
  rcases (reaped_exactly hrun).2.2 0 rfl with ⟨-, hall⟩ | ⟨pre, pid, -, hstatus⟩
  · exact hall
  · cases hstatus

/-! ## The loop comes to rest -/

/-- The loop's own steps. -/
def Event.own : Event → Bool
  | .swap | .killpg | .waitpid _ => true
  | .signal _ | .exits .. | .adopts _ => false

/-- Those from outside that give the loop something to do. -/
def Event.rouses : Event → Bool
  | .signal _ | .exits .. => true
  | _ => false

namespace Init

/-- How far the loop is from `waitpid`. -/
def distance (s : Init) : Nat :=
  match s.loop with
  | .swap | .kill _ => 2
  | .wait => 1
  | .blocked | .exited _ => 0

/-- A zombie costs a turn of the loop, a pending signal one more step. -/
def potential (s : Init) : Nat := 2 * s.zombies.length + s.pending.toList.length + s.distance

/-- Where the loop blocks, somebody runs and there is nothing to reap. -/
def Rests (s : Init) : Prop := s.loop = .blocked → s.running ≠ [] ∧ s.zombies = []

/-- The loop has stopped. -/
def Still (s : Init) : Prop := s.loop = .blocked ∨ ∃ status, s.loop = .exited status

theorem Rests.start : (Init.start child).Rests := fun h => by cases h

theorem woken_ne_blocked {awake : Loop} (hawake : awake ≠ .blocked) :
    (if s.loop = .blocked then awake else s.loop) ≠ .blocked := by
  split
  · exact hawake
  · next hloop => exact hloop

theorem Rests.step (h : s.Rests) (hs : s.step e = some (s', o)) : s'.Rests := by
  cases steps_of_step hs with
  | signal live =>
      intro hblocked
      exact absurd hblocked (woken_ne_blocked (fun hawake => by cases hawake))
  | takes loop pending => exact fun hblocked => by cases hblocked
  | finds loop pending => exact fun hblocked => by cases hblocked
  | passes loop => exact fun hblocked => by cases hblocked
  | @reaps pid status loop zombie =>
      intro hblocked
      cases status <;> cases hblocked
  | blocks loop zombies =>
      intro hblocked
      refine ⟨fun hrunning => ?_, zombies⟩
      have hloop : s.waitpidEmpty.loop = .exited s.lastStatus := if_pos hrunning
      cases hloop.symm.trans hblocked
  | exits live running =>
      intro hblocked
      exact absurd hblocked (woken_ne_blocked (fun hawake => by cases hawake))
  | adopts live running =>
      intro hblocked
      exact ⟨List.append_ne_nil_of_right_ne_nil _ (List.cons_ne_nil _ []), (h hblocked).2⟩

/-- Something to do brings three steps at most. -/
theorem potential_record (s : Init) (sig : Signal) : (s.record sig).potential ≤ s.potential + 3 := by
  have hdistance : (s.record sig).distance ≤ s.distance + 2 := by
    cases hloop : s.loop <;> simp [distance, record, hloop]
  have hzombies : (s.record sig).zombies = s.zombies := rfl
  have hpending : (s.record sig).pending.toList.length = 1 := rfl
  rw [potential, potential, hzombies, hpending]
  omega

theorem potential_exit (s : Init) (pid : Pid) (status : WaitStatus) :
    (s.exit pid status).potential ≤ s.potential + 3 := by
  have hdistance : (s.exit pid status).distance ≤ s.distance + 1 := by
    cases hloop : s.loop <;> simp [distance, exit, hloop]
  have hzombies : (s.exit pid status).zombies.length = s.zombies.length + 1 := by
    simp [exit]
  have hpending : (s.exit pid status).pending = s.pending := rfl
  rw [potential, potential, hzombies, hpending]
  omega

theorem potential_waitpidEmpty (loop : s.loop = .wait) :
    s.waitpidEmpty.potential + 1 = s.potential := by
  have hdistance : s.waitpidEmpty.distance = 0 := by
    by_cases hrunning : s.running = [] <;> simp [distance, waitpidEmpty, hrunning]
  have hwait : s.distance = 1 := by rw [distance, loop]
  have hzombies : s.waitpidEmpty.zombies = s.zombies := rfl
  have hpending : s.waitpidEmpty.pending = s.pending := rfl
  rw [potential, potential, hzombies, hpending, hdistance, hwait]

theorem potential_reap {pid : Pid} {status : WaitStatus} (loop : s.loop = .wait)
    (zombie : (pid, status) ∈ s.zombies) : (s.reap pid status).potential + 1 ≤ s.potential := by
  have hzombies : (s.reap pid status).zombies.length + 1 = s.zombies.length :=
    List.length_erase_add_one zombie
  have hwait : s.distance = 1 := by rw [distance, loop]
  have hdistance : (s.reap pid status).distance ≤ 2 := by
    cases status <;> simp [distance, reap]
  have hpending : (s.reap pid status).pending = s.pending := rfl
  rw [potential, potential, hpending, hwait]
  omega

/-- The loop pays for its own steps. -/
theorem potential_step (hs : s.step e = some (s', o)) :
    e.own.toNat + s'.potential ≤ s.potential + 3 * e.rouses.toNat := by
  cases steps_of_step hs with
  | signal live =>
      have hroused := potential_record s ‹Signal›
      simpa [Event.own, Event.rouses] using hroused
  | takes loop pending =>
      simp [Event.own, Event.rouses, potential, distance, loop, pending]
      omega
  | finds loop pending =>
      simp [Event.own, Event.rouses, potential, distance, loop, pending]
      omega
  | passes loop =>
      simp [Event.own, Event.rouses, potential, distance, loop]
      omega
  | reaps loop zombie =>
      have hpaid := potential_reap loop zombie
      simp only [Event.own, Event.rouses, Bool.toNat_true, Bool.toNat_false]
      omega
  | blocks loop zombies =>
      have hpaid := potential_waitpidEmpty loop
      simp only [Event.own, Event.rouses, Bool.toNat_true, Bool.toNat_false]
      omega
  | exits live running =>
      have hroused := potential_exit s ‹Pid› ‹WaitStatus›
      simpa [Event.own, Event.rouses] using hroused
  | adopts live running =>
      simp [Event.own, Event.rouses, potential, distance]

/-- A loop that has not stopped has a step of its own. -/
theorem exists_own (h : ¬ s.Still) : ∃ e s' o, e.own = true ∧ s.step e = some (s', o) := by
  cases hloop : s.loop with
  | swap =>
      cases hpending : s.pending with
      | none => exact ⟨.swap, _, _, rfl, by rw [step, hloop, hpending]⟩
      | some sig => exact ⟨.swap, _, _, rfl, by rw [step, hloop, hpending]⟩
  | kill sig => exact ⟨.killpg, _, _, rfl, by rw [step, hloop]⟩
  | wait =>
      cases hzombies : s.zombies with
      | nil =>
          refine ⟨.waitpid none, s.waitpidEmpty, [], rfl, ?_⟩
          simp only [step, hloop, if_pos hzombies]
      | cons zombie zombies =>
          have hmem : zombie ∈ s.zombies := by
            rw [hzombies]
            exact List.mem_cons_self
          refine ⟨.waitpid (some zombie), s.reap zombie.1 zombie.2, [], rfl, ?_⟩
          simp only [step, hloop, if_pos hmem]
  | blocked => exact absurd (Or.inl hloop) h
  | exited status => exact absurd (Or.inr ⟨status, hloop⟩) h

theorem running_step (he : e.own = true) (hs : s.step e = some (s', o)) :
    s'.running = s.running := by
  cases steps_of_step hs with
  | takes loop pending => rfl
  | finds loop pending => rfl
  | passes loop => rfl
  | reaps loop zombie => rfl
  | blocks loop zombies => rfl
  | signal live => cases he
  | exits live running => cases he
  | adopts live running => cases he

theorem exists_settling (s : Init) : ∃ es t o, machine.run s es = some (t, o) ∧
    machine.Along (fun _ e => e.own = true) s es ∧ t.Still := by
  refine Machine.along_complete (I := fun _ => True) (μ := potential) ?_ ?_ s trivial
  · intro s e s' o _ hown hs
    have hpaid := potential_step hs
    have hquiet : e.rouses = false := by
      cases e <;> first | rfl | cases hown
    rw [hown, hquiet] at hpaid
    simp only [Bool.toNat_true, Bool.toNat_false] at hpaid
    exact ⟨trivial, by omega⟩
  · intro s _ hgoing
    exact exists_own hgoing

end Init

theorem ended_own {es' : List Event} (hown : ∀ e ∈ es', e.own = true) :
    ended (es ++ es') = ended es := by
  have hnone : ended es' = [] := by
    refine List.filterMap_eq_nil_iff.mpr (fun e he => ?_)
    have hloop := hown e he
    cases e <;> first | rfl | cases hloop
  have happend : ended (es ++ es') = ended es ++ ended es' := List.filterMap_append
  rw [happend, hnone, List.append_nil]

/-- Where the loop has stopped, a real-time death has ended it. -/
theorem Sound.killed {pid : Pid} (hsound : Sound child es s) (haccounts : Accounts child es s)
    (hrests : s.Rests) (hstill : s.Still) (hkilled : (pid, .realTime) ∈ ended es) :
    s.loop = .exited 1 := by
  -- it has been reaped, or is still there to be
  have hwhere : (pid, .realTime) ∈ reaped es ∨ (pid, .realTime) ∈ s.zombies :=
    List.mem_append.mp (haccounts.ends.mem_iff.mpr hkilled)
  rcases hstill with hblocked | ⟨status, hexit⟩
  · rcases hwhere with hreaped | hzombie
    · refine absurd hreaped (hsound.going (fun status hexit => ?_) pid)
      cases hblocked.symm.trans hexit
    · rw [(hrests hblocked).2] at hzombie
      cases hzombie
  · rcases hsound.done status hexit with hdone | ⟨pre, pid', hlast, rfl⟩
    · rcases hwhere with hreaped | hzombie
      · exact absurd hreaped (hdone.clean pid)
      · rw [hdone.zombies] at hzombie
        cases hzombie
    · exact hexit

/-- Without such a death, the loop stops where nothing is left to reap. -/
theorem Sound.settled (hsound : Sound child es s) (haccounts : Accounts child es s)
    (hrests : s.Rests) (hstill : s.Still) (hclean : ∀ pid, (pid, .realTime) ∉ ended es) :
    s.zombies = [] ∧ (s.running = [] → ∃ status, s.loop = .exited status) ∧
      (s.running ≠ [] → s.loop = .blocked) := by
  rcases hstill with hblocked | ⟨status, hexit⟩
  · obtain ⟨hrunning, hzombies⟩ := hrests hblocked
    exact ⟨hzombies, fun hnobody => absurd hnobody hrunning, fun _ => hblocked⟩
  · rcases hsound.done status hexit with hdone | ⟨pre, pid, rfl, -⟩
    · exact ⟨hdone.zombies, fun _ => ⟨status, hexit⟩, fun hne => absurd hdone.running hne⟩
    · refine absurd (haccounts.ends.mem_iff.mp (List.mem_append_left _ ?_)) (hclean pid)
      rw [reaped_concat]
      exact List.mem_append_right _ List.mem_cons_self

/-- In a run the loop makes two steps, and three for each signal and each end, at most; and
wherever it is, its own steps bring it to rest.  Then nothing is left to reap, and it has
exited if nobody runs and is blocked otherwise; but if a child has been killed by a
real-time signal, it has exited with 1. -/
theorem loop_settles (hrun : machine.run (.start child) es = some (s, o)) :
    es.countP Event.own ≤ 2 + 3 * es.countP Event.rouses ∧
    ∃ es' t o', machine.run s es' = some (t, o') ∧ (∀ e ∈ es', e.own = true) ∧
      t.running = s.running ∧
      ((∀ pid, (pid, .realTime) ∉ ended es) → t.zombies = [] ∧
        (s.running = [] → ∃ status, t.loop = .exited status) ∧
        (s.running ≠ [] → t.loop = .blocked)) ∧
      ∀ pid, (pid, .realTime) ∈ ended es → t.loop = .exited 1 := by
  refine ⟨?_, ?_⟩
  · have hpaid := Machine.run_countP (μ := Init.potential) (fun _ _ _ _ hs => Init.potential_step hs)
      hrun
    have hstart : (Init.start child).potential = 2 := rfl
    rw [hstart] at hpaid
    exact Nat.le_trans (Nat.le_add_right _ _) hpaid
  · obtain ⟨es', t, o', hrun', halong, hstill⟩ := Init.exists_settling s
    have hown := (Machine.along_forall hrun').mp halong
    have hsound : Sound child (es ++ es') t := (Sound.start.run hrun).run hrun'
    have haccounts : Accounts child (es ++ es') t := (Accounts.start.run hrun).run hrun'
    have hrests : t.Rests :=
      Machine.run_induction (fun _ _ _ _ h hs => h.step hs)
        (Machine.run_induction (fun _ _ _ _ h hs => h.step hs) Init.Rests.start hrun) hrun'
    have hrunning : t.running = s.running := by
      refine Machine.run_along (M := machine) (G := fun _ e => e.own = true)
        (I := fun t => t.running = s.running) ?_ rfl halong hrun'
      intro t e t' o h he hs
      exact (Init.running_step he hs).trans h
    have hended : ended (es ++ es') = ended es := ended_own hown
    refine ⟨es', t, o', hrun', hown, hrunning, ?_, ?_⟩
    · intro hclean
      rw [← hrunning]
      exact hsound.settled haccounts hrests hstill (hended.symm ▸ hclean)
    · intro pid hkilled
      exact hsound.killed haccounts hrests hstill (hended.symm ▸ hkilled)

/-- A shed with signals: the program hands over to 8 and exits, and SIGTERM follows. -/
def shedUnderway : List Event :=
  [.swap, .waitpid none, .signal .sigusr2, .swap, .killpg, .waitpid none, .adopts 8,
    .exits 7 (.exited 0), .signal .sigterm]

/-- The loop reaps 7, passes SIGTERM on, and blocks while 8 runs. -/
theorem loop_settles_shed : ∃ s o, machine.run (.start 7) shedUnderway = some (s, o) ∧
    shedUnderway.countP Event.own ≤ 2 + 3 * shedUnderway.countP Event.rouses ∧
    ∃ es' t o', machine.run s es' = some (t, o') ∧ (∀ e ∈ es', e.own = true) ∧
      t.running = [8] ∧ t.zombies = [] ∧ t.loop = .blocked := by
  have hrun : machine.run (.start 7) shedUnderway = some (_, _) := rfl
  obtain ⟨hcount, es', t, o', hrun', hown, hrunning, hclean, -⟩ := loop_settles hrun
  have hnone : ∀ pid, (pid, .realTime) ∉ ended shedUnderway := by
    intro pid hmem
    cases List.mem_singleton.mp hmem
  obtain ⟨hzombies, -, hblocked⟩ := hclean hnone
  exact ⟨_, _, hrun, hcount, es', t, o', hrun', hown, hrunning, hzombies,
    hblocked (List.cons_ne_nil 8 [])⟩

end TrafficDirector.TdInit
