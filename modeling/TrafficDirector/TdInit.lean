/-
# `TrafficDirector.TdInit` — the init process and its signals

`td-init` runs the program in a process group of its own and forwards signals to it.
The handler stores the signal in a mailbox with one slot, `PENDING`; the loop takes it
out, passes it to the group, and waits for a descendant in `waitpid`, which a signal
interrupts only while it blocks.  Each of these is a step of its own here.

`waitpid` has three errors.  `ECHILD` and `EINTR` come from the kernel; `nix` adds `EINVAL` for
a child that a real-time signal has killed, because it has no `Signal` for that one.  The
kernel has reaped the child then, and the init exits at once.

A signal that comes before the loop looks may overwrite another one, and a signal that
comes after the look and before the wait is looked at only when something else ends the
wait.  `forwards_iff` says that nothing else goes wrong.
-/
import TrafficDirector.Lib.Machine

namespace TrafficDirector.TdInit

/-- The signals that have the handler. -/
inductive Signal where
  | sigusr2
  | sigterm
  | sigint
deriving DecidableEq

abbrev Pid := Nat

inductive WaitStatus where
  | exited (code : Int)
  | signaled
  /-- killed by a real-time signal -/
  | realTime
deriving DecidableEq

/-- Where the loop is. -/
inductive Loop where
  /-- at `PENDING.swap` -/
  | swap
  /-- with a signal in hand, at `killpg` -/
  | kill (sig : Signal)
  /-- at `waitpid` -/
  | wait
  /-- blocked in `waitpid` -/
  | blocked
  | exited (status : Int)
deriving DecidableEq

structure Init where
  /-- the direct child, the program -/
  child : Pid
  pending : Option Signal
  loop : Loop
  lastStatus : Int
  /-- the children that run: the program, and the descendants reparented to the init -/
  running : List Pid
  /-- those that have ended and have not been reaped -/
  zombies : List (Pid × WaitStatus)
deriving DecidableEq

inductive Event where
  | signal (sig : Signal)
  | swap
  | killpg
  /-- `waitpid` goes in, with the child that it reaps if there is one -/
  | waitpid (reaped : Option (Pid × WaitStatus))
  /-- a child ends -/
  | exits (pid : Pid) (status : WaitStatus)
  /-- a descendant has lost its parent -/
  | adopts (pid : Pid)
deriving DecidableEq

namespace Init

/-- The program has been started. -/
def start (child : Pid) : Init where
  child := child
  pending := none
  loop := .swap
  lastStatus := 0
  running := [child]
  zombies := []

/-- The handler `record`; a signal interrupts a blocked `waitpid`. -/
def record (s : Init) (sig : Signal) : Init :=
  { s with pending := some sig, loop := if s.loop = .blocked then .swap else s.loop }

/-- `waitpid(None, None)` reaps a child, and returns its status or `EINVAL`. -/
def reap (s : Init) (pid : Pid) (status : WaitStatus) : Init :=
  { s with
    zombies := s.zombies.erase (pid, status)
    lastStatus :=
      match status with
      | .exited code => if pid = s.child then code else s.lastStatus
      | .signaled | .realTime => s.lastStatus
    loop :=
      match status with
      | .exited _ | .signaled => .swap
      | .realTime => .exited 1 }

/-- `waitpid` finds no zombie: it blocks, or there is nothing to wait for. -/
def waitpidEmpty (s : Init) : Init :=
  { s with loop := if s.running = [] then .exited s.lastStatus else .blocked }

/-- A child ends; a blocked `waitpid` wakes up to look. -/
def exit (s : Init) (pid : Pid) (status : WaitStatus) : Init :=
  { s with
    running := s.running.erase pid
    zombies := s.zombies ++ [(pid, status)]
    loop := if s.loop = .blocked then .wait else s.loop }

/-- One step; the output is the signal passed to the process group. -/
def step (s : Init) : Event → Option (Init × List Signal)
  | .signal sig =>
      match s.loop with
      | .exited _ => none
      | _ => some (s.record sig, [])
  | .swap =>
      match s.loop, s.pending with
      | .swap, some sig => some ({ s with pending := none, loop := .kill sig }, [])
      | .swap, none => some ({ s with loop := .wait }, [])
      | _, _ => none
  | .killpg =>
      match s.loop with
      | .kill sig => some ({ s with loop := .wait }, [sig])
      | _ => none
  | .waitpid reaped =>
      match s.loop, reaped with
      | .wait, some (pid, status) =>
          if (pid, status) ∈ s.zombies then some (s.reap pid status, []) else none
      | .wait, none => if s.zombies = [] then some (s.waitpidEmpty, []) else none
      | _, _ => none
  | .exits pid status =>
      match s.loop with
      | .exited _ => none
      | _ => if pid ∈ s.running then some (s.exit pid status, []) else none
  | .adopts pid =>
      match s.loop with
      | .exited _ => none
      | _ => if s.running = [] then none else some ({ s with running := s.running ++ [pid] }, [])

end Init

def machine : Machine Init Event Signal := ⟨Init.step⟩

/-! ## Received signals -/

/-- The signals received that have not been passed on, in order. -/
structure Owed where
  /-- received before the loop last looked -/
  seen : List Signal
  /-- received since -/
  fresh : List Signal
deriving DecidableEq

def Owed.after (_ : Init) (h : Owed) (e : Event) (passed : List Signal) : Owed :=
  match e with
  | .signal sig => { h with fresh := h.fresh ++ [sig] }
  | .swap => ⟨h.seen ++ h.fresh, []⟩
  | .killpg => { h with seen := h.seen.filter (fun sig => decide (sig ∉ passed)) }
  | _ => h

/-- `td-init` with what it owes. -/
def owedMachine : Machine (Init × Owed) Event Signal := machine.record Owed.after

/-- A signal does not overwrite another one, and `waitpid` does not block on a mailbox
that is full. -/
def InTime (k : Init × Owed) : Event → Prop
  | .signal sig => ∀ other, k.1.pending = some other → other = sig
  | .waitpid none => k.1.running ≠ [] → k.1.pending = none
  | _ => True

instance (k : Init × Owed) (e : Event) : Decidable (InTime k e) := by
  cases e with
  | signal sig => exact decidable_of_iff (∀ other ∈ k.1.pending, other = sig) Iff.rfl
  | waitpid reaped =>
      cases reaped with
      | none => exact inferInstanceAs (Decidable (_ → _))
      | some r => exact isTrue trivial
  | _ => exact isTrue trivial

/-! ## What one step does -/

variable {k k' : Init × Owed} {e : Event} {o : List Signal}

/-- The mailbox holds what has come last since the loop looked. -/
def Mailbox (k : Init × Owed) : Prop := k.1.pending = k.2.fresh.getLast?

theorem owedMachine_step : owedMachine.step k e = some (k', o) ↔
    k.1.step e = some (k'.1, o) ∧ k'.2 = k.2.after k.1 e o :=
  Machine.record_step_eq_some

/-- Each step that there is, with what it needs. -/
inductive Steps (s : Init) : Event → Init → List Signal → Prop where
  | signal {sig : Signal} (live : ∀ status, s.loop ≠ .exited status) :
      Steps s (.signal sig) (s.record sig) []
  | takes {sig : Signal} (loop : s.loop = .swap) (pending : s.pending = some sig) :
      Steps s .swap { s with pending := none, loop := .kill sig } []
  | finds (loop : s.loop = .swap) (pending : s.pending = none) :
      Steps s .swap { s with loop := .wait } []
  | passes {sig : Signal} (loop : s.loop = .kill sig) : Steps s .killpg { s with loop := .wait } [sig]
  | reaps {pid : Pid} {status : WaitStatus} (loop : s.loop = .wait)
      (zombie : (pid, status) ∈ s.zombies) :
      Steps s (.waitpid (some (pid, status))) (s.reap pid status) []
  | blocks (loop : s.loop = .wait) (zombies : s.zombies = []) :
      Steps s (.waitpid none) s.waitpidEmpty []
  | exits {pid : Pid} {status : WaitStatus} (live : ∀ status, s.loop ≠ .exited status)
      (running : pid ∈ s.running) : Steps s (.exits pid status) (s.exit pid status) []
  | adopts {pid : Pid} (live : ∀ status, s.loop ≠ .exited status) (running : s.running ≠ []) :
      Steps s (.adopts pid) { s with running := s.running ++ [pid] } []

/-- What a step does besides reaping and adopting. -/
inductive Does (s : Init) : Event → Init → List Signal → Prop where
  | signal (sig : Signal) : Does s (.signal sig) (s.record sig) []
  | takes {sig : Signal} (loop : s.loop = .swap) (pending : s.pending = some sig) :
      Does s .swap { s with pending := none, loop := .kill sig } []
  | finds (loop : s.loop = .swap) (pending : s.pending = none) :
      Does s .swap { s with loop := .wait } []
  | passes {sig : Signal} (loop : s.loop = .kill sig) :
      Does s .killpg { s with loop := .wait } [sig]
  | blocks (loop : s.loop = .wait) : Does s (.waitpid none) s.waitpidEmpty []
  | other {e : Event} {s' : Init} (owes : ∀ h : Owed, h.after s e [] = h)
      (inTime : ∀ h, InTime (s, h) e) (pending : s'.pending = s.pending)
      (loop : s'.loop ≠ .blocked ∨ s'.loop = s.loop)
      (hand : ∀ sig, s.loop = .kill sig → s'.loop = .kill sig) : Does s e s' []

theorem steps_of_step {s s' : Init} (h : s.step e = some (s', o)) : Steps s e s' o := by
  cases e with
  | signal sig =>
      simp only [Init.step] at h
      split at h
      · cases h
      · next live =>
          cases h
          exact .signal live
  | swap =>
      simp only [Init.step] at h
      split at h
      · next hloop hpending =>
          cases h
          exact .takes hloop hpending
      · next hloop hpending =>
          cases h
          exact .finds hloop hpending
      · cases h
  | killpg =>
      simp only [Init.step] at h
      split at h
      · next hloop =>
          cases h
          exact .passes hloop
      · cases h
  | waitpid reaped =>
      simp only [Init.step] at h
      split at h
      · next hloop =>
          split at h
          · next hzombie =>
              cases h
              exact .reaps hloop hzombie
          · cases h
      · next hloop =>
          split at h
          · next hzombies =>
              cases h
              exact .blocks hloop hzombies
          · cases h
      · cases h
  | exits pid status =>
      simp only [Init.step] at h
      split at h
      · cases h
      · next live =>
          split at h
          · next hrunning =>
              cases h
              exact .exits live hrunning
          · cases h
  | adopts pid =>
      simp only [Init.step] at h
      split at h
      · cases h
      · next live =>
          split at h
          · cases h
          · next hrunning =>
              cases h
              exact .adopts live hrunning

theorem does_of_step {s s' : Init} (h : s.step e = some (s', o)) : Does s e s' o := by
  cases steps_of_step h with
  | signal live => exact .signal _
  | takes loop pending => exact .takes loop pending
  | finds loop pending => exact .finds loop pending
  | passes loop => exact .passes loop
  | blocks loop zombies => exact .blocks loop
  | @reaps pid status loop zombie =>
      refine .other (fun _ => rfl) (fun _ => trivial) rfl (Or.inl ?_) ?_
      · intro hb
        cases status <;> cases hb
      · intro sig hsig
        cases loop.symm.trans hsig
  | exits live running =>
      refine .other (fun _ => rfl) (fun _ => trivial) rfl (Or.inl ?_) ?_
      · show (if s.loop = .blocked then .wait else s.loop) ≠ Loop.blocked
        split
        · exact fun hb => by cases hb
        · next hb => exact hb
      · intro sig hsig
        show (if s.loop = .blocked then .wait else s.loop) = Loop.kill sig
        rw [hsig, if_neg (fun hb => by cases hb)]
  | adopts live running =>
      exact .other (fun _ => rfl) (fun _ => trivial) rfl (Or.inr rfl) (fun _ hsig => hsig)

theorem Mailbox.step (h : Mailbox k) (hs : owedMachine.step k e = some (k', o)) : Mailbox k' := by
  obtain ⟨hs, howed⟩ := owedMachine_step.mp hs
  obtain ⟨s, owed⟩ := k
  obtain ⟨s', owed'⟩ := k'
  obtain rfl : owed' = owed.after s e o := howed
  cases does_of_step hs with
  | signal sig => simp [Mailbox, Owed.after]
  | takes loop pending => rfl
  | finds loop pending => exact pending
  | passes loop => exact h
  | blocks loop => exact h
  | other owes inTime pending loop hand =>
      rw [owes]
      exact pending.trans h

end TrafficDirector.TdInit
