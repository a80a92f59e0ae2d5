/-
# `TrafficDirector.Server` — the lifecycle of a process generation

A generation spawns session tasks from two places: its acceptor, and the adoption of
the sessions that the previous generation hands over.  Signals shed it or stop it, and
it exits once `DrainTracker` counts no session, or at the drain timeout.  Of a freeze only
the states of the tasks are here; `Server.Projection` gets them from `Migrate.Freeze`.

Only the acceptor's tasks hold a guard, and the tracker counts guards
(`Effect.counts`).  `countsAll_iff`: it counts the running sessions exactly in the
generations that adopt none.
-/
import TrafficDirector.Migrate

namespace TrafficDirector

inductive ShedMode where
  | drain
  | migrate
deriving DecidableEq

/-- The future that a session task runs. -/
inductive TaskKind where
  | runSession
  | adoptSession
deriving DecidableEq

inductive TaskState where
  | running
  /-- in `handle_freeze`, waiting for what the coordinator does with it -/
  | frozen
  /-- its resume channel is dropped: it is about to return -/
  | released
deriving DecidableEq

abbrev TaskId := Nat

/-- A session task that has not ended.  `guard` says whether it owns a `SessionGuard`,
which is dropped with it. -/
structure Task where
  id : TaskId
  kind : TaskKind
  guard : Bool
  state : TaskState
deriving DecidableEq

/-- `DrainTracker.sessions` -/
structure DrainTracker where
  sessions : Nat
deriving DecidableEq

namespace DrainTracker

def track (t : DrainTracker) : DrainTracker := ⟨t.sessions + 1⟩

/-- `SessionGuard::drop`: `fetch_sub(1)` -/
def dropGuard (t : DrainTracker) : DrainTracker := ⟨t.sessions - 1⟩

end DrainTracker

/-- An aborted task may still finish what it is doing. -/
inductive Acceptor where
  | accepting
  | aborted
  | stopped
deriving DecidableEq

/-- Where `run` is. -/
inductive RunPhase where
  /-- at its select -/
  | serving
  /-- drain mode: `ec.upgrade()` is running -/
  | upgrading
  /-- migrate mode: at the head of the loop in `freeze_all`; the batch so far -/
  | freezing (frozen : List TaskId)
  /-- in that loop, with the channels to a session; whether it has replied -/
  | awaiting (frozen : List TaskId) (asked : TaskId) (replied : Bool)
  /-- migrate mode: `ec.upgrade()`, then `send_sessions` -/
  | handing (frozen : List TaskId)
  /-- in `wait_drained` -/
  | draining
  /-- `run` has returned; whether `wait_drained` was called and returned true -/
  | exited (drained : Bool)
deriving DecidableEq

structure Generation where
  mode : ShedMode
  phase : RunPhase
  acceptor : Acceptor
  /-- `recv_sessions` has not returned -/
  receiving : Bool
  tracker : DrainTracker
  tasks : List Task
  nextTask : TaskId
deriving DecidableEq

inductive ServerEvent where
  /-- `listener.accept()` yields a connection -/
  | accepts
  | acceptorStops
  /-- `recv_sessions` returns, in a child -/
  | received (result : Except IoError Received)
  /-- a session task returns -/
  | ends (id : TaskId)
  | sigUpgrade
  | sigStop
  /-- `freeze_all` turns to a session -/
  | asks (id : TaskId)
  /-- the session asked replies, and waits on its resume channel -/
  | replies
  /-- `freeze_all` reads the reply -/
  | collects
  /-- `freeze_all` drops its ends of the channels to the session asked -/
  | skips
  | allFrozen
  /-- `ec.upgrade()` fails -/
  | upgradeFails
  /-- `ec.upgrade()` succeeds, in migrate mode with the outcome of `send_sessions` -/
  | upgraded (sent : Nat) (handoff : Except IoError Unit)
  /-- `wait_drained` loads the count -/
  | checksCount
  | drainTimeout

namespace Generation

/-- A process that `run` has set up; a child of a migrate shed waits for sessions. -/
def start (mode : ShedMode) (isChild : Bool) : Generation where
  mode := mode
  phase := .serving
  acceptor := .accepting
  receiving := isChild && mode = .migrate
  tracker := ⟨0⟩
  tasks := []
  nextTask := 0

/-- `tokio::spawn` of a session -/
def spawn (g : Generation) (kind : TaskKind) (guard : Bool) : Generation :=
  { g with
    tasks := g.tasks ++ [⟨g.nextTask, kind, guard, .running⟩], nextTask := g.nextTask + 1 }

/-- A connection: the session is tracked before its task is spawned. -/
def accept (g : Generation) : Generation :=
  { g with tracker := g.tracker.track }.spawn .runSession true

/-- One task for each session received. -/
def adoptAll (g : Generation) (sessions : Received) : Generation :=
  sessions.foldl (fun g _ => g.spawn .adoptSession false) g

def find (g : Generation) (id : TaskId) : Option Task := g.tasks.find? (fun t => t.id = id)

/-- A task is gone, and its guard with it. -/
def endTask (g : Generation) (t : Task) : Generation :=
  { g with
    tasks := g.tasks.erase t
    tracker := if t.guard then g.tracker.dropGuard else g.tracker }

def setState (g : Generation) (ids : List TaskId) (state : TaskState) : Generation :=
  { g with tasks := g.tasks.map (fun t => if t.id ∈ ids then { t with state := state } else t) }

/-- `batch.resume_skipping(sent)` -/
def resumeSkipping (g : Generation) (frozen : List TaskId) (sent : Nat) : Generation :=
  (g.setState (frozen.take sent) .released).setState (frozen.drop sent) .running

/-- `acceptor.abort()` -/
def abortAcceptor (g : Generation) : Generation :=
  { g with acceptor := if g.acceptor = .accepting then .aborted else g.acceptor }

/-- Out of the loop: abort the acceptor and wait. -/
def drain (g : Generation) : Generation := { g.abortAcceptor with phase := .draining }

def step (g : Generation) (e : ServerEvent) : Option Generation :=
  match g.phase, e with
  | .exited _, _ => none
  | _, .accepts => if g.acceptor = .stopped then none else some g.accept
  | _, .acceptorStops => if g.acceptor = .aborted then some { g with acceptor := .stopped } else none
  | _, .received result =>
      if g.receiving then
        match result with
        | .ok sessions => some ({ g with receiving := false }.adoptAll sessions)
        | .error _ => some { g with receiving := false }
      else none
  | _, .ends id =>
      match g.find id with
      | some t => if t.state = .frozen then none else some (g.endTask t)
      | none => none
  | .serving, .sigUpgrade =>
      match g.mode with
      | .drain => some { g with phase := .upgrading }
      -- sessions accepted after the freeze could not be migrated
      | .migrate => some { g.abortAcceptor with phase := .freezing [] }
  | .serving, .sigStop => some g.drain
  | .upgrading, .upgraded _ _ => some g.drain
  | .upgrading, .upgradeFails => some { g with phase := .serving }
  | .freezing frozen, .asks id => some { g with phase := .awaiting frozen id false }
  | .awaiting frozen id false, .replies =>
      match g.find id with
      | some t =>
          if t.state = .running then
            some { g.setState [id] .frozen with phase := .awaiting frozen id true }
          else none
      | none => none
  | .awaiting frozen id true, .collects => some { g with phase := .freezing (frozen ++ [id]) }
  -- a reply that comes after the last poll is lost, and its session with it
  | .awaiting frozen id true, .skips =>
      some { g.setState [id] .released with phase := .freezing frozen }
  | .awaiting frozen _ false, .skips => some { g with phase := .freezing frozen }
  | .freezing frozen, .allFrozen => some { g with phase := .handing frozen }
  | .handing _, .upgraded _ (.ok ()) => some { g with phase := .exited false }
  | .handing frozen, .upgraded sent (.error _) => some (g.resumeSkipping frozen sent).drain
  | .handing frozen, .upgradeFails =>
      some { g.resumeSkipping frozen 0 with phase := .serving, acceptor := .accepting }
  | .draining, .checksCount =>
      if g.tracker.sessions = 0 then some { g with phase := .exited true } else some g
  | .draining, .drainTimeout => some { g with phase := .exited false }
  | _, _ => none

/-- The tracker counts the running session tasks, and `wait_drained` has not returned
true over one. -/
structure CountsAll (g : Generation) : Prop where
  count : g.tracker.sessions = g.tasks.length
  drained : g.phase = .exited true → g.tasks = []

end Generation

/-- Sessions of the previous generation are adopted. -/
def ServerEvent.adopts : ServerEvent → Bool
  | .received (.ok sessions) => !sessions.isEmpty
  | _ => false

/-- One generation of the process. -/
def serverMachine : Machine Generation ServerEvent Unit :=
  ⟨fun g e => (g.step e).map (fun g' => (g', []))⟩

namespace Generation

variable {g g' : Generation} {e : ServerEvent}

/-! ## What one step can do -/

/-- The effect of a step on tasks and tracker. -/
inductive Effect (g : Generation) : ServerEvent → Generation → Prop where
  | quiet {e : ServerEvent} {g' : Generation} (tracker : g'.tracker = g.tracker)
      (guards : g'.tasks.map Task.guard = g.tasks.map Task.guard)
      (phase : g'.phase ≠ .exited true) (none : e.adopts = false) : Effect g e g'
  | accepts : Effect g .accepts g.accept
  | adopts (sessions : Received) :
      Effect g (.received (.ok sessions)) ({ g with receiving := false }.adoptAll sessions)
  | ends {t : Task} {id : TaskId} (mem : t ∈ g.tasks) : Effect g (.ends id) (g.endTask t)
  | drained (zero : g.tracker.sessions = 0) :
      Effect g .checksCount { g with phase := .exited true }

theorem guards_setState (ids : List TaskId) (state : TaskState) :
    (g.setState ids state).tasks.map Task.guard = g.tasks.map Task.guard := by
  rw [setState, List.map_map]
  refine List.map_congr_left (fun t _ => ?_)
  rw [Function.comp_apply]
  split <;> rfl

theorem guards_resumeSkipping (frozen : List TaskId) (sent : Nat) :
    (g.resumeSkipping frozen sent).tasks.map Task.guard = g.tasks.map Task.guard :=
  (guards_setState _ _).trans (guards_setState _ _)

/-- Nothing happens after the process has exited. -/
theorem not_exited_of_step (h : g.step e = some g') (b : Bool) : g.phase ≠ .exited b := by
  intro hexited
  simp only [step, hexited] at h
  exact nomatch h

theorem effect_of_step (h : g.step e = some g') : g.Effect e g' := by
  have hlive := not_exited_of_step h true
  unfold step at h
  split at h
  · exact nomatch h
  · split at h
    · exact nomatch h
    · exact Option.some.inj h ▸ .accepts
  · split at h
    · exact Option.some.inj h ▸ .quiet rfl rfl hlive rfl
    · exact nomatch h
  · next result _ =>
      split at h
      · cases result with
        | ok sessions => exact Option.some.inj h ▸ .adopts sessions
        | error err => exact Option.some.inj h ▸ .quiet rfl rfl hlive rfl
      · exact nomatch h
  · split at h
    · next t hfind =>
        split at h
        · exact nomatch h
        · exact Option.some.inj h ▸ .ends (List.mem_of_find?_eq_some hfind)
    · exact nomatch h
  · split at h
    · exact Option.some.inj h ▸ .quiet rfl rfl (fun hp => nomatch hp) rfl
    · exact Option.some.inj h ▸ .quiet rfl rfl (fun hp => nomatch hp) rfl
  · exact Option.some.inj h ▸ .quiet rfl rfl (fun hp => nomatch hp) rfl
  · exact Option.some.inj h ▸ .quiet rfl rfl (fun hp => nomatch hp) rfl
  · exact Option.some.inj h ▸ .quiet rfl rfl (fun hp => nomatch hp) rfl
  · exact Option.some.inj h ▸ .quiet rfl rfl (fun hp => nomatch hp) rfl
  · split at h
    · split at h
      · exact Option.some.inj h ▸ .quiet rfl (guards_setState _ _) (fun hp => nomatch hp) rfl
      · exact nomatch h
    · exact nomatch h
  · exact Option.some.inj h ▸ .quiet rfl rfl (fun hp => nomatch hp) rfl
  · exact Option.some.inj h ▸ .quiet rfl (guards_setState _ _) (fun hp => nomatch hp) rfl
  · exact Option.some.inj h ▸ .quiet rfl rfl (fun hp => nomatch hp) rfl
  · exact Option.some.inj h ▸ .quiet rfl rfl (fun hp => nomatch hp) rfl
  · exact Option.some.inj h ▸ .quiet rfl rfl (fun hp => nomatch hp) rfl
  · exact Option.some.inj h ▸
      .quiet rfl (guards_resumeSkipping _ _) (fun hp => nomatch hp) rfl
  · exact Option.some.inj h ▸
      .quiet rfl (guards_resumeSkipping _ _) (fun hp => nomatch hp) rfl
  · split at h
    · next zero => exact Option.some.inj h ▸ .drained zero
    · exact Option.some.inj h ▸ .quiet rfl rfl hlive rfl
  · exact Option.some.inj h ▸ .quiet rfl rfl (fun hp => nomatch hp) rfl
  · exact nomatch h

/-! ## What the tracker counts -/

theorem adoptAll_tracker (sessions : Received) : (g.adoptAll sessions).tracker = g.tracker := by
  induction sessions generalizing g with
  | nil => rfl
  | cons _ sessions ih => exact ih

theorem adoptAll_phase (sessions : Received) : (g.adoptAll sessions).phase = g.phase := by
  induction sessions generalizing g with
  | nil => rfl
  | cons _ sessions ih => exact ih

/-- What is adopted are tasks without a guard. -/
theorem adoptAll_tasks (sessions : Received) :
    ∃ adopted : List Task, (g.adoptAll sessions).tasks = g.tasks ++ adopted ∧
      adopted.length = sessions.length ∧
      ∀ t ∈ adopted, t.kind = .adoptSession ∧ t.guard = false := by
  induction sessions generalizing g with
  | nil => exact ⟨[], (List.append_nil _).symm, rfl, fun t ht => nomatch ht⟩
  | cons session sessions ih =>
      obtain ⟨adopted, htasks, hlen, hall⟩ := ih (g := g.spawn .adoptSession false)
      refine ⟨⟨g.nextTask, .adoptSession, false, .running⟩ :: adopted, ?_, ?_, ?_⟩
      · refine htasks.trans ?_
        rw [spawn, List.append_assoc]
        rfl
      · rw [List.length_cons, List.length_cons, hlen]
      · intro t ht
        rcases List.mem_cons.mp ht with rfl | ht
        · exact ⟨rfl, rfl⟩
        · exact hall t ht

theorem countP_guard {tasks tasks' : List Task}
    (h : tasks'.map Task.guard = tasks.map Task.guard) :
    tasks'.countP Task.guard = tasks.countP Task.guard := by
  have hmap : ∀ l : List Task, l.countP Task.guard = (l.map Task.guard).countP id := by
    intro l
    rw [List.countP_map]
    rfl
  rw [hmap, hmap, h]

theorem Effect.counts (h : g.Effect e g') (hs : g.tracker.sessions = g.tasks.countP Task.guard) :
    g'.tracker.sessions = g'.tasks.countP Task.guard := by
  cases h with
  | quiet tracker guards => rw [tracker, countP_guard guards, hs]
  | accepts =>
      show g.tracker.sessions + 1 = (g.tasks ++ [_]).countP Task.guard
      rw [List.countP_append, hs]
      rfl
  | adopts sessions =>
      obtain ⟨adopted, htasks, -, hall⟩ := adoptAll_tasks (g := { g with receiving := false }) sessions
      have hnone : adopted.countP Task.guard = 0 :=
        List.countP_eq_zero.mpr (fun t ht => by rw [(hall t ht).2]; exact Bool.false_ne_true)
      rw [adoptAll_tracker, htasks, List.countP_append, hnone]
      exact hs
  | @ends t id mem =>
      have hperm := (List.perm_cons_erase mem).countP_eq Task.guard
      rw [List.countP_cons] at hperm
      show (if t.guard then g.tracker.dropGuard else g.tracker).sessions
        = (g.tasks.erase t).countP Task.guard
      cases ht : t.guard with
      | false =>
          rw [ht] at hperm
          exact hs.trans hperm
      | true =>
          rw [ht] at hperm
          show g.tracker.sessions - 1 = _
          rw [hs, hperm]
          rfl
  | drained => exact hs

/-- Every guard is counted, so if every task is counted every task owns a guard. -/
theorem CountsAll.guard (h : g.CountsAll) (hs : g.tracker.sessions = g.tasks.countP Task.guard) :
    ∀ t ∈ g.tasks, t.guard = true :=
  List.countP_eq_length.mp (hs.symm.trans h.count)

/-- A step keeps all tasks counted exactly if it adopts no session. -/
theorem Effect.countsAll_step (h : g.Effect e g')
    (hs : g.tracker.sessions = g.tasks.countP Task.guard) (hall : g.CountsAll)
    (hlive : g.phase ≠ .exited true) : g'.CountsAll ↔ e.adopts = false := by
  cases h with
  | quiet tracker guards phase none =>
      refine iff_of_true ⟨?_, fun hp => absurd hp phase⟩ none
      have hlen := congrArg List.length guards
      rw [List.length_map, List.length_map] at hlen
      rw [tracker, hlen]
      exact hall.count
  | accepts =>
      refine iff_of_true ⟨?_, fun hp => absurd hp hlive⟩ rfl
      show g.tracker.sessions + 1 = (g.tasks ++ [_]).length
      rw [hall.count, List.length_append]
      rfl
  | adopts sessions =>
      obtain ⟨adopted, htasks, hlen, -⟩ := adoptAll_tasks (g := { g with receiving := false }) sessions
      have hcount : g.tracker.sessions = g.tasks.length := hall.count
      constructor
      · intro h
        have h := h.count
        rw [adoptAll_tracker, htasks, List.length_append, hlen] at h
        have h : g.tracker.sessions = g.tasks.length + sessions.length := h
        have hnil : sessions = [] := List.eq_nil_of_length_eq_zero (by omega)
        rw [hnil]
        rfl
      · intro h
        have hnil : sessions = [] := by simpa [ServerEvent.adopts] using h
        subst hnil
        exact ⟨hall.count, fun hp => absurd hp hlive⟩
  | @ends t id mem =>
      refine iff_of_true ⟨?_, fun hp => absurd hp hlive⟩ rfl
      show (if t.guard then g.tracker.dropGuard else g.tracker).sessions = (g.tasks.erase t).length
      rw [if_pos (hall.guard hs t mem), List.length_erase_of_mem mem, ← hall.count]
      rfl
  | drained zero =>
      refine iff_of_true ⟨hall.count, fun _ => ?_⟩ rfl
      exact List.eq_nil_of_length_eq_zero (hall.count.symm.trans zero)

end Generation

/-! ## Runs -/

/-- In every state of a generation the tracker counts the session tasks that are
running, and `wait_drained` returns true over none of them: exactly in the generations
that adopt no session. -/
theorem countsAll_iff {mode : ShedMode} {isChild : Bool} {es : List ServerEvent} {g : Generation}
    {out : List Unit} (hrun : serverMachine.run (.start mode isChild) es = some (g, out)) :
    serverMachine.Always Generation.CountsAll (.start mode isChild) es ↔
      ∀ e ∈ es, e.adopts = false := by
  have hstart : (Generation.start mode isChild).CountsAll := ⟨rfl, fun hp => nomatch hp⟩
  have heffect : ∀ {g e g' out}, serverMachine.step g e = some (g', out) → g.step e = some g' := by
    intro g e g' out hs
    obtain ⟨g₁, h, hg⟩ := Option.map_eq_some_iff.mp hs
    obtain ⟨rfl, -⟩ := Prod.mk.inj hg
    exact h
  refine (Machine.always_iff (I := fun g => g.tracker.sessions = g.tasks.countP Task.guard)
    (G := fun _ e => e.adopts = false) (L := fun _ => True) ?_ (fun _ _ _ _ _ _ => trivial) ?_
    rfl hrun trivial).trans ((and_iff_right hstart).trans (Machine.along_forall hrun))
  · intro g e g' out hI hs
    exact (Generation.effect_of_step (heffect hs)).counts hI
  · intro g e g' out hI hP _ hs
    exact (Generation.effect_of_step (heffect hs)).countsAll_step hI hP
      (Generation.not_exited_of_step (heffect hs) true)

/-- A first generation that is stopped while two clients are connected. -/
def stoppedFirst : List ServerEvent :=
  [.accepts, .accepts, .sigStop, .ends 0, .checksCount, .ends 1, .checksCount]

/-- A second generation that adopts a session and is stopped. -/
def stoppedSecond : List ServerEvent :=
  [.received (.ok [(⟨4, [], [], [], [], [], []⟩, 7)]), .sigStop, .checksCount]

theorem countsAll_stoppedFirst : ∃ g out,
    serverMachine.run (.start .drain false) stoppedFirst = some (g, out) ∧
    g.phase = .exited true ∧
    serverMachine.Always Generation.CountsAll (.start .drain false) stoppedFirst := by
  have hrun : serverMachine.run (.start .drain false) stoppedFirst = some (_, _) := rfl
  exact ⟨_, _, hrun, rfl, (countsAll_iff hrun).mpr (by decide)⟩

/-- `wait_drained` returns true over the adopted session, which is running. -/
theorem drained_over_adopted : ∃ g out,
    serverMachine.run (.start .migrate true) stoppedSecond = some (g, out) ∧
    g.phase = .exited true ∧ g.tasks = [⟨0, .adoptSession, false, .running⟩] ∧ ¬ g.CountsAll := by
  refine ⟨_, _, rfl, rfl, rfl, fun h => ?_⟩
  exact absurd h.count (by decide)

end TrafficDirector
