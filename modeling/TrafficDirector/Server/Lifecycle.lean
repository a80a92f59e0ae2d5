/-
# `TrafficDirector.Server.Lifecycle` — the session tasks of a generation, over its life

A shed in migrate mode freezes the sessions, and what becomes of a frozen session is
decided later: it is handed over, resumed, or released to return.  A session that is left
frozen by mistake would never end, and the generation would not drain.

`freeze_all` has one session after another reply, and reads the reply or drops the channel;
a reply that comes between its last look and the drop leaves a session frozen that is in
no batch, and is released.  `lifecycle_reachable`: the frozen sessions are always those of
the batch and the one that has just replied.  While the generation serves, or drains, none
is frozen; and a generation in drain mode never freezes one.
-/
import Mathlib.Data.List.Perm.Basic
import Mathlib.Data.List.Nodup
import TrafficDirector.Server

namespace TrafficDirector

def Task.isFrozen (t : Task) : Bool := t.state = .frozen

namespace RunPhase

/-- `run` has its acceptor, and no shed has touched the sessions. -/
def serves : RunPhase → Bool
  | .serving | .upgrading => true
  | _ => false

/-- What a shed has frozen: the batch, and the session asked if it has replied. -/
def inHand : RunPhase → Option (List TaskId)
  | .freezing frozen | .awaiting frozen _ false | .handing frozen => some frozen
  | .awaiting frozen id true => some (frozen ++ [id])
  | _ => none

end RunPhase

namespace Generation

/-- Each step that there is, with what it needs. -/
inductive Steps (g : Generation) : ServerEvent → Generation → Prop where
  | accepts (live : ∀ b, g.phase ≠ .exited b) (acceptor : g.acceptor ≠ .stopped) :
      Steps g .accepts g.accept
  | acceptorStops (live : ∀ b, g.phase ≠ .exited b) (acceptor : g.acceptor = .aborted) :
      Steps g .acceptorStops { g with acceptor := .stopped }
  | receives {sessions : Received} (live : ∀ b, g.phase ≠ .exited b) (receiving : g.receiving = true) :
      Steps g (.received (.ok sessions)) ({ g with receiving := false }.adoptAll sessions)
  | receivesNothing {e : IoError} (live : ∀ b, g.phase ≠ .exited b) (receiving : g.receiving = true) :
      Steps g (.received (.error e)) { g with receiving := false }
  | ends {id : TaskId} {t : Task} (live : ∀ b, g.phase ≠ .exited b) (found : g.find id = some t)
      (state : t.state ≠ .frozen) : Steps g (.ends id) (g.endTask t)
  | upgrades (phase : g.phase = .serving) (mode : g.mode = .drain) :
      Steps g .sigUpgrade { g with phase := .upgrading }
  | sheds (phase : g.phase = .serving) (mode : g.mode = .migrate) :
      Steps g .sigUpgrade { g.abortAcceptor with phase := .freezing [] }
  | stops (phase : g.phase = .serving) : Steps g .sigStop g.drain
  | upgraded {sent : Nat} {handoff : Except IoError Unit} (phase : g.phase = .upgrading) :
      Steps g (.upgraded sent handoff) g.drain
  | stays (phase : g.phase = .upgrading) : Steps g .upgradeFails { g with phase := .serving }
  | asks {frozen : List TaskId} {id : TaskId} (phase : g.phase = .freezing frozen) :
      Steps g (.asks id) { g with phase := .awaiting frozen id false }
  | replies {frozen : List TaskId} {id : TaskId} {t : Task}
      (phase : g.phase = .awaiting frozen id false) (found : g.find id = some t)
      (state : t.state = .running) :
      Steps g .replies { g.setState [id] .frozen with phase := .awaiting frozen id true }
  | collects {frozen : List TaskId} {id : TaskId} (phase : g.phase = .awaiting frozen id true) :
      Steps g .collects { g with phase := .freezing (frozen ++ [id]) }
  | skipsLate {frozen : List TaskId} {id : TaskId} (phase : g.phase = .awaiting frozen id true) :
      Steps g .skips { g.setState [id] .released with phase := .freezing frozen }
  | skips {frozen : List TaskId} {id : TaskId} (phase : g.phase = .awaiting frozen id false) :
      Steps g .skips { g with phase := .freezing frozen }
  | allFrozen {frozen : List TaskId} (phase : g.phase = .freezing frozen) :
      Steps g .allFrozen { g with phase := .handing frozen }
  | handed {frozen : List TaskId} {sent : Nat} (phase : g.phase = .handing frozen) :
      Steps g (.upgraded sent (.ok ())) { g with phase := .exited false }
  | keeps {frozen : List TaskId} {sent : Nat} {e : IoError} (phase : g.phase = .handing frozen) :
      Steps g (.upgraded sent (.error e)) (g.resumeSkipping frozen sent).drain
  | rollsBack {frozen : List TaskId} (phase : g.phase = .handing frozen) :
      Steps g .upgradeFails
        { g.resumeSkipping frozen 0 with phase := .serving, acceptor := .accepting }
  | checks (phase : g.phase = .draining) : Steps g .checksCount g
  | drained (phase : g.phase = .draining) (zero : g.tracker.sessions = 0) :
      Steps g .checksCount { g with phase := .exited true }
  | timesOut (phase : g.phase = .draining) : Steps g .drainTimeout { g with phase := .exited false }

variable {g g' : Generation} {e : ServerEvent}

theorem steps_of_step (h : g.step e = some g') : g.Steps e g' := by
  have hlive := not_exited_of_step h
  unfold step at h
  split at h
  · cases h
  · split at h
    · cases h
    · next acceptor =>
        cases h
        exact .accepts hlive acceptor
  · split at h
    · next acceptor =>
        cases h
        exact .acceptorStops hlive acceptor
    · cases h
  · split at h
    · next result _ receiving =>
        cases result with
        | ok sessions =>
            cases h
            exact .receives hlive receiving
        | error err =>
            cases h
            exact .receivesNothing hlive receiving
    · cases h
  · split at h
    · next t found =>
        split at h
        · cases h
        · next state =>
            cases h
            exact .ends hlive found state
    · cases h
  · next phase =>
      split at h
      · next mode =>
          cases h
          exact .upgrades phase mode
      · next mode =>
          cases h
          exact .sheds phase mode
  · next phase =>
      cases h
      exact .stops phase
  · next phase =>
      cases h
      exact .upgraded phase
  · next phase =>
      cases h
      exact .stays phase
  · next phase =>
      cases h
      exact .asks phase
  · next phase =>
      split at h
      · next found =>
          split at h
          · next state =>
              cases h
              exact .replies phase found state
          · cases h
      · cases h
  · next phase =>
      cases h
      exact .collects phase
  · next phase =>
      cases h
      exact .skipsLate phase
  · next phase =>
      cases h
      exact .skips phase
  · next phase =>
      cases h
      exact .allFrozen phase
  · next phase =>
      cases h
      exact .handed phase
  · next phase =>
      cases h
      exact .keeps phase
  · next phase =>
      cases h
      exact .rollsBack phase
  · next phase =>
      split at h
      · next zero =>
          cases h
          exact .drained phase zero
      · cases h
        exact .checks phase
  · next phase =>
      cases h
      exact .timesOut phase
  · cases h

/-! ## The tasks of a phase -/

/-- The sessions that a shed has in hand are the frozen ones, and no other task is. -/
structure Lists (g : Generation) (frozen : List TaskId) : Prop where
  mode : g.mode = .migrate
  frozen : ((g.tasks.filter Task.isFrozen).map Task.id).Perm frozen

/-- What holds of the tasks all along. -/
structure Lifecycle (g : Generation) : Prop where
  ids : (g.tasks.map Task.id).Nodup
  below : ∀ t ∈ g.tasks, t.id < g.nextTask
  serving : g.phase.serves = true → g.acceptor = .accepting ∧ ∀ t ∈ g.tasks, t.state ≠ .frozen
  listing : ∀ frozen, g.phase.inHand = some frozen → g.Lists frozen
  draining : g.phase = .draining → ∀ t ∈ g.tasks, t.state ≠ .frozen
  drains : g.mode = .drain → ∀ t ∈ g.tasks, t.state = .running

theorem Lifecycle.start (mode : ShedMode) (isChild : Bool) : (start mode isChild).Lifecycle where
  ids := List.nodup_nil
  below t ht := by cases ht
  serving _ := ⟨rfl, fun t ht => by cases ht⟩
  listing frozen h := by cases h
  draining h := by cases h
  drains _ t ht := by cases ht

theorem Task.isFrozen_iff {t : Task} : t.isFrozen = true ↔ t.state = .frozen :=
  decide_eq_true_iff

/-! ## Tasks come and go -/

theorem adoptAll_acceptor (sessions : Received) : (g.adoptAll sessions).acceptor = g.acceptor := by
  induction sessions generalizing g with
  | nil => rfl
  | cons _ sessions ih => exact ih

/-- Only the tasks change: some may go, none of them frozen, and running ones may come. -/
structure Turnover (g g' : Generation) : Prop where
  mode : g'.mode = g.mode
  phase : g'.phase = g.phase
  acceptor : g'.acceptor = g.acceptor ∨ g.acceptor = .aborted
  tasks : ∀ t ∈ g'.tasks, t ∈ g.tasks ∨ t.state = .running
  frozen : (g'.tasks.filter Task.isFrozen).Perm (g.tasks.filter Task.isFrozen)
  ids : (g.tasks.map Task.id).Nodup → (∀ t ∈ g.tasks, t.id < g.nextTask) →
    (g'.tasks.map Task.id).Nodup ∧ ∀ t ∈ g'.tasks, t.id < g'.nextTask

theorem Turnover.states {p : TaskState → Prop} (h : g.Turnover g') (hrunning : p .running)
    (hall : ∀ t ∈ g.tasks, p t.state) : ∀ t ∈ g'.tasks, p t.state := by
  intro t ht
  rcases h.tasks t ht with ht | ht
  · exact hall t ht
  · rw [ht]
    exact hrunning

theorem Lifecycle.turnover (hl : g.Lifecycle) (h : g.Turnover g') : g'.Lifecycle where
  ids := (h.ids hl.ids hl.below).1
  below := (h.ids hl.ids hl.below).2
  serving hphase := by
    rw [h.phase] at hphase
    obtain ⟨hacceptor, hall⟩ := hl.serving hphase
    refine ⟨?_, h.states (p := fun st => st ≠ .frozen) (fun hrunning => by cases hrunning) hall⟩
    rcases h.acceptor with hsame | haborted
    · exact hsame.trans hacceptor
    · cases hacceptor.symm.trans haborted
  listing frozen hphase := by
    rw [h.phase] at hphase
    obtain ⟨hmode, hfrozen⟩ := hl.listing frozen hphase
    exact ⟨h.mode.trans hmode, (h.frozen.map Task.id).trans hfrozen⟩
  draining hphase := by
    rw [h.phase] at hphase
    refine h.states (p := fun st => st ≠ .frozen) ?_ (hl.draining hphase)
    intro hrunning
    cases hrunning
  drains hmode := by
    rw [h.mode] at hmode
    exact h.states (p := fun st => st = .running) rfl (hl.drains hmode)

theorem Turnover.refl (g : Generation) : g.Turnover g where
  mode := rfl
  phase := rfl
  acceptor := Or.inl rfl
  tasks _ ht := Or.inl ht
  frozen := .refl _
  ids hids hbelow := ⟨hids, hbelow⟩

theorem Turnover.trans {g'' : Generation} (h : g.Turnover g') (h' : g'.Turnover g'')
    (hacceptor : g''.acceptor = g'.acceptor) : g.Turnover g'' where
  mode := h'.mode.trans h.mode
  phase := h'.phase.trans h.phase
  acceptor := by
    rw [hacceptor]
    exact h.acceptor
  tasks t ht := by
    rcases h'.tasks t ht with ht | ht
    · exact h.tasks t ht
    · exact Or.inr ht
  frozen := h'.frozen.trans h.frozen
  ids hids hbelow := by
    obtain ⟨hids', hbelow'⟩ := h.ids hids hbelow
    exact h'.ids hids' hbelow'

theorem turnover_spawn (kind : TaskKind) (guard : Bool) : g.Turnover (g.spawn kind guard) where
  mode := rfl
  phase := rfl
  acceptor := Or.inl rfl
  tasks t ht := by
    rcases List.mem_append.mp ht with ht | ht
    · exact Or.inl ht
    · rw [List.mem_singleton.mp ht]
      exact Or.inr rfl
  frozen := by
    show ((g.tasks ++ [_]).filter Task.isFrozen).Perm _
    rw [List.filter_append]
    show (_ ++ []).Perm _
    rw [List.append_nil]
  ids hids hbelow := by
    show ((g.tasks ++ [_]).map Task.id).Nodup ∧ ∀ t ∈ g.tasks ++ [_], t.id < g.nextTask + 1
    rw [List.map_append, List.nodup_append]
    refine ⟨⟨hids, List.nodup_singleton _, ?_⟩, ?_⟩
    · intro id hid new hnew
      obtain ⟨t, ht, rfl⟩ := List.mem_map.mp hid
      rw [List.mem_singleton.mp hnew]
      exact Nat.ne_of_lt (hbelow t ht)
    · intro t ht
      rcases List.mem_append.mp ht with ht | ht
      · exact Nat.lt_succ_of_lt (hbelow t ht)
      · rw [List.mem_singleton.mp ht]
        exact Nat.lt_succ_self _

theorem turnover_adoptAll (sessions : Received) : g.Turnover (g.adoptAll sessions) := by
  induction sessions generalizing g with
  | nil => exact .refl g
  | cons session sessions ih =>
      refine (turnover_spawn .adoptSession false).trans ih ?_
      exact adoptAll_acceptor sessions

theorem turnover_endTask {t : Task} (mem : t ∈ g.tasks) (state : t.state ≠ .frozen) :
    g.Turnover (g.endTask t) where
  mode := rfl
  phase := rfl
  acceptor := Or.inl rfl
  tasks u hu := Or.inl (List.mem_of_mem_erase hu)
  frozen := by
    have hperm := (List.perm_cons_erase mem).filter Task.isFrozen
    have hthawed : ¬ t.isFrozen = true := fun ht => state (Task.isFrozen_iff.mp ht)
    rw [List.filter_cons_of_neg hthawed] at hperm
    exact hperm.symm
  ids hids hbelow :=
    ⟨(List.erase_sublist.map Task.id).nodup hids, fun u hu => hbelow u (List.mem_of_mem_erase hu)⟩

/-! ## Tasks change their state -/

/-- Other states for the tasks that there are. -/
def Same (g g' : Generation) : Prop :=
  g'.mode = g.mode ∧ g'.nextTask = g.nextTask ∧ g'.tasks.map Task.id = g.tasks.map Task.id

theorem Same.below (h : g.Same g') (hbelow : ∀ t ∈ g.tasks, t.id < g.nextTask) :
    ∀ t ∈ g'.tasks, t.id < g'.nextTask := by
  intro t ht
  have hid : t.id ∈ g'.tasks.map Task.id := List.mem_map_of_mem ht
  rw [h.2.2] at hid
  obtain ⟨u, hu, hsame⟩ := List.mem_map.mp hid
  rw [← hsame, h.2.1]
  exact hbelow u hu

theorem ids_setState (ids : List TaskId) (state : TaskState) :
    (g.setState ids state).tasks.map Task.id = g.tasks.map Task.id := by
  rw [setState, List.map_map]
  refine List.map_congr_left (fun t _ => ?_)
  rw [Function.comp_apply]
  split <;> rfl

theorem mem_setState {ids : List TaskId} {state : TaskState} {t : Task}
    (h : t ∈ (g.setState ids state).tasks) :
    (t.id ∈ ids ∧ t.state = state) ∨ (t.id ∉ ids ∧ t ∈ g.tasks) := by
  obtain ⟨u, hu, rfl⟩ := List.mem_map.mp h
  split
  · next hid => exact Or.inl ⟨hid, rfl⟩
  · next hid => exact Or.inr ⟨hid, hu⟩

/-- After a batch has been resumed nobody that it lists is frozen: it runs, or is released. -/
theorem mem_resumeSkipping {frozen : List TaskId} {sent : Nat} {t : Task}
    (h : t ∈ (g.resumeSkipping frozen sent).tasks) :
    (t.id ∈ frozen.drop sent ∧ t.state = .running) ∨
      (t.id ∈ frozen.take sent ∧ t.state = .released) ∨ (t.id ∉ frozen ∧ t ∈ g.tasks) := by
  rcases mem_setState h with hdrop | ⟨hdrop, h⟩
  · exact Or.inl hdrop
  · rcases mem_setState h with htake | ⟨htake, h⟩
    · exact Or.inr (Or.inl htake)
    · refine Or.inr (Or.inr ⟨?_, h⟩)
      intro hid
      rw [← List.take_append_drop sent frozen] at hid
      rcases List.mem_append.mp hid with hid | hid
      · exact htake hid
      · exact hdrop hid

theorem Lists.mem {frozen : List TaskId} (h : g.Lists frozen) {t : Task} (ht : t ∈ g.tasks)
    (state : t.state = .frozen) : t.id ∈ frozen := by
  refine h.frozen.mem_iff.mp (List.mem_map_of_mem (List.mem_filter.mpr ⟨ht, ?_⟩))
  exact Task.isFrozen_iff.mpr state

/-- A task is frozen if its id is in hand. -/
theorem Lists.state {frozen : List TaskId} (h : g.Lists frozen)
    (hids : (g.tasks.map Task.id).Nodup) {t : Task} (ht : t ∈ g.tasks) (hid : t.id ∈ frozen) :
    t.state = .frozen := by
  obtain ⟨u, hu, hsame⟩ := List.mem_map.mp (h.frozen.mem_iff.mpr hid)
  obtain ⟨hu, hfrozen⟩ := List.mem_filter.mp hu
  obtain rfl := List.inj_on_of_nodup_map hids hu ht hsame
  exact Task.isFrozen_iff.mp hfrozen

theorem Lists.resumed {frozen : List TaskId} {sent : Nat} (h : g.Lists frozen) :
    ∀ t ∈ (g.resumeSkipping frozen sent).tasks, t.state ≠ .frozen := by
  intro t ht
  rcases mem_resumeSkipping ht with ⟨-, hstate⟩ | ⟨-, hstate⟩ | ⟨hid, ht⟩
  · rw [hstate]
    intro hfrozen
    cases hfrozen
  · rw [hstate]
    intro hfrozen
    cases hfrozen
  · exact fun hstate => hid (h.mem ht hstate)

theorem map_filter_setState {l : List Task} {id : TaskId} (state : TaskState)
    (hid : id ∉ l.map Task.id) :
    l.map (fun t => if t.id ∈ [id] then { t with state := state } else t) = l := by
  refine (List.map_congr_left (fun t ht => ?_)).trans (List.map_id l)
  have hne : t.id ∉ [id] := by
    intro hmem
    rw [← List.mem_singleton.mp hmem] at hid
    exact hid (List.mem_map_of_mem ht)
  exact if_neg hne

/-- One more session is frozen. -/
theorem Lists.freeze {frozen : List TaskId} {id : TaskId} {t : Task} (h : g.Lists frozen)
    (hids : (g.tasks.map Task.id).Nodup) (found : g.find id = some t) (state : t.state = .running) :
    (g.setState [id] .frozen).Lists (frozen ++ [id]) where
  mode := h.mode
  frozen := by
    have hid : t.id = id := by simpa using List.find?_some found
    obtain ⟨pre, post, hsplit⟩ := List.append_of_mem (List.mem_of_find?_eq_some found)
    have hfrozen := h.frozen
    rw [hsplit, List.map_append, List.map_cons, List.nodup_append] at hids
    obtain ⟨-, hpost, hpre⟩ := hids
    have hpre : id ∉ pre.map Task.id := by
      intro hmem
      exact hpre id hmem t.id List.mem_cons_self hid.symm
    have hpost : id ∉ post.map Task.id := by
      rw [← hid]
      exact (List.nodup_cons.mp hpost).1
    have hset : (g.setState [id] .frozen).tasks = pre ++ { t with state := .frozen } :: post := by
      rw [setState, hsplit, List.map_append, List.map_cons, map_filter_setState _ hpre,
        map_filter_setState _ hpost, if_pos (List.mem_singleton.mpr hid)]
    have hthawed : ¬ t.isFrozen = true := by
      rw [Task.isFrozen_iff, state]
      intro hstate
      cases hstate
    rw [hsplit, List.filter_append, List.filter_cons_of_neg hthawed, List.map_append] at hfrozen
    rw [hset, List.filter_append, List.filter_cons_of_pos rfl, List.map_append, List.map_cons, hid]
    have hlast : ([id] ++ (post.filter Task.isFrozen).map Task.id).Perm
        ((post.filter Task.isFrozen).map Task.id ++ [id]) := List.perm_append_comm
    refine (hlast.append_left _).trans ?_
    rw [← List.append_assoc]
    exact hfrozen.append_right [id]

theorem frozen_release (l : List Task) (id : TaskId) :
    ((l.map (fun t => if t.id ∈ [id] then { t with state := .released } else t)).filter
        Task.isFrozen).map Task.id
      = ((l.filter Task.isFrozen).map Task.id).filter (fun i => i ≠ id) := by
  induction l with
  | nil => rfl
  | cons t l ih =>
      rw [List.map_cons, List.filter_cons, List.filter_cons]
      by_cases hid : t.id = id
      · rw [if_pos (List.mem_singleton.mpr hid), if_neg (fun hreleased => by cases hreleased), ih]
        split
        · rw [List.map_cons, List.filter_cons_of_neg (by simpa using hid)]
        · rfl
      · rw [if_neg (fun hmem => hid (List.mem_singleton.mp hmem))]
        split
        · rw [List.map_cons, List.map_cons, List.filter_cons_of_pos (by simpa using hid), ih]
        · exact ih

/-- The session that was frozen last is let go of. -/
theorem Lists.release {frozen : List TaskId} {id : TaskId} (h : g.Lists (frozen ++ [id]))
    (hids : (g.tasks.map Task.id).Nodup) : (g.setState [id] .released).Lists frozen where
  mode := h.mode
  frozen := by
    have hnodup : (frozen ++ [id]).Nodup :=
      h.frozen.nodup_iff.mp ((List.filter_sublist.map Task.id).nodup hids)
    have hkept : (frozen ++ [id]).filter (fun i => i ≠ id) = frozen := by
      rw [List.filter_append, List.filter_cons_of_neg (by simp), List.filter_nil, List.append_nil]
      refine List.filter_eq_self.mpr (fun i hi => decide_eq_true (fun heq => ?_))
      rw [heq] at hi
      exact (List.nodup_append.mp hnodup).2.2 id hi id List.mem_cons_self rfl
    have hfrozen := h.frozen.filter (fun i => i ≠ id)
    rw [hkept, ← frozen_release] at hfrozen
    exact hfrozen

/-! ## Runs -/

/-- A step that leaves the tasks as they are. -/
theorem Lifecycle.moves (hl : g.Lifecycle) (hmode : g'.mode = g.mode) (htasks : g'.tasks = g.tasks)
    (hnext : g'.nextTask = g.nextTask)
    (hserving : g'.phase.serves = true →
      g'.acceptor = .accepting ∧ ∀ t ∈ g.tasks, t.state ≠ .frozen)
    (hlisting : ∀ frozen, g'.phase.inHand = some frozen → g.Lists frozen)
    (hdraining : g'.phase = .draining → ∀ t ∈ g.tasks, t.state ≠ .frozen) : g'.Lifecycle where
  ids := by
    rw [htasks]
    exact hl.ids
  below := by
    rw [htasks, hnext]
    exact hl.below
  serving := by
    rw [htasks]
    exact hserving
  listing frozen hphase := by
    obtain ⟨hmigrate, hfrozen⟩ := hlisting frozen hphase
    rw [← htasks] at hfrozen
    exact ⟨hmode.trans hmigrate, hfrozen⟩
  draining := by
    rw [htasks]
    exact hdraining
  drains hdrain := by
    rw [htasks]
    exact hl.drains (hmode.symm.trans hdrain)

theorem lists_nil (mode : g.mode = .migrate) (h : ∀ t ∈ g.tasks, t.state ≠ .frozen) :
    g.Lists [] where
  mode := mode
  frozen := by
    have hnone : g.tasks.filter Task.isFrozen = [] :=
      List.filter_eq_nil_iff.mpr (fun t ht hfrozen => h t ht (Task.isFrozen_iff.mp hfrozen))
    rw [hnone]
    exact .nil

/-- A batch is resumed, and what follows is decided by the phase alone. -/
theorem Lifecycle.resumes {frozen : List TaskId} {sent : Nat} (hl : g.Lifecycle)
    (hlists : g.Lists frozen) (hmode : g'.mode = g.mode)
    (htasks : g'.tasks = (g.resumeSkipping frozen sent).tasks) (hnext : g'.nextTask = g.nextTask)
    (hserving : g'.phase.serves = true → g'.acceptor = .accepting)
    (hlisting : g'.phase.inHand = none) : g'.Lifecycle where
  ids := by
    rw [htasks, resumeSkipping, ids_setState, ids_setState]
    exact hl.ids
  below := by
    refine Same.below ⟨hmode, hnext, ?_⟩ hl.below
    rw [htasks, resumeSkipping, ids_setState, ids_setState]
  serving hphase := by
    rw [htasks]
    exact ⟨hserving hphase, hlists.resumed⟩
  listing frozen hphase := by cases hlisting.symm.trans hphase
  draining _ := by
    rw [htasks]
    exact hlists.resumed
  drains hdrain := by cases (hmode.symm.trans hdrain).symm.trans hlists.mode

/-- The states of tasks change during `freeze_all`. -/
theorem Lifecycle.holds {frozen : List TaskId} (hl : g.Lifecycle) (hsame : g.Same g')
    (hserving : g'.phase.serves = false) (hphase : g'.phase.inHand = some frozen)
    (hdraining : g'.phase ≠ .draining) (hlists : g'.Lists frozen) : g'.Lifecycle where
  ids := by
    rw [hsame.2.2]
    exact hl.ids
  below := hsame.below hl.below
  serving hp := by cases hserving.symm.trans hp
  listing frozen' hp := by
    cases hphase.symm.trans hp
    exact hlists
  draining hp := absurd hp hdraining
  drains hdrain := by cases hdrain.symm.trans hlists.mode

theorem Lifecycle.step (hl : g.Lifecycle) (h : g.step e = some g') : g'.Lifecycle := by
  cases steps_of_step h with
  | accepts live acceptor =>
      have htracked : g.Turnover { g with tracker := g.tracker.track } :=
        { Turnover.refl g with }
      exact hl.turnover (htracked.trans (turnover_spawn .runSession true) rfl)
  | acceptorStops live acceptor =>
      have hstopped : g.Turnover { g with acceptor := .stopped } :=
        { Turnover.refl g with acceptor := Or.inr acceptor }
      exact hl.turnover hstopped
  | receives live receiving =>
      have hreceived : g.Turnover { g with receiving := false } := { Turnover.refl g with }
      exact hl.turnover (hreceived.trans (turnover_adoptAll _) (adoptAll_acceptor _))
  | receivesNothing live receiving =>
      have hreceived : g.Turnover { g with receiving := false } := { Turnover.refl g with }
      exact hl.turnover hreceived
  | ends live found state =>
      exact hl.turnover (turnover_endTask (List.mem_of_find?_eq_some found) state)
  | upgrades phase mode =>
      exact hl.moves rfl rfl rfl (fun _ => hl.serving (by rw [phase]; rfl))
        (fun _ hp => by cases hp) (fun hp => by cases hp)
  | sheds phase mode =>
      have hthawed := (hl.serving (by rw [phase]; rfl)).2
      refine hl.moves rfl rfl rfl (fun hp => by cases hp) ?_ (fun hp => by cases hp)
      intro frozen hp
      cases hp
      exact lists_nil mode hthawed
  | stops phase =>
      have hthawed := (hl.serving (by rw [phase]; rfl)).2
      exact hl.moves rfl rfl rfl (fun hp => by cases hp) (fun _ hp => by cases hp) (fun _ => hthawed)
  | upgraded phase =>
      have hthawed := (hl.serving (by rw [phase]; rfl)).2
      exact hl.moves rfl rfl rfl (fun hp => by cases hp) (fun _ hp => by cases hp) (fun _ => hthawed)
  | stays phase =>
      exact hl.moves rfl rfl rfl (fun _ => hl.serving (by rw [phase]; rfl))
        (fun _ hp => by cases hp) (fun hp => by cases hp)
  | @asks frozen id phase =>
      have hlists := hl.listing frozen (by rw [phase]; rfl)
      exact hl.holds ⟨rfl, rfl, rfl⟩ rfl rfl (fun hp => by cases hp) ⟨hlists.mode, hlists.frozen⟩
  | @replies frozen id t phase found state =>
      have hlists := (hl.listing frozen (by rw [phase]; rfl)).freeze hl.ids found state
      exact hl.holds ⟨rfl, rfl, ids_setState _ _⟩ rfl rfl (fun hp => by cases hp)
        ⟨hlists.mode, hlists.frozen⟩
  | @collects frozen id phase =>
      have hlists := hl.listing (frozen ++ [id]) (by rw [phase]; rfl)
      exact hl.holds ⟨rfl, rfl, rfl⟩ rfl rfl (fun hp => by cases hp) ⟨hlists.mode, hlists.frozen⟩
  | @skipsLate frozen id phase =>
      have hlists := (hl.listing (frozen ++ [id]) (by rw [phase]; rfl)).release hl.ids
      exact hl.holds ⟨rfl, rfl, ids_setState _ _⟩ rfl rfl (fun hp => by cases hp)
        ⟨hlists.mode, hlists.frozen⟩
  | @skips frozen id phase =>
      have hlists := hl.listing frozen (by rw [phase]; rfl)
      exact hl.holds ⟨rfl, rfl, rfl⟩ rfl rfl (fun hp => by cases hp) ⟨hlists.mode, hlists.frozen⟩
  | @allFrozen frozen phase =>
      refine hl.moves rfl rfl rfl (fun hp => by cases hp) ?_ (fun hp => by cases hp)
      intro frozen' hp
      cases hp
      exact hl.listing frozen (by rw [phase]; rfl)
  | handed phase =>
      exact hl.moves rfl rfl rfl (fun hp => by cases hp) (fun _ hp => by cases hp)
        (fun hp => by cases hp)
  | @keeps frozen sent err phase =>
      exact hl.resumes (hl.listing frozen (by rw [phase]; rfl)) rfl rfl rfl (fun hp => by cases hp) rfl
  | @rollsBack frozen phase =>
      exact hl.resumes (hl.listing frozen (by rw [phase]; rfl)) rfl rfl rfl (fun _ => rfl) rfl
  | checks phase => exact hl
  | drained phase zero =>
      exact hl.moves rfl rfl rfl (fun hp => by cases hp) (fun _ hp => by cases hp)
        (fun hp => by cases hp)
  | timesOut phase =>
      exact hl.moves rfl rfl rfl (fun hp => by cases hp) (fun _ hp => by cases hp)
        (fun hp => by cases hp)

end Generation

/-- In every state of a generation its tasks are told apart by their ids, and the frozen ones
are those that its phase has in hand: the batch, and the session asked once it has replied;
none while it serves or drains, none ever in drain mode.  Whenever it serves it accepts. -/
theorem lifecycle_reachable {mode : ShedMode} {isChild : Bool} {es : List ServerEvent}
    {g : Generation} {out : List Unit}
    (hrun : serverMachine.run (.start mode isChild) es = some (g, out)) : g.Lifecycle := by
  refine Machine.run_induction ?_ (Generation.Lifecycle.start mode isChild) hrun
  intro g e g' out hl hs
  obtain ⟨g₁, h, hg⟩ := Option.map_eq_some_iff.mp hs
  obtain ⟨rfl, -⟩ := Prod.mk.inj hg
  exact hl.step h

/-- Session 1 is frozen, and 0 replies too late; the upgrade fails. -/
def lateReply : List ServerEvent :=
  [.accepts, .accepts, .sigUpgrade, .asks 1, .replies, .collects, .asks 0, .replies, .skips,
    .allFrozen, .upgradeFails]

theorem lifecycle_reachable_rollback : ∃ g out,
    serverMachine.run (.start .migrate false) lateReply = some (g, out) ∧
    g.phase = .serving ∧ g.tasks.map Task.state = [.released, .running] ∧
    ∀ t ∈ g.tasks, t.state ≠ .frozen := by
  have hrun : serverMachine.run (.start .migrate false) lateReply = some (_, _) := rfl
  exact ⟨_, _, hrun, rfl, rfl, ((lifecycle_reachable hrun).serving rfl).2⟩

end TrafficDirector
