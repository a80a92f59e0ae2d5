/-
# `TrafficDirector.Server.Projection` — a generation as a view of its fleet

The generation knows of a session that its task runs, is frozen, or is released.
`generation_of_fleet`: every run of the fleet is, seen so, a run of a generation in migrate
mode, whose tasks are the sessions that are registered, and with `Migrate.Projection` so is
every run of the channels (`generation_of_freezeAll`).  Once sessions have been handed over
the generation drains, and sheds no more; the runs are those in which `freeze_all` is not
called again after that.
-/
import TrafficDirector.Migrate.Projection
import TrafficDirector.Server.Lifecycle

namespace TrafficDirector

/-! ## What a generation sees -/

/-- A session that has something in its resume channel runs again, or returns. -/
def Member.taskState : Member → TaskState
  | .running _ _ | .held _ _ (.sent _) _ => .running
  | .held _ _ .empty _ => .frozen
  | .held _ _ .closed _ => .released

/-- Where `run` is, by where `freeze_all` is; after `freeze_all` it serves again, or drains. -/
def Coordinator.Runs (resumes : List SessionId) : Coordinator → RunPhase → Prop
  | .idle, p => p = .serving ∨ p = .draining
  | .asking _, p => p = .freezing resumes
  | .awaiting id _ reply, p => p = .awaiting resumes id reply.isSome
  | .returned, p => p = .handing resumes

def Generation.stateOf (g : Generation) (i : TaskId) : Option TaskState :=
  (g.find i).map Task.state

/-- The generation of a fleet. -/
structure Views (F : Fleet) (g : Generation) : Prop where
  states : ∀ i, g.stateOf i = (F.sessions.get? i).map Member.taskState
  nextTask : g.nextTask = F.nextId
  mode : g.mode = .migrate
  phase : F.coordinator.Runs F.resumes g.phase
  acceptor : g.acceptor ≠ .stopped

/-- What `run` does of what the fleet does; `send_sessions` is seen to fail, after which
the generation goes on. -/
def FleetEvent.server : FleetEvent → Option ServerEvent
  | .joins _ => some .accepts
  | .freezeAll _ => some .sigUpgrade
  | .resume 0 => some .upgradeFails
  | .resume (sent + 1) => some (.upgraded (sent + 1) (.error (invalidData "")))
  | _ => none

def ServerEvent.outer : ServerEvent → Option ServerEvent
  | .accepts => some .accepts
  | .sigUpgrade => some .sigUpgrade
  | .upgradeFails => some .upgradeFails
  | .upgraded sent handoff => some (.upgraded sent handoff)
  | _ => none

/-- Sessions of the batch are handed over. -/
def FleetEvent.handsOver : FleetEvent → Bool
  | .resume (_ + 1) => true
  | _ => false

def FleetEvent.sheds : FleetEvent → Bool
  | .freezeAll _ => true
  | _ => false

/-- After a hand-over there is no further shed. -/
def FleetEvent.Final (e e' : FleetEvent) : Prop := e.handsOver = true → e'.sheds = false

namespace Generation

variable {g g' : Generation} {i id : TaskId} {t : Task}

/-! ## The states of the tasks -/

theorem stateOf_eq_some (hids : (g.tasks.map Task.id).Nodup) {st : TaskState} :
    g.stateOf i = some st ↔ ∃ t ∈ g.tasks, t.id = i ∧ t.state = st := by
  rw [stateOf, Option.map_eq_some_iff]
  constructor
  · rintro ⟨t, found, hst⟩
    exact ⟨t, List.mem_of_find?_eq_some found, by simpa using List.find?_some found, hst⟩
  · rintro ⟨t, ht, hid, hst⟩
    have hsome : (g.tasks.find? (fun t => t.id = i)).isSome = true :=
      List.find?_isSome.mpr ⟨t, ht, decide_eq_true hid⟩
    obtain ⟨u, hu⟩ := Option.isSome_iff_exists.mp hsome
    have huid : u.id = i := by simpa using List.find?_some hu
    obtain rfl := List.inj_on_of_nodup_map hids (List.mem_of_find?_eq_some hu) ht
      (huid.trans hid.symm)
    exact ⟨u, hu, hst⟩

theorem stateOf_accept (hbelow : ∀ t ∈ g.tasks, t.id < g.nextTask) :
    g.accept.stateOf i = if i = g.nextTask then some .running else g.stateOf i := by
  have hfind : g.accept.find i
      = (g.find i).or ([⟨g.nextTask, .runSession, true, .running⟩].find? (fun t => t.id = i)) :=
    List.find?_append
  rw [stateOf, stateOf, hfind]
  split
  · next hi =>
      have hnone : g.find i = none := by
        refine List.find?_eq_none.mpr (fun t ht heq => ?_)
        exact Nat.ne_of_lt (hbelow t ht) ((of_decide_eq_true heq).trans hi)
      rw [hnone, hi]
      simp
  · next hi =>
      simp [Ne.symm hi]

theorem stateOf_endTask (hids : (g.tasks.map Task.id).Nodup) (found : g.find id = some t) :
    (g.endTask t).stateOf i = if i = id then none else g.stateOf i := by
  have hid : t.id = id := by simpa using List.find?_some found
  have hnodup : ((g.endTask t).tasks.map Task.id).Nodup :=
    (List.erase_sublist.map Task.id).nodup hids
  have hmem : ∀ u, u ∈ (g.endTask t).tasks ↔ u ≠ t ∧ u ∈ g.tasks :=
    fun u => (List.Nodup.of_map Task.id hids).mem_erase_iff
  refine Option.ext (fun st => ?_)
  rw [stateOf_eq_some hnodup]
  split
  · next hi =>
      refine iff_of_false ?_ (fun h => by cases h)
      rintro ⟨u, hu, huid, -⟩
      obtain ⟨hne, hu⟩ := (hmem u).mp hu
      refine hne (List.inj_on_of_nodup_map hids hu (List.mem_of_find?_eq_some found) ?_)
      rw [huid, hi, hid]
  · next hi =>
      rw [stateOf_eq_some hids]
      refine exists_congr (fun u => ?_)
      rw [hmem, and_assoc, and_iff_right_of_imp]
      rintro ⟨-, huid, -⟩ rfl
      exact hi (huid.symm.trans hid)

theorem stateOf_setState (ids : List TaskId) (state : TaskState) :
    (g.setState ids state).stateOf i
      = if i ∈ ids then (g.stateOf i).map (fun _ => state) else g.stateOf i := by
  have hid : (fun t : Task => decide ((if t.id ∈ ids then { t with state := state } else t).id = i))
      = fun t : Task => decide (t.id = i) := by
    funext t
    split <;> rfl
  have hfind : (g.setState ids state).find i
      = (g.find i).map (fun t => if t.id ∈ ids then { t with state := state } else t) := by
    rw [find, setState, List.find?_map, Function.comp_def, hid]
    rfl
  rw [stateOf, stateOf, hfind]
  cases found : g.find i with
  | none => split <;> rfl
  | some t =>
      have hi : t.id = i := by simpa using List.find?_some found
      rw [Option.map_some, hi]
      split <;> rfl

theorem stateOf_resumeSkipping (frozen : List TaskId) (sent : Nat) :
    (g.resumeSkipping frozen sent).stateOf i
      = if i ∈ frozen.drop sent then (g.stateOf i).map (fun _ => .running)
        else if i ∈ frozen.take sent then (g.stateOf i).map (fun _ => .released)
        else g.stateOf i := by
  rw [resumeSkipping, stateOf_setState, stateOf_setState]
  split
  · split
    · rw [Option.map_map]
      rfl
    · rfl
  · rfl

theorem step_accepts (live : ∀ b, g.phase ≠ .exited b) (acceptor : g.acceptor ≠ .stopped) :
    g.step .accepts = some g.accept := by
  cases phase : g.phase with
  | exited b => exact absurd phase (live b)
  | _ => simp only [step, phase, if_neg acceptor]

theorem step_ends (live : ∀ b, g.phase ≠ .exited b) (found : g.find id = some t)
    (state : t.state ≠ .frozen) : g.step (.ends id) = some (g.endTask t) := by
  cases phase : g.phase with
  | exited b => exact absurd phase (live b)
  | _ => simp only [step, phase, found, if_neg state]

end Generation

variable {c : Codec} {F F' : Fleet} {before : Remembered} {g g' : Generation} {e : FleetEvent}
  {id : SessionId} {s : Session} {senders : List SessionId}

/-! ## What the fleet does -/

/-- The generation can do what it sees of a step. -/
def Shown (g : Generation) (e : FleetEvent) (F' : Fleet) : Prop :=
  ∃ ds g' out, serverMachine.run g ds = some (g', out) ∧ Views F' g' ∧
    ds.filterMap ServerEvent.outer = [e].filterMap FleetEvent.server ∧
    (g'.phase = .draining → g.phase = .draining ∨ e.handsOver = true)

theorem Shown.unseen (h : Views F' g) (he : e.server = none) : Shown g e F' :=
  ⟨[], g, [], rfl, h, by rw [List.filterMap_cons_none he]; rfl, Or.inl⟩

theorem Shown.one {x : ServerEvent} (hs : g.step x = some g') (h : Views F' g')
    (hx : x.outer = e.server)
    (hdrains : g'.phase = .draining → g.phase = .draining ∨ e.handsOver = true) :
    Shown g e F' := by
  refine ⟨[x], g', [], ?_, h, ?_, hdrains⟩
  · have hstep : serverMachine.step g x = some (g', []) :=
      Option.map_eq_some_iff.mpr ⟨g', hs, rfl⟩
    exact Machine.run_cons_eq_some.mpr ⟨g', [], [], hstep, rfl, rfl⟩
  · simp only [List.filterMap_cons, hx]
    rfl

@[simp] theorem Member.taskState_setControl (m : Member) (control : Option FreezeRequest) :
    (m.setControl control).taskState = m.taskState := by
  cases m with
  | running => rfl
  | held s clientFd resume control => cases resume <;> rfl

namespace Views

theorem runs_of (h : Views F g) {k : Coordinator} (hk : F.coordinator = k) :
    k.Runs F.resumes g.phase :=
  hk ▸ h.phase

theorem live (h : Views F g) (b : Bool) : g.phase ≠ .exited b := by
  intro hexited
  cases hk : F.coordinator with
  | idle =>
      rcases h.runs_of hk with hphase | hphase
      · cases hexited.symm.trans hphase
      · cases hexited.symm.trans hphase
  | _ => cases hexited.symm.trans (h.runs_of hk)

/-- The task of a session. -/
theorem found (h : Views F g) {m : Member} (member : F.sessions.get? id = some m) :
    ∃ t, g.find id = some t ∧ t.state = m.taskState := by
  have hstate := h.states id
  rw [member] at hstate
  exact Option.map_eq_some_iff.mp hstate

/-- A session changes, and its task does not. -/
theorem states_insert (h : Views F g) {m m' : Member} (member : F.sessions.get? id = some m)
    (same : m'.taskState = m.taskState) (i : SessionId) :
    g.stateOf i = ((F.sessions.insert id m').get? i).map Member.taskState := by
  rw [h.states, OrdMap.get?_insert]
  split
  · next hi => rw [hi, member, Option.map_some, Option.map_some, same]
  · rfl

theorem joins (h : Views F g) (hg : g.Lifecycle) :
    Shown g (.joins s) { F with
      sessions := F.sessions.insert F.nextId (.running s none), nextId := F.nextId + 1 } := by
  refine .one (Generation.step_accepts h.live h.acceptor) ⟨fun i => ?_, ?_, h.mode, h.phase,
    h.acceptor⟩ rfl Or.inl
  · rw [Generation.stateOf_accept hg.below, h.nextTask, OrdMap.get?_insert]
    split
    · rfl
    · exact h.states i
  · exact congrArg (· + 1) h.nextTask

/-- A session ends that is not frozen. -/
theorem ends (h : Views F g) (hg : g.Lifecycle) {m : Member}
    (member : F.sessions.get? id = some m) (thawed : m.taskState ≠ .frozen)
    (he : e.server = none) : Shown g e { F with sessions := F.sessions.erase id } := by
  obtain ⟨t, found, hstate⟩ := h.found member
  refine .one (Generation.step_ends h.live found (hstate ▸ thawed)) ⟨fun i => ?_, h.nextTask,
    h.mode, h.phase, h.acceptor⟩ he.symm Or.inl
  rw [Generation.stateOf_endTask hg.ids found, OrdMap.get?_erase]
  split
  · rfl
  · exact h.states i

/-- A session goes on running. -/
theorem runs (h : Views F g) {m : Member} {control : Option FreezeRequest}
    (member : F.sessions.get? id = some m) (running : m.taskState = .running)
    (he : e.server = none) : Shown g e (F.settle id control (.running s)) :=
  .unseen ⟨h.states_insert member running.symm, h.nextTask, h.mode, h.phase, h.acceptor⟩ he

theorem sheds (h : Views F g) (hF : F.Sound before) (idle : F.coordinator = .idle)
    (hserves : g.phase ≠ .draining) :
    Shown g (.freezeAll senders) { F with coordinator := .asking senders } := by
  have hserving : g.phase = .serving := (h.runs_of idle).resolve_right hserves
  have hstep : g.step .sigUpgrade = some { g.abortAcceptor with phase := .freezing [] } := by
    simp only [Generation.step, hserving, h.mode]
  have hnone : F.resumes = [] := by rw [hF.resumes, hF.idle idle]; rfl
  refine .one hstep ⟨h.states, h.nextTask, h.mode, ?_, ?_⟩ rfl (fun hdrains => by cases hdrains)
  · rw [hnone]
    rfl
  · show (if g.acceptor = .accepting then Acceptor.aborted else g.acceptor) ≠ .stopped
    split
    · exact fun hstopped => by cases hstopped
    · exact h.acceptor

theorem asked (h : Views F g) {m : Member} (asking : F.coordinator = .asking (id :: senders))
    (member : F.sessions.get? id = some m) :
    Shown g .asks { F with
      sessions := F.sessions.insert id (m.setControl (some .awaited))
      coordinator := .awaiting id senders none } := by
  have hphase : g.phase = .freezing F.resumes := h.runs_of asking
  have hstep : g.step (.asks id) = some { g with phase := .awaiting F.resumes id false } := by
    simp only [Generation.step, hphase]
  exact .one hstep ⟨h.states_insert member (m.taskState_setControl _), h.nextTask, h.mode, rfl,
    h.acceptor⟩ rfl (fun hdrains => by cases hdrains)

/-- The state of one session changes, and its task's with it. -/
theorem states_set (h : Views F g) {sessions : OrdMap SessionId Member} {m₀ m : Member}
    {state : TaskState} (member : F.sessions.get? id = some m₀) (hself : sessions.get? id = some m)
    (hstate : m.taskState = state) (hother : ∀ i ≠ id, sessions.get? i = F.sessions.get? i)
    (i : SessionId) :
    (g.setState [id] state).stateOf i = (sessions.get? i).map Member.taskState := by
  rw [Generation.stateOf_setState, h.states]
  by_cases hi : i = id
  · rw [if_pos (List.mem_singleton.mpr hi), hi, member, hself, ← hstate]
    rfl
  · rw [if_neg (fun hmem => hi (List.mem_singleton.mp hmem)), hother i hi]

theorem replies (h : Views F g) (hF : F.Sound before) {clientFd : Int}
    (member : F.sessions.get? id = some (.running s (some .awaited))) :
    Shown g (.takesUp id clientFd) { F with
      sessions := F.sessions.insert id (.held s.emptied clientFd .empty none)
      coordinator := F.coordinator.receive (s.freeze clientFd) } := by
  obtain ⟨senders, awaiting⟩ := hF.awaited id _ member rfl
  have hphase : g.phase = .awaiting F.resumes id false := h.runs_of awaiting
  obtain ⟨t, found, running⟩ := h.found member
  have hstep : g.step .replies
      = some { g.setState [id] .frozen with phase := .awaiting F.resumes id true } := by
    have hrunning : t.state = .running := running
    simp only [Generation.step, hphase, found, hrunning, if_true]
  refine .one hstep ⟨?_, h.nextTask, h.mode, ?_, h.acceptor⟩ rfl (fun hdrains => by cases hdrains)
  · refine h.states_set member (m := .held s.emptied clientFd .empty none) ?_ rfl ?_
    · exact (OrdMap.get?_insert ..).trans (if_pos rfl)
    · intro i hi
      rw [OrdMap.get?_insert, if_neg hi]
  · rw [awaiting]
    rfl

theorem collects (h : Views F g) {session : FrozenSession}
    (awaiting : F.coordinator = .awaiting id senders (some session)) :
    Shown g .collects { F with
      frozen := F.frozen ++ [session]
      resumes := F.resumes ++ [id]
      coordinator := .asking senders } := by
  have hphase : g.phase = .awaiting F.resumes id true := h.runs_of awaiting
  have hstep : g.step .collects = some { g with phase := .freezing (F.resumes ++ [id]) } := by
    simp only [Generation.step, hphase]
  exact .one hstep ⟨h.states, h.nextTask, h.mode, rfl, h.acceptor⟩ rfl
    (fun hdrains => by cases hdrains)

/-- `freeze_all` goes on without a reply. -/
theorem skips (h : Views F g) {sessions : OrdMap SessionId Member}
    (awaiting : F.coordinator = .awaiting id senders none)
    (hsessions : ∀ i, (sessions.get? i).map Member.taskState
      = (F.sessions.get? i).map Member.taskState) (he : e.server = none) :
    Shown g e { F with sessions := sessions, coordinator := .asking senders } := by
  have hphase : g.phase = .awaiting F.resumes id false := h.runs_of awaiting
  have hstep : g.step .skips = some { g with phase := .freezing F.resumes } := by
    simp only [Generation.step, hphase]
  exact .one hstep ⟨fun i => (h.states i).trans (hsessions i).symm, h.nextTask, h.mode, rfl,
    h.acceptor⟩ he.symm (fun hdrains => by cases hdrains)

/-- A reply that has come is dropped, and its session let go of. -/
theorem skipsLate (h : Views F g) (hF : F.Sound before) {session : FrozenSession}
    (awaiting : F.coordinator = .awaiting id senders (some session)) :
    Shown g .givesUp { F with
      sessions := F.sessions.adjust id Member.drop, coordinator := .asking senders } := by
  have hphase : g.phase = .awaiting F.resumes id true := h.runs_of awaiting
  have hstep : g.step .skips
      = some { g.setState [id] .released with phase := .freezing F.resumes } := by
    simp only [Generation.step, hphase]
  obtain ⟨s, control, -, -, member⟩ := hF.frozen session (List.mem_append_right _ (by
    rw [awaiting]
    exact List.mem_singleton.mpr rfl))
  rw [hF.replied id senders session awaiting] at member
  refine .one hstep ⟨?_, h.nextTask, h.mode, rfl, h.acceptor⟩ rfl (fun hdrains => by cases hdrains)
  refine h.states_set member (m := .held s.emptied session.clientFd .closed control) ?_ rfl ?_
  · rw [OrdMap.get?_adjust, if_pos rfl, member]
    rfl
  · intro i hi
    rw [OrdMap.get?_adjust, if_neg hi]

theorem returns (h : Views F g) (asking : F.coordinator = .asking []) :
    Shown g .returns { F with coordinator := .returned } := by
  have hphase : g.phase = .freezing F.resumes := h.runs_of asking
  have hstep : g.step .allFrozen = some { g with phase := .handing F.resumes } := by
    simp only [Generation.step, hphase]
  exact .one hstep ⟨h.states, h.nextTask, h.mode, rfl, h.acceptor⟩ rfl
    (fun hdrains => by cases hdrains)

theorem states_resumeSkipping (h : Views F g) (hF : F.Sound before) (sent : Nat) (i : SessionId) :
    (g.resumeSkipping F.resumes sent).stateOf i
      = ((F.resumeSkipping sent).get? i).map Member.taskState := by
  rw [Generation.stateOf_resumeSkipping, h.states, hF.resumes, ← List.map_drop, ← List.map_take]
  by_cases hi : ∃ f ∈ F.frozen, f.id = i
  · obtain ⟨f, hf, rfl⟩ := hi
    obtain ⟨k, hk⟩ := List.mem_iff_getElem?.mp hf
    obtain ⟨s, control, -, -, held, hafter⟩ := hF.get?_resumeSkipping sent hk
    rw [held, hafter]
    by_cases hlt : k < sent
    · have hdrop : f.id ∉ (F.frozen.drop sent).map FrozenSession.id := by
        intro hmem
        obtain ⟨f', hf', hid⟩ := List.mem_map.mp hmem
        exact id_ne_of_mem_drop hF.nodup_ids hk hlt f' hf' hid
      have htake : f.id ∈ (F.frozen.take sent).map FrozenSession.id := by
        refine List.mem_map_of_mem (List.mem_iff_getElem?.mpr ⟨k, ?_⟩)
        rw [List.getElem?_take_of_lt hlt, hk]
      rw [if_neg hdrop, if_pos htake, if_pos hlt]
      rfl
    · have hdrop : f.id ∈ (F.frozen.drop sent).map FrozenSession.id :=
        List.mem_map_of_mem (mem_drop hk (Nat.le_of_not_lt hlt))
      rw [if_pos hdrop, if_neg hlt]
      rfl
  · have hnot : ∀ l : List FrozenSession, (∀ f ∈ l, f ∈ F.frozen) → i ∉ l.map FrozenSession.id := by
      intro l hl hmem
      obtain ⟨f, hf, hid⟩ := List.mem_map.mp hmem
      exact hi ⟨f, hl f hf, hid⟩
    rw [if_neg (hnot _ (fun _ => List.mem_of_mem_drop)),
      if_neg (hnot _ (fun _ => List.mem_of_mem_take)), hF.get?_resumeSkipping_other]
    exact fun f hf hid => hi ⟨f, hf, hid⟩

/-- After `resume_all` the generation serves again, and after a hand-over it drains. -/
theorem resumes (h : Views F g) (hF : F.Sound before) (returned : F.coordinator = .returned)
    (sent : Nat) :
    Shown g (.resume sent) { F with
      sessions := F.resumeSkipping sent, coordinator := .idle, frozen := [], resumes := [] } := by
  have hphase : g.phase = .handing F.resumes := h.runs_of returned
  have hstates := h.states_resumeSkipping hF sent
  cases sent with
  | zero =>
      have hstep : g.step .upgradeFails = some { g.resumeSkipping F.resumes 0 with
          phase := .serving, acceptor := .accepting } := by
        simp only [Generation.step, hphase]
      exact .one hstep ⟨hstates, h.nextTask, h.mode, Or.inl rfl, fun hstopped => by cases hstopped⟩
        rfl (fun hdrains => by cases hdrains)
  | succ sent =>
      have hstep : g.step (.upgraded (sent + 1) (.error (invalidData "")))
          = some (g.resumeSkipping F.resumes (sent + 1)).drain := by
        simp only [Generation.step, hphase]
      refine .one hstep ⟨hstates, h.nextTask, h.mode, Or.inr rfl, ?_⟩ rfl (fun _ => Or.inr rfl)
      show (if g.acceptor = .accepting then Acceptor.aborted else g.acceptor) ≠ .stopped
      split
      · exact fun hstopped => by cases hstopped
      · exact h.acceptor

/-- Each step of the fleet is seen as something the generation can do. -/
theorem step (h : Views F g) (hF : F.Sound before) (hg : g.Lifecycle) (hs : FleetStep c F e F')
    (hserves : e.sheds = true → g.phase ≠ .draining) : Shown g e F' := by
  cases hs with
  | joins named => exact h.joins hg
  | @stepped id e s control o out member stays loop =>
      cases o with
      | running s' => exact h.runs member rfl rfl
      | ended r => exact h.ends hg member (fun hfrozen => by cases hfrozen) rfl
  | freezes idle all => exact h.sheds hF idle (hserves rfl)
  | gone asking member =>
      have hphase : g.phase = .freezing F.resumes := h.runs_of asking
      exact .unseen ⟨h.states, h.nextTask, h.mode, hphase, h.acceptor⟩ rfl
  | asked asking member free => exact h.asked asking member
  | replies member => exact h.replies hF member
  | tooLate member => exact h.runs member rfl rfl
  | collects awaiting => exact h.collects awaiting
  | @givesUp id senders awaiting =>
      refine h.skips awaiting (fun i => ?_) rfl
      rw [OrdMap.get?_adjust]
      split
      · rw [Option.map_map]
        exact congrFun (congrArg Option.map (funext (fun m => m.taskState_setControl _))) _
      · rfl
  | losesReply awaiting => exact h.skipsLate hF awaiting
  | replyLost awaiting gone => exact h.skips awaiting (fun _ => rfl) rfl
  | returns asking => exact h.returns asking
  | resumes returned => exact h.resumes hF returned _
  | wakes member =>
      obtain ⟨s', back⟩ := FreezeAll.freezeSession_running _ _ _
      rw [back]
      exact h.runs member rfl rfl
  | exits member => exact h.ends hg member (fun hfrozen => by cases hfrozen) rfl

end Views

/-! ## Runs -/

theorem views_start : Views .start (.start .migrate false) :=
  ⟨fun _ => rfl, rfl, rfl, Or.inl rfl, fun hstopped => by cases hstopped⟩

/-- From anywhere on, as long as a generation that drains is not to shed. -/
theorem Views.run {es : List FleetEvent} (hfinal : es.Pairwise FleetEvent.Final) :
    ∀ {F : Fleet} {g : Generation} {before : Remembered} {o : List Unit}, Views F g →
      F.Sound before → g.Lifecycle → (g.phase = .draining → ∀ e ∈ es, e.sheds = false) →
      (fleetMachine c).run F es = some (F', o) →
      ∃ ds g' out, serverMachine.run g ds = some (g', out) ∧ Views F' g' ∧
        ds.filterMap ServerEvent.outer = es.filterMap FleetEvent.server := by
  induction es with
  | nil =>
      intro F g before o h _ _ _ hrun
      cases hrun
      exact ⟨[], g, [], rfl, h, rfl⟩
  | cons e es ih =>
      intro F g before o h hF hg hdraining hrun
      obtain ⟨hnext, hfinal⟩ := List.pairwise_cons.mp hfinal
      obtain ⟨F₁, o₁, o₂, hs, hrun, -⟩ := Machine.run_cons_eq_some.mp hrun
      obtain ⟨F₂, hF₂, hpair⟩ := Option.map_eq_some_iff.mp hs
      cases hpair
      have hs := fleetStep_of_step hF₂
      have hserves : e.sheds = true → g.phase ≠ .draining := by
        intro hsheds hphase
        cases (hdraining hphase e List.mem_cons_self).symm.trans hsheds
      obtain ⟨ds, g₁, out, hd, h₁, hlabel, hdrains⟩ := h.step hF hg hs hserves
      have hg₁ : g₁.Lifecycle := by
        refine Machine.run_induction (I := Generation.Lifecycle) ?_ hg hd
        intro g e g' out hl hs
        obtain ⟨g₁, h, hpair⟩ := Option.map_eq_some_iff.mp hs
        cases hpair
        exact hl.step h
      have hdraining₁ : g₁.phase = .draining → ∀ e' ∈ es, e'.sheds = false := by
        intro hphase e' he'
        rcases hdrains hphase with hphase | hhands
        · exact hdraining hphase e' (List.mem_cons_of_mem _ he')
        · exact hnext e' he' hhands
      obtain ⟨ds', g', out', hd', h', hlabels⟩ := ih hfinal h₁ (hF.step hs) hg₁ hdraining₁ hrun
      refine ⟨ds ++ ds', g', out ++ out', ?_, h', ?_⟩
      · exact Machine.run_append_eq_some.mpr ⟨g₁, out, out', hd, hd', rfl⟩
      · rw [List.filterMap_append, hlabel, hlabels, ← List.filterMap_append]
        rfl

/-- Every run of the fleet, with no shed after a hand-over, is seen as a run of a generation,
in which the same sessions come, and sheds begin and end alike. -/
theorem generation_of_fleet {es : List FleetEvent} {o : List Unit}
    (hrun : (fleetMachine c).run .start es = some (F, o)) (hfinal : es.Pairwise FleetEvent.Final) :
    ∃ ds g out, serverMachine.run (.start .migrate false) ds = some (g, out) ∧ Views F g ∧
      ds.filterMap ServerEvent.outer = es.filterMap FleetEvent.server :=
  views_start.run hfinal Fleet.Sound.start (.start .migrate false)
    (fun hphase => by cases hphase) hrun

theorem pairwise_final_of_outer {es : List FleetEvent}
    (h : (es.filterMap FleetEvent.outer).Pairwise FleetEvent.Final) :
    es.Pairwise FleetEvent.Final := by
  refine (List.pairwise_filterMap.mp h).imp ?_
  intro e e' hfinal hhands
  cases e' with
  | freezeAll senders =>
      cases e with
      | resume sent => exact hfinal _ rfl _ rfl hhands
      | _ => cases hhands
  | _ => rfl

theorem server_of_outer (es : List FleetEvent) :
    (es.filterMap FleetEvent.outer).filterMap FleetEvent.server
      = es.filterMap FleetEvent.server := by
  rw [List.filterMap_filterMap]
  refine congrArg (fun f => es.filterMap f) (funext (fun e => ?_))
  cases e <;> rfl

/-- Every run of the channels, with no shed after a hand-over, is seen as a run of a
generation. -/
theorem generation_of_freezeAll {S : FreezeAll.State} {as : List FreezeAll.Action}
    {o : List FreezeAll.Note} (hrun : (FreezeAll.machine c).run .start as = some (S, o))
    (hfinal : (as.filterMap FreezeAll.Action.outer).Pairwise FleetEvent.Final) :
    ∃ ds F g out, serverMachine.run (.start .migrate false) ds = some (g, out) ∧
      FreezeAll.Matches S F ∧ Views F g ∧ ds.filterMap ServerEvent.outer
        = (as.filterMap FreezeAll.Action.outer).filterMap FleetEvent.server := by
  obtain ⟨es, F, out, hfleet, hseen, houter⟩ := FreezeAll.fleet_of_freezeAll hrun
  rw [← houter] at hfinal ⊢
  obtain ⟨ds, g, out, hserver, hviews, hlabels⟩ :=
    generation_of_fleet hfleet (pairwise_final_of_outer hfinal)
  exact ⟨ds, F, g, out, hserver, hseen, hviews, hlabels.trans (server_of_outer es).symm⟩

open FreezeAll ReferenceCodec in
/-- The session that replies too late is released, in no batch, while the generation goes on
with its hand-over. -/
theorem generation_of_repliesLate : ∃ ds g out,
    serverMachine.run (.start .migrate false) ds = some (g, out) ∧
    g.phase = .handing [] ∧ g.stateOf 0 = some .released ∧
    ds.filterMap ServerEvent.outer = [.accepts, .sigUpgrade] := by
  obtain ⟨S, o, hrun, hloop, hresumes, hm, hresume⟩ : ∃ S o,
      (FreezeAll.machine (codec true)).run .start repliesLate = some (S, o) ∧
      S.loop = .returned ∧ S.resumes = [] ∧
      S.members.get? 0 = some ⟨.waiting connected.emptied 5 1, none⟩ ∧
      (S.requests (0, 1)).resume = .closed :=
    ⟨_, _, rfl, rfl, rfl, rfl, rfl⟩
  have hfinal : (repliesLate.filterMap Action.outer).Pairwise FleetEvent.Final :=
    List.pairwise_pair.mpr (fun hhands => by cases hhands)
  obtain ⟨ds, F, g, out, hserver, hseen, hviews, hlabels⟩ := generation_of_freezeAll hrun hfinal
  refine ⟨ds, g, out, hserver, ?_, ?_, hlabels⟩
  · have hphase := hviews.phase
    rw [hseen.coordinator, State.coordinator, hloop, hseen.resumes, hloop, hresumes] at hphase
    exact hphase
  · rw [hviews.states, (hseen.waiting hm).1, State.resumeSeen, hresume]
    rfl

end TrafficDirector
