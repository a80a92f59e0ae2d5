/-
# `TrafficDirector.Server.Deployment` — generation after generation

The processes of a deployment, the oldest first: each one's `run` (`Generation`), the
hand-off from it to the process that it has spawned (`Handoff`), and the crash of any of
them at any time.  Their steps come in any order; a signal reaches them all, so a process
may be told to shed while it still receives.

The connection of a client is a number, and the descriptor that travels with a session
stands for it.  A connection is claimed by the task that serves it, by the frozen task that
may be resumed, and from the END of a hand-off until `recv_sessions` has returned by the
hand-off itself.  No step claims one twice: `one_task_per_client`.
-/
import Mathlib.Data.List.Flatten
import TrafficDirector.Lib.Holders
import TrafficDirector.Migrate.Ownership
import TrafficDirector.Server.Lifecycle

namespace TrafficDirector

structure Process where
  gen : Generation
  /-- the connection of each task that it has spawned -/
  conns : List Int
  /-- it has not crashed -/
  alive : Bool
  /-- the hand-off to the process that it has spawned -/
  handoff : Option Handoff
  /-- `recv_sessions` has returned there -/
  collected : Bool

structure Deployment where
  /-- the oldest first -/
  processes : List Process
  /-- the connections that there have been -/
  accepted : Nat

inductive DeploymentEvent where
  /-- a step of `run`, or of a session task -/
  | runs (i : Nat) (e : ServerEvent)
  /-- `ec.upgrade()` returns: there is a new process -/
  | spawns (batch : FreezeBatch)
  | hands (i : Nat) (e : HandoffEvent)
  /-- `send_sessions` returns -/
  | handed (i : Nat)
  /-- `recv_sessions` returns, in the process that this one has spawned -/
  | received (i : Nat)
  | crashes (i : Nat)

/-- An event of `run` that does not come from another process. -/
def ServerEvent.internal : ServerEvent → Bool
  | .upgraded .. | .received _ => false
  | _ => true

def RunPhase.isExited : RunPhase → Bool
  | .exited _ => true
  | _ => false

namespace Process

def start (mode : ShedMode) (isChild : Bool) : Process where
  gen := .start mode isChild
  conns := []
  alive := true
  handoff := none
  collected := false

def live (p : Process) : Bool := p.alive && !p.gen.phase.isExited

/-- The client of a task. -/
def client (p : Process) (t : Task) : Int := p.conns.getD t.id 0

/-- A step of `run`, with the connections of the tasks that it spawns. -/
def advance (p : Process) (e : ServerEvent) (clients : List Int) : Option Process :=
  if p.live then
    (p.gen.step e).map (fun g => { p with gen := g, conns := p.conns ++ clients })
  else none

/-- Who has to be there for a step of a hand-off from `p` to `q`. -/
def attends (p q : Process) : HandoffEvent → Bool
  | .parentDies => !p.alive
  | .childReceives .. | .childFails _ => q.live
  | .parentSends _ | .endLost | .parentReceives | .parentFails _ => p.live

/-- The clients that the process serves. -/
def serving (p : Process) : List Int :=
  if p.live then (p.gen.tasks.filter (fun t => t.state = .running)).map p.client else []

end Process

namespace Deployment

def start (mode : ShedMode) : Deployment := ⟨[.start mode false], 0⟩

/-- `ec.upgrade()` has returned in the last process. -/
def spawn (d : Deployment) (i : Nat) (p : Process) (batch : FreezeBatch) : Option Deployment :=
  match p.gen.phase with
  | .upgrading =>
      (p.advance (.upgraded 0 (.ok ())) []).map
        (fun p' => { d with processes := d.processes.set i p' ++ [.start p.gen.mode true] })
  | .handing frozen =>
      if p.live ∧ p.handoff.isNone
          ∧ batch.frozen.map FrozenSession.clientFd = frozen.map (fun id => p.conns.getD id 0) then
        let p' := { p with handoff := some (.start batch) }
        some { d with processes := d.processes.set i p' ++ [.start p.gen.mode true] }
      else none
  | _ => none

/-- A step of `run` in process `i`. -/
def runs (d : Deployment) (i : Nat) (p : Process) : ServerEvent → Option Deployment
  | .accepts =>
      (p.advance .accepts [(d.accepted : Int)]).map
        (fun p' => ⟨d.processes.set i p', d.accepted + 1⟩)
  | .upgradeFails =>
      if p.handoff.isNone then
        (p.advance .upgradeFails []).map (fun p' => { d with processes := d.processes.set i p' })
      else none
  | e =>
      if e.internal then
        (p.advance e []).map (fun p' => { d with processes := d.processes.set i p' })
      else none

/-- A step of the hand-off from `p` to `q`. -/
def hand (json : Json) (d : Deployment) (i : Nat) (p q : Process) (h : Handoff) (e : HandoffEvent) :
    Option Deployment :=
  if p.attends q e then
    (h.step json e).map
      (fun h' => { d with processes := d.processes.set i { p with handoff := some h' } })
  else none

def handed (d : Deployment) (i : Nat) (p : Process) (h : Handoff) : Option Deployment :=
  match h.parent with
  | .finished result =>
      (p.advance (.upgraded h.sent result) []).map
        (fun p' => { d with processes := d.processes.set i p' })
  | _ => none

def received (d : Deployment) (i : Nat) (p q : Process) (h : Handoff) : Option Deployment :=
  match h.child with
  | .finished result =>
      if p.collected then none
      else
        (q.advance (.received result) (h.adopted.map Prod.snd)).map
          (fun q' =>
            { d with processes := (d.processes.set i { p with collected := true }).set (i + 1) q' })
  | _ => none

def step (json : Json) (d : Deployment) : DeploymentEvent → Option Deployment
  | .runs i e =>
      match d.processes[i]? with
      | some p => d.runs i p e
      | none => none
  | .spawns batch =>
      match d.processes.getLast? with
      | some p => d.spawn (d.processes.length - 1) p batch
      | none => none
  | .hands i e =>
      match d.processes[i]?, d.processes[i + 1]? with
      | some p, some q => p.handoff.bind (fun h => d.hand json i p q h e)
      | _, _ => none
  | .handed i =>
      match d.processes[i]? with
      | some p => p.handoff.bind (fun h => d.handed i p h)
      | none => none
  | .received i =>
      match d.processes[i]?, d.processes[i + 1]? with
      | some p, some q => p.handoff.bind (fun h => d.received i p q h)
      | _, _ => none
  | .crashes i =>
      match d.processes[i]? with
      | some p => some { d with processes := d.processes.set i { p with alive := false } }
      | none => none

end Deployment

def deploymentMachine (json : Json) : Machine Deployment DeploymentEvent Unit :=
  ⟨fun d e => (d.step json e).map (fun d' => (d', []))⟩

/-! ## Who claims a task's client -/

/-- A task has a claim to its client while it runs, or may be resumed. -/
def TaskState.claims (resumable : Bool) : TaskState → Bool
  | .running => true
  | .frozen => resumable
  | .released => false

/-- The tasks that a step spawns. -/
def ServerEvent.spawned : ServerEvent → Nat
  | .accepts => 1
  | .received (.ok sessions) => sessions.length
  | _ => 0

/-- `ec.upgrade()` has failed, or the hand-off has. -/
def ServerEvent.resumes : ServerEvent → Bool
  | .upgradeFails | .upgraded _ (.error _) => true
  | _ => false

namespace Generation

variable {g g' : Generation} {e : ServerEvent} {resumable : Bool}

/-- The tasks with a claim. -/
def claimants (g : Generation) (resumable : Bool) : List TaskId :=
  (g.tasks.filter (fun t => t.state.claims resumable)).map Task.id

theorem sublist_of_states {l : List Task} {f : Task → Task} (hid : ∀ t ∈ l, (f t).id = t.id)
    (hclaims : ∀ t ∈ l, (f t).state.claims resumable = true → t.state.claims resumable = true) :
    (((l.map f).filter (fun t => t.state.claims resumable)).map Task.id).Sublist
      ((l.filter (fun t => t.state.claims resumable)).map Task.id) := by
  induction l with
  | nil => exact .slnil
  | cons t l ih =>
      have htail := ih (fun u hu => hid u (List.mem_cons_of_mem _ hu))
        (fun u hu => hclaims u (List.mem_cons_of_mem _ hu))
      have hhead := hclaims t List.mem_cons_self
      rw [List.map_cons, List.filter_cons, List.filter_cons]
      split
      · next hft =>
          rw [if_pos (hhead hft), List.map_cons, List.map_cons, hid t List.mem_cons_self]
          exact htail.cons_cons _
      · split
        · exact htail.cons _
        · exact htail

theorem claimants_setState {ids : List TaskId} {state : TaskState}
    (hclaims : ∀ t ∈ g.tasks, t.id ∈ ids → state.claims resumable = true →
      t.state.claims resumable = true) :
    ((g.setState ids state).claimants resumable).Sublist (g.claimants resumable) := by
  refine sublist_of_states ?_ ?_
  · intro t _
    split <;> rfl
  · intro t ht hft
    split at hft
    · next hid => exact hclaims t ht hid hft
    · exact hft

/-- Those of a batch that are resumed had a claim, as they were frozen. -/
theorem Lists.claimants_resumed {frozen : List TaskId} {sent : Nat} (h : g.Lists frozen)
    (hids : (g.tasks.map Task.id).Nodup) :
    ((g.resumeSkipping frozen sent).claimants true).Sublist (g.claimants true) := by
  rw [claimants, resumeSkipping, setState, setState, List.map_map]
  refine sublist_of_states ?_ ?_
  · intro t _
    rw [Function.comp_apply]
    split <;> split <;> rfl
  · intro t ht hclaims
    by_cases hid : t.id ∈ frozen
    · rw [h.state hids ht hid]
      rfl
    · rw [Function.comp_apply, if_neg (fun htake => hid (List.mem_of_mem_take htake)),
        if_neg (fun hdrop => hid (List.mem_of_mem_drop hdrop))] at hclaims
      exact hclaims

theorem adoptAll_spawns (sessions : Received) : ∃ adopted : List Task,
    (g.adoptAll sessions).tasks = g.tasks ++ adopted ∧
    adopted.map Task.id = List.range' g.nextTask sessions.length ∧
    (g.adoptAll sessions).nextTask = g.nextTask + sessions.length := by
  induction sessions generalizing g with
  | nil => exact ⟨[], (List.append_nil _).symm, rfl, rfl⟩
  | cons session sessions ih =>
      obtain ⟨adopted, htasks, hids, hnext⟩ := ih (g := g.spawn .adoptSession false)
      refine ⟨⟨g.nextTask, .adoptSession, false, .running⟩ :: adopted, ?_, ?_, ?_⟩
      · refine htasks.trans ?_
        rw [spawn, List.append_assoc]
        rfl
      · rw [List.map_cons, hids, List.length_cons, List.range'_succ]
        rfl
      · refine hnext.trans ?_
        exact Nat.add_right_comm g.nextTask 1 sessions.length

/-- The tasks with a claim after a step had one before it, or are spawned by it. -/
theorem Steps.claimants (resumable : Bool) (hl : g.Lifecycle) (h : g.Steps e g')
    (hresumes : e.resumes = true → resumable = true) :
    (g'.claimants resumable).Sublist
      (g.claimants resumable ++ List.range' g.nextTask e.spawned) := by
  have hspawned : ∀ {tasks : List Task} (new : List Task), tasks = g.tasks ++ new →
      (({ g with tasks := tasks }).claimants resumable).Sublist
        (g.claimants resumable ++ new.map Task.id) := by
    intro tasks new htasks
    rw [Generation.claimants, htasks, List.filter_append, List.map_append]
    exact (List.filter_sublist.map Task.id).append_left _
  have hnone : ∀ {l : List TaskId}, l.Sublist (g.claimants resumable) →
      l.Sublist (g.claimants resumable ++ List.range' g.nextTask 0) := by
    intro l hl
    exact hl.trans (List.sublist_append_left _ _)
  cases h with
  | accepts live acceptor => exact hspawned [⟨g.nextTask, .runSession, true, .running⟩] rfl
  | receives live receiving =>
      obtain ⟨adopted, htasks, hids, -⟩ := adoptAll_spawns (g := { g with receiving := false }) _
      have hadopted := hspawned adopted htasks
      rw [hids] at hadopted
      exact hadopted
  | ends live found state => exact hnone ((List.erase_sublist.filter _).map Task.id)
  | @replies frozen id t phase found state =>
      refine hnone (claimants_setState ?_)
      intro u hu hid _
      have hfound : t.id = id := by simpa using List.find?_some found
      have hsame : u.id = t.id := (List.mem_singleton.mp hid).trans hfound.symm
      obtain rfl := List.inj_on_of_nodup_map hl.ids hu (List.mem_of_find?_eq_some found) hsame
      rw [state]
      rfl
  | skipsLate phase =>
      refine hnone (claimants_setState ?_)
      intro u hu hid hclaims
      cases hclaims
  | @keeps frozen sent err phase =>
      rw [hresumes rfl]
      exact ((hl.listing frozen (by rw [phase]; rfl)).claimants_resumed hl.ids).trans
        (List.sublist_append_left _ _)
  | @rollsBack frozen phase =>
      rw [hresumes rfl]
      exact ((hl.listing frozen (by rw [phase]; rfl)).claimants_resumed hl.ids).trans
        (List.sublist_append_left _ _)
  | acceptorStops live acceptor => exact hnone (.refl _)
  | receivesNothing live receiving => exact hnone (.refl _)
  | upgrades phase mode => exact hnone (.refl _)
  | sheds phase mode => exact hnone (.refl _)
  | stops phase => exact hnone (.refl _)
  | upgraded phase => exact (List.Sublist.refl _).trans (List.sublist_append_left _ _)
  | stays phase => exact hnone (.refl _)
  | asks phase => exact hnone (.refl _)
  | collects phase => exact hnone (.refl _)
  | skips phase => exact hnone (.refl _)
  | allFrozen phase => exact hnone (.refl _)
  | handed phase => exact hnone (.refl _)
  | checks phase => exact hnone (.refl _)
  | drained phase zero => exact hnone (.refl _)
  | timesOut phase => exact hnone (.refl _)

theorem Steps.nextTask (h : g.Steps e g') : g'.nextTask = g.nextTask + e.spawned := by
  cases h with
  | receives live receiving =>
      obtain ⟨_, -, -, hnext⟩ := adoptAll_spawns (g := { g with receiving := false }) _
      exact hnext
  | _ => rfl

/-- Only what comes of the upgrade takes `run` out of the hand-off. -/
theorem Steps.handing {frozen : List TaskId} (h : g.Steps e g') (phase : g.phase = .handing frozen)
    (hinternal : e ≠ .upgradeFails ∧ ∀ sent result, e ≠ .upgraded sent result) :
    g'.phase = .handing frozen := by
  cases h with
  | accepts live acceptor => exact phase
  | acceptorStops live acceptor => exact phase
  | receives live receiving => exact (adoptAll_phase _).trans phase
  | receivesNothing live receiving => exact phase
  | ends live found state => exact phase
  | upgrades hphase mode => cases hphase.symm.trans phase
  | sheds hphase mode => cases hphase.symm.trans phase
  | stops hphase => cases hphase.symm.trans phase
  | upgraded hphase => cases hphase.symm.trans phase
  | stays hphase => cases hphase.symm.trans phase
  | asks hphase => cases hphase.symm.trans phase
  | replies hphase found state => cases hphase.symm.trans phase
  | collects hphase => cases hphase.symm.trans phase
  | skipsLate hphase => cases hphase.symm.trans phase
  | skips hphase => cases hphase.symm.trans phase
  | allFrozen hphase => cases hphase.symm.trans phase
  | handed hphase => exact absurd rfl (hinternal.2 _ _)
  | keeps hphase => exact absurd rfl (hinternal.2 _ _)
  | rollsBack hphase => exact absurd rfl hinternal.1
  | checks hphase => cases hphase.symm.trans phase
  | drained hphase zero => cases hphase.symm.trans phase
  | timesOut hphase => cases hphase.symm.trans phase

end Generation

namespace Process

/-- END is sent: the frozen tasks will not be resumed. -/
def handedOver (p : Process) : Bool :=
  match p.handoff with
  | some h => h.parent.done
  | none => false

/-- The clients that its tasks claim. -/
def clients (p : Process) : List Int :=
  (p.gen.claimants (!p.handedOver)).map (fun id => p.conns.getD id 0)

/-- The clients that its hand-off claims. -/
def inTransit (p : Process) : List Int :=
  match p.handoff with
  | some h =>
      if h.parent.done && !p.collected then h.batch.frozen.map FrozenSession.clientFd else []
  | none => []

def held (p : Process) : List Int := (if p.live then p.clients else []) ++ p.inTransit

structure Valid (p : Process) : Prop where
  lifecycle : p.gen.Lifecycle
  conns : p.conns.length = p.gen.nextTask
  sound : ∀ h, p.handoff = some h → Sound h
  /-- what is handed over is what `run` has frozen -/
  handing : ∀ h, p.handoff = some h → p.alive = true → h.parent.active = true →
    ∃ frozen, p.gen.phase = .handing frozen ∧
      h.batch.frozen.map FrozenSession.clientFd = frozen.map (fun id => p.conns.getD id 0)

variable {p p' q : Process} {e : ServerEvent} {new : List Int} {c : Int}

theorem advance_eq_some : p.advance e new = some p' ↔ p.live = true ∧ ∃ g, p.gen.step e = some g ∧
    p' = { p with gen := g, conns := p.conns ++ new } := by
  rw [advance]
  split
  · next hlive =>
      rw [Option.map_eq_some_iff]
      constructor
      · rintro ⟨g, hg, rfl⟩
        exact ⟨hlive, g, hg, rfl⟩
      · rintro ⟨-, g, hg, rfl⟩
        exact ⟨g, hg, rfl⟩
  · next hdead => exact ⟨(fun h => by cases h), fun h => absurd h.1 hdead⟩

theorem alive_of_live (h : p.live = true) : p.alive = true :=
  (Bool.and_eq_true_iff.mp h).1

/-- The new connections are those of the new tasks, and the others stay. -/
theorem map_conns {conns : List Int} {ids : List TaskId} (hids : ∀ id ∈ ids, id < conns.length) :
    (ids ++ List.range' conns.length new.length).map (fun id => (conns ++ new).getD id 0)
      = ids.map (fun id => conns.getD id 0) ++ new := by
  rw [List.map_append]
  refine congrArg₂ (· ++ ·) (List.map_congr_left (fun id hid => ?_)) ?_
  · rw [List.getD_eq_getElem?_getD, List.getD_eq_getElem?_getD,
      List.getElem?_append_left (hids id hid)]
  · refine List.ext_getElem (by simp) (fun i _ hi => ?_)
    rw [List.getElem_map, List.getElem_range', List.getD_eq_getElem?_getD, Nat.one_mul,
      List.getElem?_append_right (Nat.le_add_right _ _), Nat.add_sub_cancel_left,
      List.getElem?_eq_getElem hi]
    rfl

theorem Valid.claimant_lt (h : p.Valid) {resumable : Bool} {id : TaskId}
    (hid : id ∈ p.gen.claimants resumable) : id < p.conns.length := by
  obtain ⟨t, ht, rfl⟩ := List.mem_map.mp hid
  rw [h.conns]
  exact h.lifecycle.below t (List.mem_filter.mp ht).1

/-- A step of `run` claims nothing but the connections of the tasks that it spawns. -/
theorem held_advance (h : p.Valid) (hadvance : p.advance e new = some p')
    (hnew : new.length = e.spawned) (hresumes : e.resumes = true → p.handedOver = false) :
    p'.held.count c ≤ p.held.count c + new.count c := by
  obtain ⟨hlive, g, hg, rfl⟩ := advance_eq_some.mp hadvance
  have hsteps := Generation.steps_of_step hg
  have hclaimants := hsteps.claimants (!p.handedOver) h.lifecycle
    (fun hr => by rw [hresumes hr]; rfl)
  rw [← h.conns, ← hnew] at hclaimants
  have hclients := hclaimants.map (fun id => (p.conns ++ new).getD id 0)
  rw [map_conns (fun id hid => h.claimant_lt hid)] at hclients
  have hle := hclients.count_le c
  rw [List.count_append] at hle
  rw [held, held, if_pos hlive, List.count_append, List.count_append]
  have htransit : ({ p with gen := g, conns := p.conns ++ new } : Process).inTransit
      = p.inTransit := rfl
  have htasks : ({ p with gen := g, conns := p.conns ++ new } : Process).clients.count c
      ≤ p.clients.count c + new.count c := hle
  rw [htransit]
  split
  · omega
  · rw [List.count_nil]
    omega

theorem Valid.advance (h : p.Valid) (hadvance : p.advance e new = some p')
    (hnew : new.length = e.spawned)
    (hinternal : ∀ h, p.handoff = some h → h.parent.active = true →
      e ≠ .upgradeFails ∧ ∀ sent result, e ≠ .upgraded sent result) : p'.Valid := by
  obtain ⟨hlive, g, hg, rfl⟩ := advance_eq_some.mp hadvance
  have hsteps := Generation.steps_of_step hg
  refine ⟨h.lifecycle.step hg, ?_, h.sound, ?_⟩
  · rw [List.length_append, h.conns, hnew, hsteps.nextTask]
  · intro x hx halive hactive
    obtain ⟨frozen, hphase, hfds⟩ := h.handing x hx halive hactive
    refine ⟨frozen, hsteps.handing hphase (hinternal x hx hactive), hfds.trans ?_⟩
    have hlists := h.lifecycle.listing frozen (by rw [hphase]; rfl)
    refine List.map_congr_left (fun id hid => ?_)
    obtain ⟨t, ht, rfl⟩ := List.mem_map.mp (hlists.frozen.mem_iff.mpr hid)
    have hlt : t.id < p.conns.length := by
      rw [h.conns]
      exact h.lifecycle.below t (List.mem_filter.mp ht).1
    rw [List.getD_eq_getElem?_getD, List.getD_eq_getElem?_getD, List.getElem?_append_left hlt]

theorem Valid.start (mode : ShedMode) (isChild : Bool) : (Process.start mode isChild).Valid where
  lifecycle := .start mode isChild
  conns := rfl
  sound h hh := by cases hh
  handing h hh := by cases hh

/-! ### The hand-off -/

theorem handoffStep_batch {json : Json} {h h' : Handoff} {e : HandoffEvent}
    (hstep : HandoffStep json h e h') : h'.batch = h.batch := by
  cases hstep <;> rfl

/-- The loop of `send_sessions` is left once. -/
theorem handoffStep_parent {json : Json} {h h' : Handoff} {e : HandoffEvent}
    (hstep : HandoffStep json h e h') : h'.parent = h.parent ∨ h.parent.active = true := by
  cases hstep with
  | sends parent text => exact Or.inr (by rw [parent]; rfl)
  | ends parent => exact Or.inr (by rw [parent]; rfl)
  | endLost parent => exact Or.inr (by rw [parent]; rfl)
  | sendFails parent fails => exact Or.inr (by rw [parent]; rfl)
  | acked parent ack => exact Or.inr (by rw [parent]; rfl)
  | badAck parent bad ne => exact Or.inr (by rw [parent]; rfl)
  | ackFails parent => exact Or.inr (by rw [parent]; rfl)
  | dies parent =>
      rcases parent with parent | parent
      · exact Or.inr (by rw [parent]; rfl)
      · exact Or.inr (by rw [parent]; rfl)
  | adopts child queue ended => exact Or.inl rfl
  | accepts child queue more fd acceptable => exact Or.inl rfl
  | rejects child queue unacceptable => exact Or.inl rfl
  | recvFails child => exact Or.inl rfl

/-- It is left with success by END alone, which needs the process. -/
theorem handoffStep_done {json : Json} {h h' : Handoff} {e : HandoffEvent}
    (hstep : HandoffStep json h e h') (hdone : h'.parent.done = true)
    (hopen : h.parent.done = false) (hattends : p.attends q e = true) : p.live = true := by
  have hsame : h'.parent ≠ h.parent := by
    intro hsame
    rw [hsame, hopen] at hdone
    cases hdone
  cases hstep with
  | sends parent text => exact hattends
  | ends parent => exact hattends
  | endLost parent => exact hattends
  | sendFails parent fails => exact hattends
  | acked parent ack => exact hattends
  | badAck parent bad ne => exact hattends
  | ackFails parent => exact hattends
  | dies parent => cases hdone
  | adopts child queue ended => exact absurd rfl hsame
  | accepts child queue more fd acceptable => exact absurd rfl hsame
  | rejects child queue unacceptable => exact absurd rfl hsame
  | recvFails child => exact absurd rfl hsame

theorem active_of_not_done {json : Json} {h h' : Handoff} {e : HandoffEvent}
    (hstep : HandoffStep json h e h') (hdone : h'.parent.done = true)
    (hopen : h.parent.done = false) : h.parent.active = true := by
  rcases handoffStep_parent hstep with hsame | hactive
  · rw [hsame, hopen] at hdone
    cases hdone
  · exact hactive

theorem Valid.hands {json : Json} {h h' : Handoff} {x : HandoffEvent} (hp : p.Valid)
    (hhandoff : p.handoff = some h) (hstep : HandoffStep json h x h') :
    ({ p with handoff := some h' } : Process).Valid where
  lifecycle := hp.lifecycle
  conns := hp.conns
  sound y hy := by
    cases hy
    exact (hp.sound h hhandoff).step hstep
  handing y hy halive hactive := by
    cases hy
    have hactive' : h.parent.active = true := by
      rcases handoffStep_parent hstep with hsame | hactive'
      · rw [← hsame]
        exact hactive
      · exact hactive'
    obtain ⟨frozen, hphase, hfds⟩ := hp.handing h hhandoff halive hactive'
    refine ⟨frozen, hphase, ?_⟩
    rw [handoffStep_batch hstep]
    exact hfds

/-- The running tasks and the frozen ones have a claim while the session may be resumed. -/
theorem claimants_true (g : Generation) :
    (g.claimants true).Perm (g.claimants false ++ (g.tasks.filter Task.isFrozen).map Task.id) := by
  rw [Generation.claimants, Generation.claimants, ← List.map_append]
  refine List.Perm.map Task.id ?_
  have hsplit := (List.filter_append_perm (fun t : Task => t.state.claims false)
    (g.tasks.filter (fun t => t.state.claims true))).symm
  rw [List.filter_filter, List.filter_filter] at hsplit
  refine hsplit.trans (List.Perm.of_eq (congrArg₂ (· ++ ·) ?_ ?_))
  · refine List.filter_congr (fun t _ => ?_)
    cases t.state <;> rfl
  · refine List.filter_congr (fun t _ => ?_)
    rw [Task.isFrozen]
    cases t.state <;> rfl

/-- With END the claims of the frozen tasks go over to the hand-off. -/
theorem held_hands {json : Json} {h h' : Handoff} {x : HandoffEvent} (hp : p.Valid)
    (hhandoff : p.handoff = some h) (hstep : HandoffStep json h x h')
    (hattends : p.attends q x = true) :
    ({ p with handoff := some h' } : Process).held.count c ≤ p.held.count c := by
  have hbatch := handoffStep_batch hstep
  have hlive : ({ p with handoff := some h' } : Process).live = p.live := rfl
  cases hopen : h.parent.done with
  | true =>
      have hsame : h'.parent = h.parent := by
        refine (handoffStep_parent hstep).resolve_right ?_
        intro hactive
        cases hparent : h.parent with
        | sending rest => rw [hparent] at hopen; cases hopen
        | awaiting rest => rw [hparent] at hopen; cases hopen
        | finished result => rw [hparent] at hactive; cases hactive
        | dead => rw [hparent] at hactive; cases hactive
      simp only [held, clients, handedOver, inTransit, hlive, hhandoff, hsame, hbatch]
      exact Nat.le_refl _
  | false =>
      cases hdone : h'.parent.done with
      | false =>
          simp only [held, clients, handedOver, inTransit, hlive, hhandoff, hopen, hdone]
          exact Nat.le_refl _
      | true =>
          have hpresent := handoffStep_done hstep hdone hopen hattends
          obtain ⟨frozen, hphase, hfds⟩ := hp.handing h hhandoff (alive_of_live hpresent)
            (active_of_not_done hstep hdone hopen)
          have hlists := hp.lifecycle.listing frozen (by rw [hphase]; rfl)
          have hclaims := ((claimants_true p.gen).trans (hlists.frozen.append_left _)).map
            (fun id => p.conns.getD id 0)
          rw [List.map_append] at hclaims
          have hcount := hclaims.count_eq c
          rw [List.count_append] at hcount
          simp only [held, clients, handedOver, inTransit, hlive, hhandoff, hopen, hdone, hpresent,
            if_true, hbatch, hfds, List.count_append, Bool.not_true, Bool.not_false, Bool.false_and,
            Bool.true_and]
          rw [hcount]
          split
          · exact Nat.le_refl _
          · simp

/-- What the successor has received is what END has put into the hand-off's hands. -/
theorem held_collect {h : Handoff} (hp : p.Valid) (hh : p.handoff = some h)
    (hopen : ¬ p.collected = true) :
    ({ p with collected := true } : Process).held.count c + (h.adopted.map Prod.snd).count c
      ≤ p.held.count c := by
  have hopen : p.collected = false := by simpa using hopen
  simp only [held, clients, handedOver, inTransit, live, hh, hopen, List.count_append,
    Bool.not_true, Bool.not_false, Bool.and_false, Bool.and_true, Bool.false_eq_true, if_false,
    List.count_nil]
  have hadopted : (h.adopted.map Prod.snd).count c
      ≤ (if h.parent.done then h.batch.frozen.map FrozenSession.clientFd else []).count c := by
    rw [Handoff.adopted]
    split
    · next sessions hchild =>
        obtain ⟨hparent, hfds⟩ := (hp.sound h hh).adopted hchild
        rw [hparent, hfds]
        exact Nat.le_refl _
    · exact Nat.zero_le _
  omega

end Process

/-! ## No client is claimed twice -/

namespace Deployment

/-- A connection is claimed once at most, and not before it is there. -/
structure Sole (d : Deployment) : Prop where
  valid : ∀ p ∈ d.processes, p.Valid
  once : Holders.Exclusive Process.held d.processes
  known : ∀ c : Int, d.accepted ≤ c → Holders.held Process.held d.processes c = 0

variable {json : Json} {d d' : Deployment} {i : Nat} {p p' q : Process} {h : Handoff}

theorem Sole.start (mode : ShedMode) : (start mode).Sole where
  valid p hp := by
    rw [List.mem_singleton.mp hp]
    exact .start mode false
  once _ := Nat.zero_le 1
  known _ _ := rfl

theorem Sole.at (hd : d.Sole) (hi : d.processes[i]? = some p) : p.Valid :=
  hd.valid p (List.mem_of_getElem? hi)

theorem Sole.mem_set (hd : d.Sole) (hvalid : p'.Valid) : ∀ x ∈ d.processes.set i p', x.Valid := by
  intro x hx
  rcases List.mem_or_eq_of_mem_set hx with hx | rfl
  · exact hd.valid x hx
  · exact hvalid

/-- Processes that claim no more than those before them. -/
theorem Sole.of_le {ps : List Process} (hd : d.Sole) (hvalid : ∀ p ∈ ps, p.Valid)
    (hheld : ∀ c, Holders.held Process.held ps c ≤ Holders.held Process.held d.processes c) :
    Sole { d with processes := ps } where
  valid := hvalid
  once c := Nat.le_trans (hheld c) (hd.once c)
  known c hc := Nat.le_zero.mp (Nat.le_trans (hheld c) (Nat.le_of_eq (hd.known c hc)))

/-- One process takes its step, and claims nothing that it has not claimed. -/
theorem Sole.update (hd : d.Sole) (hi : d.processes[i]? = some p) (hvalid : p'.Valid)
    (hle : ∀ c, p'.held.count c ≤ p.held.count c) :
    Sole { d with processes := d.processes.set i p' } := by
  refine hd.of_le (hd.mem_set hvalid) ?_
  intro c
  have hset := Holders.held_set (f := Process.held) (x := p') (b := c) hi
  have hle := hle c
  omega

/-- One process claims the next connection. -/
theorem Sole.accepts (hd : d.Sole) (hi : d.processes[i]? = some p) (hvalid : p'.Valid)
    (hle : ∀ c, p'.held.count c ≤ p.held.count c + [(d.accepted : Int)].count c) :
    Sole ⟨d.processes.set i p', d.accepted + 1⟩ := by
  have hheld : ∀ c, Holders.held Process.held (d.processes.set i p') c
      ≤ Holders.held Process.held d.processes c + [(d.accepted : Int)].count c := by
    intro c
    have hset := Holders.held_set (f := Process.held) (x := p') (b := c) hi
    have hle := hle c
    omega
  refine ⟨hd.mem_set hvalid, fun c => Nat.le_trans (hheld c) ?_, fun c hc => ?_⟩
  · by_cases hc : c = d.accepted
    · have hone : [(d.accepted : Int)].count c = 1 := by
        rw [hc]
        exact List.count_singleton_self
      have hfresh := hd.known c (by omega)
      omega
    · rw [List.count_eq_zero_of_not_mem (fun hmem => hc (List.mem_singleton.mp hmem))]
      exact hd.once c
  · have hc : (d.accepted : Int) + 1 ≤ c := by exact_mod_cast hc
    have hle := hheld c
    rw [hd.known c (by omega), List.count_eq_zero_of_not_mem
      (fun hmem => by have := List.mem_singleton.mp hmem; omega)] at hle
    exact Nat.le_zero.mp hle

/-- A process without a session joins. -/
theorem Sole.push (hd : d.Sole) (mode : ShedMode) :
    Sole { d with processes := d.processes ++ [.start mode true] } where
  valid x hx := by
    rcases List.mem_append.mp hx with hx | hx
    · exact hd.valid x hx
    · rw [List.mem_singleton.mp hx]
      exact .start mode true
  once c := by
    rw [Holders.held_append]
    exact hd.once c
  known c hc := by
    rw [Holders.held_append]
    exact hd.known c hc

theorem Sole.advance {e : ServerEvent} (hd : d.Sole) (hi : d.processes[i]? = some p)
    (hadvance : p.advance e [] = some p') (hspawned : e.spawned = 0)
    (hresumes : e.resumes = true → p.handedOver = false)
    (hinternal : ∀ h, p.handoff = some h → h.parent.active = true →
      e ≠ .upgradeFails ∧ ∀ sent result, e ≠ .upgraded sent result) :
    Sole { d with processes := d.processes.set i p' } :=
  hd.update hi ((hd.at hi).advance hadvance hspawned.symm hinternal)
    (fun _ => Process.held_advance (hd.at hi) hadvance hspawned.symm hresumes)

theorem Sole.runs {e : ServerEvent} (hd : d.Sole) (hi : d.processes[i]? = some p)
    (hrun : d.runs i p e = some d') : d'.Sole := by
  unfold Deployment.runs at hrun
  split at hrun
  · obtain ⟨p', hadvance, rfl⟩ := Option.map_eq_some_iff.mp hrun
    refine hd.accepts hi ((hd.at hi).advance hadvance rfl ?_) ?_
    · intro _ _ _
      exact ⟨(fun he => by cases he), fun _ _ he => by cases he⟩
    · exact fun _ => Process.held_advance (hd.at hi) hadvance rfl (fun he => by cases he)
  · split at hrun
    · next hnone =>
        obtain ⟨p', hadvance, rfl⟩ := Option.map_eq_some_iff.mp hrun
        have hnone := Option.isNone_iff_eq_none.mp hnone
        refine hd.advance hi hadvance rfl ?_ ?_
        · intro _
          rw [Process.handedOver, hnone]
        · intro h hh
          cases hnone.symm.trans hh
    · cases hrun
  · next haccepts hfails =>
      split at hrun
      · next hinternal =>
          obtain ⟨p', hadvance, rfl⟩ := Option.map_eq_some_iff.mp hrun
          refine hd.advance hi hadvance ?_ ?_ ?_
          · cases e with
            | accepts => exact absurd rfl haccepts
            | received result => cases hinternal
            | _ => rfl
          · intro hresumes
            cases e with
            | upgradeFails => exact absurd rfl hfails
            | upgraded sent result => cases hinternal
            | _ => cases hresumes
          · intro _ _ _
            refine ⟨fun he => hfails he, ?_⟩
            rintro sent result rfl
            cases hinternal
      · cases hrun

theorem Sole.spawn {batch : FreezeBatch} (hd : d.Sole) (hi : d.processes[i]? = some p)
    (hspawn : d.spawn i p batch = some d') : d'.Sole := by
  unfold Deployment.spawn at hspawn
  split at hspawn
  · next hphase =>
      obtain ⟨p', hadvance, rfl⟩ := Option.map_eq_some_iff.mp hspawn
      refine (hd.advance hi hadvance rfl (fun he => by cases he) ?_).push p.gen.mode
      intro h hh hactive
      obtain ⟨hlive, -⟩ := Process.advance_eq_some.mp hadvance
      obtain ⟨frozen, hhanding, -⟩ :=
        (hd.at hi).handing h hh (Process.alive_of_live hlive) hactive
      cases hhanding.symm.trans hphase
  · next frozen hphase =>
      split at hspawn
      · next hguard =>
          obtain ⟨-, hnone, hfds⟩ := hguard
          cases hspawn
          have hnone := Option.isNone_iff_eq_none.mp hnone
          have hvalid := hd.at hi
          have hlinked : Sole
              { d with processes := d.processes.set i { p with handoff := some (.start batch) } } := by
            refine hd.update hi ⟨hvalid.lifecycle, hvalid.conns, ?_, ?_⟩ ?_
            · intro h hh
              cases hh
              exact .start batch
            · intro h hh _ _
              cases hh
              exact ⟨frozen, hphase, hfds⟩
            · intro c
              simp only [Process.held, Process.clients, Process.handedOver, Process.inTransit, hnone]
              exact Nat.le_refl _
          exact hlinked.push p.gen.mode
      · cases hspawn
  · cases hspawn

theorem Sole.hand {e : HandoffEvent} (hd : d.Sole) (hi : d.processes[i]? = some p)
    (hh : p.handoff = some h) (hhand : d.hand json i p q h e = some d') : d'.Sole := by
  unfold Deployment.hand at hhand
  split at hhand
  · next hattends =>
      obtain ⟨h', hstep, rfl⟩ := Option.map_eq_some_iff.mp hhand
      have hstep := handoffStep_of_step hstep
      exact hd.update hi ((hd.at hi).hands hh hstep)
        (fun _ => Process.held_hands (hd.at hi) hh hstep hattends)
  · cases hhand

theorem Sole.handed (hd : d.Sole) (hi : d.processes[i]? = some p) (hh : p.handoff = some h)
    (hhanded : d.handed i p h = some d') : d'.Sole := by
  unfold Deployment.handed at hhanded
  split at hhanded
  · next result hparent =>
      obtain ⟨p', hadvance, rfl⟩ := Option.map_eq_some_iff.mp hhanded
      refine hd.advance hi hadvance rfl ?_ ?_
      · intro hresumes
        cases result with
        | ok u => cases hresumes
        | error err =>
            simp only [Process.handedOver, hh, hparent]
            rfl
      · intro x hx hactive
        cases hx.symm.trans hh
        rw [hparent] at hactive
        cases hactive
  · cases hhanded

/-- The claims of the hand-off go over to the tasks that adopt its sessions. -/
theorem Sole.received (hd : d.Sole) (hi : d.processes[i]? = some p)
    (hq : d.processes[i + 1]? = some q) (hh : p.handoff = some h)
    (hreceived : d.received i p q h = some d') : d'.Sole := by
  unfold Deployment.received at hreceived
  split at hreceived
  · next result hchild =>
      split at hreceived
      · cases hreceived
      · next hopen =>
          obtain ⟨q', hadvance, rfl⟩ := Option.map_eq_some_iff.mp hreceived
          have hnew : (h.adopted.map Prod.snd).length = (ServerEvent.received result).spawned := by
            rw [Handoff.adopted, hchild, List.length_map]
            cases result <;> rfl
          have hnext : (d.processes.set i { p with collected := true })[i + 1]? = some q := by
            rw [List.getElem?_set_ne (Nat.ne_of_lt (Nat.lt_succ_self i))]
            exact hq
          refine hd.of_le ?_ ?_
          · have hp := hd.at hi
            have hcollected : ({ p with collected := true } : Process).Valid :=
              ⟨hp.lifecycle, hp.conns, hp.sound, hp.handing⟩
            intro x hx
            rcases List.mem_or_eq_of_mem_set hx with hx | rfl
            · exact hd.mem_set hcollected x hx
            · refine (hd.at hq).advance hadvance hnew ?_
              intro _ _ _
              exact ⟨(fun he => by cases he), fun _ _ he => by cases he⟩
          · intro c
            have hgives := Process.held_collect (c := c) (hd.at hi) hh hopen
            have htakes := Process.held_advance (c := c) (hd.at hq) hadvance hnew
              (fun he => by cases he)
            have hfirst := Holders.held_set (f := Process.held) (x := { p with collected := true })
              (b := c) hi
            have hsecond := Holders.held_set (f := Process.held) (x := q') (b := c) hnext
            omega
  · cases hreceived

theorem Sole.step {e : DeploymentEvent} (hd : d.Sole) (hs : d.step json e = some d') :
    d'.Sole := by
  cases e with
  | runs i e =>
      simp only [Deployment.step] at hs
      split at hs
      · next p hi => exact hd.runs hi hs
      · cases hs
  | spawns batch =>
      simp only [Deployment.step] at hs
      split at hs
      · next p hlast =>
          rw [List.getLast?_eq_getElem?] at hlast
          exact hd.spawn hlast hs
      · cases hs
  | hands i e =>
      simp only [Deployment.step] at hs
      split at hs
      · next p q hi hq =>
          obtain ⟨h, hh, hs⟩ := Option.bind_eq_some_iff.mp hs
          exact hd.hand hi hh hs
      · cases hs
  | handed i =>
      simp only [Deployment.step] at hs
      split at hs
      · next p hi =>
          obtain ⟨h, hh, hs⟩ := Option.bind_eq_some_iff.mp hs
          exact hd.handed hi hh hs
      · cases hs
  | received i =>
      simp only [Deployment.step] at hs
      split at hs
      · next p q hi hq =>
          obtain ⟨h, hh, hs⟩ := Option.bind_eq_some_iff.mp hs
          exact hd.received hi hq hh hs
      · cases hs
  | crashes i =>
      simp only [Deployment.step] at hs
      split at hs
      · next p hi =>
          cases hs
          have hp := hd.at hi
          refine hd.update hi ⟨hp.lifecycle, hp.conns, hp.sound, fun _ _ halive => by cases halive⟩ ?_
          intro c
          show (([] : List Int) ++ p.inTransit).count c ≤ p.held.count c
          rw [Process.held, List.count_append, List.count_append]
          exact Nat.add_le_add_right (Nat.zero_le _) _
      · cases hs

end Deployment

/-- In every state of a deployment, whatever its processes and hand-offs have done and in
whatever order they have crashed, no client is served by two session tasks. -/
theorem one_task_per_client {json : Json} {mode : ShedMode} {es : List DeploymentEvent}
    {d : Deployment} {out : List Unit}
    (hrun : (deploymentMachine json).run (.start mode) es = some (d, out)) :
    (d.processes.flatMap Process.serving).Nodup := by
  have hsole : d.Sole := by
    refine Machine.run_induction ?_ (Deployment.Sole.start mode) hrun
    intro d e d' out hd hs
    obtain ⟨d₁, hstep, hd₁⟩ := Option.map_eq_some_iff.mp hs
    obtain ⟨rfl, -⟩ := Prod.mk.inj hd₁
    exact hd.step hstep
  refine (List.Sublist.flatMap_right d.processes (fun p _ => ?_)).nodup hsole.once.nodup
  refine List.Sublist.trans ?_ (List.sublist_append_left _ _)
  rw [Process.serving]
  split
  · rw [Process.clients, Generation.claimants, List.map_map]
    refine List.Sublist.map _ (List.monotone_filter_right _ ?_)
    intro t ht
    rw [of_decide_eq_true ht]
    rfl
  · exact .slnil

namespace ReferenceCodec

def firstFrozen : List FrozenSession := [session.freeze 0, { session with id := 1 }.freeze 1]

theorem firstFrozen_ids : (firstFrozen.map FrozenSession.id).Nodup := by
  decide

theorem firstFrozen_fds : (firstFrozen.map FrozenSession.clientFd).Nodup := by
  decide

/-- The first two clients, frozen. -/
def firstTwo : FreezeBatch :=
  ⟨firstFrozen, firstFrozen.map FrozenSession.id, rfl, firstFrozen_ids, firstFrozen_fds⟩

/-- They are handed over, and the successor serves them before `send_sessions` has returned. -/
def shedsTwo : List DeploymentEvent :=
  [.runs 0 .accepts, .runs 0 .accepts, .runs 0 .sigUpgrade, .runs 0 (.asks 0), .runs 0 .replies,
    .runs 0 .collects, .runs 0 (.asks 1), .runs 0 .replies, .runs 0 .collects,
    .runs 0 .allFrozen, .spawns firstTwo, .runs 1 .accepts]
    ++ handsOverAll.map (.hands 0) ++ [.received 0, .crashes 0]

end ReferenceCodec

open ReferenceCodec in
theorem one_task_per_client_shed : ∃ d out,
    (deploymentMachine snapshotJson).run (.start .migrate) shedsTwo = some (d, out) ∧
      d.processes.map Process.serving = [[], [2, 0, 1]] ∧
      (d.processes.flatMap Process.serving).Nodup := by
  have hserving : ((deploymentMachine snapshotJson).run (.start .migrate) shedsTwo).map
      (fun r => r.1.processes.map Process.serving) = some [[], [2, 0, 1]] := by
    decide +kernel
  obtain ⟨⟨d, out⟩, hrun, hclients⟩ := Option.map_eq_some_iff.mp hserving
  exact ⟨d, out, hrun, hclients, one_task_per_client hrun⟩

end TrafficDirector
