/-
# `TrafficDirector.Migrate.Freeze` — freezing all sessions, and rolling back

`freeze_all` asks one session after another.  The request lies in the session's
control channel until the session takes it up, at a packet boundary; the session then
pours its read buffers into a snapshot, replies with it, and waits on its resume channel.
The coordinator waits for each reply for a limited time only.  All of this is interleaved
with the sessions' own steps, new sessions and ends.  `Migrate.FreezeAll` has the channels
themselves, and `Migrate.Projection` relates the two.

A session that gets its snapshot back is what it was before the freeze
(`freezeSession_resumed`).  `rollback_restores`: the snapshot that each session of a
batch gets back is its own, whatever the order and wherever the batch is split.
-/
import TrafficDirector.Session.Transition
import TrafficDirector.ReferenceCodec

namespace TrafficDirector

open Framing (Reader)

/-- Whether the coordinator still has the receiver of the reply channel. -/
inductive FreezeRequest where
  | awaited
  | abandoned
deriving DecidableEq

/-- A frozen session's end of its resume channel. -/
inductive ResumeChannel where
  | empty
  | sent (session : FrozenSession)
  /-- the sender is dropped -/
  | closed

/-- A registered session, with what lies in its control channel. -/
inductive Member where
  | running (s : Session) (control : Option FreezeRequest)
  /-- in `handle_freeze`; what was in the read buffers is in the snapshot -/
  | held (s : Session) (clientFd : Int) (resume : ResumeChannel) (control : Option FreezeRequest)

namespace Member

def session : Member → Session
  | .running s _ | .held s _ _ _ => s

def control : Member → Option FreezeRequest
  | .running _ control | .held _ _ _ control => control

def setControl (control : Option FreezeRequest) : Member → Member
  | .running s _ => .running s control
  | .held s clientFd resume _ => .held s clientFd resume control

/-- The receiver of the reply is dropped before there is one. -/
def abandon (m : Member) : Member := m.setControl (m.control.map (fun _ => .abandoned))

/-- `tx.send(ResumeAction::Resume(session))` -/
def resume (session : FrozenSession) : Member → Member
  | .held s clientFd .empty control => .held s clientFd (.sent session) control
  | m => m

/-- The resume channel's sender is dropped. -/
def drop : Member → Member
  | .held s clientFd .empty control => .held s clientFd .closed control
  | m => m

variable (m : Member) (control : Option FreezeRequest) (f : FrozenSession)

@[simp] theorem session_setControl : (m.setControl control).session = m.session := by
  cases m <;> rfl

@[simp] theorem control_setControl : (m.setControl control).control = control := by
  cases m <;> rfl

@[simp] theorem session_resume : (m.resume f).session = m.session := by
  unfold resume
  split <;> rfl

@[simp] theorem control_resume : (m.resume f).control = m.control := by
  unfold resume
  split <;> rfl

@[simp] theorem session_drop : m.drop.session = m.session := by
  unfold drop
  split <;> rfl

@[simp] theorem control_drop : m.drop.control = m.control := by
  unfold drop
  split <;> rfl

theorem abandon_ne_awaited : m.abandon.control ≠ some .awaited := by
  rw [abandon, control_setControl]
  cases m.control with
  | none => exact fun h => nomatch h
  | some _ => exact fun h => nomatch h

variable {m} {s : Session} {clientFd : Int} {f} {control}

theorem setControl_eq_sent {control' : Option FreezeRequest}
    (h : m.setControl control' = .held s clientFd (.sent f) control) :
    ∃ control, m = .held s clientFd (.sent f) control := by
  cases m with
  | running => exact nomatch h
  | held s' fd resume control'' =>
      obtain ⟨rfl, rfl, rfl, -⟩ := Member.held.inj h
      exact ⟨control'', rfl⟩

theorem drop_eq_sent (h : m.drop = .held s clientFd (.sent f) control) :
    m = .held s clientFd (.sent f) control := by
  unfold drop at h
  split at h
  · exact nomatch (Member.held.inj h).2.2.1
  · exact h

end Member

/-- Where `freeze_all` is. -/
inductive Coordinator where
  | idle
  /-- at the loop's head -/
  | asking (senders : List SessionId)
  /-- a request is sent to `id`; the reply channel -/
  | awaiting (id : SessionId) (senders : List SessionId) (reply : Option FrozenSession)
  /-- `freeze_all` has returned its batch -/
  | returned

namespace Coordinator

/-- The sessions that are not in the batch yet. -/
def pending : Coordinator → List SessionId
  | .asking senders => senders
  | .awaiting id senders _ => id :: senders
  | _ => []

def reply : Coordinator → Option FrozenSession
  | .awaiting _ _ reply => reply
  | _ => none

/-- `req.reply.send(frozen)` -/
def receive (session : FrozenSession) : Coordinator → Coordinator
  | .awaiting id senders _ => .awaiting id senders (some session)
  | k => k

end Coordinator

structure Fleet where
  /-- the registry -/
  sessions : OrdMap SessionId Member
  nextId : SessionId
  coordinator : Coordinator
  /-- `FreezeBatch.frozen` -/
  frozen : List FrozenSession
  /-- the keys of `FreezeBatch.resumes` -/
  resumes : List SessionId

inductive FleetEvent where
  /-- a session is established -/
  | joins (s : Session)
  | session (id : SessionId) (e : Event)
  /-- `freeze_all` is called; the registry yields its sessions in any order -/
  | freezeAll (senders : List SessionId)
  | asks
  /-- a session takes its freeze request up -/
  | takesUp (id : SessionId) (clientFd : Int)
  | collects
  /-- the time for the reply is over -/
  | givesUp
  /-- the session has ended without a reply -/
  | replyLost
  | returns
  /-- `batch.resume_skipping(sent)` -/
  | resume (sent : Nat)
  /-- a frozen session finds its resume channel used or closed -/
  | wakes (id : SessionId)

/-- Freezes are events of the fleet. -/
def Event.freezes : Event → Bool
  | .freeze _ _ | .migrate _ _ => true
  | _ => false

/-- The session with its read buffers poured out. -/
def Session.emptied (s : Session) : Session :=
  { s with
    client := ⟨s.client.held, []⟩
    broker := s.broker.map (fun b => ⟨b.held, []⟩) }

namespace Fleet

def start : Fleet := ⟨.empty, 0, .idle, [], []⟩

/-- What a step makes of a session; one that ends is unregistered. -/
def settle (F : Fleet) (id : SessionId) (control : Option FreezeRequest) : Outcome → Fleet
  | .running s => { F with sessions := F.sessions.insert id (.running s control) }
  | .ended _ => { F with sessions := F.sessions.erase id }

/-- `resume_skipping`: the sessions from `sent` on are sent their snapshots, and the
other channels are dropped. -/
def resumeSkipping (F : Fleet) (sent : Nat) : OrdMap SessionId Member :=
  F.resumes.foldl (fun sessions id => sessions.adjust id Member.drop)
    ((resumeEach F.resumes (F.frozen.drop sent)).foldl
      (fun sessions f => sessions.adjust f.id (Member.resume f)) F.sessions)

def step (c : Codec) (F : Fleet) : FleetEvent → Option Fleet
  | .joins s =>
      if s.id = F.nextId then
        some { F with
          sessions := F.sessions.insert F.nextId (.running s none), nextId := F.nextId + 1 }
      else none
  | .session id e =>
      match F.sessions.get? id with
      | some (.running s control) =>
          if e.freezes then none
          else (forwardLoop c (.running s) e).map (fun r => F.settle id control r.1)
      | _ => none
  | .freezeAll senders =>
      match F.coordinator with
      | .idle =>
          if senders.Perm F.sessions.keys then some { F with coordinator := .asking senders }
          else none
      | _ => none
  | .asks =>
      match F.coordinator with
      | .asking (id :: senders) =>
          match F.sessions.get? id with
          | none => some { F with coordinator := .asking senders }
          | some m =>
              match m.control with
              | none => some { F with
                  sessions := F.sessions.insert id (m.setControl (some .awaited))
                  coordinator := .awaiting id senders none }
              | some _ => none -- the channel is full
      | _ => none
  | .takesUp id clientFd =>
      match F.sessions.get? id with
      | some (.running s (some .awaited)) =>
          some { F with
            sessions := F.sessions.insert id (.held s.emptied clientFd .empty none)
            coordinator := F.coordinator.receive (s.freeze clientFd) }
      | some (.running s (some .abandoned)) =>
          some (F.settle id none (freezeSession s clientFd .gaveUp))
      | _ => none
  | .collects =>
      match F.coordinator with
      | .awaiting id senders (some session) =>
          some { F with
            frozen := F.frozen ++ [session]
            resumes := F.resumes ++ [id]
            coordinator := .asking senders }
      | _ => none
  | .givesUp =>
      match F.coordinator with
      | .awaiting id senders none =>
          some { F with
            sessions := F.sessions.adjust id Member.abandon, coordinator := .asking senders }
      -- a reply that comes in at the last moment is lost, and its session with it
      | .awaiting id senders (some _) =>
          some { F with
            sessions := F.sessions.adjust id Member.drop, coordinator := .asking senders }
      | _ => none
  | .replyLost =>
      match F.coordinator with
      | .awaiting id senders none =>
          if F.sessions.contains id then none else some { F with coordinator := .asking senders }
      | _ => none
  | .returns =>
      match F.coordinator with
      | .asking [] => some { F with coordinator := .returned }
      | _ => none
  | .resume sent =>
      match F.coordinator with
      | .returned =>
          some { F with
            sessions := F.resumeSkipping sent, coordinator := .idle, frozen := [], resumes := [] }
      | _ => none
  | .wakes id =>
      match F.sessions.get? id with
      | some (.held s clientFd (.sent session) control) =>
          some (F.settle id control (freezeSession s clientFd (.resumed session)))
      | some (.held s clientFd .closed control) =>
          some (F.settle id control (freezeSession s clientFd .dropped))
      | _ => none

end Fleet

def fleetMachine (c : Codec) : Machine Fleet FleetEvent Unit :=
  ⟨fun F e => (F.step c e).map (fun F' => (F', []))⟩

/-- The sessions as they were when they last took up a freeze request. -/
abbrev Remembered := SessionId → Option Session

def Fleet.remember (F : Fleet) (before : Remembered) : FleetEvent → Remembered
  | .takesUp id _ => Function.update before id ((F.sessions.get? id).map Member.session)
  | _ => before

/-- The fleet beside what it was before each freeze. -/
def rememberingMachine (c : Codec) : Machine (Fleet × Remembered) FleetEvent Unit :=
  (fleetMachine c).record (fun F before e _ => F.remember before e)

variable {c : Codec} {F F' : Fleet} {before : Remembered} {e : FleetEvent} {s : Session}

/-! ## One session -/

theorem freezeSession_gaveUp (s : Session) (clientFd : Int) :
    freezeSession s clientFd .gaveUp = .running s := by
  obtain ⟨_, _, _, broker, _⟩ := s
  cases broker <;> rfl

/-- A frozen session that gets its own snapshot back is what it was. -/
theorem freezeSession_resumed (s : Session) (fd clientFd : Int) :
    freezeSession s.emptied fd (.resumed (s.freeze clientFd)) = .running s := by
  obtain ⟨_, _, _, broker, _⟩ := s
  cases broker <;> rfl

theorem clientPacket_id {p : MqttPacket} {pong forward : Sent} {s' : Session} {out : List Output}
    (h : clientPacket c s p pong forward = (.running s', out)) : s'.id = s.id := by
  unfold clientPacket at h
  split at h
  · exact nomatch (Prod.mk.inj h).1
  · cases forward with
    | ok => rw [← (running_inj h).1]
    | failed e => rw [← (running_inj h).1]

theorem brokerPacket_id {p : MqttPacket} {after : Reader UInt8} {forward : Sent} {s' : Session}
    {out : List Output} (h : brokerPacket c s p after forward = (.running s', out)) :
    s'.id = s.id := by
  unfold brokerPacket at h
  split at h
  · split at h
    · rw [← (running_inj h).1]
      rfl
    · split at h
      · exact nomatch (Prod.mk.inj h).1
      · exact nomatch (Prod.mk.inj h).1
  · rw [← (running_inj h).1]
  · rw [← (running_inj h).1]
  · cases forward with
    | ok => rw [← (running_inj h).1]
    | failed e => exact nomatch (Prod.mk.inj h).1

theorem commonStep_id {e : Event} {s' : Session} {out : List Output} (hstay : e.freezes = false)
    (h : commonStep c s e = some (.running s', out)) : s'.id = s.id := by
  unfold commonStep at h
  split at h
  case h_1 => rw [← (running_inj (Option.some.inj h)).1]
  case h_4 => exact nomatch hstay
  case h_5 => exact nomatch hstay
  case h_6 =>
    split at h
    · exact nomatch (Prod.mk.inj (Option.some.inj h)).1
    · exact nomatch h
  case h_7 => exact nomatch h
  all_goals exact nomatch (Prod.mk.inj (Option.some.inj h)).1

/-- The id is the session's for as long as it is not handed over. -/
theorem forwardLoop_id {e : Event} {s' : Session} {out : List Output} (hstay : e.freezes = false)
    (h : forwardLoop c (.running s) e = some (.running s', out)) : s'.id = s.id := by
  rw [forwardLoop] at h
  split at h
  · unfold connectedStep at h
    split at h
    · have hid := clientPacket_id (Option.some.inj h)
      exact hid
    · rw [← (running_inj (Option.some.inj h)).1]
    · exact brokerPacket_id (Option.some.inj h)
    · rw [← (running_inj (Option.some.inj h)).1]
      rfl
    · rw [← (running_inj (Option.some.inj h)).1]
      rfl
    · exact commonStep_id hstay h
  · unfold outageStep at h
    split at h
    · have h := Option.some.inj h
      unfold outagePacket at h
      split at h
      · cases (Prod.mk.inj h).1
      · rw [← (running_inj h).1]
    · split at h
      · next a _ =>
          rcases connectBroker_cases c s a with ⟨_, _, _, hc⟩ | ⟨_, _, _, _, hc⟩
          · rw [← (running_inj (hc.symm.trans (Option.some.inj h))).1]
            rfl
          · cases (Prod.mk.inj (hc.symm.trans (Option.some.inj h))).1
      · rw [← (running_inj (Option.some.inj h)).1]
      · rw [← (running_inj (Option.some.inj h)).1]
      · cases h
    · exact commonStep_id hstay h

/-! ## What one step can do -/

inductive FleetStep (c : Codec) (F : Fleet) : FleetEvent → Fleet → Prop where
  | joins {s : Session} (named : s.id = F.nextId) :
      FleetStep c F (.joins s)
        { F with
          sessions := F.sessions.insert F.nextId (.running s none), nextId := F.nextId + 1 }
  | stepped {id : SessionId} {e : Event} {s : Session} {control : Option FreezeRequest}
      {o : Outcome} {out : List Output} (member : F.sessions.get? id = some (.running s control))
      (stays : e.freezes = false) (loop : forwardLoop c (.running s) e = some (o, out)) :
      FleetStep c F (.session id e) (F.settle id control o)
  | freezes {senders : List SessionId} (idle : F.coordinator = .idle)
      (all : senders.Perm F.sessions.keys) :
      FleetStep c F (.freezeAll senders) { F with coordinator := .asking senders }
  | gone {id : SessionId} {senders : List SessionId}
      (asking : F.coordinator = .asking (id :: senders)) (member : F.sessions.get? id = none) :
      FleetStep c F .asks { F with coordinator := .asking senders }
  | asked {id : SessionId} {senders : List SessionId} {m : Member}
      (asking : F.coordinator = .asking (id :: senders)) (member : F.sessions.get? id = some m)
      (free : m.control = none) :
      FleetStep c F .asks
        { F with
          sessions := F.sessions.insert id (m.setControl (some .awaited))
          coordinator := .awaiting id senders none }
  | replies {id : SessionId} {clientFd : Int} {s : Session}
      (member : F.sessions.get? id = some (.running s (some .awaited))) :
      FleetStep c F (.takesUp id clientFd)
        { F with
          sessions := F.sessions.insert id (.held s.emptied clientFd .empty none)
          coordinator := F.coordinator.receive (s.freeze clientFd) }
  | tooLate {id : SessionId} {clientFd : Int} {s : Session}
      (member : F.sessions.get? id = some (.running s (some .abandoned))) :
      FleetStep c F (.takesUp id clientFd) (F.settle id none (.running s))
  | collects {id : SessionId} {senders : List SessionId} {session : FrozenSession}
      (awaiting : F.coordinator = .awaiting id senders (some session)) :
      FleetStep c F .collects
        { F with
          frozen := F.frozen ++ [session], resumes := F.resumes ++ [id]
          coordinator := .asking senders }
  | givesUp {id : SessionId} {senders : List SessionId}
      (awaiting : F.coordinator = .awaiting id senders none) :
      FleetStep c F .givesUp
        { F with sessions := F.sessions.adjust id Member.abandon, coordinator := .asking senders }
  | losesReply {id : SessionId} {senders : List SessionId} {session : FrozenSession}
      (awaiting : F.coordinator = .awaiting id senders (some session)) :
      FleetStep c F .givesUp
        { F with sessions := F.sessions.adjust id Member.drop, coordinator := .asking senders }
  | replyLost {id : SessionId} {senders : List SessionId}
      (awaiting : F.coordinator = .awaiting id senders none)
      (gone : F.sessions.contains id = false) :
      FleetStep c F .replyLost { F with coordinator := .asking senders }
  | returns (asking : F.coordinator = .asking []) :
      FleetStep c F .returns { F with coordinator := .returned }
  | resumes {sent : Nat} (returned : F.coordinator = .returned) :
      FleetStep c F (.resume sent)
        { F with
          sessions := F.resumeSkipping sent, coordinator := .idle, frozen := [], resumes := [] }
  | wakes {id : SessionId} {s : Session} {clientFd : Int} {session : FrozenSession}
      {control : Option FreezeRequest}
      (member : F.sessions.get? id = some (.held s clientFd (.sent session) control)) :
      FleetStep c F (.wakes id) (F.settle id control (freezeSession s clientFd (.resumed session)))
  | exits {id : SessionId} {s : Session} {clientFd : Int} {control : Option FreezeRequest}
      (member : F.sessions.get? id = some (.held s clientFd .closed control)) :
      FleetStep c F (.wakes id) (F.settle id control (.ended (.ok ())))

theorem fleetStep_of_step (h : F.step c e = some F') : FleetStep c F e F' := by
  cases e with
  | joins s =>
      simp only [Fleet.step] at h
      split at h
      · next named => exact Option.some.inj h ▸ .joins named
      · exact nomatch h
  | session id e =>
      simp only [Fleet.step] at h
      split at h
      · next s control member =>
          split at h
          · exact nomatch h
          · next stays =>
              obtain ⟨⟨o, out⟩, loop, rfl⟩ := Option.map_eq_some_iff.mp h
              exact .stepped member (eq_false_of_ne_true stays) loop
      · exact nomatch h
  | freezeAll senders =>
      simp only [Fleet.step] at h
      split at h
      · next idle =>
          split at h
          · next all => exact Option.some.inj h ▸ .freezes idle all
          · exact nomatch h
      · exact nomatch h
  | asks =>
      simp only [Fleet.step] at h
      split at h
      · next id senders asking =>
          split at h
          · next member => exact Option.some.inj h ▸ .gone asking member
          · next m member =>
              split at h
              · next free => exact Option.some.inj h ▸ .asked asking member free
              · exact nomatch h
      · exact nomatch h
  | takesUp id clientFd =>
      simp only [Fleet.step] at h
      split at h
      · next s member => exact Option.some.inj h ▸ .replies member
      · next s member =>
          rw [freezeSession_gaveUp] at h
          exact Option.some.inj h ▸ .tooLate member
      · exact nomatch h
  | collects =>
      simp only [Fleet.step] at h
      split at h
      · next awaiting => exact Option.some.inj h ▸ .collects awaiting
      · exact nomatch h
  | givesUp =>
      simp only [Fleet.step] at h
      split at h
      · next awaiting => exact Option.some.inj h ▸ .givesUp awaiting
      · next awaiting => exact Option.some.inj h ▸ .losesReply awaiting
      · exact nomatch h
  | replyLost =>
      simp only [Fleet.step] at h
      split at h
      · next awaiting =>
          split at h
          · exact nomatch h
          · next gone => exact Option.some.inj h ▸ .replyLost awaiting (eq_false_of_ne_true gone)
      · exact nomatch h
  | returns =>
      simp only [Fleet.step] at h
      split at h
      · next asking => exact Option.some.inj h ▸ .returns asking
      · exact nomatch h
  | resume sent =>
      simp only [Fleet.step] at h
      split at h
      · next returned => exact Option.some.inj h ▸ .resumes returned
      · exact nomatch h
  | wakes id =>
      simp only [Fleet.step] at h
      split at h
      · next member => exact Option.some.inj h ▸ .wakes member
      · next member => exact Option.some.inj h ▸ .exits member
      · exact nomatch h

/-! ## What the batch holds -/

/-- The session of `f` waits for its resume channel, and `f` is its own snapshot. -/
def Awaits (sessions : OrdMap SessionId Member) (before : Remembered) (f : FrozenSession) : Prop :=
  ∃ s control, before f.id = some s ∧ f = s.freeze f.clientFd ∧
    sessions.get? f.id = some (.held s.emptied f.clientFd .empty control)

/-- What a fleet is at any moment. -/
structure Fleet.Sound (F : Fleet) (before : Remembered) : Prop where
  named : ∀ i m, F.sessions.get? i = some m → m.session.id = i ∧ i < F.nextId
  awaited : ∀ i m, F.sessions.get? i = some m → m.control = some .awaited →
    ∃ senders, F.coordinator = .awaiting i senders none
  frozen : ∀ f ∈ F.frozen ++ F.coordinator.reply.toList, Awaits F.sessions before f
  replied : ∀ i senders f, F.coordinator = .awaiting i senders (some f) → f.id = i
  sent : ∀ i s clientFd f control,
    F.sessions.get? i = some (.held s clientFd (.sent f) control) →
      ∃ s₀, before i = some s₀ ∧ s = s₀.emptied ∧ f = s₀.freeze clientFd
  resumes : F.resumes = F.frozen.map FrozenSession.id
  once : (F.resumes ++ F.coordinator.pending).Nodup
  idle : F.coordinator = .idle → F.frozen = []

theorem Awaits.of_get? {sessions sessions' : OrdMap SessionId Member} {before' : Remembered}
    {f : FrozenSession} (h : Awaits sessions before f)
    (hget : sessions'.get? f.id = sessions.get? f.id) (hbefore : before' f.id = before f.id) :
    Awaits sessions' before' f := by
  obtain ⟨s, control, hs, hf, hm⟩ := h
  exact ⟨s, control, hbefore.trans hs, hf, hget.trans hm⟩

/-- One session is changed that does not wait. -/
theorem Awaits.insert {sessions : OrdMap SessionId Member} {before' : Remembered}
    {f : FrozenSession} {i : SessionId} {m : Member} (h : Awaits sessions before f)
    (hne : f.id ≠ i) (hbefore : ∀ j ≠ i, before' j = before j) :
    Awaits (sessions.insert i m) before' f := by
  refine h.of_get? ?_ (hbefore f.id hne)
  rw [OrdMap.get?_insert, if_neg hne]

theorem Awaits.adjust {sessions : OrdMap SessionId Member} {f : FrozenSession} {i : SessionId}
    {g : Member → Member} (h : Awaits sessions before f) (hne : f.id ≠ i) :
    Awaits (sessions.adjust i g) before f := by
  refine h.of_get? ?_ rfl
  rw [OrdMap.get?_adjust, if_neg hne]

theorem Awaits.erase {sessions : OrdMap SessionId Member} {before' : Remembered}
    {f : FrozenSession} {i : SessionId} (h : Awaits sessions before f) (hne : f.id ≠ i)
    (hbefore : ∀ j ≠ i, before' j = before j) : Awaits (sessions.erase i) before' f := by
  refine h.of_get? ?_ (hbefore f.id hne)
  rw [OrdMap.get?_erase, if_neg hne]

/-- A session that runs, or has something in its resume channel, does not wait. -/
theorem Awaits.ne {sessions : OrdMap SessionId Member} {f : FrozenSession} {i : SessionId}
    {m : Member} (h : Awaits sessions before f) (hm : sessions.get? i = some m)
    (hnot : ∀ s clientFd control, m ≠ .held s clientFd .empty control) : f.id ≠ i := by
  rintro rfl
  obtain ⟨s, control, -, -, hget⟩ := h
  exact hnot _ _ _ (Option.some.inj (hm.symm.trans hget))

namespace Fleet.Sound

theorem start : Fleet.start.Sound (fun _ => none) where
  named _ _ h := nomatch h
  awaited _ _ h := nomatch h
  frozen _ h := nomatch h
  replied _ _ _ h := nomatch h
  sent _ _ _ _ _ h := nomatch h
  resumes := rfl
  once := List.nodup_nil
  idle _ := rfl

/-- A session that does not wait for its resume channel goes its way. -/
theorem settle (h : F.Sound before) {before' : Remembered} {id : SessionId} {m : Member}
    {control : Option FreezeRequest} {o : Outcome} (hm : F.sessions.get? id = some m)
    (hnot : ∀ s clientFd control, m ≠ .held s clientFd .empty control)
    (hid : ∀ s, o = .running s → s.id = id)
    (hcontrol : control = some .awaited → m.control = some .awaited)
    (hbefore : ∀ i ≠ id, before' i = before i) : (F.settle id control o).Sound before' := by
  cases o with
  | running s =>
      refine { h with named := ?_, awaited := ?_, frozen := ?_, sent := ?_ }
      · intro i m' hget
        rw [Fleet.settle, OrdMap.get?_insert] at hget
        split at hget
        · next hi =>
            rw [← Option.some.inj hget, hi]
            exact ⟨hid s rfl, (h.named id m hm).2⟩
        · exact h.named i m' hget
      · intro i m' hget hawaited
        rw [Fleet.settle, OrdMap.get?_insert] at hget
        split at hget
        · next hi =>
            rw [← Option.some.inj hget] at hawaited
            exact hi ▸ h.awaited id m hm (hcontrol hawaited)
        · exact h.awaited i m' hget hawaited
      · intro f hf
        have hf := h.frozen f hf
        exact hf.insert (hf.ne hm hnot) hbefore
      · intro i s' clientFd f control' hget
        rw [Fleet.settle, OrdMap.get?_insert] at hget
        split at hget
        · cases hget
        · next hi =>
            rw [hbefore i hi]
            exact h.sent i s' clientFd f control' hget
  | ended r =>
      have hother : ∀ i m', (F.sessions.erase id).get? i = some m' →
          i ≠ id ∧ F.sessions.get? i = some m' := by
        intro i m' hget
        rw [OrdMap.get?_erase] at hget
        split at hget
        · cases hget
        · next hi => exact ⟨hi, hget⟩
      refine { h with named := ?_, awaited := ?_, frozen := ?_, sent := ?_ }
      · intro i m' hget
        exact h.named i m' (hother i m' hget).2
      · intro i m' hget
        exact h.awaited i m' (hother i m' hget).2
      · intro f hf
        have hf := h.frozen f hf
        exact hf.erase (hf.ne hm hnot) hbefore
      · intro i s' clientFd f control' hget
        obtain ⟨hi, hget⟩ := hother i _ hget
        rw [hbefore i hi]
        exact h.sent i s' clientFd f control' hget

/-- The session that is being asked is not in the batch. -/
theorem not_frozen (h : F.Sound before) {id : SessionId} (hid : id ∈ F.coordinator.pending) :
    ∀ f ∈ F.frozen, f.id ≠ id := by
  rintro f hf rfl
  have hmem : f.id ∈ F.resumes := h.resumes ▸ List.mem_map_of_mem hf
  exact (List.nodup_append.mp h.once).2.2 f.id hmem f.id hid rfl

theorem joins (h : F.Sound before) {s : Session} (hs : s.id = F.nextId) :
    Fleet.Sound { F with
      sessions := F.sessions.insert F.nextId (.running s none)
      nextId := F.nextId + 1 } before := by
  refine { h with named := ?_, awaited := ?_, frozen := ?_, sent := ?_ }
  · intro i m hget
    rw [OrdMap.get?_insert] at hget
    split at hget
    · next hi =>
        rw [← Option.some.inj hget, hi]
        exact ⟨hs, Nat.lt_succ_self _⟩
    · obtain ⟨hid, hlt⟩ := h.named i m hget
      exact ⟨hid, Nat.lt_succ_of_lt hlt⟩
  · intro i m hget hawaited
    rw [OrdMap.get?_insert] at hget
    split at hget
    · rw [← Option.some.inj hget] at hawaited
      cases hawaited
    · exact h.awaited i m hget hawaited
  · intro f hf
    have hawaits := h.frozen f hf
    obtain ⟨_, _, -, -, hget⟩ := h.frozen f hf
    exact hawaits.insert (Nat.ne_of_lt (h.named _ _ hget).2) (fun _ _ => rfl)
  · intro i s' clientFd f control hget
    rw [OrdMap.get?_insert] at hget
    split at hget
    · cases hget
    · exact h.sent i s' clientFd f control hget

/-- The next session is asked. -/
theorem asked (h : F.Sound before) {id : SessionId} {senders : List SessionId} {m : Member}
    (hk : F.coordinator = .asking (id :: senders)) (hm : F.sessions.get? id = some m) :
    Fleet.Sound { F with
      sessions := F.sessions.insert id (m.setControl (some .awaited))
      coordinator := .awaiting id senders none } before := by
  have hpending : id ∈ F.coordinator.pending := by
    rw [hk]
    exact List.mem_cons_self
  have hfrozen := h.not_frozen hpending
  refine { named := ?_, awaited := ?_, frozen := ?_, replied := fun _ _ _ h => (by cases h),
           sent := ?_, resumes := h.resumes, once := ?_, idle := fun h => by cases h }
  · intro i m' hget
    rw [OrdMap.get?_insert] at hget
    split at hget
    · next hi =>
        rw [← Option.some.inj hget, hi, Member.session_setControl]
        exact h.named id m hm
    · exact h.named i m' hget
  · intro i m' hget hawaited
    rw [OrdMap.get?_insert] at hget
    split at hget
    · next hi => exact ⟨senders, by rw [hi]⟩
    · obtain ⟨_, hawaiting⟩ := h.awaited i m' hget hawaited
      cases hk.symm.trans hawaiting
  · intro f hf
    have hf : f ∈ F.frozen := by simpa [Coordinator.reply] using hf
    exact (h.frozen f (List.mem_append_left _ hf)).insert (hfrozen f hf) (fun _ _ => rfl)
  · intro i s clientFd f control hget
    rw [OrdMap.get?_insert] at hget
    split at hget
    · next hi =>
        obtain ⟨control', rfl⟩ := Member.setControl_eq_sent (Option.some.inj hget)
        exact hi ▸ h.sent id s clientFd f control' hm
    · exact h.sent i s clientFd f control hget
  · have honce := h.once
    rw [hk] at honce
    exact honce

/-- A session replies in time. -/
theorem replies (h : F.Sound before) {id : SessionId} {clientFd : Int} {s : Session}
    (hm : F.sessions.get? id = some (.running s (some .awaited))) :
    Fleet.Sound { F with
      sessions := F.sessions.insert id (.held s.emptied clientFd .empty none)
      coordinator := F.coordinator.receive (s.freeze clientFd) }
      (Function.update before id (some s)) := by
  obtain ⟨senders, hk⟩ := h.awaited id _ hm rfl
  obtain ⟨hid, hlt⟩ : s.id = id ∧ id < F.nextId := h.named id _ hm
  have hbefore : ∀ i ≠ id, Function.update before id (some s) i = before i :=
    fun i hi => Function.update_of_ne hi _ _
  rw [hk, Coordinator.receive]
  refine { named := ?_, awaited := ?_, frozen := ?_, replied := ?_, sent := ?_,
           resumes := h.resumes, once := ?_, idle := fun h => by cases h }
  · intro i m hget
    rw [OrdMap.get?_insert] at hget
    split at hget
    · next hi =>
        rw [← Option.some.inj hget, hi]
        exact ⟨hid, hlt⟩
    · exact h.named i m hget
  · intro i m hget hawaited
    rw [OrdMap.get?_insert] at hget
    split at hget
    · rw [← Option.some.inj hget] at hawaited
      cases hawaited
    · next hi =>
        obtain ⟨_, hawaiting⟩ := h.awaited i m hget hawaited
        obtain ⟨rfl, -⟩ := Coordinator.awaiting.inj (hk.symm.trans hawaiting)
        exact absurd rfl hi
  · intro f hf
    rcases List.mem_append.mp hf with hf | hf
    · have hf := h.frozen f (List.mem_append_left _ hf)
      exact hf.insert (hf.ne hm (fun _ _ _ h => by cases h)) hbefore
    · obtain rfl : f = s.freeze clientFd := List.mem_singleton.mp hf
      refine ⟨s, none, ?_, rfl, ?_⟩
      · rw [show (s.freeze clientFd).id = id from hid, Function.update_self]
      · rw [show (s.freeze clientFd).id = id from hid, OrdMap.get?_insert, if_pos rfl]
        rfl
  · intro i senders' f hreply
    obtain ⟨rfl, -, hf⟩ := Coordinator.awaiting.inj hreply
    rw [← Option.some.inj hf]
    exact hid
  · intro i s' clientFd' f control hget
    rw [OrdMap.get?_insert] at hget
    split at hget
    · cases (Member.held.inj (Option.some.inj hget)).2.2.1
    · next hi =>
        rw [hbefore i hi]
        exact h.sent i s' clientFd' f control hget
  · have honce := h.once
    rw [hk] at honce
    exact honce

/-- The time is over for the session that is being asked. -/
theorem passesOver (h : F.Sound before) {id : SessionId} {senders : List SessionId}
    {reply : Option FrozenSession} {g : Member → Member}
    (hk : F.coordinator = .awaiting id senders reply)
    (hsession : ∀ m, (g m).session = m.session)
    (hcontrol : ∀ m, F.sessions.get? id = some m → (g m).control ≠ some .awaited)
    (hsent : ∀ m s clientFd f control, g m = .held s clientFd (.sent f) control →
      ∃ control, m = .held s clientFd (.sent f) control) :
    Fleet.Sound { F with
      sessions := F.sessions.adjust id g, coordinator := .asking senders } before := by
  have hpending : id ∈ F.coordinator.pending := by
    rw [hk]
    exact List.mem_cons_self
  have hfrozen := h.not_frozen hpending
  refine { named := ?_, awaited := ?_, frozen := ?_, replied := fun _ _ _ h => (nomatch h),
           sent := ?_, resumes := h.resumes, once := ?_, idle := fun h => nomatch h }
  · intro i m hget
    rw [OrdMap.get?_adjust] at hget
    split at hget
    · next hi =>
        obtain ⟨m', hm', rfl⟩ := Option.map_eq_some_iff.mp hget
        rw [hsession]
        exact h.named i m' (hi ▸ hm')
    · exact h.named i m hget
  · intro i m hget hawaited
    rw [OrdMap.get?_adjust] at hget
    split at hget
    · next hi =>
        obtain ⟨m', hm', rfl⟩ := Option.map_eq_some_iff.mp hget
        exact absurd hawaited (hcontrol m' (hi ▸ hm'))
    · next hi =>
        obtain ⟨_, hawaiting⟩ := h.awaited i m hget hawaited
        exact absurd (Coordinator.awaiting.inj (hk.symm.trans hawaiting)).1.symm hi
  · intro f hf
    have hf : f ∈ F.frozen := by simpa [Coordinator.reply] using hf
    exact (h.frozen f (List.mem_append_left _ hf)).adjust (hfrozen f hf)
  · intro i s clientFd f control hget
    rw [OrdMap.get?_adjust] at hget
    split at hget
    · next hi =>
        obtain ⟨m', hm', hg⟩ := Option.map_eq_some_iff.mp hget
        obtain ⟨control', rfl⟩ := hsent m' s clientFd f control hg
        exact hi ▸ h.sent id s clientFd f control' (hi ▸ hm')
    · exact h.sent i s clientFd f control hget
  · have honce := h.once
    rw [hk] at honce
    exact honce.sublist ((List.Sublist.refl _).append (List.sublist_cons_self _ _))

/-- The coordinator goes on by itself. -/
theorem coordinates (h : F.Sound before) {k : Coordinator} {frozen : List FrozenSession}
    {resumes : List SessionId}
    (hwaits : ∀ i senders, F.coordinator = .awaiting i senders none →
      ∀ m, F.sessions.get? i = some m → m.control ≠ some .awaited)
    (hreply : k.reply = none) (hfrozen : ∀ f ∈ frozen, f ∈ F.frozen ++ F.coordinator.reply.toList)
    (hresumes : resumes = frozen.map FrozenSession.id) (honce : (resumes ++ k.pending).Nodup)
    (hidle : k = .idle → frozen = []) :
    Fleet.Sound { F with coordinator := k, frozen := frozen, resumes := resumes } before := by
  refine { h with awaited := ?_, frozen := ?_, replied := ?_, resumes := hresumes,
                  once := honce, idle := hidle }
  · intro i m hget hawaited
    obtain ⟨senders, hk⟩ := h.awaited i m hget hawaited
    exact absurd hawaited (hwaits i senders hk m hget)
  · intro f hf
    have hf : f ∈ frozen := by simpa [hreply] using hf
    exact h.frozen f (hfrozen f hf)
  · intro i senders f hk
    exact nomatch hreply.symm.trans (congrArg Coordinator.reply hk)

end Fleet.Sound

/-! ## Resuming -/

theorem Fleet.Sound.nodup_ids (h : F.Sound before) : (F.frozen.map FrozenSession.id).Nodup :=
  h.resumes ▸ (List.nodup_append.mp h.once).1

/-- Each session of the batch still has its channel. -/
theorem Fleet.Sound.resumeSkipping_eq (h : F.Sound before) (sent : Nat) :
    F.resumeSkipping sent =
      F.resumes.foldl (fun sessions id => sessions.adjust id Member.drop)
        ((F.frozen.drop sent).foldl
          (fun sessions f => sessions.adjust f.id (Member.resume f)) F.sessions) := by
  have hids := h.nodup_ids
  rw [Fleet.resumeSkipping, resumeEach_eq]
  · intro f hf
    exact h.resumes ▸ List.mem_map_of_mem (List.mem_of_mem_drop hf)
  · rw [List.map_drop]
    exact hids.sublist (List.drop_sublist _ _)

/-- The ids of a batch differ, so those of its first part are not met in the rest. -/
theorem id_ne_of_mem_drop {frozen : List FrozenSession} {sent k : Nat} {f : FrozenSession}
    (hids : (frozen.map FrozenSession.id).Nodup) (hf : frozen[k]? = some f) (hk : k < sent) :
    ∀ f' ∈ frozen.drop sent, f'.id ≠ f.id := by
  intro f' hf' he
  obtain ⟨j, hj⟩ := List.mem_iff_getElem?.mp hf'
  rw [List.getElem?_drop] at hj
  have hlt : sent + j < (frozen.map FrozenSession.id).length := by
    rw [List.length_map]
    exact (List.getElem?_eq_some_iff.mp hj).1
  have hjk : sent + j = k := by
    refine (List.getElem?_inj hlt hids).mp ?_
    rw [List.getElem?_map, List.getElem?_map, hj, hf]
    exact congrArg some he
  omega

theorem mem_drop {frozen : List FrozenSession} {sent k : Nat} {f : FrozenSession}
    (hf : frozen[k]? = some f) (hk : sent ≤ k) : f ∈ frozen.drop sent := by
  refine List.mem_iff_getElem?.mpr ⟨k - sent, ?_⟩
  rw [List.getElem?_drop, Nat.add_sub_cancel' hk]
  exact hf

/-- Each session of the batch has its own snapshot in its resume channel, or the
channel closed. -/
theorem Fleet.Sound.get?_resumeSkipping (h : F.Sound before) (sent : Nat) {k : Nat} {f : FrozenSession}
    (hf : F.frozen[k]? = some f) :
    ∃ s control, before f.id = some s ∧ f = s.freeze f.clientFd ∧
      F.sessions.get? f.id = some (.held s.emptied f.clientFd .empty control) ∧
      (F.resumeSkipping sent).get? f.id =
        some (.held s.emptied f.clientFd (if k < sent then .closed else .sent f) control) := by
  have hmem : f ∈ F.frozen := List.mem_of_getElem? hf
  obtain ⟨s, control, hs, hown, hget⟩ := h.frozen f (List.mem_append_left _ hmem)
  refine ⟨s, control, hs, hown, hget, ?_⟩
  have hids := h.nodup_ids
  have hid : f.id ∈ F.resumes := h.resumes ▸ List.mem_map_of_mem hmem
  have hnodup : (F.resumes.map id).Nodup := by
    rw [List.map_id, h.resumes]
    exact hids
  rw [h.resumeSkipping_eq]
  refine (OrdMap.get?_foldl_adjust (f := id) hnodup hid).trans ?_
  split
  · next hk =>
      exact congrArg (Option.map Member.drop)
        ((OrdMap.get?_foldl_adjust_of_notMem (id_ne_of_mem_drop hids hf hk)).trans hget)
  · next hk =>
      have hin : f ∈ F.frozen.drop sent := mem_drop hf (Nat.le_of_not_lt hk)
      have hsub : ((F.frozen.drop sent).map FrozenSession.id).Nodup := by
        rw [List.map_drop]
        exact hids.sublist (List.drop_sublist _ _)
      have hresumed := (OrdMap.get?_foldl_adjust (f := FrozenSession.id) (g := Member.resume)
        (m := F.sessions) hsub hin).trans (congrArg _ hget)
      exact congrArg (Option.map Member.drop) hresumed

theorem Fleet.Sound.get?_resumeSkipping_other (h : F.Sound before) {sent : Nat} {i : SessionId}
    (hi : ∀ f ∈ F.frozen, f.id ≠ i) :
    (F.resumeSkipping sent).get? i = F.sessions.get? i := by
  have hother : ∀ j ∈ F.resumes, id j ≠ i := by
    rw [h.resumes]
    intro j hj
    obtain ⟨f, hf, rfl⟩ := List.mem_map.mp hj
    exact hi f hf
  rw [h.resumeSkipping_eq]
  refine (OrdMap.get?_foldl_adjust_of_notMem (f := id) hother).trans ?_
  refine OrdMap.get?_foldl_adjust_of_notMem (f := FrozenSession.id) ?_
  intro f hf
  exact hi f (List.mem_of_mem_drop hf)

/-- A session before the batch is resumed and after it. -/
inductive Resumption (F : Fleet) (before : Remembered) (i : SessionId) (m : Member) : Prop where
  | frozen {f : FrozenSession} {s : Session} {resume : ResumeChannel}
      {control : Option FreezeRequest} (remembered : before i = some s)
      (own : f = s.freeze f.clientFd)
      (held : F.sessions.get? i = some (.held s.emptied f.clientFd .empty control))
      (channel : resume = .closed ∨ resume = .sent f)
      (after : m = .held s.emptied f.clientFd resume control)
  | other (same : F.sessions.get? i = some m)

theorem Fleet.Sound.resumption (h : F.Sound before) {sent : Nat} {i : SessionId} {m : Member}
    (hm : (F.resumeSkipping sent).get? i = some m) : Resumption F before i m := by
  by_cases hi : ∃ f ∈ F.frozen, f.id = i
  · obtain ⟨f, hf, rfl⟩ := hi
    obtain ⟨k, hk⟩ := List.mem_iff_getElem?.mp hf
    obtain ⟨s, control, hs, hown, hheld, hafter⟩ := h.get?_resumeSkipping sent hk
    refine .frozen hs hown hheld ?_ (Option.some.inj (hm.symm.trans hafter))
    split
    · exact .inl rfl
    · exact .inr rfl
  · refine .other ((h.get?_resumeSkipping_other ?_).symm.trans hm)
    intro f hf he
    exact hi ⟨f, hf, he⟩

/-- The batch is resumed. -/
theorem Fleet.Sound.resumed (h : F.Sound before) {sent : Nat} (hk : F.coordinator = .returned) :
    Fleet.Sound { F with
      sessions := F.resumeSkipping sent, coordinator := .idle, frozen := [], resumes := [] }
      before := by
  refine { named := ?_, awaited := ?_, frozen := fun _ h => (nomatch h),
           replied := fun _ _ _ h => (nomatch h), sent := ?_, resumes := rfl,
           once := List.nodup_nil, idle := fun _ => rfl }
  · intro i m hm
    cases h.resumption hm with
    | frozen _ _ held _ after =>
        have hnamed := h.named i _ held
        rw [after]
        exact hnamed
    | other same => exact h.named i m same
  · intro i m hm hawaited
    have hnot : ¬ ∃ senders, F.coordinator = .awaiting i senders none := by
      rintro ⟨senders, hawaiting⟩
      exact nomatch hk.symm.trans hawaiting
    cases h.resumption hm with
    | frozen _ _ held _ after =>
        subst after
        exact absurd (h.awaited i _ held hawaited) hnot
    | other same => exact absurd (h.awaited i m same hawaited) hnot
  · intro i s clientFd f control hm
    cases h.resumption hm with
    | frozen remembered own held channel after =>
        obtain ⟨rfl, rfl, hsent, -⟩ := Member.held.inj after
        rcases channel with rfl | rfl
        · exact nomatch hsent
        · rw [ResumeChannel.sent.inj hsent]
          exact ⟨_, remembered, rfl, own⟩
    | other same => exact h.sent i s clientFd f control same

/-! ## Any run of the fleet -/

theorem Fleet.Sound.step (h : F.Sound before) (hstep : FleetStep c F e F') :
    F'.Sound (F.remember before e) := by
  have hasking : ∀ {senders}, F.coordinator = .asking senders →
      ∀ i senders', F.coordinator = .awaiting i senders' none →
        ∀ m, F.sessions.get? i = some m → m.control ≠ some .awaited := by
    intro senders hk i senders' hk'
    exact nomatch hk.symm.trans hk'
  cases hstep with
  | joins named => exact h.joins named
  | @stepped id e s control o out member stays loop =>
      refine h.settle member (fun _ _ _ h => nomatch h) ?_ (fun h => h) (fun _ _ => rfl)
      rintro s' rfl
      exact (forwardLoop_id stays loop).trans (h.named id _ member).1
  | @freezes senders idle all =>
      refine h.coordinates ?_ rfl (fun f hf => List.mem_append_left _ hf) h.resumes ?_ ?_
      · intro i senders' hk
        exact nomatch idle.symm.trans hk
      · rw [h.resumes, h.idle idle]
        exact all.nodup_iff.mpr F.sessions.nodup
      · exact fun h => nomatch h
  | @gone id senders asking member =>
      refine h.coordinates (hasking asking) rfl (fun f hf => List.mem_append_left _ hf) h.resumes
        ?_ (fun h => nomatch h)
      have honce := h.once
      rw [asking] at honce
      exact honce.sublist ((List.Sublist.refl _).append (List.sublist_cons_self _ _))
  | asked asking member free => exact h.asked asking member
  | @replies id clientFd s member =>
      rw [Fleet.remember, member]
      exact h.replies member
  | @tooLate id clientFd s member =>
      rw [Fleet.remember, member]
      refine h.settle member (fun _ _ _ h => nomatch h) ?_ (fun h => nomatch h) ?_
      · rintro s' hs'
        rw [← Outcome.running.inj hs']
        exact (h.named id _ member).1
      · exact fun i hi => Function.update_of_ne hi _ _
  | @collects id senders session awaiting =>
      have hid := h.replied id senders session awaiting
      refine h.coordinates ?_ rfl ?_ ?_ ?_ (fun h => nomatch h)
      · intro i senders' hk
        exact nomatch (Coordinator.awaiting.inj (awaiting.symm.trans hk)).2.2
      · intro f hf
        rw [awaiting]
        exact hf
      · rw [List.map_append, h.resumes, List.map_singleton, hid]
      · have honce := h.once
        rw [awaiting] at honce
        rw [List.append_assoc]
        exact honce
  | givesUp awaiting =>
      refine h.passesOver awaiting (fun _ => Member.session_setControl _ _)
        (fun _ _ => Member.abandon_ne_awaited _) ?_
      intro m s clientFd f control hm
      exact Member.setControl_eq_sent hm
  | @losesReply id senders session awaiting =>
      refine h.passesOver awaiting Member.session_drop ?_ ?_
      · intro m hm hcontrol
        rw [Member.control_drop] at hcontrol
        obtain ⟨_, hk⟩ := h.awaited id m hm hcontrol
        exact nomatch (Coordinator.awaiting.inj (awaiting.symm.trans hk)).2.2
      · intro m s clientFd f control hm
        exact ⟨control, Member.drop_eq_sent hm⟩
  | @replyLost id senders awaiting gone =>
      refine h.coordinates ?_ rfl (fun f hf => List.mem_append_left _ hf) h.resumes ?_
        (fun h => nomatch h)
      · intro i senders' hk m hm
        obtain ⟨rfl, -, -⟩ := Coordinator.awaiting.inj (awaiting.symm.trans hk)
        have hmem : F.sessions.contains id = true := by
          exact OrdMap.contains_iff.mpr ⟨m, hm⟩
        exact nomatch gone.symm.trans hmem
      · have honce := h.once
        rw [awaiting] at honce
        exact honce.sublist ((List.Sublist.refl _).append (List.sublist_cons_self _ _))
  | returns asking =>
      refine h.coordinates (hasking asking) rfl (fun f hf => List.mem_append_left _ hf) h.resumes
        ?_ (fun h => nomatch h)
      have honce := h.once
      rw [asking] at honce
      exact honce
  | resumes returned => exact h.resumed returned
  | @wakes id s clientFd session control member =>
      obtain ⟨s₀, -, rfl, rfl⟩ := h.sent _ _ _ _ _ member
      rw [freezeSession_resumed]
      refine h.settle member (fun _ _ _ h => nomatch h) ?_ (fun h => h) (fun _ _ => rfl)
      intro s' hs'
      rw [← Outcome.running.inj hs']
      exact (h.named id _ member).1
  | exits member =>
      exact h.settle member (fun _ _ _ h => nomatch h) (fun _ h => nomatch h) (fun h => h)
        (fun _ _ => rfl)

/-- Every fleet the steps reach is sound. -/
theorem run_sound {es : List FleetEvent} {o : List Unit}
    (hrun : (rememberingMachine c).run (Fleet.start, fun _ => none) es = some ((F, before), o)) :
    F.Sound before := by
  refine Machine.run_induction (I := fun S => S.1.Sound S.2) ?_ Fleet.Sound.start hrun
  intro S e S' o h hs
  obtain ⟨hs, hbefore⟩ := Machine.record_step_eq_some.mp hs
  obtain ⟨F', hF', hpair⟩ := Option.map_eq_some_iff.mp hs
  rw [hbefore, ← (Prod.mk.inj hpair).1]
  exact h.step (fleetStep_of_step hF')

/-- A session with something in its resume channel stays as it is until it wakes. -/
theorem FleetStep.stays (h : FleetStep c F e F') {id : SessionId} {clientFd : Int}
    {resume : ResumeChannel} (hsome : resume ≠ .empty) (hwakes : e ≠ .wakes id)
    (hheld : id < F.nextId ∧ ∃ control, F.sessions.get? id = some (.held s clientFd resume control)) :
    id < F'.nextId ∧ ∃ control, F'.sessions.get? id = some (.held s clientFd resume control) := by
  obtain ⟨hlt, control, hget⟩ := hheld
  have hsettle : ∀ {i control'} {o : Outcome}, id ≠ i → id < (F.settle i control' o).nextId ∧
      ∃ control, (F.settle i control' o).sessions.get? id =
        some (.held s clientFd resume control) := by
    intro i control' o hi
    cases o with
    | running s' =>
        refine ⟨hlt, control, ?_⟩
        rw [Fleet.settle, OrdMap.get?_insert, if_neg hi, hget]
    | ended r =>
        refine ⟨hlt, control, ?_⟩
        rw [Fleet.settle, OrdMap.get?_erase, if_neg hi, hget]
  have hrunning : ∀ {i s' control'}, F.sessions.get? i = some (.running s' control') → id ≠ i := by
    rintro i s' control' hi rfl
    exact nomatch hget.symm.trans hi
  have hdrop : (Member.held s clientFd resume control).drop = .held s clientFd resume control := by
    cases resume with
    | empty => exact absurd rfl hsome
    | sent f => rfl
    | closed => rfl
  have hresume : ∀ f, (Member.held s clientFd resume control).resume f
      = .held s clientFd resume control := by
    intro f
    cases resume with
    | empty => exact absurd rfl hsome
    | sent f => rfl
    | closed => rfl
  have hadjust : ∀ {i : SessionId} {g : Member → Member} {control'},
      g (.held s clientFd resume control) = .held s clientFd resume control' →
        ∃ control, (F.sessions.adjust i g).get? id = some (.held s clientFd resume control) := by
    intro i g control' hg
    rw [OrdMap.get?_adjust, hget]
    split
    · exact ⟨control', congrArg some hg⟩
    · exact ⟨control, rfl⟩
  cases h with
  | joins named =>
      refine ⟨Nat.lt_succ_of_lt hlt, control, ?_⟩
      rw [OrdMap.get?_insert, if_neg (Nat.ne_of_lt hlt), hget]
  | stepped member stays loop => exact hsettle (hrunning member)
  | freezes idle all => exact ⟨hlt, control, hget⟩
  | gone asking member => exact ⟨hlt, control, hget⟩
  | @asked i senders m asking member free =>
      refine ⟨hlt, ?_⟩
      rw [OrdMap.get?_insert]
      split
      · next hi =>
          obtain rfl := Option.some.inj ((hi ▸ hget).symm.trans member)
          exact ⟨_, rfl⟩
      · exact ⟨control, hget⟩
  | replies member =>
      refine ⟨hlt, control, ?_⟩
      rw [OrdMap.get?_insert, if_neg (hrunning member), hget]
  | tooLate member => exact hsettle (hrunning member)
  | collects awaiting => exact ⟨hlt, control, hget⟩
  | givesUp awaiting => exact ⟨hlt, hadjust rfl⟩
  | losesReply awaiting => exact ⟨hlt, hadjust hdrop⟩
  | replyLost awaiting gone => exact ⟨hlt, control, hget⟩
  | returns asking => exact ⟨hlt, control, hget⟩
  | @resumes sent returned =>
      refine ⟨hlt, control, ?_⟩
      rw [Fleet.resumeSkipping]
      refine OrdMap.get?_foldl_adjust_keeps (f := fun i => i) (fun _ => hdrop) ?_
      exact OrdMap.get?_foldl_adjust_keeps (f := FrozenSession.id) hresume hget
  | @wakes i _ _ _ _ member =>
      refine hsettle ?_
      rintro rfl
      exact hwakes rfl
  | @exits i _ _ _ member =>
      refine hsettle ?_
      rintro rfl
      exact hwakes rfl

theorem run_stays {es : List FleetEvent} {o : List Unit} {id : SessionId} {clientFd : Int}
    {resume : ResumeChannel} {control : Option FreezeRequest}
    (hrun : (fleetMachine c).run F es = some (F', o)) (hsome : resume ≠ .empty)
    (hwakes : .wakes id ∉ es) (hlt : id < F.nextId)
    (hget : F.sessions.get? id = some (.held s clientFd resume control)) :
    ∃ control, F'.sessions.get? id = some (.held s clientFd resume control) := by
  have hne : (fleetMachine c).Along (fun _ e => e ≠ .wakes id) F es := by
    refine (Machine.along_forall hrun).mpr ?_
    rintro e he rfl
    exact hwakes he
  have hend := Machine.run_along
    (I := fun F => id < F.nextId ∧
      ∃ control, F.sessions.get? id = some (.held s clientFd resume control))
    ?_ ⟨hlt, control, hget⟩ hne hrun
  · exact hend.2
  · intro F e F' o hheld he hs
    obtain ⟨F'', hF'', hpair⟩ := Option.map_eq_some_iff.mp hs
    rw [← (Prod.mk.inj hpair).1]
    exact (fleetStep_of_step hF'').stays hsome he hheld

/-- What a session of a batch finds when it wakes, `sent` sessions having been handed
over, and what becomes of it. -/
theorem Fleet.wakes_eq {f : FrozenSession} {control : Option FreezeRequest} {handed : Prop}
    [Decidable handed] (hown : f = s.freeze f.clientFd)
    (hget : F.sessions.get? f.id =
      some (.held s.emptied f.clientFd (if handed then .closed else .sent f) control)) :
    ∃ F', F.step c (.wakes f.id) = some F' ∧
      F'.sessions.get? f.id = if handed then none else some (.running s control) := by
  split
  · next h =>
      rw [if_pos h] at hget
      refine ⟨F.settle f.id control (.ended (.ok ())), ?_, ?_⟩
      · simp only [Fleet.step, hget]
        rfl
      · rw [Fleet.settle, OrdMap.get?_erase, if_pos rfl]
  · next h =>
      rw [if_neg h] at hget
      refine ⟨F.settle f.id control (.running s), ?_, ?_⟩
      · simp only [Fleet.step, hget]
        rw [hown, freezeSession_resumed]
      · rw [Fleet.settle, OrdMap.get?_insert, if_pos rfl]

/-- When the batch of a freeze is resumed from its session `sent` on, each of its
sessions has its own snapshot in its resume channel, or the channel closed, and whatever
else the fleet does before the session wakes, it then is what it was before the freeze,
or ends.  A session whose request is given up is what it was, whenever it takes it up. -/
theorem rollback_restores {es : List FleetEvent} {o : List Unit}
    (hrun : (rememberingMachine c).run (Fleet.start, fun _ => none) es = some ((F, before), o)) :
    (∀ sent F₁, F.step c (.resume sent) = some F₁ → ∀ k f, F.frozen[k]? = some f →
      ∃ s, before f.id = some s ∧ f = s.freeze f.clientFd ∧
        ∀ es' F₂ o', (fleetMachine c).run F₁ es' = some (F₂, o') → .wakes f.id ∉ es' →
          ∃ control,
            F₂.sessions.get? f.id = some
              (.held s.emptied f.clientFd (if k < sent then .closed else .sent f) control) ∧
            ∃ F₃, F₂.step c (.wakes f.id) = some F₃ ∧
              F₃.sessions.get? f.id = if k < sent then none else some (.running s control)) ∧
    (∀ id s, F.sessions.get? id = some (.running s (some .awaited)) →
      ∀ F₁, F.step c .givesUp = some F₁ →
        F₁.sessions.get? id = some (.running s (some .abandoned))) ∧
    ∀ id s, F.sessions.get? id = some (.running s (some .abandoned)) →
      ∀ clientFd, ∃ F₁, F.step c (.takesUp id clientFd) = some F₁ ∧
        F₁.sessions.get? id = some (.running s none) := by
  have hsound := run_sound hrun
  refine ⟨?_, ?_, ?_⟩
  · intro sent F₁ hstep k f hf
    obtain ⟨s, control, hs, hown, hheld, hafter⟩ := hsound.get?_resumeSkipping sent hf
    refine ⟨s, hs, hown, ?_⟩
    intro es' F₂ o' hrun' hwakes
    have hlt := (hsound.named _ _ hheld).2
    cases fleetStep_of_step hstep with
    | resumes returned =>
        have hsome : (if k < sent then .closed else .sent f : ResumeChannel) ≠ .empty := by
          split
          · exact fun h => nomatch h
          · exact fun h => nomatch h
        obtain ⟨control', hget⟩ := run_stays hrun' hsome hwakes hlt hafter
        exact ⟨control', hget, Fleet.wakes_eq hown hget⟩
  · intro id s hget F₁ hstep
    obtain ⟨senders, hk⟩ := hsound.awaited id _ hget rfl
    cases fleetStep_of_step hstep with
    | givesUp awaiting =>
        obtain ⟨rfl, -, -⟩ := Coordinator.awaiting.inj (hk.symm.trans awaiting)
        rw [OrdMap.get?_adjust, if_pos rfl, hget]
        rfl
    | losesReply awaiting => exact nomatch (Coordinator.awaiting.inj (hk.symm.trans awaiting)).2.2
  · intro id s hget clientFd
    refine ⟨F.settle id none (.running s), ?_, ?_⟩
    · simp only [Fleet.step, hget, freezeSession_gaveUp]
    · rw [Fleet.settle, OrdMap.get?_insert, if_pos rfl]

namespace ReferenceCodec

/-- A session in the connected phase, half a packet in each read buffer. -/
def connected : Session := { session with client := ⟨[], [0xc0]⟩, broker := some ⟨[], [0x40, 2]⟩ }

/-- A session in an outage. -/
def cutOff : Session :=
  { session with
    id := 1, client := ⟨[], [0x32]⟩, broker := none, brokerLeftover := [0x40, 2, 0, 1]
    subscriptions := ⟨[⟨"t", 1⟩]⟩ }

def freezesBoth : List FleetEvent :=
  [.joins connected, .joins cutOff, .freezeAll [1, 0], .asks, .takesUp 1 6, .collects, .asks,
    .takesUp 0 5, .collects, .returns]

end ReferenceCodec

open ReferenceCodec in
theorem rollback_restores_both : ∃ F F₁ before o,
    (rememberingMachine (codec true)).run (Fleet.start, fun _ => none) freezesBoth
      = some ((F, before), o) ∧
    F.frozen = [cutOff.freeze 6, connected.freeze 5] ∧
    F.step (codec true) (.resume 1) = some F₁ ∧
    (∃ F₂, F₁.step (codec true) (.wakes 1) = some F₂ ∧ F₂.sessions.get? 1 = none) ∧
    ∃ F₂ control, F₁.step (codec true) (.wakes 0) = some F₂ ∧
      F₂.sessions.get? 0 = some (.running connected control) := by
  have hrun : (rememberingMachine (codec true)).run (Fleet.start, fun _ => none) freezesBoth
      = some ((_, _), _) := rfl
  obtain ⟨hresume, -, -⟩ := rollback_restores hrun
  have hresume := hresume 1 _ rfl
  obtain ⟨_, -, -, hcutOff⟩ := hresume 0 (cutOff.freeze 6) rfl
  obtain ⟨_, -, F₂, hwakes, hgone⟩ := hcutOff [] _ _ rfl (List.not_mem_nil)
  obtain ⟨s, hs, -, hconnected⟩ := hresume 1 (connected.freeze 5) rfl
  obtain ⟨control, -, F₃, hwakes', hback⟩ := hconnected [] _ _ rfl (List.not_mem_nil)
  obtain rfl : connected = s := Option.some.inj hs
  exact ⟨_, _, _, _, hrun, rfl, rfl, ⟨F₂, hwakes, hgone⟩, F₃, control, hwakes', hback⟩

end TrafficDirector
