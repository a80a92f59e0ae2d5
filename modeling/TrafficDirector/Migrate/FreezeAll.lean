/-
# `TrafficDirector.Migrate.FreezeAll` — the channels between `freeze_all` and the sessions

`Migrate.Freeze` lets a reply come, or be given up, in one step.  Here every operation on
a channel is a step of its own; `Migrate.Projection` relates the two.

`freeze_all` makes two one-shot channels for each session and sends their other ends
through the session's control channel, which holds one request.  It then polls the reply
channel for a limited time, drops the receiver of the reply, and after that the sender of
the resume channel.  The session takes the request up, replies, and looks at the resume
channel, in three steps.

The requests of a session are told apart by the call of `freeze_all` that made them.
-/
import TrafficDirector.Lib.Oneshot
import TrafficDirector.Migrate.Freeze

namespace TrafficDirector.FreezeAll

/-- The two channels of a `FreezeRequest`. -/
structure Request where
  reply : Oneshot FrozenSession
  /-- what it carries is `ResumeAction::Resume` -/
  resume : Oneshot FrozenSession

namespace Request

/-- The session's ends are dropped. -/
def dropped (r : Request) : Request := ⟨r.reply.dropSender, r.resume.dropReceiver⟩

end Request

/-- Where a session is; `call` names the request it has taken up. -/
inductive Task where
  | looping (s : Session)
  /-- in `handle_freeze`, with the snapshot in hand -/
  | freezing (s : Session) (clientFd : Int) (session : FrozenSession) (call : Nat)
  /-- at `req.resume.await` -/
  | waiting (s : Session) (clientFd : Int) (call : Nat)

/-- The request that a session has taken up. -/
def Task.request : Task → Option Nat
  | .looping _ => none
  | .freezing _ _ _ call | .waiting _ _ call => some call

structure Member where
  task : Task
  /-- the request in the control channel -/
  control : Option Nat

/-- Where `freeze_all` is, and after it its caller. -/
inductive Loop where
  | idle
  /-- at the loop's head -/
  | asking (senders : List SessionId)
  /-- in `timeout(FREEZE_REPLY_TIMEOUT, reply_rx)` -/
  | polling (id : SessionId) (senders : List SessionId)
  /-- the last poll has found nothing; the receiver of the reply is still there -/
  | expired (id : SessionId) (senders : List SessionId)
  /-- the sender of the resume channel is still there -/
  | leaving (id : SessionId) (senders : List SessionId)
  | returned
  /-- in `resume_skipping` -/
  | resuming (frozen : List FrozenSession)

namespace Loop

/-- The sessions that have not been asked. -/
def unasked : Loop → List SessionId
  | .asking senders | .polling _ senders | .expired _ senders | .leaving _ senders => senders
  | _ => []

/-- The session in hand. -/
def current : Loop → Option SessionId
  | .polling id _ | .expired id _ | .leaving id _ => some id
  | _ => none

/-- `freeze_all` has been called, and has not returned. -/
def Busy : Loop → Prop
  | .asking _ | .polling _ _ | .expired _ _ | .leaving _ _ => True
  | _ => False

end Loop

structure State where
  /-- the registry -/
  members : OrdMap SessionId Member
  nextId : SessionId
  /-- how often `freeze_all` has been called -/
  calls : Nat
  requests : SessionId × Nat → Request
  loop : Loop
  /-- `FreezeBatch.frozen` -/
  frozen : List FrozenSession
  /-- the keys of `FreezeBatch.resumes`: whose senders are in it -/
  resumes : List SessionId

inductive Action where
  /-- a session is established -/
  | joins (s : Session)
  | session (id : SessionId) (e : Event)
  /-- a session takes up the request in its control channel -/
  | takes (id : SessionId) (clientFd : Int)
  /-- `req.reply.send(frozen)` -/
  | replies (id : SessionId)
  /-- a session finds its resume channel used or closed -/
  | wakes (id : SessionId)
  /-- `freeze_all` is called; the registry yields its sessions in any order -/
  | freezeAll (senders : List SessionId)
  /-- `tx.send(SessionControl::Freeze(request))` completes -/
  | sends
  /-- `reply_rx` yields a snapshot -/
  | collects
  /-- `reply_rx` yields that the sender is dropped -/
  | replyLost
  /-- the time for the reply is over -/
  | expires
  | dropsReply
  | dropsResume
  | returns
  /-- `batch.resume_skipping(sent)`: `resume_all` for 0, `finish` for the batch's length -/
  | resume (sent : Nat)
  /-- one round of its loop -/
  | resumes
  /-- the senders that are left are dropped -/
  | finishes

/-- The steps that `freeze_all` takes by itself. -/
def Action.own : Action → Bool
  | .sends | .collects | .replyLost | .expires | .dropsReply | .dropsResume | .returns => true
  | _ => false

/-- What happens to the control channels. -/
inductive Note where
  | sent (id : SessionId)
  | taken (id : SessionId)
  | ended (id : SessionId)
deriving DecidableEq

namespace State

def start : State := ⟨.empty, 0, 0, fun _ => ⟨.gone, .gone⟩, .idle, [], []⟩

/-- A request's channels are now `r`. -/
def setRequest (F : State) (id : SessionId) (call : Nat) (r : Request) : State :=
  { F with requests := Function.update F.requests (id, call) r }

/-- A session ends, and with it the request in its control channel. -/
def leave (F : State) (id : SessionId) (control : Option Nat) : State :=
  { F with
    members := F.members.erase id
    requests :=
      match control with
      | none => F.requests
      | some call => Function.update F.requests (id, call) (F.requests (id, call)).dropped }

def settle (F : State) (id : SessionId) (control : Option Nat) : Outcome → State × List Note
  | .running s => ({ F with members := F.members.insert id ⟨.looping s, control⟩ }, [])
  | .ended _ => (F.leave id control, [.ended id])

/-- The senders that are left in the batch are dropped. -/
def dropResumes (F : State) : SessionId × Nat → Request := fun key =>
  if key.2 = F.calls ∧ key.1 ∈ F.resumes then
    { F.requests key with resume := (F.requests key).resume.dropSender }
  else F.requests key

def step (c : Codec) (F : State) : Action → Option (State × List Note)
  | .joins s =>
      if s.id = F.nextId then
        some ({ F with
          members := F.members.insert F.nextId ⟨.looping s, none⟩, nextId := F.nextId + 1 }, [])
      else none
  | .session id e =>
      match F.members.get? id with
      | some ⟨.looping s, control⟩ =>
          if e.freezes then none
          else (forwardLoop c (.running s) e).map (fun r => F.settle id control r.1)
      | _ => none
  | .takes id clientFd =>
      match F.members.get? id with
      | some ⟨.looping s, some call⟩ =>
          some ({ F with
            members :=
              F.members.insert id ⟨.freezing s.emptied clientFd (s.freeze clientFd) call, none⟩ },
            [.taken id])
      | _ => none
  | .replies id =>
      match F.members.get? id with
      | some ⟨.freezing s clientFd session call, control⟩ =>
          match (F.requests (id, call)).reply.send session with
          | (reply, true) =>
              some ({ F with
                members := F.members.insert id ⟨.waiting s clientFd call, control⟩ }.setRequest id
                  call { F.requests (id, call) with reply := reply }, [])
          -- the coordinator gave up: restore
          | (reply, false) =>
              some (State.settle
                (F.setRequest id call ⟨reply, (F.requests (id, call)).resume.dropReceiver⟩) id
                control (freezeSession s clientFd (.resumed session)))
      | _ => none
  | .wakes id =>
      match F.members.get? id with
      | some ⟨.waiting s clientFd call, control⟩ =>
          let F' := F.setRequest id call { F.requests (id, call) with resume := .gone }
          match (F.requests (id, call)).resume with
          | .sent session =>
              some (F'.settle id control (freezeSession s clientFd (.resumed session)))
          | .closed => some (F'.settle id control (freezeSession s clientFd .dropped))
          | _ => none
      | _ => none
  | .freezeAll senders =>
      match F.loop with
      | .idle =>
          if senders.Perm F.members.keys then
            some ({ F with calls := F.calls + 1, loop := .asking senders }, [])
          else none
      | _ => none
  | .sends =>
      match F.loop with
      | .asking (id :: senders) =>
          match F.members.get? id with
          -- the session ended concurrently
          | none => some ({ F with loop := .asking senders }, [])
          | some ⟨task, none⟩ =>
              some ({ F with
                members := F.members.insert id ⟨task, some F.calls⟩
                loop := .polling id senders }.setRequest id F.calls ⟨.pending, .pending⟩, [.sent id])
          | some ⟨_, some _⟩ => none -- the channel is full
      | _ => none
  | .collects =>
      match F.loop with
      | .polling id senders =>
          match (F.requests (id, F.calls)).reply with
          | .sent session =>
              some ({ F with
                frozen := F.frozen ++ [session]
                resumes := F.resumes ++ [id]
                loop := .asking senders }.setRequest id F.calls
                  { F.requests (id, F.calls) with reply := .gone }, [])
          | _ => none
      | _ => none
  | .replyLost =>
      match F.loop with
      | .polling id senders =>
          match (F.requests (id, F.calls)).reply with
          | .closed =>
              some ({ F with loop := .leaving id senders }.setRequest id F.calls
                { F.requests (id, F.calls) with reply := .gone }, [])
          | _ => none
      | _ => none
  | .expires =>
      match F.loop with
      | .polling id senders =>
          match (F.requests (id, F.calls)).reply with
          | .pending => some ({ F with loop := .expired id senders }, [])
          | _ => none
      | _ => none
  | .dropsReply =>
      match F.loop with
      | .expired id senders =>
          some ({ F with loop := .leaving id senders }.setRequest id F.calls
            { F.requests (id, F.calls) with
              reply := (F.requests (id, F.calls)).reply.dropReceiver }, [])
      | _ => none
  | .dropsResume =>
      match F.loop with
      | .leaving id senders =>
          some ({ F with loop := .asking senders }.setRequest id F.calls
            { F.requests (id, F.calls) with
              resume := (F.requests (id, F.calls)).resume.dropSender }, [])
      | _ => none
  | .returns =>
      match F.loop with
      | .asking [] => some ({ F with loop := .returned }, [])
      | _ => none
  | .resume sent =>
      match F.loop with
      | .returned => some ({ F with loop := .resuming (F.frozen.drop sent), frozen := [] }, [])
      | _ => none
  | .resumes =>
      match F.loop with
      | .resuming (session :: frozen) =>
          if session.id ∈ F.resumes then
            some ({ F with
              resumes := F.resumes.erase session.id
              loop := .resuming frozen }.setRequest session.id F.calls
                { F.requests (session.id, F.calls) with
                  resume := ((F.requests (session.id, F.calls)).resume.send session).1 }, [])
          else some ({ F with loop := .resuming frozen }, [])
      | _ => none
  | .finishes =>
      match F.loop with
      | .resuming [] =>
          some ({ F with requests := F.dropResumes, loop := .idle, resumes := [] }, [])
      | _ => none

end State

def machine (c : Codec) : Machine State Action Note := ⟨State.step c⟩

variable {c : Codec} {F F' : State} {a : Action} {o : List Note}

/-! ## What one step can do -/

inductive Step (c : Codec) (F : State) : Action → State → List Note → Prop where
  | joins {s : Session} (named : s.id = F.nextId) :
      Step c F (.joins s)
        { F with
          members := F.members.insert F.nextId ⟨.looping s, none⟩, nextId := F.nextId + 1 } []
  | stepped {id : SessionId} {e : Event} {s s' : Session} {control : Option Nat}
      {out : List Output} (member : F.members.get? id = some ⟨.looping s, control⟩)
      (stays : e.freezes = false)
      (loop : forwardLoop c (.running s) e = some (.running s', out)) :
      Step c F (.session id e)
        { F with members := F.members.insert id ⟨.looping s', control⟩ } []
  | ends {id : SessionId} {e : Event} {s : Session} {control : Option Nat}
      {result : Except IoError Unit} {out : List Output}
      (member : F.members.get? id = some ⟨.looping s, control⟩) (stays : e.freezes = false)
      (loop : forwardLoop c (.running s) e = some (.ended result, out)) :
      Step c F (.session id e) (F.leave id control) [.ended id]
  | takes {id : SessionId} {clientFd : Int} {s : Session} {call : Nat}
      (member : F.members.get? id = some ⟨.looping s, some call⟩) :
      Step c F (.takes id clientFd)
        { F with
          members :=
            F.members.insert id ⟨.freezing s.emptied clientFd (s.freeze clientFd) call, none⟩ }
        [.taken id]
  | replies {id : SessionId} {s : Session} {clientFd : Int} {session : FrozenSession} {call : Nat}
      {control : Option Nat}
      (member : F.members.get? id = some ⟨.freezing s clientFd session call, control⟩)
      (reply : (F.requests (id, call)).reply = .pending) :
      Step c F (.replies id)
        ({ F with members := F.members.insert id ⟨.waiting s clientFd call, control⟩ }.setRequest
          id call { F.requests (id, call) with reply := .sent session }) []
  | restores {id : SessionId} {s s' : Session} {clientFd : Int} {session : FrozenSession}
      {call : Nat} {control : Option Nat}
      (member : F.members.get? id = some ⟨.freezing s clientFd session call, control⟩)
      (reply : (F.requests (id, call)).reply ≠ .pending)
      (back : freezeSession s clientFd (.resumed session) = .running s') :
      Step c F (.replies id)
        ({ F with members := F.members.insert id ⟨.looping s', control⟩ }.setRequest id call
          ⟨((F.requests (id, call)).reply.send session).1,
            (F.requests (id, call)).resume.dropReceiver⟩) []
  | wakes {id : SessionId} {s s' : Session} {clientFd : Int} {session : FrozenSession}
      {call : Nat} {control : Option Nat}
      (member : F.members.get? id = some ⟨.waiting s clientFd call, control⟩)
      (resume : (F.requests (id, call)).resume = .sent session)
      (back : freezeSession s clientFd (.resumed session) = .running s') :
      Step c F (.wakes id)
        ({ F with members := F.members.insert id ⟨.looping s', control⟩ }.setRequest id call
          { F.requests (id, call) with resume := .gone }) []
  | exits {id : SessionId} {s : Session} {clientFd : Int} {call : Nat} {control : Option Nat}
      (member : F.members.get? id = some ⟨.waiting s clientFd call, control⟩)
      (resume : (F.requests (id, call)).resume = .closed) :
      Step c F (.wakes id)
        ((F.setRequest id call { F.requests (id, call) with resume := .gone }).leave id control)
        [.ended id]
  | freezes {senders : List SessionId} (idle : F.loop = .idle)
      (all : senders.Perm F.members.keys) :
      Step c F (.freezeAll senders) { F with calls := F.calls + 1, loop := .asking senders } []
  | gone {id : SessionId} {senders : List SessionId} (loop : F.loop = .asking (id :: senders))
      (member : F.members.get? id = none) :
      Step c F .sends { F with loop := .asking senders } []
  | sends {id : SessionId} {senders : List SessionId} {task : Task}
      (loop : F.loop = .asking (id :: senders)) (member : F.members.get? id = some ⟨task, none⟩) :
      Step c F .sends
        ({ F with
          members := F.members.insert id ⟨task, some F.calls⟩
          loop := .polling id senders }.setRequest id F.calls ⟨.pending, .pending⟩) [.sent id]
  | collects {id : SessionId} {senders : List SessionId} {session : FrozenSession}
      (loop : F.loop = .polling id senders)
      (reply : (F.requests (id, F.calls)).reply = .sent session) :
      Step c F .collects
        ({ F with
          frozen := F.frozen ++ [session]
          resumes := F.resumes ++ [id]
          loop := .asking senders }.setRequest id F.calls
            { F.requests (id, F.calls) with reply := .gone }) []
  | replyLost {id : SessionId} {senders : List SessionId} (loop : F.loop = .polling id senders)
      (reply : (F.requests (id, F.calls)).reply = .closed) :
      Step c F .replyLost
        ({ F with loop := .leaving id senders }.setRequest id F.calls
          { F.requests (id, F.calls) with reply := .gone }) []
  | expires {id : SessionId} {senders : List SessionId} (loop : F.loop = .polling id senders)
      (reply : (F.requests (id, F.calls)).reply = .pending) :
      Step c F .expires { F with loop := .expired id senders } []
  | dropsReply {id : SessionId} {senders : List SessionId} (loop : F.loop = .expired id senders) :
      Step c F .dropsReply
        ({ F with loop := .leaving id senders }.setRequest id F.calls
          { F.requests (id, F.calls) with
            reply := (F.requests (id, F.calls)).reply.dropReceiver }) []
  | dropsResume {id : SessionId} {senders : List SessionId} (loop : F.loop = .leaving id senders) :
      Step c F .dropsResume
        ({ F with loop := .asking senders }.setRequest id F.calls
          { F.requests (id, F.calls) with
            resume := (F.requests (id, F.calls)).resume.dropSender }) []
  | returns (loop : F.loop = .asking []) : Step c F .returns { F with loop := .returned } []
  | resume {sent : Nat} (loop : F.loop = .returned) :
      Step c F (.resume sent)
        { F with loop := .resuming (F.frozen.drop sent), frozen := [] } []
  | resumes {session : FrozenSession} {frozen : List FrozenSession}
      (loop : F.loop = .resuming (session :: frozen)) (resumes : session.id ∈ F.resumes) :
      Step c F .resumes
        ({ F with
          resumes := F.resumes.erase session.id
          loop := .resuming frozen }.setRequest session.id F.calls
            { F.requests (session.id, F.calls) with
              resume := ((F.requests (session.id, F.calls)).resume.send session).1 }) []
  | skips {session : FrozenSession} {frozen : List FrozenSession}
      (loop : F.loop = .resuming (session :: frozen)) (resumes : session.id ∉ F.resumes) :
      Step c F .resumes { F with loop := .resuming frozen } []
  | finishes (loop : F.loop = .resuming []) :
      Step c F .finishes { F with requests := F.dropResumes, loop := .idle, resumes := [] } []

theorem freezeSession_running (s : Session) (clientFd : Int) (session : FrozenSession) :
    ∃ s', freezeSession s clientFd (.resumed session) = .running s' := ⟨_, rfl⟩

theorem step_of_step (h : F.step c a = some (F', o)) : Step c F a F' o := by
  cases a with
  | joins s =>
      simp only [State.step] at h
      split at h
      · next named =>
          cases h
          exact .joins named
      · cases h
  | session id e =>
      simp only [State.step] at h
      split at h
      · next s control member =>
          split at h
          · cases h
          · next stays =>
              obtain ⟨⟨outcome, out⟩, loop, hsettle⟩ := Option.map_eq_some_iff.mp h
              cases outcome with
              | running s' =>
                  cases hsettle
                  exact .stepped member (eq_false_of_ne_true stays) loop
              | ended result =>
                  cases hsettle
                  exact .ends member (eq_false_of_ne_true stays) loop
      · cases h
  | takes id clientFd =>
      simp only [State.step] at h
      split at h
      · next member =>
          cases h
          exact .takes member
      · cases h
  | replies id =>
      simp only [State.step] at h
      split at h
      · next s clientFd session call control member =>
          split at h
          · next reply hsend =>
              obtain ⟨hreply, rfl⟩ := Oneshot.send_eq_true hsend
              cases h
              exact .replies member hreply
          · next reply hsend =>
              obtain ⟨s', back⟩ := freezeSession_running s clientFd session
              rw [back] at h
              cases h
              have hne : (F.requests (id, call)).reply ≠ .pending := by
                intro hpending
                rw [hpending] at hsend
                cases hsend
              obtain rfl : ((F.requests (id, call)).reply.send session).1 = reply :=
                congrArg Prod.fst hsend
              exact .restores member hne back
      · cases h
  | wakes id =>
      simp only [State.step] at h
      split at h
      · next s clientFd call control member =>
          split at h
          · next session resume =>
              obtain ⟨s', back⟩ := freezeSession_running s clientFd session
              rw [back] at h
              cases h
              exact .wakes member resume back
          · next resume =>
              cases h
              exact .exits member resume
          · cases h
      · cases h
  | freezeAll senders =>
      simp only [State.step] at h
      split at h
      · next idle =>
          split at h
          · next all =>
              cases h
              exact .freezes idle all
          · cases h
      · cases h
  | sends =>
      simp only [State.step] at h
      split at h
      · next loop =>
          split at h
          · next member =>
              cases h
              exact .gone loop member
          · next member =>
              cases h
              exact .sends loop member
          · cases h
      · cases h
  | collects =>
      simp only [State.step] at h
      split at h
      · next loop =>
          split at h
          · next reply =>
              cases h
              exact .collects loop reply
          · cases h
      · cases h
  | replyLost =>
      simp only [State.step] at h
      split at h
      · next loop =>
          split at h
          · next reply =>
              cases h
              exact .replyLost loop reply
          · cases h
      · cases h
  | expires =>
      simp only [State.step] at h
      split at h
      · next loop =>
          split at h
          · next reply =>
              cases h
              exact .expires loop reply
          · cases h
      · cases h
  | dropsReply =>
      simp only [State.step] at h
      split at h
      · next loop =>
          cases h
          exact .dropsReply loop
      · cases h
  | dropsResume =>
      simp only [State.step] at h
      split at h
      · next loop =>
          cases h
          exact .dropsResume loop
      · cases h
  | returns =>
      simp only [State.step] at h
      split at h
      · next loop =>
          cases h
          exact .returns loop
      · cases h
  | resume sent =>
      simp only [State.step] at h
      split at h
      · next loop =>
          cases h
          exact .resume loop
      · cases h
  | resumes =>
      simp only [State.step] at h
      split at h
      · next loop =>
          split at h
          · next resumes =>
              cases h
              exact .resumes loop resumes
          · next resumes =>
              cases h
              exact .skips loop resumes
      · cases h
  | finishes =>
      simp only [State.step] at h
      split at h
      · next loop =>
          cases h
          exact .finishes loop
      · cases h

/-- Ids are given out once. -/
theorem named_step (hnamed : ∀ i m, F.members.get? i = some m → i < F.nextId)
    (h : Step c F a F' o) : ∀ i m, F'.members.get? i = some m → i < F'.nextId := by
  have hinsert : ∀ {id : SessionId} {m : Member} (m' : Member), F.members.get? id = some m →
      ∀ i m'', (F.members.insert id m').get? i = some m'' → i < F.nextId := by
    intro id m m' hm i m'' hi
    rw [OrdMap.get?_insert] at hi
    split at hi
    · next heq => exact heq ▸ hnamed id m hm
    · exact hnamed i m'' hi
  have herase : ∀ (id : SessionId) i m, (F.members.erase id).get? i = some m → i < F.nextId := by
    intro id i m hi
    rw [OrdMap.get?_erase] at hi
    split at hi
    · cases hi
    · exact hnamed i m hi
  cases h with
  | joins named =>
      intro i m hi
      rw [OrdMap.get?_insert] at hi
      split at hi
      · next heq => exact heq ▸ Nat.lt_succ_self _
      · exact Nat.lt_succ_of_lt (hnamed i m hi)
  | stepped member | takes member | replies member | restores member | wakes member =>
      exact hinsert _ member
  | sends loop member => exact hinsert _ member
  | ends | exits => exact herase _
  | _ => exact hnamed

end TrafficDirector.FreezeAll
