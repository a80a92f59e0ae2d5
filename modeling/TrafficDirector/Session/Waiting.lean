/-
# `TrafficDirector.Session.Waiting` — where a session waits

The loop is one `select`, but a step of it may itself wait: a replay waits for the
CONNACK, and for the SUBACK if it re-subscribes; a frozen session waits to be
resumed; and each write, to the client or to the broker, waits for room in the
socket, for ever if the other side reads nothing more.  Here these waits are states of
their own.  `replay_staged` says that the pieces of a replay make up the one step of
`Forward`, and `stall_leads` that a write that was pending makes no other difference;
`serviced_iff` says in which runs the client and the freeze channel are served in every
state: in those where no replay comes to wait for its broker and no write blocks.
-/
import TrafficDirector.Session.Entry

namespace TrafficDirector

open Framing (Reader)
open Script

inductive WaitEvent where
  /-- a branch of the `select` that does not wait -/
  | loop (e : Event)
  /-- the broker has accepted a TCP connection; what it answers is still open, `a.connack`
  and `a.suback` mean nothing yet -/
  | accepted (a : Attempt)
  | answered (next : Next)
  /-- a freeze request -/
  | freeze (clientFd : Int)
  | thawed (reply : FreezeReply)
  /-- the next generation adopts the frozen session -/
  | adopted (id : SessionId) (now : Nat)
  /-- the step that `e` begins has put out `n` outputs, and its next write blocks; what `e`
  says of this write and of those behind it is still open -/
  | stalls (e : WaitEvent) (n : Nat)
  /-- the write that was pending is over, and the step too, or another write blocks -/
  | resumes (next : Option Nat)

/-- What a session waits for. -/
inductive Waiting where
  /-- one of the branches of the loop's `select` -/
  | select (s : Session)
  /-- `establish_broker`: the answer to the CONNECT -/
  | connack (s : Session) (r : Replay)
  /-- `establish_broker`: the answer to the re-SUBSCRIBE -/
  | suback (s : Session) (r : Replay)
  /-- `handle_freeze`: to be resumed, or dropped -/
  | frozen (s : Session) (clientFd : Int)
  /-- a `send` or `write_all` of the step that `e` has begun at `w`, behind `n` outputs -/
  | writing (w : Waiting) (e : WaitEvent) (n : Nat)
  | ended (result : Except IoError Unit)

def Waiting.ofOutcome : Outcome → Waiting
  | .running s => .select s
  | .ended r => .ended r

/-- The branches with a wait inside. -/
def Event.inner : Event → Bool
  | .freeze _ _ | .migrate _ _ | .wait (some _) => true
  | _ => false

/-! ## A replay in pieces -/

/-- From the leftover on, a replay reads nothing more. -/
def replayRest (c : Codec) (version : ProtocolVersion) : ReplayM Unit := do
  deliverLeftover c version
  retransmitBroker
  retransmitClient
  flushBuffer

/-- The replay `r` goes on: to `k`, or to the end of the session. -/
def proceed (r : Replay) (k : Replay → Waiting) :
    EStateM.Result IoError Replay Unit → Waiting × List Output
  | .ok _ r' => (k r', r'.out.drop r.out.length)
  | .error e r' => (.ended (.error e), r'.out.drop r.out.length)

namespace Session

def startReplay (s : Session) (a : Attempt) : Waiting × List Output :=
  match replayConnect s.hs.connectRaw (s.replay a) with
  | .ok _ r => (.connack s r, .openBroker :: r.out)
  | .error e r => (.ended (.error e), .openBroker :: r.out)

/-- The broker has answered the CONNECT. -/
def afterConnack (c : Codec) (s : Session) (r : Replay) : Waiting × List Output :=
  match s.subscriptions.resubscribePacket s.hs.version with
  | some packet => proceed r (.suback s)
      ((readConnack c >>= fun _ => writeBroker invalidData (.packet packet)) r)
  | none => proceed r (fun r => .select (s.replayed r))
      ((readConnack c >>= fun _ => replayRest c s.hs.version) r)

/-- The broker has answered the re-SUBSCRIBE. -/
def afterSuback (c : Codec) (s : Session) (r : Replay) : Waiting × List Output :=
  proceed r (fun r => .select (s.replayed r))
    ((readSuback >>= fun _ => replayRest c s.hs.version) r)

end Session

/-- The next packet from the broker, as `connack` or `suback`. -/
def Replay.withConnack (r : Replay) (next : Next) : Replay :=
  { r with attempt := { r.attempt with connack := next } }

def Replay.withSuback (r : Replay) (next : Next) : Replay :=
  { r with attempt := { r.attempt with suback := next } }

/-- One more write of each side goes through. -/
def Attempt.indulged (a : Attempt) : Attempt :=
  { a with brokerWrites := a.brokerWrites + 1, clientWrites := a.clientWrites + 1 }

def Replay.indulged (r : Replay) : Replay := { r with attempt := r.attempt.indulged }

def Event.indulged : Event → Event
  | .clientRead now next after _ _ => .clientRead now next after .ok .ok
  | .brokerRead next after _ => .brokerRead next after .ok
  | .keepalive now _ => .keepalive now .ok
  | e => e

def WaitEvent.indulged : WaitEvent → WaitEvent
  | .loop e => .loop e.indulged
  | .accepted a => .accepted a.indulged
  | e => e

def Output.isWrite : Output → Bool
  | .openBroker => false
  | .toBroker _ | .toClient _ => true

namespace Waiting

/-- From one wait to the next, with writes that do not block. -/
def act (c : Codec) : Waiting → WaitEvent → Option (Waiting × List Output)
  | .select s, .loop e =>
      if e.inner then none
      else (forwardLoop c (.running s) e).map (fun r => (ofOutcome r.1, r.2))
  | .select s, .accepted a =>
      if s.broker.isSome ∨ s.step ≠ .connect then none else some (s.startReplay a)
  | .connack s r, .answered next => some (s.afterConnack c (r.withConnack next))
  | .suback s r, .answered next => some (s.afterSuback c (r.withSuback next))
  | .select s, .freeze clientFd => some (.frozen s clientFd, [])
  | .frozen s clientFd, .thawed reply => some (ofOutcome (freezeSession s clientFd reply), [])
  | .frozen s _, .adopted id now => some (ofOutcome (migrateSession c s id now), [])
  | _, _ => none

def indulged : Waiting → Waiting
  | .connack s r => .connack s r.indulged
  | .suback s r => .suback s r.indulged
  | w => w

/-- Behind `n` outputs the step comes to a write, which may be the one that fails. -/
def writesBehind (c : Codec) (w : Waiting) (e : WaitEvent) (n : Nat) : Bool :=
  match act c w e, act c w.indulged e.indulged with
  | some (_, out), some (_, out') => n ≤ out.length && out'[n]?.any Output.isWrite
  | _, _ => false

def step (c : Codec) (w : Waiting) : WaitEvent → Option (Waiting × List Output)
  | .stalls e n =>
      if writesBehind c w e n then (act c w e).map (fun r => (.writing w e n, r.2.take n)) else none
  | .resumes none =>
      match w with
      | .writing w e n => (act c w e).map (fun r => (r.1, r.2.drop n))
      | _ => none
  | .resumes (some m) =>
      match w with
      | .writing w e n =>
          if n < m && writesBehind c w e m then
            (act c w e).map (fun r => (.writing w e m, (r.2.take m).drop n))
          else none
      | _ => none
  | e => act c w e

end Waiting

/-- The session as a machine that stops at every wait. -/
def waitingMachine (c : Codec) : Machine Waiting WaitEvent Output := ⟨Waiting.step c⟩

variable {c : Codec} {s : Session} {a : Attempt} {out : List Output}

theorem replayRest_moves (c : Codec) (v : ProtocolVersion) : Moves Grows (replayRest c v) := by
  refine Moves.bind Grows.trans (OnlyWrites.moves (deliverLeftover_moves c v)) (fun _ => ?_)
  refine Moves.bind Grows.trans (OnlyWrites.moves retransmitBroker_moves) (fun _ => ?_)
  exact Moves.bind Grows.trans (OnlyWrites.moves retransmitClient_moves)
    (fun _ => flushBuffer_moves)

/-- What has been written by a result. -/
def written : EStateM.Result IoError Replay Unit → List Output
  | .ok _ r | .error _ r => r.out

/-- What becomes of the session with the result of a whole replay. -/
def Session.concluded (s : Session) : EStateM.Result IoError Replay Unit → Outcome
  | .ok _ r => .running (s.replayed r)
  | .error e _ => .ended (.error e)

theorem connectBroker_eq_concluded : connectBroker c s a =
    (s.concluded (establishBroker c s.hs s.subscriptions (s.replay a)),
      .openBroker :: written (establishBroker c s.hs s.subscriptions (s.replay a))) := by
  rw [connectBroker]
  cases establishBroker c s.hs s.subscriptions (s.replay a) with
  | ok u r => rfl
  | error e r => rfl

theorem proceed_concluded (r : Replay) (result : EStateM.Result IoError Replay Unit) :
    proceed r (fun r => .select (s.replayed r)) result
      = (.ofOutcome (s.concluded result), (written result).drop r.out.length) := by
  cases result with
  | ok u r' => rfl
  | error e r' => rfl

theorem Moves.written {x : ReplayM Unit} (hx : Moves Grows x) (r : Replay) :
    r.out <+: written (x r) := by
  cases h : x r with
  | ok u r' => exact hx.ok r u r' h
  | error e r' => exact hx.error r e r' h

theorem drop_append_drop {α : Type} {l₁ l₂ l₃ : List α} (h : l₁ <+: l₂) (h' : l₂ <+: l₃) :
    l₂.drop l₁.length ++ l₃.drop l₂.length = l₃.drop l₁.length := by
  obtain ⟨t, rfl⟩ := h
  obtain ⟨t', rfl⟩ := h'
  rw [List.drop_left, List.drop_left, List.append_assoc, List.drop_left]

/-- Some of the events, in order, lead from `w` to the outcome `o`. -/
def Leads (c : Codec) (w : Waiting) (es : List WaitEvent) (o : Outcome) (out : List Output) : Prop :=
  ∃ es', es' <+: es ∧ (waitingMachine c).run w es' = some (.ofOutcome o, out)

theorem Leads.here {w : Waiting} {e : WaitEvent} {es : List WaitEvent} {o : Outcome}
    (h : Waiting.step c w e = some (.ofOutcome o, out)) : Leads c w (e :: es) o out := by
  refine ⟨[e], List.prefix_append [e] es, ?_⟩
  rw [← List.append_nil out]
  exact Machine.run_cons_eq_some.mpr ⟨_, out, [], h, Machine.run_nil _ _, rfl⟩

theorem Leads.later {w w' : Waiting} {e : WaitEvent} {es : List WaitEvent} {o : Outcome}
    {out' : List Output} (h : Waiting.step c w e = some (w', out)) (hl : Leads c w' es o out') :
    Leads c w (e :: es) o (out ++ out') := by
  obtain ⟨es', hes, hr⟩ := hl
  exact ⟨e :: es', (List.prefix_cons_inj e).mpr hes,
    Machine.run_cons_eq_some.mpr ⟨w', out, out', h, hr, rfl⟩⟩

/-- A step one of whose writes was pending is the step itself. -/
theorem stall_leads {w : Waiting} {e : WaitEvent} {n : Nat} {o : Outcome}
    (hact : Waiting.act c w e = some (.ofOutcome o, out))
    (hwrite : Waiting.writesBehind c w e n = true) :
    Leads c w [.stalls e n, .resumes none] o out := by
  have hstalls : Waiting.step c w (.stalls e n) = some (.writing w e n, out.take n) := by
    rw [Waiting.step, if_pos hwrite, hact]
    rfl
  have hresumes : Waiting.step c (.writing w e n) (.resumes none)
      = some (.ofOutcome o, out.drop n) := by
    rw [Waiting.step, hact]
    rfl
  rw [← List.take_append_drop n out]
  exact Leads.later hstalls (Leads.here hresumes)

/-- From the answer to the re-SUBSCRIBE on. -/
theorem suback_leads (c : Codec) (s : Session) (r : Replay) {next : Next}
    (hnext : r.attempt.suback = next) :
    Leads c (.suback s r) [.answered next]
      (s.concluded ((readSuback >>= fun _ => replayRest c s.hs.version) r))
      ((written ((readSuback >>= fun _ => replayRest c s.hs.version) r)).drop r.out.length) := by
  refine Leads.here ?_
  rw [← proceed_concluded, ← hnext]
  rfl

/-- From the answer to the CONNECT on. -/
theorem connack_leads (c : Codec) (s : Session) (r : Replay) {next next' : Next}
    (hnext : r.attempt.connack = next) (hnext' : r.attempt.suback = next') :
    Leads c (.connack s r) [.answered next, .answered next']
      (s.concluded ((readConnack c >>= fun _ => resubscribe s.hs.version s.subscriptions >>=
        fun _ => replayRest c s.hs.version) r))
      ((written ((readConnack c >>= fun _ => resubscribe s.hs.version s.subscriptions >>=
        fun _ => replayRest c s.hs.version) r)).drop r.out.length) := by
  have hstep : Waiting.step c (.connack s r) (.answered next) = some (s.afterConnack c r) := by
    rw [← hnext]
    rfl
  unfold Session.afterConnack at hstep
  unfold resubscribe
  cases hpacket : s.subscriptions.resubscribePacket s.hs.version with
  | none =>
      rw [hpacket] at hstep
      refine Leads.here (hstep.trans (congrArg some ?_))
      exact proceed_concluded r _
  | some packet =>
      rw [hpacket] at hstep
      dsimp only at hstep
      have hsplit : (readConnack c >>= fun _ => (writeBroker invalidData (.packet packet) >>=
            fun _ => readSuback) >>= fun _ => replayRest c s.hs.version)
          = (readConnack c >>= fun _ => writeBroker invalidData (.packet packet)) >>=
            fun _ => readSuback >>= fun _ => replayRest c s.hs.version := by
        simp only [bind_assoc]
      show Leads c _ _ (s.concluded ((readConnack c >>= fun _ =>
        (writeBroker invalidData (.packet packet) >>= fun _ => readSuback) >>=
          fun _ => replayRest c s.hs.version) r)) _
      rw [hsplit]
      cases hwrite : (readConnack c >>= fun _ => writeBroker invalidData (.packet packet)) r with
      | error e r' =>
          rw [hwrite] at hstep
          rw [bind_of_error hwrite]
          exact Leads.here hstep
      | ok u r' =>
          rw [hwrite] at hstep
          rw [bind_of_ok hwrite]
          have hgrows : r.out <+: r'.out := by
            refine (Moves.bind Grows.trans (OnlyWrites.moves (readConnack_moves c)) (fun _ => ?_)).ok
              r u r' hwrite
            exact OnlyWrites.moves (writeBroker_moves _ _)
          have hmoves : Moves Grows (readSuback >>= fun _ => replayRest c s.hs.version) :=
            Moves.bind Grows.trans (OnlyWrites.moves readSuback_moves)
              (fun _ => replayRest_moves c _)
          have hsuback : r'.attempt.suback = next' := by
            obtain ⟨_, r₁, h₁, h₂⟩ := bind_eq_ok.mp hwrite
            obtain ⟨-, rfl⟩ := readConnack_eq_ok.mp h₁
            obtain ⟨-, rfl⟩ := writeBroker_eq_ok.mp h₂
            exact hnext'
          rw [← drop_append_drop hgrows (Moves.written hmoves r')]
          exact Leads.later hstep (suback_leads c s r' hsuback)

/-- A replay is its pieces: the broker's answers one after the other, as far as it
gets. -/
theorem replay_staged (c : Codec) (a : Attempt) (hdown : s.broker = none)
    (hstep : s.step = .connect) :
    Leads c (.select s) [.accepted a, .answered a.connack, .answered a.suback]
      (connectBroker c s a).1 (connectBroker c s a).2 := by
  have hfirst : Waiting.step c (.select s) (.accepted a) = some (s.startReplay a) :=
    if_neg (by simp [hdown, hstep])
  have hwhole : establishBroker c s.hs s.subscriptions = replayConnect s.hs.connectRaw >>=
      fun _ => readConnack c >>= fun _ => resubscribe s.hs.version s.subscriptions >>=
        fun _ => replayRest c s.hs.version := rfl
  rw [connectBroker_eq_concluded, hwhole]
  unfold Session.startReplay at hfirst
  cases hconnect : replayConnect s.hs.connectRaw (s.replay a) with
  | error e r =>
      rw [hconnect] at hfirst
      rw [bind_of_error hconnect]
      exact Leads.here hfirst
  | ok u r =>
      rw [hconnect] at hfirst
      rw [bind_of_ok hconnect]
      obtain ⟨raw, -, -, rfl⟩ := replayConnect_eq_ok.mp hconnect
      have hconnack : ((s.replay a).sentBroker [.connect raw]).attempt.connack = a.connack := rfl
      have hsuback : ((s.replay a).sentBroker [.connect raw]).attempt.suback = a.suback := rfl
      have hlast := connack_leads c s ((s.replay a).sentBroker [.connect raw]) hconnack hsuback
      have hmoves : Moves Grows (readConnack c >>= fun _ =>
          resubscribe s.hs.version s.subscriptions >>= fun _ => replayRest c s.hs.version) := by
        refine Moves.bind Grows.trans (OnlyWrites.moves (readConnack_moves c)) (fun _ => ?_)
        exact Moves.bind Grows.trans (OnlyWrites.moves (resubscribe_moves _ _))
          (fun _ => replayRest_moves c _)
      have hlead := Leads.later hfirst hlast
      rwa [List.cons_append, List.prefix_iff_eq_append.mp (Moves.written hmoves _)] at hlead

/-! ## Service -/

namespace Waiting

/-- A client packet can be read, a PINGREQ with its answer, and a freeze request be
served.  A session that is frozen or has ended owes neither. -/
def Serviced (c : Codec) : Waiting → Prop
  | .frozen _ _ | .ended _ => True
  | w => (∀ now p after pong forward, ∃ w' out,
      step c w (.loop (.clientRead now (.packet p) after pong forward)) = some (w', out) ∧
        (p.shape = .pingRequest → pong = .ok → .toClient (.packet p.pingResponse) ∈ out)) ∧
    ∀ clientFd, ∃ w', step c w (.freeze clientFd) = some (w', [])

/-- The event is a connection whose CONNECT is written, to be answered by the broker
whenever it likes, or a write that blocks. -/
def StartsWaiting : Waiting → WaitEvent → Prop
  | .select s, .accepted a =>
      (forceSessionResumption s.hs.connectRaw).isOk = true ∧ 0 < a.brokerWrites
  | _, .stalls _ _ => True
  | _, _ => False

instance (w : Waiting) (e : WaitEvent) : Decidable (StartsWaiting w e) := by
  unfold StartsWaiting
  split <;> infer_instance

end Waiting

theorem Publish.shape_ne_pingRequest (p : Publish) : p.shape ≠ .pingRequest := by
  unfold Publish.shape
  split
  · intro h
    cases h
  · intro h
    cases h

theorem answerPing_pingRequest {p : MqttPacket} (h : p.shape = .pingRequest) :
    answerPing p .ok = .ok [.toClient (.packet p.pingResponse)] := by
  rcases p with p | p <;> cases p
  case v3.pingRequest => rfl
  case v5.pingRequest => rfl
  case v3.publish p => exact absurd h p.shape_ne_pingRequest
  case v5.publish p => exact absurd h p.shape_ne_pingRequest
  all_goals exact nomatch h

namespace Waiting

/-- At the `select`, in either phase, client and freeze channel are served. -/
theorem serviced_select (c : Codec) (s : Session) : Serviced c (.select s) := by
  refine ⟨fun now p after pong forward => ?_, fun clientFd => ⟨_, rfl⟩⟩
  have hstep : step c (.select s) (.loop (.clientRead now (.packet p) after pong forward))
      = (forwardLoop c (.running s) (.clientRead now (.packet p) after pong forward)).map
        (fun r => (ofOutcome r.1, r.2)) := rfl
  rw [hstep]
  cases hb : s.broker with
  | some b =>
      rw [forwardLoop_connected (hb ▸ rfl)]
      refine ⟨_, _, rfl, fun hping hpong => ?_⟩
      subst hpong
      rw [clientPacket, answerPing_pingRequest hping]
      cases forward with
      | ok => exact List.mem_cons_self
      | failed e => exact List.mem_cons_self
  | none =>
      rw [forwardLoop_outage hb]
      refine ⟨_, _, rfl, fun hping hpong => ?_⟩
      subst hpong
      rw [outagePacket, serviceOutagePacket_eq, hping]
      exact List.mem_cons_self

theorem serviced_ofOutcome (c : Codec) (o : Outcome) : Serviced c (.ofOutcome o) := by
  cases o with
  | running s => exact serviced_select c s
  | ended r => trivial

/-- Inside a replay, nobody is. -/
theorem not_serviced_connack {r : Replay} : ¬ Serviced c (.connack s r) := by
  rintro ⟨-, hfreeze⟩
  obtain ⟨w', hw'⟩ := hfreeze 0
  exact nomatch hw'

theorem not_serviced_suback {r : Replay} : ¬ Serviced c (.suback s r) := by
  rintro ⟨-, hfreeze⟩
  obtain ⟨w', hw'⟩ := hfreeze 0
  exact nomatch hw'

/-- Nor behind a write that is pending. -/
theorem not_serviced_writing {w : Waiting} {e : WaitEvent} {n : Nat} :
    ¬ Serviced c (.writing w e n) := by
  rintro ⟨-, hfreeze⟩
  obtain ⟨w', hw'⟩ := hfreeze 0
  exact nomatch hw'

/-- A replay waits for its CONNACK once the CONNECT is written. -/
theorem serviced_startReplay :
    Serviced c (s.startReplay a).1 ↔ ¬ StartsWaiting (.select s) (.accepted a) := by
  have hconnect : (∃ u r, replayConnect s.hs.connectRaw (s.replay a) = .ok u r) ↔
      StartsWaiting (.select s) (.accepted a) := by
    constructor
    · rintro ⟨u, r, h⟩
      obtain ⟨raw, hraw, hpos, -⟩ := replayConnect_eq_ok.mp h
      exact ⟨by rw [hraw]; rfl, hpos⟩
    · rintro ⟨hok, hpos⟩
      cases hraw : forceSessionResumption s.hs.connectRaw with
      | error e => rw [hraw] at hok; exact nomatch hok
      | ok raw => exact ⟨(), _, replayConnect_eq_ok.mpr ⟨raw, hraw, hpos, rfl⟩⟩
  rw [← hconnect, Session.startReplay]
  cases h : replayConnect s.hs.connectRaw (s.replay a) with
  | ok u r => exact iff_of_false not_serviced_connack (not_not_intro ⟨u, r, rfl⟩)
  | error e r => exact iff_of_true trivial (fun ⟨_, _, h'⟩ => nomatch h')

theorem serviced_stalls {w w' : Waiting} {e : WaitEvent} {n : Nat}
    (h : step c w (.stalls e n) = some (w', out)) :
    ¬ Serviced c w' ∧ StartsWaiting w (.stalls e n) := by
  refine ⟨?_, by cases w <;> trivial⟩
  rw [step] at h
  split at h
  · obtain ⟨r, -, hr⟩ := Option.map_eq_some_iff.mp h
    rw [← (Prod.mk.inj hr).1]
    exact not_serviced_writing
  · cases h

theorem serviced_step {w w' : Waiting} {e : WaitEvent} (hw : Serviced c w)
    (h : step c w e = some (w', out)) : Serviced c w' ↔ ¬ StartsWaiting w e := by
  cases w with
  | select s =>
      cases e with
      | stalls e n =>
          obtain ⟨hnot, hstarts⟩ := serviced_stalls h
          exact iff_of_false hnot (not_not_intro hstarts)
      | resumes next => cases next <;> cases h
      | loop e =>
          have h : (if e.inner then none else (forwardLoop c (.running s) e).map
            (fun r => (ofOutcome r.1, r.2))) = some (w', out) := h
          split at h
          · exact nomatch h
          · obtain ⟨r, -, hr⟩ := Option.map_eq_some_iff.mp h
            rw [← (Prod.mk.inj hr).1]
            exact iff_of_true (serviced_ofOutcome c r.1) id
      | accepted a =>
          have h : (if s.broker.isSome ∨ s.step ≠ .connect then none else some (s.startReplay a))
            = some (w', out) := h
          split at h
          · exact nomatch h
          · have hw' : (s.startReplay a).1 = w' := congrArg Prod.fst (Option.some.inj h)
            exact hw' ▸ serviced_startReplay
      | freeze clientFd =>
          rw [← (Prod.mk.inj (Option.some.inj h)).1]
          exact iff_of_true trivial id
      | answered => exact nomatch h
      | thawed => exact nomatch h
      | adopted => exact nomatch h
  | connack s r => exact absurd hw not_serviced_connack
  | suback s r => exact absurd hw not_serviced_suback
  | writing w e n => exact absurd hw not_serviced_writing
  | frozen s clientFd =>
      cases e with
      | stalls e n =>
          obtain ⟨hnot, hstarts⟩ := serviced_stalls h
          exact iff_of_false hnot (not_not_intro hstarts)
      | resumes next => cases next <;> cases h
      | thawed reply =>
          rw [← (Prod.mk.inj (Option.some.inj h)).1]
          exact iff_of_true (serviced_ofOutcome c _) id
      | adopted id now =>
          rw [← (Prod.mk.inj (Option.some.inj h)).1]
          exact iff_of_true (serviced_ofOutcome c _) (fun h' => h')
      | _ => exact nomatch h
  | ended r =>
      cases e with
      | stalls e n =>
          have hover : act c (.ended r) e = none := by cases e <;> rfl
          rw [step, writesBehind, hover] at h
          cases h
      | resumes next => cases next <;> cases h
      | _ => cases h

end Waiting

/-- A client packet and a freeze request can be taken in every state of a run exactly
when no connection to a broker comes as far as its CONNECT and no write blocks. -/
theorem serviced_iff {es : List WaitEvent} {w : Waiting}
    (hrun : (waitingMachine c).run (.select s) es = some (w, out)) :
    (waitingMachine c).Always (Waiting.Serviced c) (.select s) es ↔
      (waitingMachine c).Along (fun w e => ¬ Waiting.StartsWaiting w e) (.select s) es :=
  (Machine.always_iff (I := fun _ => True) (L := fun _ => True) (fun _ _ _ _ _ _ => trivial)
    (fun _ _ _ _ _ _ => trivial) (fun _ _ _ _ _ hw _ hs => Waiting.serviced_step hw hs)
    trivial hrun trivial).trans (and_iff_right (Waiting.serviced_select c s))

namespace ReferenceCodec

/-- A PINGREQ, and how to write its answer. -/
def pings : Event := .clientRead 5000 (.packet (.v3 .pingRequest)) (.fresh []) .ok .ok

end ReferenceCodec

open ReferenceCodec in
/-- An outage in which the client pings, a freeze is asked for and rolled back, and
the broker refuses every connection. -/
theorem serviced_refused : ∃ w out,
    (waitingMachine (codec true)).run (.select session)
      [.loop brokerCloses, .loop pings, .freeze 7, .thawed .gaveUp, .loop (.wait none)]
      = some (w, out) ∧
    (waitingMachine (codec true)).Always (Waiting.Serviced (codec true)) (.select session)
      [.loop brokerCloses, .loop pings, .freeze 7, .thawed .gaveUp, .loop (.wait none)] := by
  exact ⟨_, _, rfl, (serviced_iff (c := codec true) rfl).mpr (by decide)⟩

open ReferenceCodec in
/-- A broker accepts the TCP connection and says nothing: the session waits for its
CONNACK, a PINGREQ is not read, and a freeze request not served.  The same when a broker
that is connected stops reading, and a client packet cannot be written to it. -/
theorem silent_broker_unserviced :
    (∃ w out, (waitingMachine (codec true)).run (.select session)
        [.loop brokerCloses, .accepted accepting] = some (w, out) ∧
      Waiting.step (codec true) w (.loop pings) = none ∧
      (∀ clientFd, Waiting.step (codec true) w (.freeze clientFd) = none) ∧
      ¬ Waiting.Serviced (codec true) w) ∧
    ∃ w out, (waitingMachine (codec true)).run (.select session)
        [.stalls (.loop (forwarded (publish one []))) 0] = some (w, out) ∧
      Waiting.step (codec true) w (.loop pings) = none ∧
      (∀ clientFd, Waiting.step (codec true) w (.freeze clientFd) = none) ∧
      ¬ Waiting.Serviced (codec true) w :=
  ⟨⟨_, _, rfl, rfl, fun _ => rfl, Waiting.not_serviced_connack⟩,
    ⟨_, _, rfl, rfl, fun _ => rfl, Waiting.not_serviced_writing⟩⟩

end TrafficDirector
