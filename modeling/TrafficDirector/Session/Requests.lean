/-
# `TrafficDirector.Session.Requests` — SUBSCRIBE and UNSUBSCRIBE until their answer

A publish is in the window until it is acknowledged; a SUBSCRIBE or UNSUBSCRIBE is
protected by the outage buffer only.  The requests of a run are those read from the
client whose answer has not been sent to it; `requestsKept_iff` says in which runs
each of them is always in the buffer or on the wire of the present connection: those
in which no connection goes while a request is unanswered.
-/
import TrafficDirector.ReferenceCodec
import TrafficDirector.Session.Transition

namespace TrafficDirector

open Framing (Reader)

/-! ## Requests and answers -/

inductive Request where
  | subscribe (id : UInt16)
  | unsubscribe (id : UInt16)
deriving DecidableEq

namespace MqttPacket

/-- The request that a client packet is. -/
def request : MqttPacket → Option Request
  | .v3 (.subscribe packetId _) => some (.subscribe packetId.get)
  | .v5 (.subscribe subscribe) => some (.subscribe subscribe.packetId.get)
  | .v3 (.unsubscribe packetId _) => some (.unsubscribe packetId.get)
  | .v5 (.unsubscribe unsubscribe) => some (.unsubscribe unsubscribe.packetId.get)
  | _ => none

/-- The request that a broker packet answers. -/
def answers : MqttPacket → Option Request
  | .v3 (.subscribeAck packetId _) => some (.subscribe packetId.get)
  | .v5 (.subscribeAck ack) => some (.subscribe ack.packetId.get)
  | .v3 (.unsubscribeAck packetId) => some (.unsubscribe packetId.get)
  | .v5 (.unsubscribeAck ack) => some (.unsubscribe ack.packetId.get)
  | _ => none

theorem answers_pingResponse (p : MqttPacket) : p.pingResponse.answers = none := by
  cases p <;> rfl

end MqttPacket

theorem bufferedAs_request {c : Codec} {p : MqttPacket} (h : p.request.isSome = true) :
    ∃ b, bufferedAs c p = some b := by
  unfold MqttPacket.request at h
  split at h
  case h_5 => exact nomatch h
  all_goals exact ⟨_, rfl⟩

/-- The client packet of the event, if it is a request. -/
def Event.request (e : Event) : Option MqttPacket :=
  e.clientPacket.filter (fun p => p.request.isSome)

def Output.answers : Output → Option Request
  | .toClient (.packet p) => p.answers
  | _ => none

/-- The output is the answer to the request `p`. -/
def Output.settles (p : MqttPacket) (o : Output) : Bool :=
  o.answers.isSome && o.answers = p.request

/-- The frames written to the present broker connection, after one more output. -/
def Output.extend (written : List Frame) : Output → List Frame
  | .openBroker => []
  | .toBroker f => written ++ [f]
  | .toClient _ => written

/-! ## The requests of a run -/

structure Requests where
  /-- read from the client, the answer not yet sent to it -/
  pending : List MqttPacket
  /-- written to the present broker connection -/
  written : List Frame

namespace Requests

/-- After a step on `e` with outputs `out`. -/
def after (_ : Outcome) (h : Requests) (e : Event) (out : List Output) : Requests where
  pending := h.pending.filter (fun p => !out.any (Output.settles p)) ++ e.request.toList
  written := out.foldl Output.extend h.written

/-- `run_session` has written the CONNECT. -/
def initial (hs : Handshake) : Requests := ⟨[], [.connect hs.connectRaw]⟩

/-- Each request is in the outage buffer or has been written to the broker
connection that is open. -/
def Kept (c : Codec) (s : Session) (h : Requests) : Prop :=
  ∀ p ∈ h.pending, (∃ b ∈ s.buffer.entries, b.raw = encodeRaw c p) ∨
    (s.broker.isSome = true ∧ ∃ f ∈ h.written, f.bytes c = (encodeRaw c p).toBytes)

end Requests

/-- A session with its requests. -/
def requestMachine (c : Codec) : Machine (Outcome × Requests) Event Output :=
  (sessionMachine c).record Requests.after

/-- The event takes a broker connection away, unless it ends the session. -/
def Event.loses : Event → Bool
  | .clientRead _ (.packet _) _ _ (.failed _) => true
  | .brokerRead (.packet (.v5 (.disconnect _))) _ _ => true
  | .brokerRead (.error _) _ _ | .brokerRead .closed _ _ => true
  | .migrate _ _ => true
  | _ => false

namespace Requests

/-- Whatever the session still awaits an answer to is kept. -/
def AllKept (c : Codec) : Outcome × Requests → Prop
  | (.running s, h) => h.Kept c s
  | (.ended _, _) => True

/-- If the step takes the connection away, no request is unanswered. -/
def LosesNone : Outcome × Requests → Event → Prop
  | (.running s, h), e =>
      s.broker.isSome = true → e.loses = true → h.pending = [] ∧ e.request = none
  | (.ended _, _), _ => True

instance (t : Outcome × Requests) (e : Event) : Decidable (LosesNone t e) := by
  unfold LosesNone
  split <;> infer_instance

end Requests

variable {c : Codec} {s s' : Session} {e : Event} {out : List Output} {h : Requests}

/-! ## What becomes of the lists -/

def Output.frame : Output → Option Frame
  | .toBroker f => some f
  | _ => none

theorem foldl_extend {written : List Frame} (hopen : ∀ o ∈ out, o ≠ .openBroker) :
    out.foldl Output.extend written = written ++ out.filterMap Output.frame := by
  induction out generalizing written with
  | nil => exact (List.append_nil _).symm
  | cons o out ih =>
      obtain ⟨hne, hopen⟩ := List.forall_mem_cons.mp hopen
      rw [List.foldl_cons, ih hopen]
      cases o with
      | openBroker => exact absurd rfl hne
      | toBroker f =>
          rw [List.filterMap_cons_some (f := Output.frame) rfl]
          exact List.append_assoc _ _ _
      | toClient f => rw [List.filterMap_cons_none rfl]; rfl

theorem Requests.mem_after {o : Outcome} {p : MqttPacket}
    (hp : p ∈ (Requests.after o h e out).pending) : p ∈ h.pending ∨ e.request = some p := by
  rcases List.mem_append.mp hp with hp | hp
  · exact Or.inl (List.mem_of_mem_filter hp)
  · exact Or.inr (Option.mem_toList.mp hp)

/-- Outputs that answer nothing leave all requests pending. -/
theorem Requests.after_unanswered {o : Outcome} (hout : ∀ o ∈ out, o.answers = none) :
    (Requests.after o h e out).pending = h.pending ++ e.request.toList := by
  refine congrArg (· ++ _) (List.filter_eq_self.mpr (fun p _ => ?_))
  have hnone : out.any (Output.settles p) = false :=
    List.any_eq_false.mpr (fun o ho => by rw [Output.settles, hout o ho]; exact fun h' => nomatch h')
  rw [hnone]
  rfl

theorem Event.request_some {p : MqttPacket} (he : e.request = some p) :
    e.clientPacket = some p ∧ p.request.isSome = true := by
  obtain ⟨hp, hreq⟩ := Option.filter_eq_some_iff.mp he
  exact ⟨hp, hreq⟩

/-! ## One step -/

theorem brokerPacket_loses {p : MqttPacket} {after : Reader UInt8} {forward : Sent}
    (hs : brokerPacket c s p after forward = (.running s', out)) :
    s'.broker = none ↔ Event.loses (.brokerRead (.packet p) after forward) = true := by
  unfold brokerPacket at hs
  split at hs
  · split at hs
    · obtain ⟨rfl, -⟩ := running_inj hs
      exact ⟨fun _ => rfl, fun _ => rfl⟩
    · split at hs
      · exact nomatch (Prod.mk.inj hs).1
      · exact nomatch (Prod.mk.inj hs).1
  · obtain ⟨rfl, -⟩ := running_inj hs
    exact ⟨fun h' => (nomatch h'), fun h' => (nomatch h')⟩
  · obtain ⟨rfl, -⟩ := running_inj hs
    exact ⟨fun h' => (nomatch h'), fun h' => (nomatch h')⟩
  · next hd _ _ =>
      have hloses : Event.loses (.brokerRead (.packet p) after forward) = false := by
        unfold Event.loses
        split
        · next he => exact nomatch he
        · next he => exact absurd (Next.packet.inj (Event.brokerRead.inj he).1) (hd _)
        · next he => exact nomatch (Event.brokerRead.inj he).1
        · next he => exact nomatch (Event.brokerRead.inj he).1
        · next he => exact nomatch he
        · rfl
      cases forward with
      | failed e => exact nomatch (Prod.mk.inj hs).1
      | ok =>
          obtain ⟨rfl, -⟩ := running_inj hs
          exact ⟨fun h' => (nomatch h'), fun h' => (nomatch hloses.symm.trans h')⟩

theorem commonStep_loses (up : s.broker.isSome = true)
    (hs : commonStep c s e = some (.running s', out)) : s'.broker = none ↔ e.loses = true := by
  have ht := commonStep_running hs
  unfold commonStep at hs
  split at hs
  case h_1 after =>
    obtain ⟨rfl, -⟩ := running_inj (Option.some.inj hs)
    exact ⟨fun h' => (nomatch h' ▸ up), fun h' => (nomatch h')⟩
  case h_4 clientFd reply =>
    cases ht with
    | idle quiet same =>
        have up' := same.up.trans up
        exact ⟨fun h' => (nomatch h' ▸ up'), fun h' => (nomatch h')⟩
  case h_5 id now =>
    cases ht with
    | idle quiet same => exact quiet.elim
    | migrated => exact ⟨fun _ => rfl, fun _ => rfl⟩
  case h_6 now notice =>
    split at hs
    · exact nomatch (Prod.mk.inj (Option.some.inj hs)).1
    · exact nomatch hs
  case h_7 => exact nomatch hs
  all_goals exact nomatch (Prod.mk.inj (Option.some.inj hs)).1

/-- A session that goes on has lost its connection in the steps that say so. -/
theorem forwardLoop_loses (up : s.broker.isSome = true)
    (hs : forwardLoop c (.running s) e = some (.running s', out)) :
    s'.broker = none ↔ e.loses = true := by
  have hstay : s'.broker = s.broker → e.loses = false → (s'.broker = none ↔ e.loses = true) := by
    intro hb he
    rw [hb, he]
    exact ⟨fun h' => (nomatch h' ▸ up), fun h' => (nomatch h')⟩
  rw [forwardLoop_connected up] at hs
  unfold connectedStep at hs
  split at hs
  · next now p after pong forward =>
      have hs := Option.some.inj hs
      unfold clientPacket at hs
      split at hs
      · exact nomatch (Prod.mk.inj hs).1
      · cases forward with
        | ok =>
            obtain ⟨rfl, -⟩ := running_inj hs
            exact hstay rfl rfl
        | failed text =>
            obtain ⟨rfl, -⟩ := running_inj hs
            exact ⟨fun _ => rfl, fun _ => rfl⟩
  · obtain ⟨rfl, -⟩ := running_inj (Option.some.inj hs)
    exact ⟨fun h' => (nomatch h'), fun h' => (nomatch h')⟩
  · exact brokerPacket_loses (Option.some.inj hs)
  · obtain ⟨rfl, -⟩ := running_inj (Option.some.inj hs)
    exact ⟨fun _ => rfl, fun _ => rfl⟩
  · obtain ⟨rfl, -⟩ := running_inj (Option.some.inj hs)
    exact ⟨fun _ => rfl, fun _ => rfl⟩
  · exact commonStep_loses up hs

theorem Requests.kept_nil {s : Session} (hb : s.buffer.entries = []) (down : s.broker = none) :
    Kept c s h ↔ h.pending = [] := by
  constructor
  · intro hk
    refine List.eq_nil_iff_forall_not_mem.mpr (fun p hp => ?_)
    rcases hk p hp with ⟨b, hmem, -⟩ | ⟨up, -⟩
    · rw [hb] at hmem
      exact nomatch hmem
    · rw [down] at up
      exact nomatch up
  · intro hnil p hp
    rw [hnil] at hp
    exact nomatch hp

theorem answers_of_pongs {pongs : List Output} {p : MqttPacket} {pong : Sent}
    (h : answerPing p pong = .ok pongs) : ∀ o ∈ pongs, o.answers = none := by
  obtain ⟨fs, hfs, rfl⟩ := answerPing_toClient h
  intro o ho
  obtain ⟨f, hf, rfl⟩ := List.mem_map.mp ho
  rw [List.mem_singleton.mp (hfs hf)]
  exact p.answers_pingResponse

/-- Whoever loses its connection has nothing left to say: the requests are those
that were pending, and the one just read. -/
theorem Transition.kept_lost {o : Outcome} (ht : Transition c s e s' out) (hset : s.Settled)
    (up : s.broker.isSome = true) (down : s'.broker = none) :
    Requests.Kept c s' (Requests.after o h e out) ↔ h.pending = [] ∧ e.request = none := by
  obtain ⟨hbuf, -⟩ := hset up
  have hb : s'.buffer.entries = [] ∧ ∀ o ∈ out, o.answers = none := by
    cases ht with
    | idle quiet same =>
        rw [← same.up, down] at up
        exact nomatch up
    | forwarded =>
        have hnone : s.broker = none := down
        rw [hnone] at up
        exact nomatch up
    | unsent _ answered => exact ⟨hbuf, answers_of_pongs answered⟩
    | held hnone => rw [hnone] at up; exact nomatch up
    | delivered => exact nomatch down
    | lost => exact ⟨hbuf, fun o ho => nomatch ho⟩
    | replayed hnone => rw [hnone] at up; exact nomatch up
    | migrated => exact ⟨hbuf, fun o ho => nomatch ho⟩
  rw [Requests.kept_nil hb.1 down, Requests.after_unanswered hb.2, List.append_eq_nil_iff,
    Option.toList_eq_nil_iff]

/-- What is written stays written while the connection does. -/
theorem Requests.written_mem {o : Outcome} {f : Frame} (hopen : ∀ o ∈ out, o ≠ .openBroker)
    (hf : f ∈ h.written ∨ .toBroker f ∈ out) : f ∈ (Requests.after o h e out).written := by
  show f ∈ out.foldl Output.extend h.written
  rw [foldl_extend hopen]
  refine List.mem_append.mpr (hf.imp id (fun hf => ?_))
  exact List.mem_filterMap.mpr ⟨_, hf, rfl⟩

theorem Transition.kept_up {o : Outcome} (ht : Transition c s e s' out) (hset : s.Settled)
    (hk : Requests.Kept c s h) (up : s.broker.isSome = true) (up' : s'.broker.isSome = true) :
    Requests.Kept c s' (Requests.after o h e out) := by
  obtain ⟨hbuf, -⟩ := hset up
  -- a frame that has been written, or is now
  have hsuffices (hopen : ∀ o ∈ out, o ≠ .openBroker)
      (hnew : ∀ p, e.clientPacket = some p → Output.toBroker (.packet p) ∈ out) :
      Requests.Kept c s' (Requests.after o h e out) := by
    intro p hp
    refine Or.inr ⟨up', ?_⟩
    rcases Requests.mem_after hp with hp | hp
    · rcases hk p hp with ⟨b, hmem, -⟩ | ⟨-, f, hf, hbytes⟩
      · rw [hbuf] at hmem
        exact nomatch hmem
      · exact ⟨f, Requests.written_mem hopen (Or.inl hf), hbytes⟩
    · exact ⟨_, Requests.written_mem hopen (Or.inr (hnew p (Event.request_some hp).1)), rfl⟩
  cases ht with
  | idle quiet same =>
      exact hsuffices (fun o ho => nomatch ho) (fun p hp => nomatch quiet.clientPacket.symm.trans hp)
  | @forwarded _ p _ _ pongs _ answered =>
      refine hsuffices (fun o ho => ?_) (fun p' hp' => ?_)
      · obtain ⟨fs, -, rfl⟩ := answerPing_toClient answered
        rcases List.mem_append.mp ho with ho | ho
        · obtain ⟨f, -, rfl⟩ := List.mem_map.mp ho
          exact fun h' => nomatch h'
        · rw [List.mem_singleton.mp ho]
          exact fun h' => nomatch h'
      · rw [← Option.some.inj hp']
        exact List.mem_append_right _ List.mem_cons_self
  | unsent => exact nomatch up'
  | held hnone => rw [hnone] at up; exact nomatch up
  | delivered =>
      refine hsuffices (fun o ho => ?_) (fun p hp => nomatch hp)
      rw [List.mem_singleton.mp ho]
      exact fun h' => nomatch h'
  | lost => exact nomatch up'
  | replayed hnone => rw [hnone] at up; exact nomatch up
  | migrated => exact nomatch up'

theorem replayPlan_ne_openBroker {raw : Bytes} {o : Output} (h : o ∈ s.replayPlan c raw) :
    o ≠ .openBroker := by
  rintro rfl
  simp [Session.replayPlan] at h

/-- During an outage nothing is lost: what is held back goes on to the next connection. -/
theorem Transition.kept_down {o : Outcome} (ht : Transition c s e s' out)
    (hk : Requests.Kept c s h) (down : s.broker = none) :
    Requests.Kept c s' (Requests.after o h e out) := by
  have hheld : ∀ p ∈ h.pending, ∃ b ∈ s.buffer.entries, b.raw = encodeRaw c p := by
    intro p hp
    refine (hk p hp).resolve_right (fun hw => ?_)
    rw [down] at hw
    cases hw.1
  cases ht with
  | idle quiet same =>
      intro p hp
      rcases Requests.mem_after hp with hp | hp
      · rw [same.buffer]
        exact Or.inl (hheld p hp)
      · cases quiet.clientPacket.symm.trans (Event.request_some hp).1
  | forwarded up => rw [down] at up; cases up
  | unsent up => rw [down] at up; cases up
  | held _ serviced =>
      obtain ⟨hbuf, -⟩ := serviceOutagePacket_ok serviced
      intro p hp
      refine Or.inl ?_
      show ∃ b ∈ (Serviced.buffer _).entries, _
      rw [hbuf]
      rcases Requests.mem_after hp with hp | hp
      · obtain ⟨b, hb, hraw⟩ := hheld p hp
        exact ⟨b, List.mem_append_left _ hb, hraw⟩
      · obtain ⟨hpacket, hreq⟩ := Event.request_some hp
        obtain ⟨b, hb⟩ := bufferedAs_request (c := c) hreq
        rw [← Option.some.inj hpacket] at hb
        refine ⟨b, List.mem_append_right _ ?_, ?_⟩
        · rw [hb]
          exact List.mem_singleton_self b
        · rw [bufferedAs_raw hb, Option.some.inj hpacket]
  | delivered up => rw [down] at up; cases up
  | lost up => rw [down] at up; cases up
  | @replayed a raw _ patched serves =>
      intro p hp
      refine Or.inr ⟨rfl, ?_⟩
      rcases Requests.mem_after hp with hp | hp
      · obtain ⟨b, hb, hraw⟩ := hheld p hp
        refine ⟨.raw b.raw, ?_, congrArg RawPacket.toBytes hraw⟩
        have hflush : Output.toBroker (.raw b.raw) ∈ s.replayPlan c raw := by
          simp only [Session.replayPlan, List.mem_append]
          exact Or.inr (Or.inr (Or.inr (Or.inr (Or.inr
            (List.mem_map_of_mem (List.mem_map_of_mem (f := fun e => Frame.raw e.raw) hb))))))
        show _ ∈ (s.replayPlan c raw).foldl Output.extend []
        rw [foldl_extend (fun o ho => replayPlan_ne_openBroker ho)]
        exact List.mem_append_right _ (List.mem_filterMap.mpr ⟨_, hflush, rfl⟩)
      · cases (Event.request_some hp).1
  | migrated =>
      intro p hp
      rcases Requests.mem_after hp with hp | hp
      · exact Or.inl (hheld p hp)
      · cases (Event.request_some hp).1

/-! ## Runs -/

/-- Once the request is read, and for as long as the session runs without its answer,
it is kept: exactly in the runs that lose no connection with a request unanswered. -/
theorem requestsKept_iff {id : SessionId} {hs : Handshake} {client broker : Reader UInt8}
    {now : Nat} {es : List Event} {t : Session}
    (hrun : (requestMachine c).run
        (.running (Session.initial id hs client broker now), .initial hs) es
      = some ((.running t, h), out)) :
    (requestMachine c).Always (Requests.AllKept c)
        (.running (Session.initial id hs client broker now), .initial hs) es ↔
      (requestMachine c).Along Requests.LosesNone
        (.running (Session.initial id hs client broker now), .initial hs) es := by
  have hstart : Requests.AllKept c
      (.running (Session.initial id hs client broker now), .initial hs) :=
    fun p hp => nomatch hp
  refine (Machine.always_iff_live (L := fun t s => t.1 = .running s)
    (J := fun _ s => s.Settled) ?_ ?_ hrun rfl).trans (and_iff_right hstart)
  · rintro ⟨o, h⟩ e ⟨o', h'⟩ out s' rfl hs
    obtain ⟨hstep, rfl⟩ := Machine.record_step_eq_some.mp hs
    obtain ⟨s, rfl⟩ := running_of_step hstep
    have ht := forwardLoop_running hstep
    refine ⟨s, rfl, fun hsettled => ⟨ht.settled hsettled, fun hk => ?_⟩⟩
    cases hbroker : s.broker with
    | none =>
        refine iff_of_true (ht.kept_down hk hbroker) (fun up => ?_)
        rw [hbroker] at up
        exact nomatch up
    | some b =>
        have up : s.broker.isSome = true := hbroker ▸ rfl
        have hloses := forwardLoop_loses up hstep
        cases hbroker' : s'.broker with
        | none =>
            refine (ht.kept_lost hsettled up hbroker').trans ?_
            exact ⟨fun hnil _ _ => hnil, fun hG => hG up (hloses.mp hbroker')⟩
        | some b' =>
            have up' : s'.broker.isSome = true := hbroker' ▸ rfl
            refine iff_of_true (ht.kept_up hsettled hk up up') (fun _ he => ?_)
            rw [hloses.mpr he] at hbroker'
            exact nomatch hbroker'
  · rintro s hs
    rw [← Outcome.running.inj hs]
    exact Session.settled_initial id _ client broker now

namespace ReferenceCodec

/-- The client subscribes and is answered; the broker goes away, and the client
unsubscribes. -/
def answeredFirst : List Event :=
  [forwarded subscribe, delivered suback, brokerCloses, forwarded unsubscribe]

/-- The session with its requests. -/
def requesting : Outcome × Requests := (.running session, .initial handshake)

end ReferenceCodec

open ReferenceCodec in
/-- The connection goes with nothing unanswered; the UNSUBSCRIBE is in the buffer. -/
theorem requestsKept_answered : ∃ t h out,
    (requestMachine (codec true)).run requesting answeredFirst = some ((.running t, h), out) ∧
    h.pending = [unsubscribe] ∧ t.buffer.entries.map (fun b => b.raw) = [encode unsubscribe] ∧
    (requestMachine (codec true)).Always (Requests.AllKept (codec true)) requesting
      answeredFirst := by
  have hrun : (requestMachine (codec true)).run requesting answeredFirst
      = some ((.running _, _), _) := rfl
  exact ⟨_, _, _, hrun, rfl, rfl, (requestsKept_iff hrun).mpr (by decide +kernel)⟩

open ReferenceCodec in
/-- The broker closes before it has answered a SUBSCRIBE: neither the buffer nor a
broker has the request, and the replay's own re-SUBSCRIBE is answered to nobody. -/
theorem subscribe_stranded : ∃ t h out,
    (requestMachine (codec true)).run requesting [forwarded subscribe, brokerCloses]
      = some ((.running t, h), out) ∧
    h.pending = [subscribe] ∧ t.buffer.entries = [] ∧ t.broker = none ∧
    ¬ Requests.AllKept (codec true) (.running t, h) := by
  refine ⟨_, _, _, rfl, rfl, rfl, rfl, fun hk => ?_⟩
  rcases hk subscribe List.mem_cons_self with ⟨b, hb, -⟩ | ⟨up, -⟩
  · exact nomatch hb
  · exact nomatch up

end TrafficDirector
