/-
# `TrafficDirector.Migrate.Ownership` — who serves a client after a hand-off

The child adopts all sessions or none, and all only if the parent has sent END
(`Sound`); the parent resumes what it has not counted in `sent`.  So the sessions
that are counted have no owner when END does not get through: `Spoilt`.
`oneOwner_iff`: a hand-off that is over leaves every session with one owner exactly
when every fault came before the first ack was counted.
-/
import TrafficDirector.Migrate
import TrafficDirector.ReferenceCodec

namespace TrafficDirector

open Handoff

variable {json : Json} {h h' : Handoff} {e : HandoffEvent}

/-! ## What one step can do -/

namespace Handoff

/-- The next datagram can be written and is. -/
def sendable (json : Json) (h : Handoff) (io : Sent) : Bool :=
  match io, h.parent with
  | .ok, .sending (session :: _) => (json.toVec session.snapshot).isOk
  | .ok, _ => true
  | .failed _, _ => false

end Handoff

/-- The child takes the datagram: it is END, or it decodes, with a descriptor, and
the ack goes through. -/
def Datagram.acceptable (json : Json) (d : Datagram) (fd : Bool) (ack : Sent) : Bool :=
  d.received = endMarker ||
    ((json.fromSlice d.received).isOk && fd && d.fd.isSome && ack = .ok)

/-- A step of the parent or of the child, with its full effect. -/
inductive HandoffStep (json : Json) (h : Handoff) : HandoffEvent → Handoff → Prop where
  | sends {session : FrozenSession} {rest : List FrozenSession} {payload : Bytes}
      (parent : h.parent = .sending (session :: rest))
      (text : json.toVec session.snapshot = .ok payload) :
      HandoffStep json h (.parentSends .ok)
        { h with
          parent := .awaiting rest, toChild := h.toChild ++ [⟨payload, some session.clientFd⟩] }
  | ends (parent : h.parent = .sending []) :
      HandoffStep json h (.parentSends .ok)
        { h with parent := .finished (.ok ()), toChild := h.toChild ++ [Datagram.endOfSessions] }
  | endLost (parent : h.parent = .sending []) :
      HandoffStep json h .endLost { h with parent := .finished (.ok ()) }
  | sendFails {rest : List FrozenSession} {io : Sent} {err : IoError}
      (parent : h.parent = .sending rest) (fails : h.sendable json io = false) :
      HandoffStep json h (.parentSends io) (h.parentError err)
  | acked {rest : List FrozenSession} {acks : List Bytes} (parent : h.parent = .awaiting rest)
      (ack : h.toParent = ackMarker :: acks) :
      HandoffStep json h .parentReceives
        { h with parent := .sending rest, sent := h.sent + 1, toParent := acks }
  | badAck {rest : List FrozenSession} {ack : Bytes} {acks : List Bytes} {err : IoError}
      (parent : h.parent = .awaiting rest) (bad : h.toParent = ack :: acks)
      (ne : ack ≠ ackMarker) :
      HandoffStep json h .parentReceives
        { h with parent := .finished (.error err), toParent := acks }
  | ackFails {rest : List FrozenSession} {text : String} {err : IoError}
      (parent : h.parent = .awaiting rest) :
      HandoffStep json h (.parentFails text) (h.parentError err)
  | dies {rest : List FrozenSession} (parent : h.parent = .sending rest ∨ h.parent = .awaiting rest) :
      HandoffStep json h .parentDies { h with parent := .dead }
  | adopts {sessions : Received} {d : Datagram} {ds : List Datagram} {fd : Bool} {ack : Sent}
      (child : h.child = .receiving sessions) (queue : h.toChild = d :: ds)
      (ended : d.received = endMarker) :
      HandoffStep json h (.childReceives fd ack)
        { h with child := .finished (.ok sessions), toChild := ds }
  | accepts {sessions : Received} {d : Datagram} {ds : List Datagram} {snapshot : SessionSnapshot}
      {clientFd : Int} (child : h.child = .receiving sessions) (queue : h.toChild = d :: ds)
      (more : d.received ≠ endMarker) (fd : d.fd = some clientFd)
      (acceptable : d.acceptable json true .ok = true) :
      HandoffStep json h (.childReceives true .ok)
        { h with
          child := .receiving (sessions ++ [(snapshot, clientFd)])
          toChild := ds, toParent := h.toParent ++ [ackMarker] }
  | rejects {sessions : Received} {d : Datagram} {ds : List Datagram} {fd : Bool} {ack : Sent}
      {err : IoError} (child : h.child = .receiving sessions) (queue : h.toChild = d :: ds)
      (unacceptable : d.acceptable json fd ack = false) :
      HandoffStep json h (.childReceives fd ack)
        { h with child := .finished (.error err), toChild := ds }
  | recvFails {sessions : Received} {text : String} {err : IoError}
      (child : h.child = .receiving sessions) :
      HandoffStep json h (.childFails text) (h.childError err)

theorem sendSession_step {session : FrozenSession} {rest : List FrozenSession} {io : Sent}
    (parent : h.parent = .sending (session :: rest)) :
    HandoffStep json h (.parentSends io) (h.sendSession json session rest io) := by
  unfold sendSession
  cases text : json.toVec session.snapshot with
  | error err => 
      refine .sendFails parent ?_
      cases io with
      | ok => simp [sendable, parent, text, Except.isOk, Except.toBool]
      | failed e => rfl
  | ok payload =>
      cases io with
      | ok => exact .sends parent text
      | failed e => exact .sendFails parent rfl

theorem receiveDatagram_step {sessions : Received} {d : Datagram} {ds : List Datagram} {fd : Bool}
    {ack : Sent} (child : h.child = .receiving sessions) (queue : h.toChild = d :: ds) :
    HandoffStep json h (.childReceives fd ack)
      ({ h with toChild := ds }.receiveDatagram json sessions d fd ack) := by
  unfold receiveDatagram
  split
  · next ended => exact .adopts child queue ended
  · next more =>
      cases text : json.fromSlice d.received with
      | error err =>
          exact .rejects child queue (by simp [Datagram.acceptable, more, text, Except.isOk, Except.toBool])
      | ok snapshot =>
          cases fd with
          | false => exact .rejects child queue (by simp [Datagram.acceptable, more])
          | true =>
              cases hfd : d.fd with
              | none => exact .rejects child queue (by simp [Datagram.acceptable, more, hfd])
              | some clientFd =>
                  cases ack with
                  | failed e => exact .rejects child queue (by simp [Datagram.acceptable, more])
                  | ok =>
                      exact .accepts child queue more hfd
                        (by simp [Datagram.acceptable, text, hfd, Except.isOk, Except.toBool])

theorem sendEnd_step {io : Sent} (parent : h.parent = .sending []) :
    HandoffStep json h (.parentSends io) (h.sendEnd io) := by
  cases io with
  | ok => exact .ends parent
  | failed e => exact .sendFails parent rfl

theorem receiveAck_step {rest : List FrozenSession} {ack : Bytes} {acks : List Bytes}
    (parent : h.parent = .awaiting rest) (queue : h.toParent = ack :: acks) :
    HandoffStep json h .parentReceives (h.receiveAck rest ack acks) := by
  unfold receiveAck
  split
  · next ne => exact .badAck parent queue ne
  · next eq => exact .acked parent (Decidable.not_not.mp eq ▸ queue)

/-- There are no other steps. -/
theorem handoffStep_of_step (hstep : h.step json e = some h') : HandoffStep json h e h' := by
  unfold Handoff.step at hstep
  split at hstep <;> split at hstep <;> cases hstep
  · next parent => exact sendEnd_step parent
  · next parent => exact sendSession_step parent
  · next parent => exact .endLost parent
  · next parent queue => exact receiveAck_step parent queue
  · next parent => exact .ackFails parent
  · next parent => exact .dies (Or.inl parent)
  · next parent => exact .dies (Or.inr parent)
  · next child queue => exact receiveDatagram_step child queue
  · next child => exact .recvFails child

/-! ## The queue -/

/-- A queue of sessions, with END behind them at most, and that only if `ended`. -/
inductive Queued (ended : Prop) : List Datagram → Prop where
  | nil : Queued ended []
  | last (h : ended) : Queued ended [Datagram.endOfSessions]
  | session {d : Datagram} {ds : List Datagram} (more : d.received ≠ endMarker)
      (rest : Queued ended ds) : Queued ended (d :: ds)

theorem received_endOfSessions : Datagram.endOfSessions.received = endMarker := by
  decide

namespace Queued

variable {ended ended' : Prop} {d : Datagram} {ds : List Datagram}

theorem append (h : Queued ended ds) (hopen : ¬ ended) (hd : Queued ended' [d]) :
    Queued ended' (ds ++ [d]) := by
  induction h with
  | nil => exact hd
  | last h => exact absurd h hopen
  | session more rest ih => exact .session more ih

theorem mono (h : Queued ended ds) (himp : ended → ended') : Queued ended' ds := by
  induction h with
  | nil => exact .nil
  | last h => exact .last (himp h)
  | session more rest ih => exact .session more ih

theorem tail (h : Queued ended (d :: ds)) : Queued ended ds := by
  cases h with
  | last h => exact .nil
  | session more rest => exact rest

theorem head_end (h : Queued ended (d :: ds)) (hd : d.received = endMarker) :
    ended ∧ d = Datagram.endOfSessions ∧ ds = [] := by
  cases h with
  | last h => exact ⟨h, rfl, rfl⟩
  | session more rest => exact absurd hd more

theorem not_mem_end (h : Queued ended ds) (hopen : ¬ ended) : Datagram.endOfSessions ∉ ds := by
  induction h with
  | nil => exact List.not_mem_nil
  | last h => exact absurd h hopen
  | session more rest ih =>
      intro hmem
      rcases List.mem_cons.mp hmem with rfl | hmem
      · exact more received_endOfSessions
      · exact ih hmem

end Queued

/-- A session is not mistaken for END. -/
theorem received_ne_end {s : SessionSnapshot} {payload : Bytes} (text : json.toVec s = .ok payload)
    (fd : Option Int) : Datagram.received ⟨payload, fd⟩ ≠ endMarker := by
  intro hend
  have hhead := json.toVec_object text
  cases payload with
  | nil => exact nomatch hhead
  | cons b bs =>
      have hb : b = 0x54 := (List.cons.inj hend).1
      rw [hb] at hhead
      exact absurd (Option.some.inj hhead) (by decide)

/-! ## What holds at every point of a hand-off -/

/-- How many sessions the parent has sent, as long as that matters. -/
def Handoff.onWire (h : Handoff) : Option Nat :=
  match h.parent with
  | .sending _ => some h.sent
  | .awaiting _ => some (h.sent + 1)
  | .finished (.ok _) => some h.batch.frozen.length
  | _ => none

structure Sound (h : Handoff) : Prop where
  acks : ∀ ack ∈ h.toParent, ack = ackMarker
  bound : h.sent ≤ h.batch.frozen.length
  sending : ∀ {rest}, h.parent = .sending rest → rest = h.batch.frozen.drop h.sent
  awaiting : ∀ {rest}, h.parent = .awaiting rest →
    h.sent < h.batch.frozen.length ∧ rest = h.batch.frozen.drop (h.sent + 1)
  ended : h.parent = .finished (.ok ()) → h.sent = h.batch.frozen.length
  queue : Queued (h.parent = .finished (.ok ())) h.toChild
  /-- what has arrived and what is on the way is what was sent, in order -/
  flow : ∀ {sessions n}, h.child = .receiving sessions → h.onWire = some n →
    sessions.map Prod.snd ++ h.toChild.filterMap Datagram.fd
      = (h.batch.frozen.take n).map FrozenSession.clientFd
  adopted : ∀ {sessions}, h.child = .finished (.ok sessions) →
    h.parent = .finished (.ok ()) ∧
      sessions.map Prod.snd = h.batch.frozen.map FrozenSession.clientFd

theorem Sound.start (batch : FreezeBatch) : Sound (Handoff.start batch) where
  acks ack hack := nomatch hack
  bound := Nat.zero_le _
  sending h := (Parent.sending.inj h).symm
  awaiting h := nomatch h
  ended h := nomatch h
  queue := .nil
  flow hc hn := by
    rw [← Child.receiving.inj hc, ← Option.some.inj hn]
    rfl
  adopted h := nomatch h

namespace Parent

/-- The loop has ended with an error, or with its process. -/
def stopped : Parent → Bool
  | .finished (.error _) | .dead => true
  | _ => false

end Parent

theorem Sound.parentStops {p : Parent} {acks : List Bytes} (hs : Sound h)
    (active : h.parent.active = true) (stopped : p.stopped = true) (hacks : acks ⊆ h.toParent) :
    Sound { h with parent := p, toParent := acks } where
  acks ack hack := hs.acks ack (hacks hack)
  bound := hs.bound
  sending hp := by cases hp; exact nomatch stopped
  awaiting hp := by cases hp; exact nomatch stopped
  ended hp := by cases hp; exact nomatch stopped
  queue := hs.queue.mono (fun hp => by rw [hp] at active; exact nomatch active)
  flow hc hn := by
    cases p with
    | finished r =>
        cases r with
        | ok u => exact nomatch stopped
        | error err => exact nomatch hn
    | dead => exact nomatch hn
    | _ => exact nomatch stopped
  adopted hc := by
    have hp := (hs.adopted hc).1
    rw [hp] at active
    exact nomatch active

theorem Sound.childStops {ds : List Datagram} {err : IoError} (hs : Sound h)
    (queue : Queued (h.parent = .finished (.ok ())) ds) :
    Sound { h with child := .finished (.error err), toChild := ds } where
  acks := hs.acks
  bound := hs.bound
  sending := hs.sending
  awaiting := hs.awaiting
  ended := hs.ended
  queue := queue
  flow hc _ := nomatch hc
  adopted hc := nomatch hc

theorem take_drop_cons {α : Type} {l rest : List α} {a : α} {n : Nat} (h : a :: rest = l.drop n) :
    n < l.length ∧ rest = l.drop (n + 1) ∧ l.take (n + 1) = l.take n ++ [a] := by
  have hn : n < l.length := by
    have := congrArg List.length h
    simp only [List.length_cons, List.length_drop] at this
    omega
  rw [List.drop_eq_getElem_cons hn] at h
  obtain ⟨rfl, rfl⟩ := List.cons.inj h
  exact ⟨hn, rfl, List.take_succ_eq_append_getElem hn⟩

theorem Sound.sends {session : FrozenSession} {rest : List FrozenSession} {payload : Bytes}
    (hs : Sound h) (parent : h.parent = .sending (session :: rest))
    (text : json.toVec session.snapshot = .ok payload) :
    Sound { h with
      parent := .awaiting rest, toChild := h.toChild ++ [⟨payload, some session.clientFd⟩] } := by
  obtain ⟨hlt, hrest, htake⟩ := take_drop_cons (hs.sending parent)
  have hopen : h.parent ≠ .finished (.ok ()) := by rw [parent]; exact nofun
  exact
    { acks := hs.acks
      bound := hs.bound
      sending := fun hp => nomatch hp
      awaiting := fun hp => ⟨hlt, (Parent.awaiting.inj hp).symm.trans hrest⟩
      ended := fun hp => nomatch hp
      queue := hs.queue.append hopen (.session (received_ne_end text _) .nil)
      flow := by
        intro sessions n hc hn
        have hn : h.sent + 1 = n := Option.some.inj hn
        have hflow := hs.flow hc (by rw [onWire, parent])
        show sessions.map Prod.snd ++ (h.toChild ++ [_]).filterMap Datagram.fd = _
        rw [← hn, htake, List.filterMap_append, ← List.append_assoc, hflow, List.map_append]
        rfl
      adopted := fun hc => absurd (hs.adopted hc).1 hopen }

theorem Sound.sent_all (hs : Sound h) (parent : h.parent = .sending []) :
    h.sent = h.batch.frozen.length :=
  Nat.le_antisymm hs.bound (List.drop_eq_nil_iff.mp (hs.sending parent).symm)

theorem Sound.ends {q : List Datagram} (hs : Sound h) (parent : h.parent = .sending [])
    (queue : Queued (Parent.finished (.ok ()) = .finished (.ok ())) q)
    (hq : q.filterMap Datagram.fd = h.toChild.filterMap Datagram.fd) :
    Sound { h with parent := .finished (.ok ()), toChild := q } := by
  have hsent := hs.sent_all parent
  exact
    { acks := hs.acks
      bound := hs.bound
      sending := fun hp => nomatch hp
      awaiting := fun hp => nomatch hp
      ended := fun _ => hsent
      queue := queue
      flow := by
        intro sessions n hc hn
        have hn : h.batch.frozen.length = n := Option.some.inj hn
        show sessions.map Prod.snd ++ q.filterMap Datagram.fd = _
        rw [hq, ← hn, ← hsent]
        exact hs.flow hc (by rw [onWire, parent])
      adopted := fun hc => by
        have hp := (hs.adopted hc).1
        rw [parent] at hp
        exact nomatch hp }

theorem Sound.acked {rest : List FrozenSession} {acks : List Bytes} (hs : Sound h)
    (parent : h.parent = .awaiting rest) (ack : h.toParent = ackMarker :: acks) :
    Sound { h with parent := .sending rest, sent := h.sent + 1, toParent := acks } := by
  obtain ⟨hlt, hrest⟩ := hs.awaiting parent
  have hopen : h.parent ≠ .finished (.ok ()) := by rw [parent]; exact nofun
  exact
    { acks := fun a ha => hs.acks a (ack ▸ List.mem_cons_of_mem _ ha)
      bound := hlt
      sending := fun hp => (Parent.sending.inj hp).symm.trans hrest
      awaiting := fun hp => nomatch hp
      ended := fun hp => nomatch hp
      queue := hs.queue.mono (fun hp => absurd hp hopen)
      flow := fun hc hn => hs.flow hc (by rw [onWire, parent]; exact hn)
      adopted := fun hc => absurd (hs.adopted hc).1 hopen }

theorem Sound.adopts {sessions : Received} {d : Datagram} {ds : List Datagram} (hs : Sound h)
    (child : h.child = .receiving sessions) (queue : h.toChild = d :: ds)
    (ended : d.received = endMarker) :
    Sound { h with child := .finished (.ok sessions), toChild := ds } := by
  obtain ⟨hp, rfl, rfl⟩ := (queue ▸ hs.queue).head_end ended
  exact
    { hs with
      queue := .nil
      flow := fun hc _ => nomatch hc
      adopted := by
        intro sessions' hc
        refine ⟨hp, ?_⟩
        have hflow := hs.flow child (by rw [onWire, hp])
        rw [queue, List.take_length] at hflow
        rw [← Except.ok.inj (Child.finished.inj hc)]
        exact (List.append_nil _).symm.trans hflow }

theorem Sound.accepts {sessions : Received} {d : Datagram} {ds : List Datagram}
    {snapshot : SessionSnapshot} {clientFd : Int} (hs : Sound h)
    (child : h.child = .receiving sessions) (queue : h.toChild = d :: ds)
    (fd : d.fd = some clientFd) :
    Sound { h with
      child := .receiving (sessions ++ [(snapshot, clientFd)])
      toChild := ds, toParent := h.toParent ++ [ackMarker] } :=
  { hs with
    acks := by
      intro ack hack
      rcases List.mem_append.mp hack with hack | hack
      · exact hs.acks ack hack
      · exact List.mem_singleton.mp hack
    queue := (queue ▸ hs.queue).tail
    flow := by
      intro sessions' n hc hn
      have hflow := hs.flow child hn
      rw [queue, List.filterMap_cons_some fd] at hflow
      rw [← Child.receiving.inj hc, List.map_append, List.append_assoc]
      exact hflow
    adopted := fun hc => nomatch hc }

theorem Sound.step (hs : Sound h) (hstep : HandoffStep json h e h') : Sound h' := by
  cases hstep with
  | sends parent text => exact hs.sends parent text
  | ends parent =>
      have hopen : h.parent ≠ .finished (.ok ()) := by rw [parent]; exact nofun
      refine hs.ends parent (hs.queue.append hopen (.last rfl)) ?_
      rw [List.filterMap_append]
      exact List.append_nil _
  | endLost parent => exact hs.ends parent (hs.queue.mono (fun _ => rfl)) rfl
  | sendFails parent fails =>
      exact hs.parentStops (by rw [parent]; rfl) rfl (List.Subset.refl _)
  | acked parent ack => exact hs.acked parent ack
  | badAck parent bad ne =>
      exact hs.parentStops (by rw [parent]; rfl) rfl (bad ▸ List.subset_cons_self _ _)
  | ackFails parent =>
      exact hs.parentStops (by rw [parent]; rfl) rfl (List.Subset.refl _)
  | dies parent =>
      refine hs.parentStops ?_ rfl (List.Subset.refl _)
      rcases parent with parent | parent
      · rw [parent]; rfl
      · rw [parent]; rfl
  | adopts child queue ended => exact hs.adopts child queue ended
  | accepts child queue more fd acceptable => exact hs.accepts child queue fd
  | rejects child queue unacceptable => exact hs.childStops (queue ▸ hs.queue).tail
  | recvFails child => exact hs.childStops hs.queue

/-! ## Sessions without an owner -/

namespace Parent

def failed : Parent → Bool
  | .finished (.error _) => true
  | _ => false

def done : Parent → Bool
  | .finished (.ok _) => true
  | _ => false

def isDead : Parent → Bool
  | .dead => true
  | _ => false

end Parent

def Child.failed : Child → Bool
  | .finished (.error _) => true
  | _ => false

/-- Some session will have no owner: the parent will not resume the first one, and
the child will adopt none. -/
def Spoilt (h : Handoff) : Prop :=
  h.batch.frozen ≠ [] ∧
    (h.parent.isDead = true ∨ (h.parent.failed = true ∧ h.sent ≠ 0) ∨
      (h.child.failed = true ∧ h.sent ≠ 0) ∨
      (h.parent.done = true ∧ h.child.waiting = true ∧ Datagram.endOfSessions ∉ h.toChild))

/-- The step is no fault, or one that comes early enough: before an ack is counted. -/
def Harmless (json : Json) (h : Handoff) : HandoffEvent → Prop
  | .parentSends io => h.sendable json io = true ∨ h.sent = 0
  | .endLost => h.batch.frozen = []
  | .parentReceives => h.child.failed = false
  | .parentFails _ => h.sent = 0
  | .parentDies => h.batch.frozen = []
  | .childReceives fd ack =>
      (∀ d ∈ h.toChild.head?, d.acceptable json fd ack = true) ∨ h.sent = 0
  | .childFails _ => h.sent = 0

instance Harmless.decidable : ∀ e, Decidable (Harmless json h e)
  | .parentSends _ | .childReceives _ _ => inferInstanceAs (Decidable (_ ∨ _))
  | .endLost | .parentDies | .parentReceives | .parentFails _ | .childFails _ =>
      inferInstanceAs (Decidable (_ = _))

theorem Sound.frozen_ne_nil (hs : Sound h) (hsent : h.sent ≠ 0) : h.batch.frozen ≠ [] := by
  intro hnil
  have hbound := hs.bound
  rw [hnil, List.length_nil] at hbound
  omega

/-- What is spoilt while the parent is at work. -/
theorem spoilt_active (active : h.parent.active = true) :
    Spoilt h ↔ h.batch.frozen ≠ [] ∧ h.child.failed = true ∧ h.sent ≠ 0 := by
  obtain ⟨batch, parent, sent, toChild, toParent, child⟩ := h
  cases parent with
  | sending => simp [Spoilt, Parent.isDead, Parent.failed, Parent.done]
  | awaiting => simp [Spoilt, Parent.isDead, Parent.failed, Parent.done]
  | finished => exact nomatch active
  | dead => exact nomatch active

theorem spoilt_parentError {acks : List Bytes} {err : IoError} (hs : Sound h)
    (active : h.parent.active = true) :
    Spoilt { h with parent := .finished (.error err), toParent := acks } ↔
      Spoilt h ∨ ¬ h.sent = 0 := by
  rw [spoilt_active active]
  have hne := hs.frozen_ne_nil
  simp only [Spoilt, Parent.isDead, Parent.failed, Parent.done]
  constructor
  · rintro ⟨-, h | ⟨-, hsent⟩ | ⟨-, hsent⟩ | ⟨h, -⟩⟩
    · exact nomatch h
    · exact Or.inr hsent
    · exact Or.inr hsent
    · exact nomatch h
  · rintro (⟨-, -, hsent⟩ | hsent)
    · exact ⟨hne hsent, Or.inr (Or.inl ⟨trivial, hsent⟩)⟩
    · exact ⟨hne hsent, Or.inr (Or.inl ⟨trivial, hsent⟩)⟩

theorem spoilt_childError {sessions : Received} {ds : List Datagram} {err : IoError} (hs : Sound h)
    (child : h.child = .receiving sessions) :
    Spoilt { h with child := .finished (.error err), toChild := ds } ↔
      Spoilt h ∨ ¬ h.sent = 0 := by
  have hdone : h.parent.done = true → h.batch.frozen ≠ [] → h.sent ≠ 0 := by
    intro hdone hne hsent
    have hparent : h.parent = .finished (.ok ()) := by
      unfold Parent.done at hdone
      split at hdone
      · assumption
      · exact nomatch hdone
    exact hne (List.length_eq_zero_iff.mp ((hs.ended hparent).symm.trans hsent))
  simp only [Spoilt, child, Child.failed, Child.waiting]
  constructor
  · rintro ⟨hne, hdead | hfailed | ⟨-, hsent⟩ | ⟨-, h, -⟩⟩
    · exact Or.inl ⟨hne, Or.inl hdead⟩
    · exact Or.inl ⟨hne, Or.inr (Or.inl hfailed)⟩
    · exact Or.inr hsent
    · exact nomatch h
  · rintro (⟨hne, hdead | hfailed | ⟨h, -⟩ | ⟨hd, -⟩⟩ | hsent)
    · exact ⟨hne, Or.inl hdead⟩
    · exact ⟨hne, Or.inr (Or.inl hfailed)⟩
    · exact nomatch h
    · exact ⟨hne, Or.inr (Or.inr (Or.inl ⟨trivial, hdone hd hne⟩))⟩
    · exact ⟨hs.frozen_ne_nil hsent, Or.inr (Or.inr (Or.inl ⟨trivial, hsent⟩))⟩

/-- The child has not adopted anything while the parent is at work. -/
theorem Sound.child_failed_or_waiting (hs : Sound h) (active : h.parent.active = true) :
    h.child.failed = true ∨ h.child.waiting = true := by
  cases hc : h.child with
  | receiving => exact Or.inr rfl
  | finished r =>
      cases r with
      | error => exact Or.inl rfl
      | ok =>
          rw [(hs.adopted hc).1] at active
          exact nomatch active

theorem spoilt_endLost (hs : Sound h) (parent : h.parent = .sending []) :
    Spoilt { h with parent := .finished (.ok ()) } ↔ Spoilt h ∨ ¬ h.batch.frozen = [] := by
  constructor
  · exact fun h => Or.inr h.1
  · intro h'
    have hne : h.batch.frozen ≠ [] := h'.elim (fun hspoilt => hspoilt.1) id
    refine ⟨hne, Or.inr (Or.inr ?_)⟩
    rcases hs.child_failed_or_waiting (by rw [parent]; rfl) with hfailed | hwaiting
    · refine Or.inl ⟨hfailed, fun hsent => hne ?_⟩
      exact List.length_eq_zero_iff.mp ((hs.sent_all parent).symm.trans hsent)
    · exact Or.inr ⟨rfl, hwaiting, hs.queue.not_mem_end (by rw [parent]; exact nofun)⟩

theorem spoilt_acked {rest : List FrozenSession} {acks : List Bytes} (hs : Sound h)
    (parent : h.parent = .awaiting rest) :
    Spoilt { h with parent := .sending rest, sent := h.sent + 1, toParent := acks } ↔
      Spoilt h ∨ ¬ h.child.failed = false := by
  have hne : h.batch.frozen ≠ [] := by
    intro hnil
    have hlt := (hs.awaiting parent).1
    rw [hnil] at hlt
    exact nomatch hlt
  rw [spoilt_active rfl, spoilt_active (by rw [parent]; rfl), Bool.not_eq_false]
  constructor
  · exact fun h => Or.inr h.2.1
  · rintro (⟨-, hfailed, -⟩ | hfailed)
    · exact ⟨hne, hfailed, Nat.succ_ne_zero _⟩
    · exact ⟨hne, hfailed, Nat.succ_ne_zero _⟩

theorem not_spoilt_adopts {sessions : Received} {d : Datagram} {ds : List Datagram} (hs : Sound h)
    (child : h.child = .receiving sessions) (queue : h.toChild = d :: ds)
    (ended : d.received = endMarker) :
    ¬ Spoilt h ∧ ¬ Spoilt { h with child := .finished (.ok sessions), toChild := ds } := by
  obtain ⟨hp, rfl, rfl⟩ := (queue ▸ hs.queue).head_end ended
  simp [Spoilt, hp, child, queue, Parent.isDead, Parent.failed, Parent.done, Child.failed,
    Child.waiting]

theorem spoilt_accepts {sessions sessions' : Received} {d : Datagram} {ds : List Datagram}
    {acks : List Bytes} (child : h.child = .receiving sessions) (queue : h.toChild = d :: ds)
    (more : d.received ≠ endMarker) :
    Spoilt { h with child := .receiving sessions', toChild := ds, toParent := acks } ↔
      Spoilt h := by
  have hd : Datagram.endOfSessions ≠ d := by
    rintro rfl
    exact more received_endOfSessions
  simp [Spoilt, child, queue, Child.failed, Child.waiting, hd]

/-- The steps that spoil a hand-off are the faults that are not harmless. -/
theorem spoilt_step (hs : Sound h) (hstep : HandoffStep json h e h') :
    Spoilt h' ↔ Spoilt h ∨ ¬ Harmless json h e := by
  cases hstep with
  | sends parent text =>
      have hsendable : h.sendable json .ok = true := by
        simp [sendable, parent, text, Except.isOk, Except.toBool]
      rw [spoilt_active rfl, spoilt_active (by rw [parent]; rfl)]
      exact ⟨Or.inl, fun h => h.resolve_right (fun hn => hn (Or.inl hsendable))⟩
  | ends parent =>
      have hsendable : h.sendable json .ok = true := by
        simp [sendable, parent]
      rw [spoilt_active (h := h) (by rw [parent]; rfl)]
      simp [Spoilt, Parent.isDead, Parent.failed, Parent.done, Harmless, hsendable]
  | endLost parent => exact spoilt_endLost hs parent
  | sendFails parent fails =>
      rw [show Harmless json h (.parentSends _) ↔ h.sent = 0 by simp [Harmless, fails]]
      exact spoilt_parentError hs (by rw [parent]; rfl)
  | acked parent ack => exact spoilt_acked hs parent
  | badAck parent bad ne => exact absurd (hs.acks _ (bad ▸ List.mem_cons_self)) ne
  | ackFails parent => exact spoilt_parentError hs (by rw [parent]; rfl)
  | dies parent =>
      constructor
      · exact fun h => Or.inr h.1
      · exact fun h => ⟨h.elim (fun hspoilt => hspoilt.1) id, Or.inl rfl⟩
  | adopts child queue ended =>
      obtain ⟨hno, hno'⟩ := not_spoilt_adopts hs child queue ended
      have hharmless : ∀ fd ack, Harmless json h (.childReceives fd ack) :=
        fun fd ack => Or.inl (by simp [queue, Datagram.acceptable, ended])
      exact ⟨fun h => absurd h hno', fun h => h.elim (absurd · hno) (absurd (hharmless _ _))⟩
  | accepts child queue more fd acceptable =>
      have hharmless : Harmless json h (.childReceives true .ok) :=
        Or.inl (by simpa [queue] using acceptable)
      rw [spoilt_accepts child queue more]
      exact ⟨Or.inl, fun h => h.resolve_right (not_not_intro hharmless)⟩
  | rejects child queue unacceptable =>
      rw [show Harmless json h (.childReceives _ _) ↔ h.sent = 0 by
        simp [Harmless, queue, unacceptable]]
      exact spoilt_childError hs child
  | recvFails child => exact spoilt_childError hs child

/-! ## Owners -/

/-- The client sockets that the child serves. -/
def Handoff.adoptedFds (h : Handoff) : List Int := h.adopted.map Prod.snd

/-- Every frozen session is adopted by the child or resumed by the parent, and not
both; those counted in `sent` are adopted. -/
def OneOwner (h : Handoff) : Prop :=
  (∀ session ∈ h.batch.frozen,
    (session ∈ h.resumed ∧ session.clientFd ∉ h.adoptedFds) ∨
      (session ∉ h.resumed ∧ session.clientFd ∈ h.adoptedFds)) ∧
    ∀ session ∈ h.batch.frozen.take h.sent, session.clientFd ∈ h.adoptedFds

/-- The child adopts nothing, or everything that the parent has handed over and so
does not resume. -/
theorem Sound.all_or_nothing (hs : Sound h) :
    h.adoptedFds = [] ∨
      h.resumed = [] ∧ h.adoptedFds = h.batch.frozen.map FrozenSession.clientFd := by
  unfold Handoff.adoptedFds Handoff.adopted
  split
  · next sessions hc =>
      obtain ⟨hp, hfds⟩ := hs.adopted hc
      exact Or.inr ⟨by rw [resumed, hp], hfds⟩
  · exact Or.inl rfl

theorem oneOwner_of_adoptedFds_nil (hnone : h.adoptedFds = []) :
    OneOwner h ↔ (∀ session ∈ h.batch.frozen, session ∈ h.resumed) ∧
      h.batch.frozen.take h.sent = [] := by
  simp only [OneOwner, hnone, List.not_mem_nil, not_false_eq_true, and_true, and_false, or_false,
    List.eq_nil_iff_forall_not_mem, imp_false]

/-- Where nobody has anything, only an empty hand-off is in order. -/
theorem oneOwner_of_nobody (hfds : h.adoptedFds = []) (hresumed : h.resumed = []) :
    OneOwner h ↔ h.batch.frozen = [] := by
  rw [oneOwner_of_adoptedFds_nil hfds, hresumed]
  constructor
  · intro h
    exact List.eq_nil_iff_forall_not_mem.mpr
      (fun session hmem => List.not_mem_nil (h.1 session hmem))
  · intro hnil
    rw [hnil]
    exact ⟨fun session hmem => hmem, List.take_nil⟩

/-- A hand-off that is over has given every session its owner exactly when it is not
spoilt. -/
theorem Sound.oneOwner (hs : Sound h) (hend : h.Finished) : OneOwner h ↔ ¬ Spoilt h := by
  cases hc : h.child with
  | receiving sessions =>
      have hwaiting := hend.2
      rw [hc] at hwaiting
      exact nomatch hwaiting
  | finished r =>
      cases r with
      | ok sessions =>
          obtain ⟨hp, hfds⟩ := hs.adopted hc
          have hadopted : h.adoptedFds = h.batch.frozen.map FrozenSession.clientFd := by
            rw [Handoff.adoptedFds, Handoff.adopted, hc]
            exact hfds
          refine ⟨fun _ => ?_, fun _ => ⟨fun session hmem => Or.inr ⟨?_, ?_⟩, fun session hmem => ?_⟩⟩
          · simp [Spoilt, hp, hc, Parent.isDead, Parent.failed, Child.failed, Child.waiting]
          · rw [resumed, hp]
            exact List.not_mem_nil
          · rw [hadopted]
            exact List.mem_map_of_mem hmem
          · rw [hadopted]
            exact List.mem_map_of_mem (List.mem_of_mem_take hmem)
      | error err =>
          have hfds : h.adoptedFds = [] := by rw [Handoff.adoptedFds, Handoff.adopted, hc]; rfl
          have hactive := hend.1
          cases hp : h.parent with
          | sending rest => rw [hp] at hactive; exact nomatch hactive
          | awaiting rest => rw [hp] at hactive; exact nomatch hactive
          | dead =>
              rw [oneOwner_of_nobody hfds (by rw [resumed, hp]), iff_not_comm]
              simp [Spoilt, hp, Parent.isDead]
          | finished r =>
              cases r with
              | ok u =>
                  rw [oneOwner_of_nobody hfds (by rw [resumed, hp]), iff_not_comm]
                  simp [Spoilt, hp, hc, Parent.isDead, Parent.failed, Child.failed, Child.waiting,
                    hs.ended hp]
              | error err =>
                  have hspoilt : Spoilt h ↔ h.sent ≠ 0 := by
                    simp only [Spoilt, hp, hc, Parent.isDead, Parent.failed, Parent.done,
                      Child.failed, Bool.false_eq_true, true_and, false_and, false_or, or_false,
                      or_self, and_iff_right_iff_imp]
                    exact hs.frozen_ne_nil
                  have hresumed : h.resumed = h.batch.frozen.drop h.sent := by
                    rw [resumed, hp]
                    exact h.batch.resumeSkipping_eq h.sent
                  rw [hspoilt, not_not, oneOwner_of_adoptedFds_nil hfds, hresumed]
                  constructor
                  · intro h'
                    by_contra hsent
                    exact (List.take_eq_nil_iff.mp h'.2).elim hsent (hs.frozen_ne_nil hsent)
                  · intro hsent
                    rw [hsent]
                    exact ⟨fun session hmem => hmem, List.take_zero⟩

/-- A hand-off that is over has left every session with one owner exactly when each
of its faults was harmless. -/
theorem oneOwner_iff {batch : FreezeBatch} {es : List HandoffEvent} {out : List Unit}
    (hrun : (handoffMachine json).run (Handoff.start batch) es = some (h, out))
    (hend : h.Finished) :
    OneOwner h ↔ (handoffMachine json).Along (Harmless json) (Handoff.start batch) es := by
  have hstep : ∀ h e h' o, (handoffMachine json).step h e = some (h', o) →
      HandoffStep json h e h' := by
    intro h e h' o hs
    obtain ⟨h'', hs', heq⟩ := Option.map_eq_some_iff.mp hs
    exact (Prod.mk.inj heq).1 ▸ handoffStep_of_step hs'
  have hinv : ∀ h e h' o, Sound h → (handoffMachine json).step h e = some (h', o) → Sound h' :=
    fun h e h' o hs hs' => hs.step (hstep h e h' o hs')
  have hstart : ¬ Spoilt (Handoff.start batch) := by
    simp [Spoilt, Handoff.start, Parent.isDead, Parent.failed, Parent.done]
  rw [(Machine.run_induction hinv (.start batch) hrun).oneOwner hend,
    Machine.along_iff hinv (fun h e h' o hs hs' => spoilt_step hs (hstep h e h' o hs'))
      (.start batch) hrun]
  exact ⟨fun h => h.2, fun h => ⟨hstart, h⟩⟩

namespace ReferenceCodec

theorem head_literal {s : String} {a : Char} {l : List Char} (h : s = String.ofList (a :: l)) :
    s.toList.head? = some a := by
  rw [h, String.toList_ofList]
  rfl

theorem head_append {s : String} {a : Char} (h : s.toList.head? = some a) (t : String) :
    (s ++ t).toList.head? = some a := by
  rw [String.toList_append, List.head?_append, h]
  rfl

/-- A text that starts with a brace does so in bytes. -/
theorem head_bytes {s : String} (h : s.toList.head? = some '\x7b') :
    (s.toList.map (fun c => c.toNat.toUInt8)).head? = some 0x7b := by
  rw [List.head?_map, h]
  rfl

/-- The text of the snapshot of an idle session. -/
def snapshotText : Bytes :=
  ("\x7b\"version\":4,\"connect_raw\":[16,13,0,4,77,81,84,84,4,0,0,60,0,1,99],\"client_buf\":[]," ++
    "\"broker_buf\":[],\"windows\":[],\"subscriptions\":[],\"buffered\":[]\x7d").toList.map
      (fun c => c.toNat.toUInt8)

theorem snapshotText_head : snapshotText.head? = some 0x7b :=
  head_bytes (head_append (head_literal rfl) _)

/-- Serialisation, at that snapshot. -/
def snapshotJson : Json where
  toVec s := if s = (session.freeze 7).snapshot then .ok snapshotText
    else .error (invalidData "another snapshot")
  fromSlice b := if b = snapshotText then .ok (session.freeze 7).snapshot
    else .error (invalidData "another text")
  toVec_object h := by
    split at h
    · rw [← Except.ok.inj h]
      exact snapshotText_head
    · exact nomatch h

/-- Two idle sessions, frozen. -/
def batch : FreezeBatch where
  frozen := [session.freeze 7, { session with id := 1 }.freeze 8]
  resumes := [0, 1]
  resumes_eq := rfl
  ids_nodup := by decide
  fds_nodup := by decide

/-- A session is sent and acknowledged. -/
def handsOver : List HandoffEvent := [.parentSends .ok, .childReceives true .ok, .parentReceives]

/-- Both sessions and END. -/
def handsOverAll : List HandoffEvent :=
  handsOver ++ handsOver ++ [.parentSends .ok, .childReceives true .ok]

/-- The second datagram cannot be sent (a snapshot may be too large for one), and the
child's wait for it times out. -/
def handsOverOne : List HandoffEvent :=
  handsOver ++ [.parentSends (.failed "Message too long"), .childFails "timed out"]

/-- What is to be seen of a hand-off from outside. -/
structure Owners where
  parentActive : Bool
  childWaiting : Bool
  sent : Nat
  frozen : List Int
  resumed : List Int
  adopted : List Int
deriving DecidableEq

def owners (h : Handoff) : Owners where
  parentActive := h.parent.active
  childWaiting := h.child.waiting
  sent := h.sent
  frozen := h.batch.frozen.map FrozenSession.clientFd
  resumed := h.resumed.map FrozenSession.clientFd
  adopted := h.adoptedFds

end ReferenceCodec

open ReferenceCodec in
/-- Without a fault, the child adopts both sessions. -/
theorem oneOwner_handed_over : ∃ h out,
    (handoffMachine snapshotJson).run (Handoff.start batch) handsOverAll = some (h, out) ∧
      OneOwner h := by
  have howners : ((handoffMachine snapshotJson).run (Handoff.start batch) handsOverAll).map
      (fun r => owners r.1) = some ⟨false, false, 2, [7, 8], [], [7, 8]⟩ := by decide +kernel
  obtain ⟨⟨h, out⟩, hrun, ho⟩ := Option.map_eq_some_iff.mp howners
  obtain ⟨hparent, hchild, -⟩ := Owners.mk.inj ho
  refine ⟨h, out, hrun, (oneOwner_iff hrun ⟨hparent, hchild⟩).mpr ?_⟩
  decide +kernel

open ReferenceCodec in
/-- The parent resumes the second session; the child, which has failed, drops the
first one, which is counted in `sent`.  Its client is served by nobody. -/
theorem handoff_drops_sent : ∃ h out,
    (handoffMachine snapshotJson).run (Handoff.start batch) handsOverOne = some (h, out) ∧
      owners h = ⟨false, false, 1, [7, 8], [8], []⟩ ∧ ¬ OneOwner h := by
  have howners : ((handoffMachine snapshotJson).run (Handoff.start batch) handsOverOne).map
      (fun r => owners r.1) = some ⟨false, false, 1, [7, 8], [8], []⟩ := by decide +kernel
  obtain ⟨⟨h, out⟩, hrun, ho⟩ := Option.map_eq_some_iff.mp howners
  refine ⟨h, out, hrun, ho, fun howner => ?_⟩
  obtain ⟨-, -, hsent, hfrozen, -, hadopted⟩ := Owners.mk.inj ho
  obtain ⟨f, rest, hcons, -, -⟩ := List.map_eq_cons_iff.mp hfrozen
  have hf : f ∈ h.batch.frozen.take h.sent := by
    rw [hsent, hcons]
    exact List.mem_cons_self
  have hnone := howner.2 f hf
  rw [hadopted] at hnone
  exact nomatch hnone

end TrafficDirector
