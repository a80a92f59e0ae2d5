/-
# `TrafficDirector.Migrate.Contents` — what a hand-off delivers

`Migrate.Ownership` follows the client sockets of a hand-off, for any serialisation.  Where
`serde_json` writes and reads the snapshots of the batch as it should (`Json.Writes`), they
can be followed too.  Whatever happens to the hand-off, the child adopts every session as
it was frozen, or none, and none if one of the snapshots is too large (`adopted_exactly`).

A calm hand-off is one without a fault of the channel or the processes; `sendmsg` takes
every datagram, also one for which the default `SO_SNDBUF` has no room.  It comes to the
first session that is too large, and there it fails: that session and those behind it are
resumed, those in front of it are served by nobody (`calm_handoff`).
-/
import Mathlib.Data.List.TakeWhile
import TrafficDirector.Migrate.Ownership
import TrafficDirector.Migrate.Snapshot

namespace TrafficDirector

open Handoff

/-- A session as the child is to get it. -/
def FrozenSession.handed (f : FrozenSession) : SessionSnapshot × Int := (f.snapshot, f.clientFd)

/-- What the parent sends of a session. -/
def FrozenSession.datagram (f : FrozenSession) : Datagram := ⟨f.snapshot.text, some f.clientFd⟩

/-- The text fits into the receive buffer. -/
def FrozenSession.fits (f : FrozenSession) : Bool := f.snapshot.size ≤ recvLen

variable {json : Json} {h h' : Handoff} {e : HandoffEvent} {batch : FreezeBatch}
  {f : FrozenSession}

/-! ## One datagram -/

theorem fits_iff_payload : f.fits = true ↔ f.datagram.payload.length ≤ recvLen := by
  rw [show f.datagram.payload = f.snapshot.text from rfl, f.snapshot.length_text]
  exact decide_eq_true_iff

theorem fromSlice_fits (hjson : json.Writes f.snapshot) (h : f.fits = true) :
    json.fromSlice f.datagram.received = .ok f.snapshot := by
  have hwhole : f.datagram.received = f.snapshot.text := List.take_of_length_le (fits_iff_payload.mp h)
  rw [hwhole]
  exact hjson.fromSlice

/-- A snapshot that does not fit loses its end, and with it its meaning. -/
theorem fromSlice_too_large (hjson : json.Writes f.snapshot) (h : f.fits = false) :
    ∃ err, json.fromSlice f.datagram.received = .error err := by
  have hlong : recvLen < f.snapshot.text.length := by
    refine Nat.lt_of_not_le (fun hle => ?_)
    cases h.symm.trans (fits_iff_payload.mpr hle)
  exact hjson.cut recvLen hlong

theorem datagram_ne_end (f : FrozenSession) : f.datagram.received ≠ endMarker :=
  f.snapshot.text_ne_endMarker recvLen

/-- What the child has accepted is what was sent, and has fitted. -/
theorem fits_of_fromSlice {s : SessionSnapshot} (hjson : json.Writes f.snapshot)
    (h : json.fromSlice f.datagram.received = .ok s) : f.fits = true ∧ s = f.snapshot := by
  cases hfits : f.fits with
  | true => exact ⟨rfl, Except.ok.inj (h.symm.trans (fromSlice_fits hjson hfits))⟩
  | false =>
      obtain ⟨err, herr⟩ := fromSlice_too_large hjson hfits
      cases herr.symm.trans h

/-! ## Any hand-off -/

/-- What the child accepts is what it reads from the datagram. -/
theorem accepts_inv {sessions sessions' : Received} {d : Datagram}
    {ds : List Datagram} {fd : Bool} {ack : Sent}
    (hstep : h.step json (.childReceives fd ack) = some h') (child : h.child = .receiving sessions)
    (queue : h.toChild = d :: ds) (hchild : h'.child = .receiving sessions') :
    ∃ snapshot clientFd, json.fromSlice d.received = .ok snapshot ∧ d.fd = some clientFd ∧
      sessions' = sessions ++ [(snapshot, clientFd)] := by
  simp only [Handoff.step, child, queue, Option.some.injEq] at hstep
  rw [← hstep] at hchild
  unfold receiveDatagram at hchild
  split at hchild
  · cases hchild
  · split at hchild
    · cases hchild
    · next snapshot hslice =>
        split at hchild
        · cases hchild
        · next clientFd hfd =>
            cases ack with
            | failed e => cases hchild
            | ok =>
                refine ⟨snapshot, clientFd, hslice, ?_, (Child.receiving.inj hchild).symm⟩
                cases fd with
                | true => exact hfd
                | false => cases hfd

/-- The sessions of a datagram queue; END has none. -/
def withFd (ds : List Datagram) : List Datagram := ds.filter (fun d => d.fd.isSome)

/-- The batch, cut where the child and the parent are: what has arrived fits, what is on
the way is as it was sent. -/
def HandedOver (h : Handoff) (sessions : Received) : Prop :=
  ∃ got onWay rest, h.batch.frozen = got ++ onWay ++ rest ∧
    sessions = got.map FrozenSession.handed ∧ (∀ f ∈ got, f.fits = true) ∧
    withFd h.toChild = onWay.map FrozenSession.datagram ∧
    ∀ n, h.onWire = some n → n = (got ++ onWay).length

theorem HandedOver.mono {sessions : Received} (ha : HandedOver h sessions) (batch : h'.batch = h.batch)
    (queue : withFd h'.toChild = withFd h.toChild)
    (onWire : ∀ n, h'.onWire = some n → h.onWire = some n) : HandedOver h' sessions := by
  obtain ⟨got, onWay, rest, hfrozen, hsessions, hfits, hqueue, hn⟩ := ha
  exact ⟨got, onWay, rest, batch ▸ hfrozen, hsessions, hfits, queue.trans hqueue,
    fun n h => hn n (onWire n h)⟩

theorem HandedOver.sends {sessions : Received} {session : FrozenSession} {rest : List FrozenSession}
    (ha : HandedOver h sessions) (hs : Sound h) (parent : h.parent = .sending (session :: rest)) :
    HandedOver { h with
      parent := .awaiting rest, toChild := h.toChild ++ [session.datagram] } sessions := by
  obtain ⟨got, onWay, left, hfrozen, hsessions, hfits, hqueue, hn⟩ := ha
  have hsent : h.sent = (got ++ onWay).length := hn h.sent (by rw [onWire, parent])
  have hleft : session :: rest = left := by
    rw [hs.sending parent, hfrozen, hsent, List.drop_left]
  refine ⟨got, onWay ++ [session], rest, ?_, hsessions, hfits, ?_, ?_⟩
  · show h.batch.frozen = _
    rw [hfrozen, ← hleft, List.append_assoc, List.append_assoc, List.append_assoc]
    rfl
  · show withFd (h.toChild ++ [session.datagram]) = _
    rw [withFd, List.filter_append, List.map_append, ← hqueue]
    rfl
  · intro n hwire
    obtain rfl : h.sent + 1 = n := Option.some.inj hwire
    rw [hsent, ← List.append_assoc]
    exact (@List.length_append _ _ [session]).symm

theorem HandedOver.accepts {sessions : Received} {d : Datagram} {ds : List Datagram}
    {snapshot : SessionSnapshot} {clientFd : Int} {acks : List Bytes} (ha : HandedOver h sessions)
    (hjson : ∀ f ∈ h.batch.frozen, json.Writes f.snapshot) (queue : h.toChild = d :: ds)
    (fd : d.fd = some clientFd) (text : json.fromSlice d.received = .ok snapshot) :
    HandedOver { h with
      child := .receiving (sessions ++ [(snapshot, clientFd)]), toChild := ds, toParent := acks }
      (sessions ++ [(snapshot, clientFd)]) := by
  obtain ⟨got, onWay, rest, hfrozen, hsessions, hfits, hqueue, hn⟩ := ha
  rw [queue, withFd, List.filter_cons_of_pos (by rw [fd]; rfl)] at hqueue
  obtain ⟨f, later, rfl, rfl, hlater⟩ := List.map_eq_cons_iff.mp hqueue.symm
  have hmem : f ∈ h.batch.frozen := by
    rw [hfrozen]
    exact List.mem_append_left rest (List.mem_append_right got List.mem_cons_self)
  obtain ⟨hfit, rfl⟩ := fits_of_fromSlice (hjson f hmem) text
  obtain rfl : f.clientFd = clientFd := Option.some.inj fd
  refine ⟨got ++ [f], later, rest, ?_, ?_, ?_, hlater.symm, ?_⟩
  · rw [List.append_assoc got [f] later]
    exact hfrozen
  · rw [hsessions, List.map_append]
    rfl
  · intro g hg
    rcases List.mem_append.mp hg with hg | hg
    · exact hfits g hg
    · rw [List.mem_singleton.mp hg]
      exact hfit
  · intro n hwire
    rw [hn n hwire, List.append_assoc got [f] later]
    rfl

/-- When END is next, everything has arrived. -/
theorem HandedOver.adopts {sessions : Received} {d : Datagram} {ds : List Datagram}
    (ha : HandedOver h sessions) (hs : Sound h) (queue : h.toChild = d :: ds)
    (ended : d.received = endMarker) :
    sessions = h.batch.frozen.map FrozenSession.handed ∧ ∀ f ∈ h.batch.frozen, f.fits = true := by
  obtain ⟨hp, rfl, rfl⟩ := (queue ▸ hs.queue).head_end ended
  obtain ⟨got, onWay, rest, hfrozen, hsessions, hfits, hqueue, hn⟩ := ha
  rw [queue] at hqueue
  obtain rfl := List.map_eq_nil_iff.mp hqueue.symm
  have hall := hn h.batch.frozen.length (by rw [onWire, hp])
  rw [hfrozen, List.append_nil, List.length_append] at hall
  obtain rfl := List.length_eq_zero_iff.mp (Nat.add_eq_left.mp hall)
  rw [List.append_nil, List.append_nil] at hfrozen
  rw [hfrozen]
  exact ⟨hsessions, hfits⟩

/-- What is known of a hand-off of this batch, at every point. -/
structure Faithful (batch : FreezeBatch) (h : Handoff) : Prop where
  same : h.batch = batch
  sound : Sound h
  arrived : ∀ {sessions}, h.child = .receiving sessions → HandedOver h sessions
  adopted : ∀ {sessions}, h.child = .finished (.ok sessions) →
    sessions = h.batch.frozen.map FrozenSession.handed ∧ ∀ f ∈ h.batch.frozen, f.fits = true

theorem Faithful.start (batch : FreezeBatch) : Faithful batch (Handoff.start batch) where
  same := rfl
  sound := .start batch
  arrived hc := by
    obtain rfl := Child.receiving.inj hc
    refine ⟨[], [], batch.frozen, rfl, rfl, fun f hf => absurd hf List.not_mem_nil, rfl, ?_⟩
    intro n hn
    exact (Option.some.inj hn).symm
  adopted hc := by cases hc

/-- The parent's steps, but for sending a session. -/
theorem Faithful.parent {p : Parent} {n : Nat} {q : List Datagram} {acks : List Bytes}
    (hx : Faithful batch h)
    (sound : Sound { h with parent := p, sent := n, toChild := q, toParent := acks })
    (queue : withFd q = withFd h.toChild)
    (onWire : ∀ m, { h with parent := p, sent := n, toChild := q, toParent := acks }.onWire = some m →
      h.onWire = some m) :
    Faithful batch { h with parent := p, sent := n, toChild := q, toParent := acks } where
  same := hx.same
  sound := sound
  arrived hc := (hx.arrived hc).mono rfl queue onWire
  adopted hc := hx.adopted hc

theorem Faithful.childFails {err : IoError} {q : List Datagram} (hx : Faithful batch h)
    (sound : Sound { h with child := .finished (.error err), toChild := q }) :
    Faithful batch { h with child := .finished (.error err), toChild := q } where
  same := hx.same
  sound := sound
  arrived hc := by cases hc
  adopted hc := by cases hc

theorem Faithful.step (hjson : ∀ f ∈ batch.frozen, json.Writes f.snapshot)
    (hx : Faithful batch h) (hstep : h.step json e = some h') : Faithful batch h' := by
  obtain rfl := hx.same
  have hact := handoffStep_of_step hstep
  have hs' := hx.sound.step hact
  cases hact with
  | @sends session rest payload parent text =>
      have hmem : session ∈ h.batch.frozen := by
        have hrest := hx.sound.sending parent
        exact List.mem_of_mem_drop (hrest ▸ List.mem_cons_self)
      obtain rfl := Except.ok.inj (text.symm.trans (hjson session hmem).toVec)
      exact
        { same := hx.same
          sound := hs'
          arrived := fun hc => (hx.arrived hc).sends hx.sound parent
          adopted := fun hc => hx.adopted hc }
  | ends parent =>
      refine hx.parent hs' ?_ ?_
      · rw [withFd, List.filter_append]
        exact List.append_nil _
      · intro m hm
        rw [onWire, parent, hx.sound.sent_all parent]
        exact hm
  | endLost parent =>
      refine hx.parent hs' rfl ?_
      intro m hm
      rw [onWire, parent, hx.sound.sent_all parent]
      exact hm
  | sendFails parent fails => exact hx.parent hs' rfl (fun m hm => by cases hm)
  | acked parent ack =>
      refine hx.parent hs' rfl ?_
      intro m hm
      rw [onWire, parent]
      exact hm
  | badAck parent bad ne => exact hx.parent hs' rfl (fun m hm => by cases hm)
  | ackFails parent => exact hx.parent hs' rfl (fun m hm => by cases hm)
  | dies parent => exact hx.parent hs' rfl (fun m hm => by cases hm)
  | adopts child queue ended =>
      exact
        { same := hx.same
          sound := hs'
          arrived := fun hc => by cases hc
          adopted := fun hc => by
            obtain rfl := Except.ok.inj (Child.finished.inj hc)
            exact (hx.arrived child).adopts hx.sound queue ended }
  | accepts child queue more fd acceptable =>
      obtain ⟨snapshot, clientFd, text, hfd, hsessions⟩ := accepts_inv hstep child queue rfl
      rw [hsessions] at hs' ⊢
      exact
        { same := hx.same
          sound := hs'
          arrived := fun hc => by
            obtain rfl := Child.receiving.inj hc
            exact (hx.arrived child).accepts hjson queue hfd text
          adopted := fun hc => by cases hc }
  | rejects child queue unacceptable => exact hx.childFails hs'
  | recvFails child => exact hx.childFails hs'

theorem faithful_of_run {es : List HandoffEvent} {out : List Unit}
    (hjson : ∀ f ∈ batch.frozen, json.Writes f.snapshot)
    (hrun : (handoffMachine json).run (Handoff.start batch) es = some (h, out)) :
    Faithful batch h := by
  refine Machine.run_induction ?_ (.start batch) hrun
  intro h e h' o hx hs
  obtain ⟨h'', hs', heq⟩ := Option.map_eq_some_iff.mp hs
  exact (Prod.mk.inj heq).1 ▸ hx.step hjson hs'

/-- Whatever happens to a hand-off, the child adopts every session as it was frozen, in
the order of the batch, or it adopts none; all of them only if each one fits into a
datagram, and then the parent resumes none. -/
theorem adopted_exactly {es : List HandoffEvent} {out : List Unit}
    (hjson : ∀ f ∈ batch.frozen, json.Writes f.snapshot)
    (hrun : (handoffMachine json).run (Handoff.start batch) es = some (h, out)) :
    h.adopted = [] ∨
      h.adopted = batch.frozen.map FrozenSession.handed ∧ h.resumed = [] ∧
        ∀ f ∈ batch.frozen, f.snapshot.size ≤ recvLen := by
  have hx := faithful_of_run hjson hrun
  cases hc : h.child with
  | receiving sessions => exact Or.inl (by rw [Handoff.adopted, hc])
  | finished r =>
      cases r with
      | error err => exact Or.inl (by rw [Handoff.adopted, hc])
      | ok sessions =>
          obtain ⟨hall, hfits⟩ := hx.adopted hc
          rw [hx.same] at hall hfits
          refine Or.inr ⟨?_, ?_, fun f hf => of_decide_eq_true (hfits f hf)⟩
          · rw [Handoff.adopted, hc]
            exact hall
          · rw [resumed, (hx.sound.adopted hc).1]

/-! ## A calm hand-off -/

/-- No send fails, nothing is lost and nobody dies; the parent's wait ends in an error only
if the child is gone. -/
def Calm (h : Handoff) : HandoffEvent → Prop
  | .parentSends io => io = .ok
  | .parentReceives => True
  | .childReceives fd ack => fd = true ∧ ack = .ok
  | .parentFails _ => h.child.failed = true
  | .endLost | .parentDies | .childFails _ => False

/-- Where a calm hand-off can be. -/
inductive Stage (batch : FreezeBatch) : Handoff → Prop where
  | sending {got rest : List FrozenSession} (split : batch.frozen = got ++ rest)
      (fits : ∀ f ∈ got, f.fits = true) :
      Stage batch ⟨batch, .sending rest, got.length, [], [], .receiving (got.map FrozenSession.handed)⟩
  | underway {got rest : List FrozenSession} {f : FrozenSession}
      (split : batch.frozen = got ++ f :: rest) (fits : ∀ f ∈ got, f.fits = true) :
      Stage batch
        ⟨batch, .awaiting rest, got.length, [f.datagram], [], .receiving (got.map FrozenSession.handed)⟩
  | acked {got rest : List FrozenSession} {f : FrozenSession}
      (split : batch.frozen = got ++ f :: rest) (fits : ∀ f ∈ got, f.fits = true)
      (fit : f.fits = true) :
      Stage batch
        ⟨batch, .awaiting rest, got.length, [], [ackMarker],
          .receiving (got.map FrozenSession.handed ++ [f.handed])⟩
  | refused {got rest : List FrozenSession} {f : FrozenSession} {err : IoError}
      (split : batch.frozen = got ++ f :: rest) (fits : ∀ f ∈ got, f.fits = true)
      (large : f.fits = false) :
      Stage batch ⟨batch, .awaiting rest, got.length, [], [], .finished (.error err)⟩
  | failed {got rest : List FrozenSession} {f : FrozenSession} {err err' : IoError}
      (split : batch.frozen = got ++ f :: rest) (fits : ∀ f ∈ got, f.fits = true)
      (large : f.fits = false) :
      Stage batch ⟨batch, .finished (.error err'), got.length, [], [], .finished (.error err)⟩
  | ended {sent : Nat} (fits : ∀ f ∈ batch.frozen, f.fits = true) :
      Stage batch
        ⟨batch, .finished (.ok ()), sent, [.endOfSessions], [],
          .receiving (batch.frozen.map FrozenSession.handed)⟩
  | adopted {sent : Nat} (fits : ∀ f ∈ batch.frozen, f.fits = true) :
      Stage batch
        ⟨batch, .finished (.ok ()), sent, [], [], .finished (.ok (batch.frozen.map FrozenSession.handed))⟩

/-- The steps that are left, at most. -/
def Handoff.left (h : Handoff) : Nat :=
  match h.parent with
  | .sending rest => 3 * rest.length + 2
  | .awaiting rest => 3 * rest.length + 3 + h.toChild.length
  | .finished _ | .dead => h.toChild.length

theorem Stage.start (batch : FreezeBatch) : Stage batch (Handoff.start batch) :=
  .sending rfl (fun _ hf => absurd hf List.not_mem_nil)

/-- One datagram of a session, with its descriptor and its ack. -/
theorem receiveDatagram_datagram {sessions : Received} (hjson : json.Writes f.snapshot) :
    (f.fits = true → h.receiveDatagram json sessions f.datagram true .ok =
      { h with
        child := .receiving (sessions ++ [f.handed]), toParent := h.toParent ++ [ackMarker] }) ∧
    (f.fits = false → ∃ err, h.receiveDatagram json sessions f.datagram true .ok =
      h.childError err) := by
  constructor
  · intro hfits
    rw [receiveDatagram, if_neg (datagram_ne_end f), fromSlice_fits hjson hfits]
    rfl
  · intro hlarge
    obtain ⟨err, herr⟩ := fromSlice_too_large hjson hlarge
    refine ⟨err, ?_⟩
    rw [receiveDatagram, if_neg (datagram_ne_end f), herr]

theorem Stage.parentSends (hjson : ∀ f ∈ batch.frozen, json.Writes f.snapshot)
    (hstage : Stage batch h) (hstep : h.step json (.parentSends .ok) = some h') : Stage batch h' ∧ h'.left < h.left := by
  cases hstage with
  | @sending got rest split fits =>
      cases rest with
      | nil =>
          cases hstep
          rw [List.append_nil] at split
          rw [← split] at fits ⊢
          exact ⟨.ended fits, Nat.lt_succ_self 1⟩
      | cons f rest =>
          have hmem : f ∈ batch.frozen := by
            rw [split]
            exact List.mem_append_cons_self
          have hsent := Option.some.inj hstep
          rw [sendSession, (hjson f hmem).toVec] at hsent
          rw [← hsent]
          refine ⟨.underway split fits, ?_⟩
          show 3 * rest.length + 3 + 1 < 3 * (rest.length + 1) + 2
          omega
  | _ => cases hstep

theorem Stage.childReceives (hjson : ∀ f ∈ batch.frozen, json.Writes f.snapshot)
    (hstage : Stage batch h) (hstep : h.step json (.childReceives true .ok) = some h') :
    Stage batch h' ∧ h'.left < h.left := by
  cases hstage with
  | @underway got rest f split fits =>
      have hmem : f ∈ batch.frozen := by
        rw [split]
        exact List.mem_append_cons_self
      have hreceived := Option.some.inj hstep
      cases hfits : f.fits with
      | true =>
          rw [(receiveDatagram_datagram (hjson f hmem)).1 hfits] at hreceived
          rw [← hreceived]
          exact ⟨.acked split fits hfits, Nat.lt_succ_self _⟩
      | false =>
          obtain ⟨err, herr⟩ := (receiveDatagram_datagram (hjson f hmem)).2 hfits
          rw [herr] at hreceived
          rw [← hreceived]
          exact ⟨.refused split fits hfits, Nat.lt_succ_self _⟩
  | ended fits =>
      have hreceived := Option.some.inj hstep
      rw [receiveDatagram, if_pos received_endOfSessions] at hreceived
      rw [← hreceived]
      exact ⟨.adopted fits, Nat.lt_succ_self 0⟩
  | _ => cases hstep

theorem Stage.parentReceives (hstage : Stage batch h)
    (hstep : h.step json .parentReceives = some h') : Stage batch h' ∧ h'.left < h.left := by
  cases hstage with
  | @acked got rest f split fits fit =>
      cases hstep
      refine ⟨?_, Nat.lt_succ_self _⟩
      have hsending : Stage batch ⟨batch, .sending rest, (got ++ [f]).length, [], [],
          .receiving ((got ++ [f]).map FrozenSession.handed)⟩ := by
        refine .sending ?_ ?_
        · rw [List.append_assoc]
          exact split
        · intro g hg
          rcases List.mem_append.mp hg with hg | hg
          · exact fits g hg
          · rw [List.mem_singleton.mp hg]
            exact fit
      rw [List.length_append, List.map_append] at hsending
      exact hsending
  | _ => cases hstep

theorem Stage.parentFails {text : String} (hstage : Stage batch h) (gone : h.child.failed = true)
    (hstep : h.step json (.parentFails text) = some h') :
    Stage batch h' ∧ h'.left < h.left := by
  cases hstage with
  | refused split fits large =>
      cases hstep
      exact ⟨.failed split fits large, Nat.succ_pos _⟩
  | underway split fits => cases gone
  | acked split fits fit => cases gone
  | _ => cases hstep

theorem Stage.step (hjson : ∀ f ∈ batch.frozen, json.Writes f.snapshot)
    (hstage : Stage batch h) (hcalm : Calm h e)
    (hstep : h.step json e = some h') : Stage batch h' ∧ h'.left < h.left := by
  cases e with
  | parentSends io =>
      obtain rfl : io = .ok := hcalm
      exact hstage.parentSends hjson hstep
  | parentReceives => exact hstage.parentReceives hstep
  | childReceives fd ack =>
      obtain ⟨rfl, rfl⟩ := hcalm
      exact hstage.childReceives hjson hstep
  | parentFails text => exact hstage.parentFails hcalm hstep
  | endLost => cases hcalm
  | parentDies => cases hcalm
  | childFails text => cases hcalm

/-- A calm hand-off can go on until it is over. -/
theorem Stage.progress (hstage : Stage batch h) (hopen : ¬ h.Finished) :
    ∃ e h', Calm h e ∧ h.step json e = some h' := by
  cases hstage with
  | @sending got rest split fits =>
      cases rest with
      | nil => exact ⟨.parentSends .ok, _, rfl, rfl⟩
      | cons f rest => exact ⟨.parentSends .ok, _, rfl, rfl⟩
  | underway split fits => exact ⟨.childReceives true .ok, _, ⟨rfl, rfl⟩, rfl⟩
  | acked split fits fit => exact ⟨.parentReceives, _, trivial, rfl⟩
  | refused split fits large => exact ⟨.parentFails "timed out", _, rfl, rfl⟩
  | failed split fits large => exact absurd ⟨rfl, rfl⟩ hopen
  | ended fits => exact ⟨.childReceives true .ok, _, ⟨rfl, rfl⟩, rfl⟩
  | adopted fits => exact absurd ⟨rfl, rfl⟩ hopen

/-- From the first session that is too large on, all are resumed. -/
theorem Stage.outcome (hstage : Stage batch h) (hend : h.Finished) :
    h.resumed = batch.frozen.dropWhile FrozenSession.fits ∧
      h.adopted = if batch.frozen.all FrozenSession.fits then batch.frozen.map FrozenSession.handed
        else [] := by
  obtain ⟨hparent, hchild⟩ := hend
  cases hstage with
  | sending split fits => cases hparent
  | underway split fits => cases hparent
  | acked split fits fit => cases hparent
  | refused split fits large => cases hparent
  | @failed got rest f err err' split fits large =>
      have hresumed : batch.resumeSkipping got.length = f :: rest := by
        rw [batch.resumeSkipping_eq, split, List.drop_left]
      have hlarge : ¬ (batch.frozen.all FrozenSession.fits = true) := by
        intro hall
        have hfits := List.all_eq_true.mp hall f (by rw [split]; exact List.mem_append_cons_self)
        cases large.symm.trans hfits
      refine ⟨?_, ?_⟩
      · rw [split, List.dropWhile_append_of_pos fits, List.dropWhile_cons_of_neg (by simp [large])]
        exact hresumed
      · rw [if_neg hlarge]
        rfl
  | ended fits => cases hchild
  | adopted fits =>
      rw [if_pos (List.all_eq_true.mpr fits), List.dropWhile_eq_nil_iff.mpr fits]
      exact ⟨rfl, rfl⟩

theorem stage_of_step {o : List Unit}
    (hjson : ∀ f ∈ batch.frozen, json.Writes f.snapshot) (hstage : Stage batch h) (hcalm : Calm h e)
    (hs : (handoffMachine json).step h e = some (h', o)) :
    Stage batch h' ∧ h'.left < h.left := by
  obtain ⟨h'', hs', heq⟩ := Option.map_eq_some_iff.mp hs
  exact (Prod.mk.inj heq).1 ▸ hstage.step hjson hcalm hs'

theorem stage_of_run {es : List HandoffEvent} {out : List Unit}
    (hjson : ∀ f ∈ batch.frozen, json.Writes f.snapshot)
    (hrun : (handoffMachine json).run (Handoff.start batch) es = some (h, out))
    (hcalm : (handoffMachine json).Along Calm (Handoff.start batch) es) : Stage batch h :=
  Machine.run_along (fun _ _ _ _ hI hG hs => (stage_of_step hjson hI hG hs).1) (.start batch) hcalm hrun

/-- There is a calm hand-off of every batch. -/
theorem exists_calm (hjson : ∀ f ∈ batch.frozen, json.Writes f.snapshot) : ∃ es h out,
    (handoffMachine json).run (Handoff.start batch) es = some (h, out) ∧
      (handoffMachine json).Along Calm (Handoff.start batch) es ∧ h.Finished := by
  refine Machine.along_complete (fun _ _ _ _ => stage_of_step hjson) ?_ _ (Stage.start batch)
  intro h hstage hopen
  obtain ⟨e, h', hcalm, hstep⟩ := hstage.progress hopen
  exact ⟨e, h', [], hcalm, Option.map_eq_some_iff.mpr ⟨h', hstep, rfl⟩⟩

/-- A calm hand-off of `n` sessions takes at most `3 * n + 2` steps and does not get stuck.
When it is over, the child has adopted all sessions, if they all fit into a datagram; if
not, it has adopted none, and the parent has resumed only those from the first one on
that is too large. -/
theorem calm_handoff {es : List HandoffEvent} {out : List Unit}
    (hjson : ∀ f ∈ batch.frozen, json.Writes f.snapshot)
    (hrun : (handoffMachine json).run (Handoff.start batch) es = some (h, out))
    (hcalm : (handoffMachine json).Along Calm (Handoff.start batch) es) :
    es.length ≤ 3 * batch.frozen.length + 2 ∧
      (¬ h.Finished → ∃ e h', Calm h e ∧ h.step json e = some h') ∧
      (h.Finished → h.resumed = batch.frozen.dropWhile FrozenSession.fits ∧
        h.adopted = if batch.frozen.all FrozenSession.fits
          then batch.frozen.map FrozenSession.handed else []) := by
  have hstage := stage_of_run hjson hrun hcalm
  have hcount := Machine.along_variant (fun _ _ _ _ => stage_of_step hjson) (.start batch) hcalm hrun
  exact ⟨(Nat.le_add_right _ _).trans hcount, hstage.progress, hstage.outcome⟩

theorem reference_fits : ReferenceCodec.batch.frozen.all FrozenSession.fits = true := by
  decide +kernel

theorem reference_writes : ∀ f ∈ ReferenceCodec.batch.frozen, serdeJson.Writes f.snapshot :=
  fun f _ => serdeJson_writes f.snapshot

/-- Two idle sessions go over. -/
theorem calm_handoff_both : ∃ es h out,
    (handoffMachine serdeJson).run (Handoff.start ReferenceCodec.batch) es = some (h, out) ∧
      h.resumed = [] ∧ h.adopted = ReferenceCodec.batch.frozen.map FrozenSession.handed := by
  obtain ⟨es, h, out, hrun, hcalm, hend⟩ := exists_calm reference_writes
  obtain ⟨hresumed, hadopted⟩ := (calm_handoff reference_writes hrun hcalm).2.2 hend
  refine ⟨es, h, out, hrun, hresumed.trans ?_, hadopted.trans (if_pos reference_fits)⟩
  exact List.dropWhile_eq_nil_iff.mpr (List.all_eq_true.mp reference_fits)

theorem adopted_exactly_both : ∃ es h out,
    (handoffMachine serdeJson).run (Handoff.start ReferenceCodec.batch) es = some (h, out) ∧
      h.adopted = ReferenceCodec.batch.frozen.map FrozenSession.handed ∧
        ∀ f ∈ ReferenceCodec.batch.frozen, f.snapshot.size ≤ recvLen := by
  obtain ⟨es, h, out, hrun, hcalm, hend⟩ := exists_calm reference_writes
  have hstage := stage_of_run reference_writes hrun hcalm
  have hadopted := (hstage.outcome hend).2.trans (if_pos reference_fits)
  have hsome : ReferenceCodec.batch.frozen.map FrozenSession.handed ≠ [] := List.cons_ne_nil _ _
  rcases adopted_exactly reference_writes hrun with hnone | ⟨hall, -, hsize⟩
  · exact absurd (hadopted.symm.trans hnone) hsome
  · exact ⟨es, h, out, hrun, hall, hsize⟩

end TrafficDirector
