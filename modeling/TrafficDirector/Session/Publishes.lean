/-
# `TrafficDirector.Session.Publishes` — PUBLISHes go out in the client's order

A replay writes the c2b window in its order and then the outage buffer in arrival order
(`replaysWhole`).  A PUBLISH takes a new place at the end of the window, so on every
broker connection the PUBLISHes have the order in which the client sent them, as long as
none of them finds an entry under its id.  A client that uses an id again only when it
has been acknowledged finds none, but for one case: the flush keeps a PUBREL for an
exchange that is over, where the connected phase ignores it (`publishes_in_order`).
-/
import TrafficDirector.Session.Completion
import TrafficDirector.Session.Order

namespace TrafficDirector

open Framing (Reader)
open Resend (Stamped)

/-! ## What a replay does -/

def Output.brokerFrame : Output → Option Frame
  | .toBroker f => some f
  | _ => none

/-- A replay writes a CONNECT, at most one SUBSCRIBE, each entry of the window once, and
each entry of the buffer once; then the buffer is empty and the b2c window as before. -/
structure ReplaysWhole (s s' : Session) (out : List Output) : Prop where
  writes : ∃ raw subscribe, subscribe.length ≤ 1 ∧ (∀ f ∈ subscribe, f.packetType = 8) ∧
    out.filterMap Output.brokerFrame = .connect raw :: (subscribe
      ++ (s.windows.c2b.values.map (fun entry => .raw (InflightWindows.brokerRetransmit entry))
        ++ s.buffer.entries.map (fun entry => .raw entry.raw)))
  entries : s'.buffer.entries = []
  bytes : s'.buffer.bytes = 0
  b2c : s'.windows.b2c = s.windows.b2c

/-! ## What is written on one connection -/

/-- The client's PUBLISHes under their ids. -/
structure Line where
  /-- the ids that are not free for the client -/
  inUse : List UInt16
  /-- the client packets written to the broker connection opened last -/
  written : List (Stamped MqttPacket)

def MqttPacket.opensExchange (p : MqttPacket) : Bool := p.publishes.isSome

namespace Line

/-- An id is in use from its PUBLISH until a PUBACK or PUBCOMP is read on an open
connection. -/
def after (_ : Journal) (h : Line) (e : Event) (notes : List Noted) : Line where
  inUse := (e.clientPacket.bind MqttPacket.publishes).toList
    ++ h.inUse.filter (fun i => e.brokerPacket.bind acknowledgedId ≠ some i)
  written := notes.foldl Noted.write h.written

end Line

/-- A session with its journal and its line of PUBLISHes. -/
def lineMachine (c : Codec) : Machine (Journal × Line) Event Noted :=
  (journalMachine c).record Line.after

/-- The client uses no id that is in use. -/
def ReusesFreed (k : Journal × Line) (e : Event) : Prop :=
  ∀ i, e.clientPacket.bind MqttPacket.publishes = some i → i ∉ k.2.inUse

/-- A PUBREL that is read in an outage finds an entry for its id, in the window or in
the buffer. -/
def ReleasesHeld (k : Journal × Line) (e : Event) : Prop :=
  match k.1.session with
  | .running s => s.broker = none → ∀ i, e.clientPacket.bind MqttPacket.releases = some i →
      s.pendingC2b.contains i = true
  | .ended _ => True

-- over the one id that the packet has, not over all ids
instance (k : Journal × Line) (e : Event) : Decidable (ReusesFreed k e) :=
  Option.decidableForallMem (e.clientPacket.bind MqttPacket.publishes)

instance (k : Journal × Line) (e : Event) : Decidable (ReleasesHeld k e) := by
  unfold ReleasesHeld
  split
  · exact @instDecidableForall _ _ inferInstance
      (Option.decidableForallMem (e.clientPacket.bind MqttPacket.releases))
  · infer_instance

variable {c : Codec} {s s' : Session} {e : Event} {out : List Output} {l : Ledger} {h : Line}
  {notes : List Noted}

theorem brokerFrame_toBroker (fs : List Frame) :
    (fs.map Output.toBroker).filterMap Output.brokerFrame = fs := by
  rw [List.filterMap_map]
  exact List.filterMap_some

theorem brokerFrame_toClient (fs : List Frame) :
    (fs.map Output.toClient).filterMap Output.brokerFrame = [] := by
  rw [List.filterMap_map]
  exact List.filterMap_eq_nil_iff.mpr (fun _ _ => rfl)

theorem resubscribeFrames_packetType (v : ProtocolVersion) (table : Subscriptions) :
    ∀ f ∈ resubscribeFrames v table, f.packetType = 8 := by
  intro f hf
  obtain ⟨p, hp, rfl⟩ := List.mem_map.mp hf
  have hp := Option.mem_toList.mp hp
  unfold Subscriptions.resubscribePacket at hp
  split at hp
  · exact nomatch hp
  · cases v with
    | mqtt3 => rw [← Option.some.inj hp]; rfl
    | mqtt5 => rw [← Option.some.inj hp]; rfl

theorem replaysWhole {a : Attempt}
    (hs : forwardLoop c (.running s) (.wait (some a)) = some (.running s', out)) :
    ReplaysWhole s s' out := by
  cases forwardLoop_running hs with
  | idle quiet => exact absurd quiet id
  | @replayed a raw down patched serves =>
      refine ⟨⟨raw, resubscribeFrames s.hs.version s.subscriptions, ?_,
        resubscribeFrames_packetType _ _, ?_⟩, rfl, rfl, ?_⟩
      · rw [resubscribeFrames, List.length_map]
        cases s.subscriptions.resubscribePacket s.hs.version with
        | none => exact Nat.zero_le _
        | some p => exact Nat.le_refl _
      · show ((s.replayPlan c raw).filterMap Output.brokerFrame) = _
        rw [Session.replayPlan, List.filterMap_append, List.filterMap_append,
          List.filterMap_append, List.filterMap_append, List.filterMap_append,
          brokerFrame_toBroker, brokerFrame_toBroker, brokerFrame_toBroker, brokerFrame_toClient,
          brokerFrame_toClient, InflightWindows.brokerRetransmits, List.map_map]
        rfl
      · show s.flushedWindows.b2c = _
        rw [Session.flushedWindows, foldl_flushWindow]

/-! ## Entries and ids -/

theorem opensExchange_eq_true {p : MqttPacket} {i : UInt16} (hkey : exchangeId p = some i)
    (hopens : p.opensExchange = true) : p.publishes = some i := by
  obtain ⟨j, hj⟩ := Option.isSome_iff_exists.mp hopens
  obtain ⟨q, hshape⟩ := shape_of_publishes hj
  have hkey' : exchangeId p = some j := by
    rw [exchangeId, hshape]
  rw [hj, ← hkey, hkey']

/-- The pending window holds the packets that a flush of the ledger would keep. -/
theorem Ledger.Matches.pendingC2b (hm : Ledger.Matches c s l) : s.pendingC2b =
    (l.inflight.insertAll (Resend.Ledger.bindings exchangeId l.queued)).map
      (fun m => windowEntry c m.item) := by
  rw [Session.pendingC2b, hm.window, flushBindings_queued hm.buffer]
  exact (OrdMap.map_insertAll _ _ _).symm

theorem Ledger.Matches.free (hm : Ledger.Matches c s l) {i : UInt16}
    (hnone : s.pendingC2b.get? i = none) :
    (l.inflight.insertAll (Resend.Ledger.bindings exchangeId l.queued)).get? i = none := by
  rw [hm.pendingC2b, OrdMap.get?_map] at hnone
  exact Option.map_eq_none_iff.mp hnone

theorem Event.Quiet.acknowledges (quiet : e.Quiet) :
    e.brokerPacket.bind acknowledgedId = none := by
  cases hp : e.brokerPacket with
  | none => rfl
  | some p =>
      obtain ⟨after, forward, rfl⟩ := Event.eq_brokerRead hp
      exact acknowledgedId_of_not_passedOn quiet

/-- The entry of an acknowledged exchange is gone. -/
theorem Transition.acknowledged (ht : Transition c s e s' out) (hset : s.Settled) {i : UInt16}
    (hi : e.brokerPacket.bind acknowledgedId = some i) : s'.pendingC2b.get? i = none := by
  cases ht with
  | idle quiet same => exact nomatch quiet.acknowledges.symm.trans hi
  | lost up quiet => exact nomatch quiet.acknowledges.symm.trans hi
  | @delivered p after up passedOn =>
      rw [Session.pendingC2b_of_nil (by exact (hset up).1)]
      show (s.windows.trackB2c c p).c2b.get? i = none
      have hack : acknowledgedId p = some i := hi
      rw [InflightWindows.trackB2c_c2b_eq, hack]
      show (s.windows.c2b.erase i).get? i = none
      rw [OrdMap.get?_erase, if_pos rfl]
  | _ => exact nomatch hi

/-- Entries are those of ids in use. -/
theorem Transition.inUse (ht : Transition c s e s' out) (hset : s.Settled)
    (hin : ∀ i, i ∉ h.inUse → s.pendingC2b.get? i = none)
    (hheld : ReleasesHeld (⟨.running s, l⟩, h) e) (j : Journal) :
    ∀ i, i ∉ (Line.after j h e notes).inUse → s'.pendingC2b.get? i = none := by
  intro i hi
  obtain ⟨hpublishes, hrest⟩ := not_or.mp (mt List.mem_append.mpr hi)
  have hpublishes : e.clientPacket.bind MqttPacket.publishes ≠ some i := by
    intro hsome
    exact hpublishes (Option.mem_toList.mpr hsome)
  by_cases hack : e.brokerPacket.bind acknowledgedId = some i
  · exact ht.acknowledged hset hack
  · have hnone := hin i (fun hmem => hrest (List.mem_filter.mpr ⟨hmem, decide_eq_true hack⟩))
    refine (ht.stays_finished hset hnone hpublishes).mpr ?_
    rintro ⟨down, hrel⟩
    obtain ⟨_, hsome⟩ := OrdMap.contains_iff.mp (hheld down i hrel)
    exact nomatch hnone.symm.trans hsome

/-! ## The order in the window and the buffer -/

theorem Transition.ordered (ht : Transition c s e s' out) (hm : Ledger.Matches c s l)
    (hl : l.Ordered exchangeId MqttPacket.opensExchange)
    (hfree : ∀ i, e.clientPacket.bind MqttPacket.publishes = some i →
      s.pendingC2b.get? i = none) :
    (Ledger.after c s l e).Ordered exchangeId MqttPacket.opensExchange := by
  have htracked : ∀ p : MqttPacket, s.broker.isSome = true →
      (∀ i, p.publishes = some i → s.pendingC2b.get? i = none) →
      (Ledger.trackC2b l p).Ordered exchangeId MqttPacket.opensExchange := by
    intro p up hfree
    have hq := hm.queued_nil up
    unfold Ledger.trackC2b
    cases hshape : p.shape with
    | publish q i =>
        refine hl.keep hq (fun _ => ?_)
        have hnone := hm.free (hfree i (by rw [MqttPacket.publishes, hshape]))
        rw [hq] at hnone
        exact hnone
    | publishRelease i =>
        dsimp only
        split
        · refine hl.keep hq (fun hopens => ?_)
          have hkey : exchangeId p = some i := by
            rw [exchangeId, hshape]
          obtain ⟨q, hshape'⟩ := shape_of_publishes (opensExchange_eq_true hkey hopens)
          cases hshape.symm.trans hshape'
        · exact hl.hear p
    | _ => exact hl.hear p
  cases ht with
  | idle quiet same =>
      rw [Ledger.after_quiet quiet]
      exact hl
  | @forwarded now p after pong pongs up answered =>
      rw [Ledger.after, if_pos up]
      exact htracked p up hfree
  | @unsent now p after pong err pongs up answered =>
      rw [Ledger.after, if_pos up]
      exact htracked p up hfree
  | @held now p after pong forward v down serviced =>
      rw [Ledger.after, if_neg (by simp [down])]
      unfold Ledger.service
      split
      · refine hl.hold (fun i hkey hopens => ?_)
        exact hm.free (hfree i (opensExchange_eq_true hkey hopens))
      · exact hl.hear p
  | delivered up passedOn => exact hl.forget (hm.queued_nil up) _
  | lost up quiet =>
      rw [Ledger.after_quiet quiet]
      exact hl
  | replayed down patched serves => exact hl.flush
  | migrated id now keepAlive => exact hl

/-! ## What a step writes -/

/-- The packets written are the client's, and the QoS 1/2 PUBLISHes among them are in its
order. -/
structure InLine (read : List MqttPacket) (written : List (Stamped MqttPacket)) : Prop where
  sorted : (Resend.Ledger.opening MqttPacket.opensExchange written).Pairwise
    (fun a b => a.seq < b.seq)
  read : ∀ m ∈ written, read[m.seq]? = some m.item

theorem InLine.append {read : List MqttPacket} {written : List (Stamped MqttPacket)}
    (hw : InLine read written) (ps : List MqttPacket) : InLine (read ++ ps) written where
  sorted := hw.sorted
  read m hmem := by
    rw [List.getElem?_append_left (Resend.Ledger.seq_lt (hw.read m hmem))]
    exact hw.read m hmem

theorem inLine_annotate {o : Outcome} {written : List (Stamped MqttPacket)}
    (hm : Ledger.Matches c s l) (hl : l.Ordered exchangeId MqttPacket.opensExchange)
    (hw : InLine l.read written) (hs : forwardLoop c (.running s) e = some (o, out)) :
    InLine (Ledger.after c s l e).read ((annotate c s l e out).foldl Noted.write written) := by
  rw [Ledger.after_read]
  rcases written_annotate written hm hs with
      heq | ⟨a, -, hpart⟩ | ⟨now, p, after, pong, rfl, -, heq⟩
  · rw [heq]
    exact hw.append _
  · refine InLine.append ⟨?_, fun m hmem => hl.read m (hpart.subset hmem)⟩ _
    exact hl.sorted.sublist (hpart.sublist.filter _)
  · rw [heq]
    refine ⟨?_, fun m hmem => ?_⟩
    · rw [Resend.Ledger.opening_append]
      refine List.pairwise_append.mpr ⟨hw.sorted, ?_, fun m hmem m' hmem' => ?_⟩
      · exact (List.pairwise_singleton _ _).sublist List.filter_sublist
      · rw [List.mem_singleton.mp (List.mem_of_mem_filter hmem')]
        exact Resend.Ledger.seq_lt (hw.read m (List.mem_of_mem_filter hmem))
    · rcases List.mem_append.mp hmem with hmem | hmem
      · exact (hw.append _).read m hmem
      · rw [List.mem_singleton.mp hmem]
        exact Resend.Ledger.read_next l p

/-! ## Runs -/

/-- The invariant of lines. -/
structure LineSound (c : Codec) (k : Journal × Line) : Prop where
  consistent : k.1.Consistent c
  ordered : ∀ s, k.1.session = .running s →
    k.1.ledger.Ordered exchangeId MqttPacket.opensExchange
  inUse : ∀ s, k.1.session = .running s → ∀ i, i ∉ k.2.inUse → s.pendingC2b.get? i = none
  line : InLine k.1.ledger.read k.2.written

/-- The PUBLISHes on the connection opened last are in order, and a new connection gets
all that is held, in its order. -/
structure PublishesInOrder (c : Codec) (k : Journal × Line) : Prop where
  line : InLine k.1.ledger.read k.2.written
  replays : ∀ s a s' out, k.1.session = .running s →
    forwardLoop c (.running s) (.wait (some a)) = some (.running s', out) → ReplaysWhole s s' out

theorem LineSound.step {k k' : Journal × Line} (hk : LineSound c k) (hids : ReusesFreed k e)
    (hheld : ReleasesHeld k e) (hstep : (lineMachine c).step k e = some (k', notes)) :
    LineSound c k' := by
  have hcons := hk.consistent.step (Machine.record_step_eq_some.mp hstep).1
  obtain ⟨⟨session, l⟩, h⟩ := k
  obtain ⟨s, o, out, hsession, hs, rfl, rfl⟩ := recordedStep hstep
  obtain rfl : session = .running s := hsession
  have hm : Ledger.Matches c s l := hk.consistent s rfl
  refine ⟨hcons, ?_, ?_, inLine_annotate hm (hk.ordered s rfl) hk.line hs⟩
  · rintro s' rfl
    refine (forwardLoop_running hs).ordered hm (hk.ordered s rfl) (fun i hi => ?_)
    exact hk.inUse s rfl i (hids i hi)
  · rintro s' rfl
    exact (forwardLoop_running hs).inUse hm.settled (hk.inUse s rfl) hheld ⟨.running s, l⟩

theorem lineSound_initial (id : SessionId) (hs : Handshake) (client broker : Reader UInt8)
    (now : Nat) : LineSound c (.initial (Session.initial id hs client broker now), ⟨[], []⟩) where
  consistent := (Journal.sound_initial id hs client broker now).consistent
  ordered _ _ := .empty
  inUse s hs i _ := by
    rw [← Outcome.running.inj hs]
    rfl
  line := ⟨List.Pairwise.nil, fun _ hmem => nomatch hmem⟩

/-- When the client uses only ids that are free, and each PUBREL that it sends in an
outage finds its exchange, then at every point of the run the PUBLISHes on the connection
opened last have the order in which the client sent them, and a new connection is sent
the window and the buffer, whole and in their order. -/
theorem publishes_in_order {id : SessionId} {hs : Handshake} {client broker : Reader UInt8}
    {now : Nat} {es : List Event} {o : Outcome}
    (hrun : (sessionMachine c).run (.running (Session.initial id hs client broker now)) es
      = some (o, out))
    (hids : (lineMachine c).Along ReusesFreed
      (.initial (Session.initial id hs client broker now), ⟨[], []⟩) es)
    (hheld : (lineMachine c).Along ReleasesHeld
      (.initial (Session.initial id hs client broker now), ⟨[], []⟩) es) :
    (lineMachine c).Always (PublishesInOrder c)
      (.initial (Session.initial id hs client broker now), ⟨[], []⟩) es ∧
    ∃ k notes, (lineMachine c).run
        (.initial (Session.initial id hs client broker now), ⟨[], []⟩) es = some (k, notes) ∧
      k.1.session = o ∧ notes.map Noted.out = out ∧
      k.1.ledger.read = es.filterMap Event.clientPacket ∧
      ∀ n ∈ notes, n.Traced c k.1.ledger.read := by
  refine ⟨?_, ?_⟩
  · refine Machine.along_always (I := LineSound c) ?_ ?_
      (lineSound_initial id hs client broker now) (Machine.along_and hids hheld)
    · rintro k e k' notes hk ⟨hids, hheld⟩ hstep
      exact hk.step hids hheld hstep
    · intro k hk
      exact ⟨hk.line, fun s a s' out _ hreplay => replaysWhole hreplay⟩
  · exact recorded_of_run Line.after ⟨[], []⟩ hrun

/-- The numbers of the PUBLISHes written on the connection opened last. -/
def lineOf (k : Journal × Line) : List Nat :=
  (Resend.Ledger.opening MqttPacket.opensExchange k.2.written).map Stamped.seq

namespace ReferenceCodec

def publishOnce (i : NonZeroU16) : MqttPacket :=
  .v3 (.publish ⟨false, false, .exactlyOnce, "t", some i, [], none, Publish.hasId_some i⟩)

/-- An exchange of QoS 2 from its PUBLISH to its PUBCOMP. -/
def exchanged (i : NonZeroU16) : List Event :=
  [forwarded (publishOnce i), delivered (.v3 (.publishReceived i)),
    forwarded (.v3 (.publishRelease i)), delivered (.v3 (.publishComplete i))]

def replaced : List Event := [brokerCloses, .wait (some accepting)]

/-- In the outage after a second PUBLISH the client releases it, and sends another one; the
broker is then replaced twice. -/
def publishedTwice : List Event :=
  exchanged one ++ [forwarded (publishOnce two), delivered (.v3 (.publishReceived two)),
    brokerCloses, forwarded (.v3 (.publishRelease two)), forwarded (publishOnce one),
    .wait (some accepting)] ++ replaced

/-- The PUBREL of a finished exchange arrives once more in an outage; its id and another
one are used after that, and the broker is replaced again. -/
def releasedAgain : List Event :=
  exchanged one ++ [brokerCloses, forwarded (.v3 (.publishRelease one)), .wait (some accepting),
    forwarded (publishOnce two), forwarded (publishOnce one)] ++ replaced

end ReferenceCodec

open ReferenceCodec in
theorem publishes_in_order_twice : ∃ o out,
    (sessionMachine (codec true)).run (.running session) publishedTwice = some (o, out) ∧
    (lineMachine (codec true)).Always (PublishesInOrder (codec true))
      (.initial session, ⟨[], []⟩) publishedTwice ∧
    ∃ k notes, (lineMachine (codec true)).run (.initial session, ⟨[], []⟩) publishedTwice
        = some (k, notes) ∧
      k.1.session = o ∧ notes.map Noted.out = out ∧
      k.1.ledger.read = publishedTwice.filterMap Event.clientPacket ∧
      ∀ n ∈ notes, n.Traced (codec true) k.1.ledger.read := by
  have hsome : ((sessionMachine (codec true)).run (.running session) publishedTwice).isSome
      = true := by decide +kernel
  obtain ⟨⟨o, out⟩, hrun⟩ := Option.isSome_iff_exists.mp hsome
  exact ⟨o, out, hrun, publishes_in_order hrun (by decide +kernel) (by decide +kernel)⟩

open ReferenceCodec in
/-- The later PUBLISH takes the place of the PUBREL, and is retransmitted first. -/
theorem publishes_out_of_order : ∃ k notes,
    (lineMachine (codec true)).run (.initial session, ⟨[], []⟩) releasedAgain = some (k, notes) ∧
    (lineMachine (codec true)).Along ReusesFreed (.initial session, ⟨[], []⟩) releasedAgain ∧
    lineOf k = [4, 3] ∧ ¬ PublishesInOrder (codec true) k := by
  have hview : ((lineMachine (codec true)).run (.initial session, ⟨[], []⟩) releasedAgain).map
      (fun r => lineOf r.1) = some [4, 3] := by
    decide +kernel
  obtain ⟨⟨k, notes⟩, hrun, hline⟩ := Option.map_eq_some_iff.mp hview
  refine ⟨k, notes, hrun, by decide +kernel, hline, ?_⟩
  intro h
  have hsorted : (lineOf k).Pairwise (fun a b => a < b) := List.pairwise_map.mpr h.line.sorted
  rw [show lineOf k = [4, 3] from hline] at hsorted
  exact absurd hsorted (by decide)

end TrafficDirector
