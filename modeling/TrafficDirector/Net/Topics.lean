/-
# `TrafficDirector.Net.Topics` — the broker's subscriptions

The broker keeps the subscriptions of the session across its connections.  It
processes what is written to the present connection in order; what it has not
processed when the next connection opens, it never sees.

A replay states the proxy's table again and flushes the outage buffer, but it takes
out nothing else: an UNSUBSCRIBE that was written to a connection and never
processed is not repeated.  `topicsConverge_iff` says which runs make the broker's
subscriptions those of the proxy.
-/
import TrafficDirector.ReferenceCodec
import TrafficDirector.Session.Order

namespace TrafficDirector

open Framing (Reader)
open Resend (Stamped)

/-! ## The broker -/

/-- The packet that the broker finds in a frame. -/
def Noted.packet (n : Noted) : Option MqttPacket :=
  match n.out, n.source with
  | .toBroker _, some m => some m.item
  | .toBroker (.packet p), none => some p
  | _, _ => none

/-- What is written to the present connection and not processed, after one more output. -/
def Noted.arrive (unprocessed : List MqttPacket) (n : Noted) : List MqttPacket :=
  match n.out with
  | .openBroker => []
  | _ => unprocessed ++ n.packet.toList

structure Topics where
  journal : Journal
  /-- the subscriptions that the broker has for the session -/
  broker : Subscriptions
  /-- written to the present connection, or to the last one, and not processed -/
  unprocessed : List MqttPacket

inductive TopicsEvent where
  | session (e : Event)
  /-- the broker processes what is next for it -/
  | process

/-- The decoder of a version yields packets of that version. -/
def Event.speaks (e : Event) (v : ProtocolVersion) : Bool :=
  e.clientPacket.all (fun p => p.version = v)

namespace Topics

/-- A session that no broker knows yet. -/
def initial (s : Session) : Topics := ⟨.initial s, .empty, []⟩

def step (c : Codec) (t : Topics) : TopicsEvent → Option (Topics × List Noted)
  | .session e =>
      match t.journal.session with
      | .ended _ => none
      | .running s =>
          if e.speaks s.hs.version then
            (journalStep c t.journal e).map (fun r =>
              (⟨r.1, t.broker, r.2.foldl Noted.arrive t.unprocessed⟩, r.2))
          else none
  | .process =>
      match t.unprocessed with
      | p :: rest => some ({ t with broker := t.broker.track p, unprocessed := rest }, [])
      | [] => none

/-- The broker's subscriptions once it has processed what is written to it. -/
def settled (t : Topics) : Subscriptions := t.unprocessed.foldl Subscriptions.track t.broker

/-- Once the broker has processed what is written to it, its filters and their options
are those of the proxy's table; and these are what the client has asked for. -/
def Converges (t : Topics) : Prop :=
  match t.journal.session with
  | .running s => s.broker.isSome = true →
      t.settled.options = s.subscriptions.options ∧
        s.subscriptions = t.journal.ledger.read.foldl Subscriptions.track .empty
  | .ended _ => True

/-- The filters of the SUBSCRIBEs and UNSUBSCRIBEs in the outage buffer. -/
def heldFilters (t : Topics) : List String :=
  (t.journal.ledger.queued.flatMap (fun m => m.item.assignments)).map Prod.fst

/-- If the step opens a connection: each filter that the broker has is in the proxy's
table, or a SUBSCRIBE or UNSUBSCRIBE for it is in the buffer. -/
def NothingMissed (t : Topics) (ev : TopicsEvent) : Prop :=
  match t.journal.session, ev with
  | .running s, .session (.wait (some _)) => ∀ e ∈ t.broker.entries,
      (s.subscriptions.options e.topicFilter).isSome = true ∨ e.topicFilter ∈ t.heldFilters
  | _, _ => True

instance (t : Topics) (ev : TopicsEvent) : Decidable (t.NothingMissed ev) := by
  unfold NothingMissed
  split <;> infer_instance

end Topics

/-- A session and the subscriptions that its brokers keep. -/
def topicsMachine (c : Codec) : Machine Topics TopicsEvent Noted := ⟨Topics.step c⟩

variable {c : Codec} {s s' : Session} {l : Ledger} {e : Event} {out : List Output}
  {t t' : Topics} {notes : List Noted}

theorem Topics.session_eq_some : Topics.step c t (.session e) = some (t', notes) ↔
    ∃ s o out, t.journal.session = .running s ∧ e.speaks s.hs.version = true ∧
      forwardLoop c (.running s) e = some (o, out) ∧ notes = annotate c s t.journal.ledger e out ∧
      t' = ⟨⟨o, Ledger.after c s t.journal.ledger e⟩, t.broker,
        notes.foldl Noted.arrive t.unprocessed⟩ := by
  simp only [Topics.step]
  cases hs : t.journal.session with
  | ended r => exact ⟨fun h => (nomatch h), fun ⟨_, _, _, h, _⟩ => nomatch h⟩
  | running s =>
      dsimp only
      constructor
      · intro h
        split at h
        · next hspeaks =>
            obtain ⟨⟨j, notes'⟩, hj, hr⟩ := Option.map_eq_some_iff.mp h
            obtain ⟨rfl, rfl⟩ := Prod.mk.inj hr
            obtain ⟨s₀, o, out, hs₀, hf, rfl, rfl⟩ := journalStep_eq_some.mp hj
            obtain rfl := Outcome.running.inj (hs.symm.trans hs₀)
            exact ⟨s, o, out, rfl, hspeaks, hf, rfl, rfl⟩
        · exact nomatch h
      · rintro ⟨s₀, o, out, hs₀, hspeaks, hf, rfl, rfl⟩
        obtain rfl := Outcome.running.inj hs₀
        rw [if_pos hspeaks, journalStep_eq_some.mpr ⟨s, o, out, hs, hf, rfl, rfl⟩]
        rfl

theorem Topics.process_eq_some : Topics.step c t .process = some (t', notes) ↔
    ∃ p rest, t.unprocessed = p :: rest ∧
      t' = { t with broker := t.broker.track p, unprocessed := rest } ∧ notes = [] := by
  simp only [Topics.step]
  cases hp : t.unprocessed with
  | nil => exact ⟨fun h => (nomatch h), fun ⟨_, _, h, _⟩ => nomatch h⟩
  | cons p rest =>
      rw [Option.some.injEq, Prod.mk.injEq]
      constructor
      · rintro ⟨rfl, rfl⟩
        exact ⟨p, rest, rfl, rfl, rfl⟩
      · rintro ⟨_, _, h, rfl, rfl⟩
        obtain ⟨rfl, rfl⟩ := List.cons.inj h
        exact ⟨rfl, rfl⟩

/-! ## What the session keeps -/

/-- The ledger accounts for the table: it is the work of all that was read, and of the
queue on top of an older table; what is in the window has no part in it. -/
structure TableSound (c : Codec) (s : Session) (l : Ledger) : Prop where
  ledger : Ledger.Matches c s l
  tracked : s.subscriptions.Tracked s.hs.version
  read : s.subscriptions = l.read.foldl Subscriptions.track .empty
  queued : ∃ older : Subscriptions,
    s.subscriptions = (l.queued.map Stamped.item).foldl Subscriptions.track older
  inflight : ∀ m ∈ l.inflight.values, m.item.assignments = []

theorem TableSound.initial (id : SessionId) (hs : Handshake) (client broker : Reader UInt8)
    (now : Nat) : TableSound c (Session.initial id hs client broker now) .empty where
  ledger := Ledger.matches_initial id hs client broker now
  tracked := Subscriptions.tracked_empty hs.version
  read := rfl
  queued := ⟨.empty, rfl⟩
  inflight _ hm := nomatch hm

theorem exchangeId_assignments {p : MqttPacket} {i : UInt16} (h : exchangeId p = some i) :
    p.assignments = [] := by
  refine Subscriptions.assignments_eq_nil (fun j hj => ?_) (fun j hj => ?_)
  · rw [exchangeId, hj] at h
    cases h
  · rw [exchangeId, hj] at h
    cases h

theorem bufferedAs_assignments {p : MqttPacket} (h : bufferedAs c p = none) :
    p.assignments = [] := by
  refine Subscriptions.assignments_eq_nil (fun j hj => ?_) (fun j hj => ?_)
  · rw [bufferedAs, hj] at h
    exact nomatch h
  · rw [bufferedAs, hj] at h
    exact nomatch h

theorem Ledger.keep_inflight {p : MqttPacket} {i : UInt16}
    (h : ∀ m ∈ l.inflight.values, m.item.assignments = []) (hi : exchangeId p = some i) :
    ∀ m ∈ (l.keep i p).inflight.values, m.item.assignments = [] := by
  intro m hm
  rcases List.mem_cons.mp ((OrdMap.values_insert_subperm _ _ _).subset hm) with rfl | hm
  · exact exchangeId_assignments hi
  · exact h m hm

theorem Ledger.after_inflight (e : Event) (h : ∀ m ∈ l.inflight.values, m.item.assignments = []) :
    ∀ m ∈ (Ledger.after c s l e).inflight.values, m.item.assignments = [] := by
  unfold Ledger.after
  split
  · split
    · unfold Ledger.trackC2b
      split
      · next q i hs => exact Ledger.keep_inflight h (by rw [exchangeId, hs])
      · next i hs =>
          split
          · exact Ledger.keep_inflight h (by rw [exchangeId, hs])
          · exact h
      · exact h
    · rw [Ledger.service_inflight]
      exact h
  · exact fun m hm => h m ((OrdMap.values_eraseAll_sublist _ _).subset hm)
  · intro m hm
    rcases List.mem_append.mp ((OrdMap.values_insertAll_subperm _ _).subset hm) with hm | hm
    · exact h m hm
    · obtain ⟨⟨k, m'⟩, hkm, rfl⟩ := List.mem_map.mp hm
      exact exchangeId_assignments (Resend.Ledger.mem_bindings.mp hkm).2
  · exact h

/-- What a step does to the queue: it is empty, or untouched, or has one packet more. -/
theorem Transition.queued_cases (h : Transition c s e s' out) (hm : Ledger.Matches c s l) :
    (Ledger.after c s l e).queued = [] ∨
    ((Ledger.after c s l e).queued = l.queued ∧
      ∀ p, e.clientPacket = some p → p.assignments = []) ∨
    ∃ p, e.clientPacket = some p ∧ (Ledger.after c s l e).queued = l.queued ++ [l.next p] := by
  cases h with
  | idle quiet same =>
      refine .inr (.inl ⟨by rw [Ledger.after_quiet quiet], ?_⟩)
      intro p hp
      cases quiet.clientPacket.symm.trans hp
  | forwarded up answered =>
      left
      rw [Ledger.after, if_pos up, Ledger.trackC2b_queued]
      exact hm.queued_nil up
  | unsent up answered =>
      left
      rw [Ledger.after, if_pos up, Ledger.trackC2b_queued]
      exact hm.queued_nil up
  | @held _ p _ _ _ v down serviced =>
      right
      rw [Ledger.after, if_neg (by simp [down]), Ledger.service]
      cases hb : bufferedAs c p with
      | none =>
          refine .inl ⟨rfl, ?_⟩
          intro q hq
          obtain rfl : p = q := Option.some.inj hq
          exact bufferedAs_assignments hb
      | some b => exact .inr ⟨p, rfl, rfl⟩
  | delivered up passedOn => exact .inr (.inl ⟨rfl, fun _ h => by cases h⟩)
  | lost up quiet =>
      refine .inr (.inl ⟨by rw [Ledger.after_quiet quiet], ?_⟩)
      intro p hp
      cases quiet.clientPacket.symm.trans hp
  | replayed down patched serves => exact .inl rfl
  | migrated id now keepAlive => exact .inr (.inl ⟨rfl, fun _ h => by cases h⟩)

theorem Transition.tableSound (h : Transition c s e s' out) (hs : TableSound c s l)
    (hspeaks : e.speaks s.hs.version = true) : TableSound c s' (Ledger.after c s l e) where
  ledger := h.matches hs.ledger
  tracked := by
    rw [h.subscriptions, h.connect.2]
    cases hp : e.clientPacket with
    | none => exact hs.tracked
    | some p =>
        rw [Event.speaks, hp] at hspeaks
        exact hs.tracked.track (of_decide_eq_true hspeaks)
  read := by
    rw [h.subscriptions, Ledger.after_read, List.foldl_append, ← hs.read]
  queued := by
    obtain ⟨older, holder⟩ := hs.queued
    rcases h.queued_cases hs.ledger with hq | ⟨hq, hno⟩ | ⟨p, hp, hq⟩
    · exact ⟨s'.subscriptions, by rw [hq]; rfl⟩
    · refine ⟨older, ?_⟩
      rw [hq, ← holder, h.subscriptions]
      cases hp : e.clientPacket with
      | none => rfl
      | some p => exact Subscriptions.track_eq_self (hno p hp)
    · refine ⟨older, ?_⟩
      rw [hq, h.subscriptions, hp, List.map_append, List.foldl_append, ← holder]
      rfl
  inflight := Ledger.after_inflight e hs.inflight

/-! ## What reaches the broker -/

theorem foldl_arrive {unprocessed : List MqttPacket} (h : ∀ n ∈ notes, n.out ≠ .openBroker) :
    notes.foldl Noted.arrive unprocessed = unprocessed ++ notes.filterMap Noted.packet := by
  induction notes generalizing unprocessed with
  | nil => exact (List.append_nil _).symm
  | cons n notes ih =>
      obtain ⟨hn, h⟩ := List.forall_mem_cons.mp h
      have harrive : Noted.arrive unprocessed n = unprocessed ++ n.packet.toList := by
        unfold Noted.arrive
        split
        · next hopen => exact absurd hopen hn
        · rfl
      rw [List.foldl_cons, ih h, harrive, List.append_assoc]
      cases hp : n.packet <;> simp [hp]

theorem filterMap_packet_own {α : Type} (f : α → Frame) (xs : List α) :
    (xs.map (fun x => Noted.own (.toClient (f x)))).filterMap Noted.packet = [] := by
  refine List.filterMap_eq_nil_iff.mpr (fun n hn => ?_)
  obtain ⟨x, -, rfl⟩ := List.mem_map.mp hn
  rfl

theorem filterMap_packet_carry (f : Stamped MqttPacket → Frame) (ms : List (Stamped MqttPacket)) :
    (ms.map (fun m => Noted.carry (f m) m)).filterMap Noted.packet = ms.map Stamped.item := by
  rw [List.filterMap_map, ← List.filterMap_eq_map]
  rfl

/-- A replay brings the broker the re-SUBSCRIBE, the window and the buffer. -/
theorem foldl_arrive_replayNotes (unprocessed : List MqttPacket) :
    (replayNotes c s l).foldl Noted.arrive unprocessed =
      (s.subscriptions.resubscribePacket s.hs.version).toList
        ++ (l.inflight.values.map Stamped.item ++ l.queued.map Stamped.item) := by
  rw [replayNotes, List.foldl_append]
  show List.foldl Noted.arrive [] _ = _
  rw [foldl_arrive]
  · have hresub : ((resubscribeFrames s.hs.version s.subscriptions).map
        (fun f => Noted.own (.toBroker f))).filterMap Noted.packet
          = (s.subscriptions.resubscribePacket s.hs.version).toList := by
      rw [resubscribeFrames, List.map_map, List.filterMap_map]
      exact List.filterMap_some
    simp only [List.nil_append, List.filterMap_append, hresub, filterMap_packet_own,
      filterMap_packet_carry]
  · simp only [List.mem_append, List.mem_map]
    rintro n (⟨f, -, rfl⟩ | ⟨p, -, rfl⟩ | ⟨m, -, rfl⟩ | ⟨r, -, rfl⟩ | ⟨m, -, rfl⟩)
    all_goals rintro ⟨⟩

/-- The replay makes the broker's subscriptions the proxy's, unless it has missed one. -/
theorem replay_converges (hs : TableSound c s l) (broker : Subscriptions) :
    (((s.subscriptions.resubscribePacket s.hs.version).toList
        ++ (l.inflight.values.map Stamped.item ++ l.queued.map Stamped.item)).foldl
          Subscriptions.track broker).options = s.subscriptions.options ↔
      ∀ e ∈ broker.entries, (s.subscriptions.options e.topicFilter).isSome = true ∨
        e.topicFilter ∈ (l.queued.flatMap (fun m => m.item.assignments)).map Prod.fst := by
  obtain ⟨older, holder⟩ := hs.queued
  have hqueued : (l.queued.map Stamped.item).flatMap MqttPacket.assignments
      = l.queued.flatMap (fun m => m.item.assignments) := List.flatMap_map ..
  have hinflight : (l.inflight.values.map Stamped.item).flatMap MqttPacket.assignments = [] := by
    refine List.flatMap_eq_nil_iff.mpr (fun p hp => ?_)
    obtain ⟨m, hm, rfl⟩ := List.mem_map.mp hp
    exact hs.inflight m hm
  have htable : s.subscriptions.options = Assign.run older.options
      (l.queued.flatMap (fun m => m.item.assignments)) := by
    rw [← hqueued, ← Subscriptions.options_foldl_track, ← holder]
  rw [Subscriptions.options_foldl_track, List.flatMap_append, List.flatMap_append, hinflight,
    hqueued, Subscriptions.assignments_resubscribe hs.tracked, List.nil_append]
  refine (Assign.refresh_eq_iff hs.tracked.nodup htable).trans ?_
  constructor
  · intro h e he
    exact h e.topicFilter (Subscriptions.options_isSome.mpr ⟨e, he, rfl⟩)
  · intro h f hf
    obtain ⟨e, he, rfl⟩ := Subscriptions.options_isSome.mp hf
    exact h e he

/-! ## One step -/

theorem Topics.nothingMissed_of_not_opens (h : e.opens = false) :
    t.NothingMissed (.session e) := by
  unfold Topics.NothingMissed
  split
  · next he =>
      rw [TopicsEvent.session.inj he] at h
      exact nomatch h
  · trivial

/-- What a live connection brings the broker, it does as the proxy does. -/
theorem settled_track (p : MqttPacket) {broker table : Subscriptions} {ps : List MqttPacket}
    (h : (ps.foldl Subscriptions.track broker).options = table.options) :
    ((ps ++ [p]).foldl Subscriptions.track broker).options = (table.track p).options := by
  rw [List.foldl_append, List.foldl_cons, List.foldl_nil, Subscriptions.options_track, h,
    Subscriptions.options_track]

/-- What a step brings the broker, which has `unprocessed` in front of it. -/
inductive Arrival (c : Codec) (s : Session) (l : Ledger) (unprocessed : List MqttPacket) (e : Event)
    (s' : Session) (unprocessed' : List MqttPacket) : Prop where
  | cut (opens : e.opens = false) (down : s'.broker.isSome = false)
  | brought (opens : e.opens = false) (up : s.broker.isSome = true)
      (eq : unprocessed' = unprocessed ++ e.clientPacket.toList)
  | replayed {a : Attempt} (wait : e = .wait (some a)) (up : s'.broker.isSome = true)
      (eq : unprocessed' = (s.subscriptions.resubscribePacket s.hs.version).toList
        ++ (l.inflight.values.map Stamped.item ++ l.queued.map Stamped.item))

theorem Transition.arrival (h : Transition c s e s' out) (hm : Ledger.Matches c s l)
    (unprocessed : List MqttPacket) :
    Arrival c s l unprocessed e s'
      ((annotate c s l e out).foldl Noted.arrive unprocessed) := by
  cases h with
  | idle quiet same =>
      cases hup : s.broker.isSome with
      | false => exact .cut quiet.opens (same.up ▸ hup)
      | true =>
          refine .brought quiet.opens hup ?_
          rw [annotate_nil, quiet.clientPacket]
          exact (List.append_nil _).symm
  | @forwarded now p after pong pongs up answered =>
      refine .brought rfl up ?_
      obtain ⟨fs, -, rfl⟩ := answerPing_toClient answered
      rw [annotate, List.map_append, List.map_map, foldl_arrive]
      · rw [List.filterMap_append]
        exact congrArg (fun l => unprocessed ++ (l ++ [p])) (filterMap_packet_own id fs)
      · simp only [List.mem_append, List.mem_map]
        rintro n (⟨f, -, rfl⟩ | ⟨o, ho, rfl⟩)
        · intro h
          cases h
        · rw [List.mem_singleton.mp ho]
          intro h
          cases h
  | unsent up answered => exact .cut rfl rfl
  | held down serviced =>
      refine .cut rfl ?_
      show s.broker.isSome = false
      rw [down]
      rfl
  | delivered up passedOn => exact .brought rfl up rfl
  | lost up quiet => exact .cut rfl rfl
  | @replayed a raw down patched serves =>
      refine .replayed rfl rfl ?_
      have hnotes : annotate c s l (.wait (some a)) (.openBroker :: s.replayPlan c raw)
          = replayNotes c s l := by
        have hout := congrArg List.length (replayNotes_out hm)
        rw [patchedConnect_ok patched, List.length_map] at hout
        rw [annotate, ← hout, List.take_length]
      rw [hnotes, foldl_arrive_replayNotes]
  | migrated id now keepAlive => exact .cut rfl rfl

theorem Topics.converges_session (hI : TableSound c s t.journal.ledger)
    (hj : t.journal.session = .running s) (hP : t.Converges)
    (hspeaks : e.speaks s.hs.version = true)
    (hf : forwardLoop c (.running s) e = some (.running s', out)) :
    Converges ⟨⟨.running s', Ledger.after c s t.journal.ledger e⟩, t.broker,
      (annotate c s t.journal.ledger e out).foldl Noted.arrive t.unprocessed⟩ ↔
        t.NothingMissed (.session e) := by
  have ht := forwardLoop_running hf
  have hread := (ht.tableSound hI hspeaks).read
  have htable := ht.subscriptions
  unfold Topics.Converges at hP
  rw [hj] at hP
  have hP : s.broker.isSome = true → t.settled.options = s.subscriptions.options :=
    fun up => (hP up).1
  -- what is left to show is about the tables, while a broker is there
  refine Iff.trans (b := s'.broker.isSome = true →
      (((annotate c s t.journal.ledger e out).foldl Noted.arrive t.unprocessed).foldl
        Subscriptions.track t.broker).options = s'.subscriptions.options)
    ⟨fun h up => (h up).1, fun h up => ⟨h up, hread⟩⟩ ?_
  cases ht.arrival hI.ledger t.unprocessed with
  | cut opens down =>
      refine iff_of_true (fun up => ?_) (Topics.nothingMissed_of_not_opens opens)
      exact nomatch down.symm.trans up
  | brought opens up eq =>
      refine iff_of_true (fun _ => ?_) (Topics.nothingMissed_of_not_opens opens)
      rw [eq, htable]
      cases e.clientPacket with
      | none =>
          rw [Option.toList_none, List.append_nil]
          exact hP up
      | some p => exact settled_track p (hP up)
  | @replayed a wait up eq =>
      subst wait
      rw [eq, htable]
      unfold Topics.NothingMissed
      rw [hj]
      exact (forall_prop_of_true up).trans (replay_converges hI t.broker)

/-- It does not matter whether the broker has processed a packet yet. -/
theorem Topics.converges_process {p : MqttPacket} {rest : List MqttPacket}
    (hp : t.unprocessed = p :: rest) (hP : t.Converges) :
    Converges { t with broker := t.broker.track p, unprocessed := rest } ↔
      t.NothingMissed .process := by
  refine iff_of_true ?_ ?_
  · have hsettled : settled { t with broker := t.broker.track p, unprocessed := rest }
        = t.settled := by
      rw [Topics.settled, Topics.settled, hp]
      rfl
    unfold Topics.Converges at hP ⊢
    rw [hsettled]
    exact hP
  · unfold Topics.NothingMissed
    split
    · next he => exact nomatch he
    · trivial

/-! ## Runs -/

/-- Once a replay, or anything else that is written, has been processed, the broker's
subscriptions are those of the proxy: exactly in the runs whose replays miss no filter
that the broker still has. -/
theorem topicsConverge_iff {id : SessionId} {hs : Handshake} {client broker : Reader UInt8}
    {now : Nat} {es : List TopicsEvent}
    (hrun : (topicsMachine c).run (.initial (Session.initial id hs client broker now)) es
      = some (t, notes))
    (hlive : t.journal.session = .running s) :
    (topicsMachine c).Always Topics.Converges
        (.initial (Session.initial id hs client broker now)) es ↔
      (topicsMachine c).Along Topics.NothingMissed
        (.initial (Session.initial id hs client broker now)) es := by
  have hstart : (Topics.initial (Session.initial id hs client broker now)).Converges :=
    fun _ => ⟨rfl, rfl⟩
  refine (Machine.always_iff_live (L := fun t s => t.journal.session = .running s)
    (J := fun t s => TableSound c s t.journal.ledger) ?_ ?_ hrun hlive).trans
    (and_iff_right hstart)
  · intro t ev t' notes s' hj' hs
    cases ev with
    | session e =>
        obtain ⟨s, o, out, hj, hspeaks, hf, rfl, rfl⟩ := Topics.session_eq_some.mp hs
        have ho : o = .running s' := hj'
        subst ho
        refine ⟨s, hj, fun hI => ⟨(forwardLoop_running hf).tableSound hI hspeaks, fun hP => ?_⟩⟩
        exact Topics.converges_session hI hj hP hspeaks hf
    | process =>
        obtain ⟨p, rest, hp, rfl, -⟩ := (Topics.process_eq_some (c := c)).mp hs
        exact ⟨s', hj', fun hI => ⟨hI, Topics.converges_process hp⟩⟩
  · rintro s' hj'
    obtain rfl := Outcome.running.inj hj'
    exact .initial id hs client broker now

/-- The proxy's table, the broker's, and what the broker has not processed, while they
are connected. -/
def Topics.tables (t : Topics) : Option (Subscriptions × Subscriptions × List MqttPacket) :=
  match t.journal.session with
  | .running s =>
      if s.broker.isSome then some (s.subscriptions, t.broker, t.unprocessed) else none
  | .ended _ => none

theorem Topics.tables_eq_some {table broker : Subscriptions} {unprocessed : List MqttPacket}
    (h : t.tables = some (table, broker, unprocessed)) :
    ∃ s, t.journal.session = .running s ∧ s.broker.isSome = true ∧ s.subscriptions = table ∧
      t.broker = broker ∧ t.unprocessed = unprocessed := by
  unfold Topics.tables at h
  split at h
  · next s hj =>
      split at h
      · next up =>
          obtain ⟨rfl, hrest⟩ := Prod.mk.inj (Option.some.inj h)
          obtain ⟨rfl, rfl⟩ := Prod.mk.inj hrest
          exact ⟨s, hj, up, rfl, rfl, rfl⟩
      · cases h
  · cases h

namespace ReferenceCodec

/-- A SUBSCRIBE is lost with its connection; the client unsubscribes in the outage. -/
def unsubscribedInOutage : List TopicsEvent :=
  [.session (forwarded subscribe), .session brokerCloses, .session (forwarded unsubscribe),
    .session (.wait (some accepting)), .process]

/-- A SUBSCRIBE is processed; an UNSUBSCRIBE is lost with its connection. -/
def unsubscribedTooLate : List TopicsEvent :=
  [.session (forwarded subscribe), .process, .session (forwarded unsubscribe),
    .session brokerCloses, .session (.wait (some accepting))]

end ReferenceCodec

open ReferenceCodec in
/-- The flushed UNSUBSCRIBE is processed, and neither side has a subscription. -/
theorem topicsConverge_flushed : ∃ t notes,
    (topicsMachine (codec true)).run (.initial session) unsubscribedInOutage = some (t, notes) ∧
    t.tables = some (.empty, .empty, []) ∧
    (topicsMachine (codec true)).Always Topics.Converges (.initial session)
      unsubscribedInOutage := by
  have hview : ((topicsMachine (codec true)).run (.initial session) unsubscribedInOutage).map
      (fun r => r.1.tables) = some (some (.empty, .empty, [])) := by
    decide +kernel
  obtain ⟨⟨t, notes⟩, hrun, htables⟩ := Option.map_eq_some_iff.mp hview
  obtain ⟨s, hlive, -⟩ := Topics.tables_eq_some htables
  exact ⟨t, notes, hrun, htables, (topicsConverge_iff hrun hlive).mpr (by decide +kernel)⟩

open ReferenceCodec in
/-- All that was written has been processed, and the broker has a subscription that
the client has taken back. -/
theorem topics_left_over : ∃ t notes,
    (topicsMachine (codec true)).run (.initial session) unsubscribedTooLate = some (t, notes) ∧
    t.tables = some (.empty, ⟨[⟨"t", 1⟩]⟩, []) ∧ ¬ t.Converges := by
  have hview : ((topicsMachine (codec true)).run (.initial session) unsubscribedTooLate).map
      (fun r => r.1.tables) = some (some (.empty, ⟨[⟨"t", 1⟩]⟩, [])) := by
    decide +kernel
  obtain ⟨⟨t, notes⟩, hrun, htables⟩ := Option.map_eq_some_iff.mp hview
  refine ⟨t, notes, hrun, htables, fun h => ?_⟩
  obtain ⟨s, hlive, up, htable, hbroker, hnone⟩ := Topics.tables_eq_some htables
  unfold Topics.Converges at h
  rw [hlive] at h
  have hoptions := congrFun (h up).1 "t"
  rw [Topics.settled, hnone, hbroker, htable] at hoptions
  exact absurd hoptions (by decide +kernel)

end TrafficDirector
