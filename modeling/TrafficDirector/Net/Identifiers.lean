/-
# `TrafficDirector.Net.Identifiers` — the broker's subscription identifiers

A v5 SUBSCRIBE gives all its filters its Subscription Identifier, or takes theirs away
when it has none.  The re-SUBSCRIBE of a replay has none, whatever the client's
SUBSCRIBEs had, so a replay clears the identifiers of the whole table, and only what is
flushed gives some back.  `identifiersKept_iff` says which runs keep them all.
-/
import TrafficDirector.Net.Topics

namespace TrafficDirector

open Framing (Reader)
open Resend (Stamped)

/-- What a packet does to the identifiers: an identifier for a filter, or none. -/
def MqttPacket.identifiers : MqttPacket → List (String × Option Nat)
  | .v3 (.subscribe _ topicFilters) => topicFilters.map (fun f => (f.1, none))
  | .v3 (.unsubscribe _ topicFilters) => topicFilters.map (fun f => (f, none))
  | .v5 (.subscribe subscribe) => subscribe.topicFilters.map (fun f => (f.1, subscribe.id))
  | .v5 (.unsubscribe unsubscribe) => unsubscribe.topicFilters.map (fun f => (f, none))
  | _ => []

/-- The identifiers of the filters that have one. -/
abbrev Identifiers := String → Option Nat

/-- The broker's identifiers after a step. -/
def Identifiers.after (t : Topics) (broker : Identifiers) (ev : TopicsEvent) (_ : List Noted) :
    Identifiers :=
  match ev, t.unprocessed with
  | .process, p :: _ => Assign.run broker p.identifiers
  | _, _ => broker

/-- A session, the subscriptions that its brokers keep, and their identifiers. -/
def identifiedMachine (c : Codec) : Machine (Topics × Identifiers) TopicsEvent Noted :=
  (topicsMachine c).record Identifiers.after

namespace Topics

/-- The identifiers that the client's packets have given. -/
def identifiers (t : Topics) : Identifiers :=
  Assign.run (fun _ => none) (t.journal.ledger.read.flatMap MqttPacket.identifiers)

/-- Once the broker has processed what is written to it, its identifiers are those that
the client has given. -/
def IdentifiersKept (t : Topics × Identifiers) : Prop :=
  match t.1.journal.session with
  | .running s => s.broker.isSome = true →
      Assign.run t.2 (t.1.unprocessed.flatMap MqttPacket.identifiers) = t.1.identifiers
  | .ended _ => True

/-- If the step opens a connection: a SUBSCRIBE or UNSUBSCRIBE is in the buffer for each
filter that has an identifier from the client, and for each outside the proxy's table
that has one with the broker. -/
def IdentifiersHeld (t : Topics × Identifiers) (ev : TopicsEvent) : Prop :=
  match t.1.journal.session, ev with
  | .running s, .session (.wait (some _)) =>
      (∀ f ∈ (t.1.journal.ledger.read.flatMap MqttPacket.identifiers).map Prod.fst,
        (t.1.identifiers f).isSome = true → f ∈ t.1.heldFilters) ∧
      ∀ e ∈ t.1.broker.entries, (t.2 e.topicFilter).isSome = true →
        (s.subscriptions.options e.topicFilter).isSome = true ∨ e.topicFilter ∈ t.1.heldFilters
  | _, _ => True

instance : ∀ (t : Topics × Identifiers) (ev : TopicsEvent), Decidable (IdentifiersHeld t ev)
  | (⟨⟨.ended _, _⟩, _, _⟩, _), _ => .isTrue trivial
  | (⟨⟨.running _, _⟩, _, _⟩, _), ev =>
      match ev with
      | .session (.wait (some _)) => inferInstanceAs (Decidable (_ ∧ _))
      | .session (.wait none) | .session (.clientBytes ..) | .session (.brokerBytes ..)
      | .session (.clientRead ..) | .session (.brokerRead ..) | .session (.freeze ..)
      | .session (.migrate ..) | .session (.keepalive ..) | .process => .isTrue trivial

end Topics

variable {c : Codec} {s s' : Session} {l : Ledger} {e : Event} {out : List Output}
  {t t' : Topics} {broker : Identifiers} {notes : List Noted}

/-! ## Packets -/

/-- A filter has an identifier only as long as it has options. -/
theorem MqttPacket.assignments_identifiers (p : MqttPacket) :
    List.Forall₂ (fun a b => a.1 = b.1 ∧ (b.2.isSome = true → a.2.isSome = true))
      p.assignments p.identifiers := by
  have hmap : ∀ {α : Type} (fs : List α) (k : α → String) (o : α → Option UInt8)
      (i : α → Option Nat), (∀ f, (i f).isSome = true → (o f).isSome = true) →
      List.Forall₂ (fun a b => a.1 = b.1 ∧ (b.2.isSome = true → a.2.isSome = true))
        (fs.map (fun f => (k f, o f))) (fs.map (fun f => (k f, i f))) := by
    intro α fs k o i h
    rw [List.forall₂_map_left_iff, List.forall₂_map_right_iff, List.forall₂_same]
    exact fun f _ => ⟨rfl, h f⟩
  cases p with
  | v3 q =>
      cases q with
      | subscribe => exact hmap _ _ _ _ (fun _ h => nomatch h)
      | unsubscribe => exact hmap _ _ _ _ (fun _ h => nomatch h)
      | _ => exact .nil
  | v5 q =>
      cases q with
      | subscribe => exact hmap _ _ _ _ (fun _ _ => rfl)
      | unsubscribe => exact hmap _ _ _ _ (fun _ h => nomatch h)
      | _ => exact .nil

theorem MqttPacket.identifiers_keys (p : MqttPacket) :
    p.identifiers.map Prod.fst = p.assignments.map Prod.fst := by
  have h := p.assignments_identifiers
  generalize p.assignments = as at h ⊢
  generalize p.identifiers = is at h ⊢
  induction h with
  | nil => rfl
  | cons hab _ ih => rw [List.map_cons, List.map_cons, ih, hab.1]

theorem identifiers_eq_nil {p : MqttPacket} (h : p.assignments = []) : p.identifiers = [] := by
  have hkeys := p.identifiers_keys
  rw [h] at hkeys
  exact List.map_eq_nil_iff.mp hkeys

theorem flatMap_identifiers_keys (ps : List MqttPacket) :
    (ps.flatMap MqttPacket.identifiers).map Prod.fst
      = (ps.flatMap MqttPacket.assignments).map Prod.fst := by
  rw [List.map_flatMap, List.map_flatMap]
  exact congrArg ps.flatMap (funext MqttPacket.identifiers_keys)

/-- The re-SUBSCRIBE clears the identifiers of the table. -/
theorem identifiers_resubscribe (table : Subscriptions) (v : ProtocolVersion) :
    (table.resubscribePacket v).toList.flatMap MqttPacket.identifiers
      = Assign.clear (table.entries.map SubscriptionEntry.topicFilter) := by
  unfold Subscriptions.resubscribePacket Assign.clear
  split
  · next hnil =>
      rw [List.isEmpty_iff.mp hnil]
      rfl
  · cases v with
    | mqtt3 =>
        show (table.entries.map _).map _ ++ [] = _
        rw [List.append_nil, List.map_map, List.map_map]
        rfl
    | mqtt5 =>
        show (table.entries.map _).map _ ++ [] = _
        rw [List.append_nil, List.map_map, List.map_map]
        rfl

/-! ## What the session keeps -/

/-- What the client has given is the work of what is in the buffer, on top of older
identifiers; and what the broker has an identifier for, it has a subscription for. -/
structure IdentifierSound (c : Codec) (s : Session) (t : Topics) (broker : Identifiers) :
    Prop where
  table : TableSound c s t.journal.ledger
  queued : ∃ older : Identifiers, t.identifiers
    = Assign.run older (t.journal.ledger.queued.flatMap (fun m => m.item.identifiers))
  broker : ∀ f, (broker f).isSome = true → (t.broker.options f).isSome = true

theorem Topics.identifiers_after (e : Event) (o : Outcome) (table : Subscriptions)
    (unprocessed : List MqttPacket) :
    Topics.identifiers ⟨⟨o, Ledger.after c s t.journal.ledger e⟩, table, unprocessed⟩
      = Assign.run t.identifiers (e.clientPacket.toList.flatMap MqttPacket.identifiers) := by
  rw [Topics.identifiers, Ledger.after_read, List.flatMap_append, Assign.run_append]
  rfl

theorem Transition.identifierSound (h : Transition c s e s' out)
    (hs : IdentifierSound c s t broker) (hspeaks : e.speaks s.hs.version = true)
    (o : Outcome) (unprocessed : List MqttPacket) :
    IdentifierSound c s' ⟨⟨o, Ledger.after c s t.journal.ledger e⟩, t.broker, unprocessed⟩
      broker where
  table := h.tableSound hs.table hspeaks
  broker := hs.broker
  queued := by
    obtain ⟨older, holder⟩ := hs.queued
    rw [Topics.identifiers_after]
    rcases h.queued_cases hs.table.ledger with hq | ⟨hq, hno⟩ | ⟨p, hp, hq⟩
    · refine ⟨Assign.run t.identifiers (e.clientPacket.toList.flatMap MqttPacket.identifiers), ?_⟩
      show _ = Assign.run _ ((Ledger.after c s t.journal.ledger e).queued.flatMap _)
      rw [hq]
      rfl
    · refine ⟨older, ?_⟩
      show _ = Assign.run _ ((Ledger.after c s t.journal.ledger e).queued.flatMap _)
      rw [hq, ← holder]
      cases hp : e.clientPacket with
      | none => rfl
      | some p => simp [identifiers_eq_nil (hno p hp)]
    · refine ⟨older, ?_⟩
      show _ = Assign.run _ ((Ledger.after c s t.journal.ledger e).queued.flatMap _)
      rw [hq, hp, List.flatMap_append, Assign.run_append, ← holder]
      rfl

/-- The broker processes a packet. -/
theorem IdentifierSound.process {p : MqttPacket} (hs : IdentifierSound c s t broker)
    (rest : List MqttPacket) :
    IdentifierSound c s { t with broker := t.broker.track p, unprocessed := rest }
      (Assign.run broker p.identifiers) where
  table := hs.table
  queued := hs.queued
  broker := by
    intro f hf
    show ((t.broker.track p).options f).isSome = true
    rw [Subscriptions.options_track]
    exact Assign.run_isSome_mono p.assignments_identifiers hs.broker f hf

/-- What the client has given an identifier, the proxy's table has. -/
theorem IdentifierSound.options_isSome (hs : IdentifierSound c s t broker) (f : String)
    (hf : (t.identifiers f).isSome = true) : (s.subscriptions.options f).isSome = true := by
  have hall : ∀ ps : List MqttPacket,
      List.Forall₂ (fun a b => a.1 = b.1 ∧ (b.2.isSome = true → a.2.isSome = true))
        (ps.flatMap MqttPacket.assignments) (ps.flatMap MqttPacket.identifiers) := by
    intro ps
    induction ps with
    | nil => exact .nil
    | cons p ps ih => exact List.rel_append p.assignments_identifiers ih
  rw [hs.table.read, Subscriptions.options_foldl_track]
  refine Assign.run_isSome_mono (hall _) ?_ f hf
  intro k hk
  exact nomatch hk

/-! ## One step -/

/-- A replay keeps the identifiers, unless one is given outside the buffer. -/
theorem replay_identifiers (hs : IdentifierSound c s t broker) :
    Assign.run broker (((s.subscriptions.resubscribePacket s.hs.version).toList
        ++ (t.journal.ledger.inflight.values.map Stamped.item
          ++ t.journal.ledger.queued.map Stamped.item)).flatMap MqttPacket.identifiers)
        = t.identifiers ↔
      (∀ f ∈ (t.journal.ledger.read.flatMap MqttPacket.identifiers).map Prod.fst,
        (t.identifiers f).isSome = true → f ∈ t.heldFilters) ∧
      ∀ e ∈ t.broker.entries, (broker e.topicFilter).isSome = true →
        (s.subscriptions.options e.topicFilter).isSome = true ∨
          e.topicFilter ∈ t.heldFilters := by
  obtain ⟨older, holder⟩ := hs.queued
  have hinflight : (t.journal.ledger.inflight.values.map Stamped.item).flatMap
      MqttPacket.identifiers = [] := by
    refine List.flatMap_eq_nil_iff.mpr (fun p hp => ?_)
    obtain ⟨m, hm, rfl⟩ := List.mem_map.mp hp
    exact identifiers_eq_nil (hs.table.inflight m hm)
  have hqueued : (t.journal.ledger.queued.map Stamped.item).flatMap MqttPacket.identifiers
      = t.journal.ledger.queued.flatMap (fun m => m.item.identifiers) := List.flatMap_map ..
  have hkeys : (t.journal.ledger.queued.flatMap (fun m => m.item.identifiers)).map Prod.fst
      = t.heldFilters := by
    rw [← hqueued, flatMap_identifiers_keys, List.flatMap_map]
    rfl
  have htable : ∀ f, f ∈ s.subscriptions.entries.map SubscriptionEntry.topicFilter ↔
      (s.subscriptions.options f).isSome = true := by
    intro f
    rw [Subscriptions.options_isSome]
    exact List.mem_map
  rw [List.flatMap_append, List.flatMap_append, hinflight, hqueued, List.nil_append,
    identifiers_resubscribe]
  refine (Assign.clear_eq_iff (fun f hf => (htable f).mpr (hs.options_isSome f hf)) holder).trans ?_
  rw [hkeys]
  constructor
  · intro h
    refine ⟨?_, ?_⟩
    · intro f _ hf
      by_contra hheld
      rw [(h f hheld).1] at hf
      exact nomatch hf
    · intro e _ he
      by_cases hheld : e.topicFilter ∈ t.heldFilters
      · exact .inr hheld
      · exact .inl ((htable _).mp ((h _ hheld).2 he))
  · rintro ⟨hclient, hbroker⟩ f hheld
    refine ⟨?_, ?_⟩
    · rw [← Option.not_isSome_iff_eq_none]
      intro hf
      refine hheld (hclient f ?_ hf)
      by_contra hno
      rw [Topics.identifiers, Assign.run_of_not_mem hno] at hf
      exact nomatch hf
    · intro hf
      obtain ⟨e, he, rfl⟩ := Subscriptions.options_isSome.mp (hs.broker f hf)
      exact (htable _).mpr ((hbroker e he hf).resolve_right hheld)

theorem Topics.identifiersHeld_of_not_opens (h : e.opens = false) :
    Topics.IdentifiersHeld (t, broker) (.session e) := by
  unfold Topics.IdentifiersHeld
  split
  · next he =>
      rw [TopicsEvent.session.inj he] at h
      cases h
  · trivial

theorem Topics.identifiersKept_session (hI : IdentifierSound c s t broker)
    (hj : t.journal.session = .running s) (hP : IdentifiersKept (t, broker))
    (hf : forwardLoop c (.running s) e = some (.running s', out)) :
    IdentifiersKept (⟨⟨.running s', Ledger.after c s t.journal.ledger e⟩, t.broker,
      (annotate c s t.journal.ledger e out).foldl Noted.arrive t.unprocessed⟩, broker) ↔
        IdentifiersHeld (t, broker) (.session e) := by
  have ht := forwardLoop_running hf
  unfold IdentifiersKept at hP
  rw [hj] at hP
  refine Iff.trans (b := s'.broker.isSome = true →
      Assign.run broker (((annotate c s t.journal.ledger e out).foldl Noted.arrive
        t.unprocessed).flatMap MqttPacket.identifiers)
      = Assign.run t.identifiers (e.clientPacket.toList.flatMap MqttPacket.identifiers)) ?_ ?_
  · rw [← Topics.identifiers_after]
    exact Iff.rfl
  cases ht.arrival hI.table.ledger t.unprocessed with
  | cut opens down =>
      refine iff_of_true (fun up => ?_) (Topics.identifiersHeld_of_not_opens opens)
      exact nomatch down.symm.trans up
  | brought opens up eq =>
      refine iff_of_true (fun _ => ?_) (Topics.identifiersHeld_of_not_opens opens)
      rw [eq, List.flatMap_append, Assign.run_append, hP up]
  | @replayed a wait up eq =>
      subst wait
      rw [eq]
      unfold Topics.IdentifiersHeld
      rw [hj]
      exact (forall_prop_of_true up).trans (replay_identifiers hI)

/-- It does not matter whether the broker has processed a packet yet. -/
theorem Topics.identifiersKept_process {p : MqttPacket} {rest : List MqttPacket}
    (hp : t.unprocessed = p :: rest) (hP : IdentifiersKept (t, broker)) :
    IdentifiersKept ({ t with broker := t.broker.track p, unprocessed := rest },
      Assign.run broker p.identifiers) ↔ IdentifiersHeld (t, broker) .process := by
  refine iff_of_true ?_ ?_
  · unfold IdentifiersKept at hP ⊢
    rw [hp, List.flatMap_cons, Assign.run_append] at hP
    exact hP
  · unfold IdentifiersHeld
    split
    · next he => cases he
    · trivial

/-! ## Runs -/

/-- The broker's identifiers are those that the client has given, exactly in the runs
whose replays find, for each filter with an identifier, a SUBSCRIBE or UNSUBSCRIBE in
the outage buffer. -/
theorem identifiersKept_iff {id : SessionId} {hs : Handshake} {client up : Reader UInt8}
    {now : Nat} {es : List TopicsEvent}
    (hrun : (identifiedMachine c).run
      (.initial (Session.initial id hs client up now), fun _ => none) es
        = some ((t, broker), notes))
    (hlive : t.journal.session = .running s) :
    (identifiedMachine c).Always Topics.IdentifiersKept
        (.initial (Session.initial id hs client up now), fun _ => none) es ↔
      (identifiedMachine c).Along Topics.IdentifiersHeld
        (.initial (Session.initial id hs client up now), fun _ => none) es := by
  refine (Machine.always_iff_live (L := fun t s => t.1.journal.session = .running s)
    (J := fun t s => IdentifierSound c s t.1 t.2) ?_ ?_ hrun hlive).trans
    (and_iff_right (fun _ => rfl))
  · rintro ⟨t, broker⟩ ev ⟨t', broker'⟩ notes s' hj' hstep
    obtain ⟨hstep, hbroker⟩ := Machine.record_step_eq_some.mp hstep
    obtain rfl : broker' = Identifiers.after t broker ev notes := hbroker
    cases ev with
    | session e =>
        obtain ⟨s, o, out, hj, hspeaks, hf, rfl, rfl⟩ := Topics.session_eq_some.mp hstep
        have ho : o = .running s' := hj'
        subst ho
        have hkept : Identifiers.after t broker (.session e)
            (annotate c s t.journal.ledger e out) = broker := rfl
        rw [hkept]
        refine ⟨s, hj, fun hI => ⟨(forwardLoop_running hf).identifierSound hI hspeaks _ _, ?_⟩⟩
        intro hP
        exact Topics.identifiersKept_session hI hj hP hf
    | process =>
        obtain ⟨p, rest, hp, rfl, -⟩ := (Topics.process_eq_some (c := c)).mp hstep
        have hkept : Identifiers.after t broker .process notes
            = Assign.run broker p.identifiers := by
          unfold Identifiers.after
          rw [hp]
        rw [hkept]
        refine ⟨s', hj', fun hI => ⟨hI.process rest, ?_⟩⟩
        intro hP
        exact Topics.identifiersKept_process hp hP
  · rintro s' hj'
    obtain rfl := Outcome.running.inj hj'
    refine ⟨.initial id hs client up now, ⟨fun _ => none, rfl⟩, ?_⟩
    intro f h
    exact nomatch h

/-- The broker's identifier and the client's for a filter, once the broker has processed
all that is written to it. -/
def Topics.identifiersOf (t : Topics × Identifiers) (f : String) : Option (Option Nat × Option Nat) :=
  match t.1.journal.session with
  | .running s =>
      if s.broker.isSome ∧ t.1.unprocessed = [] then some (t.2 f, t.1.identifiers f) else none
  | .ended _ => none

theorem Topics.identifiersOf_eq_some {f : String} {i j : Option Nat}
    (h : Topics.identifiersOf (t, broker) f = some (i, j)) :
    ∃ s, t.journal.session = .running s ∧ s.broker.isSome = true ∧ t.unprocessed = [] ∧
      broker f = i ∧ t.identifiers f = j := by
  unfold Topics.identifiersOf at h
  split at h
  · next s hj =>
      split at h
      · next hup =>
          obtain ⟨rfl, rfl⟩ := Prod.mk.inj (Option.some.inj h)
          exact ⟨s, hj, hup.1, hup.2, rfl, rfl⟩
      · cases h
  · cases h

namespace ReferenceCodec

/-- A SUBSCRIBE with the identifier 7 is lost with its connection, and repeated in the
outage. -/
def subscribedAgain : List TopicsEvent :=
  [.session brokerCloses, .session (forwarded (subscribeV5 (some 7))),
    .session (.wait (some acceptingV5)), .process, .process]

/-- A SUBSCRIBE with the identifier 7 is processed and acknowledged; the broker restarts. -/
def subscribedOnce : List TopicsEvent :=
  [.session (forwarded (subscribeV5 (some 7))), .process, .session (delivered subackV5),
    .session brokerCloses, .session (.wait (some acceptingV5)), .process]

end ReferenceCodec

open ReferenceCodec in
theorem identifiersKept_flushed : ∃ t broker notes,
    (identifiedMachine (codec true)).run (.initial sessionV5, fun _ => none) subscribedAgain
      = some ((t, broker), notes) ∧
    Topics.identifiersOf (t, broker) "t" = some (some 7, some 7) ∧
    (identifiedMachine (codec true)).Always Topics.IdentifiersKept
      (.initial sessionV5, fun _ => none) subscribedAgain := by
  have hview : ((identifiedMachine (codec true)).run (.initial sessionV5, fun _ => none)
      subscribedAgain).map (fun r => Topics.identifiersOf r.1 "t")
        = some (some (some 7, some 7)) := by
    decide +kernel
  obtain ⟨⟨⟨t, broker⟩, notes⟩, hrun, hids⟩ := Option.map_eq_some_iff.mp hview
  obtain ⟨s, hlive, -⟩ := Topics.identifiersOf_eq_some hids
  exact ⟨t, broker, notes, hrun, hids, (identifiersKept_iff hrun hlive).mpr (by decide +kernel)⟩

open ReferenceCodec in
/-- After the replay the broker has no identifier where the client has given 7. -/
theorem identifiers_cleared : ∃ t broker notes,
    (identifiedMachine (codec true)).run (.initial sessionV5, fun _ => none) subscribedOnce
      = some ((t, broker), notes) ∧
    Topics.identifiersOf (t, broker) "t" = some (none, some 7) ∧
    ¬ Topics.IdentifiersKept (t, broker) := by
  have hview : ((identifiedMachine (codec true)).run (.initial sessionV5, fun _ => none)
      subscribedOnce).map (fun r => Topics.identifiersOf r.1 "t")
        = some (some (none, some 7)) := by
    decide +kernel
  obtain ⟨⟨⟨t, broker⟩, notes⟩, hrun, hids⟩ := Option.map_eq_some_iff.mp hview
  refine ⟨t, broker, notes, hrun, hids, ?_⟩
  intro h
  obtain ⟨s, hlive, up, hnone, hbroker, hclient⟩ := Topics.identifiersOf_eq_some hids
  unfold Topics.IdentifiersKept at h
  rw [hlive] at h
  have hkept : Assign.run broker (t.unprocessed.flatMap _) "t" = t.identifiers "t" :=
    congrFun (h up) "t"
  rw [hnone, List.flatMap_nil, Assign.run_nil, hbroker, hclient] at hkept
  exact nomatch hkept

end TrafficDirector
