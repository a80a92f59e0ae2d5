/-
# `TrafficDirector.Session.Resubscribe` — the re-SUBSCRIBE is what was asked for last

The client's SUBSCRIBE and UNSUBSCRIBE packets mention topic filters, with options or
to take them out (`MqttPacket.mentions`).  The table keeps the options packed into a
byte, overwrites them in place and drops them by a scan, and `resubscribe_packet`
unpacks them again.  What comes out is the last mention of each filter
(`resubscribe_lastWriter`), in the terms of the packets on either side.
-/
import Mathlib.Data.List.Induction
import TrafficDirector.Session.Subscriptions

namespace TrafficDirector

/-- The options of a v3 SUBSCRIBE, which only asks for a QoS. -/
def V5.SubscriptionOptions.ofQos (q : QoS) : V5.SubscriptionOptions where
  qos := q
  noLocal := false
  retainAsPublished := false
  retainHandling := .atSubscribe

open V5.SubscriptionOptions (ofQos)

/-- The filters a packet mentions: with options to subscribe to, or none to take out. -/
def MqttPacket.mentions : MqttPacket → List (String × Option V5.SubscriptionOptions)
  | .v3 (.subscribe _ topicFilters) => topicFilters.map (fun f => (f.1, some (ofQos f.2)))
  | .v3 (.unsubscribe _ topicFilters) => topicFilters.map (fun f => (f, none))
  | .v5 (.subscribe subscribe) => subscribe.topicFilters.map (fun f => (f.1, some f.2))
  | .v5 (.unsubscribe unsubscribe) => unsubscribe.topicFilters.map (fun f => (f, none))
  | _ => []

namespace Subscriptions

/-- The filters that the re-SUBSCRIBE lists. -/
def listing (v : ProtocolVersion) (s : Subscriptions) :
    List (String × Option V5.SubscriptionOptions) :=
  (s.resubscribePacket v).toList.flatMap MqttPacket.mentions

/-- The re-SUBSCRIBE of the table `s` is the last-writer view of `ps`. -/
structure LastWriter (v : ProtocolVersion) (ps : List MqttPacket) (s : Subscriptions) : Prop where
  subscribes : ∀ p, s.resubscribePacket v = some p →
    p.version = v ∧ p.shape = .subscribe resubscribeId.get
  once : ((s.listing v).map Prod.fst).Nodup
  listed : ∀ f o, (f, some o) ∈ s.listing v ↔
    OrdMap.lastFor f (ps.flatMap MqttPacket.mentions) = some (some o)
  silent : s.resubscribePacket v = none ↔
    ∀ f o, OrdMap.lastFor f (ps.flatMap MqttPacket.mentions) ≠ some (some o)
  stable : ∀ p, s.resubscribePacket v = some p → s.track p = s

/-! ## Options and their byte -/

/-- The byte in which `track` keeps the options of a packet of this version. -/
def byteFor (v : ProtocolVersion) (o : V5.SubscriptionOptions) : UInt8 :=
  match v with
  | .mqtt3 => o.qos.toU8
  | .mqtt5 => optionsByte o

/-- The options that the re-SUBSCRIBE makes of an entry. -/
def asked (v : ProtocolVersion) (e : SubscriptionEntry) : V5.SubscriptionOptions :=
  match v with
  | .mqtt3 => ofQos (entryQos e)
  | .mqtt5 => entryOptions e

theorem entryQos_toU8 (f : String) (q : QoS) : entryQos ⟨f, q.toU8⟩ = q := by
  show entryQos ⟨"", q.toU8⟩ = q
  cases q <;> decide

theorem entryOptions_optionsByte (f : String) (o : V5.SubscriptionOptions) :
    entryOptions ⟨f, optionsByte o⟩ = o := by
  show entryOptions ⟨"", optionsByte o⟩ = o
  obtain ⟨q, noLocal, retainAsPublished, retainHandling⟩ := o
  cases q <;> cases noLocal <;> cases retainAsPublished <;> cases retainHandling <;> decide

variable {v : ProtocolVersion} {p : MqttPacket} {ps : List MqttPacket} {s : Subscriptions}
  {f : String} {o : V5.SubscriptionOptions}

/-- The table assigns to each filter the byte of what the packet mentions. -/
theorem assignments_eq_map (hv : p.version = v) :
    p.assignments = p.mentions.map (Prod.map id (Option.map (byteFor v))) := by
  subst hv
  rcases p with p | p <;> cases p
  case v3.subscribe i fs =>
    rw [MqttPacket.mentions, List.map_map]
    rfl
  case v3.unsubscribe i fs =>
    rw [MqttPacket.mentions, List.map_map]
    rfl
  case v5.subscribe s =>
    rw [MqttPacket.mentions, List.map_map]
    rfl
  case v5.unsubscribe u =>
    rw [MqttPacket.mentions, List.map_map]
    rfl
  all_goals rfl

/-- Nothing of the options is lost in the byte. -/
theorem asked_byteFor (hv : p.version = v) (h : (f, some o) ∈ p.mentions) (g : String) :
    asked v ⟨g, byteFor v o⟩ = o := by
  subst hv
  unfold MqttPacket.mentions at h
  split at h
  · obtain ⟨⟨f', q⟩, -, he⟩ := List.mem_map.mp h
    obtain rfl : ofQos q = o := Option.some.inj (congrArg Prod.snd he)
    exact congrArg ofQos (entryQos_toU8 g q)
  · obtain ⟨f', -, he⟩ := List.mem_map.mp h
    cases congrArg Prod.snd he
  · exact entryOptions_optionsByte g o
  · obtain ⟨f', -, he⟩ := List.mem_map.mp h
    cases congrArg Prod.snd he
  · cases h

/-! ## The table and the last mentions -/

theorem assignments_flatMap_eq (hv : ∀ p ∈ ps, p.version = v) :
    ps.flatMap MqttPacket.assignments =
      (ps.flatMap MqttPacket.mentions).map (Prod.map id (Option.map (byteFor v))) := by
  rw [List.map_flatMap]
  exact List.flatMap_congr (fun p hp => assignments_eq_map (hv p hp))

/-- What the table has is the byte of a last mention. -/
theorem options_eq_some (hv : ∀ p ∈ ps, p.version = v) {b : UInt8} :
    (ps.foldl track empty).options f = some b ↔
      ∃ o, OrdMap.lastFor f (ps.flatMap MqttPacket.mentions) = some (some o) ∧ byteFor v o = b := by
  rw [options_foldl_track, assignments_flatMap_eq hv, Assign.run_eq_lastFor, OrdMap.lastFor_map]
  cases OrdMap.lastFor f (ps.flatMap MqttPacket.mentions) with
  | none => simp [options, empty, pairs, OrdMap.Entries.lookup]
  | some a =>
      cases a with
      | none => simp
      | some o => simp

/-- What is mentioned last comes back from its byte. -/
theorem asked_of_lastFor (hv : ∀ p ∈ ps, p.version = v)
    (h : OrdMap.lastFor f (ps.flatMap MqttPacket.mentions) = some (some o)) :
    asked v ⟨f, byteFor v o⟩ = o := by
  obtain ⟨p, hp, hmem⟩ := List.mem_flatMap.mp (OrdMap.mem_of_lastFor h)
  exact asked_byteFor (hv p hp) hmem f

theorem foldl_track_tracked (hv : ∀ p ∈ ps, p.version = v) : (ps.foldl track empty).Tracked v := by
  induction ps using List.reverseRecOn with
  | nil => exact tracked_empty v
  | append_singleton ps p ih =>
      rw [List.foldl_append]
      exact (ih (fun q hq => hv q (List.mem_append_left _ hq))).track
        (hv p (List.mem_append_right _ List.mem_cons_self))

/-! ## The listing -/

theorem listing_eq : s.listing v = s.entries.map (fun e => (e.topicFilter, some (asked v e))) := by
  unfold listing resubscribePacket
  split
  · next h =>
      rw [List.isEmpty_iff.mp h]
      rfl
  · cases v with
    | mqtt3 =>
        show (s.entries.map _).map _ ++ [] = _
        rw [List.append_nil, List.map_map]
        rfl
    | mqtt5 =>
        show (s.entries.map _).map _ ++ [] = _
        rw [List.append_nil, List.map_map]
        rfl

theorem mem_listing (hs : s.Tracked v) : (f, some o) ∈ s.listing v ↔
    ∃ b, s.options f = some b ∧ asked v ⟨f, b⟩ = o := by
  rw [listing_eq, List.mem_map]
  constructor
  · rintro ⟨e, he, h⟩
    obtain ⟨rfl, ho⟩ := Prod.mk.inj h
    exact ⟨e.options, OrdMap.Entries.lookup_of_mem hs.nodup (List.mem_map_of_mem he),
      Option.some.inj ho⟩
  · rintro ⟨b, hb, rfl⟩
    obtain ⟨e, he, h⟩ := List.mem_map.mp (OrdMap.Entries.mem_of_lookup hb)
    obtain ⟨rfl, rfl⟩ := Prod.mk.inj h
    exact ⟨e, he, rfl⟩

theorem pairs_injective {s s' : Subscriptions} (h : s.pairs = s'.pairs) : s = s' := by
  have hinj : Function.Injective (fun e : SubscriptionEntry => (e.topicFilter, e.options)) := by
    rintro ⟨f, o⟩ ⟨f', o'⟩ he
    obtain ⟨rfl, rfl⟩ := Prod.mk.inj he
    rfl
  obtain ⟨es⟩ := s
  obtain ⟨es'⟩ := s'
  exact congrArg mk (hinj.list_map h)

/-- Assigning what is there changes nothing, the order included. -/
theorem track_eq_self_of_options
    (h : ∀ a ∈ p.assignments, a.2 ≠ none ∧ s.options a.1 = a.2) : s.track p = s := by
  have hupsert : ∀ {α : Type} (key : α → String) (byte : α → UInt8) (fs : List α),
      (∀ a ∈ fs, s.options (key a) = some (byte a)) →
      fs.foldl (fun s f => s.upsert (key f) (byte f)) s = s := by
    intro α key byte fs hfs
    induction fs with
    | nil => rfl
    | cons a fs ih =>
        have ha : s.upsert (key a) (byte a) = s := by
          apply pairs_injective
          rw [pairs_upsert, OrdMap.Entries.upsert_of_lookup (hfs a List.mem_cons_self)]
        rw [List.foldl_cons, ha]
        exact ih (fun b hb => hfs b (List.mem_cons_of_mem _ hb))
  have hremove : ∀ fs : List String,
      (∀ a ∈ fs.map (fun f => (f, (none : Option UInt8))), a.2 ≠ none ∧ s.options a.1 = a.2) →
      fs = [] := by
    intro fs hfs
    cases fs with
    | nil => rfl
    | cons f fs => exact absurd rfl (hfs (f, none) List.mem_cons_self).1
  unfold track
  unfold MqttPacket.assignments at h
  split
  · exact hupsert Prod.fst (fun f => f.2.toU8) _
      (fun a ha => (h _ (List.mem_map_of_mem ha)).2)
  · rw [hremove _ h]; rfl
  · exact hupsert Prod.fst (fun f => optionsByte f.2) _
      (fun a ha => (h _ (List.mem_map_of_mem ha)).2)
  · rw [hremove _ h]; rfl
  · rfl

/-- The client asks again for what it has. -/
theorem track_resubscribe (hs : s.Tracked v) (h : s.resubscribePacket v = some p) :
    s.track p = s := by
  have hp : p.assignments = Assign.restate s.pairs := by
    have h' := assignments_resubscribe hs
    rw [h] at h'
    simpa using h'
  refine track_eq_self_of_options (fun a ha => ?_)
  rw [hp] at ha
  obtain ⟨e, he, rfl⟩ := List.mem_map.mp ha
  exact ⟨Option.some_ne_none _, OrdMap.Entries.lookup_of_mem hs.nodup he⟩

theorem resubscribePacket_kind (h : s.resubscribePacket v = some p) :
    p.version = v ∧ p.shape = .subscribe resubscribeId.get := by
  unfold resubscribePacket at h
  split at h
  · cases h
  · cases v with
    | mqtt3 => cases h; exact ⟨rfl, rfl⟩
    | mqtt5 => cases h; exact ⟨rfl, rfl⟩

theorem resubscribe_lastWriter (v : ProtocolVersion) (ps : List MqttPacket)
    (hv : ∀ p ∈ ps, p.version = v) : LastWriter v ps (ps.foldl track empty) := by
  have hs := foldl_track_tracked hv
  have hlisted : ∀ f o, (f, some o) ∈ (ps.foldl track empty).listing v ↔
      OrdMap.lastFor f (ps.flatMap MqttPacket.mentions) = some (some o) := by
    intro f o
    rw [mem_listing hs]
    constructor
    · rintro ⟨b, hb, rfl⟩
      obtain ⟨o, ho, rfl⟩ := (options_eq_some hv).mp hb
      rw [asked_of_lastFor hv ho]
      exact ho
    · intro ho
      exact ⟨_, (options_eq_some hv).mpr ⟨o, ho, rfl⟩, asked_of_lastFor hv ho⟩
  exact
    { subscribes := fun p => resubscribePacket_kind
      once := by
        have hnodup := hs.nodup
        rw [pairs, List.map_map] at hnodup
        rw [listing_eq, List.map_map]
        exact hnodup
      listed := hlisted
      silent := by
        rw [resubscribePacket_eq_none]
        constructor
        · intro hnil f o ho
          have hmem := (hlisted f o).mpr ho
          rw [listing_eq, hnil] at hmem
          cases hmem
        · intro h
          refine List.eq_nil_iff_forall_not_mem.mpr (fun e he => ?_)
          refine h e.topicFilter (asked v e) ((hlisted _ _).mp ?_)
          rw [listing_eq]
          exact List.mem_map_of_mem he
      stable := fun p => track_resubscribe hs }

/-- A filter asked for, dropped and asked for again with other options. -/
def changesItsMind : List MqttPacket :=
  [.v3 (.subscribe resubscribeId [("a", .atLeastOnce), ("b", .atMostOnce)]),
    .v3 (.unsubscribe resubscribeId ["a"]), .v3 (.subscribe resubscribeId [("a", .exactlyOnce)])]

theorem resubscribe_lastWriter_changesItsMind :
    LastWriter .mqtt3 changesItsMind (changesItsMind.foldl track empty) :=
  resubscribe_lastWriter .mqtt3 changesItsMind (by decide)

end Subscriptions

end TrafficDirector
