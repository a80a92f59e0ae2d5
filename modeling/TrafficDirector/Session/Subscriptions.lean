/-
# `TrafficDirector.Session.Subscriptions` — the subscription table

Tracked from the packet flow and re-issued toward the broker on reconnect.  A
SUBSCRIBE or UNSUBSCRIBE is a list of assignments to the table (`options_track`), and
the re-SUBSCRIBE states the table's entries (`assignments_resubscribe`).
-/
import TrafficDirector.Lib.Assign
import TrafficDirector.Registry

namespace TrafficDirector

/-- `Subscriptions(Vec<SubscriptionEntry>)` -/
structure Subscriptions where
  entries : List SubscriptionEntry
deriving DecidableEq

namespace Subscriptions

/-- `Subscriptions::default` -/
def empty : Subscriptions := ⟨[]⟩

/-- Overwrite the options of the first entry for the filter. -/
def replace (topicFilter : String) (options : UInt8) :
    List SubscriptionEntry → Option (List SubscriptionEntry)
  | [] => none
  | e :: es =>
      if e.topicFilter = topicFilter then some ({ e with options := options } :: es)
      else (replace topicFilter options es).map (e :: ·)

/-- Re-subscribing replaces the options; a new filter goes to the end. -/
def upsert (s : Subscriptions) (topicFilter : String) (options : UInt8) : Subscriptions :=
  match replace topicFilter options s.entries with
  | some es => ⟨es⟩
  | none => ⟨s.entries ++ [⟨topicFilter, options⟩]⟩

def remove (s : Subscriptions) (topicFilter : String) : Subscriptions :=
  ⟨s.entries.filter (fun e => e.topicFilter ≠ topicFilter)⟩

/-- The options byte of a v5 SUBSCRIBE entry. -/
def optionsByte (options : V5.SubscriptionOptions) : UInt8 :=
  options.qos.toU8
    ||| options.noLocal.toUInt8 <<< 2
    ||| options.retainAsPublished.toUInt8 <<< 3
    ||| options.retainHandling.toU8 <<< 4

/-- Track a packet from the client to the broker. -/
def track (s : Subscriptions) : MqttPacket → Subscriptions
  | .v3 (.subscribe _ topicFilters) =>
      topicFilters.foldl (fun s f => s.upsert f.1 f.2.toU8) s
  | .v3 (.unsubscribe _ topicFilters) => topicFilters.foldl remove s
  | .v5 (.subscribe subscribe) =>
      subscribe.topicFilters.foldl (fun s f => s.upsert f.1 (optionsByte f.2)) s
  | .v5 (.unsubscribe unsubscribe) => unsubscribe.topicFilters.foldl remove s
  | _ => s

/-- The proxy's own packet id, unrelated to any id the client sees. -/
def resubscribeId : NonZeroU16 := ⟨1, NonZeroU16.one_ne_zero⟩

def entryQos (e : SubscriptionEntry) : QoS :=
  (QoS.tryFrom (e.options &&& 0x03)).getD .atMostOnce

def entryOptions (e : SubscriptionEntry) : V5.SubscriptionOptions where
  qos := entryQos e
  noLocal := e.options &&& 0x04 ≠ 0
  retainAsPublished := e.options &&& 0x08 ≠ 0
  retainHandling := (V5.RetainHandling.tryFrom (e.options >>> 4)).getD .atSubscribe

/-- The re-SUBSCRIBE, if there is anything to subscribe to. -/
def resubscribePacket (s : Subscriptions) (version : ProtocolVersion) : Option MqttPacket :=
  if s.entries.isEmpty then none
  else
    match version with
    | .mqtt3 => some (.v3 (.subscribe resubscribeId
        (s.entries.map (fun e => (e.topicFilter, entryQos e)))))
    | .mqtt5 => some (.v5 (.subscribe
        { packetId := resubscribeId
          id := none
          topicFilters := s.entries.map (fun e => (e.topicFilter, entryOptions e)) }))

theorem resubscribePacket_eq_none {s : Subscriptions} {v : ProtocolVersion} :
    s.resubscribePacket v = none ↔ s.entries = [] := by
  unfold resubscribePacket
  split
  · next h => simpa using h
  · next h => cases v <;> simpa using h

end Subscriptions

/-! ## The table and its assignments -/

def MqttPacket.version : MqttPacket → ProtocolVersion
  | .v3 _ => .mqtt3
  | .v5 _ => .mqtt5

open Subscriptions in
/-- What a packet does to a table of subscriptions: options for a filter, or none. -/
def MqttPacket.assignments : MqttPacket → List (String × Option UInt8)
  | .v3 (.subscribe _ topicFilters) => topicFilters.map (fun f => (f.1, some f.2.toU8))
  | .v3 (.unsubscribe _ topicFilters) => topicFilters.map (fun f => (f, none))
  | .v5 (.subscribe subscribe) =>
      subscribe.topicFilters.map (fun f => (f.1, some (optionsByte f.2)))
  | .v5 (.unsubscribe unsubscribe) => unsubscribe.topicFilters.map (fun f => (f, none))
  | _ => []

namespace Subscriptions

open OrdMap (Entries.upsert Entries.remove Entries.lookup)

variable {s : Subscriptions}

def pairs (s : Subscriptions) : List (String × UInt8) :=
  s.entries.map (fun e => (e.topicFilter, e.options))

/-- The options of a filter. -/
def options (s : Subscriptions) (topicFilter : String) : Option UInt8 :=
  Entries.lookup topicFilter s.pairs

theorem options_isSome {f : String} :
    (s.options f).isSome = true ↔ ∃ e ∈ s.entries, e.topicFilter = f := by
  rw [Option.isSome_iff_ne_none, options, Ne, OrdMap.Entries.lookup_eq_none, not_not, pairs,
    List.map_map]
  exact List.mem_map

theorem pairs_upsert (f : String) (o : UInt8) :
    (s.upsert f o).pairs = Entries.upsert f o s.pairs := by
  have h : ∀ l : List SubscriptionEntry,
      ((replace f o l).getD (l ++ [⟨f, o⟩])).map (fun e => (e.topicFilter, e.options))
        = Entries.upsert f o (l.map (fun e => (e.topicFilter, e.options))) := by
    intro l
    induction l with
    | nil => rfl
    | cons e l ih =>
        rw [List.map_cons, Entries.upsert, replace]
        by_cases he : e.topicFilter = f
        · rw [if_pos he, if_pos he, Option.getD_some, List.map_cons, he]
        · rw [if_neg he, if_neg he, ← ih]
          cases replace f o l with
          | none => rfl
          | some es => rfl
  refine Eq.trans ?_ (h s.entries)
  unfold pairs upsert
  cases replace f o s.entries with
  | none => rfl
  | some es => rfl

theorem pairs_remove (f : String) : (s.remove f).pairs = Entries.remove f s.pairs := by
  show ((s.entries.filter _).map _) = (s.entries.map _).filter _
  rw [List.filter_map]
  rfl

theorem options_upsert (f : String) (o : UInt8) :
    (s.upsert f o).options = Function.update s.options f (some o) := by
  funext g
  rw [options, pairs_upsert, OrdMap.Entries.lookup_upsert, Function.update_apply]
  rfl

theorem options_remove (f : String) :
    (s.remove f).options = Function.update s.options f none := by
  funext g
  rw [options, pairs_remove, OrdMap.Entries.lookup_remove, Function.update_apply]
  rfl

theorem options_foldl_upsert {α : Type} (key : α → String) (byte : α → UInt8) (fs : List α) :
    (fs.foldl (fun s f => s.upsert (key f) (byte f)) s).options
      = Assign.run s.options (fs.map (fun f => (key f, some (byte f)))) := by
  induction fs generalizing s with
  | nil => rfl
  | cons f fs ih =>
      rw [List.foldl_cons, ih, options_upsert]
      rfl

theorem options_foldl_remove (fs : List String) :
    (fs.foldl remove s).options = Assign.run s.options (fs.map (fun f => (f, none))) := by
  induction fs generalizing s with
  | nil => rfl
  | cons f fs ih =>
      rw [List.foldl_cons, ih, options_remove]
      rfl

theorem options_track (p : MqttPacket) :
    (s.track p).options = Assign.run s.options p.assignments := by
  unfold track MqttPacket.assignments
  split
  · exact options_foldl_upsert Prod.fst (fun f => QoS.toU8 f.2) _
  · exact options_foldl_remove _
  · exact options_foldl_upsert Prod.fst (fun f => optionsByte f.2) _
  · exact options_foldl_remove _
  · rfl

theorem options_foldl_track (ps : List MqttPacket) :
    (ps.foldl track s).options = Assign.run s.options (ps.flatMap MqttPacket.assignments) := by
  induction ps generalizing s with
  | nil => rfl
  | cons p ps ih =>
      rw [List.foldl_cons, ih, options_track, List.flatMap_cons, Assign.run_append]

/-- Other packets do nothing to a table. -/
theorem assignments_eq_nil {p : MqttPacket} (hs : ∀ i, p.shape ≠ .subscribe i)
    (hu : ∀ i, p.shape ≠ .unsubscribe i) : p.assignments = [] := by
  unfold MqttPacket.assignments
  split
  · exact absurd rfl (hs _)
  · exact absurd rfl (hu _)
  · exact absurd rfl (hs _)
  · exact absurd rfl (hu _)
  · rfl

theorem track_eq_self {p : MqttPacket} (h : p.assignments = []) : s.track p = s := by
  unfold track
  unfold MqttPacket.assignments at h
  split
  · rw [List.map_eq_nil_iff.mp h]; rfl
  · rw [List.map_eq_nil_iff.mp h]; rfl
  · rw [List.map_eq_nil_iff.mp h]; rfl
  · rw [List.map_eq_nil_iff.mp h]; rfl
  · rfl

/-! ## What holds of a tracked table -/

/-- The options that the re-SUBSCRIBE of this version asks for. -/
def reissued (v : ProtocolVersion) (e : SubscriptionEntry) : UInt8 :=
  match v with
  | .mqtt3 => (entryQos e).toU8
  | .mqtt5 => optionsByte (entryOptions e)

/-- No filter has two entries, and a re-SUBSCRIBE asks for the options recorded. -/
structure Tracked (v : ProtocolVersion) (s : Subscriptions) : Prop where
  nodup : (s.pairs.map Prod.fst).Nodup
  carried : ∀ e ∈ s.entries, reissued v e = e.options

theorem reissued_v3 (f : String) (q : QoS) : reissued .mqtt3 ⟨f, q.toU8⟩ = q.toU8 := by
  show reissued .mqtt3 ⟨"", q.toU8⟩ = q.toU8
  cases q <;> decide

theorem reissued_v5 (f : String) (o : V5.SubscriptionOptions) :
    reissued .mqtt5 ⟨f, optionsByte o⟩ = optionsByte o := by
  show reissued .mqtt5 ⟨"", optionsByte o⟩ = optionsByte o
  obtain ⟨q, noLocal, retainAsPublished, retainHandling⟩ := o
  cases q <;> cases noLocal <;> cases retainAsPublished <;> cases retainHandling <;> decide

theorem mem_replace {f : String} {o : UInt8} {l l' : List SubscriptionEntry}
    {e : SubscriptionEntry} (h : replace f o l = some l') (he : e ∈ l') :
    e ∈ l ∨ e = ⟨f, o⟩ := by
  induction l generalizing l' with
  | nil => exact nomatch h
  | cons e' l ih =>
      rw [replace] at h
      split at h
      · next hf =>
          rw [← Option.some.inj h, hf] at he
          exact (List.mem_cons.mp he).elim Or.inr (fun he => Or.inl (List.mem_cons_of_mem _ he))
      · obtain ⟨l'', hl, rfl⟩ := Option.map_eq_some_iff.mp h
        rcases List.mem_cons.mp he with rfl | he
        · exact Or.inl List.mem_cons_self
        · exact (ih hl he).imp (List.mem_cons_of_mem _) id

theorem Tracked.upsert {v : ProtocolVersion} (h : s.Tracked v) {f : String} {o : UInt8}
    (ho : reissued v ⟨f, o⟩ = o) : (s.upsert f o).Tracked v where
  nodup := by
    rw [pairs_upsert]
    exact OrdMap.Entries.nodup_upsert h.nodup
  carried e he := by
    unfold Subscriptions.upsert at he
    split at he
    · next hl =>
        rcases mem_replace hl he with he | rfl
        · exact h.carried e he
        · exact ho
    · rcases List.mem_append.mp he with he | he
      · exact h.carried e he
      · rw [List.mem_singleton.mp he]
        exact ho

theorem Tracked.remove {v : ProtocolVersion} (h : s.Tracked v) (f : String) :
    (s.remove f).Tracked v where
  nodup := by
    rw [pairs_remove]
    exact OrdMap.Entries.nodup_remove h.nodup
  carried e he := h.carried e (List.mem_of_mem_filter he)

theorem Tracked.foldl {v : ProtocolVersion} {α : Type} {step : Subscriptions → α → Subscriptions}
    (hstep : ∀ s a, s.Tracked v → (step s a).Tracked v) {as : List α} (h : s.Tracked v) :
    (as.foldl step s).Tracked v := by
  induction as generalizing s with
  | nil => exact h
  | cons a as ih => exact ih (hstep s a h)

theorem Tracked.track {v : ProtocolVersion} (h : s.Tracked v) {p : MqttPacket}
    (hv : p.version = v) : (s.track p).Tracked v := by
  subst hv
  unfold Subscriptions.track
  split
  · exact h.foldl (fun s f hs => hs.upsert (reissued_v3 f.1 f.2))
  · exact h.foldl (fun s f hs => hs.remove f)
  · exact h.foldl (fun s f hs => hs.upsert (reissued_v5 f.1 f.2))
  · exact h.foldl (fun s f hs => hs.remove f)
  · exact h

theorem tracked_empty (v : ProtocolVersion) : empty.Tracked v where
  nodup := List.nodup_nil
  carried _ he := nomatch he

/-- The re-SUBSCRIBE states the table. -/
theorem assignments_resubscribe {v : ProtocolVersion} (h : s.Tracked v) :
    (s.resubscribePacket v).toList.flatMap MqttPacket.assignments = Assign.restate s.pairs := by
  have hmap : s.entries.map (fun e => (e.topicFilter, some (reissued v e)))
      = Assign.restate s.pairs := by
    rw [Assign.restate, pairs, List.map_map]
    exact List.map_congr_left (fun e he => by rw [h.carried e he]; rfl)
  rw [← hmap]
  unfold resubscribePacket
  split
  · next hnil =>
      rw [List.isEmpty_iff.mp hnil]
      rfl
  · cases v with
    | mqtt3 =>
        show (s.entries.map _).map _ ++ [] = _
        rw [List.append_nil, List.map_map]
        rfl
    | mqtt5 =>
        show (s.entries.map _).map _ ++ [] = _
        rw [List.append_nil, List.map_map]
        rfl

end Subscriptions

end TrafficDirector
