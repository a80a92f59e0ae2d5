/-
# `TrafficDirector.Window.Exchanges` — the windows are the unfinished exchanges

The windows are kept up to date packet by packet.  This module says what they hold in
terms of the packets alone: an id is in a window if the last packet that opens or ends
an exchange with it opens one (`UnfinishedC2b`, `UnfinishedB2c`), and the ids are in
the order in which their exchanges have come to be open.

Tracking is a history of edits of two ordered maps (`track_c2b`, `track_b2c`), so that
`windows_unfinished` is an instance of the lemmas of `Lib.Edits`.
-/
import TrafficDirector.Lib.Edits
import TrafficDirector.Window

namespace TrafficDirector

/-- A packet that the windows are told of, by where it comes from. -/
inductive Traffic where
  | client (p : MqttPacket)
  | broker (p : MqttPacket)

namespace Traffic

/-! ## Unfinished exchanges -/

/-- A PUBLISH of the client above QoS 0, with this id. -/
def Publishes (i : UInt16) : Traffic → Prop
  | client p => ∃ q, p.shape = .publish q i
  | broker _ => False

/-- A PUBACK or PUBCOMP of the broker. -/
def Completes (i : UInt16) : Traffic → Prop
  | client _ => False
  | broker p => p.shape = .publishAck i ∨ p.shape = .publishComplete i

/-- A PUBREL of the client. -/
def release (i : UInt16) : Traffic → Option MqttPacket
  | client p => if p.shape = .publishRelease i then some p else none
  | broker _ => none

/-- A PUBLISH of the broker above QoS 0. -/
def Delivers (i : UInt16) : Traffic → Prop
  | client _ => False
  | broker p => ∃ q, p.shape = .publish q i

/-- A PUBACK or PUBCOMP of the client. -/
def Acknowledges (i : UInt16) : Traffic → Prop
  | client p => p.shape = .publishAck i ∨ p.shape = .publishComplete i
  | broker _ => False

/-- A PUBREC of the client. -/
def receives (i : UInt16) : Traffic → Bool
  | client p => p.shape = .publishReceived i
  | broker _ => false

/-- What the c2b entry of an id is about. -/
def concernsC2b (i : UInt16) : Traffic → Bool
  | client p =>
      match p.shape with
      | .publish _ j | .publishRelease j => j = i
      | _ => false
  | broker p => acknowledgedId p = some i

/-- What the b2c entry of an id is about. -/
def concernsB2c (i : UInt16) : Traffic → Bool
  | client p =>
      match p.shape with
      | .publishAck j | .publishReceived j | .publishComplete j => j = i
      | _ => false
  | broker p =>
      match p.shape with
      | .publish _ j => j = i
      | _ => false

end Traffic

/-- The exchange `i` of the client is not finished: the last event that opens or ends it
is a PUBLISH.  The entry is its latest PUBREL since, or else the PUBLISH. -/
def UnfinishedC2b (c : Codec) (i : UInt16) (ts : List Traffic) (entry : C2bState × RawPacket) :
    Prop :=
  ∃ pre p post, ts = pre ++ .client p :: post ∧ (Traffic.client p).Publishes i ∧
    (∀ t ∈ post, ¬ t.Publishes i ∧ ¬ t.Completes i) ∧
    entry = match (post.filterMap (Traffic.release i)).getLast? with
      | some r => (pubrelSent, encodeRaw c r)
      | none => (publishSent, encodeRaw c p)

/-- The exchange `i` of the broker is not finished.  The entry is the PUBLISH, with
whether a PUBREC has come since. -/
def UnfinishedB2c (c : Codec) (i : UInt16) (ts : List Traffic) (entry : B2cState × RawPacket) :
    Prop :=
  ∃ pre p post, ts = pre ++ .broker p :: post ∧ (Traffic.broker p).Delivers i ∧
    (∀ t ∈ post, ¬ t.Delivers i ∧ ¬ t.Acknowledges i) ∧
    entry = (if post.any (Traffic.receives i) then pubrecForwarded else deliverySent,
      encodeRaw c p)

def InflightWindows.track (c : Codec) (w : InflightWindows) : Traffic → InflightWindows
  | .client p => w.trackC2b c p
  | .broker p => w.trackB2c c p

/-- The ids in order: the exchange of an earlier one has been open for longer. -/
def InOrder (Open : UInt16 → List Traffic → Prop) (ts : List Traffic) (ids : List UInt16) : Prop :=
  ids.Pairwise (fun i j => ∃ m n, m < n ∧ Arrived (Open i) ts m ∧ Arrived (Open j) ts n)

/-- The windows `w` are the unfinished exchanges of `ts`. -/
structure HoldsUnfinished (c : Codec) (ts : List Traffic) (w : InflightWindows) : Prop where
  c2b : ∀ i entry, w.c2b.get? i = some entry ↔ UnfinishedC2b c i ts entry
  b2c : ∀ i entry, w.b2c.get? i = some entry ↔ UnfinishedB2c c i ts entry
  brokerRetransmits : w.brokerRetransmits =
    w.c2b.entries.map (fun e => if e.2.1 = publishSent then withDup e.2.2 else e.2.2)
  clientRetransmits : w.clientRetransmits =
    (w.b2c.entries.filter (fun e => decide (e.2.1 = deliverySent))).map (fun e => withDup e.2.2)
  c2bOrder : InOrder (fun i ts => ∃ entry, UnfinishedC2b c i ts entry) ts w.c2b.keys
  b2cOrder : InOrder (fun i ts => ∃ entry, UnfinishedB2c c i ts entry) ts w.b2c.keys
  c2bApart : ∀ i, w.c2b.get? i =
    ((ts.filter (Traffic.concernsC2b i)).foldl (InflightWindows.track c) .new).c2b.get? i
  b2cApart : ∀ i, w.b2c.get? i =
    ((ts.filter (Traffic.concernsB2c i)).foldl (InflightWindows.track c) .new).b2c.get? i

/-! ## Tracking as a history of edits -/

/-- What a packet does to the c2b window. -/
def c2bEdit (c : Codec) : Traffic → Option (Edit UInt16 (C2bState × RawPacket))
  | .client p =>
      match p.shape with
      | .publish _ i => some (.set i (publishSent, encodeRaw c p))
      | .publishRelease i => some (.mod i (fun _ => (pubrelSent, encodeRaw c p)))
      | _ => none
  | .broker p =>
      match p.shape with
      | .publishAck i | .publishComplete i => some (.del i)
      | _ => none

/-- What a packet does to the b2c window. -/
def b2cEdit (c : Codec) : Traffic → Option (Edit UInt16 (B2cState × RawPacket))
  | .client p =>
      match p.shape with
      | .publishAck i | .publishComplete i => some (.del i)
      | .publishReceived i => some (.mod i (fun e => (pubrecForwarded, e.2)))
      | _ => none
  | .broker p =>
      match p.shape with
      | .publish _ i => some (.set i (deliverySent, encodeRaw c p))
      | _ => none

variable {c : Codec} {ts : List Traffic} {t : Traffic} {i : UInt16}

namespace InflightWindows

theorem track_c2b (w : InflightWindows) (t : Traffic) :
    (w.track c t).c2b = (c2bEdit c t).elim w.c2b w.c2b.edit := by
  cases t with
  | client p =>
      refine (trackC2b_c2b c w p).trans ?_
      cases hp : p.shape with
      | publishRelease i =>
          simp only [c2bEdit, hp, Option.elim_some, OrdMap.edit]
          exact (OrdMap.adjust_const ..).symm
      | _ => simp [c2bEdit, hp, OrdMap.edit]
  | broker p =>
      refine (trackB2c_c2b c w p).trans ?_
      cases hp : p.shape <;> simp [c2bEdit, hp, OrdMap.edit]

theorem track_b2c (w : InflightWindows) (t : Traffic) :
    (w.track c t).b2c = (b2cEdit c t).elim w.b2c w.b2c.edit := by
  cases t with
  | client p =>
      refine (trackC2b_b2c c w p).trans ?_
      cases hp : p.shape <;> simp [b2cEdit, hp, OrdMap.edit]
  | broker p =>
      refine (trackB2c_b2c c w p).trans ?_
      cases hp : p.shape <;> simp [b2cEdit, hp, OrdMap.edit]

theorem foldl_track (ts : List Traffic) (w : InflightWindows) :
    ts.foldl (track c) w = ⟨OrdMap.edits (c2bEdit c) w.c2b ts, OrdMap.edits (b2cEdit c) w.b2c ts⟩ := by
  induction ts generalizing w with
  | nil => rfl
  | cons t ts ih =>
      rw [List.foldl_cons, ih, track_c2b, track_b2c]
      rfl

end InflightWindows

/-! ## The c2b window -/

theorem c2bEdit_eq_set {v : C2bState × RawPacket} : c2bEdit c t = some (.set i v) ↔
    ∃ p, t = .client p ∧ t.Publishes i ∧ v = (publishSent, encodeRaw c p) := by
  cases t with
  | client p =>
      cases hp : p.shape <;> simp [c2bEdit, Traffic.Publishes, hp, eq_comm]
  | broker p =>
      cases hp : p.shape <;> simp [c2bEdit, hp]

theorem c2bEdit_spares :
    (∀ e ∈ c2bEdit c t, e.Spares i) ↔ ¬ t.Publishes i ∧ ¬ t.Completes i := by
  cases t with
  | client p =>
      cases hp : p.shape <;> simp [c2bEdit, Edit.Spares, Traffic.Publishes, Traffic.Completes, hp]
  | broker p =>
      cases hp : p.shape <;> simp [c2bEdit, Edit.Spares, Traffic.Publishes, Traffic.Completes, hp]

theorem c2bEdit_change (v : C2bState × RawPacket) : (c2bEdit c t).elim v (Edit.change i v) =
    (t.release i).elim v (fun r => (pubrelSent, encodeRaw c r)) := by
  cases t with
  | client p =>
      cases hp : p.shape with
      | publishRelease j =>
          by_cases hj : j = i
          · simp [c2bEdit, Traffic.release, hp, Edit.change, hj]
          · simp [c2bEdit, Traffic.release, hp, Edit.change, hj]
      | _ => simp [c2bEdit, Traffic.release, hp, Edit.change]
  | broker p =>
      cases hp : p.shape <;> simp [c2bEdit, Traffic.release, hp, Edit.change]

/-- Of several PUBRELs the latest is kept. -/
theorem foldl_release (post : List Traffic) (p : MqttPacket) :
    (post.filterMap (c2bEdit c)).foldl (Edit.change i) (publishSent, encodeRaw c p) =
      match (post.filterMap (Traffic.release i)).getLast? with
      | some r => (pubrelSent, encodeRaw c r)
      | none => (publishSent, encodeRaw c p) := by
  induction post using List.reverseRecOn with
  | nil => rfl
  | append_singleton post t ih =>
      have hlast : ∀ v : C2bState × RawPacket, ([t].filterMap (c2bEdit c)).foldl (Edit.change i) v =
          (t.release i).elim v (fun r => (pubrelSent, encodeRaw c r)) := by
        intro v
        rw [← c2bEdit_change]
        cases h : c2bEdit c t <;> simp [h]
      rw [List.filterMap_append, List.foldl_append, ih, hlast, List.filterMap_append]
      cases h : t.release i <;> simp [h]

theorem unfinishedC2b_iff {entry : C2bState × RawPacket} :
    UnfinishedC2b c i ts entry ↔ OrdMap.LastSet (c2bEdit c) i ts entry := by
  constructor
  · rintro ⟨pre, p, post, rfl, hp, hpost, rfl⟩
    exact ⟨pre, _, post, _, rfl, c2bEdit_eq_set.mpr ⟨p, rfl, hp, rfl⟩,
      fun t ht => c2bEdit_spares.mpr (hpost t ht), (foldl_release post p).symm⟩
  · rintro ⟨pre, a, post, v₀, rfl, hset, hpost, rfl⟩
    obtain ⟨p, rfl, hp, rfl⟩ := c2bEdit_eq_set.mp hset
    exact ⟨pre, p, post, rfl, hp, fun t ht => c2bEdit_spares.mp (hpost t ht), foldl_release post p⟩

/-! ## The b2c window -/

theorem b2cEdit_eq_set {v : B2cState × RawPacket} : b2cEdit c t = some (.set i v) ↔
    ∃ p, t = .broker p ∧ t.Delivers i ∧ v = (deliverySent, encodeRaw c p) := by
  cases t with
  | client p =>
      cases hp : p.shape <;> simp [b2cEdit, hp]
  | broker p =>
      cases hp : p.shape <;> simp [b2cEdit, Traffic.Delivers, hp, eq_comm]

theorem b2cEdit_spares :
    (∀ e ∈ b2cEdit c t, e.Spares i) ↔ ¬ t.Delivers i ∧ ¬ t.Acknowledges i := by
  cases t with
  | client p =>
      cases hp : p.shape <;> simp [b2cEdit, Edit.Spares, Traffic.Delivers, Traffic.Acknowledges, hp]
  | broker p =>
      cases hp : p.shape <;> simp [b2cEdit, Edit.Spares, Traffic.Delivers, Traffic.Acknowledges, hp]

theorem b2cEdit_change (v : B2cState × RawPacket) : (b2cEdit c t).elim v (Edit.change i v) =
    if t.receives i then (pubrecForwarded, v.2) else v := by
  cases t with
  | client p =>
      cases hp : p.shape with
      | publishReceived j =>
          by_cases hj : j = i
          · simp [b2cEdit, Traffic.receives, hp, Edit.change, hj]
          · simp [b2cEdit, Traffic.receives, hp, Edit.change, hj]
      | _ => simp [b2cEdit, Traffic.receives, hp, Edit.change]
  | broker p =>
      cases hp : p.shape <;> simp [b2cEdit, Traffic.receives, hp, Edit.change]

/-- A PUBREC changes the state and keeps the packet. -/
theorem foldl_receives (post : List Traffic) (p : MqttPacket) :
    (post.filterMap (b2cEdit c)).foldl (Edit.change i) (deliverySent, encodeRaw c p) =
      (if post.any (Traffic.receives i) then pubrecForwarded else deliverySent, encodeRaw c p) := by
  induction post using List.reverseRecOn with
  | nil => rfl
  | append_singleton post t ih =>
      have hlast : ∀ v : B2cState × RawPacket, ([t].filterMap (b2cEdit c)).foldl (Edit.change i) v =
          if t.receives i then (pubrecForwarded, v.2) else v := by
        intro v
        rw [← b2cEdit_change]
        cases h : b2cEdit c t <;> simp [h]
      rw [List.filterMap_append, List.foldl_append, ih, hlast, List.any_append]
      cases h : t.receives i <;> simp [h]

theorem unfinishedB2c_iff {entry : B2cState × RawPacket} :
    UnfinishedB2c c i ts entry ↔ OrdMap.LastSet (b2cEdit c) i ts entry := by
  constructor
  · rintro ⟨pre, p, post, rfl, hp, hpost, rfl⟩
    exact ⟨pre, _, post, _, rfl, b2cEdit_eq_set.mpr ⟨p, rfl, hp, rfl⟩,
      fun t ht => b2cEdit_spares.mpr (hpost t ht), (foldl_receives post p).symm⟩
  · rintro ⟨pre, a, post, v₀, rfl, hset, hpost, rfl⟩
    obtain ⟨p, rfl, hp, rfl⟩ := b2cEdit_eq_set.mp hset
    exact ⟨pre, p, post, rfl, hp, fun t ht => b2cEdit_spares.mp (hpost t ht),
      foldl_receives post p⟩

/-! ## Retransmits -/

theorem brokerRetransmit_eq (e : C2bState × RawPacket) : InflightWindows.brokerRetransmit e =
    if e.1 = publishSent then withDup e.2 else e.2 := by
  rcases e with ⟨⟨s, hs⟩, raw⟩
  cases s with
  | c2bPublishSent => rfl
  | c2bPubrelSent => rfl
  | b2cPublishSent => cases hs
  | b2cPubrecForwarded => cases hs

theorem clientRetransmit_eq (e : B2cState × RawPacket) : InflightWindows.clientRetransmit e =
    if e.1 = deliverySent then some (withDup e.2) else none := by
  rcases e with ⟨⟨s, hs⟩, raw⟩
  cases s with
  | c2bPublishSent => cases hs
  | c2bPubrelSent => cases hs
  | b2cPublishSent => rfl
  | b2cPubrecForwarded => rfl

theorem brokerRetransmits_eq (w : InflightWindows) : w.brokerRetransmits =
    w.c2b.entries.map (fun e => if e.2.1 = publishSent then withDup e.2.2 else e.2.2) := by
  rw [InflightWindows.brokerRetransmits, OrdMap.values, List.map_map]
  exact List.map_congr_left (fun e _ => brokerRetransmit_eq e.2)

theorem clientRetransmits_eq (w : InflightWindows) : w.clientRetransmits =
    (w.b2c.entries.filter (fun e => decide (e.2.1 = deliverySent))).map
      (fun e => withDup e.2.2) := by
  rw [InflightWindows.clientRetransmits, OrdMap.values, List.filterMap_map,
    ← List.filterMap_eq_filter, List.map_filterMap]
  congr 1
  funext e
  rw [Function.comp_apply, clientRetransmit_eq]
  by_cases h : e.2.1 = deliverySent <;> simp [Option.guard, h]

/-! ## Both windows -/

theorem c2bEdit_key (h : t.concernsC2b i = false) : ∀ e ∈ c2bEdit c t, e.key ≠ i := by
  cases t with
  | client p =>
      cases hp : p.shape <;> simp_all [Traffic.concernsC2b, c2bEdit, Edit.key]
  | broker p =>
      cases hp : p.shape <;> simp_all [Traffic.concernsC2b, acknowledgedId, c2bEdit, Edit.key]

theorem b2cEdit_key (h : t.concernsB2c i = false) : ∀ e ∈ b2cEdit c t, e.key ≠ i := by
  cases t with
  | client p =>
      cases hp : p.shape <;> simp_all [Traffic.concernsB2c, b2cEdit, Edit.key]
  | broker p =>
      cases hp : p.shape <;> simp_all [Traffic.concernsB2c, b2cEdit, Edit.key]

/-- Keys that have arrived one after the other, by what makes a key be there. -/
theorem inOrder_of_edits {ν : Type} {f : Traffic → Option (Edit UInt16 ν)}
    {P : UInt16 → List Traffic → ν → Prop}
    (hP : ∀ i ts v, (OrdMap.edits f .empty ts).get? i = some v ↔ P i ts v) :
    InOrder (fun i ts => ∃ v, P i ts v) ts (OrdMap.edits f .empty ts).keys := by
  have hopen : (fun i ts => ∃ v, P i ts v)
      = fun i ts => i ∈ (OrdMap.edits f .empty ts).keys := by
    funext i ts
    rw [OrdMap.mem_keys_iff]
    simp only [hP]
  rw [hopen]
  exact (OrdMap.keys_edits ts).2

/-- After any packets of the two sides, the windows are the unfinished exchanges. -/
theorem windows_unfinished (c : Codec) (ts : List Traffic) :
    HoldsUnfinished c ts (ts.foldl (InflightWindows.track c) .new) := by
  have hc2b : ∀ i (ts : List Traffic) entry,
      (OrdMap.edits (c2bEdit c) .empty ts).get? i = some entry ↔ UnfinishedC2b c i ts entry :=
    fun i ts entry => OrdMap.get?_edits.trans unfinishedC2b_iff.symm
  have hb2c : ∀ i (ts : List Traffic) entry,
      (OrdMap.edits (b2cEdit c) .empty ts).get? i = some entry ↔ UnfinishedB2c c i ts entry :=
    fun i ts entry => OrdMap.get?_edits.trans unfinishedB2c_iff.symm
  simp only [InflightWindows.foldl_track]
  exact
    { c2b := fun i entry => hc2b i ts entry
      b2c := fun i entry => hb2c i ts entry
      brokerRetransmits := brokerRetransmits_eq _
      clientRetransmits := clientRetransmits_eq _
      c2bOrder := inOrder_of_edits hc2b
      b2cOrder := inOrder_of_edits hb2c
      c2bApart := fun i => by
        rw [InflightWindows.foldl_track]
        exact (OrdMap.get?_edits_filter (fun _ h => c2bEdit_key h)).symm
      b2cApart := fun i => by
        rw [InflightWindows.foldl_track]
        exact (OrdMap.get?_edits_filter (fun _ h => b2cEdit_key h)).symm }

end TrafficDirector
