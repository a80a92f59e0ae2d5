/-
# `TrafficDirector.Session.Versions` — the handlers for MQTT 3.1.1 and MQTT 5

Every handler of a session has an arm for each version.  `Alike` relates a packet of
MQTT 3.1.1 to those of MQTT 5 of its kind, packet id, QoS and filters.  On packets that
are alike, the windows, the subscription table and the outage buffer change alike: up to
the encoded packets that they hold, of which only the type shows.

The one thing that depends on an encoding is whether the outage buffer has room for it
(`OutageBuffer.overflows`).  The runs of the two versions are in `Session.Twins`.
-/
import TrafficDirector.Lib.Coupled
import TrafficDirector.Session.Answers
import TrafficDirector.Session.Resubscribe

namespace TrafficDirector

open Script (Agree)

/-! ## Packets -/

/-- The same packet in both versions: the same kind, packet id, QoS and filters. -/
inductive Alike : MqttPacket → MqttPacket → Prop
  | connect (connect : V3.Connect) (connect' : V5.Connect) :
      Alike (.v3 (.connect connect)) (.v5 (.connect connect'))
  | connectAck (ack : V3.ConnectAck) (ack' : V5.ConnectAck) :
      Alike (.v3 (.connectAck ack)) (.v5 (.connectAck ack'))
  | publish {p p' : Publish} (qos : p.qos = p'.qos) (packetId : p.packetId = p'.packetId) :
      Alike (.v3 (.publish p)) (.v5 (.publish p'))
  | publishAck (i : NonZeroU16) (reason : V5.PublishAckReason) :
      Alike (.v3 (.publishAck i)) (.v5 (.publishAck ⟨i, reason⟩))
  | publishReceived (i : NonZeroU16) (reason : V5.PublishAckReason) :
      Alike (.v3 (.publishReceived i)) (.v5 (.publishReceived ⟨i, reason⟩))
  | publishRelease (i : NonZeroU16) (reason : V5.PublishAck2Reason) :
      Alike (.v3 (.publishRelease i)) (.v5 (.publishRelease ⟨i, reason⟩))
  | publishComplete (i : NonZeroU16) (reason : V5.PublishAck2Reason) :
      Alike (.v3 (.publishComplete i)) (.v5 (.publishComplete ⟨i, reason⟩))
  | subscribe (i : NonZeroU16) (id : Option Nat) (fs : List (String × V5.SubscriptionOptions)) :
      Alike (.v3 (.subscribe i (fs.map (fun f => (f.1, f.2.qos))))) (.v5 (.subscribe ⟨i, id, fs⟩))
  | subscribeAck (i : NonZeroU16) (status : List V3.SubscribeReturnCode)
      (status' : List V5.SubscribeAckReason) :
      Alike (.v3 (.subscribeAck i status)) (.v5 (.subscribeAck ⟨i, status'⟩))
  | unsubscribe (i : NonZeroU16) (fs : List String) :
      Alike (.v3 (.unsubscribe i fs)) (.v5 (.unsubscribe ⟨i, fs⟩))
  | unsubscribeAck (i : NonZeroU16) : Alike (.v3 (.unsubscribeAck i)) (.v5 (.unsubscribeAck ⟨i⟩))
  | pingRequest : Alike (.v3 .pingRequest) (.v5 .pingRequest)
  | pingResponse : Alike (.v3 .pingResponse) (.v5 .pingResponse)
  | disconnect (d : V5.Disconnect) : Alike (.v3 .disconnect) (.v5 (.disconnect d))

variable {c : Codec} {p p' : MqttPacket}

theorem Publish.shape_congr {p p' : Publish} (hqos : p.qos = p'.qos)
    (hid : p.packetId = p'.packetId) : p.shape = p'.shape := by
  obtain ⟨_, _, _, _, _, _, _, _⟩ := p
  obtain ⟨_, _, _, _, _, _, _, _⟩ := p'
  cases hqos
  cases hid
  rfl

theorem Alike.shape (h : Alike p p') : p.shape = p'.shape := by
  cases h with
  | publish hqos hid => exact Publish.shape_congr hqos hid
  | _ => rfl

theorem Alike.packetType (h : Alike p p') : p.packetType = p'.packetType := by
  cases h <;> rfl

theorem Alike.encodeRaw_packetType (h : Alike p p') :
    (encodeRaw c p).packetType = (encodeRaw c p').packetType :=
  (c.encode_type p).trans (h.packetType.trans (c.encode_type p').symm)

theorem Alike.pingResponse_packetType (h : Alike p p') :
    p.pingResponse.packetType = p'.pingResponse.packetType := by
  cases h <;> rfl

/-! ## Windows -/

/-- A window entry without its packet, but with the type of it. -/
def entryType {S : Type} (e : S × RawPacket) : S × UInt8 := (e.1, e.2.packetType)

/-- The same ids, with the same states, in the same order. -/
structure InflightWindows.Twins (w w' : InflightWindows) : Prop where
  c2b : w.c2b.map entryType = w'.c2b.map entryType
  b2c : w.b2c.map entryType = w'.b2c.map entryType

namespace InflightWindows

variable {w w' : InflightWindows}

theorem Twins.contains_c2b (h : w.Twins w') (i : UInt16) :
    w.c2b.contains i = w'.c2b.contains i := by
  rw [← OrdMap.contains_map entryType, h.c2b, OrdMap.contains_map]

theorem Twins.insert_c2b (h : w.Twins w') (i : UInt16) (state : C2bState) {raw raw' : RawPacket}
    (hraw : raw.packetType = raw'.packetType) :
    (w.c2b.insert i (state, raw)).map entryType = (w'.c2b.insert i (state, raw')).map entryType := by
  rw [OrdMap.map_insert, OrdMap.map_insert, h.c2b]
  exact congrArg (fun t => OrdMap.insert _ i (state, t)) hraw

theorem Twins.trackC2b (h : w.Twins w') (hp : Alike p p') :
    (w.trackC2b c p).Twins (w'.trackC2b c p') where
  c2b := by
    rw [trackC2b_c2b, trackC2b_c2b, ← hp.shape]
    cases p.shape with
    | publish qos i => exact h.insert_c2b i publishSent hp.encodeRaw_packetType
    | publishRelease i =>
        simp only
        rw [← h.contains_c2b]
        split
        · exact h.insert_c2b i pubrelSent hp.encodeRaw_packetType
        · exact h.c2b
    | _ => exact h.c2b
  b2c := by
    rw [trackC2b_b2c, trackC2b_b2c, ← hp.shape]
    cases p.shape with
    | publishAck i | publishComplete i =>
        simp only
        rw [OrdMap.map_erase, OrdMap.map_erase, h.b2c]
    | publishReceived i =>
        have hadjust : ∀ w : InflightWindows,
            (w.b2c.adjust i (fun e => (pubrecForwarded, e.2))).map entryType
              = (w.b2c.map entryType).adjust i (fun t => (pubrecForwarded, t.2)) := by
          intro w
          refine OrdMap.map_adjust ?_ w.b2c i
          intro e
          rfl
        simp only
        rw [hadjust, hadjust, h.b2c]
    | _ => exact h.b2c

theorem Twins.trackB2c (h : w.Twins w') (hp : Alike p p') :
    (w.trackB2c c p).Twins (w'.trackB2c c p') where
  c2b := by
    rw [trackB2c_c2b, trackB2c_c2b, ← hp.shape]
    cases p.shape with
    | publishAck i | publishComplete i =>
        simp only
        rw [OrdMap.map_erase, OrdMap.map_erase, h.c2b]
    | _ => exact h.c2b
  b2c := by
    rw [trackB2c_b2c, trackB2c_b2c, ← hp.shape]
    cases p.shape with
    | publish qos i =>
        simp only
        rw [OrdMap.map_insert, OrdMap.map_insert, h.b2c]
        exact congrArg (fun t => OrdMap.insert _ i (deliverySent, t)) hp.encodeRaw_packetType
    | _ => exact h.b2c

/-- A retransmit has the type of the entry. -/
theorem brokerRetransmit_packetType (e : C2bState × RawPacket) :
    (brokerRetransmit e).packetType = (entryType e).2 := by
  obtain ⟨⟨state, hstate⟩, raw⟩ := e
  cases state with
  | c2bPublishSent => exact withDup_packetType raw
  | c2bPubrelSent => rfl
  | b2cPublishSent => cases hstate
  | b2cPubrecForwarded => cases hstate

theorem Twins.brokerRetransmits (h : w.Twins w') :
    w.brokerRetransmits.map RawPacket.packetType = w'.brokerRetransmits.map RawPacket.packetType := by
  have htypes : ∀ w : InflightWindows, w.brokerRetransmits.map RawPacket.packetType
      = (w.c2b.map entryType).values.map Prod.snd := by
    intro w
    rw [InflightWindows.brokerRetransmits, OrdMap.values_map, List.map_map, List.map_map]
    exact List.map_congr_left (fun e _ => brokerRetransmit_packetType e)
  rw [htypes, htypes, h.c2b]

/-- The types of the retransmits to the client, from what an entry shows. -/
theorem clientRetransmit_packetType (e : B2cState × RawPacket) :
    (clientRetransmit e).map RawPacket.packetType
      = if (entryType e).1.val = .b2cPublishSent then some (entryType e).2 else none := by
  obtain ⟨⟨state, hstate⟩, raw⟩ := e
  cases state with
  | b2cPublishSent => exact congrArg some (withDup_packetType raw)
  | b2cPubrecForwarded => rfl
  | c2bPublishSent => cases hstate
  | c2bPubrelSent => cases hstate

theorem Twins.clientRetransmits (h : w.Twins w') :
    w.clientRetransmits.map RawPacket.packetType = w'.clientRetransmits.map RawPacket.packetType := by
  have htypes : ∀ w : InflightWindows, w.clientRetransmits.map RawPacket.packetType
      = (w.b2c.map entryType).values.filterMap
          (fun t => if t.1.val = .b2cPublishSent then some t.2 else none) := by
    intro w
    rw [InflightWindows.clientRetransmits, OrdMap.values_map, List.map_filterMap,
      List.filterMap_map]
    exact List.filterMap_congr (fun e _ => clientRetransmit_packetType e)
  rw [htypes, htypes, h.b2c]

end InflightWindows

/-! ## Subscriptions -/

namespace Subscriptions

/-- The filters and their QoS. -/
def grants (s : Subscriptions) : List (String × QoS) :=
  s.entries.map (fun e => (e.topicFilter, entryQos e))

variable {s s' : Subscriptions}

theorem grants_eq_pairs :
    s.grants = s.pairs.map (Prod.map id (fun o => entryQos ⟨"", o⟩)) := by
  rw [grants, pairs, List.map_map]
  rfl

theorem grants_upsert (f : String) (o : UInt8) :
    (s.upsert f o).grants = OrdMap.Entries.upsert f (entryQos ⟨f, o⟩) s.grants := by
  rw [grants_eq_pairs, pairs_upsert, OrdMap.Entries.upsert_map, ← grants_eq_pairs]
  rfl

theorem grants_remove (f : String) :
    (s.remove f).grants = OrdMap.Entries.remove f s.grants := by
  rw [grants_eq_pairs, pairs_remove, OrdMap.Entries.remove_map, ← grants_eq_pairs]

theorem entryQos_optionsByte (f : String) (o : V5.SubscriptionOptions) :
    entryQos ⟨f, optionsByte o⟩ = o.qos :=
  congrArg V5.SubscriptionOptions.qos (entryOptions_optionsByte f o)

theorem grants_foldl_upsert {fs : List (String × V5.SubscriptionOptions)}
    (h : s.grants = s'.grants) :
    ((fs.map (fun f => (f.1, f.2.qos))).foldl (fun s f => s.upsert f.1 f.2.toU8) s).grants
      = (fs.foldl (fun s f => s.upsert f.1 (optionsByte f.2)) s').grants := by
  induction fs generalizing s s' with
  | nil => exact h
  | cons f fs ih =>
      refine ih ?_
      rw [grants_upsert, grants_upsert, entryQos_toU8, entryQos_optionsByte, h]

theorem grants_foldl_remove {fs : List String} (h : s.grants = s'.grants) :
    (fs.foldl remove s).grants = (fs.foldl remove s').grants := by
  induction fs generalizing s s' with
  | nil => exact h
  | cons f fs ih =>
      refine ih ?_
      rw [grants_remove, grants_remove, h]

theorem grants_track (h : s.grants = s'.grants) (hp : Alike p p') :
    (s.track p).grants = (s'.track p').grants := by
  cases hp with
  | subscribe i id fs => exact grants_foldl_upsert h
  | unsubscribe i fs => exact grants_foldl_remove h
  | _ => exact h

theorem entries_eq_nil (h : s.grants = s'.grants) : s.entries = [] ↔ s'.entries = [] := by
  rw [← List.map_eq_nil_iff (f := fun e => (e.topicFilter, entryQos e)), ← grants, h, grants,
    List.map_eq_nil_iff]

/-- Both versions re-subscribe alike, or neither does. -/
theorem resubscribePacket_alike (h : s.grants = s'.grants) :
    Option.Rel Alike (s.resubscribePacket .mqtt3) (s'.resubscribePacket .mqtt5) := by
  unfold resubscribePacket
  by_cases hnil : s.entries = []
  · rw [if_pos (List.isEmpty_iff.mpr hnil),
      if_pos (List.isEmpty_iff.mpr ((entries_eq_nil h).mp hnil))]
    exact .none
  · rw [if_neg (fun he => hnil (List.isEmpty_iff.mp he)),
      if_neg (fun he => hnil ((entries_eq_nil h).mpr (List.isEmpty_iff.mp he)))]
    have hfilters : s.entries.map (fun e => (e.topicFilter, entryQos e))
        = (s'.entries.map (fun e => (e.topicFilter, entryOptions e))).map
            (fun f => (f.1, f.2.qos)) := by
      rw [List.map_map]
      exact h
    simp only
    rw [hfilters]
    exact .some (.subscribe resubscribeId none _)

end Subscriptions

/-! ## Outputs and errors -/

/-- An output without its packet, but with the type of it. -/
inductive OutputKind where
  | openBroker
  | toBroker (packetType : UInt8)
  | toClient (packetType : UInt8)
deriving DecidableEq

def Output.kind : Output → OutputKind
  | .openBroker => .openBroker
  | .toBroker f => .toBroker f.packetType
  | .toClient f => .toClient f.packetType

/-- Errors that differ in their text at most. -/
def SameKind (e e' : IoError) : Prop := e.kind = e'.kind

theorem osError_sameKind (t t' : String) : SameKind (osError t) (osError t') := rfl

theorem invalidData_sameKind (t t' : String) : SameKind (invalidData t) (invalidData t') := rfl

theorem map_kind_append {out out' : List Output} (h : out.map Output.kind = out'.map Output.kind)
    {o o' : Output} (ho : o.kind = o'.kind) :
    (out ++ [o]).map Output.kind = (out' ++ [o']).map Output.kind := by
  rw [List.map_append, List.map_append, h, List.map_singleton, List.map_singleton, ho]

/-! ## The outage buffer -/

/-- A buffered packet without its bytes. -/
def BufferedPublish.brief (e : BufferedPublish) : UInt16 × UInt8 × UInt8 :=
  (e.packetId, e.raw.packetType, e.qos)

/-- The client packet is to be buffered, and there is no room for it. -/
def OutageBuffer.overflows (c : Codec) (b : OutageBuffer) (p : MqttPacket) : Bool :=
  match bufferedAs c p with
  | some entry => decide (outageBufferMaxBytes < b.bytes + entry.raw.len)
  | none => false

/-- `service_outage_packet` leaves the same behind. -/
structure Serviced.Twins (s s' : Serviced) : Prop where
  buffer : s.buffer.entries.map BufferedPublish.brief = s'.buffer.entries.map BufferedPublish.brief
  subscriptions : s.subscriptions.grants = s'.subscriptions.grants
  windows : s.windows.Twins s'.windows
  out : s.out.map Output.kind = s'.out.map Output.kind

theorem Serviced.Twins.push {s s' : Serviced} (h : s.Twins s') (i : UInt16) (qos : QoS)
    {raw raw' : RawPacket} (hraw : raw.packetType = raw'.packetType)
    (hroom : outageBufferMaxBytes < s.buffer.bytes + raw.len ↔
      outageBufferMaxBytes < s'.buffer.bytes + raw'.len) :
    Agree Serviced.Twins SameKind (s.push i raw qos) (s'.push i raw' qos) := by
  unfold Serviced.push OutageBuffer.push
  by_cases hfull : outageBufferMaxBytes < s.buffer.bytes + raw.len
  · rw [if_pos hfull, if_pos (hroom.mp hfull)]
    exact .error rfl
  · rw [if_neg hfull, if_neg (fun h' => hfull (hroom.mpr h'))]
    refine .ok { h with buffer := ?_ }
    show (s.buffer.entries ++ [_]).map _ = (s'.buffer.entries ++ [_]).map _
    rw [List.map_append, List.map_append, h.buffer]
    exact congrArg (fun t => _ ++ [(i, t, qos.toU8)]) hraw

theorem Serviced.Twins.track {s s' : Serviced} (h : s.Twins s') (hp : Alike p p') :
    (s.track p).Twins (s'.track p') :=
  { h with subscriptions := Subscriptions.grants_track h.subscriptions hp }

theorem Serviced.Twins.send {s s' : Serviced} (h : s.Twins s')
    (hp : p.packetType = p'.packetType) (sent : Sent) :
    Agree Serviced.Twins SameKind (s.send p sent) (s'.send p' sent) := by
  cases sent with
  | ok => exact .ok { h with out := map_kind_append h.out (congrArg OutputKind.toClient hp) }
  | failed e => exact .error rfl

theorem serviceOutagePacket_twins {s s' : Serviced} (h : s.Twins s') (hp : Alike p p')
    (hroom : s.buffer.overflows c p = s'.buffer.overflows c p') (pong : Sent) :
    Agree Serviced.Twins SameKind (serviceOutagePacket c s p pong)
      (serviceOutagePacket c s' p' pong) := by
  have hraw := hp.encodeRaw_packetType (c := c)
  unfold OutageBuffer.overflows bufferedAs at hroom
  rw [serviceOutagePacket_eq, serviceOutagePacket_eq]
  rw [← hp.shape] at hroom ⊢
  cases hshape : p.shape with
  | publish qos i =>
      rw [hshape] at hroom
      exact h.push i qos hraw (decide_eq_decide.mp hroom)
  | publishRelease i =>
      rw [hshape] at hroom
      exact h.push i .exactlyOnce hraw (decide_eq_decide.mp hroom)
  | subscribe i =>
      rw [hshape] at hroom
      exact (h.track hp).push i .atLeastOnce hraw (decide_eq_decide.mp hroom)
  | unsubscribe i =>
      rw [hshape] at hroom
      exact (h.track hp).push i .atLeastOnce hraw (decide_eq_decide.mp hroom)
  | publishAck i | publishReceived i | publishComplete i =>
      exact .ok { h with windows := h.windows.trackC2b hp }
  | pingRequest => exact h.send hp.pingResponse_packetType pong
  | disconnect => exact .error rfl
  | _ => exact .ok h

end TrafficDirector
