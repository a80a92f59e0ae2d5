/-
# `TrafficDirector.Session.Answers` — the proxy acknowledges nothing itself

Acknowledgements on the client's side are the broker's: each one that a session sends
to its client it has decoded from a broker connection, in that order, be it live or from
what a lost connection had left.  What a replay sends besides are PUBLISHes, since the
b2c window holds no other packets (`Session.Publishes`).  During an outage nothing but
PINGREQs are answered (`outage_answers`).
-/
import TrafficDirector.Session.Leftover
import TrafficDirector.Session.Retention

namespace TrafficDirector

open Framing (Reader)

/-- The packet type of a frame. -/
def Frame.packetType : Frame → UInt8
  | .packet p => p.packetType
  | .raw r => r.packetType
  | .connect _ => 1

/-- PUBACK, PUBREC, PUBCOMP, SUBACK, UNSUBACK. -/
def acknowledgementTypes : List UInt8 := [4, 5, 7, 9, 11]

/-- A frame of this type to the client. -/
def Output.clientFrame (kind : UInt8) : Output → Option Frame
  | .toClient f => if f.packetType = kind then some f else none
  | _ => none

/-- What a step decodes from the broker connection, or takes out of the leftover of the
last one, of packets of this type.  The CONNACK and the SUBACK of a replay are not
among them. -/
def Outcome.decoded (c : Codec) (kind : UInt8) : Outcome → Event → List Frame
  | .running s, e =>
      let packets := if e.opens then s.leftoverPackets c else e.brokerPacket.toList
      (packets.filter (fun p => p.packetType = kind)).map .packet
  | .ended _, _ => []

/-- The PINGRESP due for this event. -/
def Event.pong (e : Event) : List Output :=
  match e.clientPacket with
  | some p => if p.shape = .pingRequest then [.toClient (.packet p.pingResponse)] else []
  | none => []

/-- The PINGRESP cannot be written. -/
def Event.pongFails : Event → Bool
  | .clientRead _ _ _ (.failed _) _ => true
  | _ => false

/-- What an outage has sent to the client: a PINGRESP for each PINGREQ, but for the one
that could not be written, and the notice of a keepalive that has run out. -/
inductive AnswersPings : List Event → Outcome → List Output → Prop where
  | running {es : List Event} {s : Session} : AnswersPings es (.running s) (es.flatMap Event.pong)
  | ended {es : List Event} {e : Event} {r : Except IoError Unit}
      (last : e.pong = [] ∨ e.pongFails = true) :
      AnswersPings (es ++ [e]) (.ended r) (es.flatMap Event.pong)
  | expired {es : List Event} {now : Nat} {notice : Sent} {r : Except IoError Unit} :
      AnswersPings (es ++ [.keepalive now notice]) (.ended r)
        (es.flatMap Event.pong ++ [.toClient keepaliveNotice])

variable {c : Codec} {s s' : Session} {e : Event} {es : List Event} {o : Outcome}
  {out : List Output}

/-! ## The b2c window holds PUBLISHes -/

/-- Every packet in the b2c window is a PUBLISH. -/
def InflightWindows.Delivering (w : InflightWindows) : Prop :=
  ∀ i state raw, w.b2c.get? i = some (state, raw) → raw.packetType = 3

theorem withDup_packetType (r : RawPacket) : (withDup r).packetType = r.packetType := by
  show (r.head ||| dupFlag) >>> 4 = r.head >>> 4
  rw [UInt8.shiftRight_or]
  exact UInt8.or_zero

namespace InflightWindows

variable {w : InflightWindows}

theorem Delivering.trackC2b (hw : w.Delivering) (p : MqttPacket) : (w.trackC2b c p).Delivering := by
  intro i state raw h
  rw [trackC2b_b2c] at h
  cases hshape : p.shape with
  | publishAck j =>
      rw [hshape] at h
      simp only [OrdMap.get?_erase] at h
      split at h
      · cases h
      · exact hw i state raw h
  | publishComplete j =>
      rw [hshape] at h
      simp only [OrdMap.get?_erase] at h
      split at h
      · cases h
      · exact hw i state raw h
  | publishReceived j =>
      rw [hshape] at h
      simp only [OrdMap.get?_adjust] at h
      split at h
      · obtain ⟨⟨state', raw'⟩, hget, heq⟩ := Option.map_eq_some_iff.mp h
        obtain rfl : raw' = raw := (Prod.mk.inj heq).2
        exact hw i state' raw' hget
      · exact hw i state raw h
  | _ =>
      rw [hshape] at h
      exact hw i state raw h

theorem Delivering.trackB2c (hw : w.Delivering) (p : MqttPacket) : (w.trackB2c c p).Delivering := by
  intro i state raw h
  rw [trackB2c_b2c] at h
  cases hshape : p.shape with
  | publish q j =>
      rw [hshape] at h
      simp only [OrdMap.get?_insert] at h
      split at h
      · rw [← (Prod.mk.inj (Option.some.inj h)).2]
        exact (c.encode_type p).trans (packetType_of_publish hshape)
      · exact hw i state raw h
  | _ =>
      rw [hshape] at h
      exact hw i state raw h

/-- A retransmit is a PUBLISH. -/
theorem Delivering.clientRetransmits (hw : w.Delivering) :
    ∀ raw ∈ w.clientRetransmits, raw.packetType = 3 := by
  intro raw hraw
  obtain ⟨⟨state, raw'⟩, hmem, hre⟩ := List.mem_filterMap.mp hraw
  obtain ⟨i, hget⟩ := OrdMap.mem_values.mp hmem
  have htype := hw i state raw' hget
  unfold clientRetransmit at hre
  split at hre
  · next heq =>
      rw [← Option.some.inj hre, withDup_packetType, ← (Prod.mk.inj heq).2]
      exact htype
  · exact nomatch hre
  · next hstate _ _ => exact absurd hstate (by decide)
  · next hstate _ _ => exact absurd hstate (by decide)

end InflightWindows

theorem serviceOutagePacket_delivering {v v' : Serviced} {p : MqttPacket} {pong : Sent}
    (hv : v.windows.Delivering) (h : serviceOutagePacket c v p pong = .ok v') :
    v'.windows.Delivering := by
  rw [serviceOutagePacket_eq] at h
  cases hshape : p.shape <;> rw [hshape] at h
  case publish | publishRelease | subscribe | unsubscribe =>
    rw [Serviced.push_ok h]
    exact hv
  case pingRequest =>
    cases pong with
    | ok => rw [← Except.ok.inj h]; exact hv
    | failed e => exact nomatch h
  case disconnect => exact nomatch h
  case publishAck | publishReceived | publishComplete =>
    rw [← Except.ok.inj h]
    exact hv.trackC2b p
  all_goals
    rw [← Except.ok.inj h]
    exact hv

theorem Transition.delivering (h : Transition c s e s' out) (hs : s.windows.Delivering) :
    s'.windows.Delivering := by
  cases h with
  | idle quiet same =>
      rw [same.windows]
      exact hs
  | @forwarded now p => exact hs.trackC2b p
  | @unsent now p => exact hs.trackC2b p
  | held down serviced =>
      exact serviceOutagePacket_delivering (v := ⟨s.buffer, s.subscriptions, s.windows, []⟩) hs
        serviced
  | @delivered p => exact hs.trackB2c p
  | replayed down patched serves =>
      show s.flushedWindows.Delivering
      rw [Session.flushedWindows, foldl_flushWindow]
      exact hs
  | _ => exact hs

/-! ## What is sent to the client -/

/-- Apart from replays, a step sends the client the packet that it has read from the
broker, or frames that are PINGRESPs and DISCONNECTs. -/
theorem forwardLoop_toClient (h : forwardLoop c (.running s) e = some (o, out))
    (hwait : e.opens = false) :
    (∃ p, e.brokerPacket = some p ∧ out = [.toClient (.packet p)]) ∨
      ∀ f, .toClient f ∈ out → f.packetType = 13 ∨ f.packetType = 14 := by
  have hpong : ∀ (p : MqttPacket) (fs : List Frame), fs ⊆ [.packet p.pingResponse] →
      ∀ f, Output.toClient f ∈ fs.map .toClient → f.packetType = 13 ∨ f.packetType = 14 := by
    intro p fs hfs f hf
    obtain ⟨f', hf', heq⟩ := List.mem_map.mp hf
    obtain rfl := Output.toClient.inj heq
    left
    rw [List.mem_singleton.mp (hfs hf')]
    cases p <;> rfl
  cases o with
  | running s' =>
      cases forwardLoop_running h with
      | idle quiet same => exact Or.inr (fun f hf => nomatch hf)
      | forwarded up answered =>
          obtain ⟨fs, hfs, rfl⟩ := answerPing_toClient answered
          right
          intro f hf
          rcases List.mem_append.mp hf with hf | hf
          · exact hpong _ fs hfs f hf
          · exact nomatch List.mem_singleton.mp hf
      | unsent up answered =>
          obtain ⟨fs, hfs, rfl⟩ := answerPing_toClient answered
          exact Or.inr (hpong _ fs hfs)
      | held down serviced =>
          obtain ⟨fs, hfs, hout⟩ := serviceOutagePacket_out serviced
          rw [hout]
          exact Or.inr (hpong _ fs hfs)
      | delivered up passedOn => exact Or.inl ⟨_, rfl, rfl⟩
      | lost up quiet => exact Or.inr (fun f hf => nomatch hf)
      | replayed down patched serves => exact nomatch hwait
      | migrated id now keepAlive => exact Or.inr (fun f hf => nomatch hf)
  | ended r =>
      refine (forwardLoop_ended_out h (Event.not_wait hwait)).imp id ?_
      rintro ⟨fs, hfs, rfl⟩ f hf
      obtain ⟨f', hf', heq⟩ := List.mem_map.mp hf
      obtain rfl := Output.toClient.inj heq
      right
      rw [List.mem_singleton.mp (hfs hf')]
      rfl

theorem filterMap_clientFrame_packets (kind : UInt8) (ps : List MqttPacket) :
    ((ps.map Frame.packet).map Output.toClient).filterMap (Output.clientFrame kind)
      = (ps.filter (fun p => p.packetType = kind)).map .packet := by
  induction ps with
  | nil => rfl
  | cons p ps ih =>
      by_cases hp : p.packetType = kind
      · simpa [Output.clientFrame, Frame.packetType, hp] using ih
      · simpa [Output.clientFrame, Frame.packetType, hp] using ih

theorem filterMap_clientFrame_nil {kind : UInt8}
    (h : ∀ f, .toClient f ∈ out → f.packetType ≠ kind) :
    out.filterMap (Output.clientFrame kind) = [] := by
  refine List.filterMap_eq_nil_iff.mpr ?_
  intro o ho
  cases o with
  | toClient f => exact if_neg (h f ho)
  | openBroker => rfl
  | toBroker f => rfl

/-- Of the plan of a replay, only the leftover can hold acknowledgements. -/
theorem replayPlan_clientFrame {kind : UInt8} {raw : Bytes} (hs : s.windows.Delivering)
    (hkind : kind ∈ acknowledgementTypes) :
    (s.replayPlan c raw).filterMap (Output.clientFrame kind)
      = ((s.leftoverPackets c).filter (fun p => p.packetType = kind)).map .packet := by
  have hbroker : ∀ fs : List Frame,
      (fs.map Output.toBroker).filterMap (Output.clientFrame kind) = [] := by
    intro fs
    refine filterMap_clientFrame_nil ?_
    intro f hf
    obtain ⟨_, -, h⟩ := List.mem_map.mp hf
    exact nomatch h
  have hclient : ((s.windows.clientRetransmits.map Frame.raw).map Output.toClient).filterMap
      (Output.clientFrame kind) = [] := by
    refine filterMap_clientFrame_nil ?_
    intro f hf
    obtain ⟨f', hf', heq⟩ := List.mem_map.mp hf
    obtain ⟨raw, hraw, rfl⟩ := List.mem_map.mp hf'
    obtain rfl := Output.toClient.inj heq
    show raw.packetType ≠ kind
    rw [hs.clientRetransmits raw hraw]
    rintro rfl
    exact absurd hkind (by decide)
  rw [Session.replayPlan, List.filterMap_append, List.filterMap_append, List.filterMap_append,
    List.filterMap_append, List.filterMap_append, hbroker, hbroker, hbroker, hclient,
    filterMap_clientFrame_packets]
  simp [Output.clientFrame]

/-- The broker packets that a step decodes. -/
def Session.arrivals (c : Codec) (s : Session) (e : Event) : List MqttPacket :=
  if e.opens then s.leftoverPackets c else e.brokerPacket.toList

def Output.packetToClient : Output → Option MqttPacket
  | .toClient (.packet p) => some p
  | _ => none

theorem replayPlan_packetToClient (c : Codec) (s : Session) (raw : Bytes) :
    (s.replayPlan c raw).filterMap Output.packetToClient = s.leftoverPackets c := by
  have hbroker : ∀ fs : List Frame, (fs.map Output.toBroker).filterMap Output.packetToClient = [] := by
    intro fs
    rw [List.filterMap_map]
    exact List.filterMap_eq_nil_iff.mpr (fun _ _ => rfl)
  have hraw : ∀ raws : List RawPacket,
      ((raws.map Frame.raw).map Output.toClient).filterMap Output.packetToClient = [] := by
    intro raws
    rw [List.map_map, List.filterMap_map]
    exact List.filterMap_eq_nil_iff.mpr (fun _ _ => rfl)
  have hleft : (((s.leftoverPackets c).map Frame.packet).map Output.toClient).filterMap
      Output.packetToClient = s.leftoverPackets c := by
    rw [List.map_map, List.filterMap_map]
    exact List.filterMap_some
  rw [Session.replayPlan, List.filterMap_append, List.filterMap_append, List.filterMap_append,
    List.filterMap_append, List.filterMap_append, hbroker, hbroker, hbroker, hraw, hleft]
  simp [Output.packetToClient]

/-- A quiet event brings only what is not passed on. -/
theorem Event.Quiet.arrivals {α : Type} {g : MqttPacket → Option α}
    (hg : ∀ p : MqttPacket, ¬ p.PassedOn → g p = none) (quiet : e.Quiet) :
    (s.arrivals c e).filterMap g = [] := by
  rw [Session.arrivals, if_neg (Bool.eq_false_iff.mp quiet.opens)]
  unfold Event.brokerPacket
  split
  · next p _ _ =>
      rw [Option.toList_some, List.filterMap_cons, hg p quiet]
      rfl
  · rfl

/-- What a step sends to the client, PINGRESPs and retransmits aside, it has decoded. -/
theorem Transition.packetsToClient {α : Type} {g : MqttPacket → Option α}
    (hg : ∀ p : MqttPacket, ¬ p.PassedOn → g p = none) (h : Transition c s e s' out) :
    (out.filterMap Output.packetToClient).filterMap g = (s.arrivals c e).filterMap g := by
  have hpong : ∀ (p : MqttPacket) (fs : List Frame), fs ⊆ [.packet p.pingResponse] →
      ((fs.map Output.toClient).filterMap Output.packetToClient).filterMap g = [] := by
    intro p fs hfs
    refine List.filterMap_eq_nil_iff.mpr ?_
    intro q hq
    obtain ⟨o, ho, hq⟩ := List.mem_filterMap.mp hq
    obtain ⟨f, hf, rfl⟩ := List.mem_map.mp ho
    rw [List.mem_singleton.mp (hfs hf)] at hq
    rw [← Option.some.inj hq]
    refine hg _ ?_
    intro hpassed
    exact hpassed.1 (by cases p <;> rfl)
  cases h with
  | idle quiet same => exact (quiet.arrivals hg).symm
  | forwarded up answered =>
      obtain ⟨fs, hfs, rfl⟩ := answerPing_toClient answered
      rw [List.filterMap_append, List.filterMap_append, hpong _ fs hfs]
      rfl
  | unsent up answered =>
      obtain ⟨fs, hfs, rfl⟩ := answerPing_toClient answered
      exact hpong _ fs hfs
  | held down serviced =>
      obtain ⟨fs, hfs, hout⟩ := serviceOutagePacket_out serviced
      rw [hout]
      exact hpong _ fs hfs
  | delivered up passedOn => rfl
  | lost up quiet => exact (quiet.arrivals hg).symm
  | @replayed a raw down patched serves =>
      show ((s.replayPlan c raw).filterMap Output.packetToClient).filterMap g = _
      rw [replayPlan_packetToClient]
      rfl
  | migrated id now keepAlive => rfl

/-- The windows of a session that still runs. -/
def Outcome.Delivering : Outcome → Prop
  | .running s => s.windows.Delivering
  | .ended _ => True

theorem Outcome.Delivering.step {o o' : Outcome} (h : o.Delivering)
    (hs : forwardLoop c o e = some (o', out)) : o'.Delivering := by
  cases o' with
  | ended r => trivial
  | running s' =>
      obtain ⟨s, rfl⟩ := running_of_step hs
      exact (forwardLoop_running hs).delivering h

/-- Each acknowledgement that a step sends to the client it has decoded. -/
theorem forwardLoop_acknowledgements {kind : UInt8} {o' : Outcome}
    (hkind : kind ∈ acknowledgementTypes) (h : o.Delivering)
    (hs : forwardLoop c o e = some (o', out)) :
    (out.filterMap (Output.clientFrame kind)).Sublist (o.decoded c kind e) := by
  cases o with
  | ended r => exact nomatch hs
  | running s =>
      show (out.filterMap (Output.clientFrame kind)).Sublist
        (((if e.opens then s.leftoverPackets c else e.brokerPacket.toList).filter _).map _)
      cases hopen : e.opens with
      | true =>
          obtain ⟨a, rfl⟩ : ∃ a, e = .wait (some a) := by
            unfold Event.opens at hopen
            split at hopen
            · exact ⟨_, rfl⟩
            · exact nomatch hopen
          obtain ⟨-, hc⟩ := forwardLoop_wait_inv hs
          have hplan := connectBroker_followsPlan c s a
          rw [hc] at hplan
          have hsub := (hplan.filterMap (Output.clientFrame kind)).sublist
          rw [List.filterMap_cons_none rfl, replayPlan_clientFrame h hkind] at hsub
          exact hsub
      | false =>
          rcases forwardLoop_toClient hs hopen with ⟨p, hp, rfl⟩ | htypes
          · rw [hp]
            show (([Frame.packet p].map Output.toClient).filterMap _).Sublist _
            exact (filterMap_clientFrame_packets kind [p]) ▸ List.Sublist.refl _
          · rw [filterMap_clientFrame_nil]
            · exact List.nil_sublist _
            · intro f hf
              rintro rfl
              rcases htypes f hf with h | h <;> rw [h] at hkind <;> exact absurd hkind (by decide)

/-! ## Outages -/

theorem AnswersPings.cons (h : AnswersPings es o out) (e : Event) :
    AnswersPings (e :: es) o (e.pong ++ out) := by
  cases h with
  | running => exact List.flatMap_cons ▸ .running
  | @ended es e' r last =>
      have hcons : AnswersPings ((e :: es) ++ [e']) (.ended r) ((e :: es).flatMap Event.pong) :=
        .ended last
      rw [List.flatMap_cons] at hcons
      exact hcons
  | @expired es now notice r =>
      have hcons : AnswersPings ((e :: es) ++ [.keepalive now notice]) (.ended r)
          ((e :: es).flatMap Event.pong ++ [.toClient keepaliveNotice]) := .expired
      rw [List.flatMap_cons, List.append_assoc] at hcons
      exact hcons

theorem Serviced.send_ok {v v' : Serviced} {p : MqttPacket} {pong : Sent}
    (h : v.send p pong = .ok v') : v'.out = v.out ++ [.toClient (.packet p)] := by
  cases pong with
  | ok => rw [← Except.ok.inj h]
  | failed e => exact nomatch h

/-- A packet that is serviced is answered if it is a PINGREQ. -/
theorem serviceOutagePacket_pong {v v' : Serviced} {p : MqttPacket} {pong : Sent}
    (h : serviceOutagePacket c v p pong = .ok v') :
    v'.out = v.out ++
      if p.shape = .pingRequest then [.toClient (.packet p.pingResponse)] else [] := by
  rw [serviceOutagePacket_eq] at h
  have hsilent : p.shape ≠ .pingRequest → v'.out = v.out → v'.out = v.out ++
      if p.shape = .pingRequest then [.toClient (.packet p.pingResponse)] else [] := by
    intro hne hout
    rw [if_neg hne, List.append_nil, hout]
  cases hshape : p.shape <;> rw [hshape] at h hsilent
  case publish | publishRelease | subscribe | unsubscribe =>
    refine hsilent (fun hp => nomatch hp) ?_
    obtain rfl := Serviced.push_ok h
    rfl
  case pingRequest =>
    rw [if_pos rfl]
    exact Serviced.send_ok h
  case disconnect => exact nomatch h
  all_goals
    refine hsilent (fun hp => nomatch hp) ?_
    rw [← Except.ok.inj h]

theorem Event.pong_eq_nil (h : e.clientPacket = none) : e.pong = [] := by
  rw [Event.pong, h]

/-- One step of an outage that goes on. -/
theorem Transition.pong (h : Transition c s e s' out) (down : s.broker = none)
    (hopen : e.opens = false) : out = e.pong := by
  have hup : ∀ {P : Prop}, s.broker.isSome = true → P := by
    intro P up
    rw [down] at up
    exact nomatch up
  cases h with
  | idle quiet same => exact (Event.pong_eq_nil quiet.clientPacket).symm
  | forwarded up => exact hup up
  | unsent up => exact hup up
  | held _ serviced => exact serviceOutagePacket_pong serviced
  | delivered up => exact hup up
  | lost up => exact hup up
  | replayed => exact nomatch hopen
  | migrated => rfl

/-- The last step of a session that ends in an outage. -/
theorem forwardLoop_expires {r : Except IoError Unit}
    (h : forwardLoop c (.running s) e = some (.ended r, out)) (down : s.broker = none)
    (hopen : e.opens = false) : AnswersPings [e] (.ended r) out := by
  rw [forwardLoop_outage down] at h
  unfold outageStep at h
  split at h
  · next now p after pong forward =>
      have h := Option.some.inj h
      unfold outagePacket at h
      split at h
      · next err herr =>
          obtain ⟨-, rfl⟩ := Prod.mk.inj h
          refine @AnswersPings.ended [] _ _ ?_
          rcases serviceOutagePacket_error herr with hd | ⟨-, text, rfl⟩ | ⟨entry, hentry, -⟩
          · left
            show (if p.shape = .pingRequest then _ else _) = _
            rw [hd]
            rfl
          · exact Or.inr rfl
          · left
            show (if p.shape = .pingRequest then _ else _) = _
            refine if_neg ?_
            intro hping
            rw [bufferedAs, hping] at hentry
            exact nomatch hentry
      · exact nomatch (Prod.mk.inj h).1
  · split at h
    · exact nomatch hopen
    · exact nomatch (Prod.mk.inj (Option.some.inj h)).1
    · exact nomatch (Prod.mk.inj (Option.some.inj h)).1
    · exact nomatch h
  · next hpacket _ =>
      unfold commonStep at h
      split at h
      case h_6 now notice =>
        split at h
        · obtain ⟨-, rfl⟩ := Prod.mk.inj (Option.some.inj h)
          unfold closeForKeepalive
          split
          · exact @AnswersPings.expired [] _ _ _
          · exact @AnswersPings.ended [] _ _ (Or.inl rfl)
        · exact nomatch h
      case h_7 => exact nomatch h
      all_goals
        obtain ⟨-, rfl⟩ := Prod.mk.inj (Option.some.inj h)
        exact @AnswersPings.ended [] _ _ (Or.inl rfl)

/-- While no broker connection is open, a session answers each PINGREQ, and nothing
else. -/
theorem outage_answers (down : s.broker = none)
    (hrun : (sessionMachine c).run (.running s) es = some (o, out))
    (hopen : ∀ e ∈ es, e.opens = false) : AnswersPings es o out := by
  induction es generalizing s out with
  | nil =>
      obtain ⟨rfl, rfl⟩ := Prod.mk.inj (Option.some.inj hrun)
      exact .running
  | cons e es ih =>
      obtain ⟨o₁, out₁, out₂, hs, hr, rfl⟩ := Machine.run_cons_eq_some.mp hrun
      obtain ⟨hopen₁, hopen₂⟩ := List.forall_mem_cons.mp hopen
      cases o₁ with
      | running s₁ =>
          have ht := forwardLoop_running hs
          rw [ht.pong down hopen₁]
          exact (ih (ht.outage hopen₁ down).1 hr hopen₂).cons e
      | ended r =>
          -- nothing follows the end
          cases es with
          | nil =>
              obtain ⟨rfl, rfl⟩ := Prod.mk.inj (Option.some.inj hr)
              rw [List.append_nil]
              exact forwardLoop_expires hs down hopen₁
          | cons e' es' =>
              obtain ⟨_, _, _, hs', -⟩ := Machine.run_cons_eq_some.mp hr
              exact nomatch hs'

/-! ## Runs -/

/-- In every run, the acknowledgements of each type that the client is sent are, in
order, some of those that the session has decoded from its broker connections and
their leftovers; and in an outage, from whatever state, it answers PINGREQs only, each
once. -/
theorem never_acknowledges {id : SessionId} {hs : Handshake} {client broker : Reader UInt8}
    {now : Nat}
    (hrun : (sessionMachine c).run (.running (Session.initial id hs client broker now)) es
      = some (o, out)) :
    (∀ kind ∈ acknowledgementTypes,
      (out.filterMap (Output.clientFrame kind)).Sublist ((sessionMachine c).gather
        (Outcome.decoded c kind) (.running (Session.initial id hs client broker now)) es)) ∧
    ∀ s outage o' out', s.broker = none → (∀ e ∈ outage, e.opens = false) →
      (sessionMachine c).run (.running s) outage = some (o', out') →
      AnswersPings outage o' out' := by
  constructor
  · intro kind hkind
    have hstart : (Outcome.running (Session.initial id hs client broker now)).Delivering :=
      fun i state raw h => nomatch h
    refine Machine.run_sublist_gather (I := Outcome.Delivering) ?_ ?_ hstart hrun
    · intro o e o' out h hs
      exact Outcome.Delivering.step (c := c) h hs
    · intro o e o' out h hs
      exact forwardLoop_acknowledgements hkind h hs
  · intro s outage o' out' down hopen houtage
    exact outage_answers down houtage hopen

namespace ReferenceCodec

/-- In an outage the client publishes, and pings. -/
def heldWithPing : List Event := [forwarded (publish one []), forwarded ping]

/-- Of two PUBACKs one is delivered and the other left over when the broker closes; the
client publishes and pings before the replay. -/
def acknowledgedLate : List Event :=
  [forwarded (publish one []), forwarded (publish two []), readTwo,
    .brokerRead .closed (.fresh (encode (puback two)).toBytes) .ok] ++ heldWithPing ++
    [.wait (some accepting)]

end ReferenceCodec

open ReferenceCodec in
theorem never_acknowledges_late : ∃ o out,
    (sessionMachine (codec true)).run (.running session) acknowledgedLate = some (o, out) ∧
    out.filterMap (Output.clientFrame 4) = [.packet (puback one), .packet (puback two)] ∧
    (out.filterMap (Output.clientFrame 4)).Sublist ((sessionMachine (codec true)).gather
      (Outcome.decoded (codec true) 4) (.running session) acknowledgedLate) ∧
    ∃ o' out', (sessionMachine (codec true)).run (.running (session.loseBroker (.fresh [])))
        heldWithPing = some (o', out') ∧ out'.length = 1 ∧ AnswersPings heldWithPing o' out' := by
  have hview : ((sessionMachine (codec true)).run (.running session) acknowledgedLate).map
      (fun r => r.2.filterMap (Output.clientFrame 4))
        = some [.packet (puback one), .packet (puback two)] := by decide +kernel
  obtain ⟨⟨o, out⟩, hrun, hout⟩ := Option.map_eq_some_iff.mp hview
  obtain ⟨hacks, hpings⟩ := never_acknowledges hrun
  have houtage : (sessionMachine (codec true)).run (.running (session.loseBroker (.fresh [])))
      heldWithPing = some (_, _) := rfl
  refine ⟨o, out, hrun, hout, hacks 4 (by decide), _, _, houtage, rfl, ?_⟩
  exact hpings _ heldWithPing _ _ rfl (by decide) houtage

end TrafficDirector
