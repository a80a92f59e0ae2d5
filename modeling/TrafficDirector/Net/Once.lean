/-
# `TrafficDirector.Net.Once` — QoS 2 messages are taken once

A PUBLISH of QoS 2 is sent again until it is acknowledged, over as many connections as it
takes; its receiver drops the repetitions until the PUBREL comes.  So what the proxy must not
do is to send the PUBLISH again after the PUBREL.

Toward the broker it never does (`broker_takes_once`).  Toward the client it does not as
long as the broker sends a PUBREL only for what the client has received since
(`client_takes_once`): a PUBREL that comes earlier leaves the PUBLISH in the window.
-/
import TrafficDirector.Lib.Receiver
import TrafficDirector.Net.Downlink
import TrafficDirector.ReferenceCodec

namespace TrafficDirector

open Framing (Reader)
open Resend (Stamped Receiver)

/-- The id of a QoS 2 PUBLISH. -/
def qos2Id (p : MqttPacket) : Option UInt16 :=
  match p.shape with
  | .publish .exactlyOnce i => some i
  | _ => none

/-- The id of a PUBREL. -/
def pubrelId (p : MqttPacket) : Option UInt16 :=
  match p.shape with
  | .publishRelease i => some i
  | _ => none

/-- A QoS 2 receiver: it holds the ids of the PUBLISHes whose PUBREL it waits for, and has
taken the PUBLISHes that were new to it. -/
abbrev Inbox := Receiver UInt16 MqttPacket

def Inbox.receive (inbox : Inbox) (m : Stamped MqttPacket) : Inbox :=
  Receiver.receive qos2Id pubrelId inbox m

variable {c : Codec} {s s' : Session} {d d' : Downlink} {e : Event} {es : List Event}
  {out : List Output} {o o' : Outcome} {p : MqttPacket} {i : UInt16}

theorem qos2Id_eq_some : qos2Id p = some i ↔ p.shape = .publish .exactlyOnce i := by
  unfold qos2Id
  split
  · next j hp => rw [hp]; simp
  · next hno =>
      constructor
      · exact nofun
      · exact fun hp => absurd hp (hno i)

theorem pubrelId_eq_some : pubrelId p = some i ↔ p.shape = .publishRelease i := by
  unfold pubrelId
  split
  · next j hp => rw [hp]; simp
  · next hno =>
      constructor
      · exact nofun
      · exact fun hp => absurd hp (hno i)

theorem pubrelId_of_publish {q : QoS} (hp : p.shape = .publish q i) : pubrelId p = none := by
  rw [pubrelId, hp]

/-! ## Toward the broker -/

theorem alternate_of_inOrder {a b : Stamped MqttPacket}
    (h : Resend.InOrder exchangeId a b) (hne : a.seq = b.seq → a.item = b.item) :
    Resend.Alternate qos2Id pubrelId a b := by
  refine h.alternate ?_ ?_ hne ?_
  · intro x k hx
    rw [exchangeId, qos2Id_eq_some.mp hx]
  · intro x k hx
    rw [exchangeId, pubrelId_eq_some.mp hx]
  · intro x k hx
    rw [pubrelId_of_publish (qos2Id_eq_some.mp hx)]
    intro hnone
    cases hnone

/-- Every run of a session has a journal, in which each write to a broker is found with the
client packet that it carries; and a broker that gets these writes, some of them or all, over
whatever connections, takes no QoS 2 PUBLISH of the client twice. -/
theorem broker_takes_once {id : SessionId} {hs : Handshake} {client broker : Reader UInt8}
    {now : Nat}
    (hrun : (sessionMachine c).run (.running (Session.initial id hs client broker now)) es
      = some (o, out)) :
    ∃ j notes, (journalMachine c).run
        (.initial (Session.initial id hs client broker now)) es = some (j, notes) ∧
      j.session = o ∧ notes.map Noted.out = out ∧
      j.ledger.read = es.filterMap Event.clientPacket ∧
      (∀ n ∈ notes, n.Traced c j.ledger.read) ∧
      ∀ (received : List (Stamped MqttPacket)) (inbox : Inbox),
        received.Sublist (sources notes) → inbox.taken = [] →
        ((received.foldl Inbox.receive inbox).taken.map Stamped.seq).Nodup := by
  obtain ⟨j, notes, hj, ho, hout, hread, hsound⟩ := journal_of_run hrun
  refine ⟨j, notes, hj, ho, hout, hread, hsound.traced, ?_⟩
  intro received inbox hsub hinbox
  have hnumbered : ∀ m ∈ sources notes, j.ledger.read[m.seq]? = some m.item := by
    intro m hm
    obtain ⟨n, hn, hsource⟩ := List.mem_filterMap.mp hm
    have htraced := hsound.traced n hn
    unfold Noted.Traced at htraced
    rw [hsource] at htraced
    exact htraced.1
  have halt : (sources notes).Pairwise (Resend.Alternate qos2Id pubrelId) := by
    refine hsound.sorted.imp_of_mem ?_
    intro a b ha hb hab
    refine alternate_of_inOrder hab ?_
    intro heq
    have hitem := hnumbered a ha
    rw [heq, hnumbered b hb] at hitem
    exact (Option.some.inj hitem).symm
  exact Receiver.takes_once halt hnumbered hsub hinbox

open ReferenceCodec in
theorem broker_takes_once_released : ∃ o out,
    (sessionMachine (codec true)).run (.running session) releasedInOutage = some (o, out) ∧
    ∃ j notes, (journalMachine (codec true)).run (.initial session) releasedInOutage
        = some (j, notes) ∧
      j.session = o ∧ notes.map Noted.out = out ∧
      j.ledger.read = releasedInOutage.filterMap Event.clientPacket ∧
      (∀ n ∈ notes, n.Traced (codec true) j.ledger.read) ∧
      ∀ (received : List (Stamped MqttPacket)) (inbox : Inbox),
        received.Sublist (sources notes) → inbox.taken = [] →
        ((received.foldl Inbox.receive inbox).taken.map Stamped.seq).Nodup := by
  have hsome : ((sessionMachine (codec true)).run (.running session) releasedInOutage).isSome
      = true := by decide +kernel
  obtain ⟨⟨o, out⟩, hrun⟩ := Option.isSome_iff_exists.mp hsome
  exact ⟨o, out, hrun, broker_takes_once hrun⟩

/-! ## Toward the client -/

deriving instance DecidableEq for Traffic

/-- The client has sent a PUBREC since the last PUBLISH with this id. -/
def PubrecSince (i : UInt16) (ts : List Traffic) : Prop :=
  Since (fun t => t.receives i = true) (fun t => ¬ t.Delivers i) ts

/-- Brokers release what was received: a PUBREL follows a PUBREC that the client has sent since
the last PUBLISH with that id. -/
def ReleasesReceived (ts : List Traffic) : Prop :=
  ∀ pre p post i, ts = pre ++ .broker p :: post → pubrelId p = some i → PubrecSince i pre

theorem ReleasesReceived.of_append {ts ts' : List Traffic} (h : ReleasesReceived (ts ++ ts')) :
    ReleasesReceived ts := by
  intro pre p post i hts
  exact h pre p (post ++ ts') i (by rw [hts, List.append_assoc]; rfl)

/-- Packets of brokers do not make an id received. -/
theorem received_of_brokers {ts : List Traffic} {ps : List MqttPacket}
    (h : PubrecSince i (ts ++ ps.map .broker)) : PubrecSince i ts := by
  rcases since_append.mp h with ⟨pre, t, post, hps, ht, -⟩ | ⟨h, -⟩
  · obtain ⟨q, -, rfl⟩ := List.mem_map.mp (hps ▸ List.mem_append_right pre List.mem_cons_self)
    exact nomatch ht
  · exact h

/-- A PUBREL that arrives is for an id that was received. -/
theorem ReleasesReceived.received {ps : List MqttPacket} {m : Stamped MqttPacket}
    (h : ReleasesReceived (d.traffic ++ ps.map .broker)) (hm : m ∈ d.stamped ps)
    (hi : pubrelId m.item = some i) : PubrecSince i d.traffic := by
  obtain ⟨k, hk, rfl⟩ := List.mem_mapIdx.mp hm
  obtain ⟨pre, post, hps⟩ := List.append_of_mem (List.getElem_mem hk)
  have hsplit : d.traffic ++ ps.map .broker
      = (d.traffic ++ pre.map .broker) ++ .broker ps[k] :: post.map .broker := by
    rw [List.append_assoc, ← List.map_cons, ← List.map_append, ← hps]
  exact received_of_brokers (h _ _ _ i hsplit hi)

/-- An event brings a packet of the client, or packets of brokers. -/
theorem traffic_cases (c : Codec) (s : Session) (e : Event) :
    (∃ p, e.clientPacket = some p ∧ s.traffic c e = [.client p] ∧ s.arrivals c e = []) ∨
      s.traffic c e = (s.arrivals c e).map .broker := by
  cases hp : e.clientPacket with
  | none => exact Or.inr (by rw [Session.traffic, hp]; rfl)
  | some p =>
      obtain ⟨now, after, pong, forward, rfl⟩ := Event.eq_clientRead hp
      exact Or.inl ⟨p, rfl, rfl, rfl⟩

/-- An id is received by a PUBREC of the client only. -/
theorem received_after (hno : ¬ PubrecSince i d.traffic)
    (hquiet : ∀ p, e.clientPacket = some p → p.shape ≠ .publishReceived i) :
    ¬ PubrecSince i (d.traffic ++ s.traffic c e) := by
  intro hrec
  rcases traffic_cases c s e with ⟨p, hp, htraffic, -⟩ | htraffic
  · rw [htraffic] at hrec
    rcases since_concat.mp hrec with hnow | ⟨hbefore, -⟩
    · exact hquiet p hp (of_decide_eq_true hnow)
    · exact hno hbefore
  · rw [htraffic] at hrec
    exact hno (received_of_brokers hrec)

theorem ReleasesReceived.arrivals (h : ReleasesReceived (d.traffic ++ s.traffic c e)) :
    ReleasesReceived (d.traffic ++ (s.arrivals c e).map .broker) := by
  rcases traffic_cases c s e with ⟨p, -, -, hnone⟩ | htraffic
  · rw [hnone, List.map_nil, List.append_nil]
    exact h.of_append
  · exact htraffic ▸ h

namespace Downlink

/-- The broker packets sent to the client, in order. -/
def sources (d : Downlink) : List (Stamped MqttPacket) := d.log.filterMap Carried.source

/-- What a replay would send again is not received yet, and newer than any PUBREL sent. -/
structure Fresh (d : Downlink) : Prop where
  unreceived : ∀ i m, d.made.get? i = some (deliverySent, m) → ¬ PubrecSince i d.traffic
  newer : ∀ i m, d.made.get? i = some (deliverySent, m) →
    ∀ r ∈ d.sources, pubrelId r.item = some i → r.seq < m.seq
  alternate : d.sources.Pairwise (Resend.Alternate qos2Id pubrelId)

theorem stamped_sorted (d : Downlink) (ps : List MqttPacket) :
    (d.stamped ps).Pairwise (fun a b => a.seq < b.seq) := by
  refine List.pairwise_iff_getElem.mpr ?_
  intro k l hk hl hkl
  simp only [stamped, List.getElem_mapIdx]
  exact Nat.add_lt_add_left hkl _

theorem alternate_of_lt {a b : Stamped MqttPacket} (h : a.seq < b.seq) :
    Resend.Alternate qos2Id pubrelId a b :=
  fun _ _ => h

/-- A packet that is sent again is no PUBREL. -/
theorem Made.resent (h : d.Made) {m : Stamped MqttPacket} (hm : m ∈ d.resent) :
    ∃ j q, d.made.get? j = some (deliverySent, m) ∧ m.item.shape = .publish q j := by
  obtain ⟨j, hj⟩ := mem_resent.mp hm
  obtain ⟨-, q, hq⟩ := h j _ hj
  exact ⟨j, q, hj, hq⟩

/-- Whatever arrives and whatever is sent again may follow what was sent. -/
theorem Fresh.follows (h : d.Fresh) (hmade : d.Made)
    (hread : ∀ m ∈ d.sources, (brokerPackets d.traffic)[m.seq]? = some m.item)
    {ps : List MqttPacket} (hrel : ReleasesReceived (d.traffic ++ ps.map .broker)) :
    (d.sources ++ (d.stamped ps ++ d.resent)).Pairwise (Resend.Alternate qos2Id pubrelId) := by
  -- one that is sent again follows a PUBREL only if that one is older
  have hresent : ∀ a b, b ∈ d.resent →
      (∀ j, d.made.get? j = some (deliverySent, b) → pubrelId a.item = some j → a.seq < b.seq) →
      Resend.Alternate qos2Id pubrelId a b := by
    intro a b hb hlt k hk
    obtain ⟨j, q, hj, hq⟩ := hmade.resent hb
    rcases hk with ⟨-, hclose⟩ | ⟨hclose, hopen⟩
    · rw [pubrelId_of_publish hq] at hclose
      exact nomatch hclose
    · have hshape := qos2Id_eq_some.mp hopen
      rw [hq] at hshape
      injection hshape with _ heq
      exact hlt j hj (heq ▸ hclose)
  refine List.pairwise_append.mpr ⟨h.alternate, List.pairwise_append.mpr ⟨?_, ?_, ?_⟩, ?_⟩
  · exact (d.stamped_sorted ps).imp alternate_of_lt
  · refine List.pairwise_of_forall_mem_list ?_
    intro a ha b hb
    refine hresent a b hb ?_
    intro j _ hclose
    obtain ⟨_, _, _, hq⟩ := hmade.resent ha
    rw [pubrelId_of_publish hq] at hclose
    exact nomatch hclose
  · intro a ha b hb
    refine hresent a b hb ?_
    intro j hj hclose
    exact absurd (hrel.received ha hclose) (h.unreceived j b hj)
  · intro a ha b hb
    rcases List.mem_append.mp hb with hb | hb
    · have hlt := Resend.Ledger.seq_lt (hread a ha)
      exact alternate_of_lt (Nat.lt_of_lt_of_le hlt (d.mem_stamped hb).2)
    · exact hresent a b hb (fun j hj hclose => h.newer j b hj a ha hclose)

theorem sources_after (d : Downlink) (e : Event) (out : List Output) :
    (d.after c s e out).sources = d.sources ++ (d.annotate c s e out).filterMap Carried.source :=
  List.filterMap_append

theorem sources_own {α : Type} (f : α → Output) (xs : List α) :
    (xs.map (fun a => Carried.own (f a))).filterMap Carried.source = [] := by
  refine filterMap_map_none ?_ xs
  exact fun _ => rfl

theorem sources_carried (f : Stamped MqttPacket → Output) (ms : List (Stamped MqttPacket)) :
    (ms.map (fun m => Carried.mk (f m) (some m))).filterMap Carried.source = ms := by
  refine filterMap_map_some ?_ ms
  exact fun _ => rfl

theorem sources_replayLog (c : Codec) (s : Session) (d : Downlink) :
    (d.replayLog c s).filterMap Carried.source = d.stamped (s.leftoverPackets c) ++ d.resent := by
  simp only [replayLog, List.filterMap_append, sources_own, sources_carried, List.nil_append,
    List.append_nil]
  rfl

/-- A step sends the client what arrives and, in a replay, what is sent again. -/
theorem sources_annotate (h : forwardLoop c (.running s) e = some (o, out)) :
    ((d.annotate c s e out).filterMap Carried.source).Sublist
      (d.stamped (s.arrivals c e) ++ if e.opens then d.resent else []) := by
  unfold annotate
  split
  · next p after forward =>
      rcases brokerRead_out h with rfl | rfl
      · exact List.nil_sublist _
      · exact List.Sublist.refl _
  · next a =>
      refine ((List.take_sublist _ _).filterMap _).trans ?_
      rw [sources_replayLog]
      exact List.Sublist.refl _
  · have hown := sources_own id out
    exact hown ▸ List.nil_sublist _

/-- An entry that a replay would send again was there before and the client does not send
its PUBREC now, or it is made now, by the PUBLISH that arrives. -/
theorem madeAfter_unreceived {m : Stamped MqttPacket}
    (h : (d.madeAfter e).get? i = some (deliverySent, m)) :
    (d.made.get? i = some (deliverySent, m) ∧
      ∀ p, e.clientPacket = some p → p.shape ≠ .publishReceived i) ∨
    (s.arrivals c e = [m.item] ∧ m = d.next 0 m.item ∧ ∃ q, m.item.shape = .publish q i) := by
  have herased : ∀ j, (d.made.erase j).get? i = some (deliverySent, m) →
      d.made.get? i = some (deliverySent, m) := by
    intro j hj
    rw [OrdMap.get?_erase] at hj
    split at hj
    · cases hj
    · exact hj
  unfold madeAfter at h
  split at h
  · next p _ _ _ =>
      left
      split at h
      · next j hp =>
          refine ⟨herased j h, ?_⟩
          intro p' hp' hshape
          rw [← Option.some.inj hp', hp] at hshape
          cases hshape
      · next j hp =>
          refine ⟨herased j h, ?_⟩
          intro p' hp' hshape
          rw [← Option.some.inj hp', hp] at hshape
          cases hshape
      · next j hp =>
          rw [OrdMap.get?_adjust] at h
          split at h
          · obtain ⟨e', -, heq⟩ := Option.map_eq_some_iff.mp h
            exact absurd (Prod.mk.inj heq).1 (by decide)
          · next hne =>
              refine ⟨h, ?_⟩
              intro p' hp' hshape
              rw [← Option.some.inj hp', hp] at hshape
              injection hshape with hj
              exact hne hj.symm
      · next hno =>
          exact ⟨h, fun p' hp' hshape => hno i (by rw [Option.some.inj hp']; exact hshape)⟩
  · next p _ _ =>
      split at h
      · next q j hp =>
          rw [OrdMap.get?_insert] at h
          split at h
          · next heq =>
              subst heq
              obtain rfl := (Prod.mk.inj (Option.some.inj h)).2
              exact Or.inr ⟨rfl, rfl, q, hp⟩
          · exact Or.inl ⟨h, (fun p' hp' => by cases hp')⟩
      · exact Or.inl ⟨h, (fun p' hp' => by cases hp')⟩
  · next hread _ =>
      refine Or.inl ⟨h, ?_⟩
      intro p' hp'
      obtain ⟨now, after, pong, forward, rfl⟩ := Event.eq_clientRead hp'
      exact absurd rfl (hread _ _ _ _ _)

theorem Fresh.after (h : d.Fresh) (hmade : d.Made)
    (hread : ∀ m ∈ d.sources, (brokerPackets d.traffic)[m.seq]? = some m.item)
    (hs : forwardLoop c (.running s) e = some (o, out))
    (hrel : ReleasesReceived (d.traffic ++ s.traffic c e)) : (d.after c s e out).Fresh := by
  have harrive := hrel.arrivals
  have hsent := sources_annotate (d := d) hs
  have hnew : ∀ r ∈ (d.annotate c s e out).filterMap Carried.source, ∀ j,
      pubrelId r.item = some j → r ∈ d.stamped (s.arrivals c e) := by
    intro r hr j hj
    rcases List.mem_append.mp (hsent.subset hr) with hr | hr
    · exact hr
    · split at hr
      · obtain ⟨_, _, _, hq⟩ := hmade.resent hr
        rw [pubrelId_of_publish hq] at hj
        exact nomatch hj
      · exact absurd hr List.not_mem_nil
  refine ⟨?_, ?_, ?_⟩
  · intro i m hm
    rcases madeAfter_unreceived (c := c) (s := s) hm with ⟨hold, hquiet⟩ | ⟨hone, -, q, hq⟩
    · exact received_after (h.unreceived i m hold) hquiet
    · intro hrec
      rcases traffic_cases c s e with ⟨_, -, -, hnone⟩ | htraffic
      · exact absurd (hone.symm.trans hnone) (List.cons_ne_nil _ _)
      · -- the PUBLISH is the last packet, and nothing was received since
        have hlast : PubrecSince i (d.traffic ++ [.broker m.item]) := by
          show PubrecSince i (d.traffic ++ [m.item].map .broker)
          rw [← hone, ← htraffic]
          exact hrec
        rcases since_concat.mp hlast with hnow | ⟨-, hkeep⟩
        · exact nomatch hnow
        · exact hkeep ⟨q, hq⟩
  · intro i m hm r hr hi
    rw [sources_after] at hr
    rcases madeAfter_unreceived (c := c) (s := s) hm with ⟨hold, -⟩ | ⟨hone, hm', q, hq⟩
    · rcases List.mem_append.mp hr with hr | hr
      · exact h.newer i m hold r hr hi
      · exact absurd (harrive.received (hnew r hr i hi) hi) (h.unreceived i m hold)
    · rcases List.mem_append.mp hr with hr | hr
      · have hlt := Resend.Ledger.seq_lt (hread r hr)
        rw [hm']
        exact Nat.lt_of_lt_of_le hlt (Nat.le_add_right _ _)
      · have harrived := hnew r hr i hi
        rw [hone] at harrived
        have heq : r = d.next 0 m.item := List.mem_singleton.mp harrived
        rw [heq, show (d.next 0 m.item).item = m.item from rfl, pubrelId_of_publish hq] at hi
        exact nomatch hi
  · rw [sources_after]
    have hall := h.follows hmade hread harrive
    refine hall.sublist ((List.Sublist.refl _).append (hsent.trans ?_))
    split
    · exact List.Sublist.refl _
    · exact (List.Sublist.refl _).append (List.nil_sublist _)

end Downlink

theorem Downlink.Sound.sources {k : Outcome × Downlink} (h : Downlink.Sound c k out) :
    ∀ m ∈ k.2.sources, (brokerPackets k.2.traffic)[m.seq]? = some m.item := by
  intro m hm
  obtain ⟨n, hn, hsource⟩ := List.mem_filterMap.mp hm
  have htraced := h.traced n hn
  unfold Carried.Traced at htraced
  rw [hsource] at htraced
  exact htraced.1

theorem Downlink.fresh_empty : Downlink.empty.Fresh where
  unreceived _ _ h := nomatch h
  newer _ _ h := nomatch h
  alternate := List.Pairwise.nil

/-- In every run whose brokers release only what the client has received, a client that drops
repetitions takes no QoS 2 PUBLISH twice of those that were decoded, however often the proxy
sends it again. -/
theorem client_takes_once {id : SessionId} {hs : Handshake} {client broker : Reader UInt8}
    {now : Nat} {received : List (Stamped MqttPacket)} {inbox : Inbox}
    (hrun : (downlinkMachine c).run (.running (Session.initial id hs client broker now), .empty) es
      = some ((o, d), out))
    (hrel : ReleasesReceived d.traffic) (hsub : received.Sublist d.sources)
    (hinbox : inbox.taken = []) :
    ((received.foldl Inbox.receive inbox).taken.map Stamped.seq).Nodup := by
  have hinv : Downlink.Sound c (o, d) ([] ++ out) ∧ (ReleasesReceived d.traffic → d.Fresh) := by
    refine Machine.run_outputs (I := fun k out => Downlink.Sound c k out ∧
      (ReleasesReceived k.2.traffic → k.2.Fresh)) ?_ ?_ hrun
    · rintro k e ⟨o', d'⟩ out acc ⟨hsound, hfresh⟩ hstep
      refine ⟨hsound.step hstep, ?_⟩
      obtain ⟨s, -, hstep', rfl⟩ := downlinkStep hstep
      intro hrel'
      exact (hfresh hrel'.of_append).after hsound.made hsound.sources hstep' hrel'
    · exact ⟨Downlink.sound_initial id hs client broker now, fun _ => Downlink.fresh_empty⟩
  exact Receiver.takes_once (hinv.2 hrel).alternate hinv.1.sources hsub hinbox

namespace ReferenceCodec

def messageOnce : MqttPacket :=
  .v3 (.publish ⟨false, false, .exactlyOnce, "t", some one, [], none, Publish.hasId_some one⟩)

/-- A QoS 2 PUBLISH is delivered, and again after an outage; the client receives it, and the
broker releases it before the next outage. -/
def releasedToClient : List Event :=
  [delivered messageOnce, brokerCloses, .wait (some accepting),
    forwarded (.v3 (.publishReceived one)), delivered (.v3 (.publishRelease one)),
    brokerCloses, .wait (some accepting)]

/-- The PUBLISH comes again while the client's PUBREC is on its way, and the PUBREL for that
PUBREC right behind it. -/
def releasedEarly : List Event :=
  [delivered messageOnce, brokerCloses, .wait (some accepting),
    forwarded (.v3 (.publishReceived one)), delivered messageOnce,
    delivered (.v3 (.publishRelease one)), brokerCloses, .wait (some accepting)]

end ReferenceCodec

open ReferenceCodec in
theorem client_takes_once_released : ∃ o d out,
    (downlinkMachine (codec true)).run (.running session, .empty) releasedToClient
      = some ((o, d), out) ∧
    d.sources.map Stamped.seq = [0, 0, 1] ∧
    ((d.sources.foldl Inbox.receive ⟨[], []⟩).taken.map Stamped.seq).Nodup := by
  have hview : ((downlinkMachine (codec true)).run (.running session, .empty) releasedToClient).map
      (fun r => (r.1.2.traffic, r.1.2.sources.map Stamped.seq))
        = some ([.broker messageOnce, .client (.v3 (.publishReceived one)),
            .broker (.v3 (.publishRelease one))], [0, 0, 1]) := by
    decide +kernel
  obtain ⟨⟨⟨o, d⟩, out⟩, hrun, heq⟩ := Option.map_eq_some_iff.mp hview
  obtain ⟨htraffic, hsources⟩ := Prod.mk.inj heq
  refine ⟨o, d, out, hrun, hsources, ?_⟩
  refine client_takes_once (d := d) hrun ?_ (List.Sublist.refl _) rfl
  intro pre p post i hsplit hi
  rw [htraffic] at hsplit
  rcases pre with _ | ⟨t₁, _ | ⟨t₂, _ | ⟨t₃, pre⟩⟩⟩
  · obtain rfl := Traffic.broker.inj (List.cons.inj hsplit).1
    exact nomatch hi
  · exact nomatch (List.cons.inj (List.cons.inj hsplit).2).1
  · simp only [List.cons_append, List.nil_append, List.cons.injEq, Traffic.broker.injEq] at hsplit
    obtain ⟨rfl, rfl, rfl, -⟩ := hsplit
    obtain rfl := Option.some.inj hi
    exact ⟨[_], _, [], rfl, rfl, fun _ h => absurd h List.not_mem_nil⟩
  · exact absurd (congrArg List.length hsplit) (by simp)

open ReferenceCodec in
/-- Then the client takes the PUBLISH a second time. -/
example : ((downlinkMachine (codec true)).run (.running session, .empty) releasedEarly).map
    (fun r => (r.1.2.sources.foldl Inbox.receive ⟨[], []⟩).taken.map Stamped.item)
      = some [messageOnce, messageOnce] := by
  decide +kernel

end TrafficDirector
