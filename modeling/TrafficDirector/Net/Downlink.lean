/-
# `TrafficDirector.Net.Downlink` — which broker packet is sent to the client when

A session sends each packet of a broker to the client from one of three places: live,
from the leftover of a lost connection, or from the b2c window (a retransmit).  The downlink
is history beside the session, as the journal is for the other direction: it numbers the
packets that are decoded from brokers, knows of each b2c entry the packet that made it, and
of each output the packet that it carries.

`downlink_traced`: nothing is sent to the client that no broker has sent, but PINGRESPs after
a PINGREQ of its own and the notice of `close_for_keepalive`.  It does not count the PINGRESPs,
as `streams_transparent` and `never_acknowledges` do, nor look at the keepalive deadline.
-/
import TrafficDirector.Net.Transparent
import TrafficDirector.Session.Completion
import TrafficDirector.Window.Exchanges

namespace TrafficDirector

open Framing (Reader)
open Resend (Stamped)

/-- The broker packets among these. -/
def brokerPackets (ts : List Traffic) : List MqttPacket :=
  ts.filterMap (fun t => match t with
    | .client _ => none
    | .broker p => some p)

/-- An output, with the broker packet that it carries to the client. -/
structure Carried where
  out : Output
  source : Option (Stamped MqttPacket)
deriving DecidableEq

def Carried.own (o : Output) : Carried := ⟨o, none⟩

structure Downlink where
  /-- the packets read from the client and decoded from brokers, in order -/
  traffic : List Traffic
  /-- of each b2c entry, its state and the packet that made it -/
  made : OrdMap UInt16 (B2cState × Stamped MqttPacket)
  log : List Carried

/-- What a step reads and decodes. -/
def Session.traffic (c : Codec) (s : Session) (e : Event) : List Traffic :=
  e.clientPacket.toList.map .client ++ (s.arrivals c e).map .broker

namespace Downlink

def empty : Downlink := ⟨[], .empty, []⟩

/-- The `k`th of the packets that are decoded next. -/
def next (d : Downlink) (k : Nat) (p : MqttPacket) : Stamped MqttPacket :=
  ⟨(brokerPackets d.traffic).length + k, p⟩

/-- All of the packets that are decoded next. -/
def stamped (d : Downlink) (ps : List MqttPacket) : List (Stamped MqttPacket) :=
  ps.mapIdx (fun k p => d.next k p)

/-- The entries after an event.  The leftover makes none. -/
def madeAfter (d : Downlink) : Event → OrdMap UInt16 (B2cState × Stamped MqttPacket)
  | .clientRead _ (.packet p) _ _ _ =>
      match p.shape with
      | .publishAck i | .publishComplete i => d.made.erase i
      | .publishReceived i => d.made.adjust i (fun e => (pubrecForwarded, e.2))
      | _ => d.made
  | .brokerRead (.packet p) _ _ =>
      match p.shape with
      | .publish _ i => d.made.insert i (deliverySent, d.next 0 p)
      | _ => d.made
  | _ => d.made

/-- The packets that a replay retransmits to the client. -/
def resent (d : Downlink) : List (Stamped MqttPacket) :=
  (d.made.values.filter (fun e => decide (e.1 = deliverySent))).map Prod.snd

/-- The plan of a replay, with what it carries to the client. -/
def replayLog (c : Codec) (s : Session) (d : Downlink) : List Carried :=
  [.own .openBroker, .own (.toBroker (.connect (patchedConnect s.hs.connectRaw)))]
    ++ ((resubscribeFrames s.hs.version s.subscriptions).map (fun f => .own (.toBroker f))
    ++ ((d.stamped (s.leftoverPackets c)).map (fun m => ⟨.toClient (.packet m.item), some m⟩)
    ++ (s.windows.brokerRetransmits.map (fun r => .own (.toBroker (.raw r)))
    ++ (d.resent.map (fun m => ⟨.toClient (.raw (withDup (encodeRaw c m.item))), some m⟩)
    ++ s.buffer.entries.map (fun b => .own (.toBroker (.raw b.raw)))))))

/-- The outputs of one step, with what they carry. -/
def annotate (c : Codec) (s : Session) (d : Downlink) (e : Event) (out : List Output) :
    List Carried :=
  match e with
  | .brokerRead (.packet p) _ _ => out.map (fun o => ⟨o, some (d.next 0 p)⟩)
  | .wait (some _) => (d.replayLog c s).take out.length
  | _ => out.map .own

def after (c : Codec) (s : Session) (d : Downlink) (e : Event) (out : List Output) : Downlink where
  traffic := d.traffic ++ s.traffic c e
  made := d.madeAfter e
  log := d.log ++ d.annotate c s e out

end Downlink

/-- The session with its downlink. -/
def downlinkMachine (c : Codec) : Machine (Outcome × Downlink) Event Output :=
  (sessionMachine c).record (fun o d e out =>
    match o with
    | .running s => d.after c s e out
    | .ended _ => d)

variable {c : Codec} {s s' : Session} {d d' : Downlink} {e : Event} {es : List Event}
  {out : List Output} {o o' : Outcome}

/-! ## Lists of one kind -/

section Kinds

variable {α β γ : Type}

theorem filterMap_map_none {f : α → β} {g : β → Option γ} (h : ∀ a, g (f a) = none)
    (xs : List α) : (xs.map f).filterMap g = [] := by
  rw [List.filterMap_map]
  exact List.filterMap_eq_nil_iff.mpr (fun a _ => h a)

theorem filterMap_map_some {f : α → β} {g : β → Option α} (h : ∀ a, g (f a) = some a)
    (xs : List α) : (xs.map f).filterMap g = xs := by
  have hid : g ∘ f = some := funext h
  rw [List.filterMap_map, hid]
  exact List.filterMap_some

end Kinds

theorem brokerPackets_append (ts ts' : List Traffic) :
    brokerPackets (ts ++ ts') = brokerPackets ts ++ brokerPackets ts' :=
  List.filterMap_append

theorem brokerPackets_client (ps : List MqttPacket) : brokerPackets (ps.map .client) = [] := by
  refine filterMap_map_none ?_ ps
  exact fun _ => rfl

theorem brokerPackets_broker (ps : List MqttPacket) : brokerPackets (ps.map .broker) = ps := by
  refine filterMap_map_some ?_ ps
  exact fun _ => rfl

theorem brokerPackets_traffic (c : Codec) (s : Session) (e : Event) :
    brokerPackets (s.traffic c e) = s.arrivals c e := by
  rw [Session.traffic, brokerPackets_append, brokerPackets_client, brokerPackets_broker]
  rfl

/-! ## The downlink follows the session -/

namespace Downlink

/-- The downlink says what the b2c window holds. -/
def Matches (c : Codec) (s : Session) (d : Downlink) : Prop :=
  s.windows.b2c = d.made.map (fun e => (e.1, encodeRaw c e.2.item))

theorem madeAfter_quiet (quiet : e.Quiet) : d.madeAfter e = d.made := by
  unfold madeAfter
  split
  · exact quiet.elim
  · next p _ _ =>
      have hno : ¬ p.PassedOn := quiet
      split
      · next q i hp => exact absurd (MqttPacket.passedOn_of_shape (by simp [hp]) (by simp [hp])) hno
      · rfl
  · rfl

/-- A packet of the client does to the downlink what it does to the window. -/
theorem madeAfter_read {now : Nat} {p : MqttPacket} {after : Reader UInt8} {pong forward : Sent}
    (hm : d.Matches c s) :
    (s.windows.trackC2b c p).b2c
      = (d.madeAfter (.clientRead now (.packet p) after pong forward)).map
        (fun e => (e.1, encodeRaw c e.2.item)) := by
  rw [InflightWindows.trackC2b_b2c, hm, madeAfter]
  cases p.shape with
  | publishAck i => exact (OrdMap.map_erase _ d.made i).symm
  | publishComplete i => exact (OrdMap.map_erase _ d.made i).symm
  | publishReceived i =>
      -- a PUBREC changes the state and keeps the packet
      refine (OrdMap.map_adjust ?_ d.made i).symm
      exact fun _ => rfl
  | _ => rfl

end Downlink

theorem Transition.downlink (h : Transition c s e s' out) (hm : d.Matches c s) :
    (d.after c s e out).Matches c s' := by
  show s'.windows.b2c = (d.madeAfter e).map _
  cases h with
  | idle quiet same =>
      rw [same.windows, Downlink.madeAfter_quiet quiet]
      exact hm
  | forwarded up answered => exact Downlink.madeAfter_read hm
  | unsent up answered => exact Downlink.madeAfter_read hm
  | held down serviced => exact (serviceOutagePacket_b2c serviced).trans (Downlink.madeAfter_read hm)
  | @delivered p after up passedOn =>
      refine (InflightWindows.trackB2c_b2c ..).trans ?_
      rw [hm, Downlink.madeAfter]
      cases p.shape with
      | publish q i =>
          show (d.made.map _).insert i _ = (d.made.insert i _).map _
          exact (OrdMap.map_insert _ d.made i (deliverySent, d.next 0 p)).symm
      | _ => rfl
  | lost up quiet =>
      rw [Downlink.madeAfter_quiet quiet]
      exact hm
  | replayed down patched serves =>
      show s.flushedWindows.b2c = _
      rw [Session.flushedWindows, foldl_flushWindow]
      exact hm
  | migrated => exact hm

/-! ## What the downlink has seen -/

/-- Each packet that arrives is found under the number it is given. -/
theorem Downlink.next_read (d : Downlink) {ps : List MqttPacket} {k : Nat} {p : MqttPacket}
    (h : ps[k]? = some p) : (brokerPackets d.traffic ++ ps)[(d.next k p).seq]? = some p := by
  show (brokerPackets d.traffic ++ ps)[(brokerPackets d.traffic).length + k]? = _
  rw [List.getElem?_append_right (Nat.le_add_right _ _), Nat.add_sub_cancel_left]
  exact h

theorem Downlink.mem_stamped (d : Downlink) {ps : List MqttPacket} {m : Stamped MqttPacket}
    (h : m ∈ d.stamped ps) : (brokerPackets d.traffic ++ ps)[m.seq]? = some m.item ∧
      (brokerPackets d.traffic).length ≤ m.seq := by
  obtain ⟨k, hk, rfl⟩ := List.mem_mapIdx.mp h
  exact ⟨d.next_read (List.getElem?_eq_getElem hk), Nat.le_add_right _ _⟩

theorem Downlink.map_stamped {α : Type} (d : Downlink) (f : MqttPacket → α) (ps : List MqttPacket) :
    (d.stamped ps).map (fun m => f m.item) = ps.map f := by
  refine List.ext_getElem? ?_
  intro k
  rw [List.getElem?_map, List.getElem?_map, Downlink.stamped, List.getElem?_mapIdx,
    Option.map_map]
  rfl

/-- What has been read keeps its number. -/
theorem brokerPackets_keep {ts : List Traffic} {k : Nat} {p : MqttPacket}
    (h : (brokerPackets ts)[k]? = some p) (ts' : List Traffic) :
    (brokerPackets (ts ++ ts'))[k]? = some p := by
  obtain ⟨hlt, -⟩ := List.getElem?_eq_some_iff.mp h
  rw [brokerPackets_append, List.getElem?_append_left hlt]
  exact h

/-- A PUBLISH with this id that was decoded from a broker. -/
def Delivery (ts : List Traffic) (i : UInt16) (m : Stamped MqttPacket) : Prop :=
  (brokerPackets ts)[m.seq]? = some m.item ∧ ∃ q, m.item.shape = .publish q i

theorem Delivery.append {ts : List Traffic} {i : UInt16} {m : Stamped MqttPacket}
    (h : Delivery ts i m) (ts' : List Traffic) : Delivery (ts ++ ts') i m :=
  ⟨brokerPackets_keep h.1 ts', h.2⟩

/-- The entries are made by PUBLISHes. -/
def Downlink.Made (d : Downlink) : Prop := d.made.All (fun i e => Delivery d.traffic i e.2)

theorem Downlink.Made.after (h : d.Made) : (d.after c s e out).Made := by
  have hold : d.made.All (fun i e' => Delivery (d.traffic ++ s.traffic c e) i e'.2) :=
    fun i e' he => (h i e' he).append _
  show (d.madeAfter e).All _
  unfold Downlink.madeAfter
  split
  · split
    · exact hold.erase _
    · exact hold.erase _
    · exact hold.adjust (fun _ h => h)
    · exact hold
  · next p _ _ =>
      split
      · next q i hp =>
          refine hold.insert ⟨?_, q, hp⟩
          rw [brokerPackets_append, brokerPackets_traffic]
          exact d.next_read rfl
      · exact hold
  · exact hold

/-! ## What is sent to the client -/

/-- A PINGRESP, a PINGREQ having been read, or the notice of `close_for_keepalive`. -/
def OwnNotice (ts : List Traffic) (f : Frame) : Prop :=
  f = keepaliveNotice ∨
    ∃ p, .client p ∈ ts ∧ p.shape = .pingRequest ∧ f = .packet p.pingResponse

/-- An output to the client is a packet that was decoded from a broker, or the retransmit
of a PUBLISH that was, or a notice of the proxy's own. -/
def Carried.Traced (c : Codec) (ts : List Traffic) (n : Carried) : Prop :=
  match n.source with
  | some m => (brokerPackets ts)[m.seq]? = some m.item ∧
      (n.out = .toClient (.packet m.item) ∨
        n.out = .toClient (.raw (withDup (encodeRaw c m.item))) ∧
          ∃ q i, m.item.shape = .publish q i)
  | none => ∀ f, n.out = .toClient f → OwnNotice ts f

theorem OwnNotice.mono {ts ts' : List Traffic} {f : Frame} (h : OwnNotice ts f) (hsub : ts ⊆ ts') :
    OwnNotice ts' f := by
  rcases h with h | ⟨p, hp, hping, hf⟩
  · exact Or.inl h
  · exact Or.inr ⟨p, hsub hp, hping, hf⟩

theorem Carried.Traced.append {ts : List Traffic} {n : Carried} (h : n.Traced c ts)
    (ts' : List Traffic) : n.Traced c (ts ++ ts') := by
  unfold Carried.Traced at h ⊢
  split
  · next m hm =>
      rw [hm] at h
      exact ⟨brokerPackets_keep h.1 ts', h.2⟩
  · next hm =>
      rw [hm] at h
      exact fun f hf => (h f hf).mono (List.subset_append_left _ _)

theorem traced_toBroker {ts : List Traffic} (f : Frame) :
    (Carried.own (.toBroker f)).Traced c ts :=
  fun _ h => nomatch h

/-- A PINGRESP that is due is one for a packet that this event reads. -/
theorem ownNotice_pong {f : Frame} (h : .toClient f ∈ e.pong) :
    OwnNotice (s.traffic c e) f := by
  unfold Event.pong at h
  split at h
  · next p hp =>
      split at h
      · next hping =>
          refine Or.inr ⟨p, ?_, hping, Output.toClient.inj (List.mem_singleton.mp h)⟩
          rw [Session.traffic, hp]
          exact List.mem_append_left _ List.mem_cons_self
      · exact absurd h List.not_mem_nil
  · exact absurd h List.not_mem_nil

/-- A packet of the broker is passed on, or nothing is written. -/
theorem brokerRead_out {p : MqttPacket} {after : Reader UInt8} {forward : Sent}
    (h : forwardLoop c (.running s) (.brokerRead (.packet p) after forward) = some (o, out)) :
    out = [] ∨ out = [.toClient (.packet p)] := by
  have hpacket : ∀ r, brokerPacket c s p after forward = r → r.2 = [] ∨
      r.2 = [.toClient (.packet p)] := by
    rintro r rfl
    unfold brokerPacket
    split
    · split
      · exact Or.inl rfl
      · split
        · next hok => exact Or.inr (Sent.toClient_ok hok)
        · exact Or.inl rfl
    · exact Or.inl rfl
    · exact Or.inl rfl
    · dsimp only
      split
      · next hok => exact Or.inr (Sent.toClient_ok hok)
      · exact Or.inl rfl
  simp only [forwardLoop] at h
  split at h
  · exact hpacket _ (Option.some.inj h)
  · have hnone : none = some (o, out) := h
    cases hnone

/-- Apart from replays, a step sends the client the packet that it has read from the
broker, or notices. -/
theorem forwardLoop_notices (h : forwardLoop c (.running s) e = some (o, out))
    (hopen : e.opens = false) :
    (∃ p, e.brokerPacket = some p ∧ out = [.toClient (.packet p)]) ∨
      ∀ f, .toClient f ∈ out → OwnNotice (s.traffic c e) f := by
  cases o with
  | running s' =>
      cases forwardLoop_running h with
      | idle quiet same => exact Or.inr (fun f hf => absurd hf List.not_mem_nil)
      | @forwarded now p after pong pongs up answered =>
          right
          intro f hf
          have hpongs := @answerPing_eq _ now after pong .ok _ answered
          rw [hpongs] at hf
          rcases List.mem_append.mp hf with hf | hf
          · exact ownNotice_pong hf
          · exact nomatch List.mem_singleton.mp hf
      | @unsent now p after pong err pongs up answered =>
          right
          intro f hf
          have hpongs := @answerPing_eq _ now after pong (.failed err) _ answered
          rw [hpongs] at hf
          exact ownNotice_pong hf
      | held down serviced =>
          right
          intro f hf
          rw [serviceOutagePacket_pong serviced] at hf
          exact ownNotice_pong hf
      | delivered up passedOn => exact Or.inl ⟨_, rfl, rfl⟩
      | lost up quiet => exact Or.inr (fun f hf => absurd hf List.not_mem_nil)
      | replayed down patched serves => exact nomatch hopen
      | migrated id now keepAlive => exact Or.inr (fun f hf => absurd hf List.not_mem_nil)
  | ended r =>
      refine (forwardLoop_ended_out h (Event.not_wait hopen)).imp id ?_
      rintro ⟨fs, hfs, rfl⟩ f hf
      obtain ⟨f', hf', heq⟩ := List.mem_map.mp hf
      obtain rfl := Output.toClient.inj heq
      exact Or.inl (List.mem_singleton.mp (hfs hf'))

theorem Downlink.mem_resent {m : Stamped MqttPacket} :
    m ∈ d.resent ↔ ∃ i, d.made.get? i = some (deliverySent, m) := by
  rw [Downlink.resent, List.mem_map]
  constructor
  · rintro ⟨⟨state, m'⟩, hm, rfl⟩
    obtain ⟨hmem, hstate⟩ := List.mem_filter.mp hm
    obtain rfl : state = deliverySent := of_decide_eq_true hstate
    exact OrdMap.mem_values.mp hmem
  · rintro ⟨i, hi⟩
    exact ⟨(deliverySent, m), List.mem_filter.mpr ⟨OrdMap.mem_values.mpr ⟨i, hi⟩, by simp⟩, rfl⟩

theorem replayLog_traced (hmade : d.Made) :
    ∀ n ∈ d.replayLog c s, n.Traced c (d.traffic ++ (s.leftoverPackets c).map .broker) := by
  intro n hn
  simp only [Downlink.replayLog, List.mem_append, List.mem_cons, List.mem_map,
    List.not_mem_nil, or_false] at hn
  rcases hn with (rfl | rfl) | ⟨f, -, rfl⟩ | ⟨m, hm, rfl⟩ | ⟨r, -, rfl⟩ | ⟨m, hm, rfl⟩ | ⟨b, -, rfl⟩
  · exact fun f h => nomatch h
  · exact traced_toBroker _
  · exact traced_toBroker f
  · refine ⟨?_, Or.inl rfl⟩
    rw [brokerPackets_append, brokerPackets_broker]
    exact (d.mem_stamped hm).1
  · exact traced_toBroker _
  · obtain ⟨i, hi⟩ := Downlink.mem_resent.mp hm
    obtain ⟨hread, q, hq⟩ := (hmade i _ hi).append ((s.leftoverPackets c).map .broker)
    exact ⟨hread, Or.inr ⟨rfl, q, i, hq⟩⟩
  · exact traced_toBroker _

/-- What a step notes is true. -/
theorem Downlink.annotate_traced (hmade : d.Made)
    (h : forwardLoop c (.running s) e = some (o, out)) :
    ∀ n ∈ d.annotate c s e out, n.Traced c (d.traffic ++ s.traffic c e) := by
  intro n hn
  unfold Downlink.annotate at hn
  split at hn
  · next p after forward =>
      obtain ⟨out', hout', rfl⟩ := List.mem_map.mp hn
      rcases brokerRead_out h with rfl | rfl
      · exact absurd hout' List.not_mem_nil
      · obtain rfl := List.mem_singleton.mp hout'
        refine ⟨?_, Or.inl rfl⟩
        rw [brokerPackets_append, brokerPackets_traffic]
        exact d.next_read rfl
  · next a => exact replayLog_traced hmade n (List.mem_of_mem_take hn)
  · next hread hwait =>
      have hopen : e.opens = false := by
        unfold Event.opens
        split
        · exact absurd rfl (hwait _)
        · rfl
      obtain ⟨out', hout', rfl⟩ := List.mem_map.mp hn
      intro f hf
      obtain rfl : out' = .toClient f := hf
      rcases forwardLoop_notices h hopen with ⟨p, hp, -⟩ | hnotices
      · obtain ⟨after, forward, rfl⟩ := Event.eq_brokerRead hp
        exact absurd rfl (hread _ _ _)
      · exact (hnotices f hout').mono (List.subset_append_right _ _)

/-! ## The log says what was written -/

theorem clientRetransmits_made (hm : d.Matches c s) : s.windows.clientRetransmits =
    d.resent.map (fun m => withDup (encodeRaw c m.item)) := by
  rw [clientRetransmits_eq, hm, Downlink.resent, OrdMap.values, OrdMap.map, List.filter_map,
    List.filter_map, List.map_map, List.map_map, List.map_map]
  rfl

theorem replayLog_out (hm : d.Matches c s) : (d.replayLog c s).map Carried.out =
    .openBroker :: s.replayPlan c (patchedConnect s.hs.connectRaw) := by
  simp only [Downlink.replayLog, Session.replayPlan, clientRetransmits_made hm]
  simp [Carried.own, Function.comp_def, d.map_stamped (fun p => Output.toClient (.packet p))]

theorem Downlink.annotate_out (hm : d.Matches c s)
    (h : forwardLoop c (.running s) e = some (o, out)) :
    (d.annotate c s e out).map Carried.out = out := by
  unfold Downlink.annotate
  split
  · rw [List.map_map]
    exact List.map_id'' (fun o => rfl) out
  · next a =>
      obtain ⟨-, hc⟩ := forwardLoop_wait_inv h
      have hp := connectBroker_followsPlan c s a
      rw [hc] at hp
      rw [List.map_take, replayLog_out hm]
      exact (List.prefix_iff_eq_take.mp hp).symm
  · rw [List.map_map]
    exact List.map_id'' (fun o => rfl) out

/-! ## Runs -/

/-- What the downlink says is true of the session and of what it has put out. -/
structure Downlink.Sound (c : Codec) (k : Outcome × Downlink) (out : List Output) : Prop where
  consistent : ∀ s, k.1 = .running s → k.2.Matches c s
  made : k.2.Made
  written : k.2.log.map Carried.out = out
  traced : ∀ n ∈ k.2.log, n.Traced c k.2.traffic

theorem downlinkStep {k k' : Outcome × Downlink} (h : (downlinkMachine c).step k e = some (k', out)) :
    ∃ s, k.1 = .running s ∧ forwardLoop c (.running s) e = some (k'.1, out) ∧
      k'.2 = k.2.after c s e out := by
  obtain ⟨hs, hd⟩ := Machine.record_step_eq_some.mp h
  obtain ⟨o, d⟩ := k
  cases o with
  | running s => exact ⟨s, rfl, hs, hd⟩
  | ended r => exact nomatch hs

theorem Downlink.Sound.step {k k' : Outcome × Downlink} {acc : List Output}
    (h : Downlink.Sound c k acc) (hstep : (downlinkMachine c).step k e = some (k', out)) :
    Downlink.Sound c k' (acc ++ out) := by
  obtain ⟨o', d'⟩ := k'
  obtain ⟨s, hk, hs, rfl⟩ := downlinkStep hstep
  have hm := h.consistent s hk
  refine ⟨?_, h.made.after, ?_, ?_⟩
  · rintro s' rfl
    exact (forwardLoop_running hs).downlink hm
  · show (k.2.log ++ k.2.annotate c s e out).map Carried.out = _
    rw [List.map_append, h.written, Downlink.annotate_out hm hs]
  · intro n hn
    rcases List.mem_append.mp hn with hn | hn
    · exact (h.traced n hn).append _
    · exact Downlink.annotate_traced h.made hs n hn

theorem Downlink.sound_initial (id : SessionId) (hs : Handshake) (client broker : Reader UInt8)
    (now : Nat) :
    Downlink.Sound c (.running (Session.initial id hs client broker now), .empty) [] where
  consistent s h := by
    rw [← Outcome.running.inj h]
    rfl
  made := OrdMap.all_empty
  written := rfl
  traced n hn := absurd hn List.not_mem_nil

/-- Every run of a session has a downlink, which tells for each output to the client
which broker packet it carries: one that was decoded before, from a connection or its
leftover, as it came or, if it is a PUBLISH, as a retransmit.  All that is sent to the client
besides are PINGRESPs, once it has sent a PINGREQ, and the notice of `close_for_keepalive`. -/
theorem downlink_traced {id : SessionId} {hs : Handshake} {client broker : Reader UInt8}
    {now : Nat}
    (hrun : (sessionMachine c).run (.running (Session.initial id hs client broker now)) es
      = some (o, out)) :
    ∃ d, (downlinkMachine c).run (.running (Session.initial id hs client broker now), .empty) es
        = some ((o, d), out) ∧
      d.log.map Carried.out = out ∧ ∀ n ∈ d.log, n.Traced c d.traffic := by
  let k : Outcome × Downlink := (.running (Session.initial id hs client broker now), .empty)
  have hrecord : ((downlinkMachine c).run k es).map (fun r => (r.1.1, r.2)) = some (o, out) :=
    (Machine.run_record _ es k).symm.trans hrun
  obtain ⟨⟨⟨o', d⟩, out'⟩, hd, heq⟩ := Option.map_eq_some_iff.mp hrecord
  obtain ⟨rfl, rfl⟩ := Prod.mk.inj heq
  have hsound := Machine.run_outputs (I := Downlink.Sound c)
    (fun _ _ _ _ _ h hstep => h.step hstep) (Downlink.sound_initial id hs client broker now) hd
  exact ⟨d, hd, hsound.written, hsound.traced⟩

open ReferenceCodec in
theorem downlink_traced_late : ∃ o out,
    (sessionMachine (codec true)).run (.running session) acknowledgedLate = some (o, out) ∧
    ∃ d, (downlinkMachine (codec true)).run (.running session, .empty) acknowledgedLate
        = some ((o, d), out) ∧
      d.log.map Carried.out = out ∧ ∀ n ∈ d.log, n.Traced (codec true) d.traffic := by
  have hsome : ((sessionMachine (codec true)).run (.running session) acknowledgedLate).isSome
      = true := by decide +kernel
  obtain ⟨⟨o, out⟩, hrun⟩ := Option.isSome_iff_exists.mp hsome
  exact ⟨o, out, hrun, downlink_traced hrun⟩

end TrafficDirector
