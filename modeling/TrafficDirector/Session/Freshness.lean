/-
# `TrafficDirector.Session.Freshness` — the packet id of the re-SUBSCRIBE

Packet ids go through the proxy as the client chooses them, and the re-SUBSCRIBE has
the id 1.  It is fresh if nothing that the broker may still answer under that id is
open: no exchange in the c2b window, and no buffered request that goes out while the
SUBACK is awaited (`ResubscribesFresh`).

The proxy does not look whether it is.  `resubscribesFresh_iff` says when it is, in
terms of what has come from the client and the broker: unless the client has the id 1
in use itself (`InUse`).  Of the broker's acknowledgements those count that are read on an
open connection; what is drained from a leftover does not close an exchange.  The argument follows the history event by event
(`Transition.follows`), the window and the buffer being what the past operator of
`Lib.Since` makes of it.
-/
import TrafficDirector.Lib.Since
import TrafficDirector.Session.Retention

namespace TrafficDirector

open Framing (Reader)

/-! ## Histories -/

/-- What matters of an event to the ids in use. -/
inductive Occurrence where
  /-- a client packet in the connected phase -/
  | live (p : MqttPacket)
  /-- a client packet during an outage -/
  | held (p : MqttPacket)
  /-- a broker packet read on an open connection -/
  | fromBroker (p : MqttPacket)
  /-- a replay that goes through -/
  | reconnected

def occurrence : Outcome → Event → List Occurrence
  | .running s, .clientRead _ (.packet p) _ _ _ => [if s.broker.isSome then .live p else .held p]
  | .running _, .brokerRead (.packet p) _ _ => [.fromBroker p]
  | .running _, .wait (some _) => [.reconnected]
  | _, _ => []

namespace Occurrence

def Opens (i : UInt16) : Occurrence → Prop
  | live p | held p => ∃ q, p.shape = .publish q i
  | _ => False

def Closes (i : UInt16) : Occurrence → Prop
  | fromBroker p => acknowledgedId p = some i
  | _ => False

/-- A PUBREL that is buffered. -/
def Releases (i : UInt16) : Occurrence → Prop
  | held p => p.shape = .publishRelease i
  | _ => False

/-- A SUBSCRIBE or UNSUBSCRIBE that is buffered. -/
def Requests (i : UInt16) : Occurrence → Prop
  | held p => p.shape = .subscribe i ∨ p.shape = .unsubscribe i
  | _ => False

end Occurrence

/-- A buffered PUBREL has been flushed, and the broker has not completed the exchange. -/
def Flushed (i : UInt16) (l : List Occurrence) : Prop :=
  ∃ pre post, l = pre ++ .reconnected :: post ∧
    Since (Occurrence.Releases i) (fun t => ¬ t.Closes i) pre ∧ ∀ t ∈ post, ¬ t.Closes i

/-- The client has a PUBLISH or a flushed PUBREL unacknowledged under `i`. -/
def Exchanging (i : UInt16) (l : List Occurrence) : Prop :=
  Since (Occurrence.Opens i) (fun t => ¬ t.Closes i) l ∨ Flushed i l

/-- The client has the id in use: for an exchange, or for a request that is buffered. -/
def InUse (i : UInt16) (l : List Occurrence) : Prop :=
  Exchanging i l ∨ Since (Occurrence.Requests i) (fun t => t ≠ .reconnected) l

/-- An id that the client has not used is not in use. -/
theorem not_inUse {i : UInt16} {l : List Occurrence}
    (h : ∀ t ∈ l, ¬ t.Opens i ∧ ¬ t.Releases i ∧ ¬ t.Requests i) : ¬ InUse i l := by
  rintro ((⟨pre, t, post, rfl, hopens, -⟩ | ⟨pre, post, rfl, ⟨pre', t, post', rfl, hreleases, -⟩, -⟩) |
    ⟨pre, t, post, rfl, hrequests, -⟩)
  · exact (h t (by simp)).1 hopens
  · exact (h t (by simp)).2.1 hreleases
  · exact (h t (by simp)).2.2 hrequests

/-! ## The re-SUBSCRIBE -/

/-- Whatever the next connection does: the id of the re-SUBSCRIBE written to it is not
that of an open exchange, nor of a request flushed to it while no SUBACK has come. -/
def ResubscribesFresh (c : Codec) (s : Session) : Prop :=
  ∀ a o out p i, forwardLoop c (.running s) (.wait (some a)) = some (o, out) →
    .toBroker (.packet p) ∈ out → p.shape = .subscribe i →
      i ∉ s.windows.c2b.keys ∧
      ∀ entry ∈ s.buffer.entries, entry.raw.packetType ∈ [3, 8, 10] →
        .toBroker (.raw entry.raw) ∈ out →
        (∀ q, a.suback = .packet q → q.shape ≠ .subscribeAck i) → entry.packetId ≠ i

/-- The next connection is sent a re-SUBSCRIBE. -/
structure Session.Resubscribing (s : Session) : Prop where
  down : s.broker = none
  due : s.step = .connect
  patched : ∃ raw, forceSessionResumption s.hs.connectRaw = .ok raw
  subscribed : s.subscriptions.entries ≠ []

/-- The buffer has a packet of one of these types with the id. -/
def Session.Buffers (s : Session) (i : UInt16) (kinds : List UInt8) : Prop :=
  ∃ entry ∈ s.buffer.entries, entry.packetId = i ∧ entry.raw.packetType ∈ kinds

variable {c : Codec} {s s' : Session} {e : Event} {out : List Output} {i : UInt16}
  {l : List Occurrence} {t : Occurrence}

theorem resubscribePacket_shape {v : ProtocolVersion} {table : Subscriptions} {p : MqttPacket}
    (h : table.resubscribePacket v = some p) :
    p.shape = .subscribe Subscriptions.resubscribeId.get := by
  unfold Subscriptions.resubscribePacket at h
  split at h
  · cases h
  · cases v with
    | mqtt3 => cases h; rfl
    | mqtt5 => cases h; rfl

/-- The only packet that a replay puts together itself is the re-SUBSCRIBE. -/
theorem mem_replayPlan_packet {raw : Bytes} {p : MqttPacket}
    (h : .toBroker (.packet p) ∈ s.replayPlan c raw) :
    s.subscriptions.resubscribePacket s.hs.version = some p := by
  simp only [Session.replayPlan, resubscribeFrames, List.mem_append, List.mem_map,
    List.mem_singleton, Output.toBroker.injEq, reduceCtorEq, Option.mem_toList] at h
  rcases h with h | ⟨f, ⟨q, hq, rfl⟩, h⟩ | ⟨f, -, h⟩ | ⟨f, ⟨r, -, rfl⟩, h⟩ | ⟨f, -, h⟩ | ⟨f, ⟨r, -, rfl⟩, h⟩
  · cases h
  · cases h
    exact hq
  · cases h
  · cases h
  · cases h
  · cases h

theorem connectBroker_unpatched {a : Attempt} {err : IoError}
    (h : forceSessionResumption s.hs.connectRaw = .error err) :
    (connectBroker c s a).2 = [.openBroker] := by
  unfold connectBroker
  rw [establishBroker, replayConnect, h]
  rfl

theorem resubscribing_of_mem {a : Attempt} {o : Outcome} {p : MqttPacket}
    (h : forwardLoop c (.running s) (.wait (some a)) = some (o, out))
    (hp : .toBroker (.packet p) ∈ out) :
    s.Resubscribing ∧ s.subscriptions.resubscribePacket s.hs.version = some p := by
  obtain ⟨hdown, hc⟩ := forwardLoop_wait_inv h
  have hdue : s.step = .connect := by
    rw [forwardLoop_outage hdown] at h
    simp only [outageStep] at h
    cases hstep : s.step with
    | connect => rfl
    | backoff d => rw [hstep] at h; cases h
  have hpacket : s.subscriptions.resubscribePacket s.hs.version = some p := by
    have hplan := connectBroker_followsPlan c s a
    rw [hc] at hplan
    exact mem_replayPlan_packet ((List.mem_cons.mp (hplan.subset hp)).resolve_left (by simp))
  refine ⟨⟨hdown, hdue, ?_, ?_⟩, hpacket⟩
  · cases hraw : forceSessionResumption s.hs.connectRaw with
    | ok raw => exact ⟨raw, rfl⟩
    | error err =>
        have hout := connectBroker_unpatched (c := c) (a := a) hraw
        rw [hc] at hout
        obtain rfl : out = [.openBroker] := hout
        cases List.mem_singleton.mp hp
  · intro hnil
    rw [Subscriptions.resubscribePacket_eq_none.mpr hnil] at hpacket
    cases hpacket

/-- A connection on which everything goes through, and which answers the re-SUBSCRIBE
with a packet that is no SUBACK. -/
def Session.lateSuback (c : Codec) (s : Session) : Attempt where
  brokerWrites := 1 + (resubscribeFrames s.hs.version s.subscriptions).length
    + s.windows.brokerRetransmits.length + s.buffer.entries.length
  clientWrites := (s.leftoverPackets c).length + s.windows.clientRetransmits.length
  connack := .packet (.v3 (.connectAck ⟨.connectionAccepted, true⟩))
  suback := .packet (.v3 .pingResponse)
  after := .fresh []
  writeError := ""

theorem resubscribesFresh_iff_state : ResubscribesFresh c s ↔
    (s.Resubscribing → ¬ (Subscriptions.resubscribeId.get ∈ s.windows.c2b.keys ∨
      s.Buffers Subscriptions.resubscribeId.get [3, 8, 10])) := by
  constructor
  · intro hfresh hre
    obtain ⟨raw, hraw⟩ := hre.patched
    have hserves : Serves c s (s.lateSuback c) :=
      ⟨⟨raw, hraw⟩, rfl, fun _ => rfl, Nat.le_refl _, Nat.le_refl _⟩
    obtain ⟨r, hr⟩ := establishBroker_of_serves hserves
    obtain ⟨raw', -, -, -, hout⟩ := establishBroker_ok hr
    have hstep : forwardLoop c (.running s) (.wait (some (s.lateSuback c))) =
        some (.running (s.replayed r), .openBroker :: s.replayPlan c raw') := by
      rw [forwardLoop_wait hre.down hre.due, connectBroker, hr, ← hout]
    cases hp : s.subscriptions.resubscribePacket s.hs.version with
    | none => exact absurd (Subscriptions.resubscribePacket_eq_none.mp hp) hre.subscribed
    | some p =>
        have hmem : .toBroker (.packet p) ∈ .openBroker :: s.replayPlan c raw' := by
          simp [Session.replayPlan, resubscribeFrames, hp]
        obtain ⟨hkeys, hbuffer⟩ := hfresh _ _ _ p _ hstep hmem (resubscribePacket_shape hp)
        rintro (hkey | ⟨entry, hentry, hid, hkind⟩)
        · exact hkeys hkey
        · refine hbuffer entry hentry hkind ?_ ?_ hid
          · simp only [Session.replayPlan, List.mem_cons, List.mem_append, List.mem_map]
            exact Or.inr (Or.inr (Or.inr (Or.inr (Or.inr (Or.inr ⟨_, ⟨entry, hentry, rfl⟩, rfl⟩)))))
          · intro q hq
            cases hq
            exact fun h => by cases h
  · intro h a o out p i hstep hp hshape
    obtain ⟨hre, hpacket⟩ := resubscribing_of_mem hstep hp
    obtain rfl : Subscriptions.resubscribeId.get = i :=
      Shape.subscribe.inj ((resubscribePacket_shape hpacket).symm.trans hshape)
    have hnot := not_or.mp (h hre)
    refine ⟨hnot.1, ?_⟩
    intro entry hentry hkind _ _ hid
    exact hnot.2 ⟨entry, hentry, hid, hkind⟩

/-! ## What a history says of the window and the buffer -/

/-- An exchange of the client with this id is in the window or in the buffer. -/
def Session.Exchanges (s : Session) (i : UInt16) : Prop :=
  i ∈ s.windows.c2b.keys ∨ s.Buffers i [3]

theorem flushed_concat : Flushed i (l ++ [t]) ↔
    t = .reconnected ∧ Since (Occurrence.Releases i) (fun t => ¬ t.Closes i) l ∨
      Flushed i l ∧ ¬ t.Closes i := by
  constructor
  · rintro ⟨pre, post, h, hpre, hpost⟩
    rcases concat_eq_append_cons.mp h with ⟨rfl, rfl, -⟩ | ⟨rest, rfl, hl⟩
    · exact Or.inl ⟨rfl, hpre⟩
    · refine Or.inr ⟨⟨pre, rest, hl, hpre, ?_⟩, ?_⟩
      · intro t ht
        exact hpost t (List.mem_append_left _ ht)
      · exact hpost t (List.mem_append_right _ List.mem_cons_self)
  · rintro (⟨rfl, h⟩ | ⟨⟨pre, post, rfl, hpre, hpost⟩, ht⟩)
    · exact ⟨l, [], rfl, h, fun _ h => absurd h List.not_mem_nil⟩
    · refine ⟨pre, post ++ [t], by simp, hpre, ?_⟩
      intro b hb
      rcases List.mem_append.mp hb with hb | hb
      · exact hpost b hb
      · rw [List.mem_singleton.mp hb]
        exact ht

/-- The ids that the window has once the buffer is flushed. -/
def Pending (i : UInt16) (l : List Occurrence) : Prop :=
  Since (fun t => t.Opens i ∨ t.Releases i) (fun t => ¬ t.Closes i) l

theorem exchanging_concat : Exchanging i (l ++ [t]) ↔
    t.Opens i ∨ (t = .reconnected ∧ Pending i l) ∨ Exchanging i l ∧ ¬ t.Closes i := by
  unfold Exchanging Pending
  rw [since_concat, flushed_concat, since_or]
  cases t with
  | reconnected =>
      simp only [Occurrence.Opens, Occurrence.Closes, true_and, not_false_eq_true, and_true,
        false_or]
      tauto
  | _ =>
      simp only [reduceCtorEq, false_and, false_or]
      tauto

/-- One step and its occurrence: what is open, what will be, and what is requested. -/
structure Follow (i : UInt16) (s s' : Session) (t : Occurrence) : Prop where
  exchanges : s'.Exchanges i ↔
    t.Opens i ∨ (t = .reconnected ∧ i ∈ s.pendingC2b.keys) ∨ s.Exchanges i ∧ ¬ t.Closes i
  pending : i ∈ s'.pendingC2b.keys ↔
    (t.Opens i ∨ t.Releases i) ∨ i ∈ s.pendingC2b.keys ∧ ¬ t.Closes i
  requested : s'.Buffers i [8, 10] ↔ t.Requests i ∨ s.Buffers i [8, 10] ∧ t ≠ .reconnected

/-- What the history `l` says of `s`. -/
structure Told (i : UInt16) (s : Session) (l : List Occurrence) : Prop where
  exchanges : s.Exchanges i ↔ Exchanging i l
  pending : i ∈ s.pendingC2b.keys ↔ Pending i l
  requested : s.Buffers i [8, 10] ↔ Since (Occurrence.Requests i) (fun t => t ≠ .reconnected) l

theorem Told.concat (h : Told i s l) (hf : Follow i s s' t) : Told i s' (l ++ [t]) where
  exchanges := by rw [hf.exchanges, exchanging_concat, h.exchanges, h.pending]
  pending := by rw [hf.pending, Pending, since_concat, h.pending, Pending]
  requested := by rw [hf.requested, since_concat, h.requested]

/-- A step that leaves the windows and the buffer, and an occurrence that says nothing. -/
theorem Told.same (h : Told i s l) (hwindows : s'.windows = s.windows)
    (hbuffer : s'.buffer.entries = s.buffer.entries) : Told i s' l := by
  have hexchanges : s'.Exchanges i ↔ s.Exchanges i := by
    unfold Session.Exchanges Session.Buffers
    rw [hwindows, hbuffer]
  have hpending : s'.pendingC2b = s.pendingC2b := by
    unfold Session.pendingC2b
    rw [hwindows, hbuffer]
  have hrequested : s'.Buffers i [8, 10] ↔ s.Buffers i [8, 10] := by
    unfold Session.Buffers
    rw [hbuffer]
  exact ⟨hexchanges.trans h.exchanges, by rw [hpending]; exact h.pending,
    hrequested.trans h.requested⟩

theorem follow_refl (hopens : ¬ t.Opens i) (hcloses : ¬ t.Closes i) (hreleases : ¬ t.Releases i)
    (hrequests : ¬ t.Requests i) (ht : t ≠ .reconnected) : Follow i s s t where
  exchanges := by simp [hopens, hcloses, ht]
  pending := by simp [hopens, hcloses, hreleases]
  requested := by simp [hrequests, ht]

/-! ## The steps -/

theorem mem_flushBindings_keys {entries : List BufferedPublish} :
    i ∈ (flushBindings entries).map Prod.fst ↔
      ∃ entry ∈ entries, entry.packetId = i ∧ entry.raw.packetType ∈ [3, 6] := by
  rw [flushBindings, List.map_filterMap, List.mem_filterMap]
  refine exists_congr (fun entry => and_congr_right (fun _ => ?_))
  unfold flushBinding
  by_cases h₃ : entry.raw.packetType = 3
  · simp [h₃]
  · by_cases h₆ : entry.raw.packetType = 6 <;> simp [h₃, h₆]

theorem mem_pendingC2b_keys :
    i ∈ s.pendingC2b.keys ↔ i ∈ s.windows.c2b.keys ∨ s.Buffers i [3, 6] := by
  rw [Session.pendingC2b, OrdMap.mem_keys_insertAll, mem_flushBindings_keys, or_comm]
  rfl

theorem packetType_of_request {p : MqttPacket} :
    (p.shape = .subscribe i → p.packetType = 8) ∧ (p.shape = .unsubscribe i → p.packetType = 10) := by
  have hpublish : ∀ q : Publish, q.shape ≠ .subscribe i ∧ q.shape ≠ .unsubscribe i := by
    intro q
    unfold Publish.shape
    split <;> simp
  rcases p with p | p <;> cases p <;> simp [MqttPacket.shape, MqttPacket.packetType, hpublish]

/-- What a client packet puts into the buffer. -/
theorem bufferedAs_kind {p : MqttPacket} {kinds : List UInt8} :
    (∃ entry ∈ bufferedAs c p, entry.packetId = i ∧ entry.raw.packetType ∈ kinds) ↔
      (∃ q, p.shape = .publish q i) ∧ 3 ∈ kinds ∨ p.shape = .publishRelease i ∧ 6 ∈ kinds ∨
        p.shape = .subscribe i ∧ 8 ∈ kinds ∨ p.shape = .unsubscribe i ∧ 10 ∈ kinds := by
  have htype := c.encode_type p
  unfold bufferedAs
  cases hp : p.shape with
  | publish q j => simp [encodeRaw, htype, packetType_of_publish hp]
  | publishRelease j => simp [encodeRaw, htype, packetType_of_publishRelease hp]
  | subscribe j => simp [encodeRaw, htype, packetType_of_request.1 hp]
  | unsubscribe j => simp [encodeRaw, htype, packetType_of_request.2 hp]
  | _ => simp

theorem buffers_append {b : Session} {entry : Option BufferedPublish} {kinds : List UInt8}
    (h : b.buffer.entries = s.buffer.entries ++ entry.toList) :
    b.Buffers i kinds ↔ s.Buffers i kinds ∨
      ∃ e ∈ entry, e.packetId = i ∧ e.raw.packetType ∈ kinds := by
  unfold Session.Buffers
  rw [h]
  cases entry with
  | none => simp
  | some e => simp [or_and_right, exists_or]

theorem not_buffers_of_nil {kinds : List UInt8} (h : s.buffer.entries = []) :
    ¬ s.Buffers i kinds := by
  rintro ⟨entry, hentry, -⟩
  rw [h] at hentry
  cases hentry

theorem mem_keys_trackC2b {w : InflightWindows} {p : MqttPacket} :
    i ∈ (w.trackC2b c p).c2b.keys ↔ (∃ q, p.shape = .publish q i) ∨ i ∈ w.c2b.keys := by
  rw [InflightWindows.trackC2b_c2b]
  cases hp : p.shape with
  | publish q j => simp [OrdMap.mem_keys_insert, eq_comm]
  | publishRelease j =>
      simp only
      split
      · next h =>
          have hj : j ∈ w.c2b.keys := of_decide_eq_true h
          rw [OrdMap.keys_insert, if_pos hj]
          simp
      · simp
  | _ => simp

theorem mem_keys_trackB2c {w : InflightWindows} {p : MqttPacket} :
    i ∈ (w.trackB2c c p).c2b.keys ↔ i ∈ w.c2b.keys ∧ acknowledgedId p ≠ some i := by
  rw [InflightWindows.trackB2c_c2b]
  unfold acknowledgedId
  cases hp : p.shape <;> simp [OrdMap.mem_keys_erase, eq_comm, and_comm]

/-- The connected phase: the buffer is empty, and stays so. -/
theorem follow_up (hnil : s.buffer.entries = []) (hnil' : s'.buffer.entries = [])
    (hkeys : i ∈ s'.windows.c2b.keys ↔ t.Opens i ∨ i ∈ s.windows.c2b.keys ∧ ¬ t.Closes i)
    (hreleases : ¬ t.Releases i) (hrequests : ¬ t.Requests i) (ht : t ≠ .reconnected) :
    Follow i s s' t where
  exchanges := by
    simp [Session.Exchanges, not_buffers_of_nil hnil, not_buffers_of_nil hnil', hkeys, ht]
  pending := by
    simp [mem_pendingC2b_keys, not_buffers_of_nil hnil, not_buffers_of_nil hnil', hkeys, hreleases]
  requested := by
    simp [not_buffers_of_nil hnil, not_buffers_of_nil hnil', hrequests]

/-- A packet that is buffered: the window stays. -/
theorem follow_held {p : MqttPacket} (hwindow : s'.windows.c2b = s.windows.c2b)
    (hbuffer : s'.buffer.entries = s.buffer.entries ++ (bufferedAs c p).toList) :
    Follow i s s' (.held p) where
  exchanges := by
    unfold Session.Exchanges
    rw [hwindow, buffers_append hbuffer, bufferedAs_kind]
    simp [Occurrence.Opens, Occurrence.Closes]
    tauto
  pending := by
    rw [mem_pendingC2b_keys, mem_pendingC2b_keys, hwindow, buffers_append hbuffer, bufferedAs_kind]
    simp [Occurrence.Opens, Occurrence.Releases, Occurrence.Closes]
    tauto
  requested := by
    rw [buffers_append hbuffer, bufferedAs_kind]
    simp [Occurrence.Requests]
    tauto

/-- A replay: what was pending is in the window, and the buffer is empty. -/
theorem follow_reconnected (hwindow : s'.windows.c2b = s.pendingC2b)
    (hnil : s'.buffer.entries = []) : Follow i s s' .reconnected where
  exchanges := by
    have hpending : s.Exchanges i → i ∈ s.pendingC2b.keys := by
      rw [mem_pendingC2b_keys]
      rintro (h | ⟨entry, hentry, hid, hkind⟩)
      · exact Or.inl h
      · exact Or.inr ⟨entry, hentry, hid, List.mem_of_mem_head? (List.mem_singleton.mp hkind ▸ rfl)⟩
    unfold Session.Exchanges at hpending ⊢
    rw [hwindow]
    simp only [Occurrence.Opens, Occurrence.Closes, not_buffers_of_nil hnil, or_false, false_or,
      true_and, not_false_eq_true, and_true]
    tauto
  pending := by
    rw [Session.pendingC2b_of_nil hnil, hwindow]
    simp [Occurrence.Opens, Occurrence.Releases, Occurrence.Closes]
  requested := by
    simp [Occurrence.Requests, not_buffers_of_nil hnil]

/-- A packet of the broker that acknowledges nothing says nothing. -/
theorem follow_other {p : MqttPacket} (hp : acknowledgedId p = none) :
    Follow i s s (.fromBroker p) :=
  follow_refl id (by simp [Occurrence.Closes, hp]) id id (by simp)

theorem acknowledgedId_passedOn {p : MqttPacket} {j : UInt16} (h : acknowledgedId p = some j) :
    p.PassedOn := by
  refine MqttPacket.passedOn_of_shape ?_ ?_
  · intro hp
    rw [acknowledgedId, hp] at h
    cases h
  · intro hp
    rw [acknowledgedId, hp] at h
    cases h

/-- What a step adds to the history, and what that says of the session after it. -/
theorem Told.step (h : Told i s l) (hset : s.Settled) (ht : Transition c s e s' out) :
    Told i s' (l ++ occurrence (.running s) e) := by
  cases ht with
  | idle quiet same =>
      have hs' : Told i s' l := h.same same.windows (by rw [same.buffer])
      cases e with
      | clientRead now next after pong forward =>
          cases next with
          | packet p => exact quiet.elim
          | _ => simpa [occurrence] using hs'
      | brokerRead next after forward =>
          cases next with
          | packet p =>
              exact hs'.concat (follow_other (eq_none_of_not_passedOn
                (fun _ _ => acknowledgedId_passedOn) quiet))
          | _ => simpa [occurrence] using hs'
      | wait result =>
          cases result with
          | some a => exact quiet.elim
          | none => simpa [occurrence] using hs'
      | _ => simpa [occurrence] using hs'
  | @forwarded now p after pong pongs up answered =>
      rw [occurrence, if_pos up]
      refine h.concat (follow_up (hset up).1 (hset up).1 ?_ id id (by simp))
      simp only [Occurrence.Opens, Occurrence.Closes, not_false_eq_true, and_true]
      exact mem_keys_trackC2b
  | @unsent now p after pong err pongs up answered =>
      rw [occurrence, if_pos up]
      refine h.concat (follow_up (hset up).1 (hset up).1 ?_ id id (by simp))
      simp only [Occurrence.Opens, Occurrence.Closes, not_false_eq_true, and_true]
      exact mem_keys_trackC2b
  | @held now p after pong forward v down serviced =>
      obtain ⟨hbuffer, hwindow⟩ := serviceOutagePacket_ok serviced
      rw [occurrence, if_neg (by simp [down])]
      exact h.concat (follow_held hwindow hbuffer)
  | @delivered p after up passedOn =>
      refine h.concat (follow_up (hset up).1 (hset up).1 ?_ id id (by simp))
      simp only [Occurrence.Opens, Occurrence.Closes, false_or]
      exact mem_keys_trackB2c
  | @lost next after forward up quiet =>
      have hs' : Told i (s.loseBroker after) l := h.same rfl rfl
      cases next with
      | packet p =>
          exact hs'.concat (follow_other (eq_none_of_not_passedOn
            (fun _ _ => acknowledgedId_passedOn) quiet))
      | _ => simpa [occurrence] using hs'
  | replayed down patched serves =>
      exact h.concat (follow_reconnected s.flushedWindows_c2b rfl)
  | migrated id now keepAlive =>
      have hs' : Told i (s.adopted id now keepAlive) l := h.same rfl rfl
      simpa [occurrence] using hs'

theorem told_initial (id : SessionId) (hs : Handshake) (client broker : Reader UInt8) (now : Nat) :
    Told i (Session.initial id hs client broker now) [] where
  exchanges := by
    simp [Session.Exchanges, Session.Buffers, Session.initial, InflightWindows.new, OrdMap.empty,
      OrdMap.keys, OutageBuffer.empty, Exchanging, Flushed, not_since_nil]
  pending := by
    simp [Session.pendingC2b, Session.initial, InflightWindows.new, OrdMap.empty, OrdMap.keys,
      OutageBuffer.empty, Pending, flushBindings, not_since_nil]
  requested := by
    simp [Session.Buffers, Session.initial, OutageBuffer.empty, not_since_nil]

/-! ## Runs -/

/-- The id of a re-SUBSCRIBE is fresh exactly if the client does not have it in use. -/
theorem resubscribesFresh_iff {id : SessionId} {hs : Handshake} {client broker : Reader UInt8}
    {now : Nat} {es : List Event}
    (hrun : (sessionMachine c).run (.running (Session.initial id hs client broker now)) es
      = some (.running s, out)) :
    ResubscribesFresh c s ↔ (s.Resubscribing →
      ¬ InUse Subscriptions.resubscribeId.get ((sessionMachine c).gather occurrence
        (.running (Session.initial id hs client broker now)) es)) := by
  obtain ⟨-, htold⟩ := run_gather_transitions (f := occurrence)
    (I := fun s l => s.Settled ∧ Told Subscriptions.resubscribeId.get s l)
    (fun _ _ _ _ _ h ht => ⟨ht.settled h.1, h.2.step h.1 ht⟩)
    ⟨Session.settled_initial id hs client broker now, told_initial id hs client broker now⟩ hrun
  rw [List.nil_append] at htold
  rw [resubscribesFresh_iff_state, InUse, ← htold.exchanges, ← htold.requested]
  refine imp_congr_right (fun _ => not_congr ?_)
  unfold Session.Exchanges Session.Buffers
  simp only [List.mem_cons, List.not_mem_nil, or_false, and_or_left, exists_or, or_assoc]

namespace ReferenceCodec

/-- A client that subscribes, and publishes with the id 1; then the broker is lost. -/
def publishesWithOne : List Event :=
  [forwarded subscribe, forwarded (publish one []), brokerCloses]

/-- The same with the id 2. -/
def publishesWithTwo : List Event :=
  [forwarded subscribe, forwarded (publish two []), brokerCloses]

end ReferenceCodec

open ReferenceCodec in
/-- The PUBLISH is sent again on the new connection, under the id of the re-SUBSCRIBE. -/
theorem resubscribe_reuses_one : ∃ s out,
    (sessionMachine (codec true)).run (.running session) publishesWithOne = some (.running s, out) ∧
      ¬ ResubscribesFresh (codec true) s := by
  have hrun : (sessionMachine (codec true)).run (.running session) publishesWithOne
      = some (.running _, _) := rfl
  refine ⟨_, _, hrun, ?_⟩
  rw [resubscribesFresh_iff_state]
  intro h
  exact h ⟨rfl, rfl, ⟨_, rfl⟩, by decide⟩ (Or.inl (by decide))

open ReferenceCodec in
theorem resubscribesFresh_iff_two : ∃ s out,
    (sessionMachine (codec true)).run (.running session) publishesWithTwo = some (.running s, out) ∧
      s.Resubscribing ∧ ResubscribesFresh (codec true) s := by
  have hrun : (sessionMachine (codec true)).run (.running session) publishesWithTwo
      = some (.running _, _) := rfl
  refine ⟨_, _, hrun, ⟨rfl, rfl, ⟨_, rfl⟩, by decide⟩, ?_⟩
  refine (resubscribesFresh_iff hrun).mpr (fun _ => not_inUse ?_)
  intro t ht
  have ht : t = .live subscribe ∨ t = .live (publish two []) := by
    simpa using (show t ∈ [.live subscribe, .live (publish two [])] from ht)
  rcases ht with rfl | rfl
  · exact ⟨(by rintro ⟨q, hq⟩; cases hq), id, id⟩
  · exact ⟨(by rintro ⟨q, hq⟩; cases hq), id, id⟩

end TrafficDirector
