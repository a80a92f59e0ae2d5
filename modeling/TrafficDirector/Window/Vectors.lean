/-
# `TrafficDirector.Window.Vectors` — the windows as vectors of bytes

The code keeps each window as a vector of `(id, (state, raw))` in which any id, any of
the four states and any bytes could stand; it relies on what cannot stand there with
`expect`, `unreachable!` and `raw[0]`.  Here the windows are these vectors, and all three
are panics: the functions below return `none` where the code would.

The windows of `TrafficDirector.Window` are these vectors with the states and the raw
packets in types (`VecWindows.plain`).  `run_plain` says that every operation does the
same on both, so that nothing panics; `windows_never_panic` says what is in the vectors
of every reachable state, and `valid_of_run` that sessions reach no others.
-/
import TrafficDirector.Session.Withheld
import TrafficDirector.Session.Retention

namespace TrafficDirector

open OrdMap.Entries (upsert remove modify)

/-! ## The code -/

abbrev VecWindow := List (UInt16 × (WindowState × Bytes))

def vecInsert (v : VecWindow) (id : UInt16) (entry : WindowState × Bytes) : VecWindow :=
  upsert id entry v

def vecRemove (v : VecWindow) (id : UInt16) : VecWindow := remove id v

/-- `if let Some(entry) = vec_get_mut(v, id) { entry.0 = state }` -/
def vecSetState (v : VecWindow) (id : UInt16) (state : WindowState) : VecWindow :=
  modify id (fun entry => (state, entry.2)) v

def vecContains (v : VecWindow) (id : UInt16) : Bool := v.any (fun e => decide (e.1 = id))

/-- `with_dup`, with its `raw[0]`. -/
def withDupBytes : Bytes → Option Bytes
  | [] => none
  | x :: bs => some ((x ||| dupFlag) :: bs)

structure VecEntry where
  packetId : UInt16
  state : WindowState
  raw : Bytes
deriving DecidableEq

structure VecWindows where
  c2b : VecWindow
  b2c : VecWindow
deriving DecidableEq

namespace VecWindows

def new : VecWindows := ⟨[], []⟩

variable (c : Codec)

def c2bInsert (w : VecWindows) (qos : QoS) (packetId : Option NonZeroU16) (packet : MqttPacket) :
    Option VecWindows :=
  if qos = .atMostOnce then some w
  else packetId.map (fun id =>
    { w with c2b := vecInsert w.c2b id.get (.c2bPublishSent, (encodeRaw c packet).toBytes) })

def b2cInsert (w : VecWindows) (qos : QoS) (packetId : Option NonZeroU16) (packet : MqttPacket) :
    Option VecWindows :=
  if qos = .atMostOnce then some w
  else packetId.map (fun id =>
    { w with b2c := vecInsert w.b2c id.get (.b2cPublishSent, (encodeRaw c packet).toBytes) })

def c2bTransition (w : VecWindows) (packetId : NonZeroU16) (state : WindowState)
    (packet : MqttPacket) : VecWindows :=
  if vecContains w.c2b packetId.get then
    { w with c2b := vecInsert w.c2b packetId.get (state, (encodeRaw c packet).toBytes) }
  else w

def b2cTransition (w : VecWindows) (packetId : NonZeroU16) (state : WindowState) : VecWindows :=
  { w with b2c := vecSetState w.b2c packetId.get state }

def trackC2b (w : VecWindows) (packet : MqttPacket) : Option VecWindows :=
  match packet with
  | .v3 (.publish p) => w.c2bInsert c p.qos p.packetId packet
  | .v3 (.publishRelease packetId) => some (w.c2bTransition c packetId .c2bPubrelSent packet)
  | .v3 (.publishAck packetId) => some { w with b2c := vecRemove w.b2c packetId.get }
  | .v3 (.publishReceived packetId) => some (w.b2cTransition packetId .b2cPubrecForwarded)
  | .v3 (.publishComplete packetId) => some { w with b2c := vecRemove w.b2c packetId.get }
  | .v5 (.publish p) => w.c2bInsert c p.qos p.packetId packet
  | .v5 (.publishRelease ack) => some (w.c2bTransition c ack.packetId .c2bPubrelSent packet)
  | .v5 (.publishAck ack) => some { w with b2c := vecRemove w.b2c ack.packetId.get }
  | .v5 (.publishReceived ack) => some (w.b2cTransition ack.packetId .b2cPubrecForwarded)
  | .v5 (.publishComplete ack) => some { w with b2c := vecRemove w.b2c ack.packetId.get }
  | _ => some w

def trackB2c (w : VecWindows) (packet : MqttPacket) : Option VecWindows :=
  match packet with
  | .v3 (.publish p) => w.b2cInsert c p.qos p.packetId packet
  | .v3 (.publishAck packetId) => some { w with c2b := vecRemove w.c2b packetId.get }
  | .v3 (.publishComplete packetId) => some { w with c2b := vecRemove w.c2b packetId.get }
  | .v5 (.publish p) => w.b2cInsert c p.qos p.packetId packet
  | .v5 (.publishAck ack) => some { w with c2b := vecRemove w.c2b ack.packetId.get }
  | .v5 (.publishComplete ack) => some { w with c2b := vecRemove w.c2b ack.packetId.get }
  | _ => some w

/-- One buffered packet in the flush of `establish_broker`, with its `raw[0]`. -/
def flushOne (w : VecWindows) (entry : UInt16 × Bytes) : Option VecWindows :=
  match entry.2 with
  | [] => none
  | x :: _ =>
      if x >>> 4 = 3 then some { w with c2b := vecInsert w.c2b entry.1 (.c2bPublishSent, entry.2) }
      else if x >>> 4 = 6 then
        some { w with c2b := vecInsert w.c2b entry.1 (.c2bPubrelSent, entry.2) }
      else some w

def flush (w : VecWindows) (entries : List (UInt16 × Bytes)) : Option VecWindows :=
  entries.foldlM flushOne w

/-- The arms of `broker_retransmits`. -/
def brokerRetransmit (entry : UInt16 × (WindowState × Bytes)) : Option Bytes :=
  match entry.2.1 with
  | .c2bPublishSent => withDupBytes entry.2.2
  | .c2bPubrelSent => some entry.2.2
  | .b2cPublishSent | .b2cPubrecForwarded => none

def brokerRetransmits (w : VecWindows) : Option (List Bytes) := w.c2b.mapM brokerRetransmit

/-- The arms of `client_retransmits`; the inner option is the one of `filter_map`. -/
def clientRetransmit (entry : UInt16 × (WindowState × Bytes)) : Option (Option Bytes) :=
  match entry.2.1 with
  | .b2cPublishSent => (withDupBytes entry.2.2).map some
  | .b2cPubrecForwarded => some none
  | .c2bPublishSent | .c2bPubrelSent => none

def clientRetransmits (w : VecWindows) : Option (List Bytes) :=
  (w.b2c.mapM clientRetransmit).map (fun raws => raws.filterMap id)

def snapshot (w : VecWindows) : List VecEntry :=
  w.c2b.map (fun e => ⟨e.1, e.2.1, e.2.2⟩) ++ w.b2c.map (fun e => ⟨e.1, e.2.1, e.2.2⟩)

def restore (w : VecWindows) (entry : VecEntry) : VecWindows :=
  match entry.state with
  | .c2bPublishSent | .c2bPubrelSent =>
      { w with c2b := vecInsert w.c2b entry.packetId (entry.state, entry.raw) }
  | .b2cPublishSent | .b2cPubrecForwarded =>
      { w with b2c := vecInsert w.b2c entry.packetId (entry.state, entry.raw) }

def fromSnapshot (entries : List VecEntry) : VecWindows := entries.foldl restore new

end VecWindows

/-- The windows of a session and its outage buffer. -/
structure VecSession where
  windows : VecWindows
  buffer : List (UInt16 × Bytes)
deriving DecidableEq

/-- What works on the windows, and what fills the buffer. -/
inductive VecOp where
  | trackC2b (packet : MqttPacket)
  | trackB2c (packet : MqttPacket)
  /-- a client packet in the outage phase -/
  | withhold (packet : MqttPacket)
  /-- the outage buffer goes out -/
  | flush
  /-- `snapshot`, and `from_snapshot` in the next generation -/
  | thaw
deriving DecidableEq

namespace VecSession

def new : VecSession := ⟨.new, []⟩

/-- The arms of `service_outage_packet` that push. -/
def withhold (c : Codec) (v : VecSession) (packet : MqttPacket) : Option VecSession :=
  let push (packetId : NonZeroU16) : VecSession :=
    { v with buffer := v.buffer ++ [(packetId.get, (encodeRaw c packet).toBytes)] }
  match packet with
  | .v3 (.publish p) | .v5 (.publish p) =>
      if p.qos = .atMostOnce then some v else p.packetId.map push
  | .v3 (.publishRelease packetId) => some (push packetId)
  | .v3 (.subscribe packetId _) => some (push packetId)
  | .v3 (.unsubscribe packetId _) => some (push packetId)
  | .v5 (.publishRelease ack) => some (push ack.packetId)
  | .v5 (.subscribe subscribe) => some (push subscribe.packetId)
  | .v5 (.unsubscribe unsubscribe) => some (push unsubscribe.packetId)
  | _ => some v

def step (c : Codec) (v : VecSession) : VecOp → Option VecSession
  | .trackC2b packet => (v.windows.trackC2b c packet).map (fun w => { v with windows := w })
  | .trackB2c packet => (v.windows.trackB2c c packet).map (fun w => { v with windows := w })
  | .withhold packet => v.withhold c packet
  | .flush => (v.windows.flush v.buffer).map (fun w => ⟨w, []⟩)
  | .thaw => some { v with windows := .fromSnapshot v.windows.snapshot }

def run (c : Codec) (v : VecSession) (ops : List VecOp) : Option VecSession :=
  ops.foldlM (step c) v

end VecSession

/-! ## The same in types -/

/-- A typed binding, as the code keeps it. -/
def plainEntry {p : WindowState → Prop} (e : { s // p s } × RawPacket) : WindowState × Bytes :=
  (e.1.val, e.2.toBytes)

def plainWindow {p : WindowState → Prop} (m : OrdMap UInt16 ({ s // p s } × RawPacket)) : VecWindow :=
  m.entries.map (Prod.map id plainEntry)

/-- The vectors that these windows stand for. -/
def VecWindows.plain (w : InflightWindows) : VecWindows := ⟨plainWindow w.c2b, plainWindow w.b2c⟩

/-- The windows in types, and the buffer. -/
structure TypedSession where
  windows : InflightWindows
  buffer : List BufferedPublish

namespace TypedSession

def new : TypedSession := ⟨.new, []⟩

def apply (c : Codec) (t : TypedSession) : VecOp → TypedSession
  | .trackC2b packet => { t with windows := t.windows.trackC2b c packet }
  | .trackB2c packet => { t with windows := t.windows.trackB2c c packet }
  | .withhold packet => { t with buffer := t.buffer ++ (bufferedAs c packet).toList }
  | .flush => ⟨t.buffer.foldl flushWindow t.windows, []⟩
  | .thaw => { t with windows := .fromSnapshot t.windows.snapshot }

end TypedSession

def BufferedPublish.plain (entry : BufferedPublish) : UInt16 × Bytes :=
  (entry.packetId, entry.raw.toBytes)

def VecSession.plain (t : TypedSession) : VecSession :=
  ⟨.plain t.windows, t.buffer.map BufferedPublish.plain⟩

section Plain

variable {p : WindowState → Prop} (m : OrdMap UInt16 ({ s // p s } × RawPacket)) (id : UInt16)

theorem plainWindow_insert (state : { s // p s }) (raw : RawPacket) :
    vecInsert (plainWindow m) id (state.val, raw.toBytes) = plainWindow (m.insert id (state, raw)) :=
  (OrdMap.Entries.upsert_map plainEntry id (state, raw) m.entries).symm

theorem plainWindow_erase : vecRemove (plainWindow m) id = plainWindow (m.erase id) :=
  (OrdMap.Entries.remove_map plainEntry id m.entries).symm

theorem plainWindow_adjust (state : { s // p s }) :
    vecSetState (plainWindow m) id state.val = plainWindow (m.adjust id (fun e => (state, e.2))) :=
  (OrdMap.Entries.modify_map (f := plainEntry) (fun _ => rfl) id m.entries).symm

theorem plainWindow_ids : (plainWindow m).map Prod.fst = m.keys := by
  rw [plainWindow, List.map_map]
  rfl

theorem plainWindow_contains : vecContains (plainWindow m) id = m.contains id := by
  rw [OrdMap.contains, ← plainWindow_ids, vecContains, Bool.eq_iff_iff, List.any_eq_true,
    decide_eq_true_iff, List.mem_map]
  simp only [decide_eq_true_iff]

end Plain

namespace VecWindows

variable {c : Codec} (w : InflightWindows)

theorem c2bInsert_plain (p : Publish) (packet : MqttPacket) :
    (plain w).c2bInsert c p.qos p.packetId packet = some (plain (w.c2bInsert c p packet)) := by
  unfold c2bInsert InflightWindows.c2bInsert
  by_cases h : p.qos = .atMostOnce
  · rw [if_pos h, dif_pos h]
  · rw [if_neg h, dif_neg h, Publish.packetId_eq h, Option.map_some]
    exact congrArg (fun v => some (VecWindows.mk v _)) (plainWindow_insert w.c2b _ publishSent _)

theorem b2cInsert_plain (p : Publish) (packet : MqttPacket) :
    (plain w).b2cInsert c p.qos p.packetId packet = some (plain (w.b2cInsert c p packet)) := by
  unfold b2cInsert InflightWindows.b2cInsert
  by_cases h : p.qos = .atMostOnce
  · rw [if_pos h, dif_pos h]
  · rw [if_neg h, dif_neg h, Publish.packetId_eq h, Option.map_some]
    exact congrArg (fun v => some (VecWindows.mk _ v)) (plainWindow_insert w.b2c _ deliverySent _)

theorem c2bTransition_plain (packetId : NonZeroU16) (packet : MqttPacket) :
    (plain w).c2bTransition c packetId .c2bPubrelSent packet =
      plain (w.c2bTransition c packetId pubrelSent packet) := by
  unfold c2bTransition InflightWindows.c2bTransition
  rw [show (plain w).c2b = plainWindow w.c2b from rfl, plainWindow_contains]
  split
  · exact congrArg (VecWindows.mk · _) (plainWindow_insert w.c2b _ pubrelSent _)
  · rfl

theorem b2cTransition_plain (packetId : NonZeroU16) :
    (plain w).b2cTransition packetId .b2cPubrecForwarded =
      plain (w.b2cTransition packetId pubrecForwarded) :=
  congrArg (VecWindows.mk _) (plainWindow_adjust w.b2c _ pubrecForwarded)

theorem removeC2b_plain (packetId : NonZeroU16) :
    { plain w with c2b := vecRemove (plain w).c2b packetId.get } = plain (w.removeC2b packetId) :=
  congrArg (VecWindows.mk · _) (plainWindow_erase w.c2b _)

theorem removeB2c_plain (packetId : NonZeroU16) :
    { plain w with b2c := vecRemove (plain w).b2c packetId.get } = plain (w.removeB2c packetId) :=
  congrArg (VecWindows.mk _) (plainWindow_erase w.b2c _)

theorem trackC2b_plain (packet : MqttPacket) :
    (plain w).trackC2b c packet = some (plain (w.trackC2b c packet)) := by
  rcases packet with p | p <;> cases p
  case v3.publish p | v5.publish p => exact c2bInsert_plain w p _
  case v3.publishRelease | v5.publishRelease => exact congrArg some (c2bTransition_plain w _ _)
  case v3.publishReceived | v5.publishReceived => exact congrArg some (b2cTransition_plain w _)
  case v3.publishAck | v5.publishAck => exact congrArg some (removeB2c_plain w _)
  case v3.publishComplete | v5.publishComplete => exact congrArg some (removeB2c_plain w _)
  all_goals rfl

theorem trackB2c_plain (packet : MqttPacket) :
    (plain w).trackB2c c packet = some (plain (w.trackB2c c packet)) := by
  rcases packet with p | p <;> cases p
  case v3.publish p | v5.publish p => exact b2cInsert_plain w p _
  case v3.publishAck | v5.publishAck => exact congrArg some (removeC2b_plain w _)
  case v3.publishComplete | v5.publishComplete => exact congrArg some (removeC2b_plain w _)
  all_goals rfl

/-! ### The flush -/

theorem flushOne_plain (entry : BufferedPublish) :
    (plain w).flushOne entry.plain = some (plain (flushWindow w entry)) := by
  show (if entry.raw.packetType = 3 then _ else if entry.raw.packetType = 6 then _ else _) = _
  unfold flushWindow flushBinding
  split
  · exact congrArg (fun v => some (VecWindows.mk v _)) (plainWindow_insert w.c2b _ publishSent _)
  · split
    · exact congrArg (fun v => some (VecWindows.mk v _)) (plainWindow_insert w.c2b _ pubrelSent _)
    · rfl

theorem flush_plain (entries : List BufferedPublish) :
    (plain w).flush (entries.map BufferedPublish.plain) = some (plain (entries.foldl flushWindow w)) := by
  induction entries generalizing w with
  | nil => rfl
  | cons entry entries ih =>
      rw [List.map_cons, flush, List.foldlM_cons, flushOne_plain]
      exact ih (flushWindow w entry)

/-! ### Snapshots -/

def entryPlain (entry : WindowEntry) : VecEntry := ⟨entry.packetId, entry.state, entry.raw.toBytes⟩

theorem snapshot_plain : (plain w).snapshot = w.snapshot.map entryPlain := by
  simp [snapshot, InflightWindows.snapshot, plain, plainWindow, plainEntry, entryPlain,
    Function.comp_def]

theorem restore_plain (entry : WindowEntry) :
    (plain w).restore (entryPlain entry) = plain (w.restore entry) := by
  obtain ⟨packetId, state, raw⟩ := entry
  cases state with
  | c2bPublishSent =>
      exact congrArg (VecWindows.mk · _) (plainWindow_insert w.c2b packetId publishSent raw)
  | c2bPubrelSent =>
      exact congrArg (VecWindows.mk · _) (plainWindow_insert w.c2b packetId pubrelSent raw)
  | b2cPublishSent =>
      exact congrArg (VecWindows.mk _) (plainWindow_insert w.b2c packetId deliverySent raw)
  | b2cPubrecForwarded =>
      exact congrArg (VecWindows.mk _) (plainWindow_insert w.b2c packetId pubrecForwarded raw)

theorem foldl_restore_plain (entries : List WindowEntry) :
    (entries.map entryPlain).foldl restore (plain w) =
      plain (entries.foldl InflightWindows.restore w) := by
  induction entries generalizing w with
  | nil => rfl
  | cons entry entries ih =>
      rw [List.map_cons, List.foldl_cons, restore_plain]
      exact ih (w.restore entry)

theorem thaw_plain : fromSnapshot (plain w).snapshot =
    plain (InflightWindows.fromSnapshot w.snapshot) := by
  rw [snapshot_plain]
  exact foldl_restore_plain .new w.snapshot

/-! ### Retransmits -/

theorem brokerRetransmit_plain : brokerRetransmit ∘ Prod.map id plainEntry =
    fun e => pure (InflightWindows.brokerRetransmit e.2).toBytes := by
  funext ⟨i, ⟨state, hstate⟩, raw⟩
  cases state with
  | c2bPublishSent => rfl
  | c2bPubrelSent => rfl
  | b2cPublishSent => cases hstate
  | b2cPubrecForwarded => cases hstate

theorem clientRetransmit_plain : clientRetransmit ∘ Prod.map id plainEntry =
    fun e => pure ((InflightWindows.clientRetransmit e.2).map RawPacket.toBytes) := by
  funext ⟨i, ⟨state, hstate⟩, raw⟩
  cases state with
  | b2cPublishSent => rfl
  | b2cPubrecForwarded => rfl
  | c2bPublishSent => cases hstate
  | c2bPubrelSent => cases hstate

theorem brokerRetransmits_plain :
    (plain w).brokerRetransmits = some (w.brokerRetransmits.map RawPacket.toBytes) := by
  show (w.c2b.entries.map _).mapM brokerRetransmit = _
  rw [List.mapM_map, brokerRetransmit_plain, List.mapM_pure, InflightWindows.brokerRetransmits,
    OrdMap.values, List.map_map, List.map_map]
  rfl

theorem clientRetransmits_plain :
    (plain w).clientRetransmits = some (w.clientRetransmits.map RawPacket.toBytes) := by
  show Option.map _ ((w.b2c.entries.map _).mapM clientRetransmit) = _
  rw [List.mapM_map, clientRetransmit_plain, List.mapM_pure, InflightWindows.clientRetransmits,
    OrdMap.values, List.filterMap_map, List.map_filterMap]
  show some (List.filterMap id (List.map _ _)) = _
  rw [List.filterMap_map]
  rfl

end VecWindows

/-! ## Runs -/

namespace VecSession

variable {c : Codec}

theorem withhold_plain (t : TypedSession) (packet : MqttPacket) :
    (plain t).withhold c packet = some (plain (t.apply c (.withhold packet))) := by
  have hpush : ∀ (i : NonZeroU16) (raw : RawPacket) (qos : UInt8),
      { plain t with buffer := (plain t).buffer ++ [(i.get, raw.toBytes)] }
        = plain { t with buffer := t.buffer ++ [⟨i.get, raw, qos⟩] } := by
    intro i raw qos
    rw [plain, plain, List.map_append]
    rfl
  have hnone : plain t = plain { t with buffer := t.buffer ++ [] } := by rw [List.append_nil]
  rcases packet with p | p <;> cases p
  case v3.publish p | v5.publish p =>
    unfold withhold TypedSession.apply bufferedAs
    by_cases h : p.qos = .atMostOnce
    · simp only [MqttPacket.shape, Publish.shape, dif_pos h, if_pos h]
      exact congrArg some hnone
    · simp only [MqttPacket.shape, Publish.shape_of_qos h, if_neg h, Publish.packetId_eq h]
      exact congrArg some (hpush _ _ _)
  case v3.publishRelease | v3.subscribe | v3.unsubscribe => exact congrArg some (hpush _ _ _)
  case v5.publishRelease | v5.subscribe | v5.unsubscribe => exact congrArg some (hpush _ _ _)
  all_goals exact congrArg some hnone

theorem step_plain (t : TypedSession) (op : VecOp) :
    (plain t).step c op = some (plain (t.apply c op)) := by
  cases op with
  | trackC2b packet =>
      show Option.map _ ((VecWindows.plain t.windows).trackC2b c packet) = _
      rw [VecWindows.trackC2b_plain]
      rfl
  | trackB2c packet =>
      show Option.map _ ((VecWindows.plain t.windows).trackB2c c packet) = _
      rw [VecWindows.trackB2c_plain]
      rfl
  | withhold packet => exact withhold_plain t packet
  | flush =>
      show Option.map _ ((VecWindows.plain t.windows).flush (t.buffer.map BufferedPublish.plain)) = _
      rw [VecWindows.flush_plain]
      rfl
  | thaw =>
      show some { plain t with windows := .fromSnapshot (VecWindows.plain t.windows).snapshot } = _
      rw [VecWindows.thaw_plain]
      rfl

/-- Every operation does on the vectors what it does on the typed windows; none panics. -/
theorem run_plain (ops : List VecOp) (t : TypedSession) :
    (plain t).run c ops = some (plain (ops.foldl (TypedSession.apply c) t)) := by
  induction ops generalizing t with
  | nil => rfl
  | cons op ops ih =>
      rw [run, List.foldlM_cons, step_plain]
      exact ih (t.apply c op)

end VecSession

/-! ## What the windows hold -/

/-- A raw packet of the c2b window, by its state. -/
def C2bSource (c : Codec) (id : UInt16) (e : C2bState × RawPacket) : Prop :=
  ∃ p, exchangeEntry c p = some (id, e)

/-- A raw packet of the b2c window. -/
def B2cSource (c : Codec) (id : UInt16) (e : B2cState × RawPacket) : Prop :=
  ∃ p q, p.shape = .publish q id ∧ e.2 = encodeRaw c p

namespace TypedSession

/-- Whatever stands in the windows and in the buffer was read from one side. -/
structure Sourced (c : Codec) (t : TypedSession) : Prop where
  c2b : t.windows.c2b.All (C2bSource c)
  b2c : t.windows.b2c.All (B2cSource c)
  buffer : ∀ entry ∈ t.buffer, ∃ p, bufferedAs c p = some entry

variable {c : Codec} {t : TypedSession}

theorem sourced_new : Sourced c .new where
  c2b := OrdMap.all_empty
  b2c := OrdMap.all_empty
  buffer _ h := absurd h List.not_mem_nil

theorem Sourced.trackC2b (h : Sourced c t) (packet : MqttPacket) :
    Sourced c (t.apply c (.trackC2b packet)) where
  c2b := by
    show (t.windows.trackC2b c packet).c2b.All (C2bSource c)
    rw [InflightWindows.trackC2b_c2b]
    split
    · next q i hshape => exact h.c2b.insert ⟨packet, by rw [exchangeEntry, hshape]⟩
    · next i hshape =>
        split
        · exact h.c2b.insert ⟨packet, by rw [exchangeEntry, hshape]⟩
        · exact h.c2b
    · exact h.c2b
  b2c := by
    show (t.windows.trackC2b c packet).b2c.All (B2cSource c)
    rw [InflightWindows.trackC2b_b2c]
    split
    · exact h.b2c.erase _
    · exact h.b2c.erase _
    · exact h.b2c.adjust (fun _ hv => hv)
    · exact h.b2c
  buffer := h.buffer

theorem Sourced.trackB2c (h : Sourced c t) (packet : MqttPacket) :
    Sourced c (t.apply c (.trackB2c packet)) where
  c2b := by
    show (t.windows.trackB2c c packet).c2b.All (C2bSource c)
    rw [InflightWindows.trackB2c_c2b]
    split
    · exact h.c2b.erase _
    · exact h.c2b.erase _
    · exact h.c2b
  b2c := by
    show (t.windows.trackB2c c packet).b2c.All (B2cSource c)
    rw [InflightWindows.trackB2c_b2c]
    split
    · next q i hshape => exact h.b2c.insert ⟨packet, q, hshape, rfl⟩
    · exact h.b2c
  buffer := h.buffer

/-- What the flush enters was held back as a PUBLISH or a PUBREL. -/
theorem Sourced.flush (h : Sourced c t) : Sourced c (t.apply c .flush) where
  c2b := by
    show (t.buffer.foldl flushWindow t.windows).c2b.All (C2bSource c)
    rw [foldl_flushWindow]
    refine OrdMap.All.insertAll ?_ h.c2b
    intro e he
    obtain ⟨entry, hentry, hbinding⟩ := List.mem_filterMap.mp he
    obtain ⟨p, hp⟩ := h.buffer entry hentry
    have hflush := flushBindings_bufferedAs c p
    rw [hp, Option.toList_some, flushBindings, List.filterMap_cons, hbinding] at hflush
    exact ⟨p, Option.mem_toList.mp (hflush ▸ List.mem_cons_self)⟩
  b2c := by
    show (t.buffer.foldl flushWindow t.windows).b2c.All (B2cSource c)
    rw [foldl_flushWindow]
    exact h.b2c
  buffer _ hentry := absurd hentry List.not_mem_nil

theorem Sourced.apply (h : Sourced c t) (op : VecOp) : Sourced c (t.apply c op) := by
  cases op with
  | trackC2b packet => exact h.trackC2b packet
  | trackB2c packet => exact h.trackB2c packet
  | withhold packet =>
      refine ⟨h.c2b, h.b2c, ?_⟩
      intro entry hentry
      rcases List.mem_append.mp hentry with hentry | hentry
      · exact h.buffer entry hentry
      · exact ⟨packet, Option.mem_toList.mp hentry⟩
  | flush => exact h.flush
  | thaw =>
      have hthaw : t.apply c .thaw = t := by
        rw [TypedSession.apply, InflightWindows.fromSnapshot_snapshot]
      rw [hthaw]
      exact h

theorem Sourced.foldl (h : Sourced c t) (ops : List VecOp) :
    Sourced c (ops.foldl (TypedSession.apply c) t) := by
  induction ops generalizing t with
  | nil => exact h
  | cons op ops ih => exact ih (h.apply op)

end TypedSession

/-! ## What the vectors hold -/

/-- The bytes are the frame of a PUBLISH above QoS 0 with this id. -/
structure EncodesPublish (c : Codec) (id : UInt16) (raw : Bytes) : Prop where
  packet : ∃ v publish, publish.qos ≠ .atMostOnce ∧
    publish.packetId.map NonZeroU16.get = some id ∧
    raw = (encodeRaw c (.ofPublish v publish)).toBytes
  nibble : ∃ x bs, raw = x :: bs ∧ x >>> 4 = 3

/-- The bytes are the frame of a PUBREL with this id. -/
structure EncodesPubrel (c : Codec) (id : UInt16) (raw : Bytes) : Prop where
  packet : ∃ packetId : NonZeroU16, packetId.get = id ∧
    (raw = (encodeRaw c (.v3 (.publishRelease packetId))).toBytes ∨
      ∃ reason, raw = (encodeRaw c (.v5 (.publishRelease ⟨packetId, reason⟩))).toBytes)
  nibble : ∃ x bs, raw = x :: bs ∧ x >>> 4 = 6

/-- The representation invariant. -/
structure VecWindows.Valid (c : Codec) (w : VecWindows) : Prop where
  c2bIds : (w.c2b.map Prod.fst).Nodup
  b2cIds : (w.b2c.map Prod.fst).Nodup
  c2b : ∀ e ∈ w.c2b, e.1 ≠ 0 ∧
    ((e.2.1 = .c2bPublishSent ∧ EncodesPublish c e.1 e.2.2) ∨
      (e.2.1 = .c2bPubrelSent ∧ EncodesPubrel c e.1 e.2.2))
  b2c : ∀ e ∈ w.b2c, e.1 ≠ 0 ∧ (e.2.1 = .b2cPublishSent ∨ e.2.1 = .b2cPubrecForwarded) ∧
    EncodesPublish c e.1 e.2.2

/-- What is sent again for a state and a raw packet: a PUBLISH with its DUP bit set and
nothing else changed, or a PUBREL as it is. -/
inductive Resent : WindowState → Bytes → Bytes → Prop where
  | dup {state : WindowState} {x : UInt8} {bs : Bytes}
      (h : state = .c2bPublishSent ∨ state = .b2cPublishSent) :
      Resent state (x :: bs) ((x ||| dupFlag) :: bs)
  | same {raw : Bytes} : Resent .c2bPubrelSent raw raw

section Valid

variable {c : Codec} {id : UInt16}

theorem Publish.id_of_shape {p : Publish} {q : QoS} (h : p.shape = .publish q id) :
    id ≠ 0 ∧ p.qos ≠ .atMostOnce ∧ p.packetId.map NonZeroU16.get = some id := by
  rw [Publish.shape] at h
  split at h
  · cases h
  · next hqos =>
      obtain ⟨-, rfl⟩ := Shape.publish.inj h
      rw [Publish.packetId_eq hqos]
      exact ⟨(p.expectId hqos).property, hqos, rfl⟩

theorem encodesPublish_of_shape {p : MqttPacket} {q : QoS} (h : p.shape = .publish q id) :
    id ≠ 0 ∧ EncodesPublish c id (encodeRaw c p).toBytes := by
  have hnibble : ∃ x bs, (encodeRaw c p).toBytes = x :: bs ∧ x >>> 4 = 3 :=
    ⟨_, _, rfl, (c.encode_type p).trans (packetType_of_publish h)⟩
  rcases p with p | p <;> cases p
  case v3.publish p =>
    obtain ⟨hid, hqos, hpacketId⟩ := Publish.id_of_shape (p := p) h
    exact ⟨hid, ⟨.mqtt3, p, hqos, hpacketId, rfl⟩, hnibble⟩
  case v5.publish p =>
    obtain ⟨hid, hqos, hpacketId⟩ := Publish.id_of_shape (p := p) h
    exact ⟨hid, ⟨.mqtt5, p, hqos, hpacketId, rfl⟩, hnibble⟩
  all_goals cases h

theorem encodesPubrel_of_shape {p : MqttPacket} (h : p.shape = .publishRelease id) :
    id ≠ 0 ∧ EncodesPubrel c id (encodeRaw c p).toBytes := by
  have hnibble : ∃ x bs, (encodeRaw c p).toBytes = x :: bs ∧ x >>> 4 = 6 :=
    ⟨_, _, rfl, (c.encode_type p).trans (packetType_of_publishRelease h)⟩
  rcases p with p | p <;> cases p
  case v3.publish p | v5.publish p =>
    have hp : p.shape = .publishRelease id := h
    rw [Publish.shape] at hp
    split at hp <;> cases hp
  case v3.publishRelease packetId =>
    cases h
    exact ⟨packetId.property, ⟨packetId, rfl, Or.inl rfl⟩, hnibble⟩
  case v5.publishRelease ack =>
    cases h
    exact ⟨ack.packetId.property, ⟨ack.packetId, rfl, Or.inr ⟨ack.reasonCode, rfl⟩⟩, hnibble⟩
  all_goals cases h

theorem C2bSource.valid {e : C2bState × RawPacket} (h : C2bSource c id e) : id ≠ 0 ∧
    ((e.1.val = .c2bPublishSent ∧ EncodesPublish c id e.2.toBytes) ∨
      (e.1.val = .c2bPubrelSent ∧ EncodesPubrel c id e.2.toBytes)) := by
  obtain ⟨p, hp⟩ := h
  unfold exchangeEntry at hp
  split at hp
  · next q i hshape =>
      cases hp
      obtain ⟨hid, hraw⟩ := encodesPublish_of_shape (c := c) hshape
      exact ⟨hid, Or.inl ⟨rfl, hraw⟩⟩
  · next i hshape =>
      cases hp
      obtain ⟨hid, hraw⟩ := encodesPubrel_of_shape (c := c) hshape
      exact ⟨hid, Or.inr ⟨rfl, hraw⟩⟩
  · cases hp

theorem TypedSession.Sourced.valid {t : TypedSession} (h : Sourced c t) :
    (VecWindows.plain t.windows).Valid c where
  c2bIds := by
    show ((plainWindow t.windows.c2b).map Prod.fst).Nodup
    rw [plainWindow_ids]
    exact t.windows.c2b.nodup
  b2cIds := by
    show ((plainWindow t.windows.b2c).map Prod.fst).Nodup
    rw [plainWindow_ids]
    exact t.windows.b2c.nodup
  c2b := by
    intro e he
    obtain ⟨e, hmem, rfl⟩ := List.mem_map.mp he
    exact (h.c2b.of_mem hmem).valid
  b2c := by
    intro e he
    obtain ⟨⟨id, ⟨state, hstate⟩, raw⟩, hmem, rfl⟩ := List.mem_map.mp he
    obtain ⟨p, q, hshape, hraw⟩ := h.b2c.of_mem hmem
    obtain rfl : raw = encodeRaw c p := hraw
    obtain ⟨hid, hpublish⟩ := encodesPublish_of_shape (c := c) hshape
    refine ⟨hid, ?_, hpublish⟩
    cases state with
    | b2cPublishSent => exact Or.inl rfl
    | b2cPubrecForwarded => exact Or.inr rfl
    | c2bPublishSent => cases hstate
    | c2bPubrelSent => cases hstate

theorem brokerRetransmits_resent (w : InflightWindows) :
    List.Forall₂ (fun e raw => Resent e.2.1 e.2.2 raw) (VecWindows.plain w).c2b
      (w.brokerRetransmits.map RawPacket.toBytes) := by
  rw [InflightWindows.brokerRetransmits, OrdMap.values, List.map_map, List.map_map]
  show List.Forall₂ _ (w.c2b.entries.map _) _
  rw [List.forall₂_map_left_iff, List.forall₂_map_right_iff, List.forall₂_same]
  rintro ⟨id, ⟨state, hstate⟩, raw⟩ -
  cases state with
  | c2bPublishSent => exact .dup (Or.inl rfl)
  | c2bPubrelSent => exact .same
  | b2cPublishSent => cases hstate
  | b2cPubrecForwarded => cases hstate

theorem clientRetransmits_resent (w : InflightWindows) :
    List.Forall₂ (fun e raw => Resent e.2.1 e.2.2 raw)
      ((VecWindows.plain w).b2c.filter (fun e => decide (e.2.1 = .b2cPublishSent)))
      (w.clientRetransmits.map RawPacket.toBytes) := by
  rw [InflightWindows.clientRetransmits, OrdMap.values]
  show List.Forall₂ _ ((w.b2c.entries.map _).filter _) _
  induction w.b2c.entries with
  | nil => exact .nil
  | cons e l ih =>
      obtain ⟨id, ⟨state, hstate⟩, raw⟩ := e
      cases state with
      | b2cPublishSent => exact .cons (.dup (Or.inr rfl)) ih
      | b2cPubrecForwarded => exact ih
      | c2bPublishSent => cases hstate
      | c2bPubrelSent => cases hstate

end Valid

/-! ## The windows of a session -/

/-- The windows of a session, with its outage buffer. -/
def Session.typed (s : Session) : TypedSession := ⟨s.windows, s.buffer.entries⟩

section Sessions

variable {c : Codec} {s s' : Session} {e : Event} {es : List Event} {out : List Output}

/-- A packet serviced in the outage phase is tracked or withheld. -/
theorem serviceOutagePacket_op {v v' : Serviced} {p : MqttPacket} {pong : Sent}
    (hv : serviceOutagePacket c v p pong = .ok v') : ∃ op : VecOp,
      TypedSession.apply c ⟨v.windows, v.buffer.entries⟩ op = ⟨v'.windows, v'.buffer.entries⟩ := by
  have hentries := (serviceOutagePacket_ok hv).1
  have hwithheld : v'.windows = v.windows → ∃ op : VecOp,
      TypedSession.apply c ⟨v.windows, v.buffer.entries⟩ op = ⟨v'.windows, v'.buffer.entries⟩ := by
    intro hwindows
    exact ⟨.withhold p, by rw [hwindows, hentries]; rfl⟩
  rw [serviceOutagePacket_eq] at hv
  cases hshape : p.shape <;> rw [hshape] at hv
  case publish | publishRelease | subscribe | unsubscribe =>
    rw [Serviced.push_ok hv] at hwithheld ⊢
    exact hwithheld rfl
  case publishAck | publishReceived | publishComplete =>
    rw [← Except.ok.inj hv]
    exact ⟨.trackC2b p, rfl⟩
  case pingRequest =>
    cases pong with
    | ok =>
        rw [← Except.ok.inj hv] at hwithheld ⊢
        exact hwithheld rfl
    | failed text => cases hv
  case disconnect => cases hv
  all_goals
    rw [← Except.ok.inj hv] at hwithheld ⊢
    exact hwithheld rfl

/-- What a step of a session does to them. -/
theorem Transition.ops (ht : Transition c s e s' out) :
    ∃ ops : List VecOp, ops.foldl (TypedSession.apply c) s.typed = s'.typed := by
  cases ht with
  | idle quiet same =>
      refine ⟨[], ?_⟩
      rw [Session.typed, Session.typed, same.windows, same.buffer]
      rfl
  | @forwarded now p after pong pongs up answered => exact ⟨[.trackC2b p], rfl⟩
  | @unsent now p after pong err pongs up answered => exact ⟨[.trackC2b p], rfl⟩
  | held down serviced =>
      obtain ⟨op, hop⟩ := serviceOutagePacket_op serviced
      exact ⟨[op], hop⟩
  | @delivered p after up passedOn => exact ⟨[.trackB2c p], rfl⟩
  | lost up quiet => exact ⟨[], rfl⟩
  | replayed down patched serves => exact ⟨[.flush], rfl⟩
  | migrated id now keepAlive =>
      refine ⟨[.thaw], ?_⟩
      show TypedSession.mk (.fromSnapshot s.windows.snapshot) s.buffer.entries = s.typed
      rw [InflightWindows.fromSnapshot_snapshot]
      rfl

/-- The windows of every reachable session are reached by operations on the vectors. -/
theorem run_ops (hrun : (sessionMachine c).run (.running s) es = some (.running s', out)) :
    ∃ ops, VecSession.run c (.plain s.typed) ops = some (.plain s'.typed) := by
  have hops : ∃ ops : List VecOp, ops.foldl (TypedSession.apply c) s.typed = s'.typed := by
    refine run_transitions (I := fun t =>
      ∃ ops : List VecOp, ops.foldl (TypedSession.apply c) s.typed = t.typed) ?_ ⟨[], rfl⟩ hrun
    rintro e - t t' out ⟨ops, hops⟩ ht
    obtain ⟨ops', hops'⟩ := ht.ops
    refine ⟨ops ++ ops', ?_⟩
    rw [List.foldl_append, hops]
    exact hops'
  obtain ⟨ops, hops⟩ := hops
  refine ⟨ops, ?_⟩
  rw [VecSession.run_plain, hops]

/-- So they are valid. -/
theorem valid_of_run {id : SessionId} {hs : Handshake} {client broker : Framing.Reader UInt8}
    {now : Nat}
    (hrun : (sessionMachine c).run (.running (.initial id hs client broker now)) es
      = some (.running s', out)) : (VecWindows.plain s'.windows).Valid c := by
  obtain ⟨ops, hops⟩ := run_ops hrun
  have hplain : VecSession.plain (ops.foldl (TypedSession.apply c) .new) = .plain s'.typed :=
    Option.some.inj ((VecSession.run_plain ops .new).symm.trans hops)
  have hvalid := (TypedSession.sourced_new.foldl (c := c) ops).valid
  rw [show VecWindows.plain (ops.foldl (TypedSession.apply c) .new).windows =
    (VecSession.plain (ops.foldl (TypedSession.apply c) .new)).windows from rfl, hplain] at hvalid
  exact hvalid

end Sessions

/-! ## Nothing panics -/

/-- Whatever has been tracked, withheld, flushed, saved and restored, in any order: no
operation panics, the vectors hold what they should, and neither the retransmits nor the
next flush would panic. -/
theorem windows_never_panic (c : Codec) (ops : List VecOp) : ∃ v,
    VecSession.run c .new ops = some v ∧ v.windows.Valid c ∧
    (∃ raws, v.windows.brokerRetransmits = some raws ∧
      List.Forall₂ (fun e raw => Resent e.2.1 e.2.2 raw) v.windows.c2b raws) ∧
    (∃ raws, v.windows.clientRetransmits = some raws ∧
      List.Forall₂ (fun e raw => Resent e.2.1 e.2.2 raw)
        (v.windows.b2c.filter (fun e => decide (e.2.1 = .b2cPublishSent))) raws) ∧
    ∃ w, v.windows.flush v.buffer = some w := by
  have hsourced := TypedSession.sourced_new.foldl (c := c) ops
  refine ⟨_, VecSession.run_plain ops .new, hsourced.valid, ?_, ?_, ?_⟩
  · exact ⟨_, VecWindows.brokerRetransmits_plain _, brokerRetransmits_resent _⟩
  · exact ⟨_, VecWindows.clientRetransmits_plain _, clientRetransmits_resent _⟩
  · exact ⟨_, VecWindows.flush_plain _ _⟩

end TrafficDirector
