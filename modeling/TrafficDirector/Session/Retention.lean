/-
# `TrafficDirector.Session.Retention` — no accepted message is forgotten

A QoS 1/2 PUBLISH or PUBREL of the client is in the c2b window, or in the outage
buffer, or in a snapshot on its way to the next process.  `pendingC2b` is the
window as it will be once the buffer is flushed; a flush, a freeze, a rollback
and an adoption do not change it at all, and every other step changes it as
`Transition.pendingC2b` says.
-/
import TrafficDirector.ReferenceCodec
import TrafficDirector.Session.Transition

namespace TrafficDirector

open Framing (Reader)

/-! ## The window with the buffer in it -/

/-- The c2b window as the next flush would leave it. -/
def Session.pendingC2b (s : Session) : OrdMap UInt16 (C2bState × RawPacket) :=
  s.windows.c2b.insertAll (flushBindings s.buffer.entries)

theorem Session.pendingC2b_of_nil {s : Session} (h : s.buffer.entries = []) :
    s.pendingC2b = s.windows.c2b := by
  rw [pendingC2b, h]; rfl

theorem Session.flushedWindows_c2b (s : Session) : s.flushedWindows.c2b = s.pendingC2b := by
  rw [flushedWindows, foldl_flushWindow]; rfl

/-- The c2b entry a client packet makes: none but for QoS 1/2 PUBLISH and PUBREL. -/
def exchangeEntry (c : Codec) (p : MqttPacket) : Option (UInt16 × (C2bState × RawPacket)) :=
  match p.shape with
  | .publish _ i => some (i, (publishSent, encodeRaw c p))
  | .publishRelease i => some (i, (pubrelSent, encodeRaw c p))
  | _ => none

theorem packetType_of_publish {p : MqttPacket} {q : QoS} {i : UInt16}
    (h : p.shape = .publish q i) : p.packetType = 3 := by
  rcases p with p | p <;> cases p <;> first | rfl | simp [MqttPacket.shape] at h

theorem packetType_of_publishRelease {p : MqttPacket} {i : UInt16}
    (h : p.shape = .publishRelease i) : p.packetType = 6 := by
  rcases p with p | p <;> cases p <;> first | rfl | simp [MqttPacket.shape] at h
  all_goals
    unfold Publish.shape at h
    split at h <;> simp at h

theorem packetType_of_subscribe {p : MqttPacket} {i : UInt16}
    (h : p.shape = .subscribe i ∨ p.shape = .unsubscribe i) :
    p.packetType = 8 ∨ p.packetType = 10 := by
  rcases p with p | p <;> cases p <;>
    first | exact Or.inl rfl | exact Or.inr rfl | simp [MqttPacket.shape] at h
  all_goals
    unfold Publish.shape at h
    split at h <;> simp at h

/-- A packet held back flushes to the entry that live tracking would have made. -/
theorem flushBindings_bufferedAs (c : Codec) (p : MqttPacket) :
    flushBindings (bufferedAs c p).toList = (exchangeEntry c p).toList := by
  unfold bufferedAs exchangeEntry
  cases h : p.shape with
  | publish q i =>
      have ht := (c.encode_type p).trans (packetType_of_publish h)
      simp [flushBindings, flushBinding, encodeRaw, ht]
  | publishRelease i =>
      have ht := (c.encode_type p).trans (packetType_of_publishRelease h)
      simp [flushBindings, flushBinding, encodeRaw, ht]
  | subscribe i =>
      rcases packetType_of_subscribe (Or.inl h) with ht | ht <;>
        simp [flushBindings, flushBinding, encodeRaw, (c.encode_type p).trans ht]
  | unsubscribe i =>
      rcases packetType_of_subscribe (Or.inr h) with ht | ht <;>
        simp [flushBindings, flushBinding, encodeRaw, (c.encode_type p).trans ht]
  | _ => rfl

variable {c : Codec} {s s' : Session} {e : Event} {out : List Output}

/-- The c2b window after tracking, by lookup. -/
theorem get?_trackC2b (w : InflightWindows) (p : MqttPacket) (i : UInt16) :
    (w.trackC2b c p).c2b.get? i =
      match exchangeEntry c p with
      | some (j, (state, raw)) =>
          if i = j ∧ (state = publishSent ∨ w.c2b.contains j = true) then some (state, raw)
          else w.c2b.get? i
      | none => w.c2b.get? i := by
  rw [InflightWindows.trackC2b_c2b]
  unfold exchangeEntry
  cases p.shape with
  | publish q j => simp
  | publishRelease j =>
      have hne : pubrelSent ≠ publishSent := by decide
      by_cases hc : w.c2b.contains j = true
      · simp [hc]
      · simp [hc, hne]
  | _ => rfl

theorem pendingC2b_held {p : MqttPacket} {pong : Sent} {v : Serviced}
    (h : serviceOutagePacket c ⟨s.buffer, s.subscriptions, s.windows, []⟩ p pong = .ok v) :
    v.windows.c2b.insertAll (flushBindings v.buffer.entries)
      = s.pendingC2b.insertAll (exchangeEntry c p).toList := by
  obtain ⟨hbuf, hc2b⟩ := serviceOutagePacket_ok h
  rw [hbuf, hc2b, ← flushBindings_bufferedAs]
  simp only [flushBindings, List.filterMap_append, OrdMap.insertAll_append, Session.pendingC2b]

theorem exchangeEntry_raw {p : MqttPacket} {j : UInt16} {state : C2bState} {raw : RawPacket}
    (h : exchangeEntry c p = some (j, (state, raw))) : raw = encodeRaw c p := by
  unfold exchangeEntry at h
  split at h
  · simp only [Option.some.injEq, Prod.mk.injEq] at h; exact h.2.2.symm
  · simp only [Option.some.injEq, Prod.mk.injEq] at h; exact h.2.2.symm
  · exact nomatch h

/-- What a step does to the pending window: nothing, or what tracking the packet
read does, or (a client packet during an outage) what its entry does. -/
theorem Transition.pendingC2b (hset : s.Settled) (h : Transition c s e s' out) :
    s'.pendingC2b = s.pendingC2b ∨
    (∃ p, e.clientPacket = some p ∧ s.pendingC2b = s.windows.c2b ∧
      s'.pendingC2b = (s.windows.trackC2b c p).c2b) ∨
    (∃ p, e.clientPacket = some p ∧
      s'.pendingC2b = s.pendingC2b.insertAll (exchangeEntry c p).toList) ∨
    (∃ p, e.brokerPacket = some p ∧ s.pendingC2b = s.windows.c2b ∧
      s'.pendingC2b = (s.windows.trackB2c c p).c2b) := by
  cases h with
  | idle quiet same =>
      left
      simp only [Session.pendingC2b, same.windows, same.buffer]
  | forwarded up answered =>
      exact Or.inr (Or.inl ⟨_, rfl, Session.pendingC2b_of_nil (hset up).1,
        Session.pendingC2b_of_nil (hset up).1⟩)
  | unsent up answered =>
      exact Or.inr (Or.inl ⟨_, rfl, Session.pendingC2b_of_nil (hset up).1,
        Session.pendingC2b_of_nil (hset up).1⟩)
  | held down serviced => exact Or.inr (Or.inr (Or.inl ⟨_, rfl, pendingC2b_held serviced⟩))
  | delivered up passedOn =>
      exact Or.inr (Or.inr (Or.inr ⟨_, rfl, Session.pendingC2b_of_nil (hset up).1,
        Session.pendingC2b_of_nil (hset up).1⟩))
  | lost up quiet => exact Or.inl rfl
  | replayed down patched serves =>
      exact Or.inl ((Session.pendingC2b_of_nil rfl).trans s.flushedWindows_c2b)
  | migrated id now keepAlive => exact Or.inl rfl

/-- What a step does to the entry of one id: nothing, or the client's packet for
that id took its place, or the broker acknowledged it on an open connection. -/
theorem Transition.get?_pendingC2b (hset : s.Settled) (h : Transition c s e s' out) (i : UInt16) :
    s'.pendingC2b.get? i = s.pendingC2b.get? i ∨
    (∃ p state, e.clientPacket = some p ∧ exchangeEntry c p = some (i, (state, encodeRaw c p)) ∧
      s'.pendingC2b.get? i = some (state, encodeRaw c p)) ∨
    (∃ p, e.brokerPacket = some p ∧ (p.shape = .publishAck i ∨ p.shape = .publishComplete i) ∧
      s'.pendingC2b.get? i = none) := by
  rcases h.pendingC2b hset with h | ⟨p, hp, hw, h⟩ | ⟨p, hp, h⟩ | ⟨p, hp, hw, h⟩
  · exact Or.inl (by rw [h])
  · rw [h, hw, get?_trackC2b]
    cases hx : exchangeEntry c p with
    | none => exact Or.inl rfl
    | some x =>
        obtain ⟨j, state, raw⟩ := x
        obtain rfl := exchangeEntry_raw hx
        simp only
        split
        · next hc => exact Or.inr (Or.inl ⟨p, state, hp, by rw [hx, hc.1], rfl⟩)
        · exact Or.inl rfl
  · rw [h, OrdMap.get?_insertAll]
    cases hx : exchangeEntry c p with
    | none => exact Or.inl rfl
    | some x =>
        obtain ⟨j, state, raw⟩ := x
        obtain rfl := exchangeEntry_raw hx
        by_cases hj : j = i
        · subst hj
          exact Or.inr (Or.inl ⟨p, state, hp, hx, by simp [OrdMap.lastFor]⟩)
        · exact Or.inl (by simp [OrdMap.lastFor, hj])
  · rw [h, hw, InflightWindows.trackB2c_c2b]
    cases hshape : p.shape with
    | publishAck j =>
        by_cases hj : i = j
        · subst hj; exact Or.inr (Or.inr ⟨p, hp, Or.inl hshape, by simp⟩)
        · exact Or.inl (by simp [hj])
    | publishComplete j =>
        by_cases hj : i = j
        · subst hj; exact Or.inr (Or.inr ⟨p, hp, Or.inr hshape, by simp⟩)
        · exact Or.inl (by simp [hj])
    | _ => exact Or.inl rfl

/-- A QoS 1/2 PUBLISH is there as soon as it has been read. -/
theorem Transition.pendingC2b_publish {p : MqttPacket} {q : QoS} {i : UInt16}
    (hset : s.Settled) (h : Transition c s e s' out) (hp : e.clientPacket = some p)
    (hshape : p.shape = .publish q i) :
    s'.pendingC2b.get? i = some (publishSent, encodeRaw c p) := by
  have hx : exchangeEntry c p = some (i, (publishSent, encodeRaw c p)) := by
    simp only [exchangeEntry, hshape]
  have live : ((s.windows.trackC2b c p).c2b).get? i = some (publishSent, encodeRaw c p) := by
    rw [get?_trackC2b, hx]
    simp
  cases h with
  | idle quiet same => cases quiet.clientPacket.symm.trans hp
  | lost up quiet => cases quiet.clientPacket.symm.trans hp
  | forwarded up answered =>
      obtain rfl := Option.some.inj hp
      rw [Session.pendingC2b_of_nil]
      · exact live
      · exact (hset up).1
  | unsent up answered =>
      obtain rfl := Option.some.inj hp
      rw [Session.pendingC2b_of_nil]
      · exact live
      · exact (hset up).1
  | held down serviced =>
      obtain rfl := Option.some.inj hp
      refine (congrArg (·.get? i) (pendingC2b_held serviced)).trans ?_
      simp [hx]
  | delivered => cases hp
  | replayed => cases hp
  | migrated => cases hp

/-! ## Runs -/

/-- The c2b window or the outage buffer has an entry for `i` with one of these packets. -/
def Session.Holds (s : Session) (i : UInt16) (P : RawPacket → Prop) : Prop :=
  (∃ state raw, s.windows.c2b.get? i = some (state, raw) ∧ P raw) ∨
    ∃ entry ∈ s.buffer.entries, entry.packetId = i ∧ P entry.raw

theorem mem_flushBindings {entries : List BufferedPublish} {i : UInt16} {state : C2bState}
    {raw : RawPacket} (h : (i, (state, raw)) ∈ flushBindings entries) :
    ∃ entry ∈ entries, entry.packetId = i ∧ entry.raw = raw := by
  obtain ⟨entry, hmem, hb⟩ := List.mem_filterMap.mp h
  refine ⟨entry, hmem, ?_⟩
  unfold flushBinding at hb
  split at hb
  · simp only [Option.some.injEq, Prod.mk.injEq] at hb; exact ⟨hb.1, hb.2.2⟩
  · split at hb
    · simp only [Option.some.injEq, Prod.mk.injEq] at hb; exact ⟨hb.1, hb.2.2⟩
    · exact nomatch hb

/-- An entry of the pending window is in the window or in the buffer. -/
theorem Session.holds_of_pendingC2b {i : UInt16} {state : C2bState} {raw : RawPacket}
    {P : RawPacket → Prop} (h : s.pendingC2b.get? i = some (state, raw)) (hP : P raw) :
    s.Holds i P := by
  rw [pendingC2b, OrdMap.get?_insertAll] at h
  cases hl : OrdMap.lastFor i (flushBindings s.buffer.entries) with
  | none =>
      rw [hl, Option.none_or] at h
      exact Or.inl ⟨state, raw, h, hP⟩
  | some x =>
      rw [hl, Option.some_or] at h
      obtain rfl := Option.some.inj h
      obtain ⟨entry, hmem, hid, rfl⟩ := mem_flushBindings (OrdMap.mem_of_lastFor hl)
      exact Or.inr ⟨entry, hmem, hid, hP⟩

/-- No PUBACK or PUBCOMP for `i` is read from a broker connection. -/
def Unacknowledged (i : UInt16) (es : List Event) : Prop :=
  ∀ e ∈ es, ∀ p, e.brokerPacket = some p →
    p.shape ≠ .publishAck i ∧ p.shape ≠ .publishComplete i

/-- The client does not send another QoS 1/2 PUBLISH with id `i`. -/
def NotReused (i : UInt16) (es : List Event) : Prop :=
  ∀ e ∈ es, ∀ p q, e.clientPacket = some p → p.shape ≠ .publish q i

/-- The packets that may stand for a PUBLISH `p` with id `i`: itself, and the
PUBRELs for `i` the client has sent since. -/
def Represents (c : Codec) (p : MqttPacket) (i : UInt16) (es : List Event) (raw : RawPacket) :
    Prop :=
  raw = encodeRaw c p ∨
    ∃ e ∈ es, ∃ q, e.clientPacket = some q ∧ q.shape = .publishRelease i ∧ raw = encodeRaw c q

/-- In every run, from the moment the session has read a QoS 1/2 PUBLISH with id
`i` and as long as it runs, the window or the buffer holds it (or the PUBREL that
followed it), until it is acknowledged or the client reuses `i`. -/
theorem publish_retained {id : SessionId} {hs : Handshake} {client broker : Reader UInt8}
    {now : Nat} {pre post : List Event} {read : Event} {p : MqttPacket} {q : QoS} {i : UInt16}
    (hrun : (sessionMachine c).run (.running (Session.initial id hs client broker now))
      (pre ++ read :: post) = some (.running s, out))
    (hread : read.clientPacket = some p) (hpub : p.shape = .publish q i)
    (hack : Unacknowledged i post) (hnew : NotReused i post) :
    s.Holds i (Represents c p i post) := by
  obtain ⟨o, o₁, o₂, hpre, hrest, -⟩ := Machine.run_append_eq_some.mp hrun
  obtain ⟨s₀, rfl⟩ := running_of_run hrest
  have hset₀ : s₀.Settled := run_transitions (fun _ _ _ _ _ h ht => ht.settled h)
    (Session.settled_initial id hs client broker now) hpre
  obtain ⟨s₁, _, _, hstep, hpost, -⟩ := run_cons_running hrest
  -- the entry is there after the read, and every later step keeps one for `i`
  have hend : s.Settled ∧ ∃ state raw, s.pendingC2b.get? i = some (state, raw) ∧
      Represents c p i post raw := by
    refine run_transitions (I := fun s => s.Settled ∧ ∃ state raw,
      s.pendingC2b.get? i = some (state, raw) ∧ Represents c p i post raw) ?_ ?_ hpost
    · rintro e he s s' o ⟨hset, state, raw, hget, hraw⟩ ht
      refine ⟨ht.settled hset, ?_⟩
      rcases ht.get?_pendingC2b hset i with h | ⟨p', state', hp', hx, h⟩ | ⟨p', hp', hshape, -⟩
      · exact ⟨state, raw, h.trans hget, hraw⟩
      · refine ⟨state', _, h, Or.inr ⟨e, he, p', hp', ?_, rfl⟩⟩
        unfold exchangeEntry at hx
        split at hx
        · next q' j hs =>
            simp only [Option.some.injEq, Prod.mk.injEq] at hx
            exact absurd (hx.1 ▸ hs) (hnew e he p' q' hp')
        · next j hs =>
            simp only [Option.some.injEq, Prod.mk.injEq] at hx
            exact hx.1 ▸ hs
        · exact nomatch hx
      · have h := hack e he p' hp'
        exact absurd hshape (not_or.mpr h)
    · exact ⟨hstep.settled hset₀, _, _, hstep.pendingC2b_publish hset₀ hread hpub, Or.inl rfl⟩
  obtain ⟨-, state, raw, hget, hraw⟩ := hend
  exact Session.holds_of_pendingC2b hget hraw

namespace ReferenceCodec

/-- A PUBLISH is read, and its write to the broker fails. -/
def failedWrite : Event :=
  .clientRead 5 (.packet (publish one [])) (.fresh []) .ok (.failed "broken pipe")

def migrateAndReplay : List Event :=
  [.migrate 1 9, .wait (some ⟨9, 9, .packet connack, .closed, .fresh [], ""⟩)]

end ReferenceCodec

open ReferenceCodec in
theorem publish_retained_migrated : ∃ s out,
    (sessionMachine (codec true)).run (.running session) ([] ++ failedWrite :: migrateAndReplay)
      = some (.running s, out) ∧
      s.Holds 1 (Represents (codec true) (publish one []) 1 migrateAndReplay) := by
  have hrun : (sessionMachine (codec true)).run (.running session)
      ([] ++ failedWrite :: migrateAndReplay) = some (.running _, _) := rfl
  refine ⟨_, _, hrun, publish_retained hrun rfl rfl ?_ ?_⟩
  · simp [migrateAndReplay, Unacknowledged, Event.brokerPacket]
  · simp [migrateAndReplay, NotReused, Event.clientPacket]

end TrafficDirector
