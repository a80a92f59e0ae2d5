/-
# `TrafficDirector.Session.Completion` — exchanges that a PUBREC ends

In MQTT 5 a PUBREC with a reason code of 0x80 or more ends the exchange and frees its
packet id.  The windows take an entry out for a PUBACK and a PUBCOMP only: after such a
PUBREC the PUBLISH stays where it is, in either direction.  `rejectedFinished_iff` says
which runs leave nothing under an id that has been freed.
-/
import TrafficDirector.Session.Answers
import TrafficDirector.Session.Retention

namespace TrafficDirector

open Framing (Reader)

/-! ## Freed ids -/

/-- The id that a PUBREC frees. -/
def MqttPacket.rejects : MqttPacket → Option UInt16
  | .v5 (.publishReceived ack) =>
      match ack.reasonCode with
      | .success | .noMatchingSubscribers => none
      | _ => some ack.packetId.get
  | _ => none

/-- The id of a QoS 1/2 PUBLISH. -/
def MqttPacket.publishes (p : MqttPacket) : Option UInt16 :=
  match p.shape with
  | .publish _ i => some i
  | _ => none

/-- The id of a PUBREL. -/
def MqttPacket.releases (p : MqttPacket) : Option UInt16 :=
  match p.shape with
  | .publishRelease i => some i
  | _ => none

/-- The ids that a PUBREC has freed and no PUBLISH has taken again: those of the
client's PUBLISHes, and those of the broker's. -/
structure Freed where
  c2b : List UInt16
  b2c : List UInt16

/-- After a step in which `out` is sent. -/
def Freed.after (_ : Outcome) (h : Freed) (e : Event) (out : List Output) : Freed where
  c2b := (out.filterMap Output.packetToClient).filterMap MqttPacket.rejects
    ++ h.c2b.filter (fun i => e.clientPacket.bind MqttPacket.publishes ≠ some i)
  b2c := (e.clientPacket.bind MqttPacket.rejects).toList
    ++ h.b2c.filter (fun i =>
        i ∉ (out.filterMap Output.packetToClient).filterMap MqttPacket.publishes)

/-- A session with the ids that have been freed. -/
def freedMachine (c : Codec) : Machine (Outcome × Freed) Event Output :=
  (sessionMachine c).record Freed.after

/-- Nothing is left of an exchange of the client: neither the window nor the buffer has
an entry to retransmit, and a PUBLISH that uses the id again goes to the end. -/
structure Session.Finished (c : Codec) (s : Session) (i : UInt16) : Prop where
  silent : s.pendingC2b.get? i = none
  last : ∀ e s' out p, forwardLoop c (.running s) e = some (.running s', out) →
    e.clientPacket = some p → p.publishes = some i →
      s'.pendingC2b.keys = s.pendingC2b.keys ++ [i]

/-- Nothing is left of the exchanges whose ids have been freed. -/
def RejectedFinished (c : Codec) (k : Outcome × Freed) : Prop :=
  match k.1 with
  | .running s => (∀ i ∈ k.2.c2b, s.Finished c i) ∧ ∀ i ∈ k.2.b2c, s.windows.b2c.get? i = none
  | .ended _ => True

/-- The PUBRECs that the step decodes or reads free no id with an entry, and it buffers
no PUBREL for an id that has been freed. -/
def RejectsNothingHeld (c : Codec) (k : Outcome × Freed) (e : Event) : Prop :=
  match k.1 with
  | .running s =>
      (∀ i ∈ (s.arrivals c e).filterMap MqttPacket.rejects, s.pendingC2b.get? i = none) ∧
      (s.broker = none → ∀ i ∈ (e.clientPacket.bind MqttPacket.releases).toList, i ∉ k.2.c2b) ∧
      ∀ i ∈ (e.clientPacket.bind MqttPacket.rejects).toList, s.windows.b2c.get? i = none
  | .ended _ => True

instance (c : Codec) (k : Outcome × Freed) (e : Event) : Decidable (RejectsNothingHeld c k e) := by
  unfold RejectsNothingHeld
  split
  -- along the lists, not over all ids
  · exact @instDecidableAnd _ _ (List.decidableBAll _ _) (@instDecidableAnd _ _
      (@instDecidableForall _ _ inferInstance (List.decidableBAll _ _)) (List.decidableBAll _ _))
  · infer_instance

variable {c : Codec} {s s' : Session} {e : Event} {out : List Output} {h : Freed}

theorem shape_of_rejects {p : MqttPacket} {i : UInt16} (hp : p.rejects = some i) :
    p.shape = .publishReceived i := by
  unfold MqttPacket.rejects at hp
  split at hp
  · split at hp
    · exact nomatch hp
    · exact nomatch hp
    · rw [← Option.some.inj hp]
      rfl
  · exact nomatch hp

theorem shape_of_publishes {p : MqttPacket} {i : UInt16} (hp : p.publishes = some i) :
    ∃ q, p.shape = .publish q i := by
  unfold MqttPacket.publishes at hp
  split at hp
  · next q j hshape => exact ⟨q, Option.some.inj hp ▸ hshape⟩
  · exact nomatch hp

theorem shape_of_releases {p : MqttPacket} {i : UInt16} (hp : p.releases = some i) :
    p.shape = .publishRelease i := by
  unfold MqttPacket.releases at hp
  split at hp
  · next j hshape => exact Option.some.inj hp ▸ hshape
  · exact nomatch hp

theorem rejects_of_not_passedOn {p : MqttPacket} (hp : ¬ p.PassedOn) : p.rejects = none := by
  refine eq_none_of_not_passedOn (fun p i hr => ?_) hp
  have hshape := shape_of_rejects hr
  exact MqttPacket.passedOn_of_shape (by simp [hshape]) (by simp [hshape])

theorem publishes_of_not_passedOn {p : MqttPacket} (hp : ¬ p.PassedOn) : p.publishes = none := by
  refine eq_none_of_not_passedOn (fun p i hr => ?_) hp
  obtain ⟨q, hshape⟩ := shape_of_publishes hr
  exact MqttPacket.passedOn_of_shape (by simp [hshape]) (by simp [hshape])

/-! ## The client's exchanges -/

/-- An id without an entry is used as a fresh one. -/
theorem Session.finished_iff (hset : s.Settled) (i : UInt16) :
    s.Finished c i ↔ s.pendingC2b.get? i = none := by
  refine ⟨fun h => h.silent, fun hnone => ⟨hnone, ?_⟩⟩
  intro e s' out p hs hp hi
  obtain ⟨q, hshape⟩ := shape_of_publishes hi
  have h := forwardLoop_running hs
  have hkeys : ∀ v, (s.pendingC2b.insert i v).keys = s.pendingC2b.keys ++ [i] := by
    intro v
    rw [OrdMap.keys_insert, if_neg (OrdMap.get?_eq_none.mp hnone)]
  rcases h.pendingC2b hset with heq | ⟨p', hp', hw, heq⟩ | ⟨p', hp', heq⟩ | ⟨p', hp', -, -⟩
  · have hsome := h.pendingC2b_publish hset hp hshape
    rw [heq, hnone] at hsome
    cases hsome
  · obtain rfl := Option.some.inj (hp.symm.trans hp')
    rw [heq, InflightWindows.trackC2b_c2b, hshape, ← hw]
    exact hkeys _
  · obtain rfl := Option.some.inj (hp.symm.trans hp')
    rw [heq, exchangeEntry, hshape]
    exact hkeys _
  · obtain ⟨_, _, rfl⟩ := Event.eq_brokerRead hp'
    cases hp

/-- A step that decodes a PUBREC leaves the client's exchanges alone. -/
theorem Transition.rejected (ht : Transition c s e s' out) (hset : s.Settled) {i : UInt16}
    (hi : i ∈ (s.arrivals c e).filterMap MqttPacket.rejects) :
    s'.pendingC2b = s.pendingC2b := by
  cases ht with
  | idle quiet same =>
      rw [quiet.arrivals (fun p => rejects_of_not_passedOn)] at hi
      exact nomatch hi
  | delivered up passedOn =>
      obtain ⟨p, hp, hr⟩ := List.mem_filterMap.mp hi
      obtain rfl := List.mem_singleton.mp hp
      rw [Session.pendingC2b_of_nil (hset up).1]
      refine (Session.pendingC2b_of_nil ?_).trans ?_
      · exact (hset up).1
      · show (s.windows.trackB2c c p).c2b = _
        rw [InflightWindows.trackB2c_c2b, shape_of_rejects hr]
  | lost up quiet => rfl
  | replayed down patched serves =>
      exact (Session.pendingC2b_of_nil rfl).trans s.flushedWindows_c2b
  | _ => exact nomatch hi

theorem trackC2b_absent {w : InflightWindows} {p : MqttPacket} {i : UInt16}
    (hp : p.publishes ≠ some i) (hget : w.c2b.get? i = none) :
    (w.trackC2b c p).c2b.get? i = none := by
  rw [InflightWindows.trackC2b_c2b]
  cases hshape : p.shape with
  | publish q j =>
      have hne : i ≠ j := by
        rintro rfl
        exact hp (by rw [MqttPacket.publishes, hshape])
      rw [OrdMap.get?_insert, if_neg hne]
      exact hget
  | publishRelease j =>
      dsimp only
      split
      · next hc =>
          have hne : i ≠ j := by
            rintro rfl
            obtain ⟨_, hsome⟩ := OrdMap.contains_iff.mp hc
            cases hget.symm.trans hsome
          rw [OrdMap.get?_insert, if_neg hne]
          exact hget
      · exact hget
  | _ => exact hget

theorem trackB2c_absent {w : InflightWindows} {p : MqttPacket} {i : UInt16}
    (hget : w.c2b.get? i = none) : (w.trackB2c c p).c2b.get? i = none := by
  rw [InflightWindows.trackB2c_c2b]
  cases p.shape with
  | publishAck j =>
      rw [OrdMap.get?_erase]
      split
      · rfl
      · exact hget
  | publishComplete j =>
      rw [OrdMap.get?_erase]
      split
      · rfl
      · exact hget
  | _ => exact hget

/-- A packet held back makes an entry for an id that it does not publish only as its PUBREL. -/
theorem exchangeEntry_absent {m : OrdMap UInt16 (C2bState × RawPacket)} {p : MqttPacket}
    {i : UInt16} (hp : p.publishes ≠ some i) (hget : m.get? i = none) :
    (m.insertAll (exchangeEntry c p).toList).get? i = none ↔ ¬ p.releases = some i := by
  unfold MqttPacket.publishes at hp
  unfold MqttPacket.releases exchangeEntry
  cases hshape : p.shape with
  | publish q j =>
      rw [hshape] at hp
      have hne : i ≠ j := fun h => hp (congrArg some h.symm)
      refine iff_of_true ?_ (fun h => by cases h)
      show (m.insert j _).get? i = none
      rw [OrdMap.get?_insert, if_neg hne]
      exact hget
  | publishRelease j =>
      show (m.insert j _).get? i = none ↔ _
      rw [OrdMap.get?_insert]
      by_cases hij : i = j
      · rw [if_pos hij]
        exact iff_of_false (fun h => by cases h) (fun h => h (congrArg some hij.symm))
      · rw [if_neg hij]
        exact iff_of_true hget (fun h => hij (Option.some.inj h).symm)
  | _ => exact iff_of_true hget (fun h => by cases h)

/-- An id without an entry gets one from a PUBLISH, or from a PUBREL in an outage. -/
theorem Transition.stays_finished (ht : Transition c s e s' out) (hset : s.Settled) {i : UInt16}
    (hnone : s.pendingC2b.get? i = none)
    (hi : e.clientPacket.bind MqttPacket.publishes ≠ some i) :
    s'.pendingC2b.get? i = none ↔
      ¬ (s.broker = none ∧ e.clientPacket.bind MqttPacket.releases = some i) := by
  have hother : ∀ {P : Prop}, s.broker.isSome = true → s.broker = none → P := by
    intro P up down
    rw [down] at up
    cases up
  cases ht with
  | idle quiet same =>
      refine iff_of_true ?_ (fun h => by cases quiet.clientPacket ▸ h.2)
      rw [Session.pendingC2b, same.windows, same.buffer]
      exact hnone
  | @forwarded now p after pong pongs up answered =>
      rw [Session.pendingC2b_of_nil (hset up).1] at hnone
      refine iff_of_true ?_ (fun h => hother up h.1)
      rw [Session.pendingC2b_of_nil (by exact (hset up).1)]
      exact trackC2b_absent hi hnone
  | @unsent now p after pong err pongs up answered =>
      rw [Session.pendingC2b_of_nil (hset up).1] at hnone
      refine iff_of_true ?_ (fun h => hother up h.1)
      rw [Session.pendingC2b_of_nil (by exact (hset up).1)]
      exact trackC2b_absent hi hnone
  | @held now p after pong forward v down serviced =>
      show (v.windows.c2b.insertAll (flushBindings v.buffer.entries)).get? i = none ↔ _
      rw [pendingC2b_held serviced]
      refine (exchangeEntry_absent hi hnone).trans (not_congr ?_)
      exact (and_iff_right down).symm
  | @delivered p after up passedOn =>
      rw [Session.pendingC2b_of_nil (hset up).1] at hnone
      refine iff_of_true ?_ (fun h => by cases h.2)
      rw [Session.pendingC2b_of_nil (by exact (hset up).1)]
      exact trackB2c_absent hnone
  | lost up quiet => exact iff_of_true hnone (fun h => by cases h.2)
  | replayed down patched serves =>
      refine iff_of_true ?_ (fun h => by cases h.2)
      rw [Session.pendingC2b_of_nil rfl]
      exact (congrArg (fun m => m.get? i) s.flushedWindows_c2b).trans hnone
  | migrated id now keepAlive => exact iff_of_true hnone (fun h => by cases h.2)

/-! ## The broker's exchanges -/

theorem serviceOutagePacket_b2c {v v' : Serviced} {p : MqttPacket} {pong : Sent}
    (hv : serviceOutagePacket c v p pong = .ok v') :
    v'.windows.b2c = (v.windows.trackC2b c p).b2c := by
  rw [serviceOutagePacket_eq] at hv
  rw [InflightWindows.trackC2b_b2c]
  cases hshape : p.shape <;> rw [hshape] at hv
  case publish | publishRelease => rw [Serviced.push_ok hv]
  case subscribe | unsubscribe =>
    rw [Serviced.push_ok hv]
    rfl
  case pingRequest =>
    cases pong with
    | ok => rw [← Except.ok.inj hv]
    | failed e => exact nomatch hv
  case disconnect => exact nomatch hv
  case publishAck | publishReceived | publishComplete =>
    rw [← Except.ok.inj hv, InflightWindows.trackC2b_b2c, hshape]
  all_goals rw [← Except.ok.inj hv]

/-- What a packet of the client does to the b2c window, in either phase. -/
theorem Transition.b2c_read (ht : Transition c s e s' out) {p : MqttPacket}
    (hp : e.clientPacket = some p) : s'.windows.b2c = (s.windows.trackC2b c p).b2c := by
  cases ht with
  | idle quiet same => exact nomatch quiet.clientPacket.symm.trans hp
  | lost up quiet => exact nomatch quiet.clientPacket.symm.trans hp
  | held down serviced =>
      obtain rfl := Option.some.inj hp
      exact serviceOutagePacket_b2c serviced
  | forwarded up answered =>
      obtain rfl := Option.some.inj hp
      rfl
  | unsent up answered =>
      obtain rfl := Option.some.inj hp
      rfl
  | _ => exact nomatch hp

theorem Transition.stays_out_of_b2c (ht : Transition c s e s' out) {i : UInt16}
    (hnone : s.windows.b2c.get? i = none)
    (hi : i ∉ (s.arrivals c e).filterMap MqttPacket.publishes) :
    s'.windows.b2c.get? i = none := by
  cases hp : e.clientPacket with
  | some p =>
      rw [ht.b2c_read hp, InflightWindows.trackC2b_b2c]
      cases p.shape with
      | publishAck j =>
          dsimp only
          rw [OrdMap.get?_erase]
          split
          · rfl
          · exact hnone
      | publishComplete j =>
          dsimp only
          rw [OrdMap.get?_erase]
          split
          · rfl
          · exact hnone
      | publishReceived j =>
          dsimp only
          rw [OrdMap.get?_adjust, hnone]
          split
          · rfl
          · rfl
      | _ => exact hnone
  | none =>
      cases ht with
      | idle quiet same =>
          rw [same.windows]
          exact hnone
      | @delivered p after up passedOn =>
          show (s.windows.trackB2c c p).b2c.get? i = none
          rw [InflightWindows.trackB2c_b2c]
          cases hshape : p.shape with
          | publish q j =>
              dsimp only
              have hne : i ≠ j := by
                rintro rfl
                refine hi (List.mem_filterMap.mpr ⟨p, List.mem_singleton.mpr rfl, ?_⟩)
                rw [MqttPacket.publishes, hshape]
              rw [OrdMap.get?_insert, if_neg hne]
              exact hnone
          | _ => exact hnone
      | replayed down patched serves =>
          show s.flushedWindows.b2c.get? i = none
          rw [Session.flushedWindows, foldl_flushWindow]
          exact hnone
      | lost up quiet => exact hnone
      | migrated id now keepAlive => exact hnone
      | _ => cases hp

/-- The PUBREC of the client leaves the entry that is there. -/
theorem Transition.rejected_b2c (ht : Transition c s e s' out) {i : UInt16}
    (hi : e.clientPacket.bind MqttPacket.rejects = some i) :
    s'.windows.b2c.get? i = none ↔ s.windows.b2c.get? i = none := by
  obtain ⟨p, hp, hr⟩ := Option.bind_eq_some_iff.mp hi
  rw [ht.b2c_read hp, InflightWindows.trackC2b_b2c, shape_of_rejects hr]
  dsimp only
  rw [OrdMap.get?_adjust, if_pos rfl]
  exact Option.map_eq_none_iff

/-! ## Runs -/

theorem Transition.rejectedFinished (ht : Transition c s e s' out) (hset : s.Settled)
    (hP : RejectedFinished c (.running s, h)) :
    RejectedFinished c (.running s', Freed.after (.running s) h e out) ↔
      RejectsNothingHeld c (.running s, h) e := by
  obtain ⟨hc2b, hb2c⟩ := hP
  have hset' := ht.settled hset
  have hsent := ht.packetsToClient (g := MqttPacket.rejects) (fun p => rejects_of_not_passedOn)
  have hsent' := ht.packetsToClient (g := MqttPacket.publishes)
    (fun p => publishes_of_not_passedOn)
  show (∀ i ∈ _ ++ _, s'.Finished c i) ∧ (∀ i ∈ _ ++ _, s'.windows.b2c.get? i = none) ↔ _ ∧ _ ∧ _
  rw [hsent, hsent', List.forall_mem_append, List.forall_mem_append, and_assoc]
  refine and_congr ?_ (and_congr ?_ ?_)
  · refine forall₂_congr (fun i hi => ?_)
    rw [Session.finished_iff hset', ht.rejected hset hi]
  · constructor
    · intro hall down i hi hmem
      have hpublishes : e.clientPacket.bind MqttPacket.publishes ≠ some i := by
        intro hpub
        obtain ⟨p, hp, hrel⟩ := Option.bind_eq_some_iff.mp (Option.mem_toList.mp hi)
        obtain ⟨p', hp', hpub⟩ := Option.bind_eq_some_iff.mp hpub
        obtain rfl := Option.some.inj (hp.symm.trans hp')
        obtain ⟨q, hshape⟩ := shape_of_publishes hpub
        exact nomatch (shape_of_releases hrel).symm.trans hshape
      have hfin := hall i (List.mem_filter.mpr ⟨hmem, decide_eq_true hpublishes⟩)
      have hnone := (Session.finished_iff hset i).mp (hc2b i hmem)
      exact (ht.stays_finished hset hnone hpublishes).mp hfin.silent
        ⟨down, Option.mem_toList.mp hi⟩
    · intro hall i hi
      obtain ⟨hmem, hpublishes⟩ := List.mem_filter.mp hi
      have hnone := (Session.finished_iff hset i).mp (hc2b i hmem)
      rw [Session.finished_iff hset', ht.stays_finished hset hnone (of_decide_eq_true hpublishes)]
      rintro ⟨down, hrel⟩
      exact hall down i (Option.mem_toList.mpr hrel) hmem
  · constructor
    · rintro ⟨hall, -⟩ i hi
      exact (ht.rejected_b2c (Option.mem_toList.mp hi)).mp (hall i hi)
    · intro hall
      refine ⟨?_, ?_⟩
      · intro i hi
        exact (ht.rejected_b2c (Option.mem_toList.mp hi)).mpr (hall i hi)
      · intro i hi
        obtain ⟨hmem, hdelivered⟩ := List.mem_filter.mp hi
        exact ht.stays_out_of_b2c (hb2c i hmem) (of_decide_eq_true hdelivered)

/-- An exchange that a PUBREC has ended leaves nothing to retransmit, and its id is used
as a fresh one, exactly in the runs in which each such PUBREC finds no entry, and no
PUBREL for a freed id is buffered. -/
theorem rejectedFinished_iff {id : SessionId} {hs : Handshake} {client broker : Reader UInt8}
    {now : Nat} {es : List Event}
    (hrun : (freedMachine c).run (.running (Session.initial id hs client broker now), ⟨[], []⟩) es
      = some ((.running s, h), out)) :
    (freedMachine c).Always (RejectedFinished c)
        (.running (Session.initial id hs client broker now), ⟨[], []⟩) es ↔
      (freedMachine c).Along (RejectsNothingHeld c)
        (.running (Session.initial id hs client broker now), ⟨[], []⟩) es := by
  have hstart : RejectedFinished c
      (.running (Session.initial id hs client broker now), ⟨[], []⟩) := by
    refine ⟨?_, ?_⟩
    · intro i hi
      exact nomatch hi
    · intro i hi
      exact nomatch hi
  refine (Machine.always_iff_live (L := fun k s => k.1 = .running s) (J := fun _ s => s.Settled)
    ?_ ?_ hrun rfl).trans (and_iff_right hstart)
  · rintro ⟨o, h⟩ e ⟨o', h'⟩ out s' hlive hstep
    obtain ⟨hs, hafter⟩ := Machine.record_step_eq_some.mp hstep
    obtain rfl : o' = .running s' := hlive
    obtain rfl : h' = Freed.after o h e out := hafter
    obtain ⟨s, rfl⟩ := running_of_step hs
    have ht := forwardLoop_running hs
    refine ⟨s, rfl, fun hset => ⟨ht.settled hset, ?_⟩⟩
    intro hP
    exact ht.rejectedFinished hset hP
  · rintro s hs
    rw [← Outcome.running.inj hs]
    exact Session.settled_initial id _ client broker now

/-- The ids that the client's exchanges hold, and those that have been freed. -/
def freedOf (k : Outcome × Freed) : Option (List UInt16 × List UInt16) :=
  match k.1 with
  | .running s => some (s.pendingC2b.keys, k.2.c2b)
  | .ended _ => none

theorem freedOf_eq_some {k : Outcome × Freed} {held freed : List UInt16}
    (hk : freedOf k = some (held, freed)) :
    ∃ s h, k = (.running s, h) ∧ s.pendingC2b.keys = held ∧ h.c2b = freed := by
  obtain ⟨o, h⟩ := k
  unfold freedOf at hk
  split at hk
  · next s hs =>
      obtain ⟨hheld, hfreed⟩ := Prod.mk.inj (Option.some.inj hk)
      obtain rfl : o = .running s := hs
      exact ⟨s, h, rfl, hheld, hfreed⟩
  · exact nomatch hk

namespace ReferenceCodec

def publishV5 (i : NonZeroU16) : MqttPacket :=
  .v5 (.publish ⟨false, false, .exactlyOnce, "t", some i, [], none, Publish.hasId_some i⟩)

/-- A PUBREC with the reason code 0x97. -/
def rejection (i : NonZeroU16) : MqttPacket := .v5 (.publishReceived ⟨i, .quotaExceeded⟩)

/-- A PUBLISH is acknowledged; a PUBREC rejects it as well. -/
def rejectedLate : List Event :=
  [forwarded (publishV5 one), delivered (.v5 (.publishAck ⟨one, .success⟩)),
    delivered (rejection one)]

/-- A PUBLISH is rejected; the broker restarts. -/
def publishRejected : List Event :=
  [forwarded (publishV5 one), delivered (rejection one), brokerCloses, .wait (some acceptingV5)]

end ReferenceCodec

open ReferenceCodec in
theorem rejectedFinished_late : ∃ s h out,
    (freedMachine (codec true)).run (.running sessionV5, ⟨[], []⟩) rejectedLate
      = some ((.running s, h), out) ∧
    h.c2b = [1] ∧
    (freedMachine (codec true)).Always (RejectedFinished (codec true))
      (.running sessionV5, ⟨[], []⟩) rejectedLate := by
  have hview : ((freedMachine (codec true)).run (.running sessionV5, ⟨[], []⟩) rejectedLate).map
      (fun r => freedOf r.1) = some (some ([], [1])) := by
    decide +kernel
  obtain ⟨⟨k, out⟩, hrun, hk⟩ := Option.map_eq_some_iff.mp hview
  obtain ⟨s, h, rfl, -, hfreed⟩ := freedOf_eq_some hk
  exact ⟨s, h, out, hrun, hfreed, (rejectedFinished_iff hrun).mpr (by decide +kernel)⟩

open ReferenceCodec in
/-- The replay publishes again what the client was told is rejected. -/
theorem rejected_published_again : ∃ s h out,
    (freedMachine (codec true)).run (.running sessionV5, ⟨[], []⟩) publishRejected
      = some ((.running s, h), out) ∧
    .toBroker (.raw (withDup (encode (publishV5 one)))) ∈ out ∧
    ¬ RejectedFinished (codec true) (.running s, h) := by
  have hview : ((freedMachine (codec true)).run (.running sessionV5, ⟨[], []⟩) publishRejected).map
      (fun r => (freedOf r.1,
        decide (.toBroker (.raw (withDup (encode (publishV5 one)))) ∈ r.2)))
        = some (some ([1], [1]), true) := by
    decide +kernel
  obtain ⟨⟨k, out⟩, hrun, hk⟩ := Option.map_eq_some_iff.mp hview
  obtain ⟨hfreed, hout⟩ := Prod.mk.inj hk
  obtain ⟨s, h, rfl, hheld, hfreed⟩ := freedOf_eq_some hfreed
  refine ⟨s, h, out, hrun, of_decide_eq_true hout, ?_⟩
  rintro ⟨hfinished, -⟩
  have hmem : 1 ∈ h.c2b := hfreed ▸ List.mem_singleton.mpr rfl
  have hnone := OrdMap.get?_eq_none.mp (hfinished 1 hmem).silent
  rw [hheld] at hnone
  exact hnone (List.mem_singleton.mpr rfl)

end TrafficDirector
