/-
# `TrafficDirector.Net.Deliveries` — no delivery is forgotten

The broker's PUBLISHes above QoS 0 on their way to the client, over whole runs.  A session
keeps each of them from the moment it passes it on until the client has acknowledged it,
through outages, freezes and hand-overs, and every replay sends the client again those that
it has not received (`deliveries_outstanding`).  What comes out of a leftover it does not keep.
-/
import TrafficDirector.Net.Downlink

namespace TrafficDirector

open Framing (Reader)

/-- The packet that an event reads, from either side.  The leftover is not read so. -/
def Event.live (e : Event) : List Traffic :=
  e.clientPacket.toList.map .client ++ e.brokerPacket.toList.map .broker

variable {c : Codec} {s s' : Session} {e : Event} {es : List Event} {out : List Output}

/-- The session holds the deliveries that are unfinished after `ts`, each for as long as the
ones after it, and a replay sends the client, behind the leftover, those without a PUBREC. -/
structure HoldsDeliveries (c : Codec) (ts : List Traffic) (s : Session) : Prop where
  held : ∀ i entry, s.windows.b2c.get? i = some entry ↔ UnfinishedB2c c i ts entry
  order : InOrder (fun i ts => ∃ entry, UnfinishedB2c c i ts entry) ts s.windows.b2c.keys
  resent : ∀ a s' out, forwardLoop c (.running s) (.wait (some a)) = some (.running s', out) →
    out.filterMap Output.toClient? = (s.leftoverPackets c).map .packet ++
      (s.windows.b2c.entries.filter (fun e => decide (e.2.1 = deliverySent))).map
        (fun e => .raw (withDup e.2.2))

/-! ## The window is told of what is read -/

theorem Event.Quiet.live (quiet : e.Quiet) : ∀ t ∈ e.live, b2cEdit c t = none := by
  intro t ht
  rw [Event.live, quiet.clientPacket] at ht
  obtain ⟨p, hp, rfl⟩ := List.mem_map.mp ht
  obtain ⟨after, forward, rfl⟩ := Event.eq_brokerRead (Option.mem_toList.mp hp)
  have hno : ¬ p.PassedOn := quiet
  simp only [b2cEdit]
  split
  · next q i hshape =>
      exact absurd (MqttPacket.passedOn_of_shape (by simp [hshape]) (by simp [hshape])) hno
  · rfl

theorem Event.Quiet.edits (quiet : e.Quiet) (m : OrdMap UInt16 (B2cState × RawPacket)) :
    OrdMap.edits (b2cEdit c) m e.live = m := by
  have hnone := quiet.live (c := c)
  generalize e.live = ts at hnone
  induction ts with
  | nil => rfl
  | cons t ts ih =>
      obtain ⟨ht, hts⟩ := List.forall_mem_cons.mp hnone
      rw [OrdMap.edits, List.foldl_cons, ht]
      exact ih hts

theorem Transition.b2c_edits (h : Transition c s e s' out) :
    s'.windows.b2c = OrdMap.edits (b2cEdit c) s.windows.b2c e.live := by
  have hread : ∀ p, e.clientPacket = some p → e.brokerPacket = none →
      s'.windows.b2c = OrdMap.edits (b2cEdit c) s.windows.b2c e.live := by
    intro p hp hb
    rw [h.b2c_read hp, Event.live, hp, hb]
    exact s.windows.track_b2c (.client p)
  cases h with
  | idle quiet same => rw [same.windows, quiet.edits]
  | forwarded => exact hread _ rfl rfl
  | unsent => exact hread _ rfl rfl
  | held => exact hread _ rfl rfl
  | @delivered p => exact s.windows.track_b2c (.broker p)
  | lost up quiet => exact (quiet.edits _).symm
  | replayed down patched serves =>
      show s.flushedWindows.b2c = _
      rw [Session.flushedWindows, foldl_flushWindow]
      rfl
  | migrated => rfl

theorem edits_live {id : SessionId} {hs : Handshake} {client broker : Reader UInt8} {now : Nat}
    {t : Session}
    (hrun : (sessionMachine c).run (.running (Session.initial id hs client broker now)) es
      = some (.running t, out)) :
    t.windows.b2c = OrdMap.edits (b2cEdit c) .empty (es.flatMap Event.live) := by
  have hgather : ∀ (es : List Event) (s t : Session) (out : List Output),
      (sessionMachine c).run (.running s) es = some (.running t, out) →
      t.windows.b2c = OrdMap.edits (b2cEdit c) s.windows.b2c (es.flatMap Event.live) := by
    intro es
    induction es with
    | nil =>
        intro s t out hrun
        obtain ⟨rfl, -⟩ := running_inj (Option.some.inj hrun)
        rfl
    | cons e es ih =>
        intro s t out hrun
        obtain ⟨s₁, o₁, o₂, hs, hr, -⟩ := run_cons_running hrun
        rw [ih s₁ t o₂ hr, hs.b2c_edits, List.flatMap_cons]
        exact List.foldl_append.symm
  exact hgather es _ t out hrun

/-! ## What a replay sends the client -/

theorem replayPlan_toClient (c : Codec) (s : Session) (raw : Bytes) :
    (s.replayPlan c raw).filterMap Output.toClient?
      = (s.leftoverPackets c).map .packet ++ s.windows.clientRetransmits.map .raw := by
  have hbroker : ∀ fs : List Frame, (fs.map Output.toBroker).filterMap Output.toClient? = [] := by
    refine filterMap_map_none ?_
    exact fun _ => rfl
  have hclient : ∀ fs : List Frame, (fs.map Output.toClient).filterMap Output.toClient? = fs := by
    refine filterMap_map_some ?_
    exact fun _ => rfl
  simp only [Session.replayPlan, List.filterMap_append, hbroker, hclient, List.append_nil,
    List.nil_append]
  rfl

/-- In every state that a session reaches, by any run with any number of outages and hand-overs,
it holds exactly the deliveries that the packets read so far leave unfinished, and is ready to
send them again. -/
theorem deliveries_outstanding {id : SessionId} {hs : Handshake} {client broker : Reader UInt8}
    {now : Nat} {t : Session}
    (hrun : (sessionMachine c).run (.running (Session.initial id hs client broker now)) es
      = some (.running t, out)) : HoldsDeliveries c (es.flatMap Event.live) t := by
  have hedits := edits_live hrun
  have hb2c : ∀ i (ts : List Traffic) entry,
      (OrdMap.edits (b2cEdit c) .empty ts).get? i = some entry ↔ UnfinishedB2c c i ts entry :=
    fun i ts entry => OrdMap.get?_edits.trans unfinishedB2c_iff.symm
  refine ⟨?_, ?_, ?_⟩
  · intro i entry
    rw [hedits]
    exact hb2c i _ entry
  · rw [hedits]
    exact inOrder_of_edits hb2c
  · intro a s' out' hstep
    cases forwardLoop_running hstep with
    | idle quiet same => exact quiet.elim
    | @replayed _ raw down patched serves =>
        rw [List.filterMap_cons_none rfl, replayPlan_toClient, clientRetransmits_eq, List.map_map]
        rfl

open ReferenceCodec in
theorem deliveries_outstanding_migrated : ∃ t out,
    (sessionMachine (codec true)).run (.running session)
      [delivered (publish one []), .migrate 1 9] = some (.running t, out) ∧
    t.windows.b2c.get? 1 = some (deliverySent, encodeRaw (codec true) (publish one [])) ∧
    HoldsDeliveries (codec true) [.broker (publish one [])] t := by
  have hrun : (sessionMachine (codec true)).run (.running session)
      [delivered (publish one []), .migrate 1 9] = some (.running _, _) := rfl
  exact ⟨_, _, hrun, rfl, deliveries_outstanding hrun⟩

end TrafficDirector
