/-
# `TrafficDirector.Session.Buffering` — before or after the broker is lost

A PUBLISH or PUBREL of the client is tracked when it is read from the client, or held
back in the outage buffer and entered into the window when the buffer is flushed.  The
first way ignores a PUBREL for an id that is not in the window, the second one makes
an entry of it.

`buffered_eq_tracked_iff` says when the two ways lead to the same window all the same:
when the ids that are new to the window come up in the same order among the PUBLISHes
as among all packets.
-/
import Mathlib.Data.List.Induction
import TrafficDirector.Session.Completion
import TrafficDirector.Session.Ledger

namespace TrafficDirector

/-- The client's packets are read one after the other while there is no broker. -/
def serviceAll (c : Codec) (s : Serviced) (ps : List MqttPacket) : Except IoError Serviced :=
  ps.foldlM (fun s p => serviceOutagePacket c s p .ok) s

/-- The session when the outage phase has read some packets. -/
def Session.serviced (s : Session) (v : Serviced) : Session :=
  { s with buffer := v.buffer, subscriptions := v.subscriptions, windows := v.windows }

/-- The ids that the window does not hold, each where it comes up first. -/
def InflightWindows.newIds (w : InflightWindows) (ids : List UInt16) : List UInt16 :=
  (ids.filter (fun i => decide (i ∉ w.c2b.keys))).eraseDups

/-- The new ids come up in the PUBLISHes as they do in all packets. -/
def PublishedFirst (w : InflightWindows) (ps : List MqttPacket) : Prop :=
  w.newIds (ps.filterMap MqttPacket.publishes) = w.newIds (ps.filterMap exchangeId)

variable {c : Codec} {w : InflightWindows} {s : Session} {ps : List MqttPacket} {i : UInt16}

/-! ## Tracking -/

theorem exchangeId_eq_map (p : MqttPacket) : exchangeId p = (exchangeEntry c p).map Prod.fst := by
  unfold exchangeId exchangeEntry
  cases p.shape <;> rfl

/-- Only a PUBLISH brings a new id. -/
theorem keys_trackC2b (w : InflightWindows) (p : MqttPacket) :
    (w.trackC2b c p).c2b.keys = OrdMap.withKeys w.c2b.keys p.publishes.toList := by
  rw [InflightWindows.trackC2b_c2b]
  unfold MqttPacket.publishes
  cases p.shape with
  | publish q i => simp [OrdMap.keys_insert, OrdMap.withKeys_cons]
  | publishRelease i =>
      simp only [Option.toList_none, OrdMap.withKeys_nil]
      split
      · next h => rw [OrdMap.keys_insert, if_pos (of_decide_eq_true h)]
      · rfl
  | _ => simp

theorem keys_foldl_trackC2b (ps : List MqttPacket) (w : InflightWindows) :
    (ps.foldl (InflightWindows.trackC2b c) w).c2b.keys =
      OrdMap.withKeys w.c2b.keys (ps.filterMap MqttPacket.publishes) := by
  induction ps generalizing w with
  | nil => simp
  | cons p ps ih =>
      rw [List.foldl_cons, ih, keys_trackC2b]
      cases hp : p.publishes with
      | none => simp [hp]
      | some i => simp [hp, OrdMap.withKeys_cons]

/-- An id that is in the window has the entry that the flush would give it. -/
theorem get?_foldl_trackC2b (ps : List MqttPacket) (w : InflightWindows)
    (h : i ∈ (ps.foldl (InflightWindows.trackC2b c) w).c2b.keys) :
    (ps.foldl (InflightWindows.trackC2b c) w).c2b.get? i =
      (w.c2b.insertAll (ps.filterMap (exchangeEntry c))).get? i := by
  induction ps using List.reverseRecOn with
  | nil => rfl
  | append_singleton ps p ih =>
      rw [List.foldl_append] at h ⊢
      rw [List.filterMap_append, OrdMap.insertAll_append]
      generalize ps.foldl (InflightWindows.trackC2b c) w = w₁ at h ih ⊢
      generalize w.c2b.insertAll (ps.filterMap (exchangeEntry c)) = m at ih ⊢
      simp only [List.foldl_cons, List.foldl_nil] at h ⊢
      rw [InflightWindows.trackC2b_c2b] at h ⊢
      unfold exchangeEntry
      cases hp : p.shape with
      | publish q j =>
          simp only [hp, List.filterMap_cons, List.filterMap_nil, OrdMap.insertAll_cons,
            OrdMap.insertAll_nil, OrdMap.get?_insert] at h ⊢
          by_cases hij : i = j
          · rw [if_pos hij, if_pos hij]
          · rw [if_neg hij, if_neg hij]
            exact ih ((OrdMap.mem_keys_insert.mp h).resolve_left hij)
      | publishRelease j =>
          simp only [hp, List.filterMap_cons, List.filterMap_nil, OrdMap.insertAll_cons,
            OrdMap.insertAll_nil, OrdMap.get?_insert] at h ⊢
          split at h
          · next hj =>
              rw [if_pos hj, OrdMap.get?_insert]
              by_cases hij : i = j
              · rw [if_pos hij, if_pos hij]
              · rw [if_neg hij, if_neg hij]
                exact ih ((OrdMap.mem_keys_insert.mp h).resolve_left hij)
          · next hj =>
              -- the PUBREL is ignored, so `i` is another id
              have hij : i ≠ j := fun hij => hj (decide_eq_true (hij ▸ h))
              rw [if_neg hj, if_neg hij]
              exact ih h
      | _ =>
          simp only [hp, List.filterMap_cons, List.filterMap_nil, OrdMap.insertAll_nil] at h ⊢
          exact ih h

theorem tracked_eq_inserted_iff : (ps.foldl (InflightWindows.trackC2b c) w).c2b =
    w.c2b.insertAll (ps.filterMap (exchangeEntry c)) ↔ PublishedFirst w ps := by
  have hids : (ps.filterMap (exchangeEntry c)).map Prod.fst = ps.filterMap exchangeId := by
    rw [List.map_filterMap]
    exact List.filterMap_congr (fun p _ => (exchangeId_eq_map p).symm)
  have hkeys : (ps.foldl (InflightWindows.trackC2b c) w).c2b.keys =
      (w.c2b.insertAll (ps.filterMap (exchangeEntry c))).keys ↔ PublishedFirst w ps := by
    rw [keys_foldl_trackC2b, OrdMap.keys_insertAll, hids]
    exact List.append_cancel_left_eq _ _ _ |>.to_iff
  rw [← hkeys]
  constructor
  · intro h
    rw [h]
  · intro h
    refine OrdMap.ext_get? h (fun i => ?_)
    by_cases hi : i ∈ (ps.foldl (InflightWindows.trackC2b c) w).c2b.keys
    · exact get?_foldl_trackC2b ps w hi
    · rw [OrdMap.get?_eq_none.mpr hi, OrdMap.get?_eq_none.mpr (h ▸ hi)]

/-! ## Buffering -/

theorem serviceAll_ok {v v' : Serviced} (h : serviceAll c v ps = .ok v') :
    v'.buffer.entries = v.buffer.entries ++ ps.filterMap (bufferedAs c) ∧
      v'.windows.c2b = v.windows.c2b := by
  induction ps generalizing v with
  | nil =>
      obtain rfl := Except.ok.inj h
      exact ⟨(List.append_nil _).symm, rfl⟩
  | cons p ps ih =>
      rw [serviceAll, List.foldlM_cons] at h
      cases hp : serviceOutagePacket c v p .ok with
      | error e => rw [hp] at h; cases h
      | ok v₁ =>
          rw [hp] at h
          obtain ⟨hbuffer, hwindow⟩ := ih h
          obtain ⟨hbuffer₁, hwindow₁⟩ := serviceOutagePacket_ok hp
          refine ⟨?_, hwindow.trans hwindow₁⟩
          rw [hbuffer, hbuffer₁, List.append_assoc]
          cases hb : bufferedAs c p <;> simp [hb]

theorem flushBindings_filterMap (ps : List MqttPacket) :
    flushBindings (ps.filterMap (bufferedAs c)) = ps.filterMap (exchangeEntry c) := by
  induction ps with
  | nil => rfl
  | cons p ps ih =>
      have hp := flushBindings_bufferedAs c p
      rw [flushBindings] at hp ih ⊢
      have hcons : ∀ {β : Type} (f : MqttPacket → Option β),
          (p :: ps).filterMap f = (f p).toList ++ ps.filterMap f := by
        intro β f
        cases hf : f p <;> simp [hf]
      rw [hcons, hcons, List.filterMap_append, hp, ih]

theorem establishBroker_windows {a : Attempt} {u : Unit} {r : Replay}
    (h : establishBroker c s.hs s.subscriptions (s.replay a) = .ok u r) :
    r.windows = s.flushedWindows := by
  obtain ⟨raw, -, -, hafter, -⟩ := establishBroker_ok h
  exact congrArg Session.windows hafter

/-- Packets read in an outage, and flushed to the next connection, leave the window that
they leave when they are read with a broker there, exactly if the new ids come up in the
PUBLISHes as they do in all packets. -/
theorem buffered_eq_tracked_iff {v : Serviced} {a : Attempt} {u : Unit} {r : Replay}
    (hnil : s.buffer.entries = [])
    (hheld : serviceAll c ⟨s.buffer, s.subscriptions, s.windows, []⟩ ps = .ok v)
    (hflush : establishBroker c s.hs v.subscriptions ((s.serviced v).replay a) = .ok u r) :
    (ps.foldl (InflightWindows.trackC2b c) s.windows).c2b = r.windows.c2b ↔
      PublishedFirst s.windows ps := by
  obtain ⟨hbuffer, hwindow⟩ := serviceAll_ok hheld
  have hwindows : r.windows = (s.serviced v).flushedWindows :=
    establishBroker_windows (s := s.serviced v) hflush
  have hpending : (s.serviced v).pendingC2b =
      s.windows.c2b.insertAll (ps.filterMap (exchangeEntry c)) := by
    show v.windows.c2b.insertAll (flushBindings v.buffer.entries) = _
    rw [hwindow, hbuffer, hnil, List.nil_append, flushBindings_filterMap]
  rw [hwindows, Session.flushedWindows_c2b, hpending]
  exact tracked_eq_inserted_iff

namespace ReferenceCodec

/-- The session right after its broker is lost. -/
def stranded : Session := session.loseBroker (.fresh [])

/-- A client that resumes in the middle of a QoS 2 handshake. -/
def pubrel : MqttPacket := .v3 (.publishRelease one)

/-- What the outage phase makes of PUBLISHes and PUBRELs. -/
def held (ps : List MqttPacket) : Serviced :=
  ⟨.ofEntries (ps.filterMap (bufferedAs (codec true))), .empty, .new, []⟩

theorem stranded_serves (ps : List MqttPacket) (h : (held ps).buffer.entries.length ≤ 8) :
    Serves (codec true) (stranded.serviced (held ps)) accepting where
  patched := ⟨_, rfl⟩
  connack := rfl
  suback := fun hne => absurd rfl hne
  brokerWrites := by
    show 1 + 0 + 0 + (held ps).buffer.entries.length ≤ 9
    omega
  clientWrites := by
    show ((codec true).decodeAll .mqtt3 []).length + 0 ≤ 9
    rw [Codec.decodeAll_nil]
    exact Nat.zero_le 9

end ReferenceCodec

open ReferenceCodec in
/-- A PUBREL for an id that the window does not hold: it is retransmitted if there was no
broker when it came, and forgotten if there was. -/
theorem buffered_ne_tracked : ∃ r,
    serviceAll (codec true) ⟨stranded.buffer, stranded.subscriptions, stranded.windows, []⟩
      [pubrel] = .ok (held [pubrel]) ∧
    establishBroker (codec true) stranded.hs .empty
      ((stranded.serviced (held [pubrel])).replay accepting) = .ok () r ∧
    ([pubrel].foldl (InflightWindows.trackC2b (codec true)) stranded.windows).c2b.entries = [] ∧
    r.windows.c2b.entries = [(1, (pubrelSent, encodeRaw (codec true) pubrel))] := by
  obtain ⟨r, hr⟩ := establishBroker_of_serves (stranded_serves [pubrel] (by decide))
  refine ⟨r, rfl, hr, rfl, ?_⟩
  rw [establishBroker_windows hr]
  rfl

open ReferenceCodec in
/-- A PUBLISH, and a PUBREL that follows it. -/
theorem buffered_eq_tracked_handshake : ∃ r,
    establishBroker (codec true) stranded.hs .empty
      ((stranded.serviced (held [publish one [], pubrel])).replay accepting) = .ok () r ∧
    ([publish one [], pubrel].foldl (InflightWindows.trackC2b (codec true)) stranded.windows).c2b
      = r.windows.c2b := by
  obtain ⟨r, hr⟩ := establishBroker_of_serves (stranded_serves [publish one [], pubrel] (by decide))
  have hiff : ([publish one [], pubrel].foldl (InflightWindows.trackC2b (codec true))
      stranded.windows).c2b = r.windows.c2b ↔
        PublishedFirst stranded.windows [publish one [], pubrel] :=
    buffered_eq_tracked_iff rfl rfl hr
  have hfirst : PublishedFirst stranded.windows [publish one [], pubrel] := by
    unfold PublishedFirst
    decide
  exact ⟨r, hr, hiff.mpr hfirst⟩

end TrafficDirector
