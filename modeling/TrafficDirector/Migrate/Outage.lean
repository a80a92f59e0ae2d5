/-
# `TrafficDirector.Migrate.Outage` — handing over a session that has no broker

A snapshot has one place for the broker's bytes, and `handle_freeze` fills it from
the broker connection.  During an outage there is none: what was received before is
in `broker_leftover`, and stays behind (`leftoverCarried_iff`).
-/
import TrafficDirector.Migrate.Ownership
import TrafficDirector.Session.Leftover

namespace TrafficDirector

/-- A session frozen here, serialized, and adopted there. -/
def handOver (json : Json) (c : Codec) (s : Session) (clientFd : Int) (id : SessionId)
    (now : Nat) : Except IoError Session := do
  let payload ← json.toVec (s.freeze clientFd).snapshot
  let snapshot ← json.fromSlice payload
  adoptSession c snapshot id now

variable {json : Json} {c : Codec} {s s' : Session} {fd : Int} {id : SessionId} {now : Nat}

theorem handOver_eq {payload : Bytes} {snapshot : SessionSnapshot}
    (hsend : json.toVec (s.freeze fd).snapshot = .ok payload)
    (hreceive : json.fromSlice payload = .ok snapshot) :
    handOver json c s fd id now = adoptSession c snapshot id now := by
  rw [handOver, hsend]
  show (json.fromSlice payload >>= fun snapshot => adoptSession c snapshot id now) = _
  rw [hreceive]
  rfl

/-- With a faithful serialization, a hand-over is the step `migrate` of the session. -/
theorem handOver_migrates
    (hround : ∀ {s p}, json.toVec s = .ok p → json.fromSlice p = .ok s)
    (h : handOver json c s fd id now = .ok s') : migrateSession c s id now = .running s' := by
  obtain ⟨payload, hsend, h⟩ := Script.except_bind_eq_ok.mp h
  obtain ⟨snapshot, hreceive, h⟩ := Script.except_bind_eq_ok.mp h
  rw [← Except.ok.inj ((hround hsend).symm.trans hreceive)] at h
  have h : adoptSession c (s.freeze 0).snapshot id now = .ok s' := h
  rw [migrateSession, h]

/-- In an outage, the next generation starts with the undelivered broker bytes of
this one exactly when there are none; and after any number of hand-overs without a
connection in between, the packets among them are still there exactly when there
were none, or no hand-over. -/
theorem leftoverCarried_iff
    (hround : ∀ {s p}, json.toVec s = .ok p → json.fromSlice p = .ok s)
    (down : s.broker = none) :
    (∀ fd id now s', handOver json c s fd id now = .ok s' →
      (s'.brokerLeftover = s.brokerLeftover ↔ s.brokerLeftover = [])) ∧
    (∀ es u out, (sessionMachine c).run (.running s) es = some (.running u, out) →
      (∀ e ∈ es, e.opens = false) →
      (u.leftoverPackets c = s.leftoverPackets c ↔
        s.leftoverPackets c = [] ∨ es.any Event.migrates = false)) := by
  constructor
  · intro fd id now s' h
    have hmigrate := handOver_migrates hround h
    unfold migrateSession at hmigrate
    split at hmigrate
    · next s₁ hs₁ =>
        obtain ⟨keepAlive, rfl⟩ := adoptSession_freeze hs₁
        rw [← Outcome.running.inj hmigrate]
        show (s.broker.map Framing.Reader.buf).getD [] = s.brokerLeftover ↔ _
        rw [down]
        exact eq_comm
    · exact nomatch hmigrate
  · intro es u out hrun hopen
    rw [Session.leftoverPackets, Session.leftoverPackets, run_outage down hrun hopen,
      run_version hrun]
    cases es.any Event.migrates with
    | false => exact iff_of_true rfl (Or.inr rfl)
    | true =>
        show c.decodeAll s.hs.version [] = _ ↔ _
        rw [c.decodeAll_nil, or_iff_left (by decide)]
        exact eq_comm

open ReferenceCodec in
theorem snapshotJson_round {s : SessionSnapshot} {p : Bytes} (h : snapshotJson.toVec s = .ok p) :
    snapshotJson.fromSlice p = .ok s := by
  unfold snapshotJson at h ⊢
  simp only at h ⊢
  split at h
  · next hs => rw [← Except.ok.inj h, if_pos rfl, hs]
  · cases h

open ReferenceCodec in
theorem handOver_snapshotJson {t : Session} (id : SessionId) (now : Nat)
    (ht : (t.freeze 7).snapshot = (session.freeze 7).snapshot) :
    handOver snapshotJson (codec true) t 7 id now
      = adoptSession (codec true) (session.freeze 7).snapshot id now := by
  have hsend : snapshotJson.toVec (t.freeze 7).snapshot = .ok snapshotText := by
    unfold snapshotJson
    simp only [ht, if_true]
  rw [handOver_eq hsend (snapshotJson_round hsend), ht]

open ReferenceCodec in
/-- An outage with nothing left over is handed over as it is. -/
theorem leftoverCarried_idle : ∃ t s',
    (sessionMachine (codec true)).run (.running session) [brokerCloses] = some (.running t, []) ∧
    handOver snapshotJson (codec true) t 7 1 9 = .ok s' ∧ s'.brokerLeftover = t.brokerLeftover := by
  have hover := handOver_snapshotJson (t := session.loseBroker (.fresh [])) 1 9 rfl
  exact ⟨_, _, rfl, hover, ((leftoverCarried_iff snapshotJson_round rfl).1 7 1 9 _ hover).mpr rfl⟩

open ReferenceCodec in
/-- Of two PUBACKs that came in at once the second was not yet decoded when the
session was handed over.  The next generation has it; the one after has not. -/
theorem second_hand_over_drops_puback : ∃ t s',
    (sessionMachine (codec true)).run (.running session) [readTwo, .migrate 1 9]
      = some (.running t, [.toClient (.packet (puback one))]) ∧
    t.broker = none ∧ t.leftoverPackets (codec true) = [puback two] ∧
    handOver snapshotJson (codec true) t 7 2 10 = .ok s' ∧
    s'.leftoverPackets (codec true) = [] :=
  ⟨_, _, rfl, rfl, by decide, handOver_snapshotJson 2 10 rfl, rfl⟩

end TrafficDirector
