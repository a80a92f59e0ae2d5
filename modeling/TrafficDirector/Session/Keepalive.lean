/-
# `TrafficDirector.Session.Keepalive` — the keepalive a client was told

A client knows the keepalive of its CONNECT, and the Server Keep Alive of the one
CONNACK that is forwarded to it.  The proxy enforces `hs.keep_alive`, which each
replay overwrites from a CONNACK the client never sees, and each hand-over takes
from the CONNECT again.  `keepAliveTold_iff` says which runs keep the two equal.
-/
import TrafficDirector.Session.Entry

namespace TrafficDirector

open Framing (Reader)

variable {c : Codec} {s s' : Session} {e : Event} {out : List Output}

/-- The step leaves the keepalive at `told`; `asked` is the CONNECT's. -/
def Event.KeepsTold (asked told : UInt16) : Event → Prop
  | .wait (some a) => a.connack.keepAliveOr told = told
  | .migrate _ _ => asked = told
  | _ => True

instance (asked told : UInt16) (e : Event) : Decidable (e.KeepsTold asked told) := by
  unfold Event.KeepsTold
  split <;> infer_instance

/-- A running session enforces this keepalive. -/
def Enforces (told : UInt16) : Outcome → Prop
  | .running s => s.hs.keepAlive = told
  | .ended _ => True

/-- The handshake is that of this CONNECT, up to the keepalive. -/
def Session.ConnectedAs (s : Session) (hs : Handshake) : Prop :=
  s.hs.connectRaw = hs.connectRaw ∧ s.hs.version = hs.version

theorem Transition.connectedAs {hs : Handshake} (h : Transition c s e s' out)
    (hc : s.ConnectedAs hs) : s'.ConnectedAs hs :=
  ⟨h.connect.1.trans hc.1, h.connect.2.trans hc.2⟩

theorem adoptSession_keepAlive {snapshot : SessionSnapshot} {id : SessionId} {now : Nat}
    (h : adoptSession c snapshot id now = .ok s') :
    Handshake.fromSnapshotVersion c snapshot.version snapshot.connectRaw = .ok s'.hs := by
  unfold adoptSession at h
  cases hhs : Handshake.fromSnapshotVersion c snapshot.version snapshot.connectRaw with
  | error e => rw [hhs] at h; exact nomatch h
  | ok hs =>
      rw [hhs] at h
      rw [← Except.ok.inj h]

/-- The keepalive after a hand-over is the one of the CONNECT. -/
theorem forwardLoop_migrate {id : SessionId} {now : Nat} {packet : MqttPacket} {rest : Bytes}
    (hscan : (c.grammar s.hs.version).scan s.hs.connectRaw = .item packet rest)
    (h : forwardLoop c (.running s) (.migrate id now) = some (.running s', out)) :
    s'.hs.keepAlive = keepAliveOf packet := by
  have hstep : forwardLoop c (.running s) (.migrate id now)
      = some (migrateSession c s id now, []) := by
    simp only [forwardLoop]
    split <;> rfl
  rw [hstep] at h
  have hmigrate := (Prod.mk.inj (Option.some.inj h)).1
  unfold migrateSession at hmigrate
  split at hmigrate
  · next s₁ hs₁ =>
      have hkeep := adoptSession_keepAlive hs₁
      rw [Outcome.running.inj hmigrate] at hkeep
      have hversion := Handshake.fromSnapshotVersion_versionByte c s.hs
      rw [hscan] at hversion
      rw [← Except.ok.inj (hversion.symm.trans hkeep)]
  · cases hmigrate

/-- What becomes of the keepalive in a step that is no hand-over. -/
theorem Transition.keepAlive (h : Transition c s e s' out) (hstay : e.migrates = false) :
    s'.hs.keepAlive = match e with
      | .wait (some a) => a.connack.keepAliveOr s.hs.keepAlive
      | _ => s.hs.keepAlive := by
  cases h with
  | idle quiet same =>
      rw [same.hs]
      split
      · exact quiet.elim
      · rfl
  | migrated => exact nomatch hstay
  | _ => rfl

/-- A session that `run_session` has started for the CONNECT `connect`, with the
broker's answer `o.answer`, enforces the keepalive that its client knows exactly
as long as no later CONNACK names another one, and is handed over only if the
client was told no other than it asked for. -/
theorem keepAliveTold_iff {version : ProtocolVersion} {connect packet : MqttPacket} {rest : Bytes}
    {client : Reader UInt8} {id : SessionId} {now : Nat} {o : Opening} {es : List Event}
    {t : Session}
    (hcodec : (c.grammar version).scan (encodeRaw c connect).toBytes = .item packet rest)
    (hcarried : keepAliveOf packet = keepAliveOf connect)
    (hstart : runSession (Handshake.ofConnect c version connect) client id now o = .ok s)
    (hrun : (sessionMachine c).run (.running s) es = some (.running t, out)) :
    (sessionMachine c).Always (Enforces (o.answer.keepAliveOr (keepAliveOf connect)))
        (.running s) es ↔
      ∀ e ∈ es, e.KeepsTold (keepAliveOf connect)
        (o.answer.keepAliveOr (keepAliveOf connect)) := by
  obtain ⟨-, rfl⟩ := runSession_eq_ok.mp hstart
  rw [← Machine.along_forall hrun]
  refine (Machine.always_iff_live (L := fun o s => o = .running s)
    (J := fun _ s => s.ConnectedAs (Handshake.ofConnect c version connect)) ?_ ?_ hrun
    rfl).trans (and_iff_right rfl)
  · rintro o e o' out s' rfl hs
    obtain ⟨s, rfl⟩ := running_of_step hs
    refine ⟨s, rfl, fun hconnected => ⟨(forwardLoop_running hs).connectedAs hconnected, ?_⟩⟩
    intro hP
    have hP : s.hs.keepAlive = _ := hP
    show s'.hs.keepAlive = _ ↔ _
    cases e with
    | migrate id now =>
        obtain ⟨hraw, hversion⟩ := hconnected
        have hscan : (c.grammar s.hs.version).scan s.hs.connectRaw = .item packet rest := by
          rw [hraw, hversion]
          exact hcodec
        rw [forwardLoop_migrate hscan hs, hcarried]
        exact Iff.rfl
    | wait result =>
        have hkeep := (forwardLoop_running hs).keepAlive rfl
        cases result with
        | none => exact iff_of_true (hkeep.trans hP) trivial
        | some a =>
            rw [hkeep]
            show a.connack.keepAliveOr s.hs.keepAlive = _ ↔ _
            rw [hP]
            exact Iff.rfl
    | _ => exact iff_of_true (((forwardLoop_running hs).keepAlive rfl).trans hP) trivial
  · rintro s hs
    rw [← Outcome.running.inj hs]
    exact ⟨rfl, rfl⟩

namespace ReferenceCodec

/-- A broker that accepts at once, with the CONNACK `ack`. -/
def opening (ack : MqttPacket) : Opening := ⟨.ok, .ok, .packet ack, .fresh [], .ok⟩

/-- The session that `run_session` starts for that client. -/
def startV5 (serverKeepalive : Option UInt16) : Except IoError Session :=
  runSession (.ofConnect (codec true) .mqtt5 connectV5) (.fresh []) 0 0
    (opening (connackV5 serverKeepalive))

end ReferenceCodec

open ReferenceCodec in
/-- An MQTT 3.1.1 session keeps its keepalive over a reconnect and a hand-over. -/
theorem keepAliveTold_v3 : ∃ s t out,
    runSession (.ofConnect (codec true) .mqtt3 connectPacket) (.fresh []) 0 0 (opening connack)
      = .ok s ∧
    (sessionMachine (codec true)).run (.running s)
      [brokerCloses, .wait (some accepting), .migrate 1 9] = some (.running t, out) ∧
    (sessionMachine (codec true)).Always (Enforces 60) (.running s)
      [brokerCloses, .wait (some accepting), .migrate 1 9] :=
  have hstart : runSession (.ofConnect (codec true) .mqtt3 connectPacket) (.fresh []) 0 0
      (opening connack) = .ok _ := rfl
  ⟨_, _, _, hstart, rfl, (keepAliveTold_iff rfl rfl hstart rfl).mpr (by decide)⟩

open ReferenceCodec in
/-- A client that was told 60 s is dropped as if it had been told 10, after a replay
whose CONNACK stays with the proxy; one that was told 10 s is given 60 after a
hand-over. -/
theorem keepalive_forgotten : (∃ s t out, startV5 none = .ok s ∧
      (sessionMachine (codec true)).run (.running s) [brokerCloses,
        .wait (some { accepting with connack := .packet (connackV5 (some 10)) })]
      = some (.running t, out) ∧ s.hs.keepAlive = 60 ∧ t.hs.keepAlive = 10) ∧
    (∃ s t out, startV5 (some 10) = .ok s ∧
      (sessionMachine (codec true)).run (.running s) [.migrate 1 9] = some (.running t, out) ∧
      s.hs.keepAlive = 10 ∧ t.hs.keepAlive = 60) :=
  ⟨⟨_, _, _, rfl, rfl, rfl, rfl⟩, ⟨_, _, _, rfl, rfl, rfl, rfl⟩⟩

end TrafficDirector
