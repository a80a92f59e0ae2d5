/-
# `TrafficDirector.Session.Survival` — what ends a session

`forwardLoop_ended` lists every reason for which a step ends a session.  All but
one are the client's or the operator's doing; the one is a replay that the broker
does not serve to its end, which `connectBroker` turns into an error of the
session instead of another retry.
-/
import TrafficDirector.Session.Retention

namespace TrafficDirector

open Framing (Reader)

variable {c : Codec} {s s' : Session} {e : Event} {out : List Output}

/-! ## Attempts -/

/-- The broker's part in a replay that succeeds. -/
structure BrokerServes (s : Session) (a : Attempt) : Prop where
  connack : a.connack.isConnack = true
  suback : s.subscriptions.entries ≠ [] → a.suback.isPacket = true
  writes : 1 + (resubscribeFrames s.hs.version s.subscriptions).length
    + s.windows.brokerRetransmits.length + s.buffer.entries.length ≤ a.brokerWrites

/-- The client's part: it takes the leftover and the retransmits. -/
def ClientServes (c : Codec) (s : Session) (a : Attempt) : Prop :=
  (s.leftoverPackets c).length + s.windows.clientRetransmits.length ≤ a.clientWrites

instance (a : Attempt) : Decidable (ClientServes c s a) := inferInstanceAs (Decidable (_ ≤ _))

theorem serves_iff {a : Attempt} : Serves c s a ↔
    (∃ raw, forceSessionResumption s.hs.connectRaw = .ok raw) ∧ BrokerServes s a ∧
      ClientServes c s a :=
  ⟨fun h => ⟨h.patched, ⟨h.connack, h.suback, h.brokerWrites⟩, h.clientWrites⟩,
    fun h => ⟨h.1, h.2.1.connack, h.2.1.suback, h.2.1.writes, h.2.2⟩⟩

/-- `s'` still has everything `s` had, but for buffered packets that were written. -/
structure Keeps (s s' : Session) (out : List Output) : Prop where
  exchanges : s'.pendingC2b = s.pendingC2b
  deliveries : s'.windows.b2c = s.windows.b2c
  subscriptions : s'.subscriptions = s.subscriptions
  buffered : ∀ entry ∈ s.buffer.entries,
    entry ∈ s'.buffer.entries ∨ .toBroker (.raw entry.raw) ∈ out

/-- The session runs on after the attempt, with everything it had. -/
def SurvivesAttempt (c : Codec) (s : Session) (a : Attempt) : Prop :=
  ∃ s' out, connectBroker c s a = (.running s', out) ∧ Keeps s s' out

theorem keeps_afterReplay (s : Session) (a : Attempt) (raw : Bytes) :
    Keeps s (s.afterReplay a) (.openBroker :: s.replayPlan c raw) where
  exchanges := (Session.pendingC2b_of_nil rfl).trans s.flushedWindows_c2b
  deliveries := by
    simp only [Session.afterReplay, Session.flushedWindows, foldl_flushWindow]
  subscriptions := rfl
  buffered entry h := by
    right
    refine List.mem_cons_of_mem _ ?_
    simp only [Session.replayPlan, List.mem_append, List.mem_map]
    exact Or.inr (Or.inr (Or.inr (Or.inr (Or.inr ⟨_, ⟨entry, h, rfl⟩, rfl⟩))))

/-- An attempt is survived exactly when it is served to its end. -/
theorem survivesAttempt_iff {a : Attempt} : SurvivesAttempt c s a ↔ Serves c s a := by
  rcases connectBroker_cases c s a with ⟨raw, _, hserves, hc⟩ | ⟨err, out, hno, _, hc⟩
  · exact ⟨fun _ => hserves, fun _ => ⟨_, _, hc, keeps_afterReplay s a raw⟩⟩
  · constructor
    · rintro ⟨s', out', h, -⟩
      exact nomatch (Prod.mk.inj (hc.symm.trans h)).1
    · exact fun h => absurd h hno

/-! ## The CONNECT of a session -/

/-- What the encoding of a CONNECT that the handshake accepted is: it decodes
again, and its flags can be patched. -/
structure Handshake.Replayable (c : Codec) (hs : Handshake) : Prop where
  patched : ∃ raw, forceSessionResumption hs.connectRaw = .ok raw
  decodes : ∃ p rest, (c.grammar hs.version).scan hs.connectRaw = .item p rest

theorem Transition.replayable (hs : s.hs.Replayable c) (h : Transition c s e s' out) :
    s'.hs.Replayable c := by
  obtain ⟨hraw, hv⟩ := h.connect
  exact ⟨by rw [hraw]; exact hs.patched, by rw [hraw, hv]; exact hs.decodes⟩

theorem adoptSession_freeze_ok (hs : s.hs.Replayable c) (fd : Int) (id : SessionId) (now : Nat) :
    ∃ s', adoptSession c (s.freeze fd).snapshot id now = .ok s' := by
  obtain ⟨p, rest, hscan⟩ := hs.decodes
  unfold adoptSession
  rw [show Handshake.fromSnapshotVersion c (s.freeze fd).snapshot.version
    (s.freeze fd).snapshot.connectRaw = .ok { s.hs with keepAlive := keepAliveOf p } from
      (Handshake.fromSnapshotVersion_versionByte c s.hs).trans (by rw [hscan])]
  exact ⟨_, rfl⟩

theorem migrateSession_running (hs : s.hs.Replayable c) (id : SessionId) (now : Nat) :
    ∃ s', migrateSession c s id now = .running s' := by
  obtain ⟨s', hs'⟩ := adoptSession_freeze_ok hs 0 id now
  exact ⟨s', by rw [migrateSession, hs']⟩

theorem run_replayable {es : List Event} {t : Session} (hs : s.hs.Replayable c)
    (h : (sessionMachine c).run (.running s) es = some (.running t, out)) : t.hs.Replayable c :=
  run_transitions (I := fun s => s.hs.Replayable c) (fun _ _ _ _ _ h ht => ht.replayable h) hs h

/-! ## The reasons -/

/-- The reasons for which a session is meant to end: a client that closes, fails
or disconnects, a full buffer, a silent client, a DISCONNECT that faults the
client, a completed hand-off. -/
inductive ListedEnd (c : Codec) (s : Session) : Event → Prop where
  | clientClosed {now : Nat} {after : Reader UInt8} {pong forward : Sent} :
      ListedEnd c s (.clientRead now .closed after pong forward)
  | clientReadError {now : Nat} {err : String} {after : Reader UInt8} {pong forward : Sent} :
      ListedEnd c s (.clientRead now (.error err) after pong forward)
  | pongError {now : Nat} {p : MqttPacket} {after : Reader UInt8} {err : String}
      {forward : Sent} (ping : p.shape = .pingRequest) :
      ListedEnd c s (.clientRead now (.packet p) after (.failed err) forward)
  | deliveryError {p : MqttPacket} {after : Reader UInt8} {err : String} :
      ListedEnd c s (.brokerRead (.packet p) after (.failed err))
  | replayClientError {a : Attempt} (client : ¬ ClientServes c s a) :
      ListedEnd c s (.wait (some a))
  | clientDisconnect {now : Nat} {p : MqttPacket} {after : Reader UInt8} {pong forward : Sent}
      (shape : p.shape = .disconnect) :
      ListedEnd c s (.clientRead now (.packet p) after pong forward)
  | bufferOverflow {now : Nat} {p : MqttPacket} {after : Reader UInt8} {pong forward : Sent}
      {entry : BufferedPublish} (held : bufferedAs c p = some entry)
      (full : outageBufferMaxBytes < s.buffer.bytes + entry.raw.len) :
      ListedEnd c s (.clientRead now (.packet p) after pong forward)
  | keepaliveExpiry {now : Nat} {notice : Sent}
      (silent : clientDeadline s.hs.keepAlive s.lastClientActivity ≤ now) :
      ListedEnd c s (.keepalive now notice)
  | brokerDisconnect {d : V5.Disconnect} {after : Reader UInt8} {forward : Sent}
      (fault : isRetryableDisconnect d.reasonCode = false) :
      ListedEnd c s (.brokerRead (.packet (.v5 (.disconnect d))) after forward)
  | handedOver {clientFd : Int} : ListedEnd c s (.freeze clientFd .dropped)

theorem answerPing_error {p : MqttPacket} {pong : Sent} {err : IoError}
    (h : answerPing p pong = .error err) :
    p.shape = .pingRequest ∧ ∃ text, pong = .failed text := by
  unfold answerPing at h
  split at h
  case h_3 => exact nomatch h
  all_goals
    cases pong with
    | ok => exact nomatch h
    | failed text => exact ⟨rfl, text, rfl⟩

variable {r : Except IoError Unit}

theorem clientPacket_ended {p : MqttPacket} {now : Nat} {after : Reader UInt8} {pong forward : Sent}
    (h : clientPacket c (s.heard now after) p pong forward = (.ended r, out)) :
    ListedEnd c s (.clientRead now (.packet p) after pong forward) := by
  unfold clientPacket at h
  split at h
  · next err herr =>
      obtain ⟨hping, text, rfl⟩ := answerPing_error herr
      exact .pongError hping
  · cases forward with
    | ok => exact nomatch (Prod.mk.inj h).1
    | failed err => exact nomatch (Prod.mk.inj h).1

theorem outagePacket_ended {p : MqttPacket} {now : Nat} {after : Reader UInt8} {pong forward : Sent}
    (h : outagePacket c (s.heard now after) p pong = (.ended r, out)) :
    ListedEnd c s (.clientRead now (.packet p) after pong forward) := by
  unfold outagePacket at h
  split at h
  · next err herr =>
      rcases serviceOutagePacket_error herr with h | ⟨h, text, rfl⟩ | ⟨entry, hentry, hfull⟩
      · exact .clientDisconnect h
      · exact .pongError h
      · exact .bufferOverflow hentry hfull
  · exact nomatch (Prod.mk.inj h).1

theorem brokerPacket_ended {p : MqttPacket} {after : Reader UInt8} {forward : Sent}
    (h : brokerPacket c s p after forward = (.ended r, out)) :
    ListedEnd c s (.brokerRead (.packet p) after forward) := by
  unfold brokerPacket at h
  split at h
  · split at h
    · exact nomatch (Prod.mk.inj h).1
    · next hd => exact .brokerDisconnect (eq_false_of_ne_true hd)
  · exact nomatch (Prod.mk.inj h).1
  · exact nomatch (Prod.mk.inj h).1
  · cases forward with
    | ok => exact nomatch (Prod.mk.inj h).1
    | failed err => exact .deliveryError

theorem commonStep_ended (hs : s.hs.Replayable c)
    (h : commonStep c s e = some (.ended r, out)) : ListedEnd c s e := by
  unfold commonStep at h
  split at h
  case h_2 => exact .clientReadError
  case h_3 => exact .clientClosed
  case h_4 clientFd reply =>
    obtain ⟨h₁, -⟩ := Prod.mk.inj (Option.some.inj h)
    cases reply with
    | dropped => exact .handedOver
    | gaveUp => exact nomatch h₁
    | resumed returned => exact nomatch h₁
  case h_5 id now =>
    obtain ⟨s', hs'⟩ := migrateSession_running hs id now
    rw [hs'] at h
    exact nomatch (Prod.mk.inj (Option.some.inj h)).1
  case h_6 now notice =>
    split at h
    · next hsilent => exact .keepaliveExpiry hsilent
    · exact nomatch h
  all_goals exact nomatch h

/-- A step ends a session for a listed reason, or because the broker did not serve
a replay to its end. -/
theorem forwardLoop_ended (hs : s.hs.Replayable c)
    (h : forwardLoop c (.running s) e = some (.ended r, out)) :
    ListedEnd c s e ∨ ∃ a, e = .wait (some a) ∧ s.broker = none ∧ ¬ BrokerServes s a := by
  simp only [forwardLoop] at h
  split at h
  · left
    unfold connectedStep at h
    split at h
    · exact clientPacket_ended (Option.some.inj h)
    · cases (Prod.mk.inj (Option.some.inj h)).1
    · exact brokerPacket_ended (Option.some.inj h)
    · cases (Prod.mk.inj (Option.some.inj h)).1
    · cases (Prod.mk.inj (Option.some.inj h)).1
    · exact commonStep_ended hs h
  · next hup =>
      have down : s.broker = none := by simpa using hup
      unfold outageStep at h
      split at h
      · exact Or.inl (outagePacket_ended (Option.some.inj h))
      · split at h
        · next a _ =>
            rcases connectBroker_cases c s a with ⟨_, _, _, hc⟩ | ⟨_, _, hno, _, _⟩
            · rw [hc] at h
              cases (Prod.mk.inj (Option.some.inj h)).1
            · by_cases hclient : ClientServes c s a
              · exact Or.inr ⟨a, rfl, down, fun hb => hno (serves_iff.mpr ⟨hs.patched, hb, hclient⟩)⟩
              · exact Or.inl (.replayClientError hclient)
        · cases (Prod.mk.inj (Option.some.inj h)).1
        · cases (Prod.mk.inj (Option.some.inj h)).1
        · cases h
      · exact Or.inl (commonStep_ended hs h)

/-- In every state a session reaches: an attempt (by a client that takes its part)
is survived exactly when the broker serves the replay to its end; and a step ends
the session only for a listed reason, or by an attempt that is not served. -/
theorem broker_failure_survived_iff {id : SessionId} {hs : Handshake}
    {client broker : Reader UInt8} {now : Nat} {es : List Event} (hreplay : hs.Replayable c)
    (hrun : (sessionMachine c).run (.running (Session.initial id hs client broker now)) es
      = some (.running s, out)) :
    (∀ a, s.broker = none → s.step = .connect → ClientServes c s a →
      (SurvivesAttempt c s a ↔ BrokerServes s a)) ∧
    ∀ e r out', forwardLoop c (.running s) e = some (.ended r, out') →
      ListedEnd c s e ∨ ∃ a, e = .wait (some a) ∧ s.broker = none ∧ ¬ BrokerServes s a := by
  have hs' : s.hs.Replayable c := run_replayable hreplay hrun
  refine ⟨fun a _ _ hclient => ?_, fun e r out' h => forwardLoop_ended hs' h⟩
  rw [survivesAttempt_iff, serves_iff]
  exact ⟨fun h => h.2.1, fun h => ⟨hs'.patched, h, hclient⟩⟩

namespace ReferenceCodec

/-- A broker that closes before its CONNACK, to a client that takes everything. -/
def closedAttempt : Attempt := ⟨9, 9, .closed, .closed, .fresh [], ""⟩

theorem handshake_replayable : handshake.Replayable (codec true) where
  patched := ⟨_, rfl⟩
  decodes := ⟨_, _, rfl⟩

end ReferenceCodec

open ReferenceCodec in
/-- The lost broker is back, and serves the attempt. -/
theorem broker_failure_survived_session : ∃ s out,
    (sessionMachine (codec true)).run (.running session) [forwarded (publish one []), brokerCloses]
      = some (.running s, out) ∧
    SurvivesAttempt (codec true) s ⟨9, 9, .packet connack, .closed, .fresh [], ""⟩ := by
  have hrun : (sessionMachine (codec true)).run (.running session)
      [forwarded (publish one []), brokerCloses] = some (.running _, _) := rfl
  refine ⟨_, _, hrun,
    ((broker_failure_survived_iff handshake_replayable hrun).1 _ rfl rfl ?_).mpr ⟨rfl, ?_, ?_⟩⟩
  · decide
  · exact fun h => absurd rfl h
  · decide

open ReferenceCodec in
/-- The broker accepts the connection and closes it before its CONNACK: the
client's session ends, with the PUBLISH in the window. -/
theorem broker_failure_ends_session : ∃ s out,
    (sessionMachine (codec true)).run (.running session) [forwarded (publish one []), brokerCloses]
      = some (.running s, out) ∧ ClientServes (codec true) s closedAttempt ∧
    ¬ SurvivesAttempt (codec true) s closedAttempt ∧
    ∃ out', forwardLoop (codec true) (.running s) (.wait (some closedAttempt)) =
      some (.ended (.error ⟨.connectionAborted, "broker closed during CONNECT replay"⟩), out') := by
  refine ⟨_, _, rfl, by decide, fun h => ?_, _, rfl⟩
  exact nomatch (survivesAttempt_iff.mp h).connack

end TrafficDirector
