/-
# `TrafficDirector.Session.Resumption` — the CONNECT that is to resume the session

A replay sends the client's CONNECT again with one bit cleared.  For the broker to
resume the session, the CONNECT has to name the client id under which the broker holds
it, and MQTT allows the bit to be clear only beside a client id that is not empty
(`Resumes`).

`connectHeader` reads a CONNECT as the standard lays it out.  The patch changes the
flags and no other field (`connectHeader_patched`), so a replay resumes the session
exactly if the client gave an id and the broker has not assigned another one
(`replay_resumes_iff`).
-/
import TrafficDirector.Session.Entry

namespace TrafficDirector

open Framing (Reader)

/-! ## The layout of a CONNECT -/

structure ConnectHeader where
  protocolName : Bytes
  level : UInt8
  flags : UInt8
  keepAlive : UInt8 × UInt8
  properties : Bytes
  clientId : Bytes
  /-- will, user name and password, as the flags say -/
  payload : Bytes
deriving DecidableEq

/-- A field with its length before it, and what follows it. -/
def readField : Bytes → Option (Bytes × Bytes)
  | hi :: lo :: b =>
      if hi.toNat * 256 + lo.toNat ≤ b.length then
        some (b.take (hi.toNat * 256 + lo.toNat), b.drop (hi.toNat * 256 + lo.toNat))
      else none
  | _ => none

/-- The properties, which MQTT 5 has. -/
def readProperties (level : UInt8) (b : Bytes) : Option (Bytes × Bytes) :=
  if level = 5 then
    match remainingLength 4 1 b with
    | some (some (n, k)) =>
        if n ≤ (b.drop k).length then some ((b.drop k).take n, (b.drop k).drop n) else none
    | _ => none
  else some ([], b)

def connectBody (b : Bytes) : Option ConnectHeader :=
  match readField b with
  | some (name, level :: flags :: hi :: lo :: b) => do
      let (properties, b) ← readProperties level b
      let (clientId, payload) ← readField b
      return ⟨name, level, flags, (hi, lo), properties, clientId, payload⟩
  | _ => none

/-- The fields of the CONNECT that a byte string is. -/
def connectHeader : Bytes → Option ConnectHeader
  | [] => none
  | first :: b =>
      if first = 0x10 then
        match remainingLength 4 1 b with
        | some (some (n, k)) => if (b.drop k).length = n then connectBody (b.drop k) else none
        | _ => none
      else none

/-- Clean Session, or Clean Start. -/
def ConnectHeader.clean (h : ConnectHeader) : Bool := decide (h.flags &&& 0x02 ≠ 0)

def utf8 (s : String) : Bytes := s.toByteArray.data.toList

/-- A broker that holds a session under `id` resumes it for this CONNECT: it asks for
that session, and not without a client id, which is an error. -/
def Resumes (id : String) (raw : Bytes) : Prop :=
  ∃ h, connectHeader raw = some h ∧ h.clean = false ∧ h.clientId = utf8 id ∧
    ¬ (h.clientId = [] ∧ h.clean = false)

/-- The client id of a CONNECT. -/
def MqttPacket.connectId : MqttPacket → Option String
  | .v3 (.connect connect) => some connect.clientId
  | .v5 (.connect connect) => some connect.clientId
  | _ => none

/-- The codec writes this CONNECT as the standard lays it out. -/
def Codec.WritesConnect (c : Codec) (connect : MqttPacket) : Prop :=
  ∃ h, connectHeader (encodeRaw c connect).toBytes = some h ∧
    connect.connectId.map utf8 = some h.clientId

/-- The Assigned Client Identifier of a CONNACK. -/
def Next.assignedClientId : Next → Option String
  | .packet (.v5 (.connectAck ack)) => ack.assignedClientId
  | _ => none

/-! ## The patch -/

variable {b raw : Bytes} {h : ConnectHeader}

theorem varintLen_of_remainingLength : ∀ (j m : Nat) (b : Bytes) (n k : Nat),
    remainingLength j m b = some (some (n, k)) → varintLen b = some k
  | 0, _, _, _, _, h => by cases h
  | _ + 1, _, [], _, _, h => by cases h
  | j + 1, m, x :: b, n, k, h => by
      rw [varintLen]
      rw [remainingLength] at h
      split at h
      · next hx =>
          rw [if_pos hx]
          cases h
          rfl
      · next hx =>
          rw [if_neg hx]
          cases hr : remainingLength j (m * 128) b with
          | none => rw [hr] at h; cases h
          | some r =>
              cases r with
              | none => rw [hr] at h; cases h
              | some r =>
                  obtain ⟨n', k'⟩ := r
                  rw [hr] at h
                  cases h
                  rw [varintLen_of_remainingLength j _ b n' k' hr]
                  rfl

theorem remainingLength_set {n k i : Nat} {x : UInt8} (h : remainingLength 4 1 b = some (some (n, k)))
    (hi : k ≤ i) : remainingLength 4 1 (b.set i x) = some (some (n, k)) := by
  rw [← List.take_append_drop k (b.set i x), List.take_set_of_le hi]
  exact remainingLength_append _ 4 1 _ _ (remainingLength_take 4 1 b n k h)

/-- Where the flags are, and what the header is with others. -/
theorem connectBody_flags (hb : connectBody b = some h) : ∃ hi lo bs,
    b = hi :: lo :: bs ∧ bs[hi.toNat * 256 + lo.toNat + 1]? = some h.flags ∧
    ∀ flags, connectBody (hi :: lo :: bs.set (hi.toNat * 256 + lo.toNat + 1) flags)
      = some { h with flags := flags } := by
  unfold connectBody at hb
  split at hb
  · next name level flags kh kl b' hfield =>
      unfold readField at hfield
      split at hfield
      · next hi lo bs =>
          split at hfield
          · next hlen =>
              obtain ⟨hname, hdrop⟩ := Prod.mk.inj (Option.some.inj hfield)
              obtain ⟨⟨properties, b₁⟩, hprops, hb⟩ := Option.bind_eq_some_iff.mp hb
              obtain ⟨⟨clientId, payload⟩, hid, hb⟩ := Option.bind_eq_some_iff.mp hb
              obtain rfl := Option.some.inj hb
              refine ⟨hi, lo, bs, rfl, ?_, ?_⟩
              · rw [← List.getElem?_drop, hdrop]
                rfl
              · intro flags'
                have hfield' : readField
                    (hi :: lo :: bs.set (hi.toNat * 256 + lo.toNat + 1) flags') =
                      some (name, level :: flags' :: kh :: kl :: b') := by
                  rw [readField, List.length_set, if_pos hlen,
                    List.take_set_of_le (Nat.le_succ _), hname, List.drop_set,
                    if_neg (Nat.not_lt.mpr (Nat.le_succ _)), hdrop, Nat.add_sub_cancel_left]
                  rfl
                rw [connectBody, hfield']
                simp only [hprops, hid, Option.bind_eq_bind, Option.bind_some]
                rfl
          · cases hfield
      · cases hfield
  · cases hb

/-- The patch clears the one bit, and leaves every other field as it is. -/
theorem connectHeader_patched (hraw : connectHeader raw = some h) :
    ∃ raw', forceSessionResumption raw = .ok raw' ∧
      connectHeader raw' = some { h with flags := h.flags &&& ~~~ 0x02 } := by
  unfold connectHeader at hraw
  split at hraw
  · cases hraw
  · next first b =>
      split at hraw
      · next hfirst =>
          split at hraw
          · next n k hlength =>
              split at hraw
              · next hn =>
                  obtain ⟨hi, lo, bs, hdrop, hflags, hset⟩ := connectBody_flags hraw
                  have hget : ∀ i, b[k + i]? = (hi :: lo :: bs)[i]? := by
                    intro i
                    rw [← List.getElem?_drop, hdrop]
                  refine ⟨(first :: b).set (k + 1 + 2 + (hi.toNat * 256 + lo.toNat) + 1)
                    (h.flags &&& ~~~ 0x02), ?_, ?_⟩
                  · have hi' : (first :: b)[k + 1]? = some hi := hget 0
                    have hlo' : (first :: b)[k + 1 + 1]? = some lo := hget 1
                    have hf' : (first :: b)[k + 1 + 2 + (hi.toNat * 256 + lo.toNat) + 1]?
                        = some h.flags := by
                      rw [List.getElem?_cons_succ]
                      rw [show k + 1 + 2 + (hi.toNat * 256 + lo.toNat)
                        = k + (hi.toNat * 256 + lo.toNat + 1 + 1 + 1) by omega, hget]
                      exact hflags
                    unfold forceSessionResumption
                    rw [List.drop_succ_cons, List.drop_zero,
                      varintLen_of_remainingLength 4 1 b n k hlength]
                    simp only [hi', hlo', hf']
                  · rw [List.set_cons_succ, connectHeader, if_pos hfirst,
                      remainingLength_set hlength (by omega)]
                    have hdrop' : (b.set (k + 1 + 2 + (hi.toNat * 256 + lo.toNat))
                        (h.flags &&& ~~~ 0x02)).drop k = hi :: lo ::
                          bs.set (hi.toNat * 256 + lo.toNat + 1) (h.flags &&& ~~~ 0x02) := by
                      rw [List.drop_set, if_neg (by omega), hdrop,
                        show k + 1 + 2 + (hi.toNat * 256 + lo.toNat) - k
                          = hi.toNat * 256 + lo.toNat + 1 + 1 + 1 by omega]
                      rfl
                    simp only
                    rw [List.length_drop, List.length_set, ← List.length_drop, if_pos hn, hdrop']
                    exact hset _
              · cases hraw
          · cases hraw
      · cases hraw

/-! ## The replay -/

theorem utf8_inj {s t : String} : utf8 s = utf8 t ↔ s = t := by
  constructor
  · intro h
    exact String.toByteArray_inj.mp (ByteArray.ext (Array.toList_inj.mp h))
  · intro h
    rw [h]

theorem utf8_eq_nil {s : String} : utf8 s = [] ↔ s = "" :=
  utf8_inj (t := "")

variable {c : Codec} {s s' : Session}

/-- The CONNECT of a session is that of its client, whatever has happened since. -/
theorem run_connectRaw {es : List Event} {out : List Output}
    (h : (sessionMachine c).run (.running s) es = some (.running s', out)) :
    s'.hs.connectRaw = s.hs.connectRaw :=
  run_transitions (I := fun t => t.hs.connectRaw = s.hs.connectRaw)
    (fun _ _ _ _ _ h ht => ht.connect.1.trans h) rfl h

theorem connect_mem_replay {a : Attempt} {o : Outcome} {out : List Output}
    (h : forwardLoop c (.running s) (.wait (some a)) = some (o, out))
    (hraw : .toBroker (.connect raw) ∈ out) : raw = patchedConnect s.hs.connectRaw := by
  obtain ⟨-, hc⟩ := forwardLoop_wait_inv h
  have hplan := connectBroker_followsPlan c s a
  rw [hc] at hplan
  have hmem := (List.mem_cons.mp (hplan.subset hraw)).resolve_left (by simp)
  simp only [Session.replayPlan, resubscribeFrames, List.mem_append, List.mem_map,
    List.mem_singleton, Output.toBroker.injEq, Frame.connect.injEq] at hmem
  rcases hmem with hmem | ⟨f, ⟨q, -, rfl⟩, h⟩ | ⟨f, -, h⟩ | ⟨f, ⟨r, -, rfl⟩, h⟩ | ⟨f, -, h⟩ |
    ⟨f, ⟨r, -, rfl⟩, h⟩
  · exact hmem
  · cases h
  · cases h
  · cases h
  · cases h
  · cases h

/-- In every replay of every run, the CONNECT written resumes the session exactly if the
client has named itself, and the broker has not named it otherwise. -/
theorem replay_resumes_iff {v : ProtocolVersion} {connect : MqttPacket} {clientId : String}
    {client : Reader UInt8} {id : SessionId} {now : Nat} {opening : Opening} {s₀ : Session}
    {es : List Event} {a : Attempt} {o : Outcome} {out out' : List Output}
    (hconnect : connect.connectId = some clientId) (hwrites : c.WritesConnect connect)
    (hstart : runSession (.ofConnect c v connect) client id now opening = .ok s₀)
    (hrun : (sessionMachine c).run (.running s₀) es = some (.running s, out))
    (hstep : forwardLoop c (.running s) (.wait (some a)) = some (o, out'))
    (hraw : .toBroker (.connect raw) ∈ out') :
    Resumes (opening.answer.assignedClientId.getD clientId) raw ↔
      clientId ≠ "" ∧ ∀ assigned ∈ opening.answer.assignedClientId, assigned = clientId := by
  obtain ⟨h, hh, hid⟩ := hwrites
  rw [hconnect] at hid
  have hid : utf8 clientId = h.clientId := Option.some.inj hid
  obtain ⟨-, rfl⟩ := runSession_eq_ok.mp hstart
  have hconnectRaw : s.hs.connectRaw = (encodeRaw c connect).toBytes := run_connectRaw hrun
  obtain ⟨raw', hforce, hpatched⟩ := connectHeader_patched hh
  obtain rfl : raw = raw' := by
    rw [connect_mem_replay hstep hraw, hconnectRaw, patchedConnect_ok hforce]
  have hclean : ({ h with flags := h.flags &&& ~~~ 0x02 } : ConnectHeader).clean = false := by
    have hbit : h.flags &&& ~~~ 0x02 &&& 0x02 = 0 := by
      rw [UInt8.and_assoc]
      exact UInt8.and_zero
    simp [ConnectHeader.clean, hbit]
  have hresumes : Resumes (opening.answer.assignedClientId.getD clientId) raw ↔
      h.clientId = utf8 (opening.answer.assignedClientId.getD clientId) ∧ h.clientId ≠ [] := by
    constructor
    · rintro ⟨h', hh', -, hid', hsound⟩
      obtain rfl := Option.some.inj (hpatched.symm.trans hh')
      exact ⟨hid', fun hnil => hsound ⟨hnil, hclean⟩⟩
    · rintro ⟨hid', hne⟩
      exact ⟨_, hpatched, hclean, hid', fun hnil => hne hnil.1⟩
  rw [hresumes, ← hid, utf8_inj, Ne, utf8_eq_nil, and_comm]
  refine and_congr_right (fun _ => ?_)
  cases opening.answer.assignedClientId with
  | none => simp
  | some assigned => simp [eq_comm]

namespace ReferenceCodec

/-- A client that leaves its id to the broker: with a clean session, it may. -/
def anonymous : MqttPacket := .v3 (.connect ⟨true, 60, ""⟩)

/-- The broker accepts, and nothing fails. -/
def welcomed : Opening := ⟨.ok, .ok, .packet connack, .fresh [], .ok⟩

/-- The session of a client with this CONNECT, when it has lost its broker. -/
def brokerLost (connect : MqttPacket) : Session :=
  (Session.initial 0 (.ofConnect (codec true) .mqtt3 connect) (.fresh []) (.fresh []) 0).loseBroker
    (.fresh [])

/-- A connection that takes the CONNECT and is closed. -/
def takesConnect : Attempt := ⟨1, 0, .closed, .closed, .fresh [], ""⟩

/-- What is written to it. -/
def replayedConnect (connect : MqttPacket) : List Output :=
  [.openBroker, .toBroker (.connect (patchedConnect (encode connect).toBytes))]

end ReferenceCodec

set_option maxRecDepth 4000 in
open ReferenceCodec in
/-- The broker is asked to resume a session under the empty client id. -/
theorem replay_resumes_nobody : ∃ s₀ o,
    runSession (.ofConnect (codec true) .mqtt3 anonymous) (.fresh []) 0 0 welcomed = .ok s₀ ∧
    welcomed.answer.accepts = true ∧
    (sessionMachine (codec true)).run (.running s₀) [brokerCloses]
      = some (.running (brokerLost anonymous), []) ∧
    forwardLoop (codec true) (.running (brokerLost anonymous)) (.wait (some takesConnect))
      = some (o, replayedConnect anonymous) ∧
    (connectHeader (patchedConnect (encode anonymous).toBytes)).map (fun h => (h.clean, h.clientId))
      = some (false, []) ∧
    ¬ Resumes "" (patchedConnect (encode anonymous).toBytes) := by
  refine ⟨_, _, rfl, rfl, rfl, rfl, rfl, ?_⟩
  rintro ⟨h, hh, hclean, -, hsound⟩
  obtain rfl := Option.some.inj hh
  exact hsound ⟨rfl, rfl⟩

set_option maxRecDepth 4000 in
open ReferenceCodec in
/-- A client that names itself. -/
theorem replay_resumes_iff_named :
    Resumes "c" (patchedConnect (encode connectPacket).toBytes) := by
  have hstart : runSession (.ofConnect (codec true) .mqtt3 connectPacket) (.fresh []) 0 0 welcomed
      = .ok _ := rfl
  have hrun : (sessionMachine (codec true)).run
      (.running (Session.initial 0 (.ofConnect (codec true) .mqtt3 connectPacket) (.fresh [])
        (.fresh []) 0)) [brokerCloses] = some (.running (brokerLost connectPacket), []) := rfl
  have hstep : forwardLoop (codec true) (.running (brokerLost connectPacket))
      (.wait (some takesConnect))
      = some (_, replayedConnect connectPacket) := rfl
  have hiff : Resumes "c" (patchedConnect (encode connectPacket).toBytes) ↔
      "c" ≠ "" ∧ ∀ assigned ∈ welcomed.answer.assignedClientId, assigned = "c" :=
    replay_resumes_iff rfl ⟨_, rfl, rfl⟩ hstart hrun hstep
      (List.mem_cons_of_mem _ List.mem_cons_self)
  exact hiff.mpr ⟨by decide, fun assigned hassigned => by cases hassigned⟩

end TrafficDirector
