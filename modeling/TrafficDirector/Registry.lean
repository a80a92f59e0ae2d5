/-
# `TrafficDirector.Registry` — session snapshots

What a frozen session is turned into: everything the next process generation
needs to adopt it.  The client socket itself travels out of band.
-/
import TrafficDirector.Window

namespace TrafficDirector

/-- One subscription of the client, kept for the re-SUBSCRIBE. -/
structure SubscriptionEntry where
  topicFilter : String
  /-- the SUBSCRIBE options byte: QoS in bits 0-1; v5 adds no-local (bit 2),
  retain-as-published (bit 3), retain-handling (bits 4-5) -/
  options : UInt8
deriving DecidableEq

/-- A client packet held back while the broker is down. -/
structure BufferedPublish where
  packetId : UInt16
  raw : RawPacket
  qos : UInt8
deriving DecidableEq

structure SessionSnapshot where
  /-- the MQTT protocol level: 4 is v3.1.1, 5 is v5.0 -/
  version : UInt8
  connectRaw : Bytes
  clientBuf : Bytes
  brokerBuf : Bytes
  windows : List WindowEntry
  subscriptions : List SubscriptionEntry
  buffered : List BufferedPublish
deriving DecidableEq

/-- The id under which the registry knows a session. -/
abbrev SessionId := Nat

structure FrozenSession where
  id : SessionId
  snapshot : SessionSnapshot
  clientFd : Int
deriving DecidableEq

/-! ## Freezing all sessions -/

/-- The result of freezing all sessions: the collected snapshots, and the sessions
whose resume channels are still there. -/
structure FreezeBatch where
  frozen : List FrozenSession
  resumes : List SessionId
  /-- `freeze_all` adds a session to both, under its own id -/
  resumes_eq : resumes = frozen.map FrozenSession.id
  ids_nodup : resumes.Nodup
  /-- open descriptors of one process -/
  fds_nodup : (frozen.map FrozenSession.clientFd).Nodup

/-- The sessions of `frozen` that still have a resume channel, each used once. -/
def resumeEach : List SessionId → List FrozenSession → List FrozenSession
  | _, [] => []
  | resumes, session :: frozen =>
      if session.id ∈ resumes then session :: resumeEach (resumes.erase session.id) frozen
      else resumeEach resumes frozen

namespace FreezeBatch

/-- Resume all sessions but the first `sent`: these are the ones resumed. -/
def resumeSkipping (batch : FreezeBatch) (sent : Nat) : List FrozenSession :=
  resumeEach batch.resumes (batch.frozen.drop sent)

/-- Roll back the freeze. -/
def resumeAll (batch : FreezeBatch) : List FrozenSession := batch.resumeSkipping 0

end FreezeBatch

theorem resumeEach_eq {resumes : List SessionId} {frozen : List FrozenSession}
    (hmem : ∀ session ∈ frozen, session.id ∈ resumes)
    (hnodup : (frozen.map FrozenSession.id).Nodup) : resumeEach resumes frozen = frozen := by
  induction frozen generalizing resumes with
  | nil => rfl
  | cons session frozen ih =>
      obtain ⟨hfresh, hnodup⟩ := List.nodup_cons.mp hnodup
      obtain ⟨hid, hmem⟩ := List.forall_mem_cons.mp hmem
      rw [resumeEach, if_pos hid, ih _ hnodup]
      intro other hother
      have hne : other.id ≠ session.id :=
        fun h => hfresh (h ▸ List.mem_map_of_mem hother)
      exact (List.mem_erase_of_ne hne).mpr (hmem other hother)

/-- Every session has its channel. -/
theorem FreezeBatch.resumeSkipping_eq (batch : FreezeBatch) (sent : Nat) :
    batch.resumeSkipping sent = batch.frozen.drop sent := by
  have hids : (batch.frozen.map FrozenSession.id).Nodup := batch.resumes_eq ▸ batch.ids_nodup
  refine resumeEach_eq (fun session h => ?_) ?_
  · rw [batch.resumes_eq]
    exact List.mem_map_of_mem (List.mem_of_mem_drop h)
  · rw [List.map_drop]
    exact hids.sublist (List.drop_sublist _ _)

end TrafficDirector
