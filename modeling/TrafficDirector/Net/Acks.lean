/-
# `TrafficDirector.Net.Acks` — no false acknowledgement

For one packet id, the PUBLISHes and PUBACKs that are anywhere in the system are
tokens.  The invariant `Honest` says that there are few of them (`Tokens.Few`: the
message is on its way, or it is held and on at most one connection, or its PUBACK
is on its way back), that each PUBLISH is the one the client waits for, and that
no PUBACK is there before a broker has processed it.

The leftover breaks it in two ways.  The drain passes a PUBACK on and leaves the window
entry, so that the next connection gets the PUBLISH again and answers it again; and
a read buffer that has lost a header to its decoder may hold what looks like a PUBACK.
`no_false_ack` is for the runs in which neither happens.
-/
import TrafficDirector.Net.System
import TrafficDirector.ReferenceCodec

namespace TrafficDirector

open Framing (Reader)
open Resend (Stamped)

variable {c : Codec} {s s' : Session} {l : Ledger} {e : Event} {out : List Output}
  {log : List (Stamped MqttPacket)}

/-! ## Tokens -/

/-- How many of these are a QoS 1 PUBLISH with id `i`. -/
def copies (i : UInt16) (ms : List (Stamped MqttPacket)) : Nat :=
  ms.countP (fun m => qos1Id m.item = some i)

/-- How many of these are a PUBACK with id `i`. -/
def acks (i : UInt16) (ps : List MqttPacket) : Nat := ps.countP (fun p => pubackId p = some i)

def deliveredAcks (i : UInt16) (fs : List Frame) : Nat := fs.countP (fun f => f.ackId = some i)

/-- The PUBLISHes and PUBACKs of one id. -/
structure Tokens where
  /-- on the way from the client -/
  up : Nat
  /-- in the window or in the buffer -/
  held : Nat
  /-- in the buffer -/
  queued : Nat
  /-- on the way to the broker -/
  conn : Nat
  /-- on the way from the broker, or left over -/
  acks : Nat
  /-- on the way to the client -/
  client : Nat

def Tokens.total (t : Tokens) : Nat := t.up + t.held + t.queued + t.conn + t.acks + t.client

/-- There is one message under way at most, and one answer to it at most. -/
structure Tokens.Few (t : Tokens) : Prop where
  held : t.up + t.held + t.client ≤ 1
  answers : t.up + t.queued + t.conn + t.acks + t.client ≤ 1

/-- What a running session holds. -/
def Journal.held (j : Journal) : List (Stamped MqttPacket) :=
  match j.session with
  | .running _ => j.ledger.resent
  | .ended _ => []

def Journal.queued (j : Journal) : List (Stamped MqttPacket) :=
  match j.session with
  | .running _ => j.ledger.queued
  | .ended _ => []

namespace Net

def tokens (c : Codec) (n : Net) (i : UInt16) : Tokens where
  up := n.upstream.countP (fun p => qos1Id p = some i)
  held := copies i n.journal.held
  queued := copies i n.journal.queued
  conn := copies i n.toBroker
  acks := acks i (n.journal.session.leftover c) + acks i n.toProxy
  client := deliveredAcks i n.toClient

structure Honest (c : Codec) (n : Net) : Prop where
  journal : ∃ notes, n.journal.Sound c notes
  /-- a PUBLISH on its way from the client is the one it waits for -/
  sent : ∀ k p i, n.upstream[k]? = some p → qos1Id p = some i →
    n.awaiting i = some (n.journal.ledger.read.length + k)
  /-- so is one that the session holds or has sent on -/
  current : ∀ m ∈ n.journal.held ++ n.toBroker, ∀ i, qos1Id m.item = some i → n.awaiting i = some m.seq
  /-- a PUBACK on its way is for a PUBLISH that was processed -/
  earned : ∀ i, 0 < (n.tokens c i).acks + (n.tokens c i).client →
    ∃ k, n.awaiting i = some k ∧ k ∈ n.processed
  few : ∀ i, (n.tokens c i).Few

end Net

theorem copies_append (i : UInt16) (ms ms' : List (Stamped MqttPacket)) :
    copies i (ms ++ ms') = copies i ms + copies i ms' :=
  List.countP_append

theorem acks_append (i : UInt16) (ps ps' : List MqttPacket) :
    acks i (ps ++ ps') = acks i ps + acks i ps' :=
  List.countP_append

theorem deliveredAcks_append (i : UInt16) (fs fs' : List Frame) :
    deliveredAcks i (fs ++ fs') = deliveredAcks i fs + deliveredAcks i fs' :=
  List.countP_append

theorem copies_pos {i : UInt16} {ms : List (Stamped MqttPacket)} :
    0 < copies i ms ↔ ∃ m ∈ ms, qos1Id m.item = some i := by
  rw [copies, List.countP_pos_iff]
  simp

theorem deliveredAcks_packets (i : UInt16) (ps : List MqttPacket) :
    deliveredAcks i (ps.map .packet) = acks i ps := by
  rw [deliveredAcks, List.countP_map]
  rfl

theorem deliveredAcks_raws (i : UInt16) (rs : List RawPacket) :
    deliveredAcks i (rs.map .raw) = 0 := by
  rw [deliveredAcks, List.countP_map]
  exact List.countP_eq_zero.mpr (fun r _ => by simp [Frame.ackId])

theorem exchangeId_of_qos1Id {p : MqttPacket} {i : UInt16} (h : qos1Id p = some i) :
    exchangeId p = some i := by
  unfold qos1Id at h
  split at h
  · next hs => simp only [exchangeId, hs]; exact h
  · cases h

/-- A QoS 1 PUBLISH that is kept is kept under its id. -/
theorem mem_keys_of_copies {i : UInt16} (hl : l.Sound exchangeId log)
    (h : 0 < copies i l.inflight.values) : i ∈ l.inflight.keys := by
  obtain ⟨m, hm, hi⟩ := copies_pos.mp h
  obtain ⟨k, hk⟩ := OrdMap.mem_values.mp hm
  have hkey := (hl.kept k m hk).2.1
  obtain rfl := Option.some.inj (hkey.symm.trans (exchangeId_of_qos1Id hi))
  exact List.mem_map_of_mem (f := Prod.fst) (OrdMap.mem_entries_iff.mpr hk)

/-! ## What a step of the session does to the ledger -/

/-- The packet that the event reads, with its number. -/
def Ledger.arrived (l : Ledger) (e : Event) : List (Stamped MqttPacket) :=
  e.clientPacket.toList.map l.next

theorem Ledger.trackC2b_resent (l : Ledger) (p : MqttPacket) :
    (Ledger.trackC2b l p).resent.Subperm (l.next p :: l.resent) := by
  unfold Ledger.trackC2b
  split
  · exact l.keep_resent _ p
  · split
    · exact l.keep_resent _ p
    · exact List.Subperm.cons_self
  · exact List.Subperm.cons_self

theorem Ledger.service_resent (l : Ledger) (p : MqttPacket) :
    (Ledger.service c l p).resent.Subperm (l.next p :: l.resent) := by
  unfold Ledger.service
  split
  · exact l.hold_resent p
  · exact List.Subperm.cons_self

/-- Nothing new is held but the packet that was read. -/
theorem Ledger.after_resent (c : Codec) (s : Session) (l : Ledger) (e : Event) :
    (Ledger.after c s l e).resent.Subperm (Ledger.arrived l e ++ l.resent) := by
  unfold Ledger.after
  split
  · split
    · exact Ledger.trackC2b_resent l _
    · exact Ledger.service_resent l _
  · exact l.forget_resent _
  · exact l.flush_resent
  · exact (List.sublist_append_right _ _).subperm

theorem copies_after_resent (c : Codec) (s : Session) (l : Ledger) (e : Event) (i : UInt16) :
    copies i (Ledger.after c s l e).resent
      ≤ copies i (Ledger.arrived l e) + copies i l.resent := by
  rw [← copies_append]
  exact (Ledger.after_resent c s l e).countP_le _

theorem copies_after_queued (c : Codec) (s : Session) (l : Ledger) (e : Event) (i : UInt16) :
    copies i (Ledger.after c s l e).queued
      ≤ copies i l.queued + copies i (Ledger.arrived l e) := by
  rw [← copies_append]
  refine List.Sublist.countP_le ?_
  unfold Ledger.after
  split
  · split
    · rw [Ledger.trackC2b_queued]
      exact List.sublist_append_left _ _
    · unfold Ledger.service
      split
      · exact List.Sublist.refl _
      · exact List.sublist_append_left _ _
  · exact List.sublist_append_left _ _
  · exact List.nil_sublist _
  · exact List.sublist_append_left _ _

/-- A packet that is read is queued or forwarded, not both. -/
theorem copies_queued_sources {o : Outcome} (h : forwardLoop c (.running s) e = some (o, out))
    (hopen : e.opens = false) (i : UInt16) :
    copies i (Ledger.after c s l e).queued + copies i (sources (annotate c s l e out))
      ≤ copies i l.queued + copies i (Ledger.arrived l e) := by
  obtain ⟨fs, rfl | ⟨now, p, after, pong, rfl, up, rfl⟩⟩ := forwardLoop_out h (Event.not_wait hopen)
  · rw [sources_toClient c s l fs (Event.not_wait hopen)]
    exact copies_after_queued c s l e i
  · rw [sources_forwarded, Ledger.after, if_pos up, Ledger.trackC2b_queued]
    exact Nat.le_refl _

theorem copies_replay_sources (c : Codec) (s : Session) (l : Ledger) (a : Attempt)
    (out : List Output) (i : UInt16) :
    copies i (sources (annotate c s l (.wait (some a)) out)) ≤ copies i l.resent := by
  rw [← sources_replayNotes c s l]
  exact ((List.take_sublist out.length (replayNotes c s l)).filterMap Noted.source).countP_le

/-! ## What a step of the session does to the acknowledgements -/

theorem deliveredAcks_of_subset {i : UInt16} {f : Frame} {fs : List Frame} (h : fs ⊆ [f])
    (hf : f.ackId = none) : deliveredAcks i fs = 0 := by
  refine List.countP_eq_zero.mpr (fun f' hf' => ?_)
  rw [List.mem_singleton.mp (h hf'), hf]
  simp

theorem pingResponse_ackId (p : MqttPacket) : (Frame.packet p.pingResponse).ackId = none := by
  cases p <;> rfl

/-- The frames of a step to the client. -/
def toClientFrames (out : List Output) : List Frame := out.filterMap Output.toClient?

theorem toClientFrames_append (out out' : List Output) :
    toClientFrames (out ++ out') = toClientFrames out ++ toClientFrames out' :=
  List.filterMap_append

@[simp] theorem toClientFrames_map (fs : List Frame) : toClientFrames (fs.map .toClient) = fs := by
  rw [toClientFrames, List.filterMap_map]
  exact List.filterMap_some

theorem toClientFrames_map_toBroker (fs : List Frame) :
    toClientFrames (fs.map .toBroker) = [] := by
  rw [toClientFrames, List.filterMap_map]
  exact List.filterMap_eq_nil_iff.mpr (fun _ _ => rfl)

theorem toClientFrames_replayPlan (c : Codec) (s : Session) (raw : Bytes) :
    toClientFrames (.openBroker :: s.replayPlan c raw) =
      (s.leftoverPackets c).map .packet ++ s.windows.clientRetransmits.map .raw := by
  rw [← List.singleton_append]
  simp only [Session.replayPlan, toClientFrames_append, toClientFrames_map_toBroker,
    toClientFrames_map, List.append_nil]
  rfl

/-- A replay passes on the PUBACKs of the leftover and no others. -/
theorem deliveredAcks_replay (c : Codec) (s : Session) (a : Attempt) (i : UInt16) :
    deliveredAcks i (toClientFrames (connectBroker c s a).2) ≤ acks i (s.leftoverPackets c) := by
  have h := ((connectBroker_followsPlan c s a).filterMap Output.toClient?).sublist.countP_le
    (p := fun f => f.ackId = some i)
  refine Nat.le_trans h (Nat.le_of_eq ?_)
  show deliveredAcks i (toClientFrames _) = _
  rw [toClientFrames_replayPlan, deliveredAcks_append, deliveredAcks_packets, deliveredAcks_raws]
  rfl

/-- An acknowledged id has no entry left. -/
theorem copies_forget {p : MqttPacket} {i : UInt16} (hl : l.Sound exchangeId log)
    (hp : pubackId p = some i) :
    copies i (l.forget (acknowledgedId p).toList).resent ≤ copies i l.queued := by
  have hack : acknowledgedId p = some i := by
    unfold pubackId at hp
    unfold acknowledgedId
    split at hp
    · next hs => simp only [hs]; exact hp
    · exact nomatch hp
  have hnone : copies i (l.forget (acknowledgedId p).toList).inflight.values = 0 := by
    by_contra hpos
    have hmem := mem_keys_of_copies (hl.forget _) (Nat.pos_of_ne_zero hpos)
    rw [hack] at hmem
    exact (OrdMap.mem_keys_eraseAll.mp hmem).1 List.mem_cons_self
  show copies i (_ ++ l.queued) ≤ _
  rw [copies_append, hnone]
  exact Nat.le_of_eq (Nat.zero_add _)

/-! ## One step of the session -/

/-- `n'` is `n` after its session `s` has taken the event `e` to `o`. -/
structure Net.Took (c : Codec) (n : Net) (s : Session) (e : Event) (o : Outcome)
    (out : List Output) (n' : Net) : Prop where
  session : n.journal.session = .running s
  step : forwardLoop c (.running s) e = some (o, out)
  arrives : n.arrives e = true
  result : n' = n.advance e ⟨o, Ledger.after c s n.journal.ledger e⟩
    (annotate c s n.journal.ledger e out)

theorem Net.sessionStep_took {n n' : Net} (h : n.sessionStep c e = some n') :
    ∃ s o out, n.Took c s e o out n' := by
  unfold Net.sessionStep at h
  split at h
  · next harr =>
      split at h
      · next j notes hj =>
          obtain ⟨s, o, out, hs, hstep, rfl, rfl⟩ := journalStep_eq_some.mp hj
          exact ⟨s, o, out, hs, hstep, harr, (Option.some.inj h).symm⟩
      · exact nomatch h
  · exact nomatch h

variable {n n' : Net} {o : Outcome}

theorem Net.upstream_eq (h : n.arrives e = true) : n.upstream = e.clientPacket.toList ++
    (if e.clientPacket.isSome then n.upstream.tail else n.upstream) := by
  have harr := (Bool.and_eq_true_iff.mp h).1
  cases hp : e.clientPacket with
  | none => rfl
  | some p =>
      rw [hp] at harr
      have hhead : n.upstream.head? = some p := of_decide_eq_true harr
      obtain ⟨rest, hrest⟩ := List.head?_eq_some_iff.mp hhead
      rw [hrest]
      rfl

theorem Net.toProxy_eq (h : n.arrives e = true) :
    n.toProxy = e.brokerPacket.toList ++ n.unread e := by
  have harr := (Bool.and_eq_true_iff.mp h).2
  unfold Net.unread
  cases hp : e.brokerPacket with
  | none => rfl
  | some p =>
      rw [hp] at harr
      have hhead : n.toProxy.head? = some p := of_decide_eq_true harr
      obtain ⟨rest, hrest⟩ := List.head?_eq_some_iff.mp hhead
      rw [hrest]
      rfl

/-- The read buffer that outlives its connection, if the event takes one away. -/
def Session.kept (s : Session) : Event → Option Bytes
  | .brokerRead (.error _) after _ | .brokerRead .closed after _ => some after.buf
  | .brokerRead (.packet (.v5 (.disconnect d))) after _ =>
      if isRetryableDisconnect d.reasonCode then some after.buf else none
  | .migrate _ _ => s.broker.map Reader.buf
  | _ => none

/-- The PUBACKs in a read buffer that is kept are among those that the broker has sent on
that connection and the session has not read. -/
def Net.KeepsSentAcks (c : Codec) (n : Net) (e : NetEvent) : Prop :=
  match e, n.journal.session with
  | .session e, .running s => ∀ buf ∈ s.kept e,
      ((c.decodeAll s.hs.version buf).filterMap pubackId).Subperm ((n.unread e).filterMap pubackId)
  | _, _ => True

instance (n : Net) (e : NetEvent) : Decidable (n.KeepsSentAcks c e) := by
  unfold Net.KeepsSentAcks
  split <;> infer_instance

theorem acks_eq_count (i : UInt16) (ps : List MqttPacket) :
    acks i ps = (ps.filterMap pubackId).count i := by
  rw [acks, List.count_filterMap]
  refine List.countP_congr ?_
  intro p _
  rw [decide_eq_true_iff, beq_iff_eq]

theorem Net.KeepsSentAcks.le (h : n.KeepsSentAcks c (.session e)) (hj : n.journal.session = .running s)
    {buf : Bytes} (hbuf : s.kept e = some buf) (i : UInt16) :
    acks i (c.decodeAll s.hs.version buf) ≤ acks i (n.unread e) := by
  unfold Net.KeepsSentAcks at h
  rw [hj] at h
  rw [acks_eq_count, acks_eq_count]
  exact (h buf hbuf).count_le i

/-- A connection that is lost leaves the buffer of its reader. -/
theorem kept_of_lost {next : Next} {after : Reader UInt8} {forward : Sent}
    (hstep : forwardLoop c (.running s) (.brokerRead next after forward)
      = some (.running (s.loseBroker after), out)) :
    s.kept (.brokerRead next after forward) = some after.buf := by
  cases next with
  | error e => rfl
  | closed => rfl
  | packet p =>
      simp only [forwardLoop] at hstep
      split at hstep
      · have hlost : (brokerPacket c s p after forward).1 = .running (s.loseBroker after) :=
          congrArg Prod.fst (Option.some.inj hstep)
        unfold brokerPacket at hlost
        split at hlost
        · next d =>
            split at hlost
            · next hretry => exact if_pos hretry
            · split at hlost
              · cases hlost
              · cases hlost
        · cases congrArg Session.broker (Outcome.running.inj hlost)
        · cases congrArg Session.broker (Outcome.running.inj hlost)
        · dsimp only at hlost
          split at hlost
          · cases congrArg Session.broker (Outcome.running.inj hlost)
          · cases hlost
      · cases hstep

theorem Session.leftoverPackets_nil (h : s.brokerLeftover = []) : s.leftoverPackets c = [] := by
  rw [leftoverPackets, h, Codec.decodeAll_nil]

/-- No step but a replay passes on an acknowledgement that it has not read. -/
theorem deliveredAcks_step (hstep : forwardLoop c (.running s) e = some (o, out))
    (hopen : e.opens = false) (i : UInt16) :
    deliveredAcks i (toClientFrames out) ≤ acks i e.brokerPacket.toList := by
  cases o with
  | ended r =>
      rcases forwardLoop_ended_out hstep (Event.not_wait hopen) with ⟨p, hp, rfl⟩ | ⟨fs, hfs, rfl⟩
      · rw [hp]
        exact Nat.le_of_eq (deliveredAcks_packets i [p])
      · rw [toClientFrames_map, deliveredAcks_of_subset hfs rfl]
        exact Nat.zero_le _
  | running s' =>
      cases forwardLoop_running hstep with
      | @forwarded now p after pong pongs up answered =>
          obtain ⟨fs, hfs, rfl⟩ := answerPing_toClient answered
          rw [toClientFrames_append, toClientFrames_map,
            show toClientFrames [.toBroker (.packet p)] = [] from rfl, List.append_nil,
            deliveredAcks_of_subset hfs (pingResponse_ackId p)]
          exact Nat.zero_le _
      | @unsent now p after pong err pongs up answered =>
          obtain ⟨fs, hfs, rfl⟩ := answerPing_toClient answered
          rw [toClientFrames_map, deliveredAcks_of_subset hfs (pingResponse_ackId p)]
          exact Nat.zero_le _
      | @held now p after pong forward v down serviced =>
          obtain ⟨fs, hfs, hout⟩ := serviceOutagePacket_out serviced
          rw [hout, List.nil_append, toClientFrames_map,
            deliveredAcks_of_subset hfs (pingResponse_ackId p)]
          exact Nat.zero_le _
      | @delivered p after up passedOn => exact Nat.le_of_eq (deliveredAcks_packets i [p])
      | replayed down patched serves => exact nomatch hopen
      | _ => exact Nat.zero_le _

/-- What is left of a connection, or still on it, was on it or left over before. -/
theorem Net.leftover_flow (hj : n.journal.session = .running s)
    (hstep : forwardLoop c (.running s) e = some (o, out)) (hopen : e.opens = false)
    (hkeeps : n.KeepsSentAcks c (.session e)) (i : UInt16) :
    acks i (o.leftover c) + acks i (if o.connected then n.unread e else [])
      ≤ acks i (s.leftoverPackets c) + acks i (n.unread e) := by
  have hunread : acks i (if o.connected then n.unread e else []) ≤ acks i (n.unread e) := by
    split
    · exact Nat.le_refl _
    · exact Nat.zero_le _
  cases o with
  | ended r => exact Nat.zero_le _
  | running s' =>
      -- a connection that goes leaves what it brought; else nothing is left anew
      have hleft : s'.leftoverPackets c = s.leftoverPackets c ∨ s'.leftoverPackets c = [] ∨
          ((Outcome.running s').connected = false ∧ ∃ buf, s.kept e = some buf ∧
            s'.leftoverPackets c = c.decodeAll s.hs.version buf) := by
        cases forwardLoop_running hstep with
        | idle quiet same =>
            rw [Session.leftoverPackets, same.hs, same.brokerLeftover]
            exact Or.inl rfl
        | @lost next after forward up quiet =>
            exact Or.inr (Or.inr ⟨rfl, after.buf, kept_of_lost hstep, rfl⟩)
        | replayed down patched serves => cases hopen
        | migrated id now keepAlive =>
            cases hb : s.broker with
            | none =>
                refine Or.inr (Or.inl (Session.leftoverPackets_nil ?_))
                rw [Session.adopted, hb]
                rfl
            | some b =>
                refine Or.inr (Or.inr ⟨rfl, b.buf, ?_, ?_⟩)
                · rw [Session.kept, hb]
                  rfl
                · rw [Session.leftoverPackets, Session.adopted, hb]
                  rfl
        | _ => exact Or.inl rfl
      show acks i (s'.leftoverPackets c) + _ ≤ _
      rcases hleft with h | h | ⟨hdown, buf, hbuf, h⟩
      · rw [h]
        omega
      · rw [h]
        show 0 + _ ≤ _
        omega
      · have hle := hkeeps.le hj hbuf i
        have hgone : acks i (if (Outcome.running s').connected then n.unread e else []) = 0 := by
          rw [hdown]
          rfl
        rw [h]
        omega

/-- A PUBACK that is passed on clears its window entry. -/
theorem copies_after_delivered (hl : l.Sound exchangeId log)
    (hstep : forwardLoop c (.running s) e = some (o, out)) (hopen : e.opens = false) {i : UInt16}
    (hpos : 0 < deliveredAcks i (toClientFrames out)) :
    copies i (Journal.held ⟨o, Ledger.after c s l e⟩) ≤ copies i l.queued := by
  cases o with
  | ended r => exact Nat.zero_le _
  | running s' =>
      have hread := Nat.lt_of_lt_of_le hpos (deliveredAcks_step hstep hopen i)
      cases hp : e.brokerPacket with
      | none =>
          rw [hp] at hread
          exact absurd hread (Nat.lt_irrefl 0)
      | some p =>
          obtain ⟨after, forward, rfl⟩ := Event.eq_brokerRead hp
          have hack : pubackId p = some i := by
            by_contra hne
            rw [hp] at hread
            simp [acks, hne] at hread
          exact copies_forget hl hack

theorem copies_if_le (i : UInt16) (b : Bool) (ms : List (Stamped MqttPacket)) :
    copies i (if b then ms else []) ≤ copies i ms := by
  split
  · exact Nat.le_refl _
  · exact Nat.zero_le _

/-! The tokens after a step of the session, one kind at a time. -/

namespace Net.Took

variable (h : n.Took c s e o out n')

include h

theorem up (i : UInt16) : (n.tokens c i).up =
    copies i (Ledger.arrived n.journal.ledger e) + (n'.tokens c i).up := by
  rw [h.result]
  show n.upstream.countP (fun p => qos1Id p = some i) = _
  conv => lhs; rw [Net.upstream_eq h.arrives]
  rw [List.countP_append, copies, Ledger.arrived, List.countP_map]
  rfl

theorem held_eq (i : UInt16) : (n.tokens c i).held = copies i n.journal.ledger.resent := by
  simp only [Net.tokens, Journal.held, h.session]

theorem queued_eq (i : UInt16) : (n.tokens c i).queued = copies i n.journal.ledger.queued := by
  simp only [Net.tokens, Journal.queued, h.session]

theorem acks_eq (i : UInt16) :
    (n.tokens c i).acks = acks i (s.leftoverPackets c) + acks i n.toProxy := by
  simp only [Net.tokens, Outcome.leftover, h.session]

theorem held (i : UInt16) : (n'.tokens c i).held
    ≤ copies i (Ledger.arrived n.journal.ledger e) + (n.tokens c i).held := by
  rw [h.held_eq, h.result]
  cases o with
  | ended r => exact Nat.zero_le _
  | running s' => exact copies_after_resent c s n.journal.ledger e i

theorem queued (i : UInt16) : (n'.tokens c i).queued
    ≤ copies i (Ledger.after c s n.journal.ledger e).queued := by
  rw [h.result]
  cases o with
  | ended r => exact Nat.zero_le _
  | running s' => exact Nat.le_refl _

theorem conn (hopen : e.opens = false) (i : UInt16) : (n'.tokens c i).conn
    ≤ (n.tokens c i).conn + copies i (sources (annotate c s n.journal.ledger e out)) := by
  rw [h.result]
  show copies i (if o.connected then (if e.opens then [] else n.toBroker) ++ _ else []) ≤ _
  refine Nat.le_trans (copies_if_le i _ _) ?_
  rw [hopen, copies_append]
  exact Nat.le_refl _

theorem acks (hopen : e.opens = false) (i : UInt16) : (n'.tokens c i).acks =
    TrafficDirector.acks i (o.leftover c)
      + TrafficDirector.acks i (if o.connected then n.unread e else []) := by
  rw [h.result]
  show _ + TrafficDirector.acks i (if o.connected && !e.opens then n.unread e else []) = _
  rw [hopen, Bool.not_false, Bool.and_true]
  rfl

theorem client (hm : Ledger.Matches c s n.journal.ledger) (i : UInt16) : (n'.tokens c i).client =
    (n.tokens c i).client + deliveredAcks i (toClientFrames out) := by
  rw [h.result]
  show deliveredAcks i (n.toClient ++ List.filterMap _ _) = _
  rw [annotate_out hm h.step, deliveredAcks_append]
  rfl

/-- A step of the session, a replay apart, keeps the tokens few. -/
theorem few {log : List (Stamped MqttPacket)} (hm : Ledger.Matches c s n.journal.ledger)
    (hl : n.journal.ledger.Sound exchangeId log) (hopen : e.opens = false)
    (hkeeps : n.KeepsSentAcks c (.session e)) {i : UInt16} (hfew : (n.tokens c i).Few) :
    (n'.tokens c i).Few ∧
      (n'.tokens c i).acks + (n'.tokens c i).client ≤ (n.tokens c i).acks + (n.tokens c i).client := by
  have hup := h.up i
  have hheld := h.held i
  have hqueued := h.queued i
  have hconn := h.conn hopen i
  have hacks := h.acks hopen i
  have hclient := h.client hm i
  have hsources := copies_queued_sources (l := n.journal.ledger) h.step hopen i
  have hread := deliveredAcks_step h.step hopen i
  have hleft := Net.leftover_flow h.session h.step hopen hkeeps i
  have hproxy : TrafficDirector.acks i n.toProxy =
      TrafficDirector.acks i e.brokerPacket.toList + TrafficDirector.acks i (n.unread e) := by
    rw [← acks_append, ← Net.toProxy_eq h.arrives]
  have hacks₀ := h.acks_eq i
  have hqueued₀ := h.queued_eq i
  have hclear : 0 < deliveredAcks i (toClientFrames out) →
      (n'.tokens c i).held ≤ copies i n.journal.ledger.queued := by
    rw [h.result]
    exact copies_after_delivered hl h.step hopen
  obtain ⟨hfew₁, hfew₂⟩ := hfew
  refine ⟨⟨?_, ?_⟩, ?_⟩
  · rcases Nat.eq_zero_or_pos (deliveredAcks i (toClientFrames out)) with hzero | hpos
    · omega
    · have := hclear hpos
      omega
  · omega
  · omega

/-- A replay whose leftover has no PUBACK for the window keeps the tokens few. -/
theorem few_replay {log : List (Stamped MqttPacket)} {a : Attempt}
    (hm : Ledger.Matches c s n.journal.ledger) (hl : n.journal.ledger.Sound exchangeId log)
    (he : e = .wait (some a)) {i : UInt16}
    (hclear : ∀ p ∈ s.leftoverPackets c, pubackId p = some i → i ∉ s.windows.c2b.keys)
    (hfew : (n.tokens c i).Few) : (n'.tokens c i).Few ∧
      (n'.tokens c i).acks + (n'.tokens c i).client ≤ (n.tokens c i).acks + (n.tokens c i).client := by
  subst he
  obtain ⟨-, hconnect⟩ := forwardLoop_wait_inv h.step
  have hup : (n.tokens c i).up = 0 + (n'.tokens c i).up := h.up i
  have hheld : (n'.tokens c i).held ≤ 0 + (n.tokens c i).held := h.held i
  have hqueued : (n'.tokens c i).queued ≤ 0 := h.queued i
  have hconn : (n'.tokens c i).conn ≤ copies i n.journal.ledger.resent := by
    rw [h.result]
    show copies i (if o.connected then [] ++ _ else []) ≤ _
    exact Nat.le_trans (copies_if_le i _ _) (copies_replay_sources c s n.journal.ledger a out i)
  have hacks : (n'.tokens c i).acks = 0 := by
    have hleft : o.leftover c = [] := by
      rcases connectBroker_cases c s a with ⟨raw, -, -, hc⟩ | ⟨err, out', -, -, hc⟩
      · rw [← (Prod.mk.inj (hc.symm.trans hconnect)).1]
        exact Session.leftoverPackets_nil rfl
      · rw [← (Prod.mk.inj (hc.symm.trans hconnect)).1]
        rfl
    rw [h.result]
    show TrafficDirector.acks i (o.leftover c)
      + TrafficDirector.acks i (if o.connected && false then _ else []) = 0
    rw [hleft, Bool.and_false]
    rfl
  have hclient := h.client hm i
  have hpass : deliveredAcks i (toClientFrames out)
      ≤ TrafficDirector.acks i (s.leftoverPackets c) := by
    have hle := deliveredAcks_replay c s a i
    rw [hconnect] at hle
    exact hle
  have hacks₀ := h.acks_eq i
  have hqueued₀ := h.queued_eq i
  have hheld₀ := h.held_eq i
  have hresent : copies i n.journal.ledger.resent
      = copies i n.journal.ledger.inflight.values + copies i n.journal.ledger.queued :=
    copies_append i _ _
  obtain ⟨hfew₁, hfew₂⟩ := hfew
  rcases Nat.eq_zero_or_pos (TrafficDirector.acks i (s.leftoverPackets c)) with hzero | hpos
  · exact ⟨⟨by omega, by omega⟩, by omega⟩
  · -- the PUBACK of the leftover is for nothing in the window
    have hwindow : copies i n.journal.ledger.inflight.values = 0 := by
      by_contra hne
      obtain ⟨p, hp, hack⟩ := List.countP_pos_iff.mp hpos
      refine hclear p hp (of_decide_eq_true hack) ?_
      rw [hm.window, OrdMap.keys_map]
      exact mem_keys_of_copies hl (Nat.pos_of_ne_zero hne)
    exact ⟨⟨by omega, by omega⟩, by omega⟩

end Net.Took

/-! ## Every step -/

theorem sources_annotate_subset {m : Stamped MqttPacket}
    (h : m ∈ sources (annotate c s l e out)) : m ∈ Ledger.arrived l e ++ l.resent := by
  unfold annotate at h
  split at h
  · obtain ⟨note, hnote, hm⟩ := List.mem_filterMap.mp h
    obtain ⟨o, -, rfl⟩ := List.mem_map.mp hnote
    cases o with
    | toBroker f =>
        rw [← Option.some.inj hm]
        exact List.mem_cons_self
    | _ => exact nomatch hm
  · have hsub : sources ((replayNotes c s l).take out.length) ⊆ l.resent := by
      rw [← sources_replayNotes c s l]
      exact ((List.take_sublist _ _).filterMap Noted.source).subset
    exact List.mem_append_right _ (hsub h)
  · rw [sources_own] at h
    exact absurd h List.not_mem_nil

theorem Net.Took.mem_held {n n' : Net} (h : n.Took c s e o out n') {m : Stamped MqttPacket}
    (hm : m ∈ n'.journal.held) : m ∈ Ledger.arrived n.journal.ledger e ++ n.journal.held := by
  have hheld : n.journal.held = n.journal.ledger.resent := by
    simp only [Journal.held, h.session]
  rw [hheld]
  rw [h.result] at hm
  cases o with
  | ended r => exact absurd hm List.not_mem_nil
  | running s' => exact (Ledger.after_resent c s n.journal.ledger e).subset hm

theorem Net.Took.mem_toBroker {n n' : Net} (h : n.Took c s e o out n') {m : Stamped MqttPacket}
    (hm : m ∈ n'.toBroker) :
    m ∈ n.toBroker ∨ m ∈ Ledger.arrived n.journal.ledger e ++ n.journal.held := by
  have hheld : n.journal.held = n.journal.ledger.resent := by
    simp only [Journal.held, h.session]
  rw [hheld]
  rw [h.result] at hm
  have hm : m ∈ if o.connected then (if e.opens then [] else n.toBroker)
      ++ sources (annotate c s n.journal.ledger e out) else [] := hm
  split at hm
  · rcases List.mem_append.mp hm with hm | hm
    · split at hm
      · exact absurd hm List.not_mem_nil
      · exact Or.inl hm
    · exact Or.inr (sources_annotate_subset hm)
  · exact absurd hm List.not_mem_nil

/-- The replay passes on no PUBACK of the leftover whose id is in the window. -/
def Net.DrainsNoOpenAck (c : Codec) (n : Net) (e : NetEvent) : Prop :=
  match e, n.journal.session with
  | .session (.wait (some _)), .running s =>
      ∀ p ∈ s.leftoverPackets c, ∀ i ∈ pubackId p, i ∉ s.windows.c2b.keys
  | _, _ => True

instance (n : Net) (e : NetEvent) : Decidable (n.DrainsNoOpenAck c e) := by
  unfold Net.DrainsNoOpenAck
  split
  -- along the lists, not over all ids
  · exact @List.decidableBAll _ _ (fun p => Option.decidableForallMem (pubackId p)) _
  · infer_instance

/-- A step that drains no PUBACK of an open exchange, and keeps none that was not sent. -/
def Net.Harmless (c : Codec) (n : Net) (e : NetEvent) : Prop :=
  n.DrainsNoOpenAck c e ∧ n.KeepsSentAcks c e

instance (n : Net) (e : NetEvent) : Decidable (n.Harmless c e) :=
  inferInstanceAs (Decidable (_ ∧ _))

theorem Net.Honest.session {n n' : Net} (h : n.Honest c) (htook : n.Took c s e o out n')
    (hharmless : n.Harmless c (.session e)) : n'.Honest c := by
  obtain ⟨hdrain, hkeeps⟩ := hharmless
  obtain ⟨notes, hj⟩ := h.journal
  have hm := hj.consistent s htook.session
  have hl := hj.ledger s htook.session
  have hfew : ∀ i, (n'.tokens c i).Few ∧ (n'.tokens c i).acks + (n'.tokens c i).client
      ≤ (n.tokens c i).acks + (n.tokens c i).client := by
    intro i
    cases hopen : e.opens with
    | false => exact htook.few hm hl hopen hkeeps (h.few i)
    | true =>
        obtain ⟨a, rfl⟩ : ∃ a, e = .wait (some a) := by
          unfold Event.opens at hopen
          split at hopen
          · exact ⟨_, rfl⟩
          · exact nomatch hopen
        unfold Net.DrainsNoOpenAck at hdrain
        rw [htook.session] at hdrain
        exact htook.few_replay hm hl rfl (fun p hp => hdrain p hp i) (h.few i)
  have hawait : n'.awaiting = n.awaiting := by rw [htook.result]; rfl
  have hprocessed : n'.processed = n.processed := by rw [htook.result]; rfl
  have hread : n'.journal.ledger.read = n.journal.ledger.read ++ e.clientPacket.toList := by
    rw [htook.result]
    exact Ledger.after_read c s n.journal.ledger e
  have hup : n.upstream = e.clientPacket.toList ++ n'.upstream := by
    rw [htook.result]
    exact Net.upstream_eq htook.arrives
  have harrived : ∀ m ∈ Ledger.arrived n.journal.ledger e, ∀ i, qos1Id m.item = some i →
      n.awaiting i = some m.seq := by
    intro m hmem i hi
    obtain ⟨p, hp, rfl⟩ := List.mem_map.mp hmem
    have hhead : n.upstream[0]? = some p := by
      rw [hup, Option.mem_toList.mp hp]
      rfl
    exact h.sent 0 p i hhead hi
  refine ⟨⟨notes ++ annotate c s n.journal.ledger e out, ?_⟩, ?_, ?_, ?_, fun i => (hfew i).1⟩
  · rw [htook.result]
    exact hj.step (journalStep_eq_some.mpr ⟨s, o, out, htook.session, htook.step, rfl, rfl⟩)
  · intro k p i hk hi
    rw [hawait, hread, List.length_append]
    have hk' : n.upstream[e.clientPacket.toList.length + k]? = some p := by
      rw [hup, List.getElem?_append_right (Nat.le_add_right _ _), Nat.add_sub_cancel_left]
      exact hk
    rw [h.sent _ p i hk' hi, Nat.add_assoc]
  · intro m hmem i hi
    rw [hawait]
    have hknown : ∀ m ∈ Ledger.arrived n.journal.ledger e ++ n.journal.held,
        qos1Id m.item = some i → n.awaiting i = some m.seq := by
      intro m hm hi
      rcases List.mem_append.mp hm with hm | hm
      · exact harrived m hm i hi
      · exact h.current m (List.mem_append_left _ hm) i hi
    rcases List.mem_append.mp hmem with hmem | hmem
    · exact hknown m (htook.mem_held hmem) hi
    · rcases htook.mem_toBroker hmem with hmem | hmem
      · exact h.current m (List.mem_append_right _ hmem) i hi
      · exact hknown m hmem hi
  · intro i hpos
    rw [hawait, hprocessed]
    exact h.earned i (Nat.lt_of_lt_of_le hpos (hfew i).2)

theorem Journal.queued_subset (j : Journal) : j.queued ⊆ j.held := by
  obtain ⟨session, ledger⟩ := j
  cases session with
  | running s => exact List.subset_append_right _ _
  | ended r => exact List.Subset.refl _

/-- Nothing is under way for an id without an outstanding PUBACK. -/
theorem Net.Honest.total_eq_zero {n : Net} (h : n.Honest c) {i : UInt16}
    (hi : n.awaiting i = none) : (n.tokens c i).total = 0 := by
  have hup : (n.tokens c i).up = 0 := by
    refine List.countP_eq_zero.mpr (fun p hp hq => ?_)
    obtain ⟨k, hk⟩ := List.getElem?_of_mem hp
    exact nomatch hi.symm.trans (h.sent k p i hk (of_decide_eq_true hq))
  have hnone : ∀ ms ⊆ n.journal.held ++ n.toBroker, copies i ms = 0 := by
    intro ms hms
    by_contra hpos
    obtain ⟨m, hm, hq⟩ := copies_pos.mp (Nat.pos_of_ne_zero hpos)
    exact nomatch hi.symm.trans (h.current m (hms hm) i hq)
  have hheld : (n.tokens c i).held = 0 := hnone _ (List.subset_append_left _ _)
  have hqueued : (n.tokens c i).queued = 0 :=
    hnone _ (List.subset_append_of_subset_left _ n.journal.queued_subset)
  have hconn : (n.tokens c i).conn = 0 := hnone _ (List.subset_append_right _ _)
  have hacks : (n.tokens c i).acks + (n.tokens c i).client = 0 := by
    by_contra hpos
    obtain ⟨k, hk, -⟩ := h.earned i (Nat.pos_of_ne_zero hpos)
    exact nomatch hi.symm.trans hk
  unfold Tokens.total
  omega

theorem publishId_of_qos1Id {p : MqttPacket} {i : UInt16} (h : qos1Id p = some i) :
    publishId p = some i := by
  unfold qos1Id at h
  split at h
  · next hs => simp only [publishId, hs]; exact h
  · exact nomatch h

theorem Net.await_of_ne {n : Net} {i : UInt16} {j : Option UInt16} (h : j ≠ some i)
    (seq : Option Nat) : n.await j seq i = n.awaiting i := by
  unfold Net.await
  split
  · next j' => exact Function.update_of_ne (fun e => h (congrArg some e.symm)) _ _
  · rfl

theorem Net.await_self (n : Net) (i : UInt16) (seq : Option Nat) :
    n.await (some i) seq i = seq :=
  Function.update_self _ _ _

theorem Net.Honest.send {n : Net} (h : n.Honest c) {p : MqttPacket} (hmay : n.maySend p = true) :
    Net.Honest c { n with
      upstream := n.upstream ++ [p]
      awaiting := n.await (qos1Id p) (some n.nextSeq) } := by
  have hfree : ∀ i, qos1Id p = some i → n.awaiting i = none := by
    intro i hi
    unfold Net.maySend at hmay
    rw [publishId_of_qos1Id hi] at hmay
    exact Option.isNone_iff_eq_none.mp hmay
  have hawait : ∀ i k, n.awaiting i = some k → n.await (qos1Id p) (some n.nextSeq) i = some k := by
    intro i k hk
    rw [Net.await_of_ne (fun hi => nomatch (hfree i hi).symm.trans hk), hk]
  refine ⟨h.journal, ?_, ?_, ?_, ?_⟩
  · intro k q i hk hi
    rcases Nat.lt_or_ge k n.upstream.length with hlt | hge
    · have hk : (n.upstream ++ [p])[k]? = some q := hk
      rw [List.getElem?_append_left hlt] at hk
      exact hawait i _ (h.sent k q i hk hi)
    · have hk : (n.upstream ++ [p])[k]? = some q := hk
      rw [List.getElem?_append_right hge] at hk
      obtain ⟨hzero, hq⟩ : k - n.upstream.length = 0 ∧ p = q := by
        rcases hsub : k - n.upstream.length with _ | d
        · rw [hsub] at hk
          exact ⟨rfl, Option.some.inj hk⟩
        · rw [hsub] at hk
          exact nomatch hk
      subst hq
      show n.await (qos1Id p) (some n.nextSeq) i = _
      rw [hi, Net.await_self, Net.nextSeq, Nat.le_antisymm (Nat.le_of_sub_eq_zero hzero) hge]
  · intro m hm i hi
    exact hawait i _ (h.current m hm i hi)
  · intro i hpos
    obtain ⟨k, hk, hmem⟩ := h.earned i hpos
    exact ⟨k, hawait i k hk, hmem⟩
  · intro i
    have hup : (n.upstream ++ [p]).countP (fun p => qos1Id p = some i) =
        (n.tokens c i).up + [p].countP (fun p => qos1Id p = some i) := List.countP_append
    obtain ⟨hheld, hanswers⟩ := h.few i
    by_cases hi : qos1Id p = some i
    · have hzero := h.total_eq_zero (hfree i hi)
      have hone : [p].countP (fun p => qos1Id p = some i) = 1 := by simp [hi]
      unfold Tokens.total at hzero
      refine ⟨?_, ?_⟩
      · show List.countP _ (n.upstream ++ [p]) + (n.tokens c i).held + (n.tokens c i).client ≤ 1
        omega
      · show List.countP _ (n.upstream ++ [p]) + (n.tokens c i).queued + (n.tokens c i).conn
          + (n.tokens c i).acks + (n.tokens c i).client ≤ 1
        omega
    · have hnone : [p].countP (fun p => qos1Id p = some i) = 0 := by simp [hi]
      refine ⟨?_, ?_⟩
      · show List.countP _ (n.upstream ++ [p]) + (n.tokens c i).held + (n.tokens c i).client ≤ 1
        omega
      · show List.countP _ (n.upstream ++ [p]) + (n.tokens c i).queued + (n.tokens c i).conn
          + (n.tokens c i).acks + (n.tokens c i).client ≤ 1
        omega

theorem copies_pos_of_mem {ms : List (Stamped MqttPacket)} {m : Stamped MqttPacket} {i : UInt16}
    (hm : m ∈ ms) (hi : qos1Id m.item = some i) : 0 < copies i ms :=
  copies_pos.mpr ⟨m, hm, hi⟩

theorem Net.Honest.receive {n : Net} (h : n.Honest c) {f : Frame} {rest : List Frame}
    (hnext : n.toClient = f :: rest) :
    Net.Honest c { n with toClient := rest, awaiting := n.await f.ackId none } := by
  obtain ⟨n', hn'⟩ : ∃ n', n' = { n with toClient := rest, awaiting := n.await f.ackId none } :=
    ⟨_, rfl⟩
  have hclient : ∀ i, (n.tokens c i).client
      = (n'.tokens c i).client + [f].countP (fun f => f.ackId = some i) := by
    intro i
    rw [hn', Nat.add_comm]
    show deliveredAcks i n.toClient = _
    rw [hnext]
    exact deliveredAcks_append i [f] rest
  -- the one PUBACK that was under way has arrived
  have hlast : ∀ i, f.ackId = some i → (n'.tokens c i).total = 0 := by
    intro i hi
    obtain ⟨hheld, hanswers⟩ := h.few i
    have hone : [f].countP (fun f => f.ackId = some i) = 1 := by simp [hi]
    have hci := hclient i
    have hrest : (n'.tokens c i).total = (n.tokens c i).up + (n.tokens c i).held
        + (n.tokens c i).queued + (n.tokens c i).conn + (n.tokens c i).acks
        + (n'.tokens c i).client := by
      rw [hn']
      rfl
    omega
  have hawait : ∀ i, 0 < (n'.tokens c i).total → n'.awaiting i = n.awaiting i := by
    intro i hpos
    rw [hn']
    exact Net.await_of_ne (fun hi => absurd (hlast i hi) (Nat.ne_of_gt hpos)) _
  have hsame : ∀ i, (n'.tokens c i).up = (n.tokens c i).up ∧
      (n'.tokens c i).held = (n.tokens c i).held ∧ (n'.tokens c i).queued = (n.tokens c i).queued ∧
      (n'.tokens c i).conn = (n.tokens c i).conn ∧ (n'.tokens c i).acks = (n.tokens c i).acks := by
    intro i
    rw [hn']
    exact ⟨rfl, rfl, rfl, rfl, rfl⟩
  have hjournal : n'.journal = n.journal := by rw [hn']
  rw [← hn']
  refine ⟨hjournal ▸ h.journal, ?_, ?_, ?_, ?_⟩
  · intro k p i hk hi
    have hup : 0 < (n'.tokens c i).up :=
      List.countP_pos_iff.mpr ⟨p, List.mem_of_getElem? hk, decide_eq_true hi⟩
    rw [hawait i (by unfold Tokens.total; omega), hjournal]
    rw [hn'] at hk
    exact h.sent k p i hk hi
  · intro m hm i hi
    have hpos : 0 < (n'.tokens c i).held + (n'.tokens c i).conn := by
      rcases List.mem_append.mp hm with hm | hm
      · have : 0 < (n'.tokens c i).held := copies_pos_of_mem hm hi
        omega
      · have : 0 < (n'.tokens c i).conn := copies_pos_of_mem hm hi
        omega
    rw [hawait i (by unfold Tokens.total; omega)]
    rw [hn'] at hm
    exact h.current m hm i hi
  · intro i hpos
    have hci := hclient i
    obtain ⟨-, -, -, -, hacks⟩ := hsame i
    rw [hawait i (by unfold Tokens.total; omega)]
    obtain ⟨k, hk, hmem⟩ := h.earned i (by omega)
    rw [hn']
    exact ⟨k, hk, hmem⟩
  · intro i
    have hci := hclient i
    obtain ⟨hup, hheld, hqueued, hconn, hacks⟩ := hsame i
    obtain ⟨hfew₁, hfew₂⟩ := h.few i
    exact ⟨by omega, by omega⟩

theorem Net.Honest.process {n n' : Net} (h : n.Honest c) {m : Stamped MqttPacket}
    {rest : List (Stamped MqttPacket)} {answer : MqttPacket} (hnext : n.toBroker = m :: rest)
    (hstep : n.processStep m rest answer = some n') : n'.Honest c := by
  have hconn : ∀ i, (n.tokens c i).conn = copies i [m] + copies i rest := by
    intro i
    show copies i n.toBroker = _
    rw [hnext]
    exact copies_append i [m] rest
  have hcurrent : ∀ m' ∈ n.journal.held ++ rest, ∀ i, qos1Id m'.item = some i →
      n.awaiting i = some m'.seq := by
    intro m' hm'
    refine h.current m' ?_
    rw [hnext]
    rcases List.mem_append.mp hm' with hm' | hm'
    · exact List.mem_append_left _ hm'
    · exact List.mem_append_right _ (List.mem_cons_of_mem _ hm')
  unfold Net.processStep at hstep
  split at hstep
  · next i hi =>
      split at hstep
      · next hack =>
          rw [← Option.some.inj hstep]
          have hcopy : ∀ i', copies i' [m] = acks i' [answer] := by
            intro i'
            simp [copies, acks, hi, hack]
          refine ⟨h.journal, h.sent, hcurrent, ?_, ?_⟩
          · intro i' hpos
            by_cases hii : i' = i
            · subst hii
              refine ⟨m.seq, h.current m ?_ i' hi, List.mem_cons_self⟩
              rw [hnext]
              exact List.mem_append_right _ List.mem_cons_self
            · have hzero : acks i' [answer] = 0 := by
                simp [acks, hack, Ne.symm hii]
              have hpos : 0 < acks i' (n.journal.session.leftover c)
                + acks i' (n.toProxy ++ [answer]) + (n.tokens c i').client := hpos
              rw [acks_append, hzero] at hpos
              obtain ⟨k, hk, hmem⟩ := h.earned i' hpos
              exact ⟨k, hk, List.mem_cons_of_mem _ hmem⟩
          · intro i'
            obtain ⟨hfew₁, hfew₂⟩ := h.few i'
            refine ⟨hfew₁, ?_⟩
            have hacks : (n.tokens c i').acks
              = acks i' (n.journal.session.leftover c) + acks i' n.toProxy := rfl
            have happ := acks_append i' n.toProxy [answer]
            have hc := hconn i'
            have hcp := hcopy i'
            show (n.tokens c i').up + (n.tokens c i').queued + copies i' rest
              + (acks i' (n.journal.session.leftover c) + acks i' (n.toProxy ++ [answer]))
              + (n.tokens c i').client ≤ 1
            omega
      · exact nomatch hstep
  · rw [← Option.some.inj hstep]
    refine ⟨h.journal, h.sent, hcurrent, ?_, ?_⟩
    · intro i hpos
      obtain ⟨k, hk, hmem⟩ := h.earned i hpos
      exact ⟨k, hk, List.mem_cons_of_mem _ hmem⟩
    · intro i
      obtain ⟨hfew₁, hfew₂⟩ := h.few i
      have hc := hconn i
      refine ⟨hfew₁, ?_⟩
      show (n.tokens c i).up + (n.tokens c i).queued + copies i rest + (n.tokens c i).acks
        + (n.tokens c i).client ≤ 1
      omega

theorem Net.Honest.push {n : Net} (h : n.Honest c) {p : MqttPacket} (hp : pubackId p = none) :
    Net.Honest c { n with toProxy := n.toProxy ++ [p] } := by
  have hacks : ∀ i, acks i (n.toProxy ++ [p]) = acks i n.toProxy := by
    intro i
    rw [acks_append]
    simp [acks, hp]
  refine ⟨h.journal, h.sent, h.current, ?_, ?_⟩
  · intro i hpos
    have hpos : 0 < acks i (n.journal.session.leftover c) + acks i (n.toProxy ++ [p])
      + (n.tokens c i).client := hpos
    rw [hacks] at hpos
    exact h.earned i hpos
  · intro i
    obtain ⟨hfew₁, hfew₂⟩ := h.few i
    refine ⟨hfew₁, ?_⟩
    show (n.tokens c i).up + (n.tokens c i).queued + (n.tokens c i).conn
      + (acks i (n.journal.session.leftover c) + acks i (n.toProxy ++ [p]))
      + (n.tokens c i).client ≤ 1
    rw [hacks]
    exact hfew₂

theorem Net.Honest.straggle {n : Net} (h : n.Honest c) (k : Nat) :
    Net.Honest c { n with processed := k :: n.processed } := by
  refine ⟨h.journal, h.sent, h.current, ?_, h.few⟩
  intro i hpos
  obtain ⟨k', hk', hmem⟩ := h.earned i hpos
  exact ⟨k', hk', List.mem_cons_of_mem _ hmem⟩

/-- Every harmless step keeps the system honest. -/
theorem Net.Honest.step {n n' : Net} {e : NetEvent} {fs : List Frame} (h : n.Honest c)
    (hharmless : n.Harmless c e) (hstep : n.step c e = some (n', fs)) : n'.Honest c := by
  cases e with
  | send p =>
      simp only [Net.step] at hstep
      split at hstep
      · next hmay =>
          rw [← (Prod.mk.inj (Option.some.inj hstep)).1]
          exact h.send hmay
      · exact nomatch hstep
  | receive =>
      simp only [Net.step] at hstep
      split at hstep
      · next f rest hnext =>
          rw [← (Prod.mk.inj (Option.some.inj hstep)).1]
          exact h.receive hnext
      · exact nomatch hstep
  | process answer =>
      simp only [Net.step] at hstep
      split at hstep
      · next m rest hnext =>
          obtain ⟨n'', hproc, heq⟩ := Option.map_eq_some_iff.mp hstep
          rw [← (Prod.mk.inj heq).1]
          exact h.process hnext hproc
      · exact nomatch hstep
  | push p =>
      simp only [Net.step] at hstep
      split at hstep
      · next hp =>
          rw [← (Prod.mk.inj (Option.some.inj hstep)).1]
          exact h.push (Option.isNone_iff_eq_none.mp hp)
      · exact nomatch hstep
  | straggle m =>
      simp only [Net.step] at hstep
      split at hstep
      · rw [← (Prod.mk.inj (Option.some.inj hstep)).1]
        exact h.straggle m.seq
      · exact nomatch hstep
  | session e =>
      obtain ⟨n'', hsession, heq⟩ := Option.map_eq_some_iff.mp hstep
      obtain ⟨s, o, out, htook⟩ := Net.sessionStep_took hsession
      rw [← (Prod.mk.inj heq).1]
      exact h.session htook hharmless

theorem Net.honest_initial (id : SessionId) (hs : Handshake) (client broker : Reader UInt8)
    (now : Nat) : (Net.initial (Session.initial id hs client broker now)).Honest c where
  journal := ⟨[], Journal.sound_initial id hs client broker now⟩
  sent _ _ _ hk _ := nomatch hk
  current _ hm _ _ := absurd hm List.not_mem_nil
  earned i hpos := by
    have hnone : (Session.initial id hs client broker now).leftoverPackets c = [] :=
      Session.leftoverPackets_nil rfl
    have hpos : 0 < acks i ((Session.initial id hs client broker now).leftoverPackets c) + 0 + 0 :=
      hpos
    rw [hnone] at hpos
    exact absurd hpos (Nat.lt_irrefl 0)
  few i := by
    have hnone : (Session.initial id hs client broker now).leftoverPackets c = [] :=
      Session.leftoverPackets_nil rfl
    refine ⟨Nat.zero_le 1, ?_⟩
    show 0 + 0 + 0 + (acks i ((Session.initial id hs client broker now).leftoverPackets c) + 0) + 0
      ≤ 1
    rw [hnone]
    exact Nat.zero_le 1

theorem Net.Honest.truthful {n : Net} (h : n.Honest c) : n.Truthful := by
  intro f rest i k hnext hack hk
  have hpos : 0 < (n.tokens c i).client := by
    refine List.countP_pos_iff.mpr ⟨f, ?_, decide_eq_true hack⟩
    rw [hnext]
    exact List.mem_cons_self
  obtain ⟨k', hk', hmem⟩ := h.earned i (by omega)
  rw [hk] at hk'
  exact Option.some.inj hk' ▸ hmem

/-- In every run whose replays drain no PUBACK for an id that is still in the window, and
whose lost connections leave no PUBACK that was not sent on them, the next PUBACK for a QoS 1 PUBLISH that the client is to receive is for
one that a broker has processed. -/
theorem no_false_ack {id : SessionId} {hs : Handshake} {client broker : Reader UInt8} {now : Nat}
    {es : List NetEvent} {n : Net} {received : List Frame}
    (hharmless : (netMachine c).Along (Net.Harmless c)
      (.initial (Session.initial id hs client broker now)) es)
    (hrun : (netMachine c).run (.initial (Session.initial id hs client broker now)) es
      = some (n, received)) : n.Truthful :=
  (Machine.run_along (fun _ _ _ _ h hg hstep => h.step hg hstep)
    (Net.honest_initial id hs client broker now) hharmless hrun).truthful

namespace ReferenceCodec

/-- An attempt that the broker and the client serve. -/
def served : Attempt := ⟨9, 9, .packet connack, .closed, .fresh [], ""⟩

/-- A PUBLISH whose connection goes; the next broker acknowledges it. -/
def acknowledgedAfterLoss : List NetEvent :=
  [.send (publish one []), .session (forwarded (publish one [])), .session brokerCloses,
    .session (.wait (some served)), .process (puback one),
    .session (.brokerRead (.packet (puback one)) (.fresh []) .ok)]

/-- The session is frozen with the PUBACK of a PUBLISH in its read buffer; it is
replayed to the client and the PUBLISH to the broker; the client uses the id for
another PUBLISH, and the broker acknowledges the first one again. -/
def acknowledgedTwice : List NetEvent :=
  [.send (publish one []), .session (forwarded (publish one [])), .push (.v3 .pingResponse),
    .process (puback one),
    .session (.brokerRead (.packet (.v3 .pingResponse)) (.fresh (encode (puback one)).toBytes) .ok),
    .session (.migrate 1 9), .session (.wait (some served)), .receive,
    .send (publish one [7]), .session (forwarded (publish one [7])), .process (puback one),
    .session (.brokerRead (.packet (puback one)) (.fresh []) .ok)]

end ReferenceCodec

open ReferenceCodec in
theorem no_false_ack_after_loss : ∃ n received,
    (netMachine (codec true)).run (.initial session) acknowledgedAfterLoss = some (n, received) ∧
      n.Truthful := by
  have hsome : ((netMachine (codec true)).run (.initial session) acknowledgedAfterLoss).isSome
      = true := by decide +kernel
  obtain ⟨⟨n, received⟩, hrun⟩ := Option.isSome_iff_exists.mp hsome
  exact ⟨n, received, hrun, no_false_ack (by decide +kernel) hrun⟩

open ReferenceCodec in
/-- The client is about to receive a PUBACK for its second PUBLISH, which no broker
has processed. -/
theorem leftover_puback_false_ack : ∃ n received,
    (netMachine (codec true)).run (.initial session) acknowledgedTwice = some (n, received) ∧
      ¬ n.Truthful := by
  have hrun : ((netMachine (codec true)).run (.initial session) acknowledgedTwice).map
      (fun r => (r.1.toClient, r.1.awaiting 1, r.1.processed))
        = some ([.packet (puback one)], some 1, [0, 0]) := by decide +kernel
  obtain ⟨⟨n, received⟩, hn, heq⟩ := Option.map_eq_some_iff.mp hrun
  obtain ⟨hclient, hrest⟩ := Prod.mk.inj heq
  obtain ⟨hawait, hprocessed⟩ := Prod.mk.inj hrest
  refine ⟨n, received, hn, fun h => ?_⟩
  have hmem := h _ _ 1 1 hclient rfl hawait
  have hprocessed : n.processed = [0, 0] := hprocessed
  rw [hprocessed] at hmem
  exact absurd hmem (by decide)

open ReferenceCodec in
/-- A PUBACK that no broker has sent: the tail of a PUBLISH whose header the decoder held. -/
example : ((netMachine (codec true)).run (.initial session)
    [.session (.brokerRead .closed ⟨[0x30, 0x84, 0x80, 1], [0x40, 2, 0, 1]⟩ .ok),
      .send (publish one []), .session (forwarded (publish one [])),
      .session (.wait (some served))]).map
    (fun r => (r.1.toClient, r.1.awaiting 1, r.1.processed))
      = some ([.packet (puback one)], some 0, []) := by
  decide +kernel

end TrafficDirector
