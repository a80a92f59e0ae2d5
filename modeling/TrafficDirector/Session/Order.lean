/-
# `TrafficDirector.Session.Order` — QoS 2 never regresses

The ledger of a session is a sound ledger (`Transition.sound`): what the window
and the buffer hold for an id is at least as new as everything written for it.
So over all its broker connections a session writes the packets of one id in the
order in which the client sent them, and once a PUBREL is out, only a PUBLISH
that the client sent after it can follow (`qos2_never_regresses`).
-/
import TrafficDirector.ReferenceCodec
import TrafficDirector.Session.Ledger

namespace TrafficDirector

open Framing (Reader)
open Resend (Stamped InOrder)

variable {c : Codec} {s s' : Session} {l : Ledger} {e : Event} {out : List Output}
  {log : List (Stamped MqttPacket)}

/-! ## Client packets -/

theorem Ledger.trackC2b_read (l : Ledger) (p : MqttPacket) :
    (Ledger.trackC2b l p).read = l.read ++ [p] := by
  unfold Ledger.trackC2b
  split
  · rfl
  · split <;> rfl
  · rfl

theorem Ledger.service_read (l : Ledger) (p : MqttPacket) :
    (Ledger.service c l p).read = l.read ++ [p] := by
  unfold Ledger.service
  split <;> rfl

theorem Ledger.after_read (c : Codec) (s : Session) (l : Ledger) (e : Event) :
    (Ledger.after c s l e).read = l.read ++ e.clientPacket.toList := by
  unfold Ledger.after Event.clientPacket
  split
  · split
    · exact Ledger.trackC2b_read l _
    · exact Ledger.service_read l _
  · exact (List.append_nil _).symm
  · exact (List.append_nil _).symm
  · next hpacket _ _ =>
      split
      · exact absurd rfl (hpacket _ _ _ _ _)
      · exact (List.append_nil _).symm

theorem Ledger.trackC2b_sound (hl : l.Sound exchangeId log) (hq : l.queued = [])
    (p : MqttPacket) : (Ledger.trackC2b l p).Sound exchangeId log := by
  unfold Ledger.trackC2b
  split
  · next q i hs => exact hl.keep (by simp only [exchangeId, hs]) hq
  · next i hs =>
      split
      · exact hl.keep (by simp only [exchangeId, hs]) hq
      · exact hl.hear p
  · exact hl.hear p

theorem Ledger.service_sound (hl : l.Sound exchangeId log) (p : MqttPacket) :
    (Ledger.service c l p).Sound exchangeId log := by
  unfold Ledger.service
  split
  · exact hl.hold p
  · exact hl.hear p

/-- Tracking leaves nothing under the packet's id that is older than the packet. -/
theorem Ledger.trackC2b_newest {p : MqttPacket} {i : UInt16} {m : Stamped MqttPacket}
    (hi : exchangeId p = some i) (hm : (Ledger.trackC2b l p).inflight.get? i = some m) :
    m = l.next p := by
  have hkeep : (l.keep i p).inflight.get? i = some (l.next p) := by
    simp [Resend.Ledger.keep]
  unfold exchangeId at hi
  unfold Ledger.trackC2b at hm
  split at hi
  · next q j hs =>
      obtain rfl := Option.some.inj hi
      rw [hs] at hm
      exact Option.some.inj (hm.symm.trans hkeep)
  · next j hs =>
      obtain rfl := Option.some.inj hi
      simp only [hs] at hm
      split at hm
      · exact Option.some.inj (hm.symm.trans hkeep)
      · next hno => exact absurd (OrdMap.contains_iff.mpr ⟨m, hm⟩) hno
  · cases hi

/-! ## The log of a journal -/

/-- The client packets written, in order. -/
def sources (notes : List Noted) : List (Stamped MqttPacket) := notes.filterMap Noted.source

theorem sources_append (notes notes' : List Noted) :
    sources (notes ++ notes') = sources notes ++ sources notes' :=
  List.filterMap_append

theorem sources_own {α : Type} (f : α → Output) (xs : List α) :
    sources (xs.map (fun a => .own (f a))) = [] := by
  rw [sources, List.filterMap_map]
  exact List.filterMap_eq_nil_iff.mpr (fun _ _ => rfl)

theorem sources_carry (f : Stamped MqttPacket → Frame) (ms : List (Stamped MqttPacket)) :
    sources (ms.map (fun m => .carry (f m) m)) = ms := by
  rw [sources, List.filterMap_map]
  exact List.filterMap_some

theorem sources_replayNotes (c : Codec) (s : Session) (l : Ledger) :
    sources (replayNotes c s l) = l.resent := by
  simp only [replayNotes, sources_append, sources_own, sources_carry]
  rfl

@[simp] theorem annotate_nil (c : Codec) (s : Session) (l : Ledger) (e : Event) :
    annotate c s l e [] = [] := by
  unfold annotate
  split <;> rfl

/-- Frames to the client carry nothing to the broker. -/
theorem sources_toClient (c : Codec) (s : Session) (l : Ledger) (fs : List Frame)
    (hwait : ∀ a, e ≠ .wait (some a)) : sources (annotate c s l e (fs.map .toClient)) = [] := by
  unfold annotate
  split
  · rw [List.map_map]
    exact sources_own Output.toClient fs
  · exact absurd rfl (hwait _)
  · rw [List.map_map]
    exact sources_own Output.toClient fs

/-- What is forwarded live is the packet that was just read. -/
theorem sources_forwarded (c : Codec) (s : Session) (l : Ledger) (fs : List Frame) {now : Nat}
    {p : MqttPacket} {after : Reader UInt8} {pong forward : Sent} :
    sources (annotate c s l (.clientRead now (.packet p) after pong forward)
      (fs.map .toClient ++ [.toBroker (.packet p)])) = [l.next p] := by
  simp only [annotate, List.map_append, sources_append, List.map_map]
  exact congrArg (· ++ [l.next p]) (sources_own Output.toClient fs)

/-- A replay that gets through writes all of its plan. -/
theorem take_replayNotes (hm : Ledger.Matches c s l) {raw : Bytes}
    (patched : forceSessionResumption s.hs.connectRaw = .ok raw) :
    (replayNotes c s l).take (Output.openBroker :: s.replayPlan c raw).length
      = replayNotes c s l := by
  have hlen : (Output.openBroker :: s.replayPlan c raw).length = (replayNotes c s l).length := by
    rw [← patchedConnect_ok patched, ← replayNotes_out hm, List.length_map]
  rw [hlen, List.take_length]

theorem Ledger.Matches.queued_nil (hm : Ledger.Matches c s l) (up : s.broker.isSome = true) :
    l.queued = [] := by
  have h := hm.buffer
  rw [(hm.settled up).1] at h
  exact List.forall₂_nil_left_iff.mp h

/-- The ledger stays sound with respect to all that is written. -/
theorem Transition.sound (h : Transition c s e s' out) (hm : Ledger.Matches c s l)
    (hl : l.Sound exchangeId log) :
    (Ledger.after c s l e).Sound exchangeId (log ++ sources (annotate c s l e out)) := by
  cases h with
  | idle quiet same =>
      rw [Ledger.after_quiet quiet, annotate_nil]
      exact (List.append_nil log).symm ▸ hl
  | @forwarded now p after pong pongs up answered =>
      obtain ⟨fs, -, rfl⟩ := answerPing_toClient answered
      have hq := hm.queued_nil up
      rw [sources_forwarded, Ledger.after, if_pos up]
      refine (Ledger.trackC2b_sound hl hq p).send ?_ ?_ ?_ ?_
      · rw [Ledger.trackC2b_queued]; exact hq
      · rw [Ledger.trackC2b_read]; exact Resend.Ledger.read_next l p
      · rw [Ledger.trackC2b_read]; simp [Resend.Ledger.next]
      · intro k m' hk hm'
        exact Nat.le_of_eq (congrArg Stamped.seq (Ledger.trackC2b_newest hk hm').symm)
  | @unsent now p after pong err pongs up answered =>
      obtain ⟨fs, -, rfl⟩ := answerPing_toClient answered
      have hsrc := sources_toClient (e := .clientRead now (.packet p) after pong (.failed err))
        c s l fs (fun a ha => by cases ha)
      rw [hsrc, List.append_nil, Ledger.after, if_pos up]
      exact Ledger.trackC2b_sound hl (hm.queued_nil up) p
  | @held now p after pong forward v down serviced =>
      obtain ⟨fs, -, hfs⟩ := serviceOutagePacket_out serviced
      have hout : v.out = fs.map .toClient := hfs
      have hsrc := sources_toClient (e := .clientRead now (.packet p) after pong forward)
        c s l fs (fun a ha => by cases ha)
      rw [hout, hsrc, List.append_nil, Ledger.after, if_neg (by simp [down])]
      exact Ledger.service_sound hl p
  | @delivered p after up passedOn =>
      have hsrc := sources_toClient (e := .brokerRead (.packet p) after .ok) c s l [.packet p]
        (fun a ha => by cases ha)
      rw [show [Output.toClient (.packet p)] = [Frame.packet p].map .toClient from rfl, hsrc,
        List.append_nil]
      exact hl.forget _
  | lost up quiet =>
      rw [Ledger.after_quiet quiet, annotate_nil]
      exact (List.append_nil log).symm ▸ hl
  | @replayed a raw down patched serves =>
      simp only [annotate]
      rw [take_replayNotes hm patched, sources_replayNotes]
      exact hl.flush
  | migrated id now keepAlive =>
      rw [annotate_nil, sources, List.filterMap_nil, List.append_nil]
      exact hl

/-- What a step writes to the broker comes after all that was written before. -/
theorem sorted_annotate {o : Outcome} (hm : Ledger.Matches c s l) (hl : l.Sound exchangeId log)
    (h : forwardLoop c (.running s) e = some (o, out)) :
    (log ++ sources (annotate c s l e out)).Pairwise (InOrder exchangeId) := by
  cases o with
  | running s' => exact ((forwardLoop_running h).sound hm hl).sorted
  | ended r =>
      by_cases hwait : ∃ a, e = .wait (some a)
      · obtain ⟨a, rfl⟩ := hwait
        have hprefix : sources ((replayNotes c s l).take out.length) <+: l.resent := by
          rw [← sources_replayNotes c s l]
          exact (List.take_prefix _ _).filterMap _
        exact hl.flush.sorted.sublist ((List.Sublist.refl log).append hprefix.sublist)
      · obtain ⟨fs, rfl⟩ := (forwardLoop_ended_out h (fun a ha => hwait ⟨a, ha⟩)).toClient
        rw [sources_toClient _ _ _ _ (fun a ha => hwait ⟨a, ha⟩), List.append_nil]
        exact hl.sorted

/-! ## What is written on one connection -/

/-- The client packets written to the connection opened last, after a note. -/
def Noted.write (written : List (Stamped MqttPacket)) (n : Noted) : List (Stamped MqttPacket) :=
  match n.out with
  | .openBroker => []
  | _ => written ++ n.source.toList

theorem foldl_write {written : List (Stamped MqttPacket)} {notes : List Noted}
    (hopen : ∀ n ∈ notes, n.out ≠ .openBroker) :
    notes.foldl Noted.write written = written ++ sources notes := by
  induction notes generalizing written with
  | nil => exact (List.append_nil written).symm
  | cons n notes ih =>
      obtain ⟨hn, hopen⟩ := List.forall_mem_cons.mp hopen
      have hsources : sources (n :: notes) = n.source.toList ++ sources notes := by
        rw [sources, List.filterMap_cons]
        cases n.source <;> rfl
      have hwrite : n.write written = written ++ n.source.toList := by
        unfold Noted.write
        split
        · next hout => exact absurd hout hn
        · rfl
      rw [List.foldl_cons, ih hopen, hwrite, hsources, List.append_assoc]

/-- The notes of a replay begin a connection. -/
theorem foldl_write_replay (hm : Ledger.Matches c s l) (k : Nat)
    (written : List (Stamped MqttPacket)) :
    ((replayNotes c s l).take (k + 1)).foldl Noted.write written
      = sources ((replayNotes c s l).take (k + 1)) := by
  obtain ⟨rest, hrest⟩ : ∃ rest, replayNotes c s l = .own .openBroker :: rest := ⟨_, rfl⟩
  have hout : rest.map Noted.out = s.replayPlan c (patchedConnect s.hs.connectRaw) := by
    have hall := replayNotes_out hm
    rw [hrest] at hall
    exact (List.cons.inj hall).2
  have hopen : ∀ n ∈ rest.take k, n.out ≠ .openBroker := by
    intro n hn heq
    have hmem := List.mem_map_of_mem (f := Noted.out) (List.mem_of_mem_take hn)
    rw [hout, heq, Session.replayPlan] at hmem
    simp at hmem
  rw [hrest]
  show (rest.take k).foldl Noted.write [] = sources (rest.take k)
  rw [foldl_write hopen, List.nil_append]

/-- No step but a replay begins a connection. -/
theorem annotate_out_ne {o : Outcome} (hm : Ledger.Matches c s l)
    (hs : forwardLoop c (.running s) e = some (o, out)) (hwait : ∀ a, e ≠ .wait (some a)) :
    ∀ n ∈ annotate c s l e out, n.out ≠ .openBroker := by
  intro n hn heq
  obtain ⟨fs, hout⟩ := forwardLoop_out hs hwait
  have hmem := List.mem_map_of_mem (f := Noted.out) hn
  rw [annotate_out hm hs, heq] at hmem
  rcases hout with rfl | ⟨_, p, _, _, -, -, rfl⟩
  · simp at hmem
  · simp at hmem

/-- What a step writes: part of what is resent, on a new connection; the packet that it
reads, on the old one; or nothing. -/
theorem written_annotate {o : Outcome} (written : List (Stamped MqttPacket))
    (hm : Ledger.Matches c s l) (hs : forwardLoop c (.running s) e = some (o, out)) :
    (annotate c s l e out).foldl Noted.write written = written ∨
    (∃ a, e = .wait (some a) ∧
      (annotate c s l e out).foldl Noted.write written <+: l.resent) ∨
    (∃ now p after pong, e = .clientRead now (.packet p) after pong .ok ∧
      s.broker.isSome = true ∧
      (annotate c s l e out).foldl Noted.write written = written ++ [l.next p]) := by
  by_cases hwait : ∃ a, e = .wait (some a)
  · obtain ⟨a, rfl⟩ := hwait
    show ((replayNotes c s l).take out.length).foldl Noted.write written = written ∨ _
    cases hlen : out.length with
    | zero => exact Or.inl rfl
    | succ k =>
        refine Or.inr (Or.inl ⟨a, rfl, ?_⟩)
        show ((replayNotes c s l).take out.length).foldl Noted.write written <+: _
        rw [hlen, foldl_write_replay hm, ← sources_replayNotes c s l]
        exact (List.take_prefix _ _).filterMap _
  · have hwait : ∀ a, e ≠ .wait (some a) := fun a ha => hwait ⟨a, ha⟩
    obtain ⟨fs, hout⟩ := forwardLoop_out hs hwait
    rw [foldl_write (annotate_out_ne hm hs hwait)]
    rcases hout with rfl | ⟨now, p, after, pong, rfl, up, rfl⟩
    · rw [sources_toClient c s l fs hwait]
      exact Or.inl (List.append_nil written)
    · rw [sources_forwarded]
      exact Or.inr (Or.inr ⟨now, p, after, pong, rfl, up, rfl⟩)

/-- What a step that ends on an open connection writes. -/
theorem written_running (hm : Ledger.Matches c s l)
    (hs : forwardLoop c (.running s) e = some (.running s', out))
    (up' : s'.broker.isSome = true) (written : List (Stamped MqttPacket)) :
    (annotate c s l e out).foldl Noted.write written =
      if e.opens then l.resent else written ++ (e.clientPacket.map l.next).toList := by
  cases forwardLoop_running hs with
  | idle quiet same =>
      rw [annotate_nil, quiet.opens, quiet.clientPacket]
      exact (List.append_nil written).symm
  | forwarded up answered =>
      obtain ⟨fs, -, rfl⟩ := answerPing_toClient answered
      rw [foldl_write (annotate_out_ne hm hs (fun a ha => nomatch ha)), sources_forwarded]
      rfl
  | delivered up passedOn => rfl
  | @replayed a raw down patched serves =>
      have hall := take_replayNotes hm patched
      show ((replayNotes c s l).take ((s.replayPlan c raw).length + 1)).foldl _ _ = l.resent
      rw [foldl_write_replay hm, ← List.length_cons, hall, sources_replayNotes]
  | unsent => exact nomatch up'
  | held down serviced => exact nomatch down.symm.trans (Option.eq_some_of_isSome up')
  | lost => exact nomatch up'
  | migrated => exact nomatch up'

/-! ## What a note means -/

/-- The frames that carry a client packet: as it came, as it was encoded, or as it
was encoded with the DUP bit set. -/
def CarriesPacket (c : Codec) (p : MqttPacket) (f : Frame) : Prop :=
  f = .packet p ∨ f = .raw (encodeRaw c p) ∨ f = .raw (withDup (encodeRaw c p))

/-- The session's own frames to a broker: the CONNECT and the re-SUBSCRIBE. -/
def OwnFrame (f : Frame) : Prop :=
  (∃ raw, f = .connect raw) ∨
    ∃ subs version p, Subscriptions.resubscribePacket subs version = some p ∧ f = .packet p

/-- A noted write carries the packet that `read` has under its number; any other
write to the broker is the session's own. -/
def Noted.Traced (c : Codec) (read : List MqttPacket) (n : Noted) : Prop :=
  match n.source with
  | some m => read[m.seq]? = some m.item ∧ ∃ f, n.out = .toBroker f ∧ CarriesPacket c m.item f
  | none => ∀ f, n.out = .toBroker f → OwnFrame f

theorem Noted.Traced.append {read : List MqttPacket} {n : Noted} (h : n.Traced c read)
    (ps : List MqttPacket) : n.Traced c (read ++ ps) := by
  unfold Noted.Traced at h ⊢
  split
  · next m hm =>
      rw [hm] at h
      refine ⟨?_, h.2⟩
      rw [List.getElem?_append_left (Resend.Ledger.seq_lt h.1)]
      exact h.1
  · next hm =>
      rw [hm] at h
      exact h

theorem carriesPacket_retransmit (c : Codec) (p : MqttPacket) :
    CarriesPacket c p (.raw (InflightWindows.brokerRetransmit (windowEntry c p))) := by
  unfold windowEntry
  split
  · exact Or.inr (Or.inl rfl)
  · exact Or.inr (Or.inr rfl)

theorem traced_own {read : List MqttPacket} (f : Frame) :
    (Noted.own (.toClient f)).Traced c read :=
  fun _ h => nomatch h

theorem replayNotes_traced (hl : l.Sound exchangeId log) :
    ∀ n ∈ replayNotes c s l, n.Traced c l.read := by
  intro n hn
  simp only [replayNotes, List.mem_append, List.mem_cons, List.mem_map, List.not_mem_nil,
    or_false] at hn
  rcases hn with (rfl | rfl) | ⟨f, hf, rfl⟩ | ⟨p, -, rfl⟩ | ⟨m, hm, rfl⟩ | ⟨r, -, rfl⟩ | ⟨m, hm, rfl⟩
  · exact fun f h => by cases h
  · intro f h
    exact Or.inl ⟨_, (Output.toBroker.inj h).symm⟩
  · intro f' h
    obtain rfl := Output.toBroker.inj h
    obtain ⟨p, hp, rfl⟩ := List.mem_map.mp hf
    exact Or.inr ⟨_, _, p, Option.mem_toList.mp hp, rfl⟩
  · exact traced_own _
  · exact ⟨hl.resent_read (List.mem_append_left _ hm), _, rfl, carriesPacket_retransmit c m.item⟩
  · exact traced_own _
  · exact ⟨hl.resent_read (List.mem_append_right _ hm), _, rfl, Or.inr (Or.inl rfl)⟩

theorem annotate_traced {o : Outcome} (hl : l.Sound exchangeId log)
    (h : forwardLoop c (.running s) e = some (o, out)) :
    ∀ n ∈ annotate c s l e out, n.Traced c (Ledger.after c s l e).read := by
  intro n hn
  rw [Ledger.after_read]
  unfold annotate at hn
  split at hn
  · next now p after pong forward =>
      obtain ⟨fs, hout⟩ := forwardLoop_out h (fun a ha => nomatch ha)
      obtain ⟨o', ho', rfl⟩ := List.mem_map.mp hn
      cases o' with
      | openBroker => rcases hout with rfl | ⟨_, _, _, _, _, _, rfl⟩ <;> simp at ho'
      | toClient f => exact traced_own f
      | toBroker f =>
          rcases hout with rfl | ⟨_, p', _, _, heq, -, rfl⟩
          · simp at ho'
          · obtain rfl : p = p' := by injection heq with _ hnext; exact Next.packet.inj hnext
            obtain rfl : f = .packet p := by simpa using ho'
            exact ⟨Resend.Ledger.read_next l p, _, rfl, Or.inl rfl⟩
  · exact (replayNotes_traced hl n (List.mem_of_mem_take hn)).append _
  · next hpacket hwait =>
      obtain ⟨fs, hout⟩ := forwardLoop_out h hwait
      obtain ⟨o', ho', rfl⟩ := List.mem_map.mp hn
      rcases hout with rfl | ⟨_, _, _, _, rfl, -, -⟩
      · obtain ⟨f, -, rfl⟩ := List.mem_map.mp ho'
        exact traced_own f
      · exact absurd rfl (hpacket _ _ _ _ _)

/-! ## Runs -/

/-- The invariant of journals: the ledger is right about the session and about
the log, and the notes are right and in order. -/
structure Journal.Sound (c : Codec) (j : Journal) (notes : List Noted) : Prop where
  consistent : j.Consistent c
  ledger : ∀ s, j.session = .running s → j.ledger.Sound exchangeId (sources notes)
  traced : ∀ n ∈ notes, n.Traced c j.ledger.read
  sorted : (sources notes).Pairwise (InOrder exchangeId)

theorem Journal.Sound.step {j j' : Journal} {notes notes' : List Noted} (h : j.Sound c notes)
    (hs : journalStep c j e = some (j', notes')) : j'.Sound c (notes ++ notes') := by
  have hcons := h.consistent.step hs
  obtain ⟨s, o, out, hj, hstep, rfl, rfl⟩ := journalStep_eq_some.mp hs
  refine ⟨hcons, ?_, ?_, ?_⟩
  · intro s' ho
    subst ho
    rw [sources_append]
    exact (forwardLoop_running hstep).sound (h.consistent s hj) (h.ledger s hj)
  · intro n hn
    rcases List.mem_append.mp hn with hn | hn
    · rw [Ledger.after_read]
      exact (h.traced n hn).append _
    · exact annotate_traced (h.ledger s hj) hstep n hn
  · rw [sources_append]
    exact sorted_annotate (h.consistent s hj) (h.ledger s hj) hstep

theorem Journal.sound_initial (id : SessionId) (hs : Handshake) (client broker : Reader UInt8)
    (now : Nat) : (Journal.initial (Session.initial id hs client broker now)).Sound c [] where
  consistent s h := by
    rw [← Outcome.running.inj h]
    exact Ledger.matches_initial id hs client broker now
  ledger _ _ := Resend.Ledger.sound_empty
  traced _ h := absurd h List.not_mem_nil
  sorted := List.Pairwise.nil

/-- The packets of the ledger are those the run has read. -/
theorem journal_read {es : List Event} {j j' : Journal} {notes : List Noted}
    (h : (journalMachine c).run j es = some (j', notes)) :
    j'.ledger.read = j.ledger.read ++ es.filterMap Event.clientPacket := by
  induction es generalizing j notes with
  | nil =>
      obtain ⟨rfl, -⟩ := Prod.mk.inj (Option.some.inj h)
      exact (List.append_nil _).symm
  | cons e es ih =>
      obtain ⟨j₁, n₁, n₂, hs, hr, -⟩ := Machine.run_cons_eq_some.mp h
      obtain ⟨s, o, out, -, -, rfl, -⟩ := journalStep_eq_some.mp hs
      rw [ih hr, Ledger.after_read, List.append_assoc]
      cases hp : e.clientPacket <;> simp [hp]

/-- Every run of a session has a journal, which is sound. -/
theorem journal_of_run {id : SessionId} {hs : Handshake} {client broker : Reader UInt8}
    {now : Nat} {es : List Event} {o : Outcome}
    (hrun : (sessionMachine c).run (.running (Session.initial id hs client broker now)) es
      = some (o, out)) :
    ∃ j notes, (journalMachine c).run
        (.initial (Session.initial id hs client broker now)) es = some (j, notes) ∧
      j.session = o ∧ notes.map Noted.out = out ∧
      j.ledger.read = es.filterMap Event.clientPacket ∧ j.Sound c notes := by
  have hinit := Journal.sound_initial (c := c) id hs client broker now
  have hproject := (journal_run hinit.consistent).symm.trans hrun
  obtain ⟨⟨j, notes⟩, hj, heq⟩ := Option.map_eq_some_iff.mp hproject
  obtain ⟨rfl, rfl⟩ := Prod.mk.inj heq
  refine ⟨j, notes, hj, rfl, rfl, journal_read hj, ?_⟩
  exact Machine.run_outputs (I := Journal.Sound c)
    (fun j e j' notes' notes h hs => h.step hs) hinit hj

/-- A step of a journal beside a record. -/
theorem recordedStep {τ : Type} {upd : Journal → τ → Event → List Noted → τ}
    {k k' : Journal × τ} {notes : List Noted}
    (hstep : ((journalMachine c).record upd).step k e = some (k', notes)) :
    ∃ s o out, k.1.session = .running s ∧ forwardLoop c (.running s) e = some (o, out) ∧
      k' = (⟨o, Ledger.after c s k.1.ledger e⟩, upd k.1 k.2 e notes) ∧
      notes = annotate c s k.1.ledger e out := by
  obtain ⟨hj, hafter⟩ := Machine.record_step_eq_some.mp hstep
  obtain ⟨s, o, out, hsession, hs, hj', hnotes⟩ := journalStep_eq_some.mp hj
  exact ⟨s, o, out, hsession, hs, Prod.ext hj' hafter, hnotes⟩

/-- And so it has beside any record that is kept of it. -/
theorem recorded_of_run {τ : Type} (upd : Journal → τ → Event → List Noted → τ) (t : τ)
    {id : SessionId} {hs : Handshake} {client broker : Reader UInt8} {now : Nat}
    {es : List Event} {o : Outcome}
    (hrun : (sessionMachine c).run (.running (Session.initial id hs client broker now)) es
      = some (o, out)) :
    ∃ k notes, ((journalMachine c).record upd).run
        (.initial (Session.initial id hs client broker now), t) es = some (k, notes) ∧
      k.1.session = o ∧ notes.map Noted.out = out ∧
      k.1.ledger.read = es.filterMap Event.clientPacket ∧
      ∀ n ∈ notes, n.Traced c k.1.ledger.read := by
  obtain ⟨j, notes, hj, ho, hout, hread, hsound⟩ := journal_of_run hrun
  have hrecord := (Machine.run_record upd es
    (Journal.initial (Session.initial id hs client broker now), t)).symm.trans hj
  obtain ⟨⟨k, _⟩, hk, heq⟩ := Option.map_eq_some_iff.mp hrecord
  obtain ⟨rfl, rfl⟩ := Prod.mk.inj heq
  exact ⟨k, _, hk, ho, hout, hread, hsound.traced⟩

/-- A PUBREL with the client's packet `m`, and a PUBLISH with the same id: the
client sent the PUBLISH after the PUBREL. -/
def NoRegress (n n' : Noted) : Prop :=
  ∀ m m' i q, n.source = some m → m.item.shape = .publishRelease i →
    n'.source = some m' → m'.item.shape = .publish q i → m.seq < m'.seq

theorem noRegress_of_inOrder {read : List MqttPacket} {n n' : Noted} (hn : n.Traced c read)
    (hn' : n'.Traced c read)
    (h : ∀ m m', n.source = some m → n'.source = some m' → InOrder exchangeId m m') :
    NoRegress n n' := by
  intro m m' i q hm hrel hm' hpub
  have hle : m.seq ≤ m'.seq :=
    h m m' hm hm' i (by simp only [exchangeId, hrel]) (by simp only [exchangeId, hpub])
  refine Nat.lt_of_le_of_ne hle (fun heq => ?_)
  -- with one number they would be one packet
  unfold Noted.Traced at hn hn'
  rw [hm] at hn
  rw [hm'] at hn'
  have hitem : m.item = m'.item := Option.some.inj (hn.1.symm.trans (heq ▸ hn'.1))
  rw [hitem] at hrel
  exact nomatch hrel.symm.trans hpub

/-- Every run of a session has a journal that tells, for each write to a broker,
which packet of the client it carries; and in this journal a PUBLISH that follows
a PUBREL with the same id, on whatever connection, is one that the client sent
after that PUBREL. -/
theorem qos2_never_regresses {id : SessionId} {hs : Handshake} {client broker : Reader UInt8}
    {now : Nat} {es : List Event} {o : Outcome}
    (hrun : (sessionMachine c).run (.running (Session.initial id hs client broker now)) es
      = some (o, out)) :
    ∃ j notes, (journalMachine c).run
        (.initial (Session.initial id hs client broker now)) es = some (j, notes) ∧
      j.session = o ∧ notes.map Noted.out = out ∧
      j.ledger.read = es.filterMap Event.clientPacket ∧
      (∀ n ∈ notes, n.Traced c j.ledger.read) ∧ notes.Pairwise NoRegress := by
  obtain ⟨j, notes, hj, ho, hout, hread, hsound⟩ := journal_of_run hrun
  refine ⟨j, notes, hj, ho, hout, hread, hsound.traced, ?_⟩
  refine (List.pairwise_filterMap.mp hsound.sorted).imp_of_mem (fun hn hn' h => ?_)
  exact noRegress_of_inOrder (hsound.traced _ hn) (hsound.traced _ hn')
    (fun m m' hm hm' => h m hm m' hm')

namespace ReferenceCodec

/-- A QoS 2 PUBLISH is forwarded; its PUBREL arrives during an outage, and both go
to the next broker. -/
def releasedInOutage : List Event :=
  [forwarded (.v3 (.publish ⟨false, false, .exactlyOnce, "t", some one, [], none, fun _ => rfl⟩)),
    brokerCloses, forwarded (.v3 (.publishRelease one)),
    .wait (some ⟨9, 9, .packet connack, .closed, .fresh [], ""⟩)]

end ReferenceCodec

open ReferenceCodec in
theorem qos2_never_regresses_released : ∃ o out,
    (sessionMachine (codec true)).run (.running session) releasedInOutage = some (o, out) ∧
    ∃ j notes, (journalMachine (codec true)).run (.initial session) releasedInOutage
        = some (j, notes) ∧
      j.session = o ∧ notes.map Noted.out = out ∧
      j.ledger.read = releasedInOutage.filterMap Event.clientPacket ∧
      (∀ n ∈ notes, n.Traced (codec true) j.ledger.read) ∧ notes.Pairwise NoRegress := by
  have hsome : ((sessionMachine (codec true)).run (.running session) releasedInOutage).isSome
      = true := by decide +kernel
  obtain ⟨⟨o, out⟩, hrun⟩ := Option.isSome_iff_exists.mp hsome
  exact ⟨o, out, hrun, qos2_never_regresses hrun⟩

open ReferenceCodec in
/-- The PUBLISH, the PUBLISH again, the PUBREL. -/
example : ((journalMachine (codec true)).run (.initial session) releasedInOutage).map
    (fun r => (sources r.2).map Stamped.seq) = some [0, 0, 1] := by
  decide +kernel

end TrafficDirector
