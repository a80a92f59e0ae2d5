/-
# `TrafficDirector.Session.Ledger` — which client packet is written when

A session writes each packet of the client from one of three places: live, from
the window (a retransmit), or from the outage buffer (a flush).  Its ledger is
history: it says, for every window entry and buffer entry, which packet of the
client it is, by the packet's number among all that were read.  The journal is
the session with its ledger; it steps exactly as the session does
(`journal_run`) and notes with every write the client packet it carries.
-/
import TrafficDirector.Lib.Resend
import TrafficDirector.Session.Retention

namespace TrafficDirector

open Framing (Reader)
open Resend (Stamped)

/-! ## Ledgers -/

/-- The client packets of a session; kept are those in the c2b window, queued are
those in the outage buffer. -/
abbrev Ledger := Resend.Ledger UInt16 MqttPacket

/-- The id of a QoS 1/2 PUBLISH or a PUBREL. -/
def exchangeId (p : MqttPacket) : Option UInt16 :=
  match p.shape with
  | .publish _ i | .publishRelease i => some i
  | _ => none

/-- The c2b entry of a PUBLISH or PUBREL. -/
def windowEntry (c : Codec) (p : MqttPacket) : C2bState × RawPacket :=
  match p.shape with
  | .publishRelease _ => (pubrelSent, encodeRaw c p)
  | _ => (publishSent, encodeRaw c p)

namespace Ledger

/-- A client packet in the connected phase. -/
def trackC2b (l : Ledger) (p : MqttPacket) : Ledger :=
  match p.shape with
  | .publish _ i => l.keep i p
  | .publishRelease i => if l.inflight.contains i then l.keep i p else l.hear p
  | _ => l.hear p

/-- A client packet in the outage phase. -/
def service (c : Codec) (l : Ledger) (p : MqttPacket) : Ledger :=
  if (bufferedAs c p).isSome then l.hold p else l.hear p

/-- The ledger after a step of the session `s`. -/
def after (c : Codec) (s : Session) (l : Ledger) : Event → Ledger
  | .clientRead _ (.packet p) _ _ _ =>
      if s.broker.isSome then Ledger.trackC2b l p else Ledger.service c l p
  | .brokerRead (.packet p) _ _ => l.forget (acknowledgedId p).toList
  | .wait (some _) => l.flush exchangeId
  | _ => l

/-- The ledger says what the session holds. -/
structure Matches (c : Codec) (s : Session) (l : Ledger) : Prop where
  settled : s.Settled
  window : s.windows.c2b = l.inflight.map (fun m => windowEntry c m.item)
  buffer : List.Forall₂ (fun b m => bufferedAs c m.item = some b) s.buffer.entries l.queued

end Ledger

/-! ## Journals -/

/-- An output, with the client packet that it carries to the broker. -/
structure Noted where
  out : Output
  source : Option (Stamped MqttPacket)
deriving DecidableEq

def Noted.own (o : Output) : Noted := ⟨o, none⟩

/-- A frame to the broker, of the client's packet `m`. -/
def Noted.carry (f : Frame) (m : Stamped MqttPacket) : Noted := ⟨.toBroker f, some m⟩

/-- The plan of a replay, noted. -/
def replayNotes (c : Codec) (s : Session) (l : Ledger) : List Noted :=
  [.own .openBroker, .own (.toBroker (.connect (patchedConnect s.hs.connectRaw)))]
    ++ ((resubscribeFrames s.hs.version s.subscriptions).map (fun f => .own (.toBroker f))
    ++ ((s.leftoverPackets c).map (fun p => .own (.toClient (.packet p)))
    ++ (l.inflight.values.map (fun m =>
        .carry (.raw (InflightWindows.brokerRetransmit (windowEntry c m.item))) m)
    ++ (s.windows.clientRetransmits.map (fun r => .own (.toClient (.raw r)))
    ++ l.queued.map (fun m => .carry (.raw (encodeRaw c m.item)) m)))))

/-- Note an output of reading the client packet `m`. -/
def Noted.ofRead (m : Stamped MqttPacket) : Output → Noted
  | .toBroker f => .carry f m
  | o => .own o

/-- Note the outputs of one step. -/
def annotate (c : Codec) (s : Session) (l : Ledger) (e : Event) (out : List Output) : List Noted :=
  match e with
  | .clientRead _ (.packet p) _ _ _ => out.map (.ofRead (l.next p))
  | .wait (some _) => (replayNotes c s l).take out.length
  | _ => out.map .own

structure Journal where
  session : Outcome
  ledger : Ledger

def journalStep (c : Codec) (j : Journal) (e : Event) : Option (Journal × List Noted) :=
  match j.session with
  | .ended _ => none
  | .running s =>
      (forwardLoop c (.running s) e).map (fun r =>
        (⟨r.1, Ledger.after c s j.ledger e⟩, annotate c s j.ledger e r.2))

/-- The session together with its history. -/
def journalMachine (c : Codec) : Machine Journal Event Noted := ⟨journalStep c⟩

def Journal.initial (s : Session) : Journal := ⟨.running s, .empty⟩

variable {c : Codec} {s s' : Session} {l : Ledger} {e : Event} {out : List Output}

/-! ## The ledger follows the session -/

theorem exchangeEntry_eq (c : Codec) (p : MqttPacket) :
    exchangeEntry c p = (exchangeId p).map (fun i => (i, windowEntry c p)) := by
  unfold exchangeEntry exchangeId windowEntry
  cases p.shape <;> rfl

theorem flushBindings_queued {entries : List BufferedPublish} {queued : List (Stamped MqttPacket)}
    (h : List.Forall₂ (fun b m => bufferedAs c m.item = some b) entries queued) :
    flushBindings entries = (Resend.Ledger.bindings exchangeId queued).map
      (Prod.map id (fun m => windowEntry c m.item)) := by
  induction h with
  | nil => rfl
  | @cons b m entries queued hb _ ih =>
      have hhead := flushBindings_bufferedAs c m.item
      rw [hb, exchangeEntry_eq] at hhead
      have hcons : flushBindings (b :: entries) = flushBindings [b] ++ flushBindings entries := by
        rw [flushBindings, ← List.singleton_append, List.filterMap_append]
        rfl
      rw [hcons, ih]
      refine (congrArg (· ++ _) hhead).trans ?_
      cases hx : exchangeId m.item <;> simp [Resend.Ledger.bindings, hx]

theorem acknowledgedId_of_not_passedOn {p : MqttPacket} (h : ¬ p.PassedOn) :
    acknowledgedId p = none := by
  refine eq_none_of_not_passedOn (fun p i hi => ?_) h
  unfold acknowledgedId at hi
  split at hi
  · next hs => exact MqttPacket.passedOn_of_shape (by simp [hs]) (by simp [hs])
  · next hs => exact MqttPacket.passedOn_of_shape (by simp [hs]) (by simp [hs])
  · exact nomatch hi

theorem Ledger.after_quiet (h : e.Quiet) : Ledger.after c s l e = l := by
  unfold Ledger.after
  split
  · exact absurd h id
  · next p _ _ =>
      rw [acknowledgedId_of_not_passedOn h]
      rfl
  · exact absurd h id
  · rfl

theorem Ledger.trackC2b_window (p : MqttPacket)
    (h : s.windows.c2b = l.inflight.map (fun m => windowEntry c m.item)) :
    (s.windows.trackC2b c p).c2b
      = (Ledger.trackC2b l p).inflight.map (fun m => windowEntry c m.item) := by
  rw [InflightWindows.trackC2b_c2b, h]
  unfold Ledger.trackC2b
  cases hs : p.shape with
  | publish q i =>
      simp [Resend.Ledger.keep, Resend.Ledger.next, windowEntry, hs]
  | publishRelease i =>
      simp only [OrdMap.contains_map]
      split
      · simp [Resend.Ledger.keep, Resend.Ledger.next, windowEntry, hs]
      · rfl
  | _ => rfl

theorem Ledger.trackC2b_queued (l : Ledger) (p : MqttPacket) :
    (Ledger.trackC2b l p).queued = l.queued := by
  unfold Ledger.trackC2b
  split
  · rfl
  · split <;> rfl
  · rfl

theorem Ledger.service_buffer {entries : List BufferedPublish} (p : MqttPacket)
    (h : List.Forall₂ (fun b m => bufferedAs c m.item = some b) entries l.queued) :
    List.Forall₂ (fun b m => bufferedAs c m.item = some b)
      (entries ++ (bufferedAs c p).toList) (Ledger.service c l p).queued := by
  unfold Ledger.service
  cases hb : bufferedAs c p with
  | none =>
      rw [Option.toList_none, List.append_nil]
      exact h
  | some b => exact List.rel_append h (.cons hb .nil)

theorem Ledger.service_inflight (l : Ledger) (p : MqttPacket) :
    (Ledger.service c l p).inflight = l.inflight := by
  unfold Ledger.service
  split <;> rfl

theorem Transition.matches (h : Transition c s e s' out) (hm : Ledger.Matches c s l) :
    Ledger.Matches c s' (Ledger.after c s l e) := by
  have hset := h.settled hm.settled
  have hend := h.settled hm.settled
  cases h with
  | idle quiet same =>
      rw [Ledger.after_quiet quiet]
      exact ⟨hset, same.windows ▸ hm.window, same.buffer ▸ hm.buffer⟩
  | forwarded up answered =>
      rw [Ledger.after, if_pos up]
      refine ⟨hset, Ledger.trackC2b_window _ hm.window, ?_⟩
      rw [Ledger.trackC2b_queued]
      exact hm.buffer
  | unsent up answered =>
      rw [Ledger.after, if_pos up]
      refine ⟨hset, Ledger.trackC2b_window _ hm.window, ?_⟩
      rw [Ledger.trackC2b_queued]
      exact hm.buffer
  | held down serviced =>
      obtain ⟨hbuf, hc2b⟩ := serviceOutagePacket_ok serviced
      rw [Ledger.after, if_neg (by simp [down])]
      refine ⟨hset, ?_, ?_⟩
      · rw [Ledger.service_inflight]
        exact hc2b.trans hm.window
      · show List.Forall₂ _ (Serviced.buffer _).entries _
        rw [hbuf]
        exact Ledger.service_buffer _ hm.buffer
  | delivered up passedOn =>
      refine ⟨hset, ?_, hm.buffer⟩
      show (s.windows.trackB2c c _).c2b = _
      rw [InflightWindows.trackB2c_c2b_eq, hm.window]
      exact (OrdMap.map_eraseAll _ _ _).symm
  | lost up quiet =>
      rw [Ledger.after_quiet quiet]
      exact ⟨hset, hm.window, hm.buffer⟩
  | replayed down patched serves =>
      refine ⟨hset, ?_, .nil⟩
      show s.flushedWindows.c2b = _
      rw [s.flushedWindows_c2b, Session.pendingC2b, flushBindings_queued hm.buffer, hm.window]
      exact (OrdMap.map_insertAll _ _ _).symm
  | migrated id now keepAlive => exact ⟨hset, hm.window, hm.buffer⟩

theorem Ledger.matches_initial (id : SessionId) (hs : Handshake) (client broker : Reader UInt8)
    (now : Nat) : Ledger.Matches c (Session.initial id hs client broker now) .empty where
  settled := Session.settled_initial id hs client broker now
  window := rfl
  buffer := .nil

/-! ## The notes say what was written -/

theorem replayNotes_out (hm : Ledger.Matches c s l) : (replayNotes c s l).map Noted.out =
    .openBroker :: s.replayPlan c (patchedConnect s.hs.connectRaw) := by
  have hwindow : s.windows.brokerRetransmits = l.inflight.values.map
      (fun m => InflightWindows.brokerRetransmit (windowEntry c m.item)) := by
    rw [InflightWindows.brokerRetransmits, hm.window, OrdMap.values_map, List.map_map]
    rfl
  have hbuffer : s.buffer.entries.map (fun e => Frame.raw e.raw) =
      l.queued.map (fun m => Frame.raw (encodeRaw c m.item)) := by
    have h := hm.buffer
    generalize s.buffer.entries = entries at h ⊢
    generalize l.queued = queued at h ⊢
    induction h with
    | nil => rfl
    | cons hb _ ih => rw [List.map_cons, List.map_cons, ih, bufferedAs_raw hb]
  simp only [replayNotes, Session.replayPlan, hwindow, hbuffer]
  simp [Noted.own, Noted.carry, Function.comp_def]

theorem annotate_out {o : Outcome} (hm : Ledger.Matches c s l)
    (h : forwardLoop c (.running s) e = some (o, out)) :
    (annotate c s l e out).map Noted.out = out := by
  unfold annotate
  split
  · rw [List.map_map]
    exact List.map_id'' (fun o => by cases o <;> rfl) out
  · next a =>
      obtain ⟨-, hc⟩ := forwardLoop_wait_inv h
      have hp := connectBroker_followsPlan c s a
      rw [hc] at hp
      rw [List.map_take, replayNotes_out hm]
      exact (List.prefix_iff_eq_take.mp hp).symm
  · rw [List.map_map]
    exact List.map_id'' (fun o => rfl) out

/-- The ledger of a running journal matches its session. -/
def Journal.Consistent (c : Codec) (j : Journal) : Prop :=
  ∀ s, j.session = .running s → Ledger.Matches c s j.ledger

theorem journalStep_eq_some {j j' : Journal} {notes : List Noted} :
    journalStep c j e = some (j', notes) ↔ ∃ s o out, j.session = .running s ∧
      forwardLoop c (.running s) e = some (o, out) ∧
      j' = ⟨o, Ledger.after c s j.ledger e⟩ ∧ notes = annotate c s j.ledger e out := by
  obtain ⟨session, ledger⟩ := j
  cases session with
  | ended r => simp [journalStep]
  | running s =>
      simp only [journalStep, Option.map_eq_some_iff, Prod.mk.injEq, Prod.exists,
        Outcome.running.injEq]
      constructor
      · rintro ⟨o, out, hs, rfl, rfl⟩; exact ⟨s, o, out, rfl, hs, rfl, rfl⟩
      · rintro ⟨_, o, out, rfl, hs, rfl, rfl⟩; exact ⟨o, out, hs, rfl, rfl⟩

theorem Journal.Consistent.step {j j' : Journal} {notes : List Noted} (h : j.Consistent c)
    (hs : journalStep c j e = some (j', notes)) : j'.Consistent c := by
  obtain ⟨s, o, out, hj, hstep, rfl, -⟩ := journalStep_eq_some.mp hs
  intro s' ho
  subst ho
  exact (forwardLoop_running hstep).matches (h s hj)

/-- The journal steps as its session does, and its notes are of what was written. -/
theorem journal_run {j : Journal} {es : List Event} (h : j.Consistent c) :
    (sessionMachine c).run j.session es =
      ((journalMachine c).run j es).map (fun r => (r.1.session, r.2.map Noted.out)) := by
  refine Machine.run_project (f := Journal.session) (I := Journal.Consistent c) ?_ ?_ h
  · intro j e hj
    obtain ⟨session, ledger⟩ := j
    cases session with
    | ended r => rfl
    | running s =>
        simp only [sessionMachine, journalMachine, journalStep]
        cases hs : forwardLoop c (.running s) e with
        | none => rfl
        | some r =>
            have hout := annotate_out (hj s rfl) hs
            simp [hout]
  · exact fun j e j' notes hj hs => hj.step hs

end TrafficDirector
