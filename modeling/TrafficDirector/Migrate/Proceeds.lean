/-
# `TrafficDirector.Migrate.Proceeds` — `freeze_all` and its progress

`freeze_all` waits in two places: for the room in a session's control channel, and for
the session's reply.  The second wait is timed, the first is not.

`proceeds_iff`: a call of `freeze_all` has a step to take at any time, and not many of
them, unless it turns to a session that still has the request of an earlier call in its
control channel.
-/
import TrafficDirector.Lib.Since
import TrafficDirector.Migrate.FreezeAll

namespace TrafficDirector.FreezeAll

variable {c : Codec} {F F' : State} {a : Action} {o : List Note}

/-! ## The steps that are left -/

/-- How many steps `freeze_all` takes from here at most. -/
def Loop.left : Loop → Nat
  | .asking senders => 4 * senders.length + 1
  | .polling _ senders => 4 * senders.length + 4
  | .expired _ senders => 4 * senders.length + 3
  | .leaving _ senders => 4 * senders.length + 2
  | _ => 0

theorem left_of_own (h : Step c F a F' o) (hown : a.own = true) :
    F'.loop.left + 1 ≤ F.loop.left := by
  cases h with
  | gone loop | sends loop =>
      rw [loop]
      simp only [State.setRequest, Loop.left, List.length_cons]
      omega
  | returns loop =>
      rw [loop]
      simp [Loop.left]
  | collects loop | replyLost loop | expires loop | dropsReply loop | dropsResume loop =>
      rw [loop]
      simp [State.setRequest, Loop.left]
  | _ => cases hown

theorem left_of_other (h : Step c F a F' o) (hown : a.own = false)
    (hcall : ∀ senders, a ≠ .freezeAll senders) : F'.loop.left ≤ F.loop.left := by
  cases h with
  | freezes => exact absurd rfl (hcall _)
  | resume | resumes | skips | finishes => exact Nat.zero_le _
  | joins | stepped | ends | takes | replies | restores | wakes | exits => exact Nat.le_refl _
  | _ => cases hown

/-! ## The control channels -/

/-- The request in the control channel of a session. -/
def State.pending (F : State) (id : SessionId) : Option Nat :=
  (F.members.get? id).bind Member.control

theorem pending_of_get? {id : SessionId} {m : Member} (h : F.members.get? id = some m) :
    F.pending id = m.control := by
  rw [State.pending, h]
  rfl

theorem pending_insert {id i : SessionId} {m : Member}
    (h : F'.members = F.members.insert id m) :
    F'.pending i = if i = id then m.control else F.pending i := by
  rw [State.pending, h, OrdMap.get?_insert]
  split
  · rfl
  · rfl

theorem pending_erase {id i : SessionId} (h : F'.members = F.members.erase id) :
    F'.pending i = if i = id then none else F.pending i := by
  rw [State.pending, h, OrdMap.get?_erase]
  split
  · rfl
  · rfl

/-- What a step does to the control channels, and what it says of it. -/
inductive Notes (F F' : State) : List Note → Prop where
  | none (same : ∀ i, F'.pending i = F.pending i) : Notes F F' []
  | sent {id : SessionId} {senders : List SessionId} (loop : F'.loop = .polling id senders)
      (full : F'.pending id = some F.calls) (same : ∀ i ≠ id, F'.pending i = F.pending i) :
      Notes F F' [.sent id]
  | emptied {id : SessionId} {note : Note} (noted : note = .taken id ∨ note = .ended id)
      (empty : F'.pending id = Option.none) (same : ∀ i ≠ id, F'.pending i = F.pending i) :
      Notes F F' [note]

/-- A session's member changes, but for its control channel. -/
theorem Notes.of_insert {id : SessionId} {m m' : Member} (hget : F.members.get? id = some m)
    (h : F'.members = F.members.insert id m') (hcontrol : m'.control = m.control) :
    Notes F F' [] := by
  refine .none (fun i => ?_)
  rw [pending_insert h]
  split
  · next hi => rw [hi, hcontrol, pending_of_get? hget]
  · rfl

theorem Notes.of_members (h : F'.members = F.members) : Notes F F' [] :=
  .none (fun i => by rw [State.pending, State.pending, h])

theorem Notes.of_erase {id : SessionId} (h : F'.members = F.members.erase id) :
    Notes F F' [.ended id] := by
  refine .emptied (Or.inr rfl) ?_ (fun i hi => ?_)
  · rw [pending_erase h, if_pos rfl]
  · rw [pending_erase h, if_neg hi]

theorem notes_of_step (hfresh : F.members.get? F.nextId = none) (h : Step c F a F' o) :
    Notes F F' o := by
  cases h with
  | joins named =>
      refine .none (fun i => ?_)
      rw [pending_insert rfl]
      split
      · next hi => rw [hi, State.pending, hfresh, Option.bind_none]
      · rfl
  | stepped member stays loop => exact .of_insert member rfl rfl
  | replies member reply => exact .of_insert member rfl rfl
  | restores member reply back => exact .of_insert member rfl rfl
  | wakes member resume back => exact .of_insert member rfl rfl
  | ends member stays loop => exact .of_erase rfl
  | exits member resume => exact .of_erase rfl
  | takes member =>
      refine .emptied (Or.inl rfl) ?_ (fun i hi => ?_)
      · rw [pending_insert rfl, if_pos rfl]
      · rw [pending_insert rfl, if_neg hi]
  | sends loop member =>
      refine .sent rfl ?_ (fun i hi => ?_)
      · rw [pending_insert rfl, if_pos rfl]
      · rw [pending_insert rfl, if_neg hi]
  | _ => exact .of_members rfl

/-! ## What has happened so far -/

/-- The last call of `freeze_all`, and what has happened to the control channels. -/
structure Call where
  notes : List Note
  /-- how many sessions it has found -/
  senders : Nat
  /-- its own steps so far -/
  steps : Nat

def Call.after (_ : State) (k : Call) (a : Action) (o : List Note) : Call :=
  match a with
  | .freezeAll senders => ⟨k.notes ++ o, senders.length, 0⟩
  | a => ⟨k.notes ++ o, k.senders, if a.own then k.steps + 1 else k.steps⟩

def callMachine (c : Codec) : Machine (State × Call) Action Note := (machine c).record Call.after

/-- A request has been sent to the session, and since then it has taken up none, and has
not ended. -/
def Call.Stale (k : Call) (id : SessionId) : Prop :=
  Since (· = .sent id) (fun note => note ≠ .taken id ∧ note ≠ .ended id) k.notes

/-- The session that a step makes `freeze_all` turn to. -/
def State.turnsTo (F : State) : Action → Option SessionId
  | .freezeAll senders => senders.head?
  | .sends =>
      match F.loop with
      | .asking (id :: senders) => if F.members.contains id then none else senders.head?
      | _ => none
  | .collects | .dropsResume => F.loop.unasked.head?
  | _ => none

/-- `freeze_all` does not turn to a session that has left an earlier request lying. -/
def TurnsToReady (k : State × Call) (a : Action) : Prop :=
  ∀ id, k.1.turnsTo a = some id → ¬ k.2.Stale id

instance (k : State × Call) (a : Action) : Decidable (TurnsToReady k a) := by
  unfold TurnsToReady Call.Stale
  exact Option.decidableForallMem (k.1.turnsTo a)

/-- `freeze_all` has a step to take while it is called, and has taken no more than
its sessions account for. -/
structure Proceeds (c : Codec) (k : State × Call) : Prop where
  enabled : k.1.loop.Busy → ∃ a, a.own = true ∧ (k.1.step c a).isSome = true
  bounded : k.2.steps + k.1.loop.left ≤ 4 * k.2.senders + 1

structure Tracked (k : State × Call) : Prop where
  named : ∀ i m, k.1.members.get? i = some m → i < k.1.nextId
  polled : ∀ i senders, k.1.loop = .polling i senders →
    (k.1.requests (i, k.1.calls)).reply.HasReceiver
  stale : ∀ i, k.2.Stale i ↔ (k.1.pending i).isSome = true
  bounded : k.2.steps + k.1.loop.left ≤ 4 * k.2.senders + 1

variable {k k' : State × Call}

theorem callMachine_step : (callMachine c).step k a = some (k', o) ↔
    k.1.step c a = some (k'.1, o) ∧ k'.2 = Call.after k.1 k.2 a o :=
  Machine.record_step_eq_some

theorem notes_after : (Call.after F k.2 a o).notes = k.2.notes ++ o := by
  cases a with
  | _ => rfl

/-- While `freeze_all` polls for a reply, it has the receiver. -/
theorem polled_step (hpolled : ∀ i senders, F.loop = .polling i senders →
      (F.requests (i, F.calls)).reply.HasReceiver) (h : Step c F a F' o) :
    ∀ i senders, F'.loop = .polling i senders →
      (F'.requests (i, F'.calls)).reply.HasReceiver := by
  -- a request in which a session's end of the reply channel moves
  have hupdate : ∀ (key : SessionId × Nat) (r : Request),
      ((F.requests key).reply.HasReceiver → r.reply.HasReceiver) →
      ∀ i senders, F.loop = .polling i senders →
        (Function.update F.requests key r (i, F.calls)).reply.HasReceiver := by
    intro key r hr i senders hloop
    rw [Function.update_apply]
    split
    · next heq => exact hr (heq ▸ hpolled i senders hloop)
    · exact hpolled i senders hloop
  have hleave : ∀ (control : Option Nat) (id : SessionId) (requests : SessionId × Nat → Request),
      (∀ i senders, F.loop = .polling i senders → (requests (i, F.calls)).reply.HasReceiver) →
      ∀ i senders, F.loop = .polling i senders →
        (({ F with requests := requests }.leave id control).requests
          (i, F.calls)).reply.HasReceiver := by
    intro control id requests hrequests i senders hloop
    cases control with
    | none => exact hrequests i senders hloop
    | some call =>
        show (Function.update requests (id, call) _ (i, F.calls)).reply.HasReceiver
        rw [Function.update_apply]
        split
        · next heq => exact (heq ▸ hrequests i senders hloop).dropSender
        · exact hrequests i senders hloop
  cases h with
  | joins | stepped | takes => exact hpolled
  | ends => exact hleave _ _ _ hpolled
  | replies member reply => exact hupdate _ _ (fun _ => trivial)
  | restores member reply back => exact hupdate _ _ (fun hr => hr.send _)
  | wakes member resume back => exact hupdate _ _ (fun hr => hr)
  | exits member resume => exact hleave _ _ _ (hupdate _ _ (fun hr => hr))
  | @sends id senders task loop member =>
      intro i senders' hloop
      cases hloop
      show (Function.update F.requests (id, F.calls) ⟨.pending, .pending⟩
        (id, F.calls)).reply.HasReceiver
      rw [Function.update_self]
      trivial
  | _ => exact fun i senders hloop => by cases hloop

/-- The history says which control channels are full. -/
theorem stale_after {call call' : Call}
    (hstale : ∀ i, call.Stale i ↔ (F.pending i).isSome = true)
    (hcall : call'.notes = call.notes ++ o) (h : Notes F F' o) (i : SessionId) :
    call'.Stale i ↔ (F'.pending i).isSome = true := by
  unfold Call.Stale at hstale ⊢
  rw [hcall]
  cases h with
  | none same => rw [List.append_nil, same, hstale]
  | @sent id senders loop full same =>
      rw [since_concat, hstale]
      by_cases hi : i = id
      · rw [hi, full]
        exact iff_of_true (Or.inl rfl) rfl
      · rw [same i hi]
        refine ⟨fun h => ?_, fun h => Or.inr ⟨h, (fun h => by cases h), (fun h => by cases h)⟩⟩
        rcases h with h | h
        · exact absurd (Note.sent.inj h).symm hi
        · exact h.1
  | @emptied id note noted empty same =>
      have hnot : ∀ j, note ≠ .sent j := by
        rintro j rfl
        rcases noted with h | h
        · cases h
        · cases h
      rw [since_concat, hstale]
      by_cases hi : i = id
      · rw [hi, empty]
        refine iff_of_false ?_ (fun h => by cases h)
        rintro (h | ⟨-, hkeeps⟩)
        · exact hnot _ h
        · exact noted.elim hkeeps.1 hkeeps.2
      · rw [same i hi]
        constructor
        · rintro (h | h)
          · exact absurd h (hnot i)
          · exact h.1
        · intro h
          refine Or.inr ⟨h, ?_, ?_⟩
          · rintro rfl
            rcases noted with h | h
            · exact hi (Note.taken.inj h)
            · cases h
          · rintro rfl
            rcases noted with h | h
            · cases h
            · exact hi (Note.ended.inj h)

theorem bounded_after (hbounded : k.2.steps + k.1.loop.left ≤ 4 * k.2.senders + 1)
    (h : Step c k.1 a F' o) : (Call.after k.1 k.2 a o).steps + F'.loop.left
      ≤ 4 * (Call.after k.1 k.2 a o).senders + 1 := by
  by_cases hcall : ∃ senders, a = .freezeAll senders
  · obtain ⟨senders, rfl⟩ := hcall
    cases h with
    | freezes => exact Nat.le_of_eq (Nat.zero_add _)
  · have hcall : ∀ senders, a ≠ .freezeAll senders := fun senders h => hcall ⟨senders, h⟩
    have hafter : Call.after k.1 k.2 a o
        = ⟨k.2.notes ++ o, k.2.senders, if a.own then k.2.steps + 1 else k.2.steps⟩ := by
      cases a with
      | freezeAll senders => exact absurd rfl (hcall senders)
      | _ => rfl
    rw [hafter]
    cases hown : a.own with
    | true =>
        have hleft := left_of_own h hown
        simp only [if_true]
        omega
    | false =>
        have hleft := left_of_other h hown hcall
        simp only [Bool.false_eq_true, if_false]
        omega

theorem Tracked.fresh (h : Tracked k) : k.1.members.get? k.1.nextId = none := by
  cases hm : k.1.members.get? k.1.nextId with
  | none => rfl
  | some m => exact absurd (h.named _ m hm) (Nat.lt_irrefl _)

theorem Tracked.step (h : Tracked k) (hs : (callMachine c).step k a = some (k', o)) :
    Tracked k' := by
  obtain ⟨hs, hcall⟩ := callMachine_step.mp hs
  have hstep := step_of_step hs
  refine ⟨named_step h.named hstep, polled_step h.polled hstep, ?_, ?_⟩
  · refine stale_after h.stale ?_ (notes_of_step h.fresh hstep)
    rw [hcall, notes_after]
  · rw [hcall]
    exact bounded_after h.bounded hstep

theorem tracked_start : Tracked (.start, ⟨[], 0, 0⟩) where
  named i m h := by cases h
  polled i senders h := by cases h
  stale i := iff_of_false not_since_nil (fun h => by cases h)
  bounded := by decide

/-! ## A step to take -/

/-- `freeze_all` can go on unless it is at a control channel that is full. -/
theorem enabled_iff (hpolled : ∀ i senders, F.loop = .polling i senders →
      (F.requests (i, F.calls)).reply.HasReceiver) :
    (F.loop.Busy → ∃ a, a.own = true ∧ (F.step c a).isSome = true) ↔
      ∀ id senders, F.loop = .asking (id :: senders) → F.pending id = none := by
  constructor
  · intro h id senders hloop
    obtain ⟨a, hown, hsome⟩ := h (by rw [hloop]; trivial)
    obtain ⟨⟨F', o⟩, hstep⟩ := Option.isSome_iff_exists.mp hsome
    cases step_of_step hstep with
    | gone loop member =>
        obtain ⟨rfl, -⟩ := List.cons.inj (Loop.asking.inj (hloop.symm.trans loop))
        rw [State.pending, member, Option.bind_none]
    | sends loop member =>
        obtain ⟨rfl, -⟩ := List.cons.inj (Loop.asking.inj (hloop.symm.trans loop))
        exact pending_of_get? member
    | collects loop | replyLost loop | expires loop | dropsReply loop | dropsResume loop
    | returns loop => cases hloop.symm.trans loop
    | _ => cases hown
  · intro h hbusy
    cases hloop : F.loop with
    | asking senders =>
        cases senders with
        | nil => exact ⟨.returns, rfl, by simp only [State.step, hloop, Option.isSome_some]⟩
        | cons id senders =>
            have hpending := h id senders hloop
            refine ⟨.sends, rfl, ?_⟩
            cases hm : F.members.get? id with
            | none => simp only [State.step, hloop, hm, Option.isSome_some]
            | some m =>
                obtain ⟨task, control⟩ := m
                obtain rfl : control = none := (pending_of_get? hm).symm.trans hpending
                simp only [State.step, hloop, hm, Option.isSome_some]
    | polling id senders =>
        have hreceiver := hpolled id senders hloop
        cases hreply : (F.requests (id, F.calls)).reply with
        | pending =>
            exact ⟨.expires, rfl, by simp only [State.step, hloop, hreply, Option.isSome_some]⟩
        | sent session =>
            exact ⟨.collects, rfl, by simp only [State.step, hloop, hreply, Option.isSome_some]⟩
        | closed =>
            exact ⟨.replyLost, rfl, by simp only [State.step, hloop, hreply, Option.isSome_some]⟩
        | abandoned | gone =>
            rw [hreply] at hreceiver
            cases hreceiver
    | expired id senders =>
        exact ⟨.dropsReply, rfl, by simp only [State.step, hloop, Option.isSome_some]⟩
    | leaving id senders =>
        exact ⟨.dropsResume, rfl, by simp only [State.step, hloop, Option.isSome_some]⟩
    | idle | returned | resuming =>
        rw [hloop] at hbusy
        cases hbusy

theorem turnsTo_sends_of_gone {id : SessionId} {senders : List SessionId}
    (loop : F.loop = .asking (id :: senders)) (member : F.members.get? id = none) :
    F.turnsTo .sends = senders.head? := by
  have hnot : F.members.contains id = false :=
    decide_eq_false (OrdMap.get?_eq_none.mp member)
  simp only [State.turnsTo, loop, hnot, Bool.false_eq_true, if_false]

theorem turnsTo_sends_of_member {id : SessionId} {senders : List SessionId} {m : Member}
    (loop : F.loop = .asking (id :: senders)) (member : F.members.get? id = some m) :
    F.turnsTo .sends = none := by
  have hcontains : F.members.contains id = true := OrdMap.contains_iff.mpr ⟨m, member⟩
  simp only [State.turnsTo, loop, hcontains, if_true]

/-- The step that turns to a session leaves the control channels alone. -/
theorem asking_of_turnsTo {id : SessionId} (h : Step c F a F' o) (hturns : F.turnsTo a = some id) :
    (∃ senders, F'.loop = .asking (id :: senders)) ∧ F'.members = F.members := by
  have hhead : ∀ {senders : List SessionId}, senders.head? = some id →
      F'.loop = .asking senders → ∃ senders, F'.loop = .asking (id :: senders) := by
    intro senders hhead hloop
    obtain ⟨rest, rfl⟩ := List.head?_eq_some_iff.mp hhead
    exact ⟨rest, hloop⟩
  cases h with
  | freezes idle all => exact ⟨hhead hturns rfl, rfl⟩
  | gone loop member =>
      rw [turnsTo_sends_of_gone loop member] at hturns
      exact ⟨hhead hturns rfl, rfl⟩
  | sends loop member =>
      rw [turnsTo_sends_of_member loop member] at hturns
      cases hturns
  | collects loop | dropsResume loop =>
      rw [State.turnsTo, loop] at hturns
      exact ⟨hhead hturns rfl, rfl⟩
  | _ => cases hturns

theorem turnsTo_of_asking {id : SessionId} {senders : List SessionId} (h : Step c F a F' o)
    (hasking : F'.loop = .asking (id :: senders)) :
    F.turnsTo a = some id ∨ F.loop = .asking (id :: senders) := by
  cases h with
  | freezes idle all =>
      cases hasking
      exact Or.inl rfl
  | gone loop member =>
      cases hasking
      exact Or.inl (turnsTo_sends_of_gone loop member)
  | collects loop | dropsResume loop =>
      cases hasking
      rw [State.turnsTo, loop]
      exact Or.inl rfl
  | joins | stepped | ends | takes | replies | restores | wakes | exits => exact Or.inr hasking
  | _ => cases hasking

theorem proceeds_step (hk : Tracked k) (h : Proceeds c k)
    (hs : (callMachine c).step k a = some (k', o)) : Proceeds c k' ↔ TurnsToReady k a := by
  have hk' := hk.step hs
  have hstep := step_of_step (callMachine_step.mp hs).1
  have hfull := (enabled_iff hk.polled).mp h.enabled
  have hstale : ∀ id, ¬ k.2.Stale id ↔ k.1.pending id = none := by
    intro id
    rw [hk.stale, Bool.not_eq_true, Option.isSome_eq_false_iff, Option.isNone_iff_eq_none]
  constructor
  · intro h' id hturns
    obtain ⟨⟨senders, hasking⟩, hmembers⟩ := asking_of_turnsTo hstep hturns
    have hempty := (enabled_iff hk'.polled).mp h'.enabled id senders hasking
    rw [State.pending, hmembers] at hempty
    exact (hstale id).mpr hempty
  · intro hready
    refine ⟨(enabled_iff hk'.polled).mpr (fun id senders hasking => ?_), hk'.bounded⟩
    rcases turnsTo_of_asking hstep hasking with hturns | hloop
    · have hmembers := (asking_of_turnsTo hstep hturns).2
      rw [State.pending, hmembers]
      exact (hstale id).mp (hready id hturns)
    · -- the sessions do not fill the control channels
      have hempty := hfull id senders hloop
      cases notes_of_step hk.fresh hstep with
      | none same => rw [same, hempty]
      | sent loop => cases hasking.symm.trans loop
      | @emptied id' note noted empty same =>
          by_cases hid : id = id'
          · rw [hid, empty]
          · rw [same id hid, hempty]

/-- All along every run `freeze_all` has a step of its own to take until it returns, and
never takes more than four for each session and one, exactly if it never turns to a
session that has left an earlier request in its control channel. -/
theorem proceeds_iff {es : List Action}
    (hrun : (callMachine c).run (.start, ⟨[], 0, 0⟩) es = some (k, o)) :
    (callMachine c).Always (Proceeds c) (.start, ⟨[], 0, 0⟩) es ↔
      (callMachine c).Along TurnsToReady (.start, ⟨[], 0, 0⟩) es := by
  have hstart : Proceeds c (.start, ⟨[], 0, 0⟩) :=
    ⟨(fun hbusy => by cases hbusy), tracked_start.bounded⟩
  refine (Machine.always_iff (I := Tracked) (L := fun _ => True)
    (fun _ _ _ _ h hs => h.step hs) (fun _ _ _ _ _ _ => trivial)
    (fun _ _ _ _ hk h _ hs => proceeds_step hk h hs) tracked_start hrun trivial).trans ?_
  exact and_iff_right hstart

open ReferenceCodec

/-- A session does not answer a first call of `freeze_all`, which is rolled back. -/
def unanswered : List Action :=
  [.joins connected, .freezeAll [0], .sends, .expires, .dropsReply, .dropsResume, .returns,
    .resume 0, .finishes]

/-- A second call finds the first one's request in the channel. -/
theorem freeze_all_stuck : ∃ k o,
    (callMachine (codec true)).run (.start, ⟨[], 0, 0⟩) (unanswered ++ [.freezeAll [0]])
      = some (k, o) ∧
    k.1.loop = .asking [0] ∧ (∀ a, a.own = true → k.1.step (codec true) a = none) ∧
    ¬ Proceeds (codec true) k := by
  obtain ⟨k, o, hrun, hloop, hstuck⟩ : ∃ k o,
      (callMachine (codec true)).run (.start, ⟨[], 0, 0⟩) (unanswered ++ [.freezeAll [0]])
        = some (k, o) ∧
      k.1.loop = .asking [0] ∧ ∀ a, a.own = true → k.1.step (codec true) a = none := by
    refine ⟨_, _, rfl, rfl, fun a hown => ?_⟩
    cases a with
    | sends | collects | replyLost | expires | dropsReply | dropsResume | returns => rfl
    | _ => cases hown
  refine ⟨k, o, hrun, hloop, hstuck, fun h => ?_⟩
  obtain ⟨a, hown, hsome⟩ := h.enabled (by rw [hloop]; trivial)
  rw [hstuck a hown] at hsome
  cases hsome

/-- The session finds the first request, and restores itself, before the second call. -/
theorem proceeds_iff_answered :
    (callMachine (codec true)).Always (Proceeds (codec true)) (.start, ⟨[], 0, 0⟩)
      (unanswered ++ [.takes 0 5, .replies 0, .freezeAll [0], .sends]) :=
  (proceeds_iff rfl).mpr (by decide +kernel)

end TrafficDirector.FreezeAll
