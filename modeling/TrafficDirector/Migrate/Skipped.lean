/-
# `TrafficDirector.Migrate.Skipped` — the sessions that `freeze_all` skips

A session that replies in time is in the batch, and its resume channel with it.  One that
finds the receiver of its reply gone restores itself.  Between the last poll of the reply
channel and the drop of its receiver a session can still reply, and then nobody has its
snapshot, and nobody will send it back.

The sessions are seen beside what they would be if they had never been asked to freeze.
`skipped_iff`: when `freeze_all` returns, every session is in its batch, or as it would
be, exactly if no reply has gone in between that poll and that drop.
-/
import TrafficDirector.Migrate.FreezeView

namespace TrafficDirector.FreezeAll

/-! ## The sessions without a freeze -/

/-- Each session as it would be without a freeze; none for one that has ended for a
reason of its own, or has been handed over. -/
abbrev Unfrozen := SessionId → Option Session

/-- The session steps by itself. -/
def Unfrozen.step (c : Codec) (s : Session) (e : Event) : Option Session :=
  match forwardLoop c (.running s) e with
  | some (.running s', _) => some s'
  | _ => none

def Unfrozen.after (c : Codec) (F : State) (kept : Unfrozen) (a : Action) (_ : List Note) :
    Unfrozen :=
  match a with
  | .joins s => Function.update kept F.nextId (some s)
  | .session id e => Function.update kept id ((kept id).bind (fun s => Unfrozen.step c s e))
  -- `resume_skipping` leaves the first `sent` sessions to the process they were sent to
  | .resume sent => fun i => if i ∈ (F.frozen.take sent).map FrozenSession.id then none else kept i
  | _ => kept

def unfrozenMachine (c : Codec) : Machine (State × Unfrozen) Action Note :=
  (machine c).record (Unfrozen.after c)

variable {c : Codec} {F F' : State} {a : Action} {o : List Note} {i : SessionId} {s : Session}

/-- The session waits, its snapshot is in the batch, and so is the sender of its resume
channel. -/
def InBatch (F : State) (i : SessionId) (s : Session) : Prop :=
  i ∈ F.resumes ∧ ∃ clientFd control, s.freeze clientFd ∈ F.frozen ∧
    F.members.get? i = some ⟨.waiting s.emptied clientFd F.calls, control⟩ ∧
    (F.requests (i, F.calls)).resume = .pending

/-- The session runs; or it is in `handle_freeze`, cannot reply, and has its snapshot in
hand; or the snapshot is in its resume channel. -/
def Unharmed (F : State) (i : SessionId) (s : Session) : Prop :=
  (∃ control, F.members.get? i = some ⟨.looping s, control⟩) ∨
    (∃ clientFd call control,
      F.members.get? i = some ⟨.freezing s.emptied clientFd (s.freeze clientFd) call, control⟩ ∧
      (F.requests (i, call)).reply ≠ .pending) ∨
    ∃ clientFd call control,
      F.members.get? i = some ⟨.waiting s.emptied clientFd call, control⟩ ∧
      (F.requests (i, call)).resume = .sent (s.freeze clientFd)

/-- No reply goes in after the last poll of its channel. -/
def RepliesInTime (k : State × Unfrozen) (a : Action) : Prop :=
  ∀ i senders s clientFd session call control, a = .replies i →
    k.1.loop = .expired i senders →
    k.1.members.get? i = some ⟨.freezing s clientFd session call, control⟩ →
    (k.1.requests (i, call)).reply ≠ .pending

/-- A session that is unharmed runs, or the next step it takes by itself brings it back
to where it was. -/
theorem Unharmed.goes_on (h : Unharmed F i s) :
    (∃ control, F.members.get? i = some ⟨.looping s, control⟩) ∨
      ∃ a F' o control, (a = .replies i ∨ a = .wakes i) ∧ F.step c a = some (F', o) ∧
        F'.members.get? i = some ⟨.looping s, control⟩ := by
  rcases h with h | ⟨clientFd, call, control, hm, hreply⟩ | ⟨clientFd, call, control, hm, hresume⟩
  · exact Or.inl h
  · have hsend : (F.requests (i, call)).reply.send (s.freeze clientFd)
        = (((F.requests (i, call)).reply.send (s.freeze clientFd)).1, false) :=
      Prod.ext rfl (Oneshot.send_of_ne hreply)
    have hstep : F.step c (.replies i) = some (State.settle (F.setRequest i call
        ⟨((F.requests (i, call)).reply.send (s.freeze clientFd)).1,
          (F.requests (i, call)).resume.dropReceiver⟩) i control (.running s)) := by
      simp only [State.step, hm]
      rw [hsend, freezeSession_resumed]
    exact Or.inr ⟨_, _, _, control, Or.inl rfl, hstep, (OrdMap.get?_insert ..).trans (if_pos rfl)⟩
  · have hstep : F.step c (.wakes i) = some (State.settle (F.setRequest i call
        { F.requests (i, call) with resume := .gone }) i control (.running s)) := by
      simp only [State.step, hm, hresume]
      rw [freezeSession_resumed]
    exact Or.inr ⟨_, _, _, control, Or.inr rfl, hstep, (OrdMap.get?_insert ..).trans (if_pos rfl)⟩

/-! ## All sessions -/

open View

/-- What holds at any moment. -/
structure Whole (F : State) (kept : Unfrozen) : Prop where
  sound : ∀ i, (F.view i).Sound i (kept i)
  named : ∀ i m, F.members.get? i = some m → i < F.nextId
  unkept : ∀ i, F.nextId ≤ i → kept i = none
  once : (F.loop.current.toList ++ F.loop.unasked).Nodup
  resumes : F.resumes.Nodup
  idle : F.loop = .idle → F.resumes = []
  frozen : F.loop = .idle ∨ (∃ frozen, F.loop = .resuming frozen) → F.frozen = []

variable {kept kept' : Unfrozen} {id : SessionId}

/-- The reply of the session goes in after the last poll. -/
def Late (F : State) (a : Action) (i : SessionId) : Prop :=
  a = .replies i ∧ F.loop.place i = .expired ∧ ∃ s clientFd f call control,
    F.members.get? i = some ⟨.freezing s clientFd f call, control⟩ ∧
    (F.requests (i, call)).reply = .pending

/-- The session in hand is not asked again. -/
theorem Whole.not_again {senders : List SessionId} (h : Whole F kept)
    (heq : F.loop.current.toList ++ F.loop.unasked = id :: senders) : id ∉ senders :=
  (List.nodup_cons.mp (heq ▸ h.once)).1

theorem View.Keeps.refl {V : View} {kept : Option Session} : V.Keeps i V kept kept :=
  fun h => ⟨h, Iff.rfl⟩

/-- A step that concerns one session. -/
theorem keeps_all {V' : View} (id : SessionId) (hself : F'.view id = V')
    (hother : ∀ i ≠ id, F'.view i = F.view i)
    (hkept : ∀ i ≠ id, kept' i = kept i) (hid : (F.view id).Keeps id V' (kept id) (kept' id))
    (i : SessionId) : (F.view i).Keeps i (F'.view i) (kept i) (kept' i) := by
  by_cases hi : i = id
  · rw [hi, hself]
    exact hid
  · rw [hother i hi, hkept i hi]
    exact .refl

theorem keeps_of_view {V' : View} {before after : Option Session} (hview : F'.view i = V')
    (h : (F.view i).Keeps i V' before after) : (F.view i).Keeps i (F'.view i) before after := by
  rw [hview]
  exact h

section Views

variable {m : Member} {requests : SessionId × Nat → Request} {nextId call : Nat} {r : Request}
  {loop : Loop} {task : Task}

theorem sets_update :
    Sets (F.view id).requests (fun call' => Function.update F.requests (id, call) r (id, call'))
      call r where
  now := Function.update_self ..
  other _ hne := Function.update_of_ne (fun heq => hne (Prod.mk.inj heq).2) ..

theorem update_other (hi : i ≠ id) (call' : Nat) :
    Function.update requests (id, call) r (i, call') = requests (i, call') :=
  Function.update_of_ne (fun heq => hi (Prod.mk.inj heq).1) ..

theorem view_insert_self :
    State.view { F with members := F.members.insert id m, requests := requests, nextId := nextId } id
      = { F.view id with member := some m, requests := fun call => requests (id, call) } := by
  simp [State.view]

theorem view_insert_other (hi : i ≠ id)
    (hrequests : ∀ call, requests (i, call) = F.requests (i, call)) :
    State.view { F with members := F.members.insert id m, requests := requests, nextId := nextId } i
      = F.view i := by
  simp [State.view, hi, hrequests]

theorem view_erase_self :
    State.view { F with members := F.members.erase id, requests := requests } id
      = { F.view id with member := none, requests := fun call => requests (id, call) } := by
  simp [State.view]

theorem view_erase_other (hi : i ≠ id)
    (hrequests : ∀ call, requests (i, call) = F.requests (i, call)) :
    State.view { F with members := F.members.erase id, requests := requests } i = F.view i := by
  simp [State.view, hi, hrequests]

theorem view_eq {V : View} (member : F'.members.get? i = V.member)
    (requests : ∀ call, F'.requests (i, call) = V.requests call) (calls : F'.calls = V.calls)
    (place : F'.loop.place i = V.place) (held : decide (i ∈ F'.resumes) = V.held)
    (batch : (F'.frozen ++ F'.loop.toResume).filter (fun f => decide (f.id = i)) = V.batch) :
    F'.view i = V := by
  obtain ⟨_, _, _, _, _, _⟩ := V
  simp only [State.view, View.mk.injEq]
  exact ⟨member, funext requests, calls, place, held, batch⟩

/-- `freeze_all` moves. -/
theorem view_moves {place : Place} (hresume : loop.toResume = F.loop.toResume)
    (hplace : loop.place i = place) :
    State.view { F with loop := loop, requests := requests } i
      = { F.view i with requests := fun call => requests (i, call), place := place } := by
  simp only [State.view, hresume, hplace]

theorem view_moves_other (hresume : loop.toResume = F.loop.toResume)
    (hplace : loop.place i = F.loop.place i)
    (hrequests : ∀ call, requests (i, call) = F.requests (i, call)) :
    State.view { F with loop := loop, requests := requests } i = F.view i := by
  simp only [State.view, hresume, hplace, hrequests]

theorem batch_of_resuming {frozen : List FrozenSession} (hempty : F.frozen = [])
    (hloop : F.loop = .resuming frozen) :
    (F.view i).batch = frozen.filter (fun f => decide (f.id = i)) := by
  rw [State.view, hloop, hempty]
  rfl

/-- The requests that a session leaves behind. -/
theorem leave_quiet (control : Option Nat) :
    Quiet (F.view id).requests (fun call => (F.leave id control).requests (id, call)) := by
  cases control with
  | none => exact .refl _
  | some call => exact (sets_update (F := F)).quiet_dropped

theorem leave_other (control : Option Nat) (hi : i ≠ id) (call : Nat) :
    (F.leave id control).requests (i, call) = F.requests (i, call) := by
  cases control with
  | none => rfl
  | some _ => exact update_other hi call

end Views

/-- The request goes to a session. -/
theorem Whole.on_sends {senders : List SessionId} {task : Task}
    (loop : F.loop = .asking (id :: senders)) (member : F.members.get? id = some ⟨task, none⟩)
    (i : SessionId) :
    (F.view i).Keeps i (State.view
      ({ F with
        members := F.members.insert id ⟨task, some F.calls⟩
        loop := .polling id senders }.setRequest id F.calls ⟨.pending, .pending⟩) i)
      (kept i) (kept i) := by
  have hplace : (F.view id).place = .unasked := by simp [State.view, Loop.place, loop]
  have hself : State.view
      ({ F with
        members := F.members.insert id ⟨task, some F.calls⟩
        loop := .polling id senders }.setRequest id F.calls ⟨.pending, .pending⟩) id
      = { F.view id with
          member := some ⟨task, some F.calls⟩
          requests := fun call =>
            Function.update F.requests (id, F.calls) ⟨.pending, .pending⟩ (id, call)
          place := .polling } :=
    view_eq ((OrdMap.get?_insert ..).trans (if_pos rfl)) (fun _ => rfl) rfl (if_pos rfl) rfl
      (by rw [State.view, loop]; rfl)
  refine keeps_all id hself (fun i hi => ?_) (fun _ _ => rfl)
    (keeps_sends member hplace sets_update) i
  refine view_eq ((OrdMap.get?_insert ..).trans (if_neg hi)) (update_other hi) rfl ?_ rfl
    (by rw [State.view, loop]; rfl)
  simp [State.view, State.setRequest, Loop.place, loop, hi]

/-- The snapshot of a session goes into the batch. -/
theorem Whole.on_collects (h : Whole F kept) {senders : List SessionId} {f : FrozenSession}
    (loop : F.loop = .polling id senders) (reply : (F.requests (id, F.calls)).reply = .sent f)
    (i : SessionId) :
    (F.view i).Keeps i (State.view
      ({ F with
        frozen := F.frozen ++ [f]
        resumes := F.resumes ++ [id]
        loop := .asking senders }.setRequest id F.calls
          { F.requests (id, F.calls) with reply := .gone }) i) (kept i) (kept i) := by
  have honce : id ∉ senders := h.not_again (by rw [loop]; rfl)
  have hplace : (F.view id).place = .polling := by simp [State.view, Loop.place, loop]
  have hid : f.id = id := ((h.sound id).sent F.calls f reply).2.2.1
  have hself : State.view
      ({ F with
        frozen := F.frozen ++ [f]
        resumes := F.resumes ++ [id]
        loop := .asking senders }.setRequest id F.calls
          { F.requests (id, F.calls) with reply := .gone }) id
      = { F.view id with
          requests := fun call => Function.update F.requests (id, F.calls)
            { F.requests (id, F.calls) with reply := .gone } (id, call)
          place := .elsewhere
          held := true
          batch := (F.view id).batch ++ [f] } := by
    simp [State.view, State.setRequest, Loop.place, Loop.toResume, loop, honce, hid]
  refine keeps_all id hself (fun i hi => ?_) (fun _ _ => rfl)
    (keeps_collects hplace reply sets_update) i
  have hne : f.id ≠ i := fun heq => hi (heq.symm.trans hid)
  simp [State.view, State.setRequest, Loop.place, Loop.toResume, loop, hi, hne]

/-- `resume_skipping(sent)` leaves the snapshots that were sent to the process that has them. -/
theorem Whole.on_resume (h : Whole F kept) {sent : Nat} (loop : F.loop = .returned)
    (i : SessionId) :
    (F.view i).Keeps i
      (State.view { F with loop := .resuming (F.frozen.drop sent), frozen := [] } i) (kept i)
      (if i ∈ (F.frozen.take sent).map FrozenSession.id then none else kept i) := by
  have hsplit : (F.view i).batch
      = (F.frozen.take sent).filter (fun f => decide (f.id = i))
        ++ (F.frozen.drop sent).filter (fun f => decide (f.id = i)) := by
    rw [← List.filter_append, List.take_append_drop, State.view, loop]
    exact congrArg (List.filter _) (List.append_nil _)
  by_cases htaken : i ∈ (F.frozen.take sent).map FrozenSession.id
  · obtain ⟨f, hf, hid⟩ := List.mem_map.mp htaken
    have htake : f ∈ (F.frozen.take sent).filter (fun f => decide (f.id = i)) :=
      List.mem_filter.mpr ⟨hf, decide_eq_true hid⟩
    have hne : (F.view i).batch ≠ [] := by
      rw [hsplit]
      exact List.append_ne_nil_of_left_ne_nil (List.ne_nil_of_mem htake) _
    have hdrop : (F.frozen.drop sent).filter (fun f => decide (f.id = i)) = [] := by
      obtain ⟨g, hg⟩ := ((h.sound i).batch hne).2
      have hlength := congrArg List.length (hsplit.symm.trans hg)
      have hpos := List.length_pos_of_mem htake
      rw [List.length_append, List.length_singleton] at hlength
      exact List.length_eq_zero_iff.mp (by omega)
    have hview : State.view { F with loop := .resuming (F.frozen.drop sent), frozen := [] } i
        = { F.view i with batch := [] } :=
      view_eq rfl (fun _ => rfl) rfl (by rw [State.view, loop]; rfl) rfl hdrop
    rw [hview, if_pos htaken]
    exact keeps_handed hne
  · have htake : (F.frozen.take sent).filter (fun f => decide (f.id = i)) = [] := by
      refine List.filter_eq_nil_iff.mpr (fun f hf hid => htaken ?_)
      exact List.mem_map.mpr ⟨f, hf, of_decide_eq_true hid⟩
    rw [htake, List.nil_append] at hsplit
    have hview : State.view { F with loop := .resuming (F.frozen.drop sent), frozen := [] } i
        = F.view i :=
      view_eq rfl (fun _ => rfl) rfl (by rw [State.view, loop]; rfl) rfl hsplit.symm
    rw [hview, if_neg htaken]
    exact .refl

theorem head_batch {f : FrozenSession} {frozen : List FrozenSession} (hempty : F.frozen = [])
    (loop : F.loop = .resuming (f :: frozen)) :
    (F.view f.id).batch = f :: frozen.filter (fun g => decide (g.id = f.id)) := by
  rw [batch_of_resuming hempty loop]
  exact List.filter_cons_of_pos (by simp)

/-- The snapshot at the head goes back to its session. -/
theorem Whole.on_resumes (h : Whole F kept) {f : FrozenSession} {frozen : List FrozenSession}
    (loop : F.loop = .resuming (f :: frozen)) (i : SessionId) :
    (F.view i).Keeps i (State.view
      ({ F with
        resumes := F.resumes.erase f.id
        loop := .resuming frozen }.setRequest f.id F.calls
          { F.requests (f.id, F.calls) with
            resume := ((F.requests (f.id, F.calls)).resume.send f).1 }) i) (kept i) (kept i) := by
  have hempty : F.frozen = [] := h.frozen (Or.inr ⟨_, loop⟩)
  have hbatch := head_batch hempty loop
  have hrest : frozen.filter (fun g => decide (g.id = f.id)) = [] := by
    obtain ⟨g, hg⟩ := ((h.sound f.id).batch (by rw [hbatch]; exact List.cons_ne_nil _ _)).2
    exact (List.cons.inj (hbatch.symm.trans hg)).2
  have hself : State.view
      ({ F with
        resumes := F.resumes.erase f.id
        loop := .resuming frozen }.setRequest f.id F.calls
          { F.requests (f.id, F.calls) with
            resume := ((F.requests (f.id, F.calls)).resume.send f).1 }) f.id
      = { F.view f.id with
          requests := fun call => Function.update F.requests (f.id, F.calls)
            { F.requests (f.id, F.calls) with
              resume := ((F.requests (f.id, F.calls)).resume.send f).1 } (f.id, call)
          held := false
          batch := [] } := by
    refine view_eq rfl (fun _ => rfl) rfl (by rw [State.view, loop]; rfl) ?_ ?_
    · exact decide_eq_false h.resumes.not_mem_erase
    · show (F.frozen ++ frozen).filter _ = []
      rw [hempty]
      exact hrest
  refine keeps_all f.id hself (fun i hi => ?_) (fun _ _ => rfl)
    (keeps_resumes (hbatch.trans (congrArg (List.cons f) hrest)) sets_update) i
  refine view_eq rfl (update_other hi) rfl (by rw [State.view, loop]; rfl) ?_ ?_
  · exact decide_eq_decide.mpr (List.mem_erase_of_ne hi)
  · rw [batch_of_resuming hempty loop, List.filter_cons_of_neg (by simp [Ne.symm hi])]
    exact congrArg (List.filter _) (congrArg (· ++ frozen) hempty)

/-- The senders that are left are dropped. -/
theorem Whole.on_finishes (h : Whole F kept) (loop : F.loop = .resuming []) (i : SessionId) :
    (F.view i).Keeps i
      (State.view { F with requests := F.dropResumes, loop := .idle, resumes := [] } i)
      (kept i) (kept i) := by
  have hempty : F.frozen = [] := h.frozen (Or.inr ⟨_, loop⟩)
  have hbatch : (F.view i).batch = [] := batch_of_resuming hempty loop
  by_cases hi : i ∈ F.resumes
  · have hsets : Sets (F.view i).requests (fun call => F.dropResumes (i, call)) F.calls
        { F.requests (i, F.calls) with
          resume := (F.requests (i, F.calls)).resume.dropSender } :=
      ⟨if_pos ⟨rfl, hi⟩, fun call hne => if_neg (fun hcall => hne hcall.1)⟩
    have hview : State.view { F with requests := F.dropResumes, loop := .idle, resumes := [] } i
        = { F.view i with
            requests := fun call => F.dropResumes (i, call), held := false } := by
      refine view_eq rfl (fun _ => rfl) rfl (by rw [State.view, loop]; rfl) rfl ?_
      rw [hbatch, hempty]
      rfl
    rw [hview]
    exact keeps_finishes (decide_eq_true hi) hbatch hsets
  · have hview : State.view { F with requests := F.dropResumes, loop := .idle, resumes := [] } i
        = F.view i := by
      refine view_eq rfl (fun call => if_neg (fun hcall => hi hcall.2)) rfl
        (by rw [State.view, loop]; rfl) (decide_eq_decide.mpr ?_) ?_
      · exact iff_of_false List.not_mem_nil hi
      · rw [hbatch, hempty]
        rfl
    rw [hview]
    exact .refl

theorem keeps_step (h : Whole F kept) (hs : Step c F a F' o) (i : SessionId)
    (hlate : ¬ Late F a i) :
    (F.view i).Keeps i (F'.view i) (kept i) (Unfrozen.after c F kept a o i) := by
  have hfresh : F.members.get? F.nextId = none := by
    cases hm : F.members.get? F.nextId with
    | none => rfl
    | some m => exact absurd (h.named _ m hm) (Nat.lt_irrefl _)
  cases hs with
  | @joins s named =>
      refine keeps_all F.nextId view_insert_self
        (fun _ hi => view_insert_other hi (fun _ => rfl))
        (fun _ hi => Function.update_of_ne hi ..) ?_ i
      simp only [Unfrozen.after, Function.update_self]
      exact keeps_joins hfresh (h.unkept _ (Nat.le_refl _)) named
  | @stepped id e s s' control out member stays loop =>
      refine keeps_all id view_insert_self
        (fun _ hi => view_insert_other hi (fun _ => rfl))
        (fun _ hi => Function.update_of_ne hi ..) (keeps_stepped member ?_ (fun hk => ?_)) i
      · exact forwardLoop_id stays loop
      · simp only [Unfrozen.after, Function.update_self, hk, Option.bind_some, Unfrozen.step, loop]
  | @ends id e s control result out member stays loop =>
      refine keeps_all id view_erase_self
        (fun _ hi => view_erase_other hi (leave_other control hi))
        (fun _ hi => Function.update_of_ne hi ..)
        (keeps_ends member (leave_quiet control) (fun hk => ?_)) i
      simp only [Unfrozen.after, Function.update_self, hk, Option.bind_some, Unfrozen.step, loop]
  | @takes id clientFd s call member =>
      exact keeps_all id view_insert_self
        (fun _ hi => view_insert_other hi (fun _ => rfl)) (fun _ _ => rfl) (keeps_takes member) i
  | @replies id s clientFd session call control member reply =>
      by_cases hi : i = id
      · subst hi
        refine keeps_of_view view_insert_self (fun hsound => ?_)
        obtain ⟨hsound', -, hnot, hdoomed⟩ := hsound.replies member reply sets_update
        refine ⟨hsound', iff_of_false (fun hd => hlate ?_) (fun hd => hnot hd.2)⟩
        exact ⟨rfl, hdoomed.mp hd.2, _, _, _, _, _, member, reply⟩
      · exact keeps_of_view (view_insert_other hi (update_other hi)) .refl
  | @restores id s s' clientFd session call control member reply back =>
      refine keeps_all id view_insert_self
        (fun _ hi => view_insert_other hi (update_other hi)) (fun _ _ => rfl)
        (keeps_restores member back (sets_update.quiet (fun hp => ?_) (fun f hs => ?_))) i
      · exact absurd hp Oneshot.send_eq_pending
      · exact Oneshot.send_eq_sent reply hs
  | @wakes id s s' clientFd session call control member resume back =>
      have hsets : Sets (F.view id).requests _ call
          { F.requests (id, call) with resume := .gone } := sets_update
      exact keeps_all id view_insert_self
        (fun _ hi => view_insert_other hi (update_other hi)) (fun _ _ => rfl)
        (keeps_wakes member resume back (hsets.quiet
          (fun hp => ⟨hp, (fun hr => by cases resume.symm.trans hr)⟩) (fun _ hs => hs))) i
  | @exits id s clientFd call control member resume =>
      have hsets : Sets (F.view id).requests _ call
          { F.requests (id, call) with resume := .gone } := sets_update
      have hquiet := hsets.quiet
        (fun hp => ⟨hp, (fun hr => by cases resume.symm.trans hr)⟩) (fun _ hs => hs)
      refine keeps_all id view_erase_self
        (fun _ hi => view_erase_other hi (fun call' => ?_)) (fun _ _ => rfl)
        (keeps_exits member resume (hquiet.trans
          (leave_quiet (F := F.setRequest id call { F.requests (id, call) with resume := .gone })
            control))) i
      exact (leave_other control hi call').trans (update_other hi call')
  | @freezes senders idle all =>
      have hview : State.view { F with calls := F.calls + 1, loop := .asking senders } i
          = { F.view i with
              calls := F.calls + 1, place := if i ∈ senders then .unasked else .elsewhere } := by
        simp [State.view, Loop.place, Loop.toResume, idle]
      have hplace : (F.view i).place = .elsewhere := by simp [State.view, Loop.place, idle]
      have hheld : (F.view i).held = false := by simp [State.view, h.idle idle]
      rw [hview]
      refine keeps_freezes hplace hheld ?_
      split
      · exact Or.inl rfl
      · exact Or.inr rfl
  | @gone id senders loop member =>
      have honce : id ∉ senders := h.not_again (by rw [loop]; rfl)
      have hplace : (F.view id).place = .unasked := by simp [State.view, Loop.place, loop]
      exact keeps_all id (view_moves (by rw [loop]; rfl) (Loop.place_asking honce))
        (fun i hi => view_moves_other (by rw [loop]; rfl) (by simp [Loop.place, loop, hi])
          (fun _ => rfl)) (fun _ _ => rfl) (keeps_gone member hplace) i
  | @sends id senders task loop member => exact Whole.on_sends loop member i
  | @collects id senders f loop reply => exact h.on_collects loop reply i
  | @replyLost id senders loop reply =>
      have hplace : (F.view id).place = .polling := by simp [State.view, Loop.place, loop]
      have hnot : ∀ f, ((F.view id).requests (F.view id).calls).reply ≠ .sent f :=
        fun f hs => by cases reply.symm.trans hs
      exact keeps_all id (view_moves (by rw [loop]; rfl) Loop.place_leaving)
        (fun i hi => view_moves_other (by rw [loop]; rfl) (by simp [Loop.place, loop, hi])
          (update_other hi)) (fun _ _ => rfl)
        (keeps_leaves (Or.inl ⟨hplace, hnot⟩)
          (Or.inr ⟨rfl, (fun hp => by cases hp), (fun _ hs => by cases hs)⟩) sets_update) i
  | @expires id senders loop reply =>
      have hplace : (F.view id).place = .polling := by simp [State.view, Loop.place, loop]
      have hnot : ∀ f, ((F.view id).requests (F.view id).calls).reply ≠ .sent f :=
        fun f hs => by cases reply.symm.trans hs
      exact keeps_all id (view_moves (by rw [loop]; rfl) Loop.place_expired)
        (fun i hi => view_moves_other (by rw [loop]; rfl) (by simp [Loop.place, loop, hi])
          (fun _ => rfl)) (fun _ _ => rfl)
        (keeps_leaves (Or.inl ⟨hplace, hnot⟩) (Or.inl ⟨rfl, rfl⟩) ⟨rfl, fun _ _ => rfl⟩) i
  | @dropsReply id senders loop =>
      have hplace : (F.view id).place = .expired := by simp [State.view, Loop.place, loop]
      exact keeps_all id (view_moves (by rw [loop]; rfl) Loop.place_leaving)
        (fun i hi => view_moves_other (by rw [loop]; rfl) (by simp [Loop.place, loop, hi])
          (update_other hi)) (fun _ _ => rfl)
        (keeps_leaves (Or.inr hplace)
          (Or.inr ⟨rfl, Oneshot.dropReceiver_eq_pending, fun _ => Oneshot.dropReceiver_eq_sent⟩)
          sets_update) i
  | @dropsResume id senders loop =>
      have honce : id ∉ senders := h.not_again (by rw [loop]; rfl)
      have hplace : (F.view id).place = .leaving := by simp [State.view, Loop.place, loop]
      exact keeps_all id (view_moves (by rw [loop]; rfl) (Loop.place_asking honce))
        (fun i hi => view_moves_other (by rw [loop]; rfl) (by simp [Loop.place, loop, hi])
          (update_other hi)) (fun _ _ => rfl) (keeps_dropsResume hplace sets_update) i
  | returns loop =>
      have hview : State.view { F with loop := .returned } i = F.view i :=
        view_moves_other (by rw [loop]; rfl) (by simp [Loop.place, loop]) (fun _ => rfl)
      rw [hview]
      exact .refl
  | @resume sent loop => exact h.on_resume loop i
  | @resumes f frozen loop resumes => exact h.on_resumes loop i
  | @skips f frozen loop resumes =>
      have hempty : F.frozen = [] := h.frozen (Or.inr ⟨_, loop⟩)
      have hbatch := head_batch hempty loop
      have hheld := ((h.sound f.id).batch (by rw [hbatch]; exact List.cons_ne_nil _ _)).1
      exact absurd (of_decide_eq_true hheld) resumes
  | finishes loop => exact h.on_finishes loop i

theorem dooms_of_view {V' : View} {after : Option Session} (hview : F'.view i = V')
    (h : V'.Sound i after ∧ after.isSome = true ∧ V'.Doomed) :
    (F'.view i).Sound i after ∧ after.isSome = true ∧ (F'.view i).Doomed := by
  rw [hview]
  exact h

/-- A late reply dooms its session. -/
theorem dooms_of_late (h : Whole F kept) (hs : Step c F a F' o) (hlate : Late F a i) :
    (F'.view i).Sound i (Unfrozen.after c F kept a o i) ∧
      ((Unfrozen.after c F kept a o i).isSome = true ∧ (F'.view i).Doomed) := by
  obtain ⟨rfl, hplace, s, clientFd, f, call, control, hm, hreply⟩ := hlate
  cases hs with
  | @replies _ s' clientFd' f' call' control' member reply =>
      obtain ⟨hsound', hsome, -, hdoomed⟩ := (h.sound i).replies member reply sets_update
      exact dooms_of_view view_insert_self ⟨hsound', hsome, hdoomed.mpr hplace⟩
  | restores member reply =>
      cases hm.symm.trans member
      exact absurd hreply reply

theorem sound_step (h : Whole F kept) (hs : Step c F a F' o) (i : SessionId) :
    (F'.view i).Sound i (Unfrozen.after c F kept a o i) ∧
      ((Unfrozen.after c F kept a o i).isSome = true ∧ (F'.view i).Doomed ↔
        ((kept i).isSome = true ∧ (F.view i).Doomed) ∨ Late F a i) := by
  by_cases hlate : Late F a i
  · obtain ⟨hsound, hdoomed⟩ := dooms_of_late h hs hlate
    exact ⟨hsound, iff_of_true hdoomed (Or.inr hlate)⟩
  · obtain ⟨hsound, hdoomed⟩ := keeps_step h hs i hlate (h.sound i)
    exact ⟨hsound, hdoomed.trans (or_iff_left hlate).symm⟩

/-! ## The registry, the batch and the order of the calls -/

theorem unkept_step (h : Whole F kept) (hs : Step c F a F' o) :
    ∀ i, F'.nextId ≤ i → Unfrozen.after c F kept a o i = none := by
  intro i hi
  cases hs with
  | joins named =>
      have hne : i ≠ F.nextId := Nat.ne_of_gt hi
      exact (Function.update_of_ne hne ..).trans (h.unkept i (Nat.le_of_succ_le hi))
  | @stepped id e s s' control out member stays loop =>
      have hne : i ≠ id := fun heq => Nat.not_lt.mpr hi (heq ▸ h.named id _ member)
      exact (Function.update_of_ne hne ..).trans (h.unkept i hi)
  | @ends id e s control result out member stays loop =>
      have hne : i ≠ id := fun heq => Nat.not_lt.mpr hi (heq ▸ h.named id _ member)
      exact (Function.update_of_ne hne ..).trans (h.unkept i hi)
  | resume loop =>
      have hnone := h.unkept i hi
      show (if _ then none else kept i) = none
      rw [hnone]
      exact ite_self _
  | _ => exact h.unkept i hi

theorem once_step (h : Whole F kept) (hs : Step c F a F' o) :
    (F'.loop.current.toList ++ F'.loop.unasked).Nodup := by
  have honce := h.once
  cases hs with
  | freezes idle all => exact all.nodup_iff.mpr F.members.nodup
  | gone loop member =>
      rw [loop] at honce
      exact (List.nodup_cons.mp honce).2
  | sends loop member | replyLost loop | expires loop | dropsReply loop =>
      rw [loop] at honce
      exact honce
  | collects loop | dropsResume loop =>
      rw [loop] at honce
      exact (List.nodup_cons.mp honce).2
  | returns | resume | resumes | skips | finishes => exact List.nodup_nil
  | _ => exact honce

theorem resumes_step (h : Whole F kept) (hs : Step c F a F' o) : F'.resumes.Nodup := by
  cases hs with
  | @collects id senders f loop reply =>
      have hplace : (F.view id).place = .polling := by simp [State.view, Loop.place, loop]
      have hheld : (F.view id).held = false :=
        (h.sound id).not_held_of_place (by rw [hplace]; exact fun hp => by cases hp)
      have hnot : id ∉ F.resumes := of_decide_eq_false hheld
      exact List.nodup_append.mpr ⟨h.resumes, List.nodup_singleton id, by
        rintro _ hx _ hy rfl
        rw [List.mem_singleton.mp hy] at hx
        exact hnot hx⟩
  | resumes => exact h.resumes.erase _
  | finishes => exact List.nodup_nil
  | _ => exact h.resumes

theorem idle_step (h : Whole F kept) (hs : Step c F a F' o) (hidle : F'.loop = .idle) :
    F'.resumes = [] := by
  cases hs with
  | finishes => rfl
  | joins | stepped | ends | takes | replies | restores | wakes | exits => exact h.idle hidle
  | _ => cases hidle

theorem frozen_step (h : Whole F kept) (hs : Step c F a F' o)
    (hloop : F'.loop = .idle ∨ ∃ frozen, F'.loop = .resuming frozen) : F'.frozen = [] := by
  cases hs with
  | resume => rfl
  | resumes loop | skips loop | finishes loop => exact h.frozen (Or.inr ⟨_, loop⟩)
  | joins | stepped | ends | takes | replies | restores | wakes | exits => exact h.frozen hloop
  | _ =>
      rcases hloop with hloop | ⟨_, hloop⟩
      · cases hloop
      · cases hloop

theorem Whole.step (h : Whole F kept) (hs : Step c F a F' o) :
    Whole F' (Unfrozen.after c F kept a o) :=
  ⟨fun i => (sound_step h hs i).1, named_step h.named hs, unkept_step h hs, once_step h hs,
    resumes_step h hs, idle_step h hs, frozen_step h hs⟩

theorem whole_start : Whole .start (fun _ => none) where
  sound i := by
    refine ⟨(fun _ hs => by cases hs), (fun _ _ _ _ _ hm => by cases hm),
      (fun _ _ hm => by cases hm), (fun _ hp => by cases hp), (fun _ _ hs => by cases hs),
      (fun held => by cases held), (fun hne => absurd rfl hne), .gone rfl⟩
  named i m h := by cases h
  unkept i _ := rfl
  once := List.nodup_nil
  resumes := List.nodup_nil
  idle _ := rfl
  frozen _ := rfl

/-! ## Runs -/

theorem place_eq_expired {loop : Loop} (h : loop.place i = .expired) :
    ∃ senders, loop = .expired i senders := by
  cases loop with
  | expired id senders =>
      by_cases hi : i = id
      · exact ⟨senders, by rw [hi]⟩
      · rw [Loop.place, if_neg hi] at h
        split at h
        · cases h
        · cases h
  | polling id senders | leaving id senders =>
      rw [Loop.place] at h
      split at h
      · cases h
      · split at h
        · cases h
        · cases h
  | asking senders =>
      rw [Loop.place] at h
      split at h
      · cases h
      · cases h
  | idle | returned | resuming => cases h

/-- Some session is gone, or waits for a snapshot that nobody will send. -/
def Harmed (k : State × Unfrozen) : Prop :=
  ∃ i, (k.2 i).isSome = true ∧ (k.1.view i).Doomed

variable {k k' : State × Unfrozen}

theorem repliesInTime_iff : RepliesInTime k a ↔ ∀ i, ¬ Late k.1 a i := by
  constructor
  · rintro h i ⟨ha, hplace, s, clientFd, f, call, control, hm, hreply⟩
    obtain ⟨senders, hloop⟩ := place_eq_expired hplace
    exact h i senders s clientFd f call control ha hloop hm hreply
  · intro h i senders s clientFd f call control ha hloop hm hreply
    refine h i ⟨ha, ?_, s, clientFd, f, call, control, hm, hreply⟩
    rw [hloop]
    exact Loop.place_expired

/-- The reply channel that a step uses after the last poll. -/
def State.late (F : State) : Action → Option (SessionId × Nat)
  | .replies i =>
      match F.loop, F.members.get? i with
      | .expired id _, some ⟨.freezing _ _ _ call, _⟩ => if id = i then some (i, call) else none
      | _, _ => none
  | _ => none

instance (k : State × Unfrozen) (a : Action) : Decidable (RepliesInTime k a) := by
  refine decidable_of_iff (∀ key ∈ k.1.late a, (k.1.requests key).reply ≠ .pending) ?_
  constructor
  · rintro h i senders s clientFd session call control rfl hloop hm
    exact h (i, call) (by simp [State.late, hloop, hm])
  · intro h key hkey
    cases a with
    | replies i =>
        simp only [State.late] at hkey
        split at hkey
        · next id senders s clientFd f call control hloop hm =>
            split at hkey
            · next hid =>
                cases hkey
                exact h i senders s clientFd f call control rfl (hid ▸ hloop) hm
            · cases hkey
        · cases hkey
    | _ => cases hkey

theorem unfrozenMachine_step : (unfrozenMachine c).step k a = some (k', o) ↔
    k.1.step c a = some (k'.1, o) ∧ k'.2 = Unfrozen.after c k.1 k.2 a o :=
  Machine.record_step_eq_some

theorem harmed_step (h : Whole k.1 k.2) (hs : (unfrozenMachine c).step k a = some (k', o)) :
    Harmed k' ↔ Harmed k ∨ ¬ RepliesInTime k a := by
  obtain ⟨hs, hkept⟩ := unfrozenMachine_step.mp hs
  have hsound := sound_step h (step_of_step hs)
  rw [repliesInTime_iff, not_forall, Harmed, hkept, Harmed, ← exists_or]
  refine exists_congr (fun i => ?_)
  rw [not_not]
  exact (hsound i).2

/-- When `freeze_all` has returned, a session that is not doomed is in the batch, or
unharmed. -/
theorem accounted_of_returned (h : Whole F kept) (hloop : F.loop = .returned)
    (hkept : kept i = some s) :
    (InBatch F i s ∨ Unharmed F i s) ↔ ¬ (F.view i).Doomed := by
  have hbatch : (F.view i).batch = F.frozen.filter (fun f => decide (f.id = i)) := by
    rw [State.view, hloop]
    exact congrArg (List.filter _) (List.append_nil _)
  have hplace : (F.view i).place = .elsewhere := by rw [State.view, hloop]; rfl
  have hearly : ¬ ((F.view i).place = .expired ∨ (F.view i).place = .leaving) := by
    rw [hplace]
    rintro (hp | hp)
    · cases hp
    · cases hp
  constructor
  · rintro (⟨-, clientFd, control, -, hm, hpending⟩ | ⟨control, hm⟩ |
      ⟨clientFd, call, control, hm, -⟩ | ⟨clientFd, call, control, hm, hsent⟩) hd
    · cases hd with
      | gone m => cases hm.symm.trans m
      | closed m hclosed => cases hm.symm.trans m; cases hpending.symm.trans hclosed
      | late m hlate => exact hearly hlate
    · cases hd with
      | gone m => cases hm.symm.trans m
      | closed m => cases hm.symm.trans m
      | late m => cases hm.symm.trans m
    · cases hd with
      | gone m => cases hm.symm.trans m
      | closed m => cases hm.symm.trans m
      | late m => cases hm.symm.trans m
    · cases hd with
      | gone m => cases hm.symm.trans m
      | closed m hclosed => cases hm.symm.trans m; cases hsent.symm.trans hclosed
      | late m hlate => exact hearly hlate
  · intro hnot
    have haccounted := (h.sound i).accounted
    rw [hkept] at haccounted
    cases haccounted.resolve_right hnot with
    | looping m => exact Or.inr (Or.inl ⟨_, m⟩)
    | @freezing clientFd call control m =>
        have hopen := (h.sound i).not_open (by rw [hplace]; rintro (hp | hp) <;> cases hp) call
        exact Or.inr (Or.inr (Or.inl ⟨_, _, _, m, hopen.1⟩))
    | resumed m hresume => exact Or.inr (Or.inr (Or.inr ⟨_, _, _, m, hresume⟩))
    | replied m hp => cases hplace.symm.trans hp
    | @held clientFd control m held hmem =>
        rw [hbatch] at hmem
        exact Or.inl ⟨of_decide_eq_true held, clientFd, control, (List.mem_filter.mp hmem).1, m,
          ((h.sound i).held held).2.resume⟩

/-- When a call of `freeze_all` returns, each session that has neither ended for a reason
of its own nor been handed over is in the batch, with its snapshot and the sender of its
resume channel, or goes on as if it had not been asked, exactly if no reply has gone in
between the last poll of its channel and the drop of the receiver. -/
theorem skipped_iff {es : List Action}
    (hrun : (unfrozenMachine c).run (.start, fun _ => none) es = some (k, o))
    (hreturned : k.1.loop = .returned) :
    (∀ i s, k.2 i = some s → InBatch k.1 i s ∨ Unharmed k.1 i s) ↔
      (unfrozenMachine c).Along RepliesInTime (.start, fun _ => none) es := by
  have hinv : ∀ k a k' o, Whole k.1 k.2 → (unfrozenMachine c).step k a = some (k', o) →
      Whole k'.1 k'.2 := by
    intro k a k' o h hs
    obtain ⟨hs, hkept⟩ := unfrozenMachine_step.mp hs
    rw [hkept]
    exact h.step (step_of_step hs)
  have hwhole : Whole k.1 k.2 := Machine.run_induction hinv whole_start hrun
  have hstart : ¬ Harmed (.start, fun _ => none) := by
    rintro ⟨i, hsome, -⟩
    cases hsome
  have hiff := Machine.along_iff hinv (fun _ _ _ _ h hs => harmed_step h hs) whole_start hrun
  rw [← (hiff.trans (and_iff_right hstart))]
  constructor
  · rintro h ⟨i, hsome, hdoomed⟩
    obtain ⟨s, hs⟩ := Option.isSome_iff_exists.mp hsome
    exact (accounted_of_returned hwhole hreturned hs).mp (h i s hs) hdoomed
  · intro hnot i s hs
    refine (accounted_of_returned hwhole hreturned hs).mpr (fun hdoomed => hnot ⟨i, ?_, hdoomed⟩)
    rw [hs]
    rfl

open ReferenceCodec

/-- The session replies when `freeze_all` has looked for the last time. -/
def repliesLate : List Action :=
  [.joins connected, .freezeAll [0], .sends, .takes 0 5, .expires, .replies 0, .dropsReply,
    .dropsResume, .returns]

/-- It is not in the batch, finds its resume channel closed, and exits. -/
theorem skipped_exits : ∃ k k' o o',
    (unfrozenMachine (codec true)).run (.start, fun _ => none) repliesLate = some (k, o) ∧
    k.1.loop = .returned ∧ k.2 0 = some connected ∧ k.1.frozen = [] ∧
    ¬ (InBatch k.1 0 connected ∨ Unharmed k.1 0 connected) ∧
    k.1.step (codec true) (.wakes 0) = some (k', o') ∧ k'.members.get? 0 = none := by
  obtain ⟨k, o, hrun, hloop, hkept, hfrozen, hresumes, hm, hresume, hwakes⟩ : ∃ k o,
      (unfrozenMachine (codec true)).run (.start, fun _ => none) repliesLate = some (k, o) ∧
      k.1.loop = .returned ∧ k.2 0 = some connected ∧ k.1.frozen = [] ∧ k.1.resumes = [] ∧
      k.1.members.get? 0 = some ⟨.waiting connected.emptied 5 1, none⟩ ∧
      (k.1.requests (0, 1)).resume = .closed ∧
      ∃ k' o', k.1.step (codec true) (.wakes 0) = some (k', o') ∧ k'.members.get? 0 = none :=
    ⟨_, _, rfl, rfl, rfl, rfl, rfl, rfl, rfl, _, _, rfl, rfl⟩
  obtain ⟨k', o', hstep, hgone⟩ := hwakes
  refine ⟨k, k', o, o', hrun, hloop, hkept, hfrozen, ?_, hstep, hgone⟩
  rintro (⟨hmem, -⟩ | ⟨control, h⟩ | ⟨clientFd, call, control, h, -⟩ |
    ⟨clientFd, call, control, h, hsent⟩)
  · rw [hresumes] at hmem
    cases hmem
  · cases hm.symm.trans h
  · cases hm.symm.trans h
  · cases hm.symm.trans h
    cases hresume.symm.trans hsent

/-- One session replies in time, and the other when `freeze_all` has gone on. -/
def repliesOnce : List Action :=
  [.joins connected, .joins cutOff, .freezeAll [1, 0], .sends, .takes 1 6, .replies 1, .collects,
    .sends, .takes 0 5, .expires, .dropsReply, .dropsResume, .replies 0, .returns]

/-- The second is skipped, and has restored itself. -/
theorem skipped_iff_inTime : ∃ k o,
    (unfrozenMachine (codec true)).run (.start, fun _ => none) repliesOnce = some (k, o) ∧
    k.1.loop = .returned ∧ k.1.frozen = [cutOff.freeze 6] ∧
    k.2 0 = some connected ∧ k.2 1 = some cutOff ∧
    k.1.members.get? 0 = some ⟨.looping connected, none⟩ ∧
    ∀ i s, k.2 i = some s → InBatch k.1 i s ∨ Unharmed k.1 i s := by
  have hrun : (unfrozenMachine (codec true)).run (.start, fun _ => none) repliesOnce
      = some (_, _) := rfl
  refine ⟨_, _, hrun, rfl, rfl, rfl, rfl, rfl, ?_⟩
  exact (skipped_iff hrun rfl).mpr (by decide +kernel)

end TrafficDirector.FreezeAll
