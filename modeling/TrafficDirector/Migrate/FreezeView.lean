/-
# `TrafficDirector.Migrate.FreezeView` — one session and `freeze_all`

What there is of one session (`State.view`): its task and its control channel, its
requests, where `freeze_all` is with it, and its part of the batch.  A session is as it
would be without a freeze (`View.Fits`), or is lost to one (`View.Doomed`).

`View.Sound` is what holds at any moment, and each step on the session's side or on
`freeze_all`'s side keeps it.  Only one of them dooms a session: a reply that goes in
after the last poll of its channel (`View.Sound.replies`).
-/
import TrafficDirector.Migrate.FreezeAll

namespace TrafficDirector.FreezeAll

variable {F : State} {i : SessionId} {s : Session}

/-! ## One session and its channels -/

/-- Where `freeze_all` is, seen from one session. -/
inductive Place where
  | unasked
  | polling
  | expired
  | leaving
  | elsewhere
deriving DecidableEq

def Loop.place (i : SessionId) : Loop → Place
  | .asking senders => if i ∈ senders then .unasked else .elsewhere
  | .polling id senders =>
      if i = id then .polling else if i ∈ senders then .unasked else .elsewhere
  | .expired id senders =>
      if i = id then .expired else if i ∈ senders then .unasked else .elsewhere
  | .leaving id senders =>
      if i = id then .leaving else if i ∈ senders then .unasked else .elsewhere
  | _ => .elsewhere

namespace Loop

variable {id : SessionId} {senders : List SessionId}

theorem place_polling : (polling id senders).place id = .polling := if_pos rfl

theorem place_expired : (expired id senders).place id = .expired := if_pos rfl

theorem place_leaving : (leaving id senders).place id = .leaving := if_pos rfl

theorem place_asking (h : id ∉ senders) : (asking senders).place id = .elsewhere := if_neg h

end Loop

/-- The sessions that `resume_skipping` still has to resume. -/
def Loop.toResume : Loop → List FrozenSession
  | .resuming frozen => frozen
  | _ => []

/-- What there is of one session. -/
structure View where
  member : Option Member
  requests : Nat → Request
  calls : Nat
  place : Place
  /-- its sender is in the batch -/
  held : Bool
  /-- its snapshots in the batch -/
  batch : List FrozenSession

def State.view (F : State) (i : SessionId) : View where
  member := F.members.get? i
  requests call := F.requests (i, call)
  calls := F.calls
  place := F.loop.place i
  held := decide (i ∈ F.resumes)
  batch := (F.frozen ++ F.loop.toResume).filter (fun f => decide (f.id = i))

/-- The request of one call is now `r`. -/
structure Sets (old new : Nat → Request) (call : Nat) (r : Request) : Prop where
  now : new call = r
  other : ∀ call' ≠ call, new call' = old call'

/-- No reply channel is opened, none gets a value, and of the resume channels none goes
before the reply. -/
structure Quiet (old new : Nat → Request) : Prop where
  pending : ∀ call, (new call).reply = .pending → (old call).reply = .pending ∧
    ((old call).resume = .pending → (new call).resume = .pending)
  sent : ∀ call f, (new call).reply = .sent f → (old call).reply = .sent f

section Quiet

variable {old mid new : Nat → Request} {call : Nat} {r : Request}

theorem Quiet.refl (old : Nat → Request) : Quiet old old :=
  ⟨fun _ h => ⟨h, fun h => h⟩, fun _ _ h => h⟩

theorem Quiet.trans (h : Quiet old mid) (h' : Quiet mid new) : Quiet old new where
  pending call hnew := by
    obtain ⟨hmid, hresume'⟩ := h'.pending call hnew
    obtain ⟨hold, hresume⟩ := h.pending call hmid
    exact ⟨hold, fun hp => hresume' (hresume hp)⟩
  sent call f hnew := h.sent call f (h'.sent call f hnew)

theorem Sets.quiet (h : Sets old new call r)
    (hpending : r.reply = .pending → (old call).reply = .pending ∧
      ((old call).resume = .pending → r.resume = .pending))
    (hsent : ∀ f, r.reply = .sent f → (old call).reply = .sent f) : Quiet old new where
  pending call' hnew := by
    by_cases hcall : call' = call
    · rw [hcall, h.now] at hnew ⊢
      exact hpending hnew
    · rw [h.other call' hcall] at hnew ⊢
      exact ⟨hnew, fun hp => hp⟩
  sent call' f hnew := by
    by_cases hcall : call' = call
    · rw [hcall, h.now] at hnew
      exact hcall ▸ hsent f hnew
    · rwa [h.other call' hcall] at hnew

theorem Sets.quiet_dropped (h : Sets old new call (old call).dropped) : Quiet old new :=
  h.quiet (fun hp => absurd hp Oneshot.dropSender_eq_pending)
    (fun _ hs => Oneshot.dropSender_eq_sent.mp hs)

end Quiet

namespace View

variable {V : View}

/-- Where the session is, if it is as it would be without a freeze. -/
inductive Fits (V : View) (s : Session) : Prop where
  | looping {control : Option Nat} (member : V.member = some ⟨.looping s, control⟩)
  | freezing {clientFd : Int} {call : Nat} {control : Option Nat}
      (member : V.member = some ⟨.freezing s.emptied clientFd (s.freeze clientFd) call, control⟩)
  | resumed {clientFd : Int} {call : Nat} {control : Option Nat}
      (member : V.member = some ⟨.waiting s.emptied clientFd call, control⟩)
      (resume : (V.requests call).resume = .sent (s.freeze clientFd))
  | replied {clientFd : Int} {control : Option Nat}
      (member : V.member = some ⟨.waiting s.emptied clientFd V.calls, control⟩)
      (place : V.place = .polling)
      (reply : (V.requests V.calls).reply = .sent (s.freeze clientFd))
  | held {clientFd : Int} {control : Option Nat}
      (member : V.member = some ⟨.waiting s.emptied clientFd V.calls, control⟩)
      (held : V.held = true) (batch : s.freeze clientFd ∈ V.batch)

/-- The session has gone, or waits for a snapshot that nobody will send. -/
inductive Doomed (V : View) : Prop where
  | gone (member : V.member = none)
  | closed {s : Session} {clientFd : Int} {call : Nat} {control : Option Nat}
      (member : V.member = some ⟨.waiting s clientFd call, control⟩)
      (resume : (V.requests call).resume = .closed)
  | late {s : Session} {clientFd : Int} {control : Option Nat}
      (member : V.member = some ⟨.waiting s clientFd V.calls, control⟩)
      (place : V.place = .expired ∨ V.place = .leaving)
      (resume : (V.requests V.calls).resume = .pending)

/-- The session is handed over: it has gone, or is about to. -/
inductive Over (V : View) : Prop where
  | gone (member : V.member = none)
  | closed {s : Session} {clientFd : Int} {call : Nat} {control : Option Nat}
      (member : V.member = some ⟨.waiting s clientFd call, control⟩)
      (resume : (V.requests call).resume = .closed)
  | held (held : V.held = true) (batch : V.batch = [])

/-- There is an explanation for where the session is. -/
def Accounted (V : View) : Option Session → Prop
  | some s => V.Fits s ∨ V.Doomed
  | none => V.Over

/-- The session waits for its resume channel, whose sender is there. -/
structure Awaits (V : View) (call : Nat) : Prop where
  member : ∃ s clientFd control, V.member = some ⟨.waiting s clientFd call, control⟩
  resume : (V.requests call).resume = .pending

/-- What holds of a session and its channels at any moment. -/
structure Sound (i : SessionId) (V : View) (kept : Option Session) : Prop where
  named : ∀ s, kept = some s → s.id = i
  snapshot : ∀ s clientFd f call control,
    V.member = some ⟨.freezing s clientFd f call, control⟩ → f.id = i
  numbered : ∀ m call, V.member = some m → m.task.request = some call ∨ m.control = some call →
    call ≤ V.calls ∧ (V.place = .unasked → call ≠ V.calls)
  pending : ∀ call, (V.requests call).reply = .pending →
    call = V.calls ∧ (V.place = .polling ∨ V.place = .expired) ∧
      (V.requests call).resume = .pending
  sent : ∀ call f, (V.requests call).reply = .sent f →
    call = V.calls ∧ (V.place = .polling ∨ V.place = .expired) ∧ f.id = i ∧ V.Awaits call
  held : V.held = true → V.place = .elsewhere ∧ V.Awaits V.calls
  batch : V.batch ≠ [] → V.held = true ∧ ∃ f, V.batch = [f]
  accounted : V.Accounted kept

/-- A step changes a session's view and keeps it sound, and dooms it no more than it
was. -/
def Keeps (i : SessionId) (V V' : View) (kept kept' : Option Session) : Prop :=
  V.Sound i kept → V'.Sound i kept' ∧
    ((kept'.isSome = true ∧ V'.Doomed) ↔ (kept.isSome = true ∧ V.Doomed))

/-! ## What the session does -/

section Session

variable {kept : Option Session} {s' : Session} {task task' : Task} {control control' : Option Nat}
  {call : Nat} {requests : Nat → Request}

theorem Fits.eq_looping (h : V.Fits s) (member : V.member = some ⟨.looping s', control⟩) :
    s' = s := by
  cases h with
  | looping m => cases member.symm.trans m; rfl
  | freezing m => cases member.symm.trans m
  | resumed m => cases member.symm.trans m
  | replied m => cases member.symm.trans m
  | held m => cases member.symm.trans m

theorem Fits.eq_freezing {clientFd : Int} {f : FrozenSession} (h : V.Fits s)
    (member : V.member = some ⟨.freezing s' clientFd f call, control⟩) :
    s' = s.emptied ∧ f = s.freeze clientFd := by
  cases h with
  | looping m => cases member.symm.trans m
  | freezing m => cases member.symm.trans m; exact ⟨rfl, rfl⟩
  | resumed m => cases member.symm.trans m
  | replied m => cases member.symm.trans m
  | held m => cases member.symm.trans m

theorem Awaits.eq_waiting (h : V.Awaits call) (member : V.member = some ⟨task, control⟩) :
    ∃ s clientFd, task = .waiting s clientFd call := by
  obtain ⟨s, clientFd, control', hm⟩ := h.member
  cases member.symm.trans hm
  exact ⟨s, clientFd, rfl⟩

theorem not_awaits_of_task (member : V.member = some ⟨task, control⟩)
    (hworks : ∀ s clientFd call, task ≠ .waiting s clientFd call) : ∀ call, ¬ V.Awaits call := by
  intro call h
  obtain ⟨s, clientFd, htask⟩ := h.eq_waiting member
  exact hworks s clientFd call htask

theorem not_awaits_of_resume {clientFd : Int}
    (member : V.member = some ⟨.waiting s clientFd call, control⟩)
    (resume : (V.requests call).resume ≠ .pending) : ∀ call, ¬ V.Awaits call := by
  intro call' h
  obtain ⟨_, _, htask⟩ := h.eq_waiting member
  cases htask
  exact resume h.resume

/-- A session whose resume channel's sender has gone, or that has not come to look at it,
is not in the batch, nor about to be. -/
theorem Sound.not_held (h : V.Sound i kept) (hno : ∀ call, ¬ V.Awaits call) : V.held = false :=
  eq_false_of_ne_true (fun hheld => hno _ (h.held hheld).2)

theorem Sound.not_sent (h : V.Sound i kept) (hno : ∀ call, ¬ V.Awaits call) :
    ∀ call f, (V.requests call).reply ≠ .sent f :=
  fun call f hsent => hno call (h.sent call f hsent).2.2.2

theorem Sound.batch_eq_nil (h : V.Sound i kept) (hheld : V.held = false) : V.batch = [] := by
  by_contra hne
  exact absurd (h.batch hne).1 (by rw [hheld]; exact Bool.false_ne_true)

/-- What is known of a session that is in its loop, or about to reply. -/
structure Working (i : SessionId) (V : View) (kept : Option Session) : Prop where
  fits : ∃ s, kept = some s ∧ V.Fits s ∧ s.id = i
  doomed : ¬ V.Doomed

theorem Sound.working (h : V.Sound i kept) (member : V.member = some ⟨task, control⟩)
    (hworks : ∀ s clientFd call, task ≠ .waiting s clientFd call) : V.Working i kept := by
  have hdoomed : ¬ V.Doomed := by
    intro hdoomed
    cases hdoomed with
    | gone m => cases member.symm.trans m
    | closed m => cases member.symm.trans m; exact hworks _ _ _ rfl
    | late m => cases member.symm.trans m; exact hworks _ _ _ rfl
  refine ⟨?_, hdoomed⟩
  have haccounted := h.accounted
  cases kept with
  | some s => exact ⟨s, rfl, haccounted.resolve_right hdoomed, h.named s rfl⟩
  | none =>
      cases haccounted with
      | gone m => cases member.symm.trans m
      | closed m => cases member.symm.trans m; exact absurd rfl (hworks _ _ _)
      | held held =>
          rw [h.not_held (not_awaits_of_task member hworks)] at held
          cases held

/-- The session comes to be, or stays, in its loop or about to reply. -/
theorem Sound.works (h : V.Sound i kept) (hno : ∀ call, ¬ V.Awaits call)
    (hworks : ∀ s clientFd call, task ≠ .waiting s clientFd call)
    (hquiet : Quiet V.requests requests)
    (hnumbered : ∀ call, task.request = some call ∨ control = some call →
      ∃ m, V.member = some m ∧ (m.task.request = some call ∨ m.control = some call))
    (hsnapshot : ∀ s clientFd f call, task = .freezing s clientFd f call → f.id = i)
    (hid : s.id = i)
    (hfits : View.Fits { V with member := some ⟨task, control⟩, requests := requests } s) :
    View.Sound i { V with member := some ⟨task, control⟩, requests := requests } (some s) ∧
      ¬ View.Doomed { V with member := some ⟨task, control⟩, requests := requests } := by
  have hheld := h.not_held hno
  constructor
  · refine ⟨?_, ?_, ?_, ?_, ?_, ?_, ?_, Or.inl hfits⟩
    · intro s hs
      cases hs
      exact hid
    · intro s clientFd f call control hm
      cases hm
      exact hsnapshot _ _ _ _ rfl
    · intro m call hm hcall
      cases hm
      obtain ⟨m, hm, hcall⟩ := hnumbered call hcall
      exact h.numbered m call hm hcall
    · intro call hreply
      obtain ⟨hreply, hresume⟩ := hquiet.pending call hreply
      obtain ⟨hcall, hplace, hold⟩ := h.pending call hreply
      exact ⟨hcall, hplace, hresume hold⟩
    · intro call f hreply
      exact absurd (hquiet.sent call f hreply) (h.not_sent hno call f)
    · intro held
      rw [hheld] at held
      cases held
    · intro hne
      exact absurd (h.batch_eq_nil hheld) hne
  · intro hdoomed
    cases hdoomed with
    | gone m => cases m
    | closed m => exact hworks _ _ _ (congrArg Member.task (Option.some.inj m))
    | late m => exact hworks _ _ _ (congrArg Member.task (Option.some.inj m))

/-- The session ends. -/
theorem Sound.ends {kept' : Option Session} (h : V.Sound i kept) (hno : ∀ call, ¬ V.Awaits call)
    (hquiet : Quiet V.requests requests)
    (hnamed : ∀ s, kept' = some s → s.id = i) :
    View.Sound i { V with member := none, requests := requests } kept' := by
  have hheld := h.not_held hno
  refine ⟨hnamed, ?_, ?_, ?_, ?_, ?_, ?_, ?_⟩
  · intro s clientFd f call control hm
    cases hm
  · intro m call hm
    cases hm
  · intro call hreply
    obtain ⟨hreply, hresume⟩ := hquiet.pending call hreply
    obtain ⟨hcall, hplace, hold⟩ := h.pending call hreply
    exact ⟨hcall, hplace, hresume hold⟩
  · intro call f hreply
    exact absurd (hquiet.sent call f hreply) (h.not_sent hno call f)
  · intro held
    rw [hheld] at held
    cases held
  · intro hne
    exact absurd (h.batch_eq_nil hheld) hne
  · cases kept' with
    | some s => exact Or.inr (.gone rfl)
    | none => exact .gone rfl

theorem Working.keeps {V' : View} {kept' : Option Session} (hw : V.Working i kept)
    (h : V'.Sound i kept' ∧ ¬ V'.Doomed) :
    V'.Sound i kept' ∧ ((kept'.isSome = true ∧ V'.Doomed) ↔ (kept.isSome = true ∧ V.Doomed)) :=
  ⟨h.1, iff_of_false (fun hd => h.2 hd.2) (fun hd => hw.doomed hd.2)⟩

/-- The session's own steps, a freeze apart. -/
theorem keeps_stepped {s₀ : Session} {kept' : Option Session}
    (member : V.member = some ⟨.looping s₀, control⟩) (hid : s'.id = s₀.id)
    (hkept : kept = some s₀ → kept' = some s') :
    V.Keeps i { V with member := some ⟨.looping s', control⟩ } kept kept' := by
  intro h
  have hno := not_awaits_of_task member (fun _ _ _ hne => by cases hne)
  have hw := h.working member (fun _ _ _ hne => by cases hne)
  obtain ⟨s, rfl, hfits, hnamed⟩ := hw.fits
  obtain rfl := hfits.eq_looping member
  obtain rfl := hkept rfl
  refine hw.keeps (h.works hno (fun _ _ _ hne => by cases hne) (.refl _)
    (fun call hcall => ⟨_, member, ?_⟩) (fun _ _ _ _ hne => by cases hne) (hid.trans hnamed)
    (.looping rfl))
  rcases hcall with hcall | hcall
  · cases hcall
  · exact Or.inr hcall

theorem keeps_ends {s₀ : Session} {kept' : Option Session}
    (member : V.member = some ⟨.looping s₀, control⟩) (hquiet : Quiet V.requests requests)
    (hkept : kept = some s₀ → kept' = none) :
    V.Keeps i { V with member := none, requests := requests } kept kept' := by
  intro h
  have hno := not_awaits_of_task member (fun _ _ _ hne => by cases hne)
  have hw := h.working member (fun _ _ _ hne => by cases hne)
  obtain ⟨s, rfl, hfits, -⟩ := hw.fits
  obtain rfl := hfits.eq_looping member
  obtain rfl := hkept rfl
  refine ⟨h.ends hno hquiet (fun _ hs => by cases hs),
    iff_of_false ?_ (fun hd => hw.doomed hd.2)⟩
  rintro ⟨hsome, -⟩
  cases hsome

/-- The session takes up the request in its control channel. -/
theorem keeps_takes {s₀ : Session} {clientFd : Int}
    (member : V.member = some ⟨.looping s₀, some call⟩) :
    V.Keeps i
      { V with member := some ⟨.freezing s₀.emptied clientFd (s₀.freeze clientFd) call, none⟩ }
      kept kept := by
  intro h
  have hno := not_awaits_of_task member (fun _ _ _ hne => by cases hne)
  have hw := h.working member (fun _ _ _ hne => by cases hne)
  obtain ⟨s, rfl, hfits, hnamed⟩ := hw.fits
  obtain rfl := hfits.eq_looping member
  refine hw.keeps (h.works hno (fun _ _ _ hne => by cases hne) (.refl _)
    (fun call' hcall => ⟨_, member, ?_⟩) (fun _ _ _ _ htask => ?_) hnamed (.freezing rfl))
  · rcases hcall with hcall | hcall
    · exact Or.inr hcall
    · cases hcall
  · cases htask
    exact hnamed

/-- The reply does not go in. -/
theorem keeps_restores {s₀ : Session} {clientFd : Int} {f : FrozenSession}
    (member : V.member = some ⟨.freezing s₀ clientFd f call, control⟩)
    (back : freezeSession s₀ clientFd (.resumed f) = .running s')
    (hquiet : Quiet V.requests requests) :
    V.Keeps i { V with member := some ⟨.looping s', control⟩, requests := requests } kept kept := by
  intro h
  have hno := not_awaits_of_task member (fun _ _ _ hne => by cases hne)
  have hw := h.working member (fun _ _ _ hne => by cases hne)
  obtain ⟨s, rfl, hfits, hnamed⟩ := hw.fits
  obtain ⟨rfl, rfl⟩ := hfits.eq_freezing member
  rw [freezeSession_resumed] at back
  cases back
  refine hw.keeps (h.works hno (fun _ _ _ hne => by cases hne) hquiet
    (fun call' hcall => ⟨_, member, ?_⟩) (fun _ _ _ _ htask => by cases htask) hnamed
    (.looping rfl))
  rcases hcall with hcall | hcall
  · cases hcall
  · exact Or.inr hcall

/-- The session finds its snapshot in its resume channel. -/
theorem keeps_wakes {s₀ : Session} {clientFd : Int} {f : FrozenSession}
    (member : V.member = some ⟨.waiting s₀ clientFd call, control⟩)
    (resume : (V.requests call).resume = .sent f)
    (back : freezeSession s₀ clientFd (.resumed f) = .running s')
    (hquiet : Quiet V.requests requests) :
    V.Keeps i { V with member := some ⟨.looping s', control⟩, requests := requests } kept kept := by
  intro h
  have hne : (V.requests call).resume ≠ .pending := by
    rw [resume]
    exact fun hp => by cases hp
  have hno := not_awaits_of_resume member hne
  have hdoomed : ¬ V.Doomed := by
    intro hdoomed
    cases hdoomed with
    | gone m => cases member.symm.trans m
    | closed m hclosed => cases member.symm.trans m; cases resume.symm.trans hclosed
    | late m place hpending => cases member.symm.trans m; exact hne hpending
  have haccounted := h.accounted
  cases kept with
  | none =>
      cases haccounted with
      | gone m => cases member.symm.trans m
      | closed m hclosed => cases member.symm.trans m; cases resume.symm.trans hclosed
      | held held => exact absurd (h.held held).2 (hno _)
  | some s =>
      have hfits := haccounted.resolve_right hdoomed
      obtain rfl : s = s' := by
        cases hfits with
        | looping m => cases member.symm.trans m
        | freezing m => cases member.symm.trans m
        | resumed m hsent =>
            cases member.symm.trans m
            cases resume.symm.trans hsent
            rw [freezeSession_resumed] at back
            exact Outcome.running.inj back
        | replied m place hreply => exact absurd hreply (h.not_sent hno _ _)
        | held m held => exact absurd (h.held held).2 (hno _)
      have hw : V.Working i (some s) := ⟨⟨s, rfl, hfits, h.named s rfl⟩, hdoomed⟩
      refine hw.keeps (h.works hno (fun _ _ _ hne => by cases hne) hquiet
        (fun call' hcall => ⟨_, member, ?_⟩) (fun _ _ _ _ htask => by cases htask)
        (h.named s rfl) (.looping rfl))
      rcases hcall with hcall | hcall
      · cases hcall
      · exact Or.inr hcall

/-- The session finds its resume channel closed. -/
theorem keeps_exits {s₀ : Session} {clientFd : Int}
    (member : V.member = some ⟨.waiting s₀ clientFd call, control⟩)
    (resume : (V.requests call).resume = .closed) (hquiet : Quiet V.requests requests) :
    V.Keeps i { V with member := none, requests := requests } kept kept := by
  intro h
  have hno := not_awaits_of_resume member (by rw [resume]; exact fun hp => by cases hp)
  exact ⟨h.ends hno hquiet h.named,
    and_congr_right (fun _ => iff_of_true (.gone rfl) (.closed member resume))⟩

theorem keeps_joins (member : V.member = none) (hnone : kept = none) (hid : s.id = i) :
    V.Keeps i { V with member := some ⟨.looping s, none⟩ } kept (some s) := by
  intro h
  have hno : ∀ call, ¬ V.Awaits call := by
    intro call hawaits
    obtain ⟨_, _, _, hm⟩ := hawaits.member
    cases member.symm.trans hm
  have hworks : View.Sound i { V with member := some ⟨.looping s, none⟩ } (some s) ∧
      ¬ View.Doomed { V with member := some ⟨.looping s, none⟩ } := by
    refine h.works hno (fun _ _ _ hne => by cases hne) (.refl _) (fun call hcall => ?_)
      (fun _ _ _ _ htask => by cases htask) hid (.looping rfl)
    rcases hcall with hcall | hcall
    · cases hcall
    · cases hcall
  refine ⟨hworks.1, iff_of_false (fun hd => hworks.2 hd.2) ?_⟩
  rw [hnone]
  rintro ⟨hsome, -⟩
  cases hsome

/-- The reply goes in.  It dooms the session if `freeze_all` has looked for the last
time. -/
theorem Sound.replies {s₀ : Session} {clientFd : Int} {f : FrozenSession} (h : V.Sound i kept)
    (member : V.member = some ⟨.freezing s₀ clientFd f call, control⟩)
    (reply : (V.requests call).reply = .pending)
    (hsets : Sets V.requests requests call { V.requests call with reply := .sent f }) :
    View.Sound i { V with member := some ⟨.waiting s₀ clientFd call, control⟩, requests := requests }
      kept ∧ kept.isSome = true ∧ ¬ V.Doomed ∧
    (View.Doomed
        { V with member := some ⟨.waiting s₀ clientFd call, control⟩, requests := requests } ↔
      V.place = .expired) := by
  have hno := not_awaits_of_task member (fun _ _ _ hne => by cases hne)
  have hw := h.working member (fun _ _ _ hne => by cases hne)
  obtain ⟨s, rfl, hfits, hnamed⟩ := hw.fits
  obtain ⟨rfl, rfl⟩ := hfits.eq_freezing member
  obtain ⟨rfl, hplace, hresume⟩ := h.pending call reply
  have hheld := h.not_held hno
  have hreply' : (requests V.calls).reply = .sent (s.freeze clientFd) :=
    congrArg Request.reply hsets.now
  have hresume' : (requests V.calls).resume = .pending :=
    (congrArg Request.resume hsets.now).trans hresume
  refine ⟨⟨h.named, ?_, ?_, ?_, ?_, ?_, ?_, ?_⟩, rfl, hw.doomed, ?_⟩
  · intro _ _ _ _ _ hm
    cases hm
  · intro m call hm hcall
    cases hm
    exact h.numbered _ call member hcall
  · intro call hpending
    by_cases hcall : call = V.calls
    · subst hcall
      cases hreply'.symm.trans hpending
    · have heq := hsets.other call hcall
      have hold := h.pending call (heq ▸ hpending)
      exact ⟨hold.1, hold.2.1, (congrArg Request.resume heq).trans hold.2.2⟩
  · intro call f hsent
    by_cases hcall : call = V.calls
    · subst hcall
      cases hreply'.symm.trans hsent
      exact ⟨rfl, hplace, hnamed, ⟨_, _, _, rfl⟩, hresume'⟩
    · have heq := hsets.other call hcall
      exact absurd (heq ▸ hsent) (h.not_sent hno call f)
  · intro held
    rw [hheld] at held
    cases held
  · intro hne
    exact absurd (h.batch_eq_nil hheld) hne
  · rcases hplace with hplace | hplace
    · exact Or.inl (.replied rfl hplace hreply')
    · exact Or.inr (.late rfl (Or.inl hplace) hresume')
  · constructor
    · intro hdoomed
      cases hdoomed with
      | gone m => cases m
      | closed m hclosed =>
          cases m
          cases hresume'.symm.trans hclosed
      | late m place =>
          rcases place with place | place
          · exact place
          · rcases hplace with hplace | hplace
            · cases hplace.symm.trans place
            · cases hplace.symm.trans place
    · intro hplace
      exact .late rfl (Or.inl hplace) hresume'

end Session

/-! ## What `freeze_all` does -/

section Coordinator

variable {kept : Option Session} {task : Task} {requests : Nat → Request} {f : FrozenSession}
  {place : Place}

/-- A call begins. -/
theorem keeps_freezes (hplace : V.place = .elsewhere) (hheld : V.held = false)
    (hplace' : place = .unasked ∨ place = .elsewhere) :
    V.Keeps i { V with calls := V.calls + 1, place := place } kept kept := by
  intro h
  have hpolls : ¬ (V.place = .polling ∨ V.place = .expired) := by
    rw [hplace]
    rintro (hp | hp)
    · cases hp
    · cases hp
  have hdoomed : View.Doomed { V with calls := V.calls + 1, place := place } ↔ V.Doomed := by
    constructor
    · intro hd
      cases hd with
      | gone m => exact .gone m
      | closed m hclosed => exact .closed m hclosed
      | late m hlate =>
          rcases hplace' with rfl | rfl
          · rcases hlate with hp | hp
            · cases hp
            · cases hp
          · rcases hlate with hp | hp
            · cases hp
            · cases hp
    · intro hd
      cases hd with
      | gone m => exact .gone m
      | closed m hclosed => exact .closed m hclosed
      | late m hlate =>
          rcases hlate with hp | hp
          · cases hplace.symm.trans hp
          · cases hplace.symm.trans hp
  refine ⟨⟨h.named, h.snapshot, ?_, ?_, ?_, ?_, ?_, ?_⟩, and_congr_right (fun _ => hdoomed)⟩
  · intro m call hm hcall
    have hle := (h.numbered m call hm hcall).1
    exact ⟨Nat.le_succ_of_le hle, fun _ => Nat.ne_of_lt (Nat.lt_succ_of_le hle)⟩
  · intro call hpending
    exact absurd (h.pending call hpending).2.1 hpolls
  · intro call f hsent
    exact absurd (h.sent call f hsent).2.1 hpolls
  · intro held
    rw [hheld] at held
    cases held
  · intro hne
    exact absurd (h.batch_eq_nil hheld) hne
  · have haccounted := h.accounted
    cases kept with
    | some s =>
        refine haccounted.imp (fun hfits => ?_) hdoomed.mpr
        cases hfits with
        | looping m => exact .looping m
        | freezing m => exact .freezing m
        | resumed m hresume => exact .resumed m hresume
        | replied m hp => exact absurd (Or.inl hp) hpolls
        | held m held => rw [hheld] at held; cases held
    | none =>
        cases haccounted with
        | gone m => exact .gone m
        | closed m hclosed => exact .closed m hclosed
        | held held => rw [hheld] at held; cases held

/-- `freeze_all` moves on, and the session has nothing to do with it. -/
theorem keeps_gone (member : V.member = none) (hplace : V.place = .unasked) :
    V.Keeps i { V with place := .elsewhere } kept kept := by
  intro h
  have hno : ∀ call, ¬ V.Awaits call := by
    intro call hawaits
    obtain ⟨_, _, _, hm⟩ := hawaits.member
    cases member.symm.trans hm
  have hheld := h.not_held hno
  refine ⟨⟨h.named, h.snapshot, ?_, ?_, ?_, ?_, ?_, ?_⟩,
    and_congr_right (fun _ => iff_of_true (.gone member) (.gone member))⟩
  · intro m call hm
    cases member.symm.trans hm
  · intro call hpending
    have hp := (h.pending call hpending).2.1
    rw [hplace] at hp
    rcases hp with hp | hp
    · cases hp
    · cases hp
  · intro call f hsent
    exact absurd hsent (h.not_sent hno call f)
  · intro held
    rw [hheld] at held
    cases held
  · intro hne
    exact absurd (h.batch_eq_nil hheld) hne
  · cases kept with
    | some s => exact Or.inr (.gone member)
    | none => exact .gone member

/-- While `freeze_all` has not come to the session, or is past it, no request is open. -/
theorem Sound.not_open (h : V.Sound i kept) (hplace : ¬ (V.place = .polling ∨ V.place = .expired))
    (call : Nat) : (V.requests call).reply ≠ .pending ∧ ∀ f, (V.requests call).reply ≠ .sent f :=
  ⟨fun hp => hplace (h.pending call hp).2.1, fun f hs => hplace (h.sent call f hs).2.1⟩

/-- The sender of the resume channel is not in the batch while `freeze_all` has it. -/
theorem Sound.not_held_of_place (h : V.Sound i kept) (hplace : V.place ≠ .elsewhere) :
    V.held = false :=
  eq_false_of_ne_true (fun hheld => hplace (h.held hheld).1)

/-- The request lies in the control channel. -/
theorem keeps_sends (member : V.member = some ⟨task, none⟩) (hplace : V.place = .unasked)
    (hsets : Sets V.requests requests V.calls ⟨.pending, .pending⟩) :
    V.Keeps i
      { V with member := some ⟨task, some V.calls⟩, requests := requests, place := .polling }
      kept kept := by
  intro h
  have hheld := h.not_held_of_place (by rw [hplace]; exact fun hp => by cases hp)
  have hopen := h.not_open (by rw [hplace]; rintro (hp | hp) <;> cases hp)
  -- the session has no request of this call
  have hold : ∀ call, task.request = some call → requests call = V.requests call := fun call hcall =>
    hsets.other call ((h.numbered _ call member (Or.inl hcall)).2 hplace)
  have hdoomed : View.Doomed
      { V with member := some ⟨task, some V.calls⟩, requests := requests, place := .polling } ↔
        V.Doomed := by
    constructor
    · intro hd
      cases hd with
      | gone m => cases m
      | closed m hclosed =>
          cases m
          exact .closed member ((congrArg Request.resume (hold _ rfl)).symm.trans hclosed)
      | late m hlate => rcases hlate with hp | hp <;> cases hp
    · intro hd
      cases hd with
      | gone m => cases member.symm.trans m
      | closed m hclosed =>
          cases member.symm.trans m
          exact .closed rfl ((congrArg Request.resume (hold _ rfl)).trans hclosed)
      | late m hlate =>
          rw [hplace] at hlate
          rcases hlate with hp | hp <;> cases hp
  refine ⟨⟨h.named, ?_, ?_, ?_, ?_, ?_, ?_, ?_⟩, and_congr_right (fun _ => hdoomed)⟩
  · intro s clientFd f call control hm
    cases hm
    exact h.snapshot _ _ _ _ _ member
  · intro m call hm hcall
    cases hm
    refine ⟨?_, fun hp => by cases hp⟩
    rcases hcall with hcall | hcall
    · exact (h.numbered _ call member (Or.inl hcall)).1
    · cases hcall
      exact Nat.le_refl _
  · intro call hpending
    by_cases hcall : call = V.calls
    · subst hcall
      exact ⟨rfl, Or.inl rfl, congrArg Request.resume hsets.now⟩
    · exact absurd (hsets.other call hcall ▸ hpending) (hopen call).1
  · intro call f hsent
    by_cases hcall : call = V.calls
    · subst hcall
      cases (congrArg Request.reply hsets.now).symm.trans hsent
    · exact absurd (hsets.other call hcall ▸ hsent) ((hopen call).2 f)
  · intro held
    rw [hheld] at held
    cases held
  · intro hne
    exact absurd (h.batch_eq_nil hheld) hne
  · have haccounted := h.accounted
    cases kept with
    | some s =>
        refine haccounted.imp (fun hfits => ?_) hdoomed.mpr
        cases hfits with
        | looping m =>
            cases member.symm.trans m
            exact .looping rfl
        | freezing m =>
            cases member.symm.trans m
            exact .freezing rfl
        | resumed m hresume =>
            cases member.symm.trans m
            exact .resumed rfl ((congrArg Request.resume (hold _ rfl)).trans hresume)
        | replied m hp => cases hplace.symm.trans hp
        | held m held => rw [hheld] at held; cases held
    | none =>
        cases haccounted with
        | gone m => cases member.symm.trans m
        | closed m hclosed =>
            cases member.symm.trans m
            exact .closed rfl ((congrArg Request.resume (hold _ rfl)).trans hclosed)
        | held held => rw [hheld] at held; cases held

/-- The snapshot and the resume channel come to the batch. -/
theorem keeps_collects (hplace : V.place = .polling)
    (reply : (V.requests V.calls).reply = .sent f)
    (hsets : Sets V.requests requests V.calls { V.requests V.calls with reply := .gone }) :
    V.Keeps i
      { V with requests := requests, place := .elsewhere, held := true, batch := V.batch ++ [f] }
      kept kept := by
  intro h
  have hheld := h.not_held_of_place (by rw [hplace]; exact fun hp => by cases hp)
  have hbatch := h.batch_eq_nil hheld
  obtain ⟨-, -, hid, ⟨s₀, clientFd, control, hm⟩, hpending⟩ := h.sent V.calls f reply
  have hresume : ∀ call, (requests call).resume = (V.requests call).resume := by
    intro call
    by_cases hcall : call = V.calls
    · rw [hcall, hsets.now]
    · rw [hsets.other call hcall]
  have hnever : ∀ call, (requests call).reply ≠ .pending ∧ ∀ f, (requests call).reply ≠ .sent f := by
    intro call
    by_cases hcall : call = V.calls
    · rw [hcall, hsets.now]
      exact ⟨(fun hp => by cases hp), (fun f hs => by cases hs)⟩
    · rw [hsets.other call hcall]
      exact ⟨fun hp => hcall (h.pending call hp).1, fun f hs => hcall (h.sent call f hs).1⟩
  have hnot : ¬ V.Doomed := by
    intro hd
    cases hd with
    | gone m => cases hm.symm.trans m
    | closed m hclosed =>
        cases hm.symm.trans m
        cases hpending.symm.trans hclosed
    | late m hlate =>
        rw [hplace] at hlate
        rcases hlate with hp | hp <;> cases hp
  refine ⟨⟨h.named, h.snapshot, ?_, ?_, ?_, ?_, ?_, ?_⟩, iff_of_false (fun hd => ?_)
    (fun hd => hnot hd.2)⟩
  · intro m call hm' hcall
    exact ⟨(h.numbered m call hm' hcall).1, fun hp => by cases hp⟩
  · intro call hp
    exact absurd hp (hnever call).1
  · intro call f hs
    exact absurd hs ((hnever call).2 f)
  · exact fun _ => ⟨rfl, ⟨s₀, clientFd, control, hm⟩, (hresume _).trans hpending⟩
  · exact fun _ => ⟨rfl, f, by rw [hbatch]; rfl⟩
  · have haccounted := h.accounted
    cases kept with
    | some s =>
        have hfits := haccounted.resolve_right hnot
        refine Or.inl ?_
        cases hfits with
        | looping m => cases hm.symm.trans m
        | freezing m => cases hm.symm.trans m
        | resumed m hsent =>
            cases hm.symm.trans m
            cases hpending.symm.trans hsent
        | replied m _ hreply =>
            cases reply.symm.trans hreply
            exact .held m rfl (List.mem_append_right _ List.mem_cons_self)
        | held m held => rw [hheld] at held; cases held
    | none =>
        cases haccounted with
        | gone m => cases hm.symm.trans m
        | closed m hclosed =>
            cases hm.symm.trans m
            cases hpending.symm.trans hclosed
        | held held => rw [hheld] at held; cases held
  · cases hd.2 with
    | gone m => cases hm.symm.trans m
    | closed m hclosed =>
        cases hm.symm.trans m
        rw [hresume] at hclosed
        cases hpending.symm.trans hclosed
    | late m hlate => rcases hlate with hp | hp <;> cases hp

/-- A session whose reply has not come does not wait for its resume channel. -/
theorem Sound.not_awaits_of_polling (h : V.Sound i (some s)) (hplace : V.place = .polling)
    (hreply : ∀ f, (V.requests V.calls).reply ≠ .sent f) : ¬ V.Awaits V.calls := by
  rintro ⟨⟨s₀, clientFd, control, hm⟩, hpending⟩
  rcases h.accounted with hfits | hd
  · cases hfits with
    | looping m => cases hm.symm.trans m
    | freezing m => cases hm.symm.trans m
    | resumed m hsent =>
        cases hm.symm.trans m
        cases hpending.symm.trans hsent
    | replied m _ hsent => exact hreply _ hsent
    | held m held => cases hplace.symm.trans (h.held held).1
  · cases hd with
    | gone m => cases hm.symm.trans m
    | closed m hclosed =>
        cases hm.symm.trans m
        cases hpending.symm.trans hclosed
    | late m hlate =>
        rw [hplace] at hlate
        rcases hlate with hp | hp <;> cases hp

/-- `freeze_all` stops waiting for the reply; `r` is the reply channel then. -/
theorem keeps_leaves {r : Oneshot FrozenSession}
    (hplace : V.place = .polling ∧ (∀ f, (V.requests V.calls).reply ≠ .sent f) ∨
      V.place = .expired)
    (hplace' : place = .expired ∧ r = (V.requests V.calls).reply ∨
      place = .leaving ∧ r ≠ .pending ∧ ∀ f, r ≠ .sent f)
    (hsets : Sets V.requests requests V.calls { V.requests V.calls with reply := r }) :
    V.Keeps i { V with requests := requests, place := place } kept kept := by
  intro h
  have hheld : V.held = false := by
    refine h.not_held_of_place (fun hp => ?_)
    rcases hplace with ⟨hplace, -⟩ | hplace
    · cases hplace.symm.trans hp
    · cases hplace.symm.trans hp
  have hresume : ∀ call, (requests call).resume = (V.requests call).resume := by
    intro call
    by_cases hcall : call = V.calls
    · rw [hcall, hsets.now]
    · rw [hsets.other call hcall]
  have hopen : ∀ call, (requests call).reply = .pending ∨ (∃ f, (requests call).reply = .sent f) →
      (requests call).reply = (V.requests call).reply ∧ place = .expired := by
    intro call hreply
    by_cases hcall : call = V.calls
    · subst hcall
      rw [hsets.now] at hreply ⊢
      rcases hplace' with ⟨hp, hr⟩ | ⟨-, hpending, hsent⟩
      · exact ⟨hr, hp⟩
      · rcases hreply with hreply | ⟨f, hreply⟩
        · exact absurd hreply hpending
        · exact absurd hreply (hsent f)
    · rw [hsets.other call hcall] at hreply
      rcases hreply with hreply | ⟨f, hreply⟩
      · exact absurd (h.pending call hreply).1 hcall
      · exact absurd (h.sent call f hreply).1 hcall
  have hdoomed : kept.isSome = true →
      (View.Doomed { V with requests := requests, place := place } ↔ V.Doomed) := by
    intro hsome
    obtain ⟨s, rfl⟩ := Option.isSome_iff_exists.mp hsome
    constructor
    · intro hd
      cases hd with
      | gone m => exact .gone m
      | closed m hclosed => exact .closed m ((hresume _).symm.trans hclosed)
      | late m _ hpending =>
          have hpending := (hresume _).symm.trans hpending
          rcases hplace with ⟨hp, hreply⟩ | hp
          · exact absurd ⟨⟨_, _, _, m⟩, hpending⟩ (h.not_awaits_of_polling hp hreply)
          · exact .late m (Or.inl hp) hpending
    · intro hd
      cases hd with
      | gone m => exact .gone m
      | closed m hclosed => exact .closed m ((hresume _).trans hclosed)
      | late m _ hpending =>
          refine .late m ?_ ((hresume _).trans hpending)
          exact hplace'.imp (fun hp => hp.1) (fun hp => hp.1)
  refine ⟨⟨h.named, h.snapshot, ?_, ?_, ?_, ?_, ?_, ?_⟩, and_congr_right hdoomed⟩
  · intro m call hm hcall
    refine ⟨(h.numbered m call hm hcall).1, fun hp => ?_⟩
    rcases hplace' with ⟨hp', -⟩ | ⟨hp', -⟩
    · cases hp'.symm.trans hp
    · cases hp'.symm.trans hp
  · intro call hpending
    obtain ⟨heq, hp⟩ := hopen call (Or.inl hpending)
    obtain ⟨hcall, -, hold⟩ := h.pending call (heq.symm.trans hpending)
    exact ⟨hcall, Or.inr hp, (hresume call).trans hold⟩
  · intro call f hsent
    obtain ⟨heq, hp⟩ := hopen call (Or.inr ⟨f, hsent⟩)
    obtain ⟨hcall, -, hid, hmember, hold⟩ := h.sent call f (heq.symm.trans hsent)
    exact ⟨hcall, Or.inr hp, hid, hmember, (hresume call).trans hold⟩
  · intro held
    rw [hheld] at held
    cases held
  · intro hne
    exact absurd (h.batch_eq_nil hheld) hne
  · have haccounted := h.accounted
    cases kept with
    | some s =>
        refine haccounted.imp (fun hfits => ?_) (hdoomed rfl).mpr
        cases hfits with
        | looping m => exact .looping m
        | freezing m => exact .freezing m
        | resumed m hsent => exact .resumed m ((hresume _).trans hsent)
        | replied m hp hreply =>
            rcases hplace with ⟨-, hnot⟩ | hplace
            · exact absurd hreply (hnot _)
            · cases hplace.symm.trans hp
        | held m held => rw [hheld] at held; cases held
    | none =>
        cases haccounted with
        | gone m => exact .gone m
        | closed m hclosed => exact .closed m ((hresume _).trans hclosed)
        | held held => rw [hheld] at held; cases held

/-- The sender of the resume channel is dropped. -/
theorem keeps_dropsResume (hplace : V.place = .leaving)
    (hsets : Sets V.requests requests V.calls
      { V.requests V.calls with resume := (V.requests V.calls).resume.dropSender }) :
    V.Keeps i { V with requests := requests, place := .elsewhere } kept kept := by
  intro h
  have hheld := h.not_held_of_place (by rw [hplace]; exact fun hp => by cases hp)
  have hopen := h.not_open (by rw [hplace]; rintro (hp | hp) <;> cases hp)
  have hreply : ∀ call, (requests call).reply = (V.requests call).reply := by
    intro call
    by_cases hcall : call = V.calls
    · rw [hcall, hsets.now]
    · rw [hsets.other call hcall]
  have hresume : ∀ call, (requests call).resume =
      if call = V.calls then (V.requests call).resume.dropSender else (V.requests call).resume := by
    intro call
    by_cases hcall : call = V.calls
    · rw [if_pos hcall, hcall, hsets.now]
    · rw [if_neg hcall, hsets.other call hcall]
  have hclosed' : ∀ call, (V.requests call).resume = .closed → (requests call).resume = .closed := by
    intro call hclosed
    rw [hresume, hclosed]
    exact ite_self _
  have hdoomed : View.Doomed { V with requests := requests, place := .elsewhere } ↔ V.Doomed := by
    constructor
    · intro hd
      cases hd with
      | gone m => exact .gone m
      | @closed _ _ call _ m hclosed =>
          have hclosed : (requests call).resume = .closed := hclosed
          rw [hresume] at hclosed
          split at hclosed
          · next hcall =>
              subst hcall
              cases hold : (V.requests V.calls).resume with
              | pending => exact .late m (Or.inr hplace) hold
              | closed => exact .closed m hold
              | sent | abandoned | gone => rw [hold] at hclosed; cases hclosed
          · exact .closed m hclosed
      | late m hlate => rcases hlate with hp | hp <;> cases hp
    · intro hd
      cases hd with
      | gone m => exact .gone m
      | closed m hclosed => exact .closed m (hclosed' _ hclosed)
      | late m _ hpending =>
          refine .closed m ?_
          show (requests V.calls).resume = .closed
          rw [hresume, if_pos rfl, hpending]
          rfl
  refine ⟨⟨h.named, h.snapshot, ?_, ?_, ?_, ?_, ?_, ?_⟩, and_congr_right (fun _ => hdoomed)⟩
  · intro m call hm hcall
    exact ⟨(h.numbered m call hm hcall).1, fun hp => by cases hp⟩
  · intro call hpending
    exact absurd ((hreply call).symm.trans hpending) (hopen call).1
  · intro call f hsent
    exact absurd ((hreply call).symm.trans hsent) ((hopen call).2 f)
  · intro held
    rw [hheld] at held
    cases held
  · intro hne
    exact absurd (h.batch_eq_nil hheld) hne
  · have haccounted := h.accounted
    cases kept with
    | some s =>
        refine haccounted.imp (fun hfits => ?_) hdoomed.mpr
        cases hfits with
        | looping m => exact .looping m
        | freezing m => exact .freezing m
        | @resumed _ call _ m hsent =>
            refine .resumed m ?_
            show (requests call).resume = _
            rw [hresume, hsent]
            exact ite_self _
        | replied m hp => cases hplace.symm.trans hp
        | held m held => rw [hheld] at held; cases held
    | none =>
        cases haccounted with
        | gone m => exact .gone m
        | closed m hclosed => exact .closed m (hclosed' _ hclosed)
        | held held => rw [hheld] at held; cases held

/-! ## What becomes of the batch -/

/-- A session in the batch waits, and the sender of its resume channel is there. -/
theorem Sound.not_doomed_of_held (h : V.Sound i kept) (hheld : V.held = true) : ¬ V.Doomed := by
  obtain ⟨hplace, ⟨s₀, clientFd, control, hm⟩, hpending⟩ := h.held hheld
  intro hd
  cases hd with
  | gone m => cases hm.symm.trans m
  | closed m hclosed =>
      cases hm.symm.trans m
      cases hpending.symm.trans hclosed
  | late m hlate =>
      rw [hplace] at hlate
      rcases hlate with hp | hp <;> cases hp

/-- The session is left to the process that it was sent to. -/
theorem keeps_handed (hbatch : V.batch ≠ []) : V.Keeps i { V with batch := [] } kept none := by
  intro h
  have hheld := (h.batch hbatch).1
  refine ⟨⟨(fun _ hs => by cases hs), h.snapshot, h.numbered, h.pending, ?_, ?_,
    (fun hne => absurd rfl hne), .held hheld rfl⟩,
    iff_of_false ?_ (fun hd => h.not_doomed_of_held hheld hd.2)⟩
  · intro call f hs
    obtain ⟨hcall, hplace, hid, hm, hpending⟩ := h.sent call f hs
    exact ⟨hcall, hplace, hid, hm, hpending⟩
  · intro _
    obtain ⟨hplace, hm, hpending⟩ := h.held hheld
    exact ⟨hplace, hm, hpending⟩
  · rintro ⟨hsome, -⟩
    cases hsome

/-- The session is sent its snapshot. -/
theorem keeps_resumes (hbatch : V.batch = [f])
    (hsets : Sets V.requests requests V.calls
      { V.requests V.calls with resume := ((V.requests V.calls).resume.send f).1 }) :
    V.Keeps i { V with requests := requests, held := false, batch := [] } kept kept := by
  intro h
  have hheld := (h.batch (by rw [hbatch]; exact List.cons_ne_nil _ _)).1
  obtain ⟨hplace, ⟨s₀, clientFd, control, hm⟩, hpending⟩ := h.held hheld
  have hopen := h.not_open (by rw [hplace]; rintro (hp | hp) <;> cases hp)
  have hreply : ∀ call, (requests call).reply = (V.requests call).reply := by
    intro call
    by_cases hcall : call = V.calls
    · rw [hcall, hsets.now]
    · rw [hsets.other call hcall]
  have hsent : (requests V.calls).resume = .sent f := by
    rw [hsets.now, hpending]
    rfl
  refine ⟨⟨h.named, h.snapshot, h.numbered, ?_, ?_, (fun hp => by cases hp),
    (fun hne => absurd rfl hne), ?_⟩, iff_of_false (fun hd => ?_)
    (fun hd => h.not_doomed_of_held hheld hd.2)⟩
  · intro call hp
    exact absurd ((hreply call).symm.trans hp) (hopen call).1
  · intro call f hs
    exact absurd ((hreply call).symm.trans hs) ((hopen call).2 f)
  · have haccounted := h.accounted
    cases kept with
    | some s =>
        have hfits := haccounted.resolve_right (h.not_doomed_of_held hheld)
        refine Or.inl ?_
        cases hfits with
        | looping m => cases hm.symm.trans m
        | freezing m => cases hm.symm.trans m
        | resumed m hresume =>
            cases hm.symm.trans m
            cases hpending.symm.trans hresume
        | replied m hp => cases hplace.symm.trans hp
        | held m _ hmem =>
            rw [hbatch, List.mem_singleton] at hmem
            refine .resumed m ?_
            rw [hmem]
            exact hsent
    | none =>
        cases haccounted with
        | gone m => cases hm.symm.trans m
        | closed m hclosed =>
            cases hm.symm.trans m
            cases hpending.symm.trans hclosed
        | held _ hnil => cases hbatch.symm.trans hnil
  · cases hd.2 with
    | gone m => cases hm.symm.trans m
    | closed m hclosed =>
        cases hm.symm.trans m
        cases hsent.symm.trans hclosed
    | late m hlate =>
        rcases hlate with hp | hp
        · cases hplace.symm.trans hp
        · cases hplace.symm.trans hp

/-- The senders that are left are dropped. -/
theorem keeps_finishes (hheld : V.held = true) (hbatch : V.batch = [])
    (hsets : Sets V.requests requests V.calls
      { V.requests V.calls with resume := (V.requests V.calls).resume.dropSender }) :
    V.Keeps i { V with requests := requests, held := false } kept kept := by
  intro h
  obtain ⟨hplace, ⟨s₀, clientFd, control, hm⟩, hpending⟩ := h.held hheld
  have hopen := h.not_open (by rw [hplace]; rintro (hp | hp) <;> cases hp)
  have hreply : ∀ call, (requests call).reply = (V.requests call).reply := by
    intro call
    by_cases hcall : call = V.calls
    · rw [hcall, hsets.now]
    · rw [hsets.other call hcall]
  have hclosed : (requests V.calls).resume = .closed := by
    rw [hsets.now, hpending]
    rfl
  have hnone : kept = none := by
    cases kept with
    | none => rfl
    | some s =>
        cases h.accounted.resolve_right (h.not_doomed_of_held hheld) with
        | looping m => cases hm.symm.trans m
        | freezing m => cases hm.symm.trans m
        | resumed m hresume =>
            cases hm.symm.trans m
            cases hpending.symm.trans hresume
        | replied m hp => cases hplace.symm.trans hp
        | held _ _ hmem =>
            rw [hbatch] at hmem
            cases hmem
  subst hnone
  refine ⟨⟨h.named, h.snapshot, h.numbered, ?_, ?_, (fun hp => by cases hp),
    (fun hne => absurd hbatch hne), .closed hm hclosed⟩, iff_of_false ?_ ?_⟩
  · intro call hp
    exact absurd ((hreply call).symm.trans hp) (hopen call).1
  · intro call f hs
    exact absurd ((hreply call).symm.trans hs) ((hopen call).2 f)
  · rintro ⟨hsome, -⟩
    cases hsome
  · rintro ⟨hsome, -⟩
    cases hsome

end Coordinator

end View

end TrafficDirector.FreezeAll
