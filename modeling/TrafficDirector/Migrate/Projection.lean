/-
# `TrafficDirector.Migrate.Projection` — the fleet as a view of the channels

`Migrate.Freeze` and `Migrate.FreezeAll` are two models of `freeze_all`: in the first a
reply, the end of a wait and `resume_skipping` are one step each, in the second each
operation on a channel is.  `fleet_of_freezeAll`: every run of the second is, seen coarsely, a
run of the first, in which the sessions make the same steps and the calls are the same.

A session seems to take a request up when its reply goes in; if `freeze_all` stops
listening before that, it seems to have come too late, and to run on.  A resume channel
seems to be closed as soon as the receiver of the reply is gone, and to have what
`resume_skipping` is going to send as soon as that is called.
-/
import TrafficDirector.Migrate.Skipped

namespace TrafficDirector.FreezeAll

/-! ## What a fleet sees -/

/-- Whether `freeze_all` listens for the reply. -/
def Request.heard (r : Request) : FreezeRequest :=
  match r.reply with
  | .pending => .awaited
  | _ => .abandoned

namespace Loop

/-- `freeze_all` has the receiver of the session's reply. -/
def Hears (i : SessionId) : Loop → Prop
  | .polling id _ | .expired id _ => id = i
  | _ => False

/-- What the sender of the session's resume channel is for. -/
def owes (i : SessionId) : Loop → ResumeChannel
  | .leaving id _ => if id = i then .closed else .empty
  | .resuming frozen =>
      match frozen.find? (fun f => f.id = i) with
      | some f => .sent f
      | none => .closed
  | _ => .empty

/-- The keys of `FreezeBatch.resumes`, if `resume_skipping` has not been called. -/
def listed (resumes : List SessionId) : Loop → List SessionId
  | .resuming _ => []
  | _ => resumes

end Loop

namespace State

/-- The reply that has come to the current call. -/
def replied (F : State) (id : SessionId) : Option FrozenSession :=
  (F.requests (id, F.calls)).reply.value?

def coordinator (F : State) : Coordinator :=
  match F.loop with
  | .idle | .resuming _ => .idle
  | .asking senders | .leaving _ senders => .asking senders
  | .polling id senders | .expired id senders => .awaiting id senders (F.replied id)
  | .returned => .returned

def controlSeen (F : State) (i : SessionId) (control : Option Nat) : Option FreezeRequest :=
  control.map (fun call => (F.requests (i, call)).heard)

def resumeSeen (F : State) (i : SessionId) (call : Nat) : ResumeChannel :=
  match (F.requests (i, call)).resume with
  | .pending => if call = F.calls then F.loop.owes i else .empty
  | .sent session => .sent session
  | _ => .closed

end State

/-- A session and how it is seen. -/
inductive Seen (F : State) (i : SessionId) :
    Option Member → Option TrafficDirector.Member → Prop where
  | gone : Seen F i none none
  | looping {s : Session} {control : Option Nat} :
      Seen F i (some ⟨.looping s, control⟩) (some (.running s (F.controlSeen i control)))
  | unread {s : Session} {clientFd : Int} {call : Nat}
      (reply : (F.requests (i, call)).reply = .pending) :
      Seen F i (some ⟨.freezing s.emptied clientFd (s.freeze clientFd) call, none⟩)
        (some (.running s (some .awaited)))
  | late {s : Session} {clientFd : Int} {call : Nat} {control : Option Nat}
      (reply : (F.requests (i, call)).reply ≠ .pending) :
      Seen F i (some ⟨.freezing s.emptied clientFd (s.freeze clientFd) call, control⟩)
        (some (.running s (F.controlSeen i control)))
  | waiting {s : Session} {clientFd : Int} {call : Nat} {control : Option Nat}
      (replied : F.loop.Hears i → call = F.calls → (F.replied i).isSome = true) :
      Seen F i (some ⟨.waiting s clientFd call, control⟩)
        (some (.held s clientFd (F.resumeSeen i call) (F.controlSeen i control)))

/-- A fleet that is what is seen of the channels. -/
structure Matches (F : State) (G : Fleet) : Prop where
  members : ∀ i, Seen F i (F.members.get? i) (G.sessions.get? i)
  nextId : G.nextId = F.nextId
  coordinator : G.coordinator = F.coordinator
  frozen : G.frozen = F.frozen
  resumes : G.resumes = F.loop.listed F.resumes

/-- The steps that sessions and callers make. -/
def Action.outer : Action → Option FleetEvent
  | .joins s => some (.joins s)
  | .session id e => some (.session id e)
  | .freezeAll senders => some (.freezeAll senders)
  | .resume sent => some (.resume sent)
  | _ => none

end FreezeAll

def FleetEvent.outer : FleetEvent → Option FleetEvent
  | .joins s => some (.joins s)
  | .session id e => some (.session id e)
  | .freezeAll senders => some (.freezeAll senders)
  | .resume sent => some (.resume sent)
  | _ => none

namespace FreezeAll

variable {c : Codec} {F F' : State} {G : Fleet} {a : Action} {o : List Note} {i id : SessionId}
  {s : Session} {kept : Unfrozen} {call : Nat} {control : Option Nat} {clientFd : Int}
  {senders : List SessionId}

/-! ## Where `freeze_all` is -/

theorem hears_iff {loop : Loop} :
    loop.Hears i ↔ loop.place i = .polling ∨ loop.place i = .expired := by
  cases loop with
  | polling id senders | expired id senders =>
      rw [Loop.Hears, Loop.place, eq_comm]
      split
      · next hi => simp [hi]
      · next hi => split <;> simp [hi]
  | leaving id senders =>
      refine iff_of_false (fun hhears => hhears) ?_
      rw [Loop.place]
      split
      · simp
      · split <;> simp
  | asking senders =>
      refine iff_of_false (fun hhears => hhears) ?_
      rw [Loop.place]
      split <;> simp
  | idle | returned | resuming => simp [Loop.Hears, Loop.place]

theorem heard_eq_awaited {r : Request} : r.heard = .awaited ↔ r.reply = .pending := by
  rw [Request.heard]
  cases r.reply <;> simp

theorem heard_of_ne {r : Request} (h : r.reply ≠ .pending) : r.heard = .abandoned := by
  rw [Request.heard]
  cases hreply : r.reply with
  | pending => exact absurd hreply h
  | _ => rfl

/-- A reply that is still to come is to the current call, and its resume channel is open. -/
theorem Whole.pending_reply (h : Whole F kept) (reply : (F.requests (i, call)).reply = .pending) :
    call = F.calls ∧ F.loop.Hears i ∧ (F.requests (i, call)).resume = .pending := by
  obtain ⟨hcall, hplace, hresume⟩ := (h.sound i).pending call reply
  exact ⟨hcall, hears_iff.mpr hplace, hresume⟩

theorem place_eq_leaving {loop : Loop} (h : loop.place i = .leaving) :
    ∃ senders, loop = .leaving i senders := by
  cases loop with
  | leaving id senders =>
      by_cases hi : i = id
      · exact ⟨senders, by rw [hi]⟩
      · rw [Loop.place, if_neg hi] at h
        split at h <;> cases h
  | polling id senders | expired id senders =>
      rw [Loop.place] at h
      split at h
      · cases h
      · split at h <;> cases h
  | asking senders =>
      rw [Loop.place] at h
      split at h <;> cases h
  | idle | returned | resuming => cases h

/-- A session that waits for its resume channel waits for the current call. -/
theorem Whole.waits (h : Whole F kept)
    (member : F.members.get? i = some ⟨.waiting s clientFd call, control⟩)
    (resume : (F.requests (i, call)).resume = .pending) :
    call = F.calls ∧
      (F.loop.Hears i ∨ (∃ senders, F.loop = .leaving i senders) ∨ i ∈ F.resumes) := by
  have hsound := h.sound i
  have hheld : (F.view i).held = true → call = F.calls ∧
      (F.loop.Hears i ∨ (∃ senders, F.loop = .leaving i senders) ∨ i ∈ F.resumes) := by
    intro hheld
    obtain ⟨-, hawaits⟩ := hsound.held hheld
    obtain ⟨_, _, htask⟩ := hawaits.eq_waiting member
    cases htask
    exact ⟨rfl, Or.inr (Or.inr (of_decide_eq_true hheld))⟩
  have haccounted := hsound.accounted
  cases hkept : kept i with
  | none =>
      rw [hkept] at haccounted
      cases haccounted with
      | gone m => cases member.symm.trans m
      | closed m hclosed =>
          cases member.symm.trans m
          cases resume.symm.trans hclosed
      | held held batch => exact hheld held
  | some s₀ =>
      rw [hkept] at haccounted
      rcases haccounted with hfits | hdoomed
      · cases hfits with
        | looping m => cases member.symm.trans m
        | freezing m => cases member.symm.trans m
        | resumed m hsent =>
            cases member.symm.trans m
            cases resume.symm.trans hsent
        | replied m place reply =>
            cases member.symm.trans m
            exact ⟨rfl, Or.inl (hears_iff.mpr (Or.inl place))⟩
        | held m held batch => exact hheld held
      · cases hdoomed with
        | gone m => cases member.symm.trans m
        | closed m hclosed =>
            cases member.symm.trans m
            cases resume.symm.trans hclosed
        | late m place hresume =>
            cases member.symm.trans m
            rcases place with place | place
            · exact ⟨rfl, Or.inl (hears_iff.mpr (Or.inr place))⟩
            · exact ⟨rfl, Or.inr (Or.inl (place_eq_leaving place))⟩

theorem resume_of_empty (h : F.resumeSeen i call = .empty) :
    (F.requests (i, call)).resume = .pending := by
  rw [State.resumeSeen] at h
  split at h
  · next hpending => exact hpending
  · cases h
  · cases h

theorem find?_drop {frozen : List FrozenSession} {sent k : Nat} {f : FrozenSession}
    (hids : (frozen.map FrozenSession.id).Nodup) (hf : frozen[k]? = some f) :
    (frozen.drop sent).find? (fun g => g.id = f.id) = if k < sent then none else some f := by
  split
  · next hk =>
      refine List.find?_eq_none.mpr (fun g hg heq => ?_)
      exact id_ne_of_mem_drop hids hf hk g hg (of_decide_eq_true heq)
  · next hk =>
      have hsome : ((frozen.drop sent).find? (fun g => g.id = f.id)).isSome = true :=
        List.find?_isSome.mpr ⟨f, mem_drop hf (Nat.le_of_not_lt hk), decide_eq_true rfl⟩
      obtain ⟨g, hg⟩ := Option.isSome_iff_exists.mp hsome
      have hmem := List.mem_of_mem_drop (List.mem_of_find?_eq_some hg)
      have hid : g.id = f.id := by simpa using List.find?_some hg
      rw [hg, List.inj_on_of_nodup_map hids hmem (List.mem_of_getElem? hf) hid]

/-! ## What changes for a session -/

/-- A session that stays where it is, seen through other channels. -/
theorem Seen.of {m : Option Member} {m' : Option TrafficDirector.Member} (hseen : Seen F i m m')
    (hheard : ∀ call, (F'.requests (i, call)).heard = (F.requests (i, call)).heard)
    (hwaiting : ∀ s clientFd call control, m = some ⟨.waiting s clientFd call, control⟩ →
      F'.resumeSeen i call = F.resumeSeen i call ∧
        (F'.loop.Hears i → call = F'.calls → (F'.replied i).isSome = true)) : Seen F' i m m' := by
  have hcontrol : ∀ control : Option Nat, F.controlSeen i control = F'.controlSeen i control :=
    fun control => congrArg (fun f => control.map f) (funext (fun call => (hheard call).symm))
  have hpending : ∀ call, (F'.requests (i, call)).reply = .pending ↔
      (F.requests (i, call)).reply = .pending := fun call => by
    rw [← heard_eq_awaited, hheard, heard_eq_awaited]
  cases hseen with
  | gone => exact .gone
  | looping =>
      rw [hcontrol]
      exact .looping
  | unread reply => exact .unread ((hpending _).mpr reply)
  | late reply =>
      rw [hcontrol]
      exact .late (fun hp => reply ((hpending _).mp hp))
  | waiting replied =>
      obtain ⟨hresume, hreplied⟩ := hwaiting _ _ _ _ rfl
      rw [hcontrol, ← hresume]
      exact .waiting hreplied

/-- Nothing that a session can see of the channels changes. -/
structure Alike (F F' : State) (i : SessionId) : Prop where
  requests : ∀ call, F'.requests (i, call) = F.requests (i, call)
  calls : F'.calls = F.calls
  owes : F'.loop.owes i = F.loop.owes i
  hears : F'.loop.Hears i → F.loop.Hears i

theorem Seen.alike {m : Option Member} {m' : Option TrafficDirector.Member} (hseen : Seen F i m m')
    (h : Alike F F' i) : Seen F' i m m' := by
  refine hseen.of (fun call => by rw [h.requests]) ?_
  rintro s clientFd call control rfl
  refine ⟨by rw [State.resumeSeen, State.resumeSeen, h.requests, h.calls, h.owes], ?_⟩
  intro hhears hcall
  rw [State.replied, h.calls, h.requests]
  generalize hm : some _ = m at hseen
  cases hseen with
  | waiting replied =>
      cases hm
      exact replied (h.hears hhears) (hcall.trans h.calls)
  | _ => cases hm

/-- One session changes, and the others see no change. -/
theorem members_of {G' : Fleet} (h : Matches F G) (id : SessionId)
    (hself : Seen F' id (F'.members.get? id) (G'.sessions.get? id))
    (hother : ∀ i ≠ id, F'.members.get? i = F.members.get? i ∧
      G'.sessions.get? i = G.sessions.get? i ∧ Alike F F' i) (i : SessionId) :
    Seen F' i (F'.members.get? i) (G'.sessions.get? i) := by
  by_cases hi : i = id
  · rw [hi]
    exact hself
  · obtain ⟨hm, hm', halike⟩ := hother i hi
    rw [hm, hm']
    exact (h.members i).alike halike

theorem alike_of_requests {members : OrdMap SessionId Member} {nextId : SessionId}
    {requests : SessionId × Nat → Request}
    (h : ∀ call, requests (i, call) = F.requests (i, call)) :
    Alike F { F with members := members, nextId := nextId, requests := requests } i :=
  ⟨h, rfl, rfl, id⟩

theorem controlSeen_of (h : ∀ call, (F'.requests (i, call)).heard = (F.requests (i, call)).heard)
    (control : Option Nat) : F'.controlSeen i control = F.controlSeen i control :=
  congrArg (fun f => control.map f) (funext h)

/-- An earlier request is seen as it is. -/
theorem resumeSeen_of_ne (calls : F'.calls = F.calls) (hne : call ≠ F.calls)
    (h : F'.requests (i, call) = F.requests (i, call)) :
    F'.resumeSeen i call = F.resumeSeen i call := by
  rw [State.resumeSeen, State.resumeSeen, h, calls]
  cases (F.requests (i, call)).resume with
  | pending => exact (if_neg hne).trans (if_neg hne).symm
  | _ => rfl

theorem resumeSeen_of_eq (h : (F'.requests (i, call)).resume = (F.requests (i, call)).resume)
    (calls : F'.calls = F.calls) (howes : F'.loop.owes i = F.loop.owes i) :
    F'.resumeSeen i call = F.resumeSeen i call := by
  rw [State.resumeSeen, State.resumeSeen, h, calls, howes]

theorem Seen.looping_of {r : Option FreezeRequest} (h : F.controlSeen i control = r) :
    Seen F i (some ⟨.looping s, control⟩) (some (.running s r)) :=
  h ▸ .looping

theorem Seen.late_of {r : Option FreezeRequest} (h : F.controlSeen i control = r)
    (reply : (F.requests (i, call)).heard = .abandoned) :
    Seen F i (some ⟨.freezing s.emptied clientFd (s.freeze clientFd) call, control⟩)
      (some (.running s r)) := by
  refine h ▸ .late (fun hp => ?_)
  cases (heard_eq_awaited.mpr hp).symm.trans reply

theorem Seen.waiting_of {r : ResumeChannel} {k : Option FreezeRequest}
    (resume : F.resumeSeen i call = r) (hcontrol : F.controlSeen i control = k)
    (replied : F.loop.Hears i → call = F.calls → (F.replied i).isSome = true) :
    Seen F i (some ⟨.waiting s clientFd call, control⟩) (some (.held s clientFd r k)) :=
  resume ▸ hcontrol ▸ .waiting replied

theorem update_call {r : Request} {call' : Nat} (hne : call' ≠ call) :
    Function.update F.requests (id, call) r (id, call') = F.requests (id, call') :=
  Function.update_of_ne (fun heq => hne (Prod.mk.inj heq).2) ..

theorem heard_update {r : Request} (hr : r.heard = (F.requests (id, call)).heard) (call' : Nat) :
    (Function.update F.requests (id, call) r (id, call')).heard
      = (F.requests (id, call')).heard := by
  by_cases hcall : call' = call
  · rw [hcall, Function.update_self]
    exact hr
  · rw [update_call hcall]

theorem value_update {r : Request}
    (hr : r.reply.value? = (F.requests (id, call)).reply.value?) (i : SessionId) (call' : Nat) :
    (Function.update F.requests (id, call) r (i, call')).reply.value?
      = (F.requests (i, call')).reply.value? := by
  by_cases hkey : (i, call') = (id, call)
  · rw [hkey, Function.update_self]
    exact hr
  · rw [Function.update_of_ne hkey]

theorem coordinator_of (hloop : F'.loop = F.loop) (hcalls : F'.calls = F.calls)
    (h : ∀ i call, (F'.requests (i, call)).reply.value? = (F.requests (i, call)).reply.value?) :
    F'.coordinator = F.coordinator := by
  have hreplied : F'.replied = F.replied := by
    funext i
    rw [State.replied, State.replied, hcalls]
    exact h i F.calls
  rw [State.coordinator, State.coordinator, hloop, hreplied]

/-! ## How a session is seen -/

namespace Matches

theorem looping (h : Matches F G) (member : F.members.get? id = some ⟨.looping s, control⟩) :
    G.sessions.get? id = some (.running s (F.controlSeen id control)) := by
  have hseen := h.members id
  rw [member] at hseen
  generalize G.sessions.get? id = m at hseen ⊢
  cases hseen
  rfl

theorem unread (h : Matches F G) {session : FrozenSession}
    (member : F.members.get? id = some ⟨.freezing s clientFd session call, control⟩)
    (reply : (F.requests (id, call)).reply = .pending) :
    ∃ s₀, s = s₀.emptied ∧ session = s₀.freeze clientFd ∧ control = none ∧
      G.sessions.get? id = some (.running s₀ (some .awaited)) := by
  have hseen := h.members id
  rw [member] at hseen
  generalize G.sessions.get? id = m at hseen ⊢
  cases hseen with
  | unread _ => exact ⟨_, rfl, rfl, rfl, rfl⟩
  | late hreply => exact absurd reply hreply

theorem late (h : Matches F G) {session : FrozenSession}
    (member : F.members.get? id = some ⟨.freezing s clientFd session call, control⟩)
    (reply : (F.requests (id, call)).reply ≠ .pending) :
    ∃ s₀, s = s₀.emptied ∧ session = s₀.freeze clientFd ∧
      G.sessions.get? id = some (.running s₀ (F.controlSeen id control)) := by
  have hseen := h.members id
  rw [member] at hseen
  generalize G.sessions.get? id = m at hseen ⊢
  cases hseen with
  | unread hreply => exact absurd hreply reply
  | late _ => exact ⟨_, rfl, rfl, rfl⟩

theorem waiting (h : Matches F G)
    (member : F.members.get? id = some ⟨.waiting s clientFd call, control⟩) :
    G.sessions.get? id
        = some (.held s clientFd (F.resumeSeen id call) (F.controlSeen id control)) ∧
      (F.loop.Hears id → call = F.calls → (F.replied id).isSome = true) := by
  have hseen := h.members id
  rw [member] at hseen
  generalize G.sessions.get? id = m at hseen ⊢
  cases hseen with
  | waiting replied => exact ⟨rfl, replied⟩

theorem held (h : Matches F G) {resume : ResumeChannel} {r : Option FreezeRequest}
    (hseen : G.sessions.get? id = some (.held s clientFd resume r)) :
    ∃ call control, F.members.get? id = some ⟨.waiting s clientFd call, control⟩ ∧
      F.resumeSeen id call = resume ∧ F.controlSeen id control = r := by
  have hmember := h.members id
  rw [hseen] at hmember
  generalize F.members.get? id = m at hmember ⊢
  cases hmember with
  | waiting _ => exact ⟨_, _, rfl, rfl, rfl⟩

theorem gone (h : Matches F G) (member : F.members.get? id = none) : G.sessions.get? id = none := by
  have hseen := h.members id
  rw [member] at hseen
  generalize G.sessions.get? id = m at hseen ⊢
  cases hseen
  rfl

end Matches

/-! ## What sessions do -/

/-- The fleet can do what is seen of a step. -/
def Follows (c : Codec) (G : Fleet) (a : Action) (F' : State) : Prop :=
  ∃ es G' out, (fleetMachine c).run G es = some (G', out) ∧ Matches F' G' ∧
    es.filterMap FleetEvent.outer = [a].filterMap Action.outer

theorem Follows.unseen (h : Matches F' G) (ha : a.outer = none) : Follows c G a F' :=
  ⟨[], G, [], rfl, h, by rw [List.filterMap_cons_none ha]; rfl⟩

theorem fleet_step {e : FleetEvent} {G' : Fleet} (hs : G.step c e = some G') :
    (fleetMachine c).step G e = some (G', []) :=
  Option.map_eq_some_iff.mpr ⟨G', hs, rfl⟩

theorem Follows.one {e : FleetEvent} {G' : Fleet} (hs : G.step c e = some G') (h : Matches F' G')
    (ha : e.outer = a.outer) : Follows c G a F' := by
  refine ⟨[e], G', [], ?_, h, ?_⟩
  · exact Machine.run_cons_eq_some.mpr ⟨G', [], [], fleet_step hs, rfl, rfl⟩
  · simp only [List.filterMap_cons, ha]
    rfl

theorem Follows.two {e e' : FleetEvent} {G₁ G' : Fleet} (hs : G.step c e = some G₁)
    (hs' : G₁.step c e' = some G') (h : Matches F' G') (he : e.outer = none)
    (he' : e'.outer = none) (ha : a.outer = none) : Follows c G a F' := by
  have hrest : (fleetMachine c).run G₁ [e'] = some (G', []) :=
    Machine.run_cons_eq_some.mpr ⟨G', [], [], fleet_step hs', rfl, rfl⟩
  refine ⟨[e, e'], G', [], ?_, h, ?_⟩
  · exact Machine.run_cons_eq_some.mpr ⟨G₁, [], [], fleet_step hs, hrest, rfl⟩
  · rw [List.filterMap_cons_none he, List.filterMap_cons_none he', List.filterMap_cons_none ha]
    rfl

namespace Matches

theorem joins (h : Matches F G) (named : s.id = F.nextId) :
    Follows c G (.joins s) { F with
      members := F.members.insert F.nextId ⟨.looping s, none⟩, nextId := F.nextId + 1 } := by
  have hstep : G.step c (.joins s) = some { G with
      sessions := G.sessions.insert F.nextId (.running s none), nextId := F.nextId + 1 } := by
    simp only [Fleet.step, h.nextId, if_pos named]
  refine .one hstep ⟨?_, rfl, h.coordinator, h.frozen, h.resumes⟩ rfl
  refine members_of h F.nextId ?_ (fun i hi => ?_)
  · simp only [OrdMap.get?_insert, if_true]
    exact .looping
  · exact ⟨by simp [hi], by simp [hi], alike_of_requests (fun _ => rfl)⟩

theorem stepped (h : Matches F G) {e : Event} {s' : Session} {out : List Output}
    (member : F.members.get? id = some ⟨.looping s, control⟩) (stays : e.freezes = false)
    (loop : forwardLoop c (.running s) e = some (.running s', out)) :
    Follows c G (.session id e)
      { F with members := F.members.insert id ⟨.looping s', control⟩ } := by
  have hstep : G.step c (.session id e) = some { G with
      sessions := G.sessions.insert id (.running s' (F.controlSeen id control)) } := by
    simp only [Fleet.step, h.looping member, stays, loop]
    rfl
  refine .one hstep ⟨?_, h.nextId, h.coordinator, h.frozen, h.resumes⟩ rfl
  refine members_of h id ?_ (fun i hi => ?_)
  · simp only [OrdMap.get?_insert, if_true]
    exact .looping
  · exact ⟨by simp [hi], by simp [hi], alike_of_requests (fun _ => rfl)⟩

/-- A session ends, and with it its ends of the channels. -/
theorem leave (h : Matches F G) (id : SessionId) (control : Option Nat) :
    Matches (F.leave id control) { G with sessions := G.sessions.erase id } := by
  refine ⟨members_of h id ?_ (fun i hi => ?_), h.nextId, ?_, h.frozen, h.resumes⟩
  · simp only [State.leave, OrdMap.get?_erase, if_true]
    exact .gone
  · refine ⟨by simp [State.leave, hi], by simp [hi], ?_⟩
    exact alike_of_requests (leave_other control hi)
  · refine h.coordinator.trans (Eq.symm ?_)
    refine coordinator_of rfl rfl ?_
    cases control with
    | none => exact fun _ _ => rfl
    | some call => exact value_update Oneshot.value?_dropSender

theorem ends (h : Matches F G) {e : Event} {result : Except IoError Unit} {out : List Output}
    (member : F.members.get? id = some ⟨.looping s, control⟩) (stays : e.freezes = false)
    (loop : forwardLoop c (.running s) e = some (.ended result, out)) :
    Follows c G (.session id e) (F.leave id control) := by
  have hstep : G.step c (.session id e)
      = some { G with sessions := G.sessions.erase id } := by
    simp only [Fleet.step, h.looping member, stays, loop]
    rfl
  exact .one hstep (h.leave id control) rfl

theorem takes (h : Matches F G) (member : F.members.get? id = some ⟨.looping s, some call⟩)
    (clientFd : Int) :
    Follows c G (.takes id clientFd) { F with
      members := F.members.insert id
        ⟨.freezing s.emptied clientFd (s.freeze clientFd) call, none⟩ } := by
  have hseen := h.looping member
  by_cases reply : (F.requests (id, call)).reply = .pending
  · rw [show F.controlSeen id (some call) = some .awaited from
      congrArg some (heard_eq_awaited.mpr reply)] at hseen
    refine .unseen ⟨?_, h.nextId, h.coordinator, h.frozen, h.resumes⟩ rfl
    refine members_of h id ?_ (fun i hi => ?_)
    · rw [hseen]
      simp only [OrdMap.get?_insert, if_true]
      exact .unread reply
    · exact ⟨by simp [hi], rfl, alike_of_requests (fun _ => rfl)⟩
  · rw [show F.controlSeen id (some call) = some .abandoned from
      congrArg some (heard_of_ne reply)] at hseen
    have hstep : G.step c (.takesUp id clientFd) = some { G with
        sessions := G.sessions.insert id (.running s none) } := by
      simp only [Fleet.step, hseen, freezeSession_gaveUp]
      rfl
    refine .one hstep ⟨?_, h.nextId, h.coordinator, h.frozen, h.resumes⟩ rfl
    refine members_of h id ?_ (fun i hi => ?_)
    · simp only [OrdMap.get?_insert, if_true]
      exact .late reply
    · exact ⟨by simp [hi], by simp [hi], alike_of_requests (fun _ => rfl)⟩

/-- The reply goes in. -/
theorem replies (h : Matches F G) (hw : Whole F kept) {session : FrozenSession}
    (member : F.members.get? id = some ⟨.freezing s clientFd session call, control⟩)
    (reply : (F.requests (id, call)).reply = .pending) :
    Follows c G (.replies id)
      ({ F with members := F.members.insert id ⟨.waiting s clientFd call, control⟩ }.setRequest
        id call { F.requests (id, call) with reply := .sent session }) := by
  obtain ⟨s₀, rfl, rfl, rfl, hseen⟩ := h.unread member reply
  obtain ⟨rfl, hhears, hresume⟩ := hw.pending_reply reply
  have hstep : G.step c (.takesUp id clientFd) = some { G with
      sessions := G.sessions.insert id (.held s₀.emptied clientFd .empty none)
      coordinator := G.coordinator.receive (s₀.freeze clientFd) } := by
    simp only [Fleet.step, hseen]
  have howes : F.loop.owes id = .empty := by
    cases hloop : F.loop <;> rw [hloop] at hhears <;> first | rfl | cases hhears
  refine .one hstep ⟨?_, h.nextId, ?_, h.frozen, h.resumes⟩ rfl
  · refine members_of h id ?_ (fun i hi => ?_)
    · simp only [State.setRequest, OrdMap.get?_insert, if_true]
      refine .waiting_of ?_ rfl (fun _ _ => ?_)
      · simp only [State.resumeSeen, Function.update_self, hresume, if_true, howes]
      · simp [State.replied, Oneshot.value?]
    · exact ⟨by simp [State.setRequest, hi], by simp [hi], alike_of_requests (update_other hi)⟩
  · show G.coordinator.receive (s₀.freeze clientFd) = _
    rw [h.coordinator]
    cases hloop : F.loop with
    | polling j senders | expired j senders =>
        rw [hloop] at hhears
        obtain rfl : j = id := hhears
        simp [State.coordinator, State.setRequest, State.replied, Oneshot.value?,
          Coordinator.receive, hloop]
    | _ =>
        rw [hloop] at hhears
        cases hhears

/-- The reply does not go in. -/
theorem restores (h : Matches F G) {session : FrozenSession} {s' : Session}
    (member : F.members.get? id = some ⟨.freezing s clientFd session call, control⟩)
    (reply : (F.requests (id, call)).reply ≠ .pending)
    (back : freezeSession s clientFd (.resumed session) = .running s') :
    Follows c G (.replies id)
      ({ F with members := F.members.insert id ⟨.looping s', control⟩ }.setRequest id call
        ⟨((F.requests (id, call)).reply.send session).1,
          (F.requests (id, call)).resume.dropReceiver⟩) := by
  obtain ⟨s₀, rfl, rfl, hseen⟩ := h.late member reply
  rw [freezeSession_resumed] at back
  cases back
  refine .unseen ⟨?_, h.nextId, ?_, h.frozen, h.resumes⟩ rfl
  · refine members_of h id ?_ (fun i hi => ?_)
    · rw [hseen]
      simp only [State.setRequest, OrdMap.get?_insert, if_true]
      refine .looping_of (controlSeen_of (heard_update ?_) control)
      rw [heard_of_ne reply, heard_of_ne Oneshot.send_eq_pending]
    · exact ⟨by simp [State.setRequest, hi], rfl, alike_of_requests (update_other hi)⟩
  · refine h.coordinator.trans (Eq.symm ?_)
    exact coordinator_of rfl rfl (value_update (Oneshot.value?_send reply))

theorem wakes (h : Matches F G) {session : FrozenSession} {s' : Session}
    (member : F.members.get? id = some ⟨.waiting s clientFd call, control⟩)
    (resume : (F.requests (id, call)).resume = .sent session)
    (back : freezeSession s clientFd (.resumed session) = .running s') :
    Follows c G (.wakes id)
      ({ F with members := F.members.insert id ⟨.looping s', control⟩ }.setRequest id call
        { F.requests (id, call) with resume := .gone }) := by
  obtain ⟨hseen, -⟩ := h.waiting member
  rw [show F.resumeSeen id call = .sent session by rw [State.resumeSeen, resume]] at hseen
  have hstep : G.step c (.wakes id) = some { G with
      sessions := G.sessions.insert id (.running s' (F.controlSeen id control)) } := by
    simp only [Fleet.step, hseen, back]
    rfl
  refine .one hstep ⟨?_, h.nextId, ?_, h.frozen, h.resumes⟩ rfl
  · refine members_of h id ?_ (fun i hi => ?_)
    · simp only [State.setRequest, OrdMap.get?_insert, if_true]
      refine .looping_of (controlSeen_of (heard_update ?_) control)
      rfl
    · exact ⟨by simp [State.setRequest, hi], by simp [hi], alike_of_requests (update_other hi)⟩
  · refine h.coordinator.trans (Eq.symm ?_)
    exact coordinator_of rfl rfl (value_update rfl)

theorem exits (h : Matches F G)
    (member : F.members.get? id = some ⟨.waiting s clientFd call, control⟩)
    (resume : (F.requests (id, call)).resume = .closed) :
    Follows c G (.wakes id)
      ((F.setRequest id call { F.requests (id, call) with resume := .gone }).leave id control) := by
  obtain ⟨hseen, -⟩ := h.waiting member
  rw [show F.resumeSeen id call = .closed by rw [State.resumeSeen, resume]] at hseen
  have hstep : G.step c (.wakes id) = some { G with sessions := G.sessions.erase id } := by
    simp only [Fleet.step, hseen]
    rfl
  refine .one hstep ?_ rfl
  refine ⟨members_of h id ?_ (fun i hi => ?_), h.nextId, ?_, h.frozen, h.resumes⟩
  · simp only [State.leave, OrdMap.get?_erase, if_true]
    exact .gone
  · refine ⟨by simp [State.leave, State.setRequest, hi], by simp [hi], alike_of_requests ?_⟩
    intro call'
    exact (leave_other control hi call').trans (update_other hi call')
  · refine h.coordinator.trans (Eq.symm ?_)
    refine coordinator_of rfl rfl (fun i call' => ?_)
    have hgone : (Function.update F.requests (id, call)
        { F.requests (id, call) with resume := .gone } (i, call')).reply.value?
          = (F.requests (i, call')).reply.value? := by
      refine value_update ?_ i call'
      rfl
    cases control with
    | none => exact hgone
    | some call'' => exact (value_update Oneshot.value?_dropSender i call').trans hgone

end Matches

/-! ## What `freeze_all` does -/

/-- `freeze_all` moves on from a place where it does not listen to one where it does not. -/
theorem alike_of_loop {loop : Loop} {frozen : List FrozenSession} {resumes : List SessionId}
    {requests : SessionId × Nat → Request}
    (hrequests : ∀ call, requests (i, call) = F.requests (i, call))
    (howes : loop.owes i = F.loop.owes i) (hhears : loop.Hears i → F.loop.Hears i) :
    Alike F
      { F with requests := requests, loop := loop, frozen := frozen, resumes := resumes } i :=
  ⟨hrequests, rfl, howes, hhears⟩

/-- `freeze_all` puts a request into a session's control channel. -/
def State.asks (F : State) (id : SessionId) (senders : List SessionId) (task : Task) : State :=
  { F with
    members := F.members.insert id ⟨task, some F.calls⟩
    loop := .polling id senders }.setRequest id F.calls ⟨.pending, .pending⟩

/-- `freeze_all` leaves a session, whose reply channel is then `r`. -/
def State.leaves (F : State) (id : SessionId) (senders : List SessionId)
    (r : Oneshot FrozenSession) : State :=
  { F with loop := .leaving id senders }.setRequest id F.calls
    { F.requests (id, F.calls) with reply := r }

/-- `freeze_all` listens to a session. -/
theorem listening (loop : F.loop = .polling id senders ∨ F.loop = .expired id senders) :
    F.loop.Hears id ∧ (∀ i, F.loop.owes i = .empty) ∧
      (∀ resumes, F.loop.listed resumes = resumes) ∧
      F.coordinator = .awaiting id senders (F.replied id) := by
  rw [State.coordinator]
  rcases loop with loop | loop
  · rw [loop]
    exact ⟨rfl, fun _ => rfl, fun _ => rfl, rfl⟩
  · rw [loop]
    exact ⟨rfl, fun _ => rfl, fun _ => rfl, rfl⟩

section Leaves

variable {r : Oneshot FrozenSession}

/-- Nobody listens to the session any more. -/
theorem Whole.unheard (hw : Whole F kept) (hr : r ≠ .pending) (call : Nat) :
    ((F.leaves id senders r).requests (id, call)).heard = .abandoned := by
  simp only [State.leaves, State.setRequest]
  by_cases hcall : call = F.calls
  · rw [hcall, Function.update_self]
    exact heard_of_ne hr
  · rw [update_call hcall]
    exact heard_of_ne (fun hp => hcall (hw.pending_reply hp).1)

theorem Whole.controlSeen_leaves (hw : Whole F kept) (hr : r ≠ .pending)
    (control : Option Nat) : (F.leaves id senders r).controlSeen id control
      = (F.controlSeen id control).map (fun _ => .abandoned) := by
  cases control with
  | none => rfl
  | some call => exact congrArg some (hw.unheard hr call)

/-- A session that has not replied, and is not about to, sees its request abandoned. -/
theorem Seen.leaves {m : Option Member} {m' : Option TrafficDirector.Member}
    (hseen : Seen F id m m') (hw : Whole F kept) (hr : r ≠ .pending) (hhears : F.loop.Hears id)
    (silent : F.replied id = none)
    (hread : ∀ s clientFd session call control,
      m = some ⟨.freezing s clientFd session call, control⟩ →
        (F.requests (id, call)).reply ≠ .pending) :
    Seen (F.leaves id senders r) id m (m'.map Member.abandon) := by
  cases hseen with
  | gone => exact .gone
  | looping => exact .looping_of (hw.controlSeen_leaves hr _)
  | unread reply => exact absurd reply (hread _ _ _ _ _ rfl)
  | late reply => exact .late_of (hw.controlSeen_leaves hr _) (hw.unheard hr _)
  | @waiting s clientFd call control hreplied =>
      have hcall : call ≠ F.calls := by
        intro hcall
        have hsome := hreplied hhears hcall
        rw [silent] at hsome
        cases hsome
      refine .waiting_of ?_ (hw.controlSeen_leaves hr _) (fun hhears => by cases hhears)
      exact resumeSeen_of_ne rfl hcall (update_call hcall)

end Leaves

namespace Matches

theorem keys_perm (h : Matches F G) : F.members.keys.Perm G.sessions.keys := by
  refine (List.perm_ext_iff_of_nodup F.members.nodup G.sessions.nodup).mpr (fun i => ?_)
  have hiff : F.members.get? i = none ↔ G.sessions.get? i = none := by
    have hseen := h.members i
    generalize F.members.get? i = m at hseen ⊢
    generalize G.sessions.get? i = m' at hseen ⊢
    cases hseen <;> simp
  rw [OrdMap.get?_eq_none, OrdMap.get?_eq_none] at hiff
  exact not_iff_not.mp hiff

theorem freezes (h : Matches F G) (hw : Whole F kept) (idle : F.loop = .idle)
    (all : senders.Perm F.members.keys) :
    Follows c G (.freezeAll senders) { F with calls := F.calls + 1, loop := .asking senders } := by
  have hcoordinator : G.coordinator = .idle := by rw [h.coordinator, State.coordinator, idle]
  have hstep : G.step c (.freezeAll senders) = some { G with coordinator := .asking senders } := by
    simp only [Fleet.step, hcoordinator, if_pos (all.trans h.keys_perm)]
  refine .one hstep ⟨fun i => ?_, h.nextId, rfl, h.frozen, ?_⟩ rfl
  · refine (h.members i).of (fun _ => rfl) (fun s clientFd call control hm => ?_)
    refine ⟨?_, fun hhears => by cases hhears⟩
    cases hresume : (F.requests (i, call)).resume with
    | pending =>
        obtain ⟨-, hhears | ⟨senders, hleaving⟩ | hlisted⟩ := hw.waits hm hresume
        · rw [idle] at hhears
          cases hhears
        · cases idle.symm.trans hleaving
        · rw [hw.idle idle] at hlisted
          cases hlisted
    | _ => simp only [State.resumeSeen, hresume]
  · rw [h.resumes, idle]
    rfl

theorem passes (h : Matches F G) (loop : F.loop = .asking (id :: senders))
    (member : F.members.get? id = none) :
    Follows c G .sends { F with loop := .asking senders } := by
  have hcoordinator : G.coordinator = .asking (id :: senders) := by
    rw [h.coordinator, State.coordinator, loop]
  have hstep : G.step c .asks = some { G with coordinator := .asking senders } := by
    simp only [Fleet.step, hcoordinator, h.gone member]
  refine .one hstep ⟨fun i => (h.members i).alike ?_, h.nextId, rfl, h.frozen, ?_⟩ rfl
  · exact alike_of_loop (fun _ => rfl) (by rw [loop]; rfl) (fun hhears => by cases hhears)
  · rw [h.resumes, loop]
    rfl

/-- A session sees the request that is put into its control channel. -/
theorem asked (h : Matches F G) (hw : Whole F kept) {task : Task}
    (member : F.members.get? id = some ⟨task, none⟩)
    (hearlier : ∀ call, task.request = some call → call ≠ F.calls) :
    ∃ m', G.sessions.get? id = some m' ∧ m'.control = none ∧
      Seen (F.asks id senders task) id (some ⟨task, some F.calls⟩)
        (some (m'.setControl (some .awaited))) := by
  have hnow : (F.asks id senders task).controlSeen id (some F.calls) = some .awaited := by
    simp only [State.controlSeen, State.asks, State.setRequest, Option.map_some,
      Function.update_self]
    rfl
  have hother : ∀ call ≠ F.calls,
      (F.asks id senders task).requests (id, call) = F.requests (id, call) :=
    fun call hne => update_call hne
  cases task with
  | looping s => exact ⟨_, h.looping member, rfl, .looping_of hnow⟩
  | freezing s clientFd session call =>
      have hcall := hearlier call rfl
      have hreply : (F.requests (id, call)).reply ≠ .pending :=
        fun hp => hcall (hw.pending_reply hp).1
      obtain ⟨s₀, rfl, rfl, hget⟩ := h.late member hreply
      refine ⟨_, hget, rfl, .late_of hnow ?_⟩
      exact (congrArg Request.heard (hother call hcall)).trans (heard_of_ne hreply)
  | waiting s clientFd call =>
      have hcall := hearlier call rfl
      obtain ⟨hget, -⟩ := h.waiting member
      refine ⟨_, hget, rfl, .waiting_of ?_ hnow (fun _ heq => absurd heq hcall)⟩
      exact resumeSeen_of_ne rfl hcall (hother call hcall)

/-- A request goes into a control channel. -/
theorem sends (h : Matches F G) (hw : Whole F kept) {task : Task}
    (loop : F.loop = .asking (id :: senders)) (member : F.members.get? id = some ⟨task, none⟩) :
    Follows c G .sends (F.asks id senders task) := by
  have hcoordinator : G.coordinator = .asking (id :: senders) := by
    rw [h.coordinator, State.coordinator, loop]
  -- the session has nothing to do with the current call yet
  have hearlier : ∀ call, task.request = some call → call ≠ F.calls := by
    intro call htask
    have hplace : (F.view id).place = .unasked := by simp [State.view, Loop.place, loop]
    exact ((hw.sound id).numbered _ call member (Or.inl htask)).2 hplace
  obtain ⟨m', hm', hfree, hseen⟩ := h.asked hw member hearlier
  have hstep : G.step c .asks = some { G with
      sessions := G.sessions.insert id (m'.setControl (some .awaited))
      coordinator := .awaiting id senders none } := by
    simp only [Fleet.step, hcoordinator, hm', hfree]
  refine .one hstep ⟨?_, h.nextId, ?_, h.frozen, ?_⟩ rfl
  · refine members_of h id ?_ (fun i hi => ?_)
    · simp only [State.asks, State.setRequest, OrdMap.get?_insert, if_true]
      exact hseen
    · refine ⟨by simp [State.asks, State.setRequest, hi], by simp [hi], update_other hi, rfl,
        ?_, ?_⟩
      · rw [loop]
        rfl
      · intro hhears
        exact absurd (Eq.symm hhears) hi
  · simp [State.coordinator, State.asks, State.setRequest, State.replied, Oneshot.value?]
  · rw [h.resumes, loop]
    rfl

/-- A reply is collected. -/
theorem collects (h : Matches F G) {session : FrozenSession} (loop : F.loop = .polling id senders)
    (reply : (F.requests (id, F.calls)).reply = .sent session) :
    Follows c G .collects
      ({ F with
        frozen := F.frozen ++ [session]
        resumes := F.resumes ++ [id]
        loop := .asking senders }.setRequest id F.calls
          { F.requests (id, F.calls) with reply := .gone }) := by
  have hcoordinator : G.coordinator = .awaiting id senders (some session) := by
    simp only [h.coordinator, State.coordinator, loop, State.replied, reply, Oneshot.value?]
  have hstep : G.step c .collects = some { G with
      frozen := G.frozen ++ [session]
      resumes := G.resumes ++ [id]
      coordinator := .asking senders } := by
    simp only [Fleet.step, hcoordinator]
  have hresumes : G.resumes = F.resumes := by rw [h.resumes, loop]; rfl
  have hheard : Request.heard { F.requests (id, F.calls) with reply := .gone }
      = (F.requests (id, F.calls)).heard := by
    rw [heard_of_ne (r := F.requests (id, F.calls)) (by rw [reply]; exact fun heq => by cases heq)]
    rfl
  refine .one hstep ⟨?_, h.nextId, rfl, ?_, ?_⟩ rfl
  · refine members_of h id ?_ (fun i hi => ⟨rfl, rfl, ?_⟩)
    · refine (h.members id).of (heard_update hheard) (fun s clientFd call control _ => ?_)
      refine ⟨resumeSeen_of_eq ?_ rfl (by rw [loop]; rfl), fun hhears => by cases hhears⟩
      by_cases hcall : call = F.calls
      · simp [State.setRequest, hcall]
      · exact congrArg Request.resume (update_call hcall)
    · exact alike_of_loop (update_other hi) (by rw [loop]; rfl) (fun hhears => by cases hhears)
  · show G.frozen ++ [session] = F.frozen ++ [session]
    rw [h.frozen]
  · show G.resumes ++ [id] = F.resumes ++ [id]
    rw [hresumes]

/-- `freeze_all` stops listening to a session that has not replied. -/
theorem leaves (h : Matches F G) (hw : Whole F kept) {r : Oneshot FrozenSession}
    (loop : F.loop = .polling id senders ∨ F.loop = .expired id senders)
    (silent : F.replied id = none) (hr : r ≠ .pending) (ha : a.outer = none) :
    Follows c G a (F.leaves id senders r) := by
  obtain ⟨hhears, howes, hlisted, hawaiting⟩ := listening loop
  have hstep : G.step c .givesUp = some { G with
      sessions := G.sessions.adjust id Member.abandon, coordinator := .asking senders } := by
    simp only [Fleet.step, h.coordinator, hawaiting, silent]
  have hresumes : G.resumes = F.resumes := h.resumes.trans (hlisted _)
  have hother : ∀ i ≠ id, (F.leaves id senders r).members.get? i = F.members.get? i ∧
      (G.sessions.adjust id Member.abandon).get? i = G.sessions.get? i ∧
      Alike F (F.leaves id senders r) i := by
    intro i hi
    refine ⟨rfl, by simp [hi], update_other hi, rfl, ?_, fun hhears => by cases hhears⟩
    rw [howes i]
    exact if_neg (Ne.symm hi)
  by_cases hunread : ∃ s clientFd session call control,
      F.members.get? id = some ⟨.freezing s clientFd session call, control⟩ ∧
      (F.requests (id, call)).reply = .pending
  · -- it has taken the request up, and will find out when it replies
    obtain ⟨s, clientFd, session, call, control, member, reply⟩ := hunread
    obtain ⟨s₀, rfl, rfl, rfl, hseen⟩ := h.unread member reply
    have htakes : Fleet.step c { G with
        sessions := G.sessions.adjust id Member.abandon, coordinator := .asking senders }
          (.takesUp id clientFd) = some { G with
        sessions := (G.sessions.adjust id Member.abandon).insert id (.running s₀ none)
        coordinator := .asking senders } := by
      simp only [Fleet.step, OrdMap.get?_adjust, if_true, hseen, Option.map_some,
        Member.abandon, Member.setControl, freezeSession_gaveUp]
      rfl
    refine .two hstep htakes ⟨?_, h.nextId, rfl, h.frozen, hresumes⟩ rfl rfl ha
    refine members_of h id ?_ (fun i hi => ?_)
    · rw [OrdMap.get?_insert, if_pos rfl]
      show Seen _ id (F.members.get? id) _
      rw [member]
      exact .late_of rfl (hw.unheard hr call)
    · obtain ⟨hm, hm', halike⟩ := hother i hi
      exact ⟨hm, by rw [OrdMap.get?_insert, if_neg hi, hm'], halike⟩
  · refine .one hstep ⟨members_of h id ?_ hother, h.nextId, rfl, h.frozen, hresumes⟩ ha.symm
    rw [OrdMap.get?_adjust, if_pos rfl]
    refine (h.members id).leaves hw hr hhears silent ?_
    intro s clientFd session call control member reply
    exact hunread ⟨s, clientFd, session, call, control, member, reply⟩

theorem replyLost (h : Matches F G) (hw : Whole F kept) (loop : F.loop = .polling id senders)
    (reply : (F.requests (id, F.calls)).reply = .closed) :
    Follows c G .replyLost
      ({ F with loop := .leaving id senders }.setRequest id F.calls
        { F.requests (id, F.calls) with reply := .gone }) :=
  h.leaves hw (Or.inl loop) (by rw [State.replied, reply]; rfl) (fun heq => by cases heq) rfl

theorem expires (h : Matches F G) (loop : F.loop = .polling id senders) :
    Follows c G .expires { F with loop := .expired id senders } := by
  refine .unseen ⟨fun i => (h.members i).alike ?_, h.nextId, ?_, h.frozen, ?_⟩ rfl
  · refine alike_of_loop (fun _ => rfl) (by rw [loop]; rfl) ?_
    rw [loop]
    exact fun hhears => hhears
  · rw [h.coordinator, State.coordinator, loop]
    rfl
  · rw [h.resumes, loop]
    rfl

/-- The receiver of the reply is dropped, with or without a reply. -/
theorem dropsReply (h : Matches F G) (hw : Whole F kept) (loop : F.loop = .expired id senders) :
    Follows c G .dropsReply
      ({ F with loop := .leaving id senders }.setRequest id F.calls
        { F.requests (id, F.calls) with
          reply := (F.requests (id, F.calls)).reply.dropReceiver }) := by
  cases hreplied : F.replied id with
  | none => exact h.leaves hw (Or.inr loop) hreplied Oneshot.dropReceiver_eq_pending rfl
  | some session =>
      have hreply := Oneshot.value?_eq_some.mp hreplied
      obtain ⟨-, -, -, hawaits⟩ := (hw.sound id).sent F.calls session hreply
      obtain ⟨s, clientFd, control, member⟩ := hawaits.member
      have hresume : (F.requests (id, F.calls)).resume = .pending := hawaits.resume
      obtain ⟨hseen, -⟩ := h.waiting (show F.members.get? id = _ from member)
      have hcoordinator : G.coordinator = .awaiting id senders (some session) := by
        simp only [h.coordinator, State.coordinator, loop, hreplied]
      have hstep : G.step c .givesUp = some { G with
          sessions := G.sessions.adjust id Member.drop, coordinator := .asking senders } := by
        simp only [Fleet.step, hcoordinator]
      refine .one hstep ⟨?_, h.nextId, rfl, h.frozen, ?_⟩ rfl
      · refine members_of h id ?_ (fun i hi => ?_)
        · have hempty : F.resumeSeen id F.calls = .empty := by
            simp only [State.resumeSeen, hresume, if_true, loop, Loop.owes]
          rw [OrdMap.get?_adjust, if_pos rfl, hseen, hempty]
          show Seen _ id (F.members.get? id) _
          rw [show F.members.get? id = _ from member]
          refine .waiting_of ?_ (controlSeen_of (heard_update ?_) control)
            (fun hhears => by cases hhears)
          · simp only [State.resumeSeen, State.setRequest, Function.update_self, hresume, if_true,
              Loop.owes]
          · rw [heard_of_ne Oneshot.dropReceiver_eq_pending, heard_of_ne]
            rw [hreply]
            exact fun heq => by cases heq
        · refine ⟨rfl, by simp [hi], update_other hi, rfl, ?_, fun hhears => by cases hhears⟩
          rw [loop]
          exact if_neg (Ne.symm hi)
      · rw [h.resumes, loop]
        rfl

/-- The sender of the resume channel is dropped. -/
theorem dropsResume (h : Matches F G) (loop : F.loop = .leaving id senders) :
    Follows c G .dropsResume
      ({ F with loop := .asking senders }.setRequest id F.calls
        { F.requests (id, F.calls) with
          resume := (F.requests (id, F.calls)).resume.dropSender }) := by
  refine .unseen ⟨?_, h.nextId, ?_, h.frozen, ?_⟩ rfl
  · refine members_of h id ?_ (fun i hi => ⟨rfl, rfl, ?_⟩)
    · refine (h.members id).of (heard_update rfl) (fun s clientFd call control _ => ?_)
      refine ⟨?_, fun hhears => by cases hhears⟩
      by_cases hcall : call = F.calls
      · simp only [State.resumeSeen, State.setRequest, hcall, Function.update_self, if_true, loop,
          Loop.owes]
        cases (F.requests (id, F.calls)).resume <;> rfl
      · exact resumeSeen_of_ne rfl hcall (update_call hcall)
    · refine alike_of_loop (update_other hi) ?_ (fun hhears => by cases hhears)
      rw [loop]
      exact (if_neg (Ne.symm hi)).symm
  · rw [h.coordinator, State.coordinator, loop]
    rfl
  · rw [h.resumes, loop]
    rfl

theorem returns (h : Matches F G) (loop : F.loop = .asking []) :
    Follows c G .returns { F with loop := .returned } := by
  have hcoordinator : G.coordinator = .asking [] := by rw [h.coordinator, State.coordinator, loop]
  have hstep : G.step c .returns = some { G with coordinator := .returned } := by
    simp only [Fleet.step, hcoordinator]
  refine .one hstep ⟨fun i => (h.members i).alike ?_, h.nextId, rfl, h.frozen, ?_⟩ rfl
  · exact alike_of_loop (fun _ => rfl) (by rw [loop]; rfl) (fun hhears => by cases hhears)
  · rw [h.resumes, loop]
    rfl

/-- `resume_skipping` is called. -/
theorem resume {before : Remembered} (h : Matches F G) (hw : Whole F kept) (hG : G.Sound before)
    (loop : F.loop = .returned) (sent : Nat) :
    Follows c G (.resume sent)
      { F with loop := .resuming (F.frozen.drop sent), frozen := [] } := by
  have hcoordinator : G.coordinator = .returned := by rw [h.coordinator, State.coordinator, loop]
  have hstep : G.step c (.resume sent) = some { G with
      sessions := G.resumeSkipping sent, coordinator := .idle, frozen := [], resumes := [] } := by
    simp only [Fleet.step, hcoordinator]
  have hlisted : F.resumes = F.frozen.map FrozenSession.id := by
    rw [← h.frozen, ← hG.resumes, h.resumes, loop]
    rfl
  -- whoever waits for `resume_skipping` is in the batch
  have hwaits : ∀ {i s clientFd call control},
      F.members.get? i = some ⟨.waiting s clientFd call, control⟩ →
      (F.requests (i, call)).resume = .pending →
        call = F.calls ∧ i ∈ F.frozen.map FrozenSession.id := by
    intro i s clientFd call control member resume
    obtain ⟨hcall, hhears | ⟨senders, hleaving⟩ | hmem⟩ := hw.waits member resume
    · rw [loop] at hhears
      cases hhears
    · cases loop.symm.trans hleaving
    · exact ⟨hcall, hlisted ▸ hmem⟩
  refine .one hstep ⟨fun i => ?_, h.nextId, rfl, rfl, rfl⟩ rfl
  by_cases hi : i ∈ F.frozen.map FrozenSession.id
  · obtain ⟨f, hf, rfl⟩ := List.mem_map.mp hi
    obtain ⟨k, hk⟩ := List.mem_iff_getElem?.mp hf
    obtain ⟨s, control, -, -, hseen, hafter⟩ := hG.get?_resumeSkipping sent (h.frozen ▸ hk)
    obtain ⟨call, control', member, hempty, rfl⟩ := h.held hseen
    obtain ⟨rfl, -⟩ := hwaits member (resume_of_empty hempty)
    show Seen _ f.id (F.members.get? f.id) ((G.resumeSkipping sent).get? f.id)
    rw [member, hafter]
    refine .waiting_of ?_ rfl (fun hhears => by cases hhears)
    simp only [State.resumeSeen, resume_of_empty hempty, if_true, Loop.owes,
      find?_drop (h.frozen ▸ hG.nodup_ids) hk]
    by_cases hlt : k < sent
    · simp only [if_pos hlt]
    · simp only [if_neg hlt]
  · have hnot : ∀ f ∈ G.frozen, f.id ≠ i := by
      rintro f hf rfl
      exact hi (List.mem_map_of_mem (h.frozen ▸ hf))
    show Seen _ i (F.members.get? i) ((G.resumeSkipping sent).get? i)
    rw [hG.get?_resumeSkipping_other hnot]
    refine (h.members i).of (fun _ => rfl) (fun s clientFd call control member => ?_)
    refine ⟨?_, fun hhears => by cases hhears⟩
    cases hresume : (F.requests (i, call)).resume with
    | pending => exact absurd (hwaits member hresume).2 hi
    | _ => simp only [State.resumeSeen, hresume]

/-- One round of `resume_skipping`. -/
theorem sendsBack (h : Matches F G) {session : FrozenSession} {frozen : List FrozenSession}
    (loop : F.loop = .resuming (session :: frozen)) :
    Follows c G .resumes
      ({ F with
        resumes := F.resumes.erase session.id
        loop := .resuming frozen }.setRequest session.id F.calls
          { F.requests (session.id, F.calls) with
            resume := ((F.requests (session.id, F.calls)).resume.send session).1 }) := by
  refine .unseen ⟨?_, h.nextId, ?_, h.frozen, ?_⟩ rfl
  · refine members_of h session.id ?_ (fun i hi => ⟨rfl, rfl, ?_⟩)
    · refine (h.members session.id).of (heard_update rfl) (fun s clientFd call control _ => ?_)
      refine ⟨?_, fun hhears => by cases hhears⟩
      by_cases hcall : call = F.calls
      · simp only [State.resumeSeen, State.setRequest, hcall, Function.update_self, if_true, loop,
          Loop.owes]
        cases (F.requests (session.id, F.calls)).resume with
        | pending => simp [Oneshot.send]
        | _ => rfl
      · exact resumeSeen_of_ne rfl hcall (update_call hcall)
    · refine alike_of_loop (update_other hi) ?_ (fun hhears => by cases hhears)
      rw [loop, Loop.owes, Loop.owes, List.find?_cons_of_neg]
      simp [Ne.symm hi]
  · rw [h.coordinator, State.coordinator, loop]
    rfl
  · rw [h.resumes, loop]
    rfl

/-- The senders that are left are dropped. -/
theorem finishes (h : Matches F G) (hw : Whole F kept) (loop : F.loop = .resuming []) :
    Follows c G .finishes { F with requests := F.dropResumes, loop := .idle, resumes := [] } := by
  refine .unseen ⟨fun i => ?_, h.nextId, ?_, h.frozen, ?_⟩ rfl
  · refine (h.members i).of (fun call => ?_) (fun s clientFd call control member => ?_)
    · show Request.heard (F.dropResumes (i, call)) = _
      rw [State.dropResumes]
      split <;> rfl
    · refine ⟨?_, fun hhears => by cases hhears⟩
      have hpending : (F.requests (i, call)).resume = .pending →
          call = F.calls ∧ i ∈ F.resumes := by
        intro hresume
        obtain ⟨hcall, hhears | ⟨senders, hleaving⟩ | hlisted⟩ := hw.waits member hresume
        · rw [loop] at hhears
          cases hhears
        · cases loop.symm.trans hleaving
        · exact ⟨hcall, hlisted⟩
      by_cases hdropped : call = F.calls ∧ i ∈ F.resumes
      · simp only [State.resumeSeen, State.dropResumes, if_pos hdropped]
        cases (F.requests (i, call)).resume <;>
          simp [Oneshot.dropSender, hdropped.1, loop, Loop.owes]
      · simp only [State.resumeSeen, State.dropResumes, if_neg hdropped]
        cases hresume : (F.requests (i, call)).resume with
        | pending => exact absurd (hpending hresume) hdropped
        | _ => rfl
  · rw [h.coordinator, State.coordinator, loop]
    rfl
  · rw [h.resumes, loop]
    rfl

/-- Each step of the channels is seen as something the fleet can do. -/
theorem step {before : Remembered} (h : Matches F G) (hw : Whole F kept) (hG : G.Sound before)
    (hs : Step c F a F' o) : Follows c G a F' := by
  cases hs with
  | joins named => exact h.joins named
  | stepped member stays loop => exact h.stepped member stays loop
  | ends member stays loop => exact h.ends member stays loop
  | takes member => exact h.takes member _
  | replies member reply => exact h.replies hw member reply
  | restores member reply back => exact h.restores member reply back
  | wakes member resume back => exact h.wakes member resume back
  | exits member resume => exact h.exits member resume
  | freezes idle all => exact h.freezes hw idle all
  | gone loop member => exact h.passes loop member
  | sends loop member => exact h.sends hw loop member
  | collects loop reply => exact h.collects loop reply
  | replyLost loop reply => exact h.replyLost hw loop reply
  | expires loop => exact h.expires loop
  | dropsReply loop => exact h.dropsReply hw loop
  | dropsResume loop => exact h.dropsResume loop
  | returns loop => exact h.returns loop
  | resume loop => exact h.resume hw hG loop _
  | resumes loop => exact h.sendsBack loop
  | @skips session frozen loop resumes =>
      have hbatch := head_batch (hw.frozen (Or.inr ⟨_, loop⟩)) loop
      have hheld := ((hw.sound session.id).batch (by rw [hbatch]; exact List.cons_ne_nil _ _)).1
      exact absurd (of_decide_eq_true hheld) resumes
  | finishes loop => exact h.finishes hw loop

end Matches

/-! ## Runs -/

theorem matches_start : Matches .start .start :=
  ⟨fun _ => .gone, rfl, rfl, rfl, rfl⟩

/-- What holds of the channels and the fleet they are seen as. -/
structure Projects (F : State) (G : Fleet) : Prop where
  whole : ∃ kept, Whole F kept
  sound : ∃ before, G.Sound before
  seen : Matches F G

theorem Projects.step (h : Projects F G) (hs : (machine c).step F a = some (F', o)) :
    ∃ es G' out, (fleetMachine c).run G es = some (G', out) ∧ Projects F' G' ∧
      es.filterMap FleetEvent.outer = [a].filterMap Action.outer := by
  have hs : Step c F a F' o := step_of_step hs
  obtain ⟨kept, hw⟩ := h.whole
  obtain ⟨before, hG⟩ := h.sound
  obtain ⟨es, G', out, hrun, hseen, houter⟩ := h.seen.step hw hG hs
  refine ⟨es, G', out, hrun, ⟨⟨_, hw.step hs⟩, ?_, hseen⟩, houter⟩
  refine Machine.run_induction (I := fun G => ∃ before, G.Sound before) ?_ h.sound hrun
  rintro G e G' out ⟨before, hG⟩ hs
  obtain ⟨G'', hG'', hpair⟩ := Option.map_eq_some_iff.mp hs
  cases hpair
  exact ⟨_, hG.step (fleetStep_of_step hG'')⟩

/-- Every run of the channels is seen as a run of the fleet, in which the sessions make the
same steps and the calls are the same. -/
theorem fleet_of_freezeAll {as : List Action} (hrun : (machine c).run .start as = some (F, o)) :
    ∃ es G out, (fleetMachine c).run .start es = some (G, out) ∧ Matches F G ∧
      es.filterMap FleetEvent.outer = as.filterMap Action.outer := by
  have hstart : Projects .start .start :=
    ⟨⟨_, whole_start⟩, ⟨_, Fleet.Sound.start⟩, matches_start⟩
  obtain ⟨es, G, out, hrun', hprojects, houter⟩ :=
    Machine.run_simulated (fun _ _ _ _ _ h hs => h.step hs) hstart hrun
  exact ⟨es, G, out, hrun', hprojects.seen, houter⟩

end TrafficDirector.FreezeAll
