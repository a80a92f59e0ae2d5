/-
# `TrafficDirector.Session.Grants` — which subscriptions the broker has granted

A SUBACK answers the latest SUBSCRIBE with its packet id that is unanswered, with one
return code for each of its filters, in order.  The subscription table is written by the
client's SUBSCRIBEs and UNSUBSCRIBEs alone: a filter that the broker has refused stays in
it, and the next replay asks for it again.  `onlyGranted_iff` says which runs never have
such a filter in the table.
-/
import TrafficDirector.ReferenceCodec
import TrafficDirector.Session.Answers

namespace TrafficDirector

open Framing (Reader)

/-! ## SUBSCRIBEs and their answers -/

/-- The id and the filters of a SUBSCRIBE. -/
def MqttPacket.subscribes : MqttPacket → Option (UInt16 × List String)
  | .v3 (.subscribe packetId topicFilters) => some (packetId.get, topicFilters.map Prod.fst)
  | .v5 (.subscribe subscribe) =>
      some (subscribe.packetId.get, subscribe.topicFilters.map Prod.fst)
  | _ => none

/-- The id of a SUBACK, and which of the filters it grants. -/
def MqttPacket.subscribeAnswer : MqttPacket → Option (UInt16 × List Bool)
  | .v3 (.subscribeAck packetId status) =>
      some (packetId.get, status.map (fun code => match code with
        | .success _ => true
        | .failure => false))
  | .v5 (.subscribeAck ack) =>
      some (ack.packetId.get, ack.status.map (fun reason => match reason with
        | .granted _ => true
        | _ => false))
  | _ => none

/-- A SUBSCRIBE of the client. -/
structure Asked where
  packetId : UInt16
  topicFilters : List String
  /-- what the SUBACK has said of each filter, once there is one -/
  granted : Option (List Bool)
deriving DecidableEq

namespace Asked

/-- The answers for a filter: those at its positions, the last of which counts. -/
def Grants (a : Asked) (granted : List Bool) (topicFilter : String) : Prop :=
  OrdMap.lastFor topicFilter (a.topicFilters.zip granted) = some true

instance (a : Asked) (granted : List Bool) (topicFilter : String) :
    Decidable (a.Grants granted topicFilter) :=
  inferInstanceAs (Decidable (_ = _))

/-- The filter is granted, or the SUBSCRIBE is unanswered. -/
def Live (a : Asked) (topicFilter : String) : Prop :=
  ∀ granted, a.granted = some granted → a.Grants granted topicFilter

def waitsFor (a : Asked) (i : UInt16) : Bool := a.packetId = i ∧ a.granted = none

end Asked

/-- The SUBSCRIBEs that the client has sent, the latest first. -/
abbrev Grants := List Asked

namespace Grants

def hear (g : Grants) (p : MqttPacket) : Grants :=
  match p.subscribes with
  | some (i, topicFilters) => ⟨i, topicFilters, none⟩ :: g
  | none => g

/-- A SUBACK answers the latest SUBSCRIBE with its id that waits for one. -/
def answer (g : Grants) (i : UInt16) (granted : List Bool) : Grants :=
  match g with
  | [] => []
  | a :: g =>
      if a.waitsFor i then { a with granted := some granted } :: g else a :: answer g i granted

/-- The client's last SUBSCRIBE for a filter. -/
def last (g : Grants) (topicFilter : String) : Option Asked :=
  g.find? (fun a => topicFilter ∈ a.topicFilters)

/-- The client's last SUBSCRIBE for a filter, if a SUBACK with this id answers it. -/
def answered (g : Grants) (i : UInt16) (topicFilter : String) : Option Asked :=
  match g with
  | [] => none
  | a :: g =>
      match a.waitsFor i, decide (topicFilter ∈ a.topicFilters) with
      | true, true => some a
      | false, false => answered g i topicFilter
      | _, _ => none

/-- After a step in which `out` is sent to the client. -/
def after (_ : Outcome) (g : Grants) (e : Event) (out : List Output) : Grants :=
  ((out.filterMap Output.packetToClient).filterMap MqttPacket.subscribeAnswer).foldl
    (fun g a => g.answer a.1 a.2) (e.clientPacket.toList.foldl hear g)

/-- Of these SUBACKs, none refuses a filter of the table whose last SUBSCRIBE it answers. -/
def NoneRefused (table : Subscriptions) (g : Grants) : List (UInt16 × List Bool) → Prop
  | [] => True
  | (i, granted) :: answers =>
      (∀ e ∈ table.entries, ∀ a ∈ g.answered i e.topicFilter,
        a.Grants granted e.topicFilter) ∧
      NoneRefused table (g.answer i granted) answers

instance NoneRefused.decidable (table : Subscriptions) :
    ∀ (answers : List (UInt16 × List Bool)) (g : Grants), Decidable (NoneRefused table g answers)
  | [], _ => isTrue trivial
  | (i, granted) :: answers, g =>
      have := NoneRefused.decidable table answers (g.answer i granted)
      inferInstanceAs (Decidable (_ ∧ _))

/-- A re-SUBSCRIBE now would ask for granted filters only, and for such as are asked for
in a SUBSCRIBE without an answer. -/
def OnlyGranted (table : Subscriptions) (g : Grants) : Prop :=
  ∀ e ∈ table.entries, ∃ a, g.last e.topicFilter = some a ∧ a.Live e.topicFilter

end Grants

/-- A session, and what has been granted. -/
def grantsMachine (c : Codec) : Machine (Outcome × Grants) Event Output :=
  (sessionMachine c).record Grants.after

/-- A session asks for granted filters only. -/
def AsksForGranted (k : Outcome × Grants) : Prop :=
  match k.1 with
  | .running s => Grants.OnlyGranted s.subscriptions k.2
  | .ended _ => True

/-- The SUBACKs that the step decodes refuse no filter of the table. -/
def KeepsGrants (c : Codec) (k : Outcome × Grants) (e : Event) : Prop :=
  match k.1 with
  | .running s => Grants.NoneRefused s.subscriptions k.2
      ((s.arrivals c e).filterMap MqttPacket.subscribeAnswer)
  | .ended _ => True

instance (c : Codec) (k : Outcome × Grants) (e : Event) : Decidable (KeepsGrants c k e) := by
  unfold KeepsGrants
  split <;> infer_instance

variable {c : Codec} {s s' : Session} {e : Event} {out : List Output} {g : Grants}
  {table : Subscriptions}

namespace Grants

/-! ## Answers -/

theorem last_cons (a : Asked) (g : Grants) (topicFilter : String) :
    last (a :: g) topicFilter =
      if topicFilter ∈ a.topicFilters then some a else last g topicFilter := by
  rw [last, List.find?_cons]
  by_cases hf : topicFilter ∈ a.topicFilters
  · rw [if_pos hf, decide_eq_true hf]
  · rw [if_neg hf, decide_eq_false hf]
    rfl

theorem last_answer (g : Grants) (i : UInt16) (granted : List Bool) (topicFilter : String) :
    (g.answer i granted).last topicFilter =
      match g.answered i topicFilter with
      | some a => some { a with granted := some granted }
      | none => g.last topicFilter := by
  induction g with
  | nil => rfl
  | cons a g ih =>
      rw [answer, answered]
      by_cases hf : topicFilter ∈ a.topicFilters
      · rw [decide_eq_true hf]
        cases a.waitsFor i with
        | true => rw [if_pos rfl, last_cons, if_pos hf]
        | false => rw [if_neg (by simp), last_cons, if_pos hf, last_cons, if_pos hf]
      · rw [decide_eq_false hf]
        cases a.waitsFor i with
        | true => rw [if_pos rfl, last_cons, if_neg hf, last_cons, if_neg hf]
        | false => rw [if_neg (by simp), last_cons, if_neg hf, last_cons, if_neg hf, ih]

theorem last_of_answered {i : UInt16} {topicFilter : String} {a : Asked}
    (h : g.answered i topicFilter = some a) :
    g.last topicFilter = some a ∧ a.granted = none := by
  induction g with
  | nil => exact nomatch h
  | cons b g ih =>
      rw [answered] at h
      rw [last_cons]
      split at h
      · next hw hf =>
          obtain rfl := Option.some.inj h
          exact ⟨if_pos (of_decide_eq_true hf), (of_decide_eq_true hw).2⟩
      · next hw hf =>
          rw [if_neg (of_decide_eq_false hf)]
          exact ih h
      · exact nomatch h

/-- An answer keeps what is granted, exactly if it refuses nothing. -/
theorem onlyGranted_answer (h : OnlyGranted table g) (i : UInt16) (granted : List Bool) :
    OnlyGranted table (g.answer i granted) ↔
      ∀ e ∈ table.entries, ∀ a ∈ g.answered i e.topicFilter, a.Grants granted e.topicFilter := by
  refine forall₂_congr (fun e he => ?_)
  rw [last_answer]
  cases ha : g.answered i e.topicFilter with
  | none =>
      refine iff_of_true (h e he) ?_
      intro a ha'
      exact nomatch ha'
  | some a =>
      constructor
      · rintro ⟨a', ha', hlive⟩ b hb
        obtain rfl := Option.some.inj hb
        obtain rfl := Option.some.inj ha'
        exact hlive granted rfl
      · intro hgrants
        refine ⟨_, rfl, ?_⟩
        intro granted' hgranted
        rw [← Option.some.inj hgranted]
        exact hgrants a rfl

/-- What an answer refuses stays refused until the filter is asked for again. -/
theorem onlyGranted_of_answers {answers : List (UInt16 × List Bool)}
    (h : OnlyGranted table (answers.foldl (fun g a => g.answer a.1 a.2) g)) :
    OnlyGranted table g := by
  induction answers generalizing g with
  | nil => exact h
  | cons a answers ih =>
      have h := ih h
      intro e he
      obtain ⟨b, hb, hlive⟩ := h e he
      rw [last_answer] at hb
      cases ha : g.answered a.1 e.topicFilter with
      | none =>
          rw [ha] at hb
          exact ⟨b, hb, hlive⟩
      | some b' =>
          obtain ⟨hlast, hwaits⟩ := last_of_answered ha
          refine ⟨b', hlast, ?_⟩
          intro granted hgranted
          exact nomatch hwaits.symm.trans hgranted

theorem onlyGranted_answers (h : OnlyGranted table g) (answers : List (UInt16 × List Bool)) :
    OnlyGranted table (answers.foldl (fun g a => g.answer a.1 a.2) g) ↔
      NoneRefused table g answers := by
  induction answers generalizing g with
  | nil => exact iff_of_true h trivial
  | cons a answers ih =>
      rw [List.foldl_cons, NoneRefused]
      rw [← onlyGranted_answer h]
      constructor
      · intro hall
        have hone := onlyGranted_of_answers hall
        exact ⟨hone, (ih hone).mp hall⟩
      · rintro ⟨hone, hall⟩
        exact (ih hone).mpr hall

/-! ## SUBSCRIBEs -/

theorem mem_of_assignments {p : MqttPacket} {a : String × Option UInt8} (ha : a ∈ p.assignments)
    (hsome : a.2.isSome = true) : ∃ i topicFilters, p.subscribes = some (i, topicFilters) ∧
      a.1 ∈ topicFilters := by
  unfold MqttPacket.assignments at ha
  split at ha
  · obtain ⟨f, hf, rfl⟩ := List.mem_map.mp ha
    exact ⟨_, _, rfl, List.mem_map_of_mem hf⟩
  · obtain ⟨f, hf, rfl⟩ := List.mem_map.mp ha
    exact nomatch hsome
  · obtain ⟨f, hf, rfl⟩ := List.mem_map.mp ha
    exact ⟨_, _, rfl, List.mem_map_of_mem hf⟩
  · obtain ⟨f, hf, rfl⟩ := List.mem_map.mp ha
    exact nomatch hsome
  · exact nomatch ha

/-- A packet of the client keeps what is granted. -/
theorem onlyGranted_hear (h : OnlyGranted table g) (p : MqttPacket) :
    OnlyGranted (table.track p) (g.hear p) := by
  intro e he
  have hsome : (Assign.run table.options p.assignments e.topicFilter).isSome = true := by
    rw [← Subscriptions.options_track]
    exact Subscriptions.options_isSome.mpr ⟨e, he, rfl⟩
  have hold : (table.options e.topicFilter).isSome = true →
      ∃ a, g.last e.topicFilter = some a ∧ a.Live e.topicFilter := by
    intro htable
    obtain ⟨e', he', heq⟩ := Subscriptions.options_isSome.mp htable
    exact heq ▸ h e' he'
  unfold hear
  cases hp : p.subscribes with
  | none =>
      refine hold ((Assign.run_isSome hsome).resolve_left ?_)
      rintro ⟨a, ha, -, hvalue⟩
      obtain ⟨i, fs, hsub, -⟩ := mem_of_assignments ha hvalue
      exact nomatch hp.symm.trans hsub
  | some request =>
      show ∃ a, Grants.last (⟨request.1, request.2, none⟩ :: g) _ = some a ∧ _
      rw [last_cons]
      by_cases hf : e.topicFilter ∈ request.2
      · refine ⟨_, if_pos hf, ?_⟩
        intro granted hgranted
        exact nomatch hgranted
      · rw [if_neg hf]
        refine hold ((Assign.run_isSome hsome).resolve_left ?_)
        rintro ⟨a, ha, hkey, hvalue⟩
        obtain ⟨i, fs, hsub, hmem⟩ := mem_of_assignments ha hvalue
        obtain rfl := Option.some.inj (hp.symm.trans hsub)
        exact hf (hkey ▸ hmem)

end Grants

/-! ## Runs -/

theorem subscribeAnswer_of_not_passedOn {p : MqttPacket} (h : ¬ p.PassedOn) :
    p.subscribeAnswer = none := by
  refine eq_none_of_not_passedOn (fun p a ha => ?_) h
  unfold MqttPacket.subscribeAnswer at ha
  split at ha
  · exact MqttPacket.passedOn_of_shape (fun h => nomatch h) (fun h => nomatch h)
  · exact MqttPacket.passedOn_of_shape (fun h => nomatch h) (fun h => nomatch h)
  · exact nomatch ha

/-- No step but one that passes on a refusal makes the session ask for a refused filter. -/
theorem Transition.asksForGranted (h : Transition c s e s' out)
    (hP : Grants.OnlyGranted s.subscriptions g) :
    Grants.OnlyGranted s'.subscriptions (Grants.after (.running s) g e out) ↔
      KeepsGrants c (.running s, g) e := by
  have hclient : Grants.OnlyGranted s'.subscriptions (e.clientPacket.toList.foldl Grants.hear g) := by
    rw [h.subscriptions]
    cases e.clientPacket with
    | none => exact hP
    | some p => exact Grants.onlyGranted_hear hP p
  rw [Grants.after, h.packetsToClient (fun p => subscribeAnswer_of_not_passedOn),
    Grants.onlyGranted_answers hclient, KeepsGrants]
  cases hp : e.clientPacket with
  | none =>
      rw [h.subscriptions, hp]
      exact Iff.rfl
  | some p =>
      obtain ⟨now, after, pong, forward, rfl⟩ := Event.eq_clientRead hp
      exact iff_of_true trivial trivial

/-- A session asks on the client's behalf for granted filters, and for such as are asked
for in a SUBSCRIBE without an answer, exactly in the runs in which no SUBACK that is
passed on refuses a filter of the table whose last SUBSCRIBE it answers. -/
theorem onlyGranted_iff {id : SessionId} {hs : Handshake} {client broker : Reader UInt8}
    {now : Nat} {es : List Event}
    (hrun : (grantsMachine c).run (.running (Session.initial id hs client broker now), []) es
      = some ((.running s, g), out)) :
    (grantsMachine c).Always AsksForGranted
        (.running (Session.initial id hs client broker now), []) es ↔
      (grantsMachine c).Along (KeepsGrants c)
        (.running (Session.initial id hs client broker now), []) es := by
  have hstart : AsksForGranted (.running (Session.initial id hs client broker now), []) := by
    intro e he
    exact nomatch he
  refine (Machine.always_iff_live (L := fun k s => k.1 = .running s) (J := fun _ _ => True)
    ?_ (fun _ _ => trivial) hrun rfl).trans (and_iff_right hstart)
  rintro ⟨o, g⟩ e ⟨o', g'⟩ out s' hlive hstep
  obtain ⟨hs, hafter⟩ := Machine.record_step_eq_some.mp hstep
  obtain rfl : o' = .running s' := hlive
  obtain rfl : g' = Grants.after o g e out := hafter
  obtain ⟨s, rfl⟩ := running_of_step hs
  refine ⟨s, rfl, fun _ => ⟨trivial, ?_⟩⟩
  intro hP
  exact (forwardLoop_running hs).asksForGranted hP

/-- The table of a session that runs, and what has been granted. -/
def grantsOf (k : Outcome × Grants) : Option (Subscriptions × Grants) :=
  match k.1 with
  | .running s => some (s.subscriptions, k.2)
  | .ended _ => none

theorem grantsOf_eq_some {k : Outcome × Grants} (h : grantsOf k = some (table, g)) :
    ∃ s, k = (.running s, g) ∧ s.subscriptions = table := by
  obtain ⟨o, g'⟩ := k
  unfold grantsOf at h
  split at h
  · next s hs =>
      obtain ⟨htable, rfl⟩ := Prod.mk.inj (Option.some.inj h)
      obtain rfl : o = .running s := hs
      exact ⟨s, rfl, htable⟩
  · exact nomatch h

namespace ReferenceCodec

/-- The broker refuses the filter. -/
def refusal : MqttPacket := .v3 (.subscribeAck one [.failure])

/-- A SUBSCRIBE is refused and taken back, and granted the second time. -/
def grantedLater : List Event :=
  [forwarded subscribe, forwarded unsubscribe, delivered refusal, forwarded subscribe,
    delivered suback]

/-- A SUBSCRIBE is refused; the broker restarts. -/
def subscriptionRefused : List Event :=
  [forwarded subscribe, delivered refusal, brokerCloses, .wait (some accepting)]

end ReferenceCodec

open ReferenceCodec in
theorem onlyGranted_later : ∃ s g out,
    (grantsMachine (codec true)).run (.running session, []) grantedLater
      = some ((.running s, g), out) ∧
    s.subscriptions = ⟨[⟨"t", 1⟩]⟩ ∧
    (grantsMachine (codec true)).Always AsksForGranted (.running session, []) grantedLater := by
  have hview : ((grantsMachine (codec true)).run (.running session, []) grantedLater).map
      (fun r => grantsOf r.1) = some (some (⟨[⟨"t", 1⟩]⟩,
        [⟨1, ["t"], some [true]⟩, ⟨1, ["t"], some [false]⟩])) := by
    decide +kernel
  obtain ⟨⟨k, out⟩, hrun, hk⟩ := Option.map_eq_some_iff.mp hview
  obtain ⟨s, rfl, htable⟩ := grantsOf_eq_some hk
  exact ⟨s, _, out, hrun, htable, (onlyGranted_iff hrun).mpr (by decide +kernel)⟩

open ReferenceCodec in
/-- The replay asks again for a filter that the broker has refused. -/
theorem refused_asked_again : ∃ s g out,
    (grantsMachine (codec true)).run (.running session, []) subscriptionRefused
      = some ((.running s, g), out) ∧
    out.count (.toBroker (.packet subscribe)) = 2 ∧ ¬ AsksForGranted (.running s, g) := by
  have hview : ((grantsMachine (codec true)).run (.running session, []) subscriptionRefused).map
      (fun r => (grantsOf r.1, r.2.count (.toBroker (.packet subscribe))))
        = some (some (⟨[⟨"t", 1⟩]⟩, [⟨1, ["t"], some [false]⟩]), 2) := by
    decide +kernel
  obtain ⟨⟨k, out⟩, hrun, hk⟩ := Option.map_eq_some_iff.mp hview
  obtain ⟨hgrants, hcount⟩ := Prod.mk.inj hk
  obtain ⟨s, rfl, htable⟩ := grantsOf_eq_some hgrants
  refine ⟨s, _, out, hrun, hcount, ?_⟩
  intro h
  have hentry : ⟨"t", 1⟩ ∈ s.subscriptions.entries := htable ▸ List.mem_singleton.mpr rfl
  obtain ⟨a, ha, hlive⟩ := h ⟨"t", 1⟩ hentry
  obtain rfl := Option.some.inj ha
  exact absurd (hlive [false] rfl) (by decide)

end TrafficDirector
