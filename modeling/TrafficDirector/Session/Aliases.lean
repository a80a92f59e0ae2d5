/-
# `TrafficDirector.Session.Aliases` — topic aliases on the broker connections

A PUBLISH of MQTT 5 may state an alias for its topic, and a later one may carry the
alias only.  An alias holds on the network connection on which it was stated.  The
session passes PUBLISHes on as they are, live, from the window and from the buffer, and
its broker connections come and go: `publishes_resolve` says for which runs each of them
means on its broker connection what it meant to the client.
-/
import TrafficDirector.Lib.Assign
import TrafficDirector.Session.Order

namespace TrafficDirector

open Framing (Reader)
open Resend (Stamped)

/-! ## Aliases -/

/-- What the aliases stand for. -/
abbrev Aliases := UInt16 → Option String

def Publish.topicAlias (p : Publish) : Option UInt16 :=
  (p.properties.bind PublishProperties.topicAlias).map NonZeroU16.get

/-- The alias that a PUBLISH states, with its topic. -/
def MqttPacket.states : MqttPacket → Option (UInt16 × Option String)
  | .v5 (.publish p) =>
      if p.topic = "" then none else p.topicAlias.map (fun a => (a, some p.topic))
  | _ => none

/-- The alias of a PUBLISH that has no topic. -/
def MqttPacket.uses : MqttPacket → Option UInt16
  | .v5 (.publish p) => if p.topic = "" then p.topicAlias else none
  | _ => none

/-- What the aliases stand for after these packets. -/
def stated (ps : List MqttPacket) : Aliases :=
  Assign.run (fun _ => none) (ps.filterMap MqttPacket.states)

/-- A PUBLISH carries its topic or an alias that stands for one. -/
def MqttPacket.HasTopic (p : MqttPacket) (t : Aliases) : Prop :=
  match p with
  | .v5 (.publish p) => p.topic ≠ "" ∨ ∃ topic, p.topicAlias.bind t = some topic
  | _ => True

/-- A PUBLISH carries its topic, or an alias that stands for one and the same topic
`here` and `there`. -/
def MqttPacket.Resolves (p : MqttPacket) (here there : Aliases) : Prop :=
  match p with
  | .v5 (.publish p) => p.topic ≠ "" ∨ ∃ topic,
      p.topicAlias.bind here = some topic ∧ p.topicAlias.bind there = some topic
  | _ => True

/-- Each of these packets of the client, sent in this order on one connection, resolves
there to the topic that it has in the client's stream `read`. -/
def EachResolves (read : List MqttPacket) (ms : List (Stamped MqttPacket)) : Prop :=
  ∀ i, (hi : i < ms.length) → ms[i].item.Resolves (stated ((ms.take i).map Stamped.item))
    (stated (read.take ms[i].seq))

/-- Each of these packets that has an alias only comes after one that states the alias,
and the last such one states what the alias stands for in the client's stream. -/
def EachStated (read : List MqttPacket) (ms : List (Stamped MqttPacket)) : Prop :=
  ∀ i, (hi : i < ms.length) → ∀ a ∈ ms[i].item.uses,
    stated ((ms.take i).map Stamped.item) a = stated (read.take ms[i].seq) a

/-! ## The broker connection opened last -/

structure Connection where
  /-- what was in the window and in the buffer when it was opened -/
  held : List MqttPacket
  /-- what the client has sent since -/
  since : List MqttPacket
  /-- the client packets written to it -/
  written : List (Stamped MqttPacket)

def Connection.after (j : Journal) (h : Connection) (e : Event) (notes : List Noted) :
    Connection where
  held := if e.opens then j.ledger.resent.map Stamped.item else h.held
  since := if e.opens then [] else h.since ++ e.clientPacket.toList
  written := notes.foldl Noted.write h.written

/-- A session with its journal and its broker connection. -/
def aliasMachine (c : Codec) : Machine (Journal × Connection) Event Noted :=
  (journalMachine c).record Connection.after

/-- The client uses only aliases that it has stated. -/
def UsesStated (k : Journal × Connection) (e : Event) : Prop :=
  ∀ p, e.clientPacket = some p → p.HasTopic (stated k.1.ledger.read)

/-- Of the packets to be written, each PUBLISH that has an alias only finds the alias
stated: live, by the client since the connection was opened, or else with the right topic
among what was held then; at a replay, ahead of it in the window or the buffer. -/
def StatesAliases (k : Journal × Connection) (e : Event) : Prop :=
  match k.1.session, e with
  | .running s, .clientRead _ (.packet p) _ _ .ok => s.broker.isSome = true → ∀ a ∈ p.uses,
      a ∈ (k.2.since.filterMap MqttPacket.states).map Prod.fst ∨
        stated k.2.held a = stated k.1.ledger.read a
  | .running _, .wait (some _) => EachStated k.1.ledger.read k.1.ledger.resent
  | _, _ => True

/-- Each PUBLISH on the connection opened last resolves. -/
def PublishesResolve (k : Journal × Connection) : Prop :=
  EachResolves k.1.ledger.read k.2.written

instance (p : MqttPacket) (t : Aliases) : Decidable (p.HasTopic t) := by
  unfold MqttPacket.HasTopic
  split
  · next p =>
      exact decidable_of_iff (p.topic ≠ "" ∨ (p.topicAlias.bind t).isSome = true)
        (or_congr_right Option.isSome_iff_exists)
  · infer_instance

instance (p : MqttPacket) (here there : Aliases) : Decidable (p.Resolves here there) := by
  unfold MqttPacket.Resolves
  split
  · next p =>
      refine decidable_of_iff (p.topic ≠ "" ∨ ∃ topic ∈ p.topicAlias.bind here,
        p.topicAlias.bind there = some topic) Iff.rfl
  · infer_instance

instance (read : List MqttPacket) (ms : List (Stamped MqttPacket)) :
    Decidable (EachResolves read ms) :=
  Nat.decidableBallLT _ _

instance (read : List MqttPacket) (ms : List (Stamped MqttPacket)) :
    Decidable (EachStated read ms) :=
  @Nat.decidableBallLT _ _ (fun _ _ => Option.decidableForallMem _)

instance (k : Journal × Connection) (e : Event) : Decidable (UsesStated k e) :=
  Option.decidableForallMem e.clientPacket

instance : ∀ (k : Journal × Connection) (e : Event), Decidable (StatesAliases k e)
  | (⟨.ended _, _⟩, _), _ => .isTrue trivial
  | (⟨.running _, _⟩, _), e =>
      match e with
      | .clientRead _ (.packet _) _ _ .ok =>
          @instDecidableForall _ _ inferInstance (Option.decidableForallMem _)
      | .wait (some _) => inferInstanceAs (Decidable (EachStated _ _))
      | .clientRead _ (.packet _) _ _ (.failed _) | .clientRead _ (.error _) _ _ _
      | .clientRead _ .closed _ _ _ | .wait none | .clientBytes .. | .brokerBytes ..
      | .brokerRead .. | .freeze .. | .migrate .. | .keepalive .. => .isTrue trivial

instance (k : Journal × Connection) : Decidable (PublishesResolve k) :=
  inferInstanceAs (Decidable (EachResolves _ _))

variable {c : Codec} {s s' : Session} {e : Event} {out : List Output} {l : Ledger}
  {h : Connection} {notes : List Noted} {read : List MqttPacket}
  {ms : List (Stamped MqttPacket)}

/-! ## What aliases stand for -/

theorem stated_append (ps qs : List MqttPacket) :
    stated (ps ++ qs) = Assign.run (stated ps) (qs.filterMap MqttPacket.states) := by
  rw [stated, List.filterMap_append, Assign.run_append]
  rfl

/-- What an alias stands for was stated in the later packets, or it is the same with the
earlier ones only. -/
theorem stated_since {held before since : List MqttPacket} {a : UInt16} :
    a ∈ (since.filterMap MqttPacket.states).map Prod.fst ∨
        stated held a = stated (before ++ since) a ↔
      stated (held ++ since) a = stated (before ++ since) a := by
  rw [stated_append, stated_append]
  by_cases ha : a ∈ (since.filterMap MqttPacket.states).map Prod.fst
  · exact iff_of_true (Or.inl ha) (Assign.run_of_mem ha _ _)
  · rw [Assign.run_of_not_mem ha, Assign.run_of_not_mem ha, or_iff_right ha]

/-- A PUBLISH that has a topic there has the same here if its alias stands for the same. -/
theorem MqttPacket.HasTopic.resolves_iff {p : MqttPacket} {here there : Aliases}
    (hp : p.HasTopic there) : p.Resolves here there ↔ ∀ a ∈ p.uses, here a = there a := by
  unfold MqttPacket.HasTopic at hp
  unfold MqttPacket.Resolves MqttPacket.uses
  split
  · next p =>
      dsimp only at hp ⊢
      by_cases htopic : p.topic = ""
      · rw [if_pos htopic, or_iff_right (not_not_intro htopic)]
        rcases hp with hp | ⟨topic, hthere⟩
        · exact absurd htopic hp
        · obtain ⟨a, ha, hthere⟩ := Option.bind_eq_some_iff.mp hthere
          rw [ha]
          constructor
          · rintro ⟨topic', hhere, hthere'⟩ a' ha'
            obtain rfl := Option.some.inj ha'
            exact hhere.trans hthere'.symm
          · intro hall
            exact ⟨topic, (hall a rfl).trans hthere, hthere⟩
      · rw [if_neg htopic]
        refine iff_of_true (Or.inl htopic) ?_
        intro a ha
        exact nomatch ha
  · refine iff_of_true trivial ?_
    intro a ha
    exact nomatch ha

theorem eachResolves_iff
    (hvalid : ∀ m ∈ ms, m.item.HasTopic (stated (read.take m.seq))) :
    EachResolves read ms ↔ EachStated read ms := by
  refine forall_congr' (fun i => forall_congr' (fun hi => ?_))
  exact (hvalid _ (List.getElem_mem hi)).resolves_iff

theorem eachResolves_nil : EachResolves read [] := by
  intro i hi
  exact nomatch hi

/-- The last packet resolves after those before it. -/
theorem eachResolves_append_singleton {m : Stamped MqttPacket} :
    EachResolves read (ms ++ [m]) ↔ EachResolves read ms ∧
      m.item.Resolves (stated (ms.map Stamped.item)) (stated (read.take m.seq)) := by
  constructor
  · intro hall
    refine ⟨fun i hi => ?_, ?_⟩
    · have hone := hall i (by rw [List.length_append]; omega)
      rw [List.getElem_append_left hi, List.take_append_of_le_length (Nat.le_of_lt hi)] at hone
      exact hone
    · have hone := hall ms.length (by simp)
      rw [List.getElem_concat_length rfl, List.take_left] at hone
      exact hone
  · rintro ⟨hall, hlast⟩ i hi
    rw [List.length_append, List.length_singleton] at hi
    rcases Nat.lt_succ_iff_lt_or_eq.mp hi with hi | rfl
    · rw [List.getElem_append_left hi, List.take_append_of_le_length (Nat.le_of_lt hi)]
      exact hall i hi
    · rw [List.getElem_concat_length rfl, List.take_left]
      exact hlast

theorem EachResolves.take (hall : EachResolves read ms) (k : Nat) :
    EachResolves read (ms.take k) := by
  intro i hi
  obtain ⟨hik, hi⟩ := Nat.lt_min.mp (List.length_take ▸ hi)
  rw [List.getElem_take, List.take_take, Nat.min_eq_left (Nat.le_of_lt hik)]
  exact hall i hi

/-- What the client sends later does not matter. -/
theorem eachResolves_read_append (ps : List MqttPacket)
    (hread : ∀ m ∈ ms, m.seq ≤ read.length) :
    EachResolves (read ++ ps) ms ↔ EachResolves read ms := by
  refine forall_congr' (fun i => forall_congr' (fun hi => ?_))
  rw [List.take_append_of_le_length (hread _ (List.getElem_mem hi))]

/-! ## The connection follows the session -/

/-- What holds of a session, its journal and its connection. -/
structure ConnectionSound (c : Codec) (k : Journal × Connection) : Prop where
  consistent : k.1.Consistent c
  ledger : ∀ s, k.1.session = .running s → ∃ log, k.1.ledger.Sound exchangeId log
  /-- the client's stream is valid -/
  valid : ∀ m : Stamped MqttPacket, k.1.ledger.read[m.seq]? = some m.item →
    m.item.HasTopic (stated (k.1.ledger.read.take m.seq))
  since : ∃ before, k.1.ledger.read = before ++ k.2.since
  /-- an open connection carries what was held and what came since -/
  carried : ∀ s, k.1.session = .running s → s.broker.isSome = true →
    k.2.written.map Stamped.item = k.2.held ++ k.2.since
  written : ∀ m ∈ k.2.written, m.seq ≤ k.1.ledger.read.length

theorem Connection.after_since (j : Journal) (notes : List Noted)
    (hsince : ∃ before, read = before ++ h.since) :
    ∃ before, read ++ e.clientPacket.toList = before ++ (Connection.after j h e notes).since := by
  obtain ⟨before, rfl⟩ := hsince
  show ∃ _, _ = _ ++ ite _ _ _
  split
  · exact ⟨before ++ h.since ++ e.clientPacket.toList, (List.append_nil _).symm⟩
  · exact ⟨before, List.append_assoc _ _ _⟩

/-- The packet that is read next makes a valid stream longer. -/
theorem valid_append {p : Option MqttPacket}
    (hvalid : ∀ m : Stamped MqttPacket, read[m.seq]? = some m.item →
      m.item.HasTopic (stated (read.take m.seq)))
    (hp : ∀ p' ∈ p, p'.HasTopic (stated read)) (m : Stamped MqttPacket)
    (hm : (read ++ p.toList)[m.seq]? = some m.item) :
    m.item.HasTopic (stated ((read ++ p.toList).take m.seq)) := by
  rcases Nat.lt_or_ge m.seq read.length with hlt | hge
  · rw [List.getElem?_append_left hlt] at hm
    rw [List.take_append_of_le_length (Nat.le_of_lt hlt)]
    exact hvalid m hm
  · rw [List.getElem?_append_right hge] at hm
    cases p with
    | none => exact nomatch hm
    | some p =>
        obtain ⟨hlt, heq⟩ := List.getElem?_eq_some_iff.mp hm
        have hzero : m.seq - read.length = 0 := Nat.lt_one_iff.mp hlt
        have hseq : m.seq = read.length := Nat.le_antisymm (Nat.sub_eq_zero_iff_le.mp hzero) hge
        have hitem : p = m.item := by
          simpa [hzero] using heq
        rw [hseq, List.take_left, ← hitem]
        exact hp p rfl

/-- What holds of the packets that are resent holds of part of them. -/
theorem EachResolves.of_isPrefix {ms' : List (Stamped MqttPacket)} (hall : EachResolves read ms)
    (hpart : ms' <+: ms) : EachResolves read ms' := by
  rw [List.prefix_iff_eq_take.mp hpart]
  exact hall.take _

theorem Event.Quiet.statesAliases (quiet : e.Quiet) (k : Journal × Connection) :
    StatesAliases k e := by
  unfold StatesAliases
  split
  · exact quiet.elim
  · exact quiet.elim
  · trivial

namespace ConnectionSound

variable {k k' : Journal × Connection}

theorem resent (hk : ConnectionSound c k) (hs : k.1.session = .running s) :
    ∀ m ∈ k.1.ledger.resent, k.1.ledger.read[m.seq]? = some m.item := by
  obtain ⟨log, hlog⟩ := hk.ledger s hs
  intro m hm
  exact hlog.resent_read hm

/-- Each packet that is resent resolves if and only if its alias is stated ahead of it. -/
theorem resent_iff (hk : ConnectionSound c k) (hs : k.1.session = .running s) :
    EachResolves k.1.ledger.read k.1.ledger.resent ↔
      EachStated k.1.ledger.read k.1.ledger.resent := by
  refine eachResolves_iff (fun m hm => ?_)
  exact hk.valid m (hk.resent hs m hm)

/-- A packet that is sent live resolves if and only if its alias has been stated. -/
theorem live_iff (hk : ConnectionSound c k) (hs : k.1.session = .running s)
    (up : s.broker.isSome = true) {p : MqttPacket} (hp : p.HasTopic (stated k.1.ledger.read)) :
    p.Resolves (stated (k.2.written.map Stamped.item)) (stated k.1.ledger.read) ↔
      ∀ a ∈ p.uses, a ∈ (k.2.since.filterMap MqttPacket.states).map Prod.fst ∨
        stated k.2.held a = stated k.1.ledger.read a := by
  obtain ⟨before, hread⟩ := hk.since
  rw [hp.resolves_iff, hk.carried s hs up]
  refine forall_congr' (fun a => forall_congr' (fun _ => ?_))
  rw [hread]
  exact stated_since.symm

/-- What has been written resolves as before, and the newest packet after it. -/
theorem append_next (hk : ConnectionSound c k) {p : MqttPacket} :
    EachResolves (k.1.ledger.read ++ [p]) (k.2.written ++ [k.1.ledger.next p]) ↔
      EachResolves k.1.ledger.read k.2.written ∧
        p.Resolves (stated (k.2.written.map Stamped.item)) (stated k.1.ledger.read) := by
  rw [eachResolves_append_singleton, eachResolves_read_append [p] hk.written]
  show _ ∧ p.Resolves _ (stated ((k.1.ledger.read ++ [p]).take k.1.ledger.read.length)) ↔ _
  rw [List.take_left]

theorem step (hk : ConnectionSound c k) (huses : UsesStated k e)
    (hstep : (aliasMachine c).step k e = some (k', notes)) : ConnectionSound c k' := by
  have hcons := hk.consistent.step (Machine.record_step_eq_some.mp hstep).1
  obtain ⟨⟨session, l⟩, h⟩ := k
  obtain ⟨s, o, out, hsession, hs, rfl, rfl⟩ := recordedStep hstep
  obtain rfl : session = .running s := hsession
  have hm : Ledger.Matches c s l := hk.consistent s rfl
  have hread : (Ledger.after c s l e).read = l.read ++ e.clientPacket.toList :=
    Ledger.after_read c s l e
  refine ⟨hcons, ?_, ?_, ?_, ?_, ?_⟩
  · rintro s' rfl
    obtain ⟨log, hlog⟩ := hk.ledger s rfl
    exact ⟨_, (forwardLoop_running hs).sound hm hlog⟩
  · show ∀ m : Stamped MqttPacket, (Ledger.after c s l e).read[m.seq]? = some m.item → _
    rw [hread]
    exact valid_append hk.valid huses
  · show ∃ before, (Ledger.after c s l e).read = _
    rw [hread]
    exact Connection.after_since _ _ hk.since
  · rintro s' rfl up'
    have ht := forwardLoop_running hs
    show ((annotate c s l e out).foldl Noted.write h.written).map Stamped.item
      = (if e.opens then _ else h.held) ++ (if e.opens then [] else h.since ++ _)
    rw [written_running hm hs up']
    split
    · exact (List.append_nil _).symm
    · next hopen =>
        have up : s.broker.isSome = true := by
          by_contra hdown
          have hdown := (ht.outage (eq_false_of_ne_true hopen)
            (Option.not_isSome_iff_eq_none.mp hdown)).1
          exact nomatch hdown.symm.trans (Option.eq_some_of_isSome up')
        have hcarried : h.written.map Stamped.item = h.held ++ h.since := hk.carried s rfl up
        rw [List.map_append, hcarried, List.append_assoc]
        cases e.clientPacket <;> rfl
  · show ∀ m ∈ (annotate c s l e out).foldl Noted.write h.written,
      m.seq ≤ (Ledger.after c s l e).read.length
    rw [hread, List.length_append]
    have hold : ∀ m ∈ h.written, m.seq ≤ l.read.length := hk.written
    intro m hmem
    refine Nat.le_add_right_of_le ?_
    rcases written_annotate h.written hm hs with
      heq | ⟨a, -, hpart⟩ | ⟨now, p, after, pong, -, -, heq⟩
    · exact hold m (heq ▸ hmem)
    · have hread := hk.resent rfl m (hpart.subset hmem)
      exact Nat.le_of_lt (Resend.Ledger.seq_lt hread)
    · rw [heq] at hmem
      rcases List.mem_append.mp hmem with hmem | hmem
      · exact hold m hmem
      · rw [List.mem_singleton.mp hmem]
        exact Nat.le_refl _

theorem resolve_step (hk : ConnectionSound c k) (huses : UsesStated k e)
    (hstates : StatesAliases k e) (hP : PublishesResolve k)
    (hstep : (aliasMachine c).step k e = some (k', notes)) : PublishesResolve k' := by
  obtain ⟨⟨session, l⟩, h⟩ := k
  obtain ⟨s, o, out, hsession, hs, rfl, rfl⟩ := recordedStep hstep
  obtain rfl : session = .running s := hsession
  have hm : Ledger.Matches c s l := hk.consistent s rfl
  show EachResolves (Ledger.after c s l e).read ((annotate c s l e out).foldl Noted.write h.written)
  rw [Ledger.after_read]
  rcases written_annotate h.written hm hs with
    heq | ⟨a, rfl, hpart⟩ | ⟨now, p, after, pong, rfl, up, heq⟩
  · rw [heq]
    exact (eachResolves_read_append _ hk.written).mpr hP
  · show EachResolves (l.read ++ []) _
    rw [List.append_nil]
    exact ((hk.resent_iff rfl).mpr hstates).of_isPrefix hpart
  · rw [heq]
    refine hk.append_next.mpr ⟨hP, (hk.live_iff rfl up (huses p rfl)).mpr ?_⟩
    exact hstates up

/-- Between running sessions the condition is needed, too. -/
theorem states_step (hk : ConnectionSound c k) (huses : UsesStated k e)
    (hlive : k'.1.session = .running s') (hP : PublishesResolve k')
    (hstep : (aliasMachine c).step k e = some (k', notes)) : StatesAliases k e := by
  obtain ⟨⟨session, l⟩, h⟩ := k
  obtain ⟨s, o, out, hsession, hs, rfl, rfl⟩ := recordedStep hstep
  obtain rfl : session = .running s := hsession
  obtain rfl : o = .running s' := hlive
  have hm : Ledger.Matches c s l := hk.consistent s rfl
  replace hP : EachResolves (Ledger.after c s l e).read
    ((annotate c s l e out).foldl Noted.write h.written) := hP
  have hwritten := fun up' => written_running hm hs up' h.written
  rw [Ledger.after_read] at hP
  cases forwardLoop_running hs with
  | idle quiet same => exact quiet.statesAliases _
  | lost up quiet => exact quiet.statesAliases _
  | @forwarded now p after pong pongs up answered =>
      intro _
      rw [hwritten up] at hP
      exact (hk.live_iff rfl up (huses p rfl)).mp (hk.append_next.mp hP).2
  | @held now p after pong forward v down serviced =>
      cases forward with
      | ok => exact fun up => nomatch down.symm.trans (Option.eq_some_of_isSome up)
      | failed err => trivial
  | @replayed a raw down patched serves =>
      rw [hwritten rfl] at hP
      replace hP : EachResolves (l.read ++ []) l.resent := hP
      rw [List.append_nil] at hP
      exact (hk.resent_iff rfl).mp hP
  | _ => trivial

end ConnectionSound

/-! ## Runs -/

theorem connectionSound_initial (id : SessionId) (hs : Handshake) (client broker : Reader UInt8)
    (now : Nat) :
    ConnectionSound c (.initial (Session.initial id hs client broker now), ⟨[], [], []⟩) where
  consistent := (Journal.sound_initial id hs client broker now).consistent
  ledger _ _ := ⟨[], Resend.Ledger.sound_empty⟩
  valid _ hm := nomatch hm
  since := ⟨[], rfl⟩
  carried _ _ _ := rfl
  written _ hm := nomatch hm

/-- When the client uses only aliases that it has stated, every PUBLISH resolves on its
broker connection to the topic that it has for the client if all steps of the run meet
`StatesAliases`, and in a run that does not end the session only then. -/
theorem publishes_resolve {id : SessionId} {hs : Handshake} {client broker : Reader UInt8}
    {now : Nat} {es : List Event} {o : Outcome}
    (hrun : (sessionMachine c).run (.running (Session.initial id hs client broker now)) es
      = some (o, out))
    (huses : (aliasMachine c).Along UsesStated
      (.initial (Session.initial id hs client broker now), ⟨[], [], []⟩) es) :
    ((aliasMachine c).Along StatesAliases
        (.initial (Session.initial id hs client broker now), ⟨[], [], []⟩) es →
      (aliasMachine c).Always PublishesResolve
        (.initial (Session.initial id hs client broker now), ⟨[], [], []⟩) es) ∧
    (∀ s, o = .running s →
      (aliasMachine c).Always PublishesResolve
        (.initial (Session.initial id hs client broker now), ⟨[], [], []⟩) es →
      (aliasMachine c).Along StatesAliases
        (.initial (Session.initial id hs client broker now), ⟨[], [], []⟩) es) ∧
    ∃ k notes, (aliasMachine c).run
        (.initial (Session.initial id hs client broker now), ⟨[], [], []⟩) es = some (k, notes) ∧
      k.1.session = o ∧ notes.map Noted.out = out ∧
      k.1.ledger.read = es.filterMap Event.clientPacket ∧
      ∀ n ∈ notes, n.Traced c k.1.ledger.read := by
  have hinit := connectionSound_initial (c := c) id hs client broker now
  have hrecorded := recorded_of_run Connection.after ⟨[], [], []⟩ hrun
  refine ⟨?_, ?_, hrecorded⟩
  · intro hstates
    refine Machine.along_always (I := fun k => ConnectionSound c k ∧ PublishesResolve k) ?_
      (fun k hk => hk.2) ⟨hinit, eachResolves_nil⟩ (Machine.along_and huses hstates)
    rintro k e k' notes ⟨hk, hP⟩ ⟨huses, hstates⟩ hstep
    exact ⟨hk.step huses hstep, hk.resolve_step huses hstates hP hstep⟩
  · rintro s rfl halways
    obtain ⟨k, notes, hk, hsession, -⟩ := hrecorded
    refine Machine.along_of_always (I := ConnectionSound c) (L := fun k => ∃ s,
      k.1.session = .running s) ?_ ?_ ?_ hinit huses hk ⟨s, hsession⟩ halways
    · intro k e k' notes hk huses hstep
      exact hk.step huses hstep
    · intro k e k' notes hstep _
      obtain ⟨hj, -⟩ := Machine.record_step_eq_some.mp hstep
      obtain ⟨s, _, _, hs, -⟩ := journalStep_eq_some.mp hj
      exact ⟨s, hs⟩
    · rintro k e k' notes hk huses ⟨s', hlive⟩ hP hstep
      exact hk.states_step huses hlive hP hstep

namespace ReferenceCodec

/-- A PUBLISH with an alias. -/
def aliased (i : NonZeroU16) (topic : String) (a : NonZeroU16) : MqttPacket :=
  .v5 (.publish ⟨false, false, .atLeastOnce, topic, some i, [], some ⟨some a⟩, Publish.hasId_some i⟩)

/-- An alias is stated and used, also after the broker has been replaced. -/
def aliasHeld : List Event :=
  [forwarded (aliased one "t" one), forwarded (aliased two "" one), brokerCloses,
    .wait (some acceptingV5), forwarded (aliased two "" one)]

/-- The PUBLISH that states the alias is acknowledged before the broker is replaced. -/
def aliasAcknowledged : List Event :=
  [forwarded (aliased one "t" one), delivered (.v5 (.publishAck ⟨one, .success⟩)),
    forwarded (aliased two "" one), brokerCloses, .wait (some acceptingV5)]

example : (codec true).decodeAll .mqtt5 (encode (aliased one "" two)).toBytes
    = [aliased one "" two] := by
  decide

end ReferenceCodec

open ReferenceCodec in
theorem publishes_resolve_held : ∃ o out,
    (sessionMachine (codec true)).run (.running sessionV5) aliasHeld = some (o, out) ∧
    (aliasMachine (codec true)).Always PublishesResolve
      (.initial sessionV5, ⟨[], [], []⟩) aliasHeld ∧
    ∃ k notes, (aliasMachine (codec true)).run (.initial sessionV5, ⟨[], [], []⟩) aliasHeld
        = some (k, notes) ∧
      k.1.session = o ∧ notes.map Noted.out = out ∧
      k.1.ledger.read = aliasHeld.filterMap Event.clientPacket ∧
      ∀ n ∈ notes, n.Traced (codec true) k.1.ledger.read := by
  have hsome : ((sessionMachine (codec true)).run (.running sessionV5) aliasHeld).isSome
      = true := by decide +kernel
  obtain ⟨⟨o, out⟩, hrun⟩ := Option.isSome_iff_exists.mp hsome
  obtain ⟨hresolve, -, hrecorded⟩ := publishes_resolve hrun (by decide +kernel)
  exact ⟨o, out, hrun, hresolve (by decide +kernel), hrecorded⟩

open ReferenceCodec in
/-- The broker that the alias was stated to is gone, and so is the PUBLISH that stated it. -/
theorem alias_unstated : ∃ k notes,
    (aliasMachine (codec true)).run (.initial sessionV5, ⟨[], [], []⟩) aliasAcknowledged
      = some (k, notes) ∧
    (aliasMachine (codec true)).Along UsesStated
      (.initial sessionV5, ⟨[], [], []⟩) aliasAcknowledged ∧
    .toBroker (.raw (withDup (encode (aliased two "" one)))) ∈ notes.map Noted.out ∧
    ¬ PublishesResolve k := by
  have hview : ((aliasMachine (codec true)).run (.initial sessionV5, ⟨[], [], []⟩)
      aliasAcknowledged).map (fun r => (decide (PublishesResolve r.1),
        decide (.toBroker (.raw (withDup (encode (aliased two "" one)))) ∈ r.2.map Noted.out)))
        = some (false, true) := by
    decide +kernel
  obtain ⟨⟨k, notes⟩, hrun, hk⟩ := Option.map_eq_some_iff.mp hview
  obtain ⟨hresolve, hout⟩ := Prod.mk.inj hk
  exact ⟨k, notes, hrun, by decide +kernel, of_decide_eq_true hout, of_decide_eq_false hresolve⟩

end TrafficDirector
