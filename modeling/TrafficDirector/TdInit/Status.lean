/-
# `TrafficDirector.TdInit.Status` — the status that the init process reports

The container's supervisor sees one exit status, the one of `td-init`.  It should tell
how the last generation ended; the loop takes down the normal exits of the direct child
only.  The program's first shed has the direct child exit with 0 while the generation
that took over lives on, and from then on nothing changes what will be reported.

`reports_iff` says which histories are reported right: those where what the direct child
last exited with happens to tell how the last descendant ended.  A history in which
`waitpid` has failed on a descendant, and the init has exited with 1, is not one of them.
-/
import TrafficDirector.Lib.Since
import TrafficDirector.TdInit

namespace TrafficDirector.TdInit

/-- A status is true of the way a process ended; a death by signal is not a success. -/
def Tells (status : Int) : WaitStatus → Prop
  | .exited code => status = code
  | .signaled | .realTime => status ≠ 0

def Event.reaped : Event → Option (Pid × WaitStatus)
  | .waitpid r => r
  | _ => none

/-- What `waitpid` has reaped, the latest last. -/
def reaped (es : List Event) : List (Pid × WaitStatus) := es.filterMap Event.reaped

/-- The init exits at ECHILD, no descendant is left then, and its status tells how the last
one that it has reaped ended. -/
structure Reports (s : Init) (es : List Event) (status : Int) : Prop where
  echild : ∃ pre, es = pre ++ [.waitpid none]
  running : s.running = []
  zombies : s.zombies = []
  tells : ∃ pre pid ended, reaped es = pre ++ [(pid, ended)] ∧ Tells status ended

/-- The last normal exit of the direct child was with `code`; without one, 0 stands in. -/
def ExitsWith (child : Pid) (rs : List (Pid × WaitStatus)) (code : Int) : Prop :=
  Since (fun r => r = (child, .exited code)) (fun r => ∀ c, r ≠ (child, .exited c)) rs ∨
    (code = 0 ∧ ∀ c, (child, .exited c) ∉ rs)

/-- The way a descendant ended agrees with the direct child: it is that child's own exit,
or the same code as its last one, or a signal where that code was a failure.  A death by a
real-time signal agrees with nothing: `waitpid` has failed. -/
def AgreesWith (child : Pid) (pre : List (Pid × WaitStatus)) (pid : Pid) : WaitStatus → Prop
  | .exited code => pid = child ∨ ExitsWith child pre code
  | .signaled => ∃ code, code ≠ 0 ∧ ExitsWith child pre code
  | .realTime => False

/-- The last descendant reaped ended in agreement with the direct child. -/
def Agrees (child : Pid) (rs : List (Pid × WaitStatus)) : Prop :=
  ∃ pre pid ended, rs = pre ++ [(pid, ended)] ∧ AgreesWith child pre pid ended

/-! ## The last exit of the direct child -/

section ExitsWith

variable {child pid : Pid} {rs : List (Pid × WaitStatus)} {r : Pid × WaitStatus} {code code' : Int}

theorem exitsWith_nil : ExitsWith child [] 0 :=
  Or.inr ⟨rfl, fun _ => List.not_mem_nil⟩

theorem exitsWith_concat_self : ExitsWith child (rs ++ [(child, .exited code)]) code :=
  Or.inl (since_concat.mpr (Or.inl rfl))

theorem exitsWith_concat_iff (hr : ∀ c, r ≠ (child, .exited c)) :
    ExitsWith child (rs ++ [r]) code ↔ ExitsWith child rs code := by
  refine or_congr ?_ (and_congr_right (fun _ => forall_congr' (fun c => ?_)))
  · rw [since_concat]
    constructor
    · rintro (h | ⟨h, -⟩)
      · exact absurd h (hr code)
      · exact h
    · intro h
      exact Or.inr ⟨h, hr⟩
  · rw [List.mem_append, List.mem_singleton, not_or]
    exact and_iff_left (fun h => hr c h.symm)

/-- There is only one such code. -/
theorem exitsWith_unique (h : ExitsWith child rs code) (h' : ExitsWith child rs code') :
    code = code' := by
  induction rs using List.reverseRecOn with
  | nil =>
      have hzero : ∀ {c}, ExitsWith child [] c → c = 0 := by
        rintro c (hc | ⟨hc, -⟩)
        · exact absurd hc not_since_nil
        · exact hc
      rw [hzero h, hzero h']
  | append_singleton rs r ih =>
      by_cases hr : ∃ c, r = (child, .exited c)
      · obtain ⟨c, rfl⟩ := hr
        -- this exit is the last one
        have hlast : ∀ {d}, ExitsWith child (rs ++ [(child, .exited c)]) d → d = c := by
          rintro d (hd | ⟨-, hd⟩)
          · rcases since_concat.mp hd with hd | ⟨-, hd⟩
            · cases hd
              rfl
            · exact absurd rfl (hd c)
          · exact absurd (List.mem_append_right _ List.mem_cons_self) (hd c)
        rw [hlast h, hlast h']
      · have hr : ∀ c, r ≠ (child, .exited c) := fun c hc => hr ⟨c, hc⟩
        exact ih ((exitsWith_concat_iff hr).mp h) ((exitsWith_concat_iff hr).mp h')

end ExitsWith

/-! ## What the loop keeps -/

/-- The loop has ended at ECHILD, and nobody is left. -/
structure Done (es : List Event) (s : Init) (status : Int) : Prop where
  echild : ∃ pre, es = pre ++ [.waitpid none]
  clean : ∀ pid, (pid, .realTime) ∉ reaped es
  running : s.running = []
  zombies : s.zombies = []
  last : status = s.lastStatus

/-- The loop has ended because `waitpid` has failed. -/
def Failed (es : List Event) (status : Int) : Prop :=
  ∃ pre pid, es = pre ++ [.waitpid (some (pid, .realTime))] ∧ status = 1

/-- `last_status` is the last exit of the direct child, and the loop has ended in one of
its two ways, if it has. -/
structure Sound (child : Pid) (es : List Event) (s : Init) : Prop where
  direct : s.child = child
  last : ExitsWith child (reaped es) s.lastStatus
  /-- the direct child is there until something has been reaped -/
  first : reaped es = [] → s.running ≠ [] ∨ s.zombies ≠ []
  going : (∀ status, s.loop ≠ .exited status) → ∀ pid, (pid, .realTime) ∉ reaped es
  done : ∀ status, s.loop = .exited status → Done es s status ∨ Failed es status

variable {child : Pid} {es : List Event} {s s' : Init} {e : Event} {o : List Signal} {status : Int}

theorem Sound.start : Sound child [] (.start child) where
  direct := rfl
  last := exitsWith_nil
  first _ := Or.inl (List.cons_ne_nil child [])
  going _ _ := List.not_mem_nil
  done status h := by cases h

theorem reaped_concat (es : List Event) (e : Event) : reaped (es ++ [e]) = reaped es ++ reaped [e] :=
  List.filterMap_append

theorem reaped_idle (he : reaped [e] = []) : reaped (es ++ [e]) = reaped es := by
  rw [reaped_concat, he, List.append_nil]

/-- A step that reaps nobody, changes nothing that counts and does not end the loop. -/
theorem Sound.idle (he : reaped [e] = []) (h : Sound child es s) (hchild : s'.child = s.child)
    (hlast : s'.lastStatus = s.lastStatus)
    (hleft : s.running ≠ [] ∨ s.zombies ≠ [] → s'.running ≠ [] ∨ s'.zombies ≠ [])
    (live : ∀ status, s.loop ≠ .exited status) (hloop : ∀ status, s'.loop ≠ .exited status) :
    Sound child (es ++ [e]) s' where
  direct := hchild.trans h.direct
  last := by
    rw [reaped_idle he, hlast]
    exact h.last
  first hnil := hleft (h.first ((reaped_idle he).symm.trans hnil))
  going _ := by
    rw [reaped_idle he]
    exact h.going live
  done status hdone := absurd hdone (hloop status)

theorem Sound.reap (h : Sound child es s) (loop : s.loop = .wait) (pid : Pid) (ended : WaitStatus) :
    Sound child (es ++ [.waitpid (some (pid, ended))]) (s.reap pid ended) := by
  have hreaped : reaped (es ++ [.waitpid (some (pid, ended))]) = reaped es ++ [(pid, ended)] :=
    reaped_concat _ _
  have hclean : ∀ pid, (pid, .realTime) ∉ reaped es :=
    h.going (fun status hexit => by cases loop.symm.trans hexit)
  refine ⟨h.direct, ?_, ?_, ?_, ?_⟩
  · rw [hreaped]
    cases ended with
    | signaled => exact (exitsWith_concat_iff (fun c hc => by cases hc)).mpr h.last
    | realTime => exact (exitsWith_concat_iff (fun c hc => by cases hc)).mpr h.last
    | exited code =>
        by_cases hpid : pid = s.child
        · obtain rfl : pid = child := hpid.trans h.direct
          have hlast : (s.reap pid (.exited code)).lastStatus = code := if_pos hpid
          rw [hlast]
          exact exitsWith_concat_self
        · have hlast : (s.reap pid (.exited code)).lastStatus = s.lastStatus := if_neg hpid
          rw [hlast, exitsWith_concat_iff]
          · exact h.last
          · intro c hc
            cases hc
            exact hpid h.direct.symm
  · intro hnil
    rw [hreaped] at hnil
    exact absurd hnil (List.append_ne_nil_of_right_ne_nil _ (List.cons_ne_nil _ []))
  · intro hgoing pid' hmem
    rw [hreaped] at hmem
    rcases List.mem_append.mp hmem with hmem | hmem
    · exact hclean pid' hmem
    · cases List.mem_singleton.mp hmem
      exact hgoing 1 rfl
  · intro status hexit
    cases ended with
    | exited code => cases hexit
    | signaled => cases hexit
    | realTime =>
        cases hexit
        exact Or.inr ⟨es, pid, rfl, rfl⟩

theorem Sound.waitpidEmpty (h : Sound child es s) (loop : s.loop = .wait)
    (hzombies : s.zombies = []) : Sound child (es ++ [.waitpid none]) s.waitpidEmpty := by
  have hreaped : reaped (es ++ [.waitpid none]) = reaped es := reaped_idle rfl
  have hclean : ∀ pid, (pid, .realTime) ∉ reaped es :=
    h.going (fun status hexit => by cases loop.symm.trans hexit)
  refine ⟨h.direct, hreaped.symm ▸ h.last, hreaped.symm ▸ h.first, ?_, ?_⟩
  · intro _
    rw [hreaped]
    exact hclean
  · intro status hexit
    have hexit : (if s.running = [] then .exited s.lastStatus else .blocked)
        = Loop.exited status := hexit
    split at hexit
    · next hrunning =>
        cases hexit
        exact Or.inl ⟨⟨es, rfl⟩, hreaped.symm ▸ hclean, hrunning, hzombies, rfl⟩
    · cases hexit

/-- A blocked loop is woken to a place of the loop. -/
theorem woken_ne_exited {awake : Loop} (hawake : ∀ status, awake ≠ .exited status)
    (hloop : ∀ status, s.loop ≠ .exited status) :
    (if s.loop = .blocked then awake else s.loop) ≠ .exited status := by
  split
  · exact hawake status
  · exact hloop status

theorem Sound.step (h : Sound child es s) (hs : s.step e = some (s', o)) :
    Sound child (es ++ [e]) s' := by
  cases steps_of_step hs with
  | signal live =>
      exact h.idle rfl rfl rfl id live
        (fun _ => woken_ne_exited (fun _ hawake => by cases hawake) live)
  | takes loop pending =>
      exact h.idle rfl rfl rfl id (fun _ hexit => by cases loop.symm.trans hexit)
        (fun _ hloop => by cases hloop)
  | finds loop pending =>
      exact h.idle rfl rfl rfl id (fun _ hexit => by cases loop.symm.trans hexit)
        (fun _ hloop => by cases hloop)
  | passes loop =>
      exact h.idle rfl rfl rfl id (fun _ hexit => by cases loop.symm.trans hexit)
        (fun _ hloop => by cases hloop)
  | reaps loop zombie => exact h.reap loop _ _
  | blocks loop zombies => exact h.waitpidEmpty loop zombies
  | exits live running =>
      refine h.idle rfl rfl rfl ?_ live
        (fun _ => woken_ne_exited (fun _ hawake => by cases hawake) live)
      intro _
      exact Or.inr (List.append_ne_nil_of_right_ne_nil _ (List.cons_ne_nil _ []))
  | adopts live running =>
      refine h.idle rfl rfl rfl ?_ live live
      intro _
      exact Or.inl (List.append_ne_nil_of_right_ne_nil _ (List.cons_ne_nil _ []))

theorem Sound.run {es' : List Event} (h : Sound child es s)
    (hrun : machine.run s es' = some (s', o)) : Sound child (es ++ es') s' := by
  induction es' generalizing es s o with
  | nil =>
      cases hrun
      rw [List.append_nil]
      exact h
  | cons e es' ih =>
      obtain ⟨t, o₁, o₂, hs, hrun, -⟩ := Machine.run_cons_eq_some.mp hrun
      have hnext := ih (h.step hs) hrun
      rw [List.append_assoc] at hnext
      exact hnext

/-! ## The status -/

/-- What `last_status` comes to after the last descendant tells how it ended exactly if
that agrees with the direct child. -/
theorem tells_iff {pre : List (Pid × WaitStatus)} {pid : Pid} {ended : WaitStatus}
    (hclean : ended ≠ .realTime) (hlast : ExitsWith child (pre ++ [(pid, ended)]) status) :
    Tells status ended ↔ Agrees child (pre ++ [(pid, ended)]) := by
  have hagrees : Agrees child (pre ++ [(pid, ended)]) ↔ AgreesWith child pre pid ended := by
    constructor
    · rintro ⟨pre', pid', ended', heq, h⟩
      obtain ⟨rfl, hpair⟩ := List.append_inj' heq rfl
      cases hpair
      exact h
    · intro h
      exact ⟨pre, pid, ended, rfl, h⟩
  rw [hagrees]
  cases ended with
  | realTime => exact absurd rfl hclean
  | exited code =>
      by_cases hpid : pid = child
      · subst hpid
        exact iff_of_true (exitsWith_unique hlast exitsWith_concat_self) (Or.inl rfl)
      · rw [exitsWith_concat_iff] at hlast
        · constructor
          · intro htells
            obtain rfl : status = code := htells
            exact Or.inr hlast
          · rintro (h | h)
            · exact absurd h hpid
            · exact exitsWith_unique hlast h
        · intro c hc
          cases hc
          exact hpid rfl
  | signaled =>
      rw [exitsWith_concat_iff (fun c hc => by cases hc)] at hlast
      constructor
      · intro hne
        exact ⟨status, hne, hlast⟩
      · rintro ⟨code, hne, h⟩
        rw [← exitsWith_unique hlast h] at hne
        exact hne

theorem reports_of_done (hsound : Sound child es s) (hdone : Done es s status) :
    Reports s es status ↔ Agrees child (reaped es) := by
  obtain ⟨hechild, hclean, hrunning, hzombies, rfl⟩ := hdone
  rcases List.eq_nil_or_concat (reaped es) with hnil | ⟨pre, ⟨pid, ended⟩, hlast⟩
  · rcases hsound.first hnil with hne | hne
    · exact absurd hrunning hne
    · exact absurd hzombies hne
  · rw [List.concat_eq_append] at hlast
    have hsignal : ended ≠ .realTime := by
      rintro rfl
      exact hclean pid (hlast ▸ List.mem_append_right pre List.mem_cons_self)
    have hiff := tells_iff hsignal (hlast ▸ hsound.last)
    rw [hlast]
    constructor
    · intro h
      obtain ⟨pre', pid', ended', heq, htells⟩ := h.tells
      cases (List.append_inj' (hlast.symm.trans heq) rfl).2
      exact hiff.mp htells
    · intro h
      exact ⟨hechild, hrunning, hzombies, pre, pid, ended, hlast, hiff.mpr h⟩

theorem not_reports_of_failed (hfailed : Failed es status) : ¬ Reports s es status := by
  obtain ⟨pre, pid, rfl, rfl⟩ := hfailed
  intro h
  obtain ⟨pre', heq⟩ := h.echild
  cases (List.append_inj' heq rfl).2

theorem not_agrees_of_failed (hfailed : Failed es status) : ¬ Agrees child (reaped es) := by
  obtain ⟨pre, pid, rfl, rfl⟩ := hfailed
  rintro ⟨pre', pid', ended, heq, h⟩
  rw [reaped_concat] at heq
  cases (List.append_inj' heq rfl).2
  exact h

/-- The init exits at ECHILD, when nobody is left, and what it reports is true of the last
generation, exactly if the direct child's last exit agrees with it. -/
theorem reports_iff (hrun : machine.run (.start child) es = some (s, o))
    (hexit : s.loop = .exited status) : Reports s es status ↔ Agrees child (reaped es) := by
  have hsound : Sound child es s := Sound.start.run hrun
  rcases hsound.done status hexit with hdone | hfailed
  · exact reports_of_done hsound hdone
  · exact iff_of_false (not_reports_of_failed hfailed) (not_agrees_of_failed hfailed)

/-- A shed: the program hands over to 8 and exits; 8 ends later, in the way given. -/
def shed (ended : WaitStatus) : List Event :=
  [.swap, .waitpid none, .adopts 8, .exits 7 (.exited 0), .waitpid (some (7, .exited 0)),
    .swap, .waitpid none, .exits 8 ended, .waitpid (some (8, ended)), .swap, .waitpid none]

theorem tells_of_reports_shed {ended : WaitStatus} (h : Reports s (shed ended) status) :
    Tells status ended := by
  obtain ⟨pre, pid, ended', hlast, htells⟩ := h.tells
  have hshed : [((7 : Pid), WaitStatus.exited 0)] ++ [(8, ended)] = pre ++ [(pid, ended')] := hlast
  cases (List.append_inj' hshed rfl).2
  exact htells

/-- The generation that took over exits with 101, or is killed; the supervisor sees a
success. -/
theorem td_init_hides_crash : ∃ s s' : Init,
    machine.run (.start 7) (shed (.exited 101)) = some (s, []) ∧ s.loop = .exited 0 ∧
      ¬ Reports s (shed (.exited 101)) 0 ∧
    machine.run (.start 7) (shed .signaled) = some (s', []) ∧ s'.loop = .exited 0 ∧
      ¬ Reports s' (shed .signaled) 0 := by
  refine ⟨_, _, rfl, rfl, ?_, rfl, rfl, ?_⟩
  · intro h
    cases tells_of_reports_shed h
  · intro h
    exact tells_of_reports_shed h rfl

/-- A clean exit of the generation that took over is reported. -/
theorem reports_iff_shed : ∃ s : Init,
    machine.run (.start 7) (shed (.exited 0)) = some (s, []) ∧ s.loop = .exited 0 ∧
      Reports s (shed (.exited 0)) 0 := by
  have hagrees : Agrees 7 (reaped (shed (.exited 0))) :=
    ⟨[(7, .exited 0)], 8, .exited 0, rfl, Or.inr (@exitsWith_concat_self 7 [] 0)⟩
  exact ⟨_, rfl, rfl, (reports_iff rfl rfl).mpr hagrees⟩

end TrafficDirector.TdInit
