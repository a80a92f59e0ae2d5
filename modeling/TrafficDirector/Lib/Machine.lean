/-
# `Lib.Machine` — deterministic machines with outputs, and their runs

A machine takes a state and an event to a next state and the outputs of that
step; `none` says the event cannot happen in that state.  All nondeterminism is
in the choice of events, so a run is a list of events and everything below is by
induction on that list:

* `run_induction`: what each step preserves, a run preserves;
* `run_along`: the same for runs whose steps all meet a condition;
* `along_iff`: a defect is avoided exactly by the runs whose steps all avoid it;
* `along_potential`: what the steps cost is paid from a potential and from what they bring;
* `always_iff`: a property holds all along exactly if all steps meet its condition
  (`always_iff_live`: in a run that ends alive);
* `run_sublist_gather`: what each step passes on, a run passes on in order;
* `run_outputs`: the same for a property of the state and all outputs so far;
* `run_simulated`: a machine whose steps are matched by runs of another has runs that are;
* `run_project`: a machine that carries extra (history) state and projects step
  by step onto another projects run by run; `record` adds such a state.
-/
import Mathlib.Data.List.Basic

/-- A deterministic machine with states `σ`, events `ε` and outputs `ω`. -/
structure Machine (σ ε ω : Type) where
  step : σ → ε → Option (σ × List ω)

namespace Machine

variable {σ ε ω τ ρ : Type} (M : Machine σ ε ω)

/-- The final state and all outputs, in order; `none` if some event was not enabled. -/
def run : σ → List ε → Option (σ × List ω)
  | s, [] => some (s, [])
  | s, e :: es =>
      match M.step s e with
      | none => none
      | some (s', o) =>
          match run s' es with
          | none => none
          | some (s'', o') => some (s'', o ++ o')

@[simp] theorem run_nil (s : σ) : M.run s [] = some (s, []) := rfl

variable {M}

theorem run_cons_eq_some {s t : σ} {e : ε} {es : List ε} {o : List ω} :
    M.run s (e :: es) = some (t, o) ↔
      ∃ s' o₁ o₂, M.step s e = some (s', o₁) ∧ M.run s' es = some (t, o₂) ∧
        o = o₁ ++ o₂ := by
  constructor
  · intro h
    simp only [run] at h
    split at h
    · exact absurd h (by simp)
    · next s' o₁ hs =>
        split at h
        · exact absurd h (by simp)
        · next t' o₂ hr =>
            simp only [Option.some.injEq, Prod.mk.injEq] at h
            obtain ⟨rfl, rfl⟩ := h
            exact ⟨s', o₁, o₂, hs, hr, rfl⟩
  · rintro ⟨s', o₁, o₂, hs, hr, rfl⟩
    simp only [run, hs, hr]

theorem run_append_eq_some {s t : σ} {es es' : List ε} {o : List ω} :
    M.run s (es ++ es') = some (t, o) ↔
      ∃ s' o₁ o₂, M.run s es = some (s', o₁) ∧ M.run s' es' = some (t, o₂) ∧
        o = o₁ ++ o₂ := by
  induction es generalizing s o with
  | nil =>
      constructor
      · intro h; exact ⟨s, [], o, rfl, h, rfl⟩
      · rintro ⟨s', o₁, o₂, h₁, h₂, rfl⟩
        simp only [run_nil, Option.some.injEq, Prod.mk.injEq] at h₁
        obtain ⟨rfl, rfl⟩ := h₁
        exact h₂
  | cons e es ih =>
      rw [List.cons_append, run_cons_eq_some]
      constructor
      · rintro ⟨s₁, o₁, o₂, hs, hr, rfl⟩
        obtain ⟨s₂, o₃, o₄, h₃, h₄, rfl⟩ := ih.mp hr
        exact ⟨s₂, o₁ ++ o₃, o₄, run_cons_eq_some.mpr ⟨s₁, o₁, o₃, hs, h₃, rfl⟩, h₄,
          (List.append_assoc ..).symm⟩
      · rintro ⟨s₂, o₁, o₄, h₁, h₄, rfl⟩
        obtain ⟨s₁, o₂, o₃, hs, h₃, rfl⟩ := run_cons_eq_some.mp h₁
        exact ⟨s₁, o₂, o₃ ++ o₄, hs, ih.mpr ⟨s₂, o₃, o₄, h₃, h₄, rfl⟩,
          List.append_assoc ..⟩

/-- Runs from `s` to `t`, whatever the outputs. -/
def Reaches (M : Machine σ ε ω) (s t : σ) : Prop := ∃ es o, M.run s es = some (t, o)

theorem Reaches.refl (s : σ) : M.Reaches s s := ⟨[], [], rfl⟩

theorem Reaches.step {s t u : σ} {e : ε} {o : List ω} (h : M.Reaches s t)
    (hs : M.step t e = some (u, o)) : M.Reaches s u := by
  obtain ⟨es, o', hr⟩ := h
  refine ⟨es ++ [e], o' ++ o, run_append_eq_some.mpr ⟨t, o', o, hr, ?_, rfl⟩⟩
  exact run_cons_eq_some.mpr ⟨u, o, [], hs, rfl, (List.append_nil o).symm⟩

/-! ## Induction along a run -/

/-- Every step of the run on `es` from `s` meets the condition `G`. -/
def Along (M : Machine σ ε ω) (G : σ → ε → Prop) : σ → List ε → Prop
  | _, [] => True
  | s, e :: es => G s e ∧ ∀ s' o, M.step s e = some (s', o) → Along M G s' es

/-- A condition that can be checked can be checked along a run. -/
instance Along.decidable {G : σ → ε → Prop} [∀ s e, Decidable (G s e)] :
    ∀ (es : List ε) (s : σ), Decidable (M.Along G s es)
  | [], _ => isTrue trivial
  | e :: es, s =>
      match h : M.step s e with
      | none => decidable_of_iff (G s e)
          ⟨fun hG => ⟨hG, fun _ _ hs => nomatch h.symm.trans hs⟩, fun hA => hA.1⟩
      | some (s', o) =>
          have := Along.decidable (G := G) es s'
          decidable_of_iff (G s e ∧ M.Along G s' es)
            ⟨fun hA => ⟨hA.1, fun _ _ hs =>
                (Prod.mk.inj (Option.some.inj (h.symm.trans hs))).1 ▸ hA.2⟩,
              fun hA => ⟨hA.1, hA.2 s' o h⟩⟩

/-- A step has one result, so what holds of all its results holds of that one. -/
theorem forall_step_iff {s s' : σ} {e : ε} {o : List ω} {P : σ → Prop}
    (hs : M.step s e = some (s', o)) :
    (∀ s'' o', M.step s e = some (s'', o') → P s'') ↔ P s' := by
  constructor
  · intro h
    exact h s' o hs
  · intro h s'' o' hs'
    obtain ⟨rfl, -⟩ := Prod.mk.inj (Option.some.inj (hs.symm.trans hs'))
    exact h

theorem along_cons {G : σ → ε → Prop} {s s' : σ} {e : ε} {es : List ε} {o : List ω}
    (hs : M.step s e = some (s', o)) : M.Along G s (e :: es) ↔ G s e ∧ M.Along G s' es :=
  and_congr_right (fun _ => forall_step_iff hs)

theorem run_along {G : σ → ε → Prop} {I : σ → Prop}
    (hstep : ∀ s e s' o, I s → G s e → M.step s e = some (s', o) → I s') :
    ∀ {es : List ε} {s t : σ} {o : List ω}, I s → M.Along G s es →
      M.run s es = some (t, o) → I t := by
  intro es
  induction es with
  | nil =>
      intro s t o hI _ hr
      simp only [run_nil, Option.some.injEq, Prod.mk.injEq] at hr
      exact hr.1 ▸ hI
  | cons e es ih =>
      intro s t o hI hG hr
      obtain ⟨s', o₁, o₂, hs, hr', _⟩ := run_cons_eq_some.mp hr
      exact ih (hstep s e s' o₁ hI hG.1 hs) (hG.2 s' o₁ hs) hr'

/-- A condition on events only is a condition on the events of the run. -/
theorem along_forall {G : ε → Prop} : ∀ {es : List ε} {s t : σ} {o : List ω},
    M.run s es = some (t, o) → (M.Along (fun _ e => G e) s es ↔ ∀ e ∈ es, G e) := by
  intro es
  induction es with
  | nil => exact fun _ => ⟨fun _ e he => (nomatch he), fun _ => trivial⟩
  | cons e es ih =>
      intro s t o hr
      obtain ⟨s', o₁, o₂, hs, hr', _⟩ := run_cons_eq_some.mp hr
      rw [List.forall_mem_cons, ← ih hr', along_cons hs]

/-- Along a run that keeps an invariant, a condition may be replaced by what follows
from it there. -/
theorem along_mono {G G' : σ → ε → Prop} {I : σ → Prop}
    (hstep : ∀ s e s' o, I s → G s e → M.step s e = some (s', o) → I s' ∧ G' s e) :
    ∀ {es : List ε} {s t : σ} {o : List ω}, I s → M.run s es = some (t, o) →
      M.Along G s es → M.Along G' s es := by
  intro es
  induction es with
  | nil => exact fun _ _ _ => trivial
  | cons e es ih =>
      intro s t o hI hr hG
      obtain ⟨s', o₁, o₂, hs, hr', _⟩ := run_cons_eq_some.mp hr
      rw [along_cons hs] at hG ⊢
      obtain ⟨hI', hG'⟩ := hstep s e s' o₁ hI hG.1 hs
      exact ⟨hG', ih hI' hr' hG.2⟩

theorem along_and {G G' : σ → ε → Prop} : ∀ {es : List ε} {s : σ}, M.Along G s es →
    M.Along G' s es → M.Along (fun s e => G s e ∧ G' s e) s es := by
  intro es
  induction es with
  | nil => exact fun _ _ => trivial
  | cons e es ih =>
      intro s h h'
      exact ⟨⟨h.1, h'.1⟩, fun s' o hs => ih (h.2 s' o hs) (h'.2 s' o hs)⟩

theorem along_true : ∀ (es : List ε) (s : σ), M.Along (fun _ _ => True) s es
  | [], _ => trivial
  | _ :: es, _ => ⟨trivial, fun s' _ _ => along_true es s'⟩

/-- What every step preserves, every run preserves. -/
theorem run_induction {I : σ → Prop}
    (hstep : ∀ s e s' o, I s → M.step s e = some (s', o) → I s')
    {es : List ε} {s t : σ} {o : List ω} (hI : I s) (hr : M.run s es = some (t, o)) : I t :=
  run_along (G := fun _ _ => True) (fun s e s' o h _ => hstep s e s' o h) hI
    (along_true es s) hr

theorem Reaches.induction {I : σ → Prop} {s t : σ}
    (hstep : ∀ s e s' o, I s → M.step s e = some (s', o) → I s')
    (hI : I s) (h : M.Reaches s t) : I t := by
  obtain ⟨es, o, hr⟩ := h
  exact run_induction hstep hI hr

/-- What every step preserves of the state and the outputs so far, a run preserves. -/
theorem run_outputs {I : σ → List ω → Prop}
    (hstep : ∀ s e s' o acc, I s acc → M.step s e = some (s', o) → I s' (acc ++ o)) :
    ∀ {es : List ε} {s t : σ} {o acc : List ω}, I s acc →
      M.run s es = some (t, o) → I t (acc ++ o) := by
  intro es
  induction es with
  | nil =>
      intro s t o acc hI hr
      simp only [run_nil, Option.some.injEq, Prod.mk.injEq] at hr
      obtain ⟨rfl, rfl⟩ := hr
      simpa using hI
  | cons e es ih =>
      intro s t o acc hI hr
      obtain ⟨s', o₁, o₂, hs, hr', rfl⟩ := run_cons_eq_some.mp hr
      rw [← List.append_assoc]
      exact ih (hstep s e s' o₁ acc hI hs) hr'

/-- A defect that exactly the steps against `G` bring in, and that no step takes out,
is absent at the end of a run exactly when it was absent and all steps met `G`. -/
theorem along_iff {G : σ → ε → Prop} {I P : σ → Prop}
    (hinv : ∀ s e s' o, I s → M.step s e = some (s', o) → I s')
    (hstep : ∀ s e s' o, I s → M.step s e = some (s', o) → (P s' ↔ P s ∨ ¬ G s e)) :
    ∀ {es : List ε} {s t : σ} {o : List ω}, I s → M.run s es = some (t, o) →
      (¬ P t ↔ ¬ P s ∧ M.Along G s es) := by
  intro es
  induction es with
  | nil =>
      intro s t o _ hr
      simp only [run_nil, Option.some.injEq, Prod.mk.injEq] at hr
      rw [hr.1]
      exact ⟨fun h => ⟨h, trivial⟩, fun h => h.1⟩
  | cons e es ih =>
      intro s t o hI hr
      obtain ⟨s', o₁, o₂, hs, hr', _⟩ := run_cons_eq_some.mp hr
      rw [ih (hinv s e s' o₁ hI hs) hr', hstep s e s' o₁ hI hs, not_or, not_not, and_assoc,
        along_cons hs]

/-- What the events of a run cost together. -/
def total (cost : ε → Nat) : List ε → Nat
  | [] => 0
  | e :: es => cost e + total cost es

theorem total_const (n : Nat) (es : List ε) : total (fun _ => n) es = n * es.length := by
  induction es with
  | nil => rfl
  | cons e es ih =>
      rw [total, ih, List.length_cons, Nat.mul_succ, Nat.add_comm]

theorem total_toNat (n : Nat) (p : ε → Bool) (es : List ε) :
    total (fun e => n * (p e).toNat) es = n * es.countP p := by
  induction es with
  | nil => rfl
  | cons e es ih =>
      rw [total, ih, List.countP_cons, Nat.mul_add, Nat.add_comm]
      cases p e <;> rfl

/-- If each step pays its cost from the potential `μ`, to which it may bring something, then
so does a run. -/
theorem along_potential {G : σ → ε → Prop} {I : σ → Prop} {μ : σ → Nat} {cost gain : ε → Nat}
    (hstep : ∀ s e s' o, I s → G s e → M.step s e = some (s', o) →
      I s' ∧ cost e + μ s' ≤ μ s + gain e) :
    ∀ {es : List ε} {s t : σ} {o : List ω}, I s → M.Along G s es → M.run s es = some (t, o) →
      total cost es + μ t ≤ μ s + total gain es := by
  intro es
  induction es with
  | nil =>
      intro s t o _ _ hr
      simp only [run_nil, Option.some.injEq, Prod.mk.injEq] at hr
      rw [hr.1]
      exact Nat.le_of_eq (Nat.add_comm _ _)
  | cons e es ih =>
      intro s t o hI hG hr
      obtain ⟨s', o₁, o₂, hs, hr', _⟩ := run_cons_eq_some.mp hr
      obtain ⟨hI', hpay⟩ := hstep s e s' o₁ hI hG.1 hs
      have hrest := ih hI' (hG.2 s' o₁ hs) hr'
      rw [total, total]
      omega

/-- If a step of one kind costs 1, and one of another kind brings `n` at most, a run has no
more of the first kind than the second kind and the start pay for. -/
theorem run_countP {p q : ε → Bool} {n : Nat} {μ : σ → Nat}
    (hstep : ∀ s e s' o, M.step s e = some (s', o) →
      (p e).toNat + μ s' ≤ μ s + n * (q e).toNat)
    {es : List ε} {s t : σ} {o : List ω} (hr : M.run s es = some (t, o)) :
    es.countP p + μ t ≤ μ s + n * es.countP q := by
  have hpaid : total (fun e => 1 * (p e).toNat) es + μ t
      ≤ μ s + total (fun e => n * (q e).toNat) es := by
    refine along_potential (G := fun _ _ => True) (I := fun _ => True) ?_ trivial
      (along_true es s) hr
    intro s e s' o _ _ hs
    rw [Nat.one_mul]
    exact ⟨trivial, hstep s e s' o hs⟩
  rw [total_toNat, total_toNat, Nat.one_mul] at hpaid
  exact hpaid

/-- If each step takes something from the variant `μ`, a run has no more steps than that. -/
theorem along_variant {G : σ → ε → Prop} {I : σ → Prop} {μ : σ → Nat}
    (hstep : ∀ s e s' o, I s → G s e → M.step s e = some (s', o) → I s' ∧ μ s' < μ s)
    {es : List ε} {s t : σ} {o : List ω} (hI : I s) (hG : M.Along G s es)
    (hr : M.run s es = some (t, o)) : es.length + μ t ≤ μ s := by
  have hpaid : total (fun _ => 1) es + μ t ≤ μ s + total (fun _ => 0) es := by
    refine along_potential ?_ hI hG hr
    intro s e s' o hI hG hs
    obtain ⟨hI', hlt⟩ := hstep s e s' o hI hG hs
    exact ⟨hI', Nat.add_comm 1 _ ▸ hlt⟩
  rw [total_const, total_const, Nat.one_mul, Nat.zero_mul] at hpaid
  exact hpaid

/-- If a step is left wherever `P` does not hold, some run comes to `P`. -/
theorem along_complete {G : σ → ε → Prop} {I P : σ → Prop} {μ : σ → Nat}
    (hstep : ∀ s e s' o, I s → G s e → M.step s e = some (s', o) → I s' ∧ μ s' < μ s)
    (hprogress : ∀ s, I s → ¬ P s → ∃ e s' o, G s e ∧ M.step s e = some (s', o))
    (s : σ) (hI : I s) : ∃ es t o, M.run s es = some (t, o) ∧ M.Along G s es ∧ P t := by
  by_cases hP : P s
  · exact ⟨[], s, [], rfl, trivial, hP⟩
  · obtain ⟨e, s', o, hG, hs⟩ := hprogress s hI hP
    obtain ⟨hI', hlt⟩ := hstep s e s' o hI hG hs
    obtain ⟨es, t, o', hr, hG', hP'⟩ := along_complete hstep hprogress s' hI'
    exact ⟨e :: es, t, o ++ o', run_cons_eq_some.mpr ⟨s', o, o', hs, hr, rfl⟩,
      (along_cons hs).mpr ⟨hG, hG'⟩, hP'⟩
termination_by μ s

/-- `P` holds in every state of the run on `es` from `s`. -/
def Always (M : Machine σ ε ω) (P : σ → Prop) : σ → List ε → Prop
  | s, [] => P s
  | s, e :: es => P s ∧ ∀ s' o, M.step s e = some (s', o) → Always M P s' es

theorem always_cons {P : σ → Prop} {s s' : σ} {e : ε} {es : List ε} {o : List ω}
    (hs : M.step s e = some (s', o)) : M.Always P s (e :: es) ↔ P s ∧ M.Always P s' es :=
  and_congr_right (fun _ => forall_step_iff hs)

/-- What every step that meets `G` preserves holds all along, and with it what follows. -/
theorem along_always {G : σ → ε → Prop} {I P : σ → Prop}
    (hstep : ∀ s e s' o, I s → G s e → M.step s e = some (s', o) → I s')
    (himp : ∀ s, I s → P s) :
    ∀ {es : List ε} {s : σ}, I s → M.Along G s es → M.Always P s es := by
  intro es
  induction es with
  | nil => exact fun hI _ => himp _ hI
  | cons e es ih =>
      intro s hI hG
      refine ⟨himp s hI, ?_⟩
      intro s' o hs
      exact ih (hstep s e s' o hI hG.1 hs) (hG.2 s' o hs)

/-- What holds of a step's start whenever it holds of its end holds of a run's start. -/
theorem run_back {L : σ → Prop} (hback : ∀ s e s' o, M.step s e = some (s', o) → L s' → L s) :
    ∀ {es : List ε} {s t : σ} {o : List ω}, M.run s es = some (t, o) → L t → L s := by
  intro es
  induction es with
  | nil =>
      intro s t o hr hL
      simp only [run_nil, Option.some.injEq, Prod.mk.injEq] at hr
      exact hr.1 ▸ hL
  | cons e es ih =>
      intro s t o hr hL
      obtain ⟨s', o₁, o₂, hs, hr', _⟩ := run_cons_eq_some.mp hr
      exact hback s e s' o₁ hs (ih hr' hL)

/-- If a step to a live state where `P` holds meets `G'`, then so do all steps of a run
that ends alive and has `P` all along. -/
theorem along_of_always {G G' : σ → ε → Prop} {I L P : σ → Prop}
    (hinv : ∀ s e s' o, I s → G s e → M.step s e = some (s', o) → I s')
    (hback : ∀ s e s' o, M.step s e = some (s', o) → L s' → L s)
    (hstep : ∀ s e s' o, I s → G s e → L s' → P s' → M.step s e = some (s', o) → G' s e) :
    ∀ {es : List ε} {s t : σ} {o : List ω}, I s → M.Along G s es → M.run s es = some (t, o) →
      L t → M.Always P s es → M.Along G' s es := by
  intro es
  induction es with
  | nil => exact fun _ _ _ _ _ => trivial
  | cons e es ih =>
      intro s t o hI hG hr hL hP
      obtain ⟨s', o₁, o₂, hs, hr', _⟩ := run_cons_eq_some.mp hr
      rw [along_cons hs] at hG ⊢
      have hP' := ((always_cons hs).mp hP).2
      have hnow : P s' := by
        cases es with
        | nil => exact hP'
        | cons _ _ => exact hP'.1
      exact ⟨hstep s e s' o₁ hI hG.1 (run_back hback hr' hL) hnow hs,
        ih (hinv s e s' o₁ hI hG.1 hs) hG.2 hr' hL hP'⟩

/-- If between live states a step keeps `P` exactly when it meets `G`, then `P` holds
all along a run that ends alive exactly when it holds at first and all steps meet `G`. -/
theorem always_iff {G : σ → ε → Prop} {I L P : σ → Prop}
    (hinv : ∀ s e s' o, I s → M.step s e = some (s', o) → I s')
    (hback : ∀ s e s' o, M.step s e = some (s', o) → L s' → L s)
    (hstep : ∀ s e s' o, I s → P s → L s' → M.step s e = some (s', o) → (P s' ↔ G s e)) :
    ∀ {es : List ε} {s t : σ} {o : List ω}, I s → M.run s es = some (t, o) → L t →
      (M.Always P s es ↔ P s ∧ M.Along G s es) := by
  intro es
  induction es with
  | nil => exact fun _ _ _ => ⟨fun h => ⟨h, trivial⟩, fun h => h.1⟩
  | cons e es ih =>
      intro s t o hI hr hL
      obtain ⟨s', o₁, o₂, hs, hr', _⟩ := run_cons_eq_some.mp hr
      have hlive := run_back hback hr' hL
      rw [always_cons hs, along_cons hs, ih (hinv s e s' o₁ hI hs) hr' hL]
      refine and_congr_right (fun hP => and_congr_left (fun _ => ?_))
      exact hstep s e s' o₁ hI hP hlive hs

/-- `always_iff` for machines whose live states show something, `live s v`: what is
asked of a step is asked of one that ends alive, with what its ends show. -/
theorem always_iff_live {υ : Type} {L : σ → υ → Prop} {J : σ → υ → Prop} {G : σ → ε → Prop}
    {P : σ → Prop}
    (hstep : ∀ s e s' o v', L s' v' → M.step s e = some (s', o) →
      ∃ v, L s v ∧ (J s v → J s' v' ∧ (P s → (P s' ↔ G s e))))
    {es : List ε} {s t : σ} {o : List ω} {v : υ} (hJ : ∀ v, L s v → J s v)
    (hr : M.run s es = some (t, o)) (hlive : L t v) :
    M.Always P s es ↔ P s ∧ M.Along G s es := by
  refine always_iff (I := fun s => ∀ v, L s v → J s v) (L := fun s => ∃ v, L s v)
    ?_ ?_ ?_ hJ hr ⟨v, hlive⟩
  · intro s e s' o hI hs v' hv'
    obtain ⟨v, hv, h⟩ := hstep s e s' o v' hv' hs
    exact (h (hI v hv)).1
  · rintro s e s' o hs ⟨v', hv'⟩
    obtain ⟨v, hv, -⟩ := hstep s e s' o v' hv' hs
    exact ⟨v, hv⟩
  · rintro s e s' o hI hP ⟨v', hv'⟩ hs
    obtain ⟨v, hv, h⟩ := hstep s e s' o v' hv' hs
    exact (h (hI v hv)).2 hP

/-! ## What a run meets -/

/-- What `f` finds in each state and event of a run, in order. -/
def gather {α : Type} (M : Machine σ ε ω) (f : σ → ε → List α) : σ → List ε → List α
  | _, [] => []
  | s, e :: es =>
      f s e ++
        match M.step s e with
        | none => []
        | some (s', _) => gather M f s' es

theorem gather_cons {α : Type} {f : σ → ε → List α} {s s' : σ} {e : ε} {es : List ε} {o : List ω}
    (hs : M.step s e = some (s', o)) : M.gather f s (e :: es) = f s e ++ M.gather f s' es := by
  simp only [gather, hs]

/-- If each step puts out, of what `g` selects, some of what it meets, so does a run. -/
theorem run_sublist_gather {α : Type} {I : σ → Prop} {f : σ → ε → List α} {g : ω → Option α}
    (hinv : ∀ s e s' o, I s → M.step s e = some (s', o) → I s')
    (hstep : ∀ s e s' o, I s → M.step s e = some (s', o) → (o.filterMap g).Sublist (f s e)) :
    ∀ {es : List ε} {s t : σ} {o : List ω}, I s → M.run s es = some (t, o) →
      (o.filterMap g).Sublist (M.gather f s es) := by
  intro es
  induction es with
  | nil =>
      intro s t o _ hr
      simp only [run_nil, Option.some.injEq, Prod.mk.injEq] at hr
      rw [← hr.2]
      exact .slnil
  | cons e es ih =>
      intro s t o hI hr
      obtain ⟨s', o₁, o₂, hs, hr', rfl⟩ := run_cons_eq_some.mp hr
      rw [List.filterMap_append, gather_cons hs]
      exact (hstep s e s' o₁ hI hs).append (ih (hinv s e s' o₁ hI hs) hr')

/-! ## Simulation -/

/-- If each step of `M` is matched by a run of `N`, each run of `M` is.  Some events of the
two have a label, and the labels are the same, in the same order. -/
theorem run_simulated {α δ : Type} {N : Machine τ δ ρ} {R : σ → τ → Prop} {f : ε → Option α}
    {g : δ → Option α}
    (hstep : ∀ s t e s' o, R s t → M.step s e = some (s', o) →
      ∃ ds t' o', N.run t ds = some (t', o') ∧ R s' t' ∧ ds.filterMap g = [e].filterMap f) :
    ∀ {es : List ε} {s s' : σ} {t : τ} {o : List ω}, R s t → M.run s es = some (s', o) →
      ∃ ds t' o', N.run t ds = some (t', o') ∧ R s' t' ∧ ds.filterMap g = es.filterMap f := by
  intro es
  induction es with
  | nil =>
      intro s s' t o hR hr
      cases hr
      exact ⟨[], t, [], rfl, hR, rfl⟩
  | cons e es ih =>
      intro s s' t o hR hr
      obtain ⟨s₁, o₁, o₂, hs, hr', -⟩ := run_cons_eq_some.mp hr
      obtain ⟨ds, t₁, o₃, hd, hR', hlabel⟩ := hstep s t e s₁ o₁ hR hs
      obtain ⟨ds', t', o₄, hd', hend, hlabels⟩ := ih hR' hr'
      refine ⟨ds ++ ds', t', o₃ ++ o₄, ?_, hend, ?_⟩
      · exact run_append_eq_some.mpr ⟨t₁, o₃, o₄, hd, hd', rfl⟩
      · rw [List.filterMap_append, hlabel, hlabels, ← List.filterMap_append]
        rfl

/-! ## Machines that carry history -/

/-- `N` refines `M` through `f` on states and `g` on outputs, on the states of an
invariant `I` of `N`: step by step, hence run by run. -/
theorem run_project {N : Machine τ ε ρ} {f : τ → σ} {g : ρ → ω} {I : τ → Prop}
    (hstep : ∀ t e, I t →
      M.step (f t) e = (N.step t e).map (fun r => (f r.1, r.2.map g)))
    (hinv : ∀ t e t' o, I t → N.step t e = some (t', o) → I t') :
    ∀ {es : List ε} {t : τ}, I t →
      M.run (f t) es = (N.run t es).map (fun r => (f r.1, r.2.map g)) := by
  intro es
  induction es with
  | nil => intro t _; rfl
  | cons e es ih =>
      intro t hI
      simp only [run, hstep t e hI]
      cases hs : N.step t e with
      | none => rfl
      | some r =>
          have h' := ih (hinv t e r.1 r.2 hI hs)
          simp only [Option.map_some, h']
          cases hr : N.run r.1 es with
          | none => rfl
          | some r' => simp

/-- The machine `M` beside a record of what it has done. -/
def record (M : Machine σ ε ω) (upd : σ → τ → ε → List ω → τ) : Machine (σ × τ) ε ω :=
  ⟨fun s e => (M.step s.1 e).map (fun r => ((r.1, upd s.1 s.2 e r.2), r.2))⟩

theorem record_step_eq_some {upd : σ → τ → ε → List ω → τ} {s s' : σ × τ} {e : ε} {o : List ω} :
    (M.record upd).step s e = some (s', o) ↔
      M.step s.1 e = some (s'.1, o) ∧ s'.2 = upd s.1 s.2 e o := by
  obtain ⟨s₁, s₂⟩ := s'
  simp only [record, Option.map_eq_some_iff, Prod.mk.injEq, Prod.exists]
  constructor
  · rintro ⟨s', o', hs, ⟨rfl, rfl⟩, rfl⟩
    exact ⟨hs, rfl⟩
  · rintro ⟨hs, rfl⟩
    exact ⟨s₁, o, hs, ⟨rfl, rfl⟩, rfl⟩

theorem run_record (upd : σ → τ → ε → List ω → τ) (es : List ε) (s : σ × τ) :
    M.run s.1 es = ((M.record upd).run s es).map (fun r => (r.1.1, r.2)) := by
  have hproject : ∀ es s, M.run s.1 es
      = ((M.record upd).run s es).map (fun r => (r.1.1, r.2.map id)) := by
    intro es s
    refine run_project (I := fun _ => True) ?_ (fun _ _ _ _ _ _ => trivial) trivial
    intro t e _
    simp [record, Function.comp_def]
  simpa using hproject es s

end Machine
