/-
# `Lib.Coupled` — two programs side by side

Two scripts, or two machines, that differ in what they carry and agree in what they do.

* `Coupled R E x y`: from states in `R` both scripts succeed or both fail, and end in
  states in `R`; the errors are in `E`.  One rule for each way to build a script.
* `run_coupled`: if the steps of two machines keep `R` and put out the same up to `f`
  and `g`, on events in `V`, then so do their runs.  `Together` is for what a step asks
  beyond that: a condition on both states and both events.
-/
import TrafficDirector.Lib.Machine
import TrafficDirector.Lib.Script

namespace Script

variable {ε δ σ τ α β : Type}

/-- Both have succeeded or both have failed, in related states. -/
inductive Matched (R : σ → τ → Prop) (E : ε → δ → Prop) :
    EStateM.Result ε σ Unit → EStateM.Result δ τ Unit → Prop
  | ok {r : σ} {r' : τ} (h : R r r') : Matched R E (.ok () r) (.ok () r')
  | error {e : ε} {d : δ} {r : σ} {r' : τ} (he : E e d) (h : R r r') :
      Matched R E (.error e r) (.error d r')

/-- From related states, the two scripts end alike. -/
def Coupled (R : σ → τ → Prop) (E : ε → δ → Prop) (x : EStateM ε σ Unit)
    (y : EStateM δ τ Unit) : Prop :=
  ∀ r r', R r r' → Matched R E (x r) (y r')

/-- The same for a script without a state. -/
inductive Agree (R : α → β → Prop) (E : ε → δ → Prop) : Except ε α → Except δ β → Prop
  | ok {a : α} {b : β} (h : R a b) : Agree R E (.ok a) (.ok b)
  | error {e : ε} {d : δ} (he : E e d) : Agree R E (.error e) (.error d)

variable {R : σ → τ → Prop} {E : ε → δ → Prop}

theorem Coupled.pure : Coupled R E (pure ()) (pure ()) :=
  fun _ _ h => .ok h

theorem Coupled.throw {e : ε} {d : δ} (he : E e d) : Coupled R E (throw e) (throw d) :=
  fun _ _ h => .error he h

theorem Coupled.modify {f : σ → σ} {g : τ → τ} (h : ∀ r r', R r r' → R (f r) (g r')) :
    Coupled R E (modify f) (modify g) :=
  fun r r' hr => .ok (h r r' hr)

/-- The change is on one side only. -/
theorem coupled_pure_modify {g : τ → τ} (h : ∀ r r', R r r' → R r (g r')) :
    Coupled R E (pure ()) (modify g) :=
  fun r r' hr => .ok (h r r' hr)

theorem Coupled.bind {x₁ x₂ : EStateM ε σ Unit} {y₁ y₂ : EStateM δ τ Unit}
    (h₁ : Coupled R E x₁ y₁) (h₂ : Coupled R E x₂ y₂) :
    Coupled R E (x₁ >>= fun _ => x₂) (y₁ >>= fun _ => y₂) := by
  intro r r' hr
  have h := h₁ r r' hr
  cases hx : x₁ r with
  | ok _ s =>
      cases hy : y₁ r' with
      | ok _ s' =>
          rw [hx, hy] at h
          cases h with
          | ok hs =>
              rw [bind_of_ok hx, bind_of_ok hy]
              exact h₂ s s' hs
      | error d s' => rw [hx, hy] at h; cases h
  | error e s =>
      cases hy : y₁ r' with
      | ok _ s' => rw [hx, hy] at h; cases h
      | error d s' =>
          rw [bind_of_error hx, bind_of_error hy]
          rw [hx, hy] at h
          cases h with
          | error he hs => exact .error he hs

theorem Coupled.get_bind {f : σ → EStateM ε σ Unit} {g : τ → EStateM δ τ Unit}
    (h : ∀ r r', R r r' → Coupled R E (f r) (g r')) : Coupled R E (get >>= f) (get >>= g) :=
  fun r r' hr => h r r' hr r r' hr

/-- Loops over lists that are related element by element. -/
theorem Coupled.forM {S : α → β → Prop} {f : α → EStateM ε σ Unit} {g : β → EStateM δ τ Unit}
    {l : List α} {l' : List β} (hl : List.Forall₂ S l l')
    (h : ∀ a b, S a b → Coupled R E (f a) (g b)) : Coupled R E (l.forM f) (l'.forM g) := by
  induction hl with
  | nil => exact Coupled.pure
  | cons hab _ ih => exact (h _ _ hab).bind ih

end Script

namespace Machine

variable {σ τ ε δ ω ρ κ : Type} {M : Machine σ ε ω} {N : Machine τ δ ρ}

/-- `E` holds of both states and both events at every step, as long as both runs go on. -/
def Together (M : Machine σ ε ω) (N : Machine τ δ ρ) (E : σ → τ → ε → δ → Prop) :
    σ → τ → List ε → List δ → Prop
  | s, t, e :: es, d :: ds =>
      E s t e d ∧ ∀ s' o t' o', M.step s e = some (s', o) → N.step t d = some (t', o') →
        Together M N E s' t' es ds
  | _, _, _, _ => True

theorem together_cons {E : σ → τ → ε → δ → Prop} {s s' : σ} {t t' : τ} {e : ε} {d : δ}
    {es : List ε} {ds : List δ} {o : List ω} {o' : List ρ} (hs : M.step s e = some (s', o))
    (ht : N.step t d = some (t', o')) :
    Together M N E s t (e :: es) (d :: ds) ↔ E s t e d ∧ Together M N E s' t' es ds := by
  refine and_congr_right (fun _ => ⟨fun h => h s' o t' o' hs ht, ?_⟩)
  intro h s'' o₁ t'' o₂ hs' ht'
  obtain ⟨rfl, -⟩ := Prod.mk.inj (Option.some.inj (hs.symm.trans hs'))
  obtain ⟨rfl, -⟩ := Prod.mk.inj (Option.some.inj (ht.symm.trans ht'))
  exact h

/-- Results in related states, with outputs that are the same up to `f` and `g`. -/
def Related (R : σ → τ → Prop) (f : ω → κ) (g : ρ → κ) :
    Option (σ × List ω) → Option (τ × List ρ) → Prop :=
  Option.Rel (fun r r' => R r.1 r'.1 ∧ r.2.map f = r'.2.map g)

theorem run_coupled {R : σ → τ → Prop} {V : ε → δ → Prop} {E : σ → τ → ε → δ → Prop}
    {f : ω → κ} {g : ρ → κ}
    (hstep : ∀ s t e d, R s t → V e d → E s t e d → Related R f g (M.step s e) (N.step t d))
    {es : List ε} {ds : List δ} (hV : List.Forall₂ V es ds) {s : σ} {t : τ} (hR : R s t)
    (hE : Together M N E s t es ds) : Related R f g (M.run s es) (N.run t ds) := by
  induction hV generalizing s t with
  | nil => exact .some ⟨hR, rfl⟩
  | @cons e d es ds hed _ ih =>
      have h := hstep s t e d hR hed hE.1
      rw [run, run]
      cases hs : M.step s e with
      | none =>
          cases ht : N.step t d with
          | none => exact .none
          | some b => rw [hs, ht] at h; cases h
      | some a =>
          cases ht : N.step t d with
          | none => rw [hs, ht] at h; cases h
          | some b =>
              rw [hs, ht] at h
              cases h with
              | some hab =>
                  have hrest := ih hab.1 (hE.2 a.1 a.2 b.1 b.2 hs ht)
                  simp only
                  cases hr : M.run a.1 es with
                  | none =>
                      cases hr' : N.run b.1 ds with
                      | none => exact .none
                      | some b' => rw [hr, hr'] at hrest; cases hrest
                  | some a' =>
                      cases hr' : N.run b.1 ds with
                      | none => rw [hr, hr'] at hrest; cases hrest
                      | some b' =>
                          rw [hr, hr'] at hrest
                          cases hrest with
                          | some hab' =>
                              exact .some ⟨hab'.1, by rw [List.map_append, List.map_append, hab.2, hab'.2]⟩

end Machine
