/-
# `Lib.Script` — programs of writes that may fail

A script is a program in `EStateM`: it changes a state and stops at its first
error, keeping the state it had reached.  Two questions are asked of it.

* When does it succeed, and in which state?  `bind_eq_ok` and `forM_eq_ok` answer
  from its parts; the loop rule is for bodies that each use one unit of a budget.
* What has it logged, also when it failed half-way?  `Follows log x r plan`: all of
  `plan` on success, a prefix of `plan` on failure.
* What has it done to the state at all, also when it failed?  `Moves R x`: it stays
  within the reflexive and transitive relation `R`.
-/
import Mathlib.Data.List.Basic

namespace Script

variable {ε σ α β ω : Type}

theorem bind_eq_ok {x : EStateM ε σ α} {f : α → EStateM ε σ β} {r r'' : σ} {b : β} :
    (x >>= f) r = .ok b r'' ↔ ∃ a r', x r = .ok a r' ∧ f a r' = .ok b r'' := by
  cases h : x r with
  | ok a r' => simp [bind, EStateM.bind, h]
  | error e r' => simp [bind, EStateM.bind, h]

theorem bind_eq_error {x : EStateM ε σ α} {f : α → EStateM ε σ β} {r r'' : σ} {e : ε} :
    (x >>= f) r = .error e r'' ↔
      x r = .error e r'' ∨ ∃ a r', x r = .ok a r' ∧ f a r' = .error e r'' := by
  cases h : x r with
  | ok a r' => simp [bind, EStateM.bind, h]
  | error e r' => simp [bind, EStateM.bind, h]

theorem bind_of_ok {x : EStateM ε σ α} {f : α → EStateM ε σ β} {r r' : σ} {a : α}
    (h : x r = .ok a r') : (x >>= f) r = f a r' := by
  simp [bind, EStateM.bind, h]

theorem bind_of_error {x : EStateM ε σ α} {f : α → EStateM ε σ β} {r r' : σ} {e : ε}
    (h : x r = .error e r') : (x >>= f) r = .error e r' := by
  simp [bind, EStateM.bind, h]

theorem except_bind_eq_ok {x : Except ε α} {f : α → Except ε β} {b : β} :
    (x >>= f) = .ok b ↔ ∃ a, x = .ok a ∧ f a = .ok b := by
  cases x with
  | ok a => exact ⟨fun h => ⟨a, rfl, h⟩, fun ⟨_, ha, h⟩ => Except.ok.inj ha ▸ h⟩
  | error e => exact ⟨fun h => (nomatch h), fun ⟨_, ha, _⟩ => (nomatch ha)⟩

theorem get_bind (f : σ → EStateM ε σ β) (r : σ) :
    ((get : EStateM ε σ σ) >>= f) r = f r r := rfl

@[simp] theorem pure_eq_ok {a b : α} {r r' : σ} :
    (pure a : EStateM ε σ α) r = .ok b r' ↔ a = b ∧ r' = r := by
  simp [pure, EStateM.pure, eq_comm]

@[simp] theorem modify_eq_ok {f : σ → σ} {u : Unit} {r r' : σ} :
    (modify f : EStateM ε σ Unit) r = .ok u r' ↔ r' = f r := by
  constructor
  · intro h; exact (EStateM.Result.ok.inj h).2.symm
  · rintro rfl; rfl

@[simp] theorem throw_ne_ok {e : ε} {a : α} {r r' : σ} :
    (throw e : EStateM ε σ α) r ≠ .ok a r' := fun h => nomatch h

/-- A loop whose body runs iff the budget is not used up, and uses one unit of it. -/
theorem forM_eq_ok {f : α → EStateM ε σ Unit} (budget : σ → Nat) {upd : σ → α → σ}
    (hf : ∀ a r r', f a r = .ok () r' ↔ 0 < budget r ∧ r' = upd r a)
    (hb : ∀ r a, budget (upd r a) = budget r - 1) {l : List α} {r r' : σ} :
    l.forM f r = .ok () r' ↔ l.length ≤ budget r ∧ r' = l.foldl upd r := by
  induction l generalizing r with
  | nil =>
      rw [show ([] : List α).forM f = pure () from rfl]
      simp
  | cons a l ih =>
      rw [show (a :: l).forM f = f a >>= fun _ => l.forM f from rfl, bind_eq_ok]
      constructor
      · rintro ⟨_, r₁, h₁, h⟩
        obtain ⟨hpos, rfl⟩ := (hf a r r₁).mp h₁
        obtain ⟨hlen, rfl⟩ := ih.mp h
        rw [hb] at hlen
        exact ⟨by simp only [List.length_cons]; omega, rfl⟩
      · rintro ⟨hlen, rfl⟩
        simp only [List.length_cons] at hlen
        refine ⟨(), upd r a, (hf a r _).mpr ⟨by omega, rfl⟩, ih.mpr ⟨?_, rfl⟩⟩
        rw [hb]
        omega

/-! ## Logs -/

variable (log : σ → List ω)

/-- From `r` the script logs `plan`, or a prefix of it when it fails. -/
structure Follows (x : EStateM ε σ Unit) (r : σ) (plan : List ω) : Prop where
  ok : ∀ r', x r = .ok () r' → log r' = log r ++ plan
  error : ∀ e r', x r = .error e r' → log r' <+: log r ++ plan

variable {log}

theorem Follows.bind {x y : EStateM ε σ Unit} {r : σ} {p q : List ω}
    (hx : Follows log x r p) (hy : ∀ r', x r = .ok () r' → Follows log y r' q) :
    Follows log (x >>= fun _ => y) r (p ++ q) where
  ok r'' h := by
    obtain ⟨_, r', h₁, h₂⟩ := bind_eq_ok.mp h
    rw [(hy r' h₁).ok r'' h₂, hx.ok r' h₁, List.append_assoc]
  error e r'' h := by
    rcases bind_eq_error.mp h with h | ⟨_, r', h₁, h₂⟩
    · rw [← List.append_assoc]
      exact (hx.error e r'' h).trans (List.prefix_append _ _)
    · rw [← List.append_assoc, ← hx.ok r' h₁]
      exact (hy r' h₁).error e r'' h₂

theorem Follows.get_bind {f : σ → EStateM ε σ Unit} {r : σ} {p : List ω}
    (h : Follows log (f r) r p) : Follows log (get >>= f) r p :=
  ⟨fun r' h' => h.ok r' h', fun e r' h' => h.error e r' h'⟩

/-- A script that changes nothing but, maybe, parts of the state that are not the log. -/
theorem Follows.silent {x : EStateM ε σ Unit} {r : σ}
    (hok : ∀ r', x r = .ok () r' → log r' = log r)
    (herr : ∀ e r', x r = .error e r' → log r' = log r) : Follows log x r [] where
  ok r' h := by rw [hok r' h, List.append_nil]
  error e r' h := by rw [herr e r' h]; exact List.prefix_append _ _

theorem Follows.modify {f : σ → σ} {r : σ} (h : log (f r) = log r) :
    Follows log (modify f : EStateM ε σ Unit) r [] :=
  .silent (fun _ h' => modify_eq_ok.mp h' ▸ h) (fun _ _ h' => nomatch h')

theorem Follows.bind_silent {x y : EStateM ε σ Unit} {r : σ} {q : List ω}
    (hx : Follows log x r []) (hy : ∀ r', x r = .ok () r' → Follows log y r' q) :
    Follows log (x >>= fun _ => y) r q :=
  hx.bind hy

theorem Follows.forM {f : α → EStateM ε σ Unit} {g : α → ω}
    (hf : ∀ a r, Follows log (f a) r [g a]) (l : List α) (r : σ) :
    Follows log (l.forM f) r (l.map g) := by
  induction l generalizing r with
  | nil => exact Follows.silent (fun r' h => by rw [(pure_eq_ok.mp h).2]) (fun e r' h => nomatch h)
  | cons a l ih => exact (hf a r).bind (fun r' _ => ih r')

/-! ## Frames -/

/-- Wherever the script ends, with success or not, it is in relation `R` to where it
started. -/
structure Moves (R : σ → σ → Prop) (x : EStateM ε σ α) : Prop where
  ok : ∀ r a r', x r = .ok a r' → R r r'
  error : ∀ r e r', x r = .error e r' → R r r'

variable {R : σ → σ → Prop}

theorem Moves.pure (hrefl : ∀ r, R r r) (a : α) : Moves R (pure a : EStateM ε σ α) where
  ok r _ _ h := (pure_eq_ok.mp h).2 ▸ hrefl r
  error _ _ _ h := nomatch h

theorem Moves.throw (hrefl : ∀ r, R r r) (e : ε) : Moves R (throw e : EStateM ε σ α) where
  ok _ _ _ h := nomatch h
  error r _ _ h := (EStateM.Result.error.inj h).2 ▸ hrefl r

theorem Moves.modify {f : σ → σ} (h : ∀ r, R r (f r)) :
    Moves R (modify f : EStateM ε σ Unit) where
  ok r _ _ h' := modify_eq_ok.mp h' ▸ h r
  error _ _ _ h' := nomatch h'

theorem Moves.bind (htrans : ∀ r r' r'', R r r' → R r' r'' → R r r'')
    {x : EStateM ε σ α} {f : α → EStateM ε σ β} (hx : Moves R x) (hf : ∀ a, Moves R (f a)) :
    Moves R (x >>= f) where
  ok r b r'' h := by
    obtain ⟨a, r', h₁, h₂⟩ := bind_eq_ok.mp h
    exact htrans _ _ _ (hx.ok r a r' h₁) ((hf a).ok r' b r'' h₂)
  error r e r'' h := by
    rcases bind_eq_error.mp h with h | ⟨a, r', h₁, h₂⟩
    · exact hx.error r e r'' h
    · exact htrans _ _ _ (hx.ok r a r' h₁) ((hf a).error r' e r'' h₂)

theorem Moves.get_bind {f : σ → EStateM ε σ α} (hf : ∀ r, Moves R (f r)) :
    Moves R (get >>= f) where
  ok r a r' h := (hf r).ok r a r' h
  error r e r' h := (hf r).error r e r' h

theorem Moves.forM (hrefl : ∀ r, R r r) (htrans : ∀ r r' r'', R r r' → R r' r'' → R r r'')
    {f : α → EStateM ε σ Unit} (hf : ∀ a, Moves R (f a)) (l : List α) :
    Moves R (l.forM f) := by
  induction l with
  | nil => exact Moves.pure hrefl ()
  | cons a l ih => exact (hf a).bind htrans (fun _ => ih)

end Script
