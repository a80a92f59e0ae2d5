/-
# `Lib.Since` — what a history says about the present

A history is a list of events, the latest last.  `Since starts keeps l` is the past
operator of temporal logic: some event of `l` starts, and all after it keep.  A state
that some events bring about and others undo holds now exactly if a starting event
came since the last undoing one; `since_concat` is the step of that argument.

`Arrived P l n` dates it: `P` was false after the first `n` events, and has held ever
since the next one.
-/
import Mathlib.Data.List.Induction
import Mathlib.Data.List.TakeDrop

variable {α : Type}

/-- An event of a longer history is the last one, or one of the shorter history. -/
theorem concat_eq_append_cons {l pre post : List α} {a b : α} :
    l ++ [a] = pre ++ b :: post ↔
      (pre = l ∧ b = a ∧ post = []) ∨ ∃ rest, post = rest ++ [a] ∧ l = pre ++ b :: rest := by
  constructor
  · intro h
    rcases List.eq_nil_or_concat post with rfl | ⟨rest, x, rfl⟩
    · obtain ⟨hpre, hab⟩ := List.append_inj' h rfl
      exact Or.inl ⟨hpre.symm, (List.singleton_inj.mp hab).symm, rfl⟩
    · rw [List.concat_eq_append, ← List.cons_append, ← List.append_assoc] at h
      obtain ⟨hl, hx⟩ := List.append_inj' h rfl
      obtain rfl := List.singleton_inj.mp hx
      exact Or.inr ⟨rest, List.concat_eq_append, hl⟩
  · rintro (⟨rfl, rfl, rfl⟩ | ⟨rest, rfl, rfl⟩)
    · rfl
    · rw [← List.cons_append, ← List.append_assoc]

/-- Some event of the history starts, and all later ones keep. -/
def Since (starts keeps : α → Prop) (l : List α) : Prop :=
  ∃ pre a post, l = pre ++ a :: post ∧ starts a ∧ ∀ b ∈ post, keeps b

section Since

variable {starts keeps : α → Prop} {l l' : List α} {a : α}

theorem not_since_nil : ¬ Since starts keeps [] := by
  rintro ⟨pre, a, post, h, -⟩
  exact List.append_ne_nil_of_right_ne_nil pre (List.cons_ne_nil a post) h.symm

theorem since_concat :
    Since starts keeps (l ++ [a]) ↔ starts a ∨ Since starts keeps l ∧ keeps a := by
  constructor
  · rintro ⟨pre, b, post, h, hb, hpost⟩
    rcases concat_eq_append_cons.mp h with ⟨-, rfl, -⟩ | ⟨rest, rfl, hl⟩
    · exact Or.inl hb
    · refine Or.inr ⟨⟨pre, b, rest, hl, hb, ?_⟩, ?_⟩
      · intro c hc
        exact hpost c (List.mem_append_left _ hc)
      · exact hpost a (List.mem_append_right _ List.mem_cons_self)
  · rintro (ha | ⟨⟨pre, b, post, rfl, hb, hpost⟩, ha⟩)
    · exact ⟨l, a, [], rfl, ha, fun _ h => absurd h List.not_mem_nil⟩
    · refine ⟨pre, b, post ++ [a], by simp, hb, ?_⟩
      intro c hc
      rcases List.mem_append.mp hc with hc | hc
      · exact hpost c hc
      · rw [List.mem_singleton.mp hc]
        exact ha

theorem since_or {starts' : α → Prop} :
    Since (fun a => starts a ∨ starts' a) keeps l ↔ Since starts keeps l ∨ Since starts' keeps l := by
  constructor
  · rintro ⟨pre, a, post, h, ha | ha, hpost⟩
    · exact Or.inl ⟨pre, a, post, h, ha, hpost⟩
    · exact Or.inr ⟨pre, a, post, h, ha, hpost⟩
  · rintro (⟨pre, a, post, h, ha, hpost⟩ | ⟨pre, a, post, h, ha, hpost⟩)
    · exact ⟨pre, a, post, h, Or.inl ha, hpost⟩
    · exact ⟨pre, a, post, h, Or.inr ha, hpost⟩

theorem since_append : Since starts keeps (l ++ l') ↔
    Since starts keeps l' ∨ Since starts keeps l ∧ ∀ b ∈ l', keeps b := by
  induction l' using List.reverseRecOn with
  | nil => simp [not_since_nil]
  | append_singleton l' a ih =>
      rw [← List.append_assoc, since_concat, ih, since_concat]
      simp only [List.mem_append, List.mem_singleton, or_imp, forall_and, forall_eq]
      constructor
      · rintro (h | ⟨h | ⟨h, h'⟩, ha⟩)
        · exact Or.inl (Or.inl h)
        · exact Or.inl (Or.inr ⟨h, ha⟩)
        · exact Or.inr ⟨h, h', ha⟩
      · rintro ((h | ⟨h, ha⟩) | ⟨h, h', ha⟩)
        · exact Or.inl h
        · exact Or.inr ⟨Or.inl h, ha⟩
        · exact Or.inr ⟨Or.inr ⟨h, h'⟩, ha⟩

theorem since_cons : Since starts keeps (a :: l) ↔
    Since starts keeps l ∨ starts a ∧ ∀ b ∈ l, keeps b := by
  rw [← List.singleton_append, since_append, ← List.nil_append [a], since_concat]
  simp [not_since_nil]

instance Since.decidable [DecidablePred starts] [DecidablePred keeps] :
    ∀ l : List α, Decidable (Since starts keeps l)
  | [] => .isFalse not_since_nil
  | _ :: l =>
      have := Since.decidable l
      decidable_of_iff _ since_cons.symm

end Since

/-! ## Dates -/

/-- `P` was false after `n` events, and has held from the next one on. -/
structure Arrived (P : List α → Prop) (l : List α) (n : Nat) : Prop where
  lt : n < l.length
  absent : ¬ P (l.take n)
  since : ∀ m, n < m → m ≤ l.length → P (l.take m)

namespace Arrived

variable {P : List α → Prop} {l : List α} {a : α} {n : Nat}

theorem concat (h : Arrived P l n) (hP : P (l ++ [a])) : Arrived P (l ++ [a]) n where
  lt := by
    rw [List.length_append]
    exact Nat.lt_add_right _ h.lt
  absent := by
    rw [List.take_append_of_le_length (Nat.le_of_lt h.lt)]
    exact h.absent
  since m hn hm := by
    rw [List.length_append, List.length_singleton] at hm
    rcases Nat.lt_or_eq_of_le hm with hm | rfl
    · rw [List.take_append_of_le_length (Nat.le_of_lt_succ hm)]
      exact h.since m hn (Nat.le_of_lt_succ hm)
    · rw [List.take_of_length_le (by simp)]
      exact hP

theorem now (hnot : ¬ P l) (hP : P (l ++ [a])) : Arrived P (l ++ [a]) l.length where
  lt := by simp
  absent := by
    rw [List.take_left']
    · exact hnot
    · rfl
  since m hn hm := by
    rw [List.take_of_length_le (by rw [List.length_append]; exact hn)]
    exact hP

end Arrived
