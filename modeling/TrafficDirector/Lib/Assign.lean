/-
# `Lib.Assign` — tables written by lists of assignments

A table gives some keys a value; an assignment gives one key a value, or takes it
out.  What a list of assignments leaves under a key is what its last one for that
key says, whatever was there before.

A copy of a table is refreshed by stating the table's entries again and then
repeating the latest assignments.  `refresh_eq_iff` says when that makes the copy
the table: when each key that the copy has and the table has not is one of the
repeated assignments'.  `clear_eq_iff` says the same of a copy that is cleared first.
-/
import Mathlib.Logic.Function.Basic
import TrafficDirector.Lib.OrdMap

namespace Assign

open OrdMap

variable {κ ν : Type} [DecidableEq κ]

/-- The table after the assignments, in order. -/
def run (m : κ → Option ν) (as : List (κ × Option ν)) : κ → Option ν :=
  as.foldl (fun m a => Function.update m a.1 a.2) m

variable {m m' : κ → Option ν} {as : List (κ × Option ν)} {k : κ}

@[simp] theorem run_nil : run m [] = m := rfl

@[simp] theorem run_cons (a : κ × Option ν) :
    run m (a :: as) = run (Function.update m a.1 a.2) as := rfl

theorem run_append (as' : List (κ × Option ν)) : run m (as ++ as') = run (run m as) as' :=
  List.foldl_append

theorem run_of_not_mem (h : k ∉ as.map Prod.fst) : run m as k = m k := by
  induction as generalizing m with
  | nil => rfl
  | cons a as ih =>
      rw [List.map_cons, List.mem_cons, not_or] at h
      rw [run_cons, ih h.2, Function.update_of_ne h.1]

/-- Under a key that is assigned, nothing of the old table is left. -/
theorem run_of_mem (h : k ∈ as.map Prod.fst) (m m' : κ → Option ν) : run m as k = run m' as k := by
  induction as generalizing m m' with
  | nil => exact nomatch h
  | cons a as ih =>
      rw [run_cons, run_cons]
      by_cases hk : k ∈ as.map Prod.fst
      · exact ih hk _ _
      · rw [run_of_not_mem hk, run_of_not_mem hk]
        obtain rfl := (List.mem_cons.mp h).resolve_right hk
        rw [Function.update_self, Function.update_self]

theorem run_eq_lastFor : run m as k = (lastFor k as).getD (m k) := by
  induction as generalizing m with
  | nil => rfl
  | cons a as ih =>
      rw [run_cons, ih, lastFor]
      cases lastFor k as with
      | some v => rfl
      | none =>
          by_cases hk : a.1 = k
          · simp [hk]
          · simp [hk, Function.update_of_ne (Ne.symm hk)]

/-- What has a value has it from an assignment or from the old table. -/
theorem run_isSome (h : (run m as k).isSome = true) :
    (∃ a ∈ as, a.1 = k ∧ a.2.isSome = true) ∨ (m k).isSome = true := by
  induction as generalizing m with
  | nil => exact .inr h
  | cons a as ih =>
      rw [run_cons] at h
      rcases ih h with ⟨b, hb, hkey⟩ | hm
      · exact .inl ⟨b, List.mem_cons_of_mem _ hb, hkey⟩
      · by_cases hk : k = a.1
        · rw [hk, Function.update_self] at hm
          exact .inl ⟨a, List.mem_cons_self, hk.symm, hm⟩
        · rw [Function.update_of_ne hk] at hm
          exact .inr hm

/-- The assignments that state these entries. -/
def restate (l : List (κ × ν)) : List (κ × Option ν) := l.map (fun e => (e.1, some e.2))

theorem run_restate {l : List (κ × ν)} (hnd : (l.map Prod.fst).Nodup) :
    run m (restate l) k = (Entries.lookup k l).or (m k) := by
  induction l generalizing m with
  | nil => rfl
  | cons e l ih =>
      obtain ⟨hnot, hnd⟩ := List.nodup_cons.mp hnd
      rw [restate, List.map_cons, run_cons]
      refine (ih hnd).trans ?_
      rw [Entries.lookup]
      by_cases hk : e.1 = k
      · subst hk
        rw [if_pos rfl, Entries.lookup_eq_none.mpr hnot, Function.update_self]
        rfl
      · rw [if_neg hk, Function.update_of_ne (Ne.symm hk)]

/-- Refreshing the copy `b` of the table with these entries, by the entries and then
the latest assignments `q`, makes it the table exactly if `b` has no other keys but
those of `q`. -/
theorem refresh_eq_iff {l : List (κ × ν)} {t₀ b : κ → Option ν} {q : List (κ × Option ν)}
    (hnd : (l.map Prod.fst).Nodup) (hq : (fun k => Entries.lookup k l) = run t₀ q) :
    run b (restate l ++ q) = (fun k => Entries.lookup k l) ↔
      ∀ k, (b k).isSome = true → (Entries.lookup k l).isSome = true ∨ k ∈ q.map Prod.fst := by
  rw [funext_iff, run_append]
  refine forall_congr' (fun k => ?_)
  by_cases hk : k ∈ q.map Prod.fst
  · refine iff_of_true ?_ (fun _ => Or.inr hk)
    rw [run_of_mem hk _ t₀, ← hq]
  · rw [run_of_not_mem hk, run_restate hnd, or_iff_left hk]
    cases Entries.lookup k l with
    | some v => exact iff_of_true rfl (fun _ => rfl)
    | none =>
        cases b k with
        | none => exact iff_of_true rfl (fun h => h)
        | some v => exact iff_of_false (fun h => nomatch h) (fun h => nomatch h rfl)

/-- The assignments that take these keys out. -/
def clear (ks : List κ) : List (κ × Option ν) := ks.map (fun k => (k, none))

theorem run_clear (ks : List κ) (m : κ → Option ν) (k : κ) :
    run m (clear ks) k = if k ∈ ks then none else m k := by
  induction ks generalizing m with
  | nil => rfl
  | cons k' ks ih =>
      rw [clear, List.map_cons, run_cons]
      refine (ih _).trans ?_
      by_cases hk : k ∈ ks
      · rw [if_pos hk, if_pos (List.mem_cons_of_mem _ hk)]
      · rw [if_neg hk]
        by_cases he : k = k'
        · rw [he, if_pos List.mem_cons_self, Function.update_self]
        · rw [Function.update_of_ne he, if_neg (by simp [he, hk])]

/-- Clearing the copy `b` on the keys `ks`, which are all that the table `t` has, and
then repeating the latest assignments `q`, makes it the table exactly if, outside `q`,
the table has nothing and `b` has nothing outside `ks`. -/
theorem clear_eq_iff {ks : List κ} {t t₀ b : κ → Option ν} {q : List (κ × Option ν)}
    (hks : ∀ k, (t k).isSome = true → k ∈ ks) (ht : t = run t₀ q) :
    run b (clear ks ++ q) = t ↔
      ∀ k ∉ q.map Prod.fst, t k = none ∧ ((b k).isSome = true → k ∈ ks) := by
  rw [funext_iff, run_append]
  refine forall_congr' (fun k => ?_)
  by_cases hk : k ∈ q.map Prod.fst
  · refine iff_of_true ?_ (fun h => absurd hk h)
    rw [run_of_mem hk _ t₀, ← ht]
  · rw [run_of_not_mem hk, run_clear, forall_prop_of_true hk]
    split
    · next hin => exact ⟨fun h => ⟨h.symm, fun _ => hin⟩, fun h => h.1.symm⟩
    · next hout =>
        have hnone : t k = none := Option.not_isSome_iff_eq_none.mp (fun h => hout (hks k h))
        rw [hnone]
        cases b k with
        | none => exact iff_of_true rfl ⟨rfl, fun h => nomatch h⟩
        | some v => exact iff_of_false (fun h => nomatch h) (fun h => hout (h.2 rfl))

/-- Assignments to the same keys, those of `bs` with a value only where those of `as`
have one. -/
theorem run_isSome_mono {μ : Type} {bs : List (κ × Option μ)}
    (h : List.Forall₂ (fun a b => a.1 = b.1 ∧ (b.2.isSome = true → a.2.isSome = true)) as bs)
    {n : κ → Option μ} (hn : ∀ k, (n k).isSome = true → (m k).isSome = true) :
    ∀ k, (run n bs k).isSome = true → (run m as k).isSome = true := by
  induction h generalizing m n with
  | nil => exact hn
  | @cons a b as bs hab _ ih =>
      obtain ⟨hkey, hsome⟩ := hab
      rw [run_cons, run_cons]
      refine ih ?_
      intro k
      by_cases hk : k = a.1
      · rw [hk, Function.update_self, hkey, Function.update_self]
        exact hsome
      · rw [Function.update_of_ne hk, Function.update_of_ne (hkey ▸ hk)]
        exact hn k

end Assign
