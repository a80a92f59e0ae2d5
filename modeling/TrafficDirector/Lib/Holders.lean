/-
# `Lib.Holders` — who holds what

Each of the holders in a list holds some tokens, of which there should be one each.  A step
of one holder, or a transfer between two, changes the number of holders of a token by what
the step changes at those holders (`held_set`); so that nothing is held twice is kept by
every step that gives no more than it takes.
-/
import Mathlib.Data.List.Count
import Mathlib.Data.List.Nodup

namespace Holders

variable {α β : Type} [DecidableEq β] {f : α → List β} {l : List α} {a x : α} {b : β} {i : Nat}

/-- How often a token is held. -/
def held (f : α → List β) (l : List α) (b : β) : Nat := (l.flatMap f).count b

/-- Nothing is held twice. -/
def Exclusive (f : α → List β) (l : List α) : Prop := ∀ b, held f l b ≤ 1

theorem held_cons (a : α) (l : List α) : held f (a :: l) b = (f a).count b + held f l b := by
  rw [held, List.flatMap_cons, List.count_append, held]

theorem held_append (l l' : List α) : held f (l ++ l') b = held f l b + held f l' b := by
  rw [held, List.flatMap_append, List.count_append, held, held]

/-- What one holder gives up and takes is what changes. -/
theorem held_set (h : l[i]? = some a) :
    held f (l.set i x) b + (f a).count b = held f l b + (f x).count b := by
  induction l generalizing i with
  | nil => cases h
  | cons y l ih =>
      cases i with
      | zero =>
          cases h
          rw [List.set_cons_zero, held_cons, held_cons]
          omega
      | succ i =>
          have hrest := ih (i := i) h
          rw [List.set_cons_succ, held_cons, held_cons]
          omega

theorem Exclusive.nodup (h : Exclusive f l) : (l.flatMap f).Nodup :=
  List.nodup_iff_count_le_one.mpr h

end Holders
