/-
# `Lib.Scanner` — scanners made of scanners

A scanner says what stands at the head of a stream (`Framing.Scan`), and a format is a
scanner put together from smaller ones.  `Extends p q` says that what `p` has decided of
the beginning of a stream, `q` decides of all of it; there is one rule for each way to
put scanners together.  Two scanners that differ in the bound on their loops only extend
one another as the bounds grow.

A scanner that has found an item with nothing after it, has not found one, nor an error,
in any beginning of that item (`Extends.incomplete`).
-/
import TrafficDirector.Lib.Framing

namespace Framing

abbrev Scanner (β φ : Type) := List β → Scan β φ

section Scanner

variable {β φ ψ σ : Type}

def Scan.bind (s : Scan β φ) (f : φ → Scanner β ψ) : Scan β ψ :=
  match s with
  | .more => .more
  | .bad => .bad
  | .item x r => f x r

namespace Scanner

/-- An item without symbols. -/
def yield (x : φ) : Scanner β φ := fun b => .item x b

def fail : Scanner β φ := fun _ => .bad

/-- The next symbol. -/
def next : Scanner β β
  | [] => .more
  | x :: r => .item x r

/-- `p`, then what `f` makes of its item. -/
def andThen (p : Scanner β φ) (f : φ → Scanner β ψ) : Scanner β ψ := fun b => (p b).bind f

def map (f : φ → ψ) (p : Scanner β φ) : Scanner β ψ := p.andThen (fun x => yield (f x))

/-- What an optional item is; none is an error. -/
def ofOption : Option φ → Scanner β φ
  | some x => yield x
  | none => fail

/-- `p`, with one more symbol before the stream. -/
def unread (x : β) (p : Scanner β φ) : Scanner β φ := fun b => p (x :: b)

/-- `body` again and again, until it yields a result. -/
def loop (body : σ → Scanner β (σ ⊕ φ)) : Nat → σ → Scanner β φ
  | 0, _ => fun _ => .more
  | n + 1, s => (body s).andThen (fun
      | .inl s => loop body n s
      | .inr x => yield x)

theorem andThen_item {p : Scanner β φ} {f : φ → Scanner β ψ} {b r : List β} {x : φ}
    (h : p b = .item x r) : p.andThen f b = f x r := by
  rw [andThen, h]
  rfl

theorem map_item {p : Scanner β φ} {f : φ → ψ} {b r : List β} {x : φ} (h : p b = .item x r) :
    p.map f b = .item (f x) r :=
  andThen_item h

theorem loop_next {body : σ → Scanner β (σ ⊕ φ)} {n : Nat} {s s' : σ} {b r : List β}
    (h : body s b = .item (.inl s') r) : loop body (n + 1) s b = loop body n s' r :=
  andThen_item h

theorem loop_done {body : σ → Scanner β (σ ⊕ φ)} {n : Nat} {s : σ} {x : φ} {b r : List β}
    (h : body s b = .item (.inr x) r) : loop body (n + 1) s b = .item x r :=
  andThen_item h

end Scanner

open Scanner

/-- What `p` finds in a stream, `q` finds in each longer one. -/
structure Extends (p q : Scanner β φ) : Prop where
  bad : ∀ {b : List β} (c : List β), p b = .bad → q (b ++ c) = .bad
  item : ∀ {b : List β} {x : φ} {r : List β} (c : List β),
    p b = .item x r → q (b ++ c) = .item x (r ++ c)

namespace Extends

theorem yield (x : φ) : Extends (yield (β := β) x) (yield x) where
  bad c h := by cases h
  item c h := by
    cases h
    rfl

theorem fail : Extends (fail (β := β) (φ := φ)) fail where
  bad c h := rfl
  item c h := by cases h

/-- A scanner that has decided nothing. -/
theorem more (q : Scanner β φ) : Extends (fun _ => .more) q where
  bad c h := by cases h
  item c h := by cases h

theorem next : Extends (next (β := β)) next where
  bad {b} c h := by cases b <;> cases h
  item {b} x r c h := by
    cases b with
    | nil => cases h
    | cons y b =>
        cases h
        rfl

theorem andThen {p q : Scanner β φ} {f g : φ → Scanner β ψ} (hp : Extends p q)
    (hf : ∀ x, Extends (f x) (g x)) : Extends (p.andThen f) (q.andThen g) where
  bad {b} c h := by
    unfold Scanner.andThen at h ⊢
    cases hb : p b with
    | more => rw [hb] at h; cases h
    | bad =>
        rw [hp.bad c hb]
        rfl
    | item x r =>
        rw [hb] at h
        rw [hp.item c hb]
        exact (hf x).bad c h
  item {b y r'} c h := by
    unfold Scanner.andThen at h ⊢
    cases hb : p b with
    | more => rw [hb] at h; cases h
    | bad => rw [hb] at h; cases h
    | item x r =>
        rw [hb] at h
        rw [hp.item c hb]
        exact (hf x).item c h

theorem map {p q : Scanner β φ} (f : φ → ψ) (h : Extends p q) : Extends (p.map f) (q.map f) :=
  h.andThen (fun x => Extends.yield (f x))

theorem ofOption (x : Option φ) : Extends (ofOption (β := β) x) (ofOption x) := by
  cases x with
  | none => exact Extends.fail
  | some x => exact Extends.yield x

theorem unread {p q : Scanner β φ} (x : β) (h : Extends p q) :
    Extends (unread x p) (unread x q) where
  bad c hb := h.bad c hb
  item c hb := h.item c hb

theorem ite {p q p' q' : Scanner β φ} (P : Prop) [Decidable P] (h : Extends p q)
    (h' : Extends p' q') : Extends (if P then p else p') (if P then q else q') := by
  split
  · exact h
  · exact h'

/-- A loop with more turns to take. -/
theorem loop {body body' : σ → Scanner β (σ ⊕ φ)} (h : ∀ s, Extends (body s) (body' s)) :
    ∀ {n m : Nat}, n ≤ m → ∀ s, Extends (loop body n s) (loop body' m s) := by
  intro n
  induction n with
  | zero => intro m _ s; exact more _
  | succ n ih =>
      intro m hm s
      obtain ⟨m, rfl⟩ : ∃ k, m = k + 1 := ⟨m - 1, by omega⟩
      refine (h s).andThen (fun x => ?_)
      cases x with
      | inl s => exact ih (by omega) s
      | inr x => exact Extends.yield x

/-- A proper beginning of an item is incomplete. -/
theorem incomplete {p q : Scanner β φ} {b c : List β} {x : φ} (h : Extends p q)
    (hc : c ≠ []) (hq : q (b ++ c) = .item x []) : p b = .more := by
  cases hb : p b with
  | more => rfl
  | bad => exact absurd ((h.bad c hb).symm.trans hq) (by simp)
  | item y r =>
      have hr := (h.item c hb).symm.trans hq
      injection hr with _ hr
      exact absurd (List.append_eq_nil_iff.mp hr).2 hc

end Extends

end Scanner

end Framing
