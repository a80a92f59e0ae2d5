/-
# `Lib.Oneshot` — channels for one value

A one-shot channel has a sending and a receiving end.  Sending uses the sending end up,
and fails once the receiving end is gone; a value that has been sent and not received
goes with the receiving end.  The five states are all there are, so no channel holds a
value that nobody can receive.
-/
import Mathlib.Init

inductive Oneshot (α : Type) where
  /-- both ends are there -/
  | pending
  | sent (v : α)
  /-- the sending end is gone, without a value -/
  | closed
  /-- the receiving end is gone -/
  | abandoned
  | gone
deriving DecidableEq

namespace Oneshot

variable {α : Type}

/-- `Sender::send`; the flag says that the value went in. -/
def send (v : α) : Oneshot α → Oneshot α × Bool
  | .pending => (.sent v, true)
  | .abandoned => (.gone, false)
  | ch => (ch, false)

def dropSender : Oneshot α → Oneshot α
  | .pending => .closed
  | .abandoned => .gone
  | ch => ch

def dropReceiver : Oneshot α → Oneshot α
  | .pending => .abandoned
  | .sent _ | .closed => .gone
  | ch => ch

/-- The value that waits to be received. -/
def value? : Oneshot α → Option α
  | .sent v => some v
  | _ => none

/-- The receiving end is there. -/
def HasReceiver : Oneshot α → Prop
  | .pending | .sent _ | .closed => True
  | .abandoned | .gone => False

variable {ch : Oneshot α} {v : α}

theorem HasReceiver.send (h : ch.HasReceiver) (w : α) : (ch.send w).1.HasReceiver := by
  cases ch with
  | pending | sent | closed => trivial
  | abandoned | gone => cases h

theorem HasReceiver.dropSender (h : ch.HasReceiver) : ch.dropSender.HasReceiver := by
  cases ch with
  | pending | sent | closed => trivial
  | abandoned | gone => cases h

theorem send_eq_true {w : α} {ch' : Oneshot α} (h : ch.send w = (ch', true)) :
    ch = .pending ∧ ch' = .sent w := by
  cases ch with
  | pending => exact ⟨rfl, (Prod.mk.inj h).1.symm⟩
  | _ => cases (Prod.mk.inj h).2

theorem send_of_ne {w : α} (h : ch ≠ .pending) : (ch.send w).2 = false := by
  cases ch with
  | pending => exact absurd rfl h
  | _ => rfl

@[simp] theorem send_eq_pending {w : α} : (ch.send w).1 ≠ .pending := by
  cases ch with
  | _ => exact fun h => by cases h

theorem send_eq_sent {w : α} (h : ch ≠ .pending) (hsent : (ch.send w).1 = .sent v) :
    ch = .sent v := by
  cases ch with
  | pending => exact absurd rfl h
  | sent v => exact hsent
  | _ => cases hsent

@[simp] theorem dropSender_eq_pending : ch.dropSender ≠ .pending := by
  cases ch with
  | _ => exact fun h => by cases h

@[simp] theorem dropReceiver_eq_pending : ch.dropReceiver ≠ .pending := by
  cases ch with
  | _ => exact fun h => by cases h

@[simp] theorem dropReceiver_eq_sent : ch.dropReceiver ≠ .sent v := by
  cases ch with
  | _ => exact fun h => by cases h

@[simp] theorem dropSender_eq_sent : ch.dropSender = .sent v ↔ ch = .sent v := by
  cases ch with
  | _ => simp [dropSender]

theorem value?_dropSender : ch.dropSender.value? = ch.value? := by
  cases ch with
  | _ => rfl

theorem value?_send {w : α} (h : ch ≠ .pending) : (ch.send w).1.value? = ch.value? := by
  cases ch with
  | pending => exact absurd rfl h
  | _ => rfl

theorem value?_eq_some : ch.value? = some v ↔ ch = .sent v := by
  cases ch with
  | _ => simp [value?]

end Oneshot
