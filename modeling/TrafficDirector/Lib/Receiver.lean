/-
# `Lib.Receiver` — a receiver that takes each message once

The other end of a sender that sends again what is not acknowledged.  Some messages open
an exchange under their key, others close it.  A receiver takes an opening message when
its key is closed; while the key is open, it drops them as repetitions.

That is safe if the sender never repeats an opening message after the closing one that
ends its exchange (`Alternate`): then no message is taken twice, whatever is lost on the
way and whatever was open at first (`takes_once`).
-/
import Mathlib.Data.List.Induction
import TrafficDirector.Lib.Resend

namespace Resend

variable {κ α : Type}

structure Receiver (κ α : Type) where
  /-- the keys of the exchanges that are open -/
  opened : List κ
  /-- the messages taken, in order -/
  taken : List (Stamped α)

/-- Of an opening and a closing message of one key, the one sent first is the older one. -/
def Alternate (opens closes : α → Option κ) (a b : Stamped α) : Prop :=
  ∀ k, opens a.item = some k ∧ closes b.item = some k ∨
    closes a.item = some k ∧ opens b.item = some k → a.seq < b.seq

/-- Items of one key that are sent in order alternate, as long as none both opens and closes. -/
theorem InOrder.alternate {key opens closes : α → Option κ} {a b : Stamped α}
    (h : InOrder key a b) (hopens : ∀ x k, opens x = some k → key x = some k)
    (hcloses : ∀ x k, closes x = some k → key x = some k)
    (hne : a.seq = b.seq → a.item = b.item)
    (happart : ∀ x k, opens x = some k → closes x ≠ some k) : Alternate opens closes a b := by
  intro k hk
  have hle : a.seq ≤ b.seq := by
    rcases hk with ⟨ha, hb⟩ | ⟨ha, hb⟩
    · exact h k (hopens _ k ha) (hcloses _ k hb)
    · exact h k (hcloses _ k ha) (hopens _ k hb)
  refine Nat.lt_of_le_of_ne hle ?_
  intro heq
  rcases hk with ⟨ha, hb⟩ | ⟨ha, hb⟩
  · exact happart _ k ha (hne heq ▸ hb)
  · exact happart _ k hb (hne heq ▸ ha)

namespace Receiver

variable (opens closes : α → Option κ)

/-- One message arrives. -/
def receive [DecidableEq κ] (r : Receiver κ α) (m : Stamped α) : Receiver κ α :=
  match opens m.item, closes m.item with
  | some k, _ => if k ∈ r.opened then r else ⟨k :: r.opened, r.taken ++ [m]⟩
  | none, some k => { r with opened := r.opened.filter (fun k' => decide (k' ≠ k)) }
  | none, none => r

/-- What was taken of `ms`: each message of it is in an exchange that is open, or that a
later message has closed. -/
structure Took (ms : List (Stamped α)) (r : Receiver κ α) : Prop where
  exchange : ∀ m ∈ r.taken, m ∈ ms ∧ ∃ k, opens m.item = some k ∧
    (k ∈ r.opened ∨ ∃ c ∈ ms, closes c.item = some k ∧ m.seq < c.seq)
  once : (r.taken.map Stamped.seq).Nodup

variable {opens closes} {read : List α} {ms : List (Stamped α)} {m : Stamped α}
  {r : Receiver κ α}

theorem Took.append (h : Took opens closes ms r) (m : Stamped α) :
    Took opens closes (ms ++ [m]) r where
  once := h.once
  exchange := by
    intro a ha
    obtain ⟨hmem, k, hk, hopen⟩ := h.exchange a ha
    refine ⟨List.mem_append_left _ hmem, k, hk, ?_⟩
    rcases hopen with hopen | ⟨c, hc, hclose⟩
    · exact Or.inl hopen
    · exact Or.inr ⟨c, List.mem_append_left _ hc, hclose⟩

/-- An opening message of a closed key is none of those that were taken. -/
theorem Took.isNew (h : Took opens closes ms r) {k : κ} (hk : opens m.item = some k)
    (hclosed : k ∉ r.opened) (halt : ∀ a ∈ ms, Alternate opens closes a m)
    (hread : ∀ a ∈ ms ++ [m], read[a.seq]? = some a.item) : ∀ a ∈ r.taken, a.seq ≠ m.seq := by
  intro a ha heq
  obtain ⟨hmem, k', hk', hopen⟩ := h.exchange a ha
  have hitem : a.item = m.item := by
    have ha' := hread a (List.mem_append_left _ hmem)
    rw [heq, hread m List.mem_concat_self] at ha'
    exact (Option.some.inj ha').symm
  obtain rfl : k' = k := by
    rw [hitem, hk] at hk'
    exact (Option.some.inj hk').symm
  rcases hopen with hopen | ⟨c, hc, hclose, hlt⟩
  · exact hclosed hopen
  · have hlater := halt c hc k' (Or.inr ⟨hclose, hk⟩)
    omega

theorem Took.receive [DecidableEq κ] (h : Took opens closes ms r) (halt : ∀ a ∈ ms, Alternate opens closes a m)
    (hread : ∀ a ∈ ms ++ [m], read[a.seq]? = some a.item) :
    Took opens closes (ms ++ [m]) (r.receive opens closes m) := by
  unfold Receiver.receive
  split
  · next k hk =>
      split
      · exact h.append m
      · next hclosed =>
          have hnew := h.isNew hk hclosed halt hread
          refine ⟨?_, ?_⟩
          · intro a ha
            rcases List.mem_append.mp ha with ha | ha
            · obtain ⟨hmem, k', hk', hopen⟩ := (h.append m).exchange a ha
              exact ⟨hmem, k', hk', hopen.imp_left (List.mem_cons_of_mem _)⟩
            · obtain rfl := List.mem_singleton.mp ha
              exact ⟨List.mem_concat_self, k, hk, Or.inl List.mem_cons_self⟩
          · rw [List.map_append]
            refine List.nodup_append.mpr ⟨h.once, List.nodup_singleton _, ?_⟩
            intro x hx y hy
            obtain ⟨a, ha, rfl⟩ := List.mem_map.mp hx
            rw [List.mem_singleton.mp hy]
            exact hnew a ha
  · next k hopens hclose =>
      refine ⟨?_, h.once⟩
      intro a ha
      obtain ⟨hmem, k', hk', hopen⟩ := (h.append m).exchange a ha
      refine ⟨hmem, k', hk', ?_⟩
      by_cases heq : k' = k
      · -- this message closes the exchange, if no earlier one has
        subst heq
        have hlt := halt a (h.exchange a ha).1 k' (Or.inl ⟨hk', hclose⟩)
        exact Or.inr ⟨m, List.mem_concat_self, hclose, hlt⟩
      · refine hopen.imp_left ?_
        intro hin
        exact List.mem_filter.mpr ⟨hin, decide_eq_true heq⟩
  · exact h.append m

/-- If what is sent alternates, no message is taken twice: not by a receiver that gets all of it,
and not by one that some of it does not reach. -/
theorem takes_once [DecidableEq κ] (halt : ms.Pairwise (Alternate opens closes))
    (hread : ∀ m ∈ ms, read[m.seq]? = some m.item) {received : List (Stamped α)}
    (hsub : received.Sublist ms) (hr : r.taken = []) :
    ((received.foldl (receive opens closes) r).taken.map Stamped.seq).Nodup := by
  have htook : Took opens closes received (received.foldl (receive opens closes) r) := by
    have halt' := halt.sublist hsub
    have hread' : ∀ m ∈ received, read[m.seq]? = some m.item := fun m hm => hread m (hsub.subset hm)
    clear hsub
    induction received using List.reverseRecOn with
    | nil => exact ⟨fun a ha => absurd (hr ▸ ha : a ∈ []) List.not_mem_nil, by simp [hr]⟩
    | append_singleton received m ih =>
        obtain ⟨hpre, -, hlast⟩ := List.pairwise_append.mp halt'
        rw [List.foldl_append]
        have hprev := ih hpre (fun a ha => hread' a (List.mem_append_left _ ha))
        exact hprev.receive (fun a ha => hlast a ha m List.mem_cons_self) hread'
  exact htook.once

end Receiver

end Resend
