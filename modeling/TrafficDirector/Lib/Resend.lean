/-
# `Lib.Resend` — items that are sent, kept until acknowledged, and sent again

A relay reads items from one side and sends them to the other, over connections
that come and go.  An item may have a key; the last item sent under a key is kept
until it is forgotten, and is sent again over the next connection.  While there
is no connection items are queued, and a new connection flushes the queue.

The `Ledger` of a relay knows each item by its number among all items read, and
the log is the sequence of all items sent.  `Sound` says that the log has nothing
newer than what is still kept or queued under the same key; every operation
preserves it, and so items of one key are sent in the order in which they were
read (`Sound.sorted`), however often they are sent again.

Some items open an exchange under their key, others go on with it.  `Ordered` says
that what a new connection is sent has the opening items in the order in which they
were read; every operation preserves it, as long as each opening item finds its key
free.
-/
import TrafficDirector.Lib.OrdMap

namespace Resend

variable {κ α : Type}

/-- An item with its number. -/
structure Stamped (α : Type) where
  seq : Nat
  item : α
deriving DecidableEq

structure Ledger (κ α : Type) where
  /-- all items read -/
  read : List α
  /-- what is kept -/
  inflight : OrdMap κ (Stamped α)
  /-- what waits for a connection -/
  queued : List (Stamped α)

/-- Of two items with the same key, the first is not the newer one. -/
def InOrder (key : α → Option κ) (a b : Stamped α) : Prop :=
  ∀ k, key a.item = some k → key b.item = some k → a.seq ≤ b.seq

namespace Ledger

def empty : Ledger κ α := ⟨[], .empty, []⟩

/-- The stamp of the item that is about to be read. -/
def next (l : Ledger κ α) (a : α) : Stamped α := ⟨l.read.length, a⟩

/-- Read an item. -/
def hear (l : Ledger κ α) (a : α) : Ledger κ α := { l with read := l.read ++ [a] }

/-- Read an item and queue it. -/
def hold (l : Ledger κ α) (a : α) : Ledger κ α :=
  { l.hear a with queued := l.queued ++ [l.next a] }

/-- What a new connection is sent. -/
def resent (l : Ledger κ α) : List (Stamped α) := l.inflight.values ++ l.queued

variable (key : α → Option κ)

/-- The queued items that have a key, under their keys. -/
def bindings (ms : List (Stamped α)) : List (κ × Stamped α) :=
  ms.filterMap (fun m => (key m.item).map (fun k => (k, m)))

variable {key : α → Option κ}

theorem mem_bindings {ms : List (Stamped α)} {k : κ} {m : Stamped α} :
    (k, m) ∈ bindings key ms ↔ m ∈ ms ∧ key m.item = some k := by
  simp only [bindings, List.mem_filterMap, Option.map_eq_some_iff, Prod.mk.injEq]
  constructor
  · rintro ⟨m', hm', k', hk', rfl, rfl⟩; exact ⟨hm', hk'⟩
  · rintro ⟨hm, hk⟩; exact ⟨m, hm, k, hk, rfl, rfl⟩

theorem bindings_append (ms ms' : List (Stamped α)) :
    bindings key (ms ++ ms') = bindings key ms ++ bindings key ms' :=
  List.filterMap_append

theorem bindings_sorted {ms : List (Stamped α)} (h : ms.Pairwise (fun a b => a.seq < b.seq)) :
    (bindings key ms).Pairwise (fun a b => a.2.seq < b.2.seq) := by
  refine List.pairwise_filterMap.mpr (h.imp (fun {a b} hab x hx y hy => ?_))
  obtain ⟨_, _, rfl⟩ := Option.map_eq_some_iff.mp hx
  obtain ⟨_, _, rfl⟩ := Option.map_eq_some_iff.mp hy
  exact hab

theorem bindings_sublist (ms : List (Stamped α)) :
    ((bindings key ms).map Prod.snd).Sublist ms := by
  induction ms with
  | nil => exact .slnil
  | cons m ms ih =>
      cases h : key m.item with
      | none =>
          rw [show bindings key (m :: ms) = bindings key ms by simp [bindings, h]]
          exact ih.cons m
      | some k =>
          rw [show bindings key (m :: ms) = (k, m) :: bindings key ms by simp [bindings, h]]
          exact ih.cons_cons m

theorem seq_lt {read : List α} {m : Stamped α} (h : read[m.seq]? = some m.item) :
    m.seq < read.length := by
  obtain ⟨hlt, -⟩ := List.getElem?_eq_some_iff.mp h
  exact hlt

theorem read_append {read : List α} {m : Stamped α} (a : α) (h : read[m.seq]? = some m.item) :
    (read ++ [a])[m.seq]? = some m.item := by
  rw [List.getElem?_append_left (seq_lt h)]
  exact h

theorem read_next (l : Ledger κ α) (a : α) :
    (l.read ++ [a])[(l.next a).seq]? = some (l.next a).item := by
  simp [next]

theorem hold_resent (l : Ledger κ α) (a : α) :
    (l.hold a).resent.Subperm (l.next a :: l.resent) := by
  show (l.inflight.values ++ (l.queued ++ [l.next a])).Subperm _
  rw [← List.append_assoc]
  exact (List.perm_append_singleton _ _).subperm

variable [DecidableEq κ]

/-- Read an item and keep it under `k`. -/
def keep (l : Ledger κ α) (k : κ) (a : α) : Ledger κ α :=
  { l.hear a with inflight := l.inflight.insert k (l.next a) }

def forget (l : Ledger κ α) (ks : List κ) : Ledger κ α :=
  { l with inflight := l.inflight.eraseAll ks }

variable (key) in
/-- The queue has been sent: its items are kept from now on. -/
def flush (l : Ledger κ α) : Ledger κ α :=
  { l with inflight := l.inflight.insertAll (bindings key l.queued), queued := [] }

/-! ## What is held -/

theorem keep_resent (l : Ledger κ α) (k : κ) (a : α) :
    (l.keep k a).resent.Subperm (l.next a :: l.resent) :=
  (List.subperm_append_right l.queued).mpr (OrdMap.values_insert_subperm l.inflight k (l.next a))

theorem forget_resent (l : Ledger κ α) (ks : List κ) : (l.forget ks).resent.Subperm l.resent :=
  ((OrdMap.values_eraseAll_sublist l.inflight ks).append (List.Sublist.refl l.queued)).subperm

/-- A flush holds nothing that was not held before. -/
theorem flush_resent (l : Ledger κ α) : (l.flush key).resent.Subperm l.resent := by
  show ((l.inflight.insertAll (bindings key l.queued)).values ++ []).Subperm
    (l.inflight.values ++ l.queued)
  rw [List.append_nil]
  exact (OrdMap.values_insertAll_subperm _ _).trans
    ((List.subperm_append_left _).mpr (bindings_sublist l.queued).subperm)

/-! ## Sound ledgers -/

variable (key) in
/-- The ledger agrees with the log of what was sent. -/
structure Sound (l : Ledger κ α) (log : List (Stamped α)) : Prop where
  /-- what is kept was read, has its key, and is older than what is queued -/
  kept : ∀ k m, l.inflight.get? k = some m →
    l.read[m.seq]? = some m.item ∧ key m.item = some k ∧ ∀ m' ∈ l.queued, m.seq < m'.seq
  waiting : ∀ m ∈ l.queued, l.read[m.seq]? = some m.item
  queue : l.queued.Pairwise (fun a b => a.seq < b.seq)
  /-- what was sent was read, and is not newer than what is kept or queued -/
  sent : ∀ w ∈ log, l.read[w.seq]? = some w.item ∧ (∀ m ∈ l.queued, w.seq < m.seq) ∧
    ∀ k m, key w.item = some k → l.inflight.get? k = some m → w.seq ≤ m.seq
  sorted : log.Pairwise (InOrder key)

variable {l : Ledger κ α} {log : List (Stamped α)}

theorem sound_empty : (empty : Ledger κ α).Sound key [] where
  kept _ _ h := nomatch h
  waiting _ h := absurd h List.not_mem_nil
  queue := List.Pairwise.nil
  sent _ h := absurd h List.not_mem_nil
  sorted := List.Pairwise.nil

namespace Sound

theorem hear (h : l.Sound key log) (a : α) : (l.hear a).Sound key log where
  kept k m hm := ⟨read_append a (h.kept k m hm).1, (h.kept k m hm).2⟩
  waiting m hm := read_append a (h.waiting m hm)
  queue := h.queue
  sent w hw := ⟨read_append a (h.sent w hw).1, (h.sent w hw).2⟩
  sorted := h.sorted

theorem hold (h : l.Sound key log) (a : α) : (l.hold a).Sound key log where
  kept k m hm := by
    refine ⟨read_append a (h.kept k m hm).1, (h.kept k m hm).2.1, fun m' hm' => ?_⟩
    rcases List.mem_append.mp hm' with hm' | hm'
    · exact (h.kept k m hm).2.2 m' hm'
    · rw [List.mem_singleton.mp hm']
      exact seq_lt (h.kept k m hm).1
  waiting m hm := by
    rcases List.mem_append.mp hm with hm | hm
    · exact read_append a (h.waiting m hm)
    · rw [List.mem_singleton.mp hm]
      exact read_next l a
  queue := by
    refine List.pairwise_append.mpr ⟨h.queue, List.pairwise_singleton _ _, fun m hm m' hm' => ?_⟩
    rw [List.mem_singleton.mp hm']
    exact seq_lt (h.waiting m hm)
  sent w hw := by
    refine ⟨read_append a (h.sent w hw).1, fun m hm => ?_, (h.sent w hw).2.2⟩
    rcases List.mem_append.mp hm with hm | hm
    · exact (h.sent w hw).2.1 m hm
    · rw [List.mem_singleton.mp hm]
      exact seq_lt (h.sent w hw).1
  sorted := h.sorted

theorem keep (h : l.Sound key log) {k : κ} {a : α} (hk : key a = some k)
    (hq : l.queued = []) : (l.keep k a).Sound key log where
  kept k' m hm := by
    refine ⟨?_, ?_, fun m' hm' => absurd (hq ▸ hm' : m' ∈ []) List.not_mem_nil⟩
    · rw [show (l.keep k a).inflight = l.inflight.insert k (l.next a) from rfl,
        OrdMap.get?_insert] at hm
      split at hm
      · rw [← Option.some.inj hm]; exact read_next l a
      · exact read_append a (h.kept k' m hm).1
    · rw [show (l.keep k a).inflight = l.inflight.insert k (l.next a) from rfl,
        OrdMap.get?_insert] at hm
      split at hm
      · next e => rw [← Option.some.inj hm, e]; exact hk
      · exact (h.kept k' m hm).2.1
  waiting m hm := read_append a (h.waiting m hm)
  queue := h.queue
  sent w hw := by
    refine ⟨read_append a (h.sent w hw).1, (h.sent w hw).2.1, fun k' m hk' hm => ?_⟩
    rw [show (l.keep k a).inflight = l.inflight.insert k (l.next a) from rfl,
      OrdMap.get?_insert] at hm
    split at hm
    · rw [← Option.some.inj hm]
      exact Nat.le_of_lt (seq_lt (h.sent w hw).1)
    · exact (h.sent w hw).2.2 k' m hk' hm
  sorted := h.sorted

theorem forget (h : l.Sound key log) (ks : List κ) : (l.forget ks).Sound key log where
  kept k m hm := h.kept k m (OrdMap.get?_of_eraseAll hm)
  waiting := h.waiting
  queue := h.queue
  sent w hw := ⟨(h.sent w hw).1, (h.sent w hw).2.1, fun k m hk hm =>
    (h.sent w hw).2.2 k m hk (OrdMap.get?_of_eraseAll hm)⟩
  sorted := h.sorted

/-- The newest item goes out. -/
theorem send (h : l.Sound key log) {m : Stamped α} (hq : l.queued = [])
    (hread : l.read[m.seq]? = some m.item) (hlast : l.read.length = m.seq + 1)
    (hkept : ∀ k m', key m.item = some k → l.inflight.get? k = some m' → m.seq ≤ m'.seq) :
    l.Sound key (log ++ [m]) where
  kept := h.kept
  waiting := h.waiting
  queue := h.queue
  sent w hw := by
    rcases List.mem_append.mp hw with hw | hw
    · exact h.sent w hw
    · rw [List.mem_singleton.mp hw]
      exact ⟨hread, fun m' hm' => absurd (hq ▸ hm' : m' ∈ []) List.not_mem_nil, hkept⟩
  sorted := by
    refine List.pairwise_append.mpr ⟨h.sorted, List.pairwise_singleton _ _, fun w hw m' hm' => ?_⟩
    rw [List.mem_singleton.mp hm']
    intro k _ _
    have hlt := seq_lt (h.sent w hw).1
    omega

/-- What is kept after a flush was queued, or was kept before and nothing under
its key was queued. -/
theorem kept_flush {k : κ} {m : Stamped α} (hm : (l.flush key).inflight.get? k = some m) :
    (m ∈ l.queued ∧ OrdMap.lastFor k (bindings key l.queued) = some m) ∨
      (l.inflight.get? k = some m ∧ OrdMap.lastFor k (bindings key l.queued) = none) := by
  rw [show (l.flush key).inflight = l.inflight.insertAll (bindings key l.queued) from rfl,
    OrdMap.get?_insertAll] at hm
  cases hl : OrdMap.lastFor k (bindings key l.queued) with
  | some m' =>
      rw [hl, Option.some_or] at hm
      obtain rfl := Option.some.inj hm
      exact Or.inl ⟨(mem_bindings.mp (OrdMap.mem_of_lastFor hl)).1, rfl⟩
  | none =>
      rw [hl, Option.none_or] at hm
      exact Or.inr ⟨hm, rfl⟩

/-- An item of the queue is not newer than what the flush keeps under its key. -/
theorem queued_le_kept (h : l.Sound key log) {w m : Stamped α} {k : κ} (hw : w ∈ l.queued)
    (hk : key w.item = some k) (hm : (l.flush key).inflight.get? k = some m) : w.seq ≤ m.seq := by
  have hmem := mem_bindings.mpr ⟨hw, hk⟩
  rcases kept_flush hm with ⟨-, hl⟩ | ⟨-, hl⟩
  · exact OrdMap.le_lastFor (f := Stamped.seq) (bindings_sorted h.queue) hmem hl
  · obtain ⟨m', hm'⟩ := OrdMap.lastFor_isSome_of_mem (List.mem_map_of_mem (f := Prod.fst) hmem)
    exact nomatch hl.symm.trans hm'

theorem resent_read (h : l.Sound key log) {m : Stamped α} (hm : m ∈ l.resent) :
    l.read[m.seq]? = some m.item := by
  rcases List.mem_append.mp hm with hm | hm
  · obtain ⟨k, hk⟩ := OrdMap.mem_values.mp hm
    exact (h.kept k m hk).1
  · exact h.waiting m hm

theorem resent_sorted (h : l.Sound key log) : l.resent.Pairwise (InOrder key) := by
  refine List.pairwise_append.mpr ⟨?_, ?_, fun m hm m' hm' k _ _ => ?_⟩
  · -- two kept items have different keys
    refine List.pairwise_map.mpr ((List.pairwise_map.mp l.inflight.nodup).imp_of_mem ?_)
    intro a b ha hb hab k hka hkb
    have hka' := (h.kept a.1 a.2 (OrdMap.mem_entries_iff.mp ha)).2.1
    have hkb' := (h.kept b.1 b.2 (OrdMap.mem_entries_iff.mp hb)).2.1
    exact absurd (Option.some.inj ((hka'.symm.trans hka).trans (hkb.symm.trans hkb'))) hab
  · exact h.queue.imp (fun hab k _ _ => Nat.le_of_lt hab)
  · obtain ⟨k', hk'⟩ := OrdMap.mem_values.mp hm
    exact Nat.le_of_lt ((h.kept k' m hk').2.2 m' hm')

theorem sent_le_resent (h : l.Sound key log) {w m : Stamped α} (hw : w ∈ log)
    (hm : m ∈ l.resent) : InOrder key w m := by
  intro k hkw hkm
  rcases List.mem_append.mp hm with hm | hm
  · obtain ⟨k', hk'⟩ := OrdMap.mem_values.mp hm
    obtain rfl := Option.some.inj ((h.kept k' m hk').2.1.symm.trans hkm)
    exact (h.sent w hw).2.2 k' m hkw hk'
  · exact Nat.le_of_lt ((h.sent w hw).2.1 m hm)

/-- A new connection is sent what is kept, then what is queued. -/
theorem flush (h : l.Sound key log) : (l.flush key).Sound key (log ++ l.resent) where
  kept k m hm := by
    rcases kept_flush hm with ⟨hm, hl⟩ | ⟨hm, -⟩
    · exact ⟨h.waiting m hm, (mem_bindings.mp (OrdMap.mem_of_lastFor hl)).2,
        fun m' hm' => absurd hm' List.not_mem_nil⟩
    · exact ⟨(h.kept k m hm).1, (h.kept k m hm).2.1, fun m' hm' => absurd hm' List.not_mem_nil⟩
  waiting m hm := absurd hm List.not_mem_nil
  queue := List.Pairwise.nil
  sent w hw := by
    refine ⟨?_, fun m hm => absurd hm List.not_mem_nil, fun k m hk hm => ?_⟩
    · rcases List.mem_append.mp hw with hw | hw
      · exact (h.sent w hw).1
      · exact h.resent_read hw
    · rcases List.mem_append.mp hw with hw | hw
      · rcases kept_flush hm with ⟨hm, -⟩ | ⟨hm, -⟩
        · exact Nat.le_of_lt ((h.sent w hw).2.1 m hm)
        · exact (h.sent w hw).2.2 k m hk hm
      · rcases List.mem_append.mp hw with hw | hw
        · obtain ⟨k', hk'⟩ := OrdMap.mem_values.mp hw
          obtain rfl := Option.some.inj ((h.kept k' w hk').2.1.symm.trans hk)
          rcases kept_flush hm with ⟨hm, -⟩ | ⟨hm, -⟩
          · exact Nat.le_of_lt ((h.kept k' w hk').2.2 m hm)
          · exact Nat.le_of_eq (congrArg Stamped.seq (Option.some.inj (hk'.symm.trans hm)))
        · exact h.queued_le_kept hw hk hm
  sorted := List.pairwise_append.mpr
    ⟨h.sorted, h.resent_sorted, fun _ hw _ hm => h.sent_le_resent hw hm⟩

end Sound

/-! ## The order of opening items -/

section Opening

variable (key) (opens : α → Bool)

/-- The opening items among these. -/
def opening (ms : List (Stamped α)) : List (Stamped α) := ms.filter (fun m => opens m.item)

/-- Each opening item finds its key free, once those before it are kept. -/
def Fresh : OrdMap κ (Stamped α) → List (Stamped α) → Prop
  | _, [] => True
  | kept, m :: ms =>
      (∀ k, key m.item = some k → opens m.item = true → kept.get? k = none) ∧
      Fresh (kept.insertAll (bindings key [m])) ms

/-- What a new connection is sent has the opening items in order, and each of them will
be kept in its place. -/
structure Ordered (l : Ledger κ α) : Prop where
  sorted : (opening opens l.resent).Pairwise (fun a b => a.seq < b.seq)
  fresh : Fresh key opens l.inflight l.queued
  read : ∀ m ∈ l.resent, l.read[m.seq]? = some m.item

variable {key opens}

theorem opening_append (ms ms' : List (Stamped α)) :
    opening opens (ms ++ ms') = opening opens ms ++ opening opens ms' :=
  List.filter_append _ _

theorem fresh_append_singleton {kept : OrdMap κ (Stamped α)} {ms : List (Stamped α)}
    {m : Stamped α} (h : Fresh key opens kept ms)
    (hm : ∀ k, key m.item = some k → opens m.item = true →
      (kept.insertAll (bindings key ms)).get? k = none) :
    Fresh key opens kept (ms ++ [m]) := by
  induction ms generalizing kept with
  | nil => exact ⟨hm, trivial⟩
  | cons m' ms ih =>
      refine ⟨h.1, ih h.2 ?_⟩
      rw [← OrdMap.insertAll_append, ← bindings_append]
      exact hm

/-- What is kept then has no opening item but those that were kept and these, in order. -/
theorem opening_insertAll {kept : OrdMap κ (Stamped α)} {ms : List (Stamped α)}
    (h : Fresh key opens kept ms) :
    (opening opens (kept.insertAll (bindings key ms)).values).Sublist
      (opening opens (kept.values ++ ms)) := by
  induction ms generalizing kept with
  | nil =>
      rw [List.append_nil]
      exact List.Sublist.refl _
  | cons m ms ih =>
      have hone : (opening opens (kept.insertAll (bindings key [m])).values).Sublist
          (opening opens (kept.values ++ [m])) := by
        rw [opening_append]
        cases hk : key m.item with
        | none =>
            rw [show bindings key [m] = [] by simp [bindings, hk]]
            exact List.sublist_append_left _ _
        | some k =>
            rw [show bindings key [m] = [(k, m)] by simp [bindings, hk]]
            cases ho : opens m.item with
            | true =>
                rw [← opening_append]
                show (opening opens (kept.insert k m).values).Sublist _
                rw [OrdMap.values_insert_of_notMem m (h.1 k hk ho)]
            | false =>
                exact (OrdMap.filter_values_insert kept k ho).trans (List.sublist_append_left _ _)
      have hcons : bindings key (m :: ms) = bindings key [m] ++ bindings key ms :=
        bindings_append [m] ms
      rw [hcons, OrdMap.insertAll_append]
      refine (ih h.2).trans ?_
      rw [opening_append, List.append_cons, opening_append]
      exact hone.append (List.Sublist.refl _)

namespace Ordered

theorem empty : (Ledger.empty : Ledger κ α).Ordered key opens where
  sorted := List.Pairwise.nil
  fresh := trivial
  read _ h := nomatch h

theorem hear (h : l.Ordered key opens) (a : α) : (l.hear a).Ordered key opens where
  sorted := h.sorted
  fresh := h.fresh
  read m hm := read_append a (h.read m hm)

/-- The newest item comes last. -/
theorem sorted_next (h : l.Ordered key opens) (a : α) :
    (opening opens (l.resent ++ [l.next a])).Pairwise (fun a b => a.seq < b.seq) := by
  rw [opening_append]
  refine List.pairwise_append.mpr ⟨h.sorted, ?_, ?_⟩
  · exact (List.pairwise_singleton _ _).sublist List.filter_sublist
  · intro m hm m' hm'
    rw [List.mem_singleton.mp (List.mem_of_mem_filter hm')]
    exact seq_lt (h.read m (List.mem_of_mem_filter hm))

theorem hold (h : l.Ordered key opens) {a : α}
    (hfree : ∀ k, key a = some k → opens a = true →
      (l.inflight.insertAll (bindings key l.queued)).get? k = none) :
    (l.hold a).Ordered key opens where
  sorted := by
    show (opening opens (l.inflight.values ++ (l.queued ++ [l.next a]))).Pairwise _
    rw [← List.append_assoc]
    exact h.sorted_next a
  fresh := fresh_append_singleton h.fresh hfree
  read m hm := by
    rcases List.mem_cons.mp ((hold_resent l a).subset hm) with rfl | hm
    · exact read_next l a
    · exact read_append a (h.read m hm)

theorem keep (h : l.Ordered key opens) {k : κ} {a : α} (hq : l.queued = [])
    (hfree : opens a = true → l.inflight.get? k = none) : (l.keep k a).Ordered key opens where
  sorted := by
    have hall := h.sorted_next a
    have hresent : l.resent = l.inflight.values := by
      rw [resent, hq, List.append_nil]
    show (opening opens ((l.inflight.insert k (l.next a)).values ++ l.queued)).Pairwise _
    rw [hq, List.append_nil]
    cases ho : opens a with
    | true =>
        rw [OrdMap.values_insert_of_notMem _ (hfree ho), ← hresent]
        exact hall
    | false =>
        have hsub := OrdMap.filter_values_insert (v := l.next a)
          (p := fun m => opens m.item) l.inflight k ho
        rw [← hresent] at hsub
        exact h.sorted.sublist hsub
  fresh := by
    show Fresh key opens _ l.queued
    rw [hq]
    trivial
  read m hm := by
    rcases List.mem_cons.mp ((keep_resent l k a).subset hm) with rfl | hm
    · exact read_next l a
    · exact read_append a (h.read m hm)

theorem forget (h : l.Ordered key opens) (hq : l.queued = []) (ks : List κ) :
    (l.forget ks).Ordered key opens where
  sorted := by
    refine h.sorted.sublist (List.Sublist.filter _ ?_)
    exact (OrdMap.values_eraseAll_sublist l.inflight ks).append (List.Sublist.refl l.queued)
  fresh := by
    show Fresh key opens _ l.queued
    rw [hq]
    trivial
  read m hm := h.read m ((forget_resent l ks).subset hm)

theorem flush (h : l.Ordered key opens) : (l.flush key).Ordered key opens where
  sorted := by
    show (opening opens ((l.inflight.insertAll (bindings key l.queued)).values ++ [])).Pairwise _
    rw [List.append_nil]
    exact h.sorted.sublist (opening_insertAll h.fresh)
  fresh := trivial
  read m hm := h.read m ((flush_resent l).subset hm)

end Ordered

end Opening

end Ledger

end Resend
