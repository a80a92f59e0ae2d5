/-
# `Lib.Edits` — ordered maps kept by a history of edits

An edit sets a key, changes the value of a key that is there, or takes a key out.
Each event of a history makes at most one edit, `f`; the map after the history is
`edits f m l`.

* `get?_edits`: a key has what it was last set to, with the later changes, unless it
  was taken out since;
* `get?_edits_filter`: events that do not edit a key may be left out;
* `keys_edits`: the keys are in the order in which they have arrived.
-/
import TrafficDirector.Lib.OrdMap
import TrafficDirector.Lib.Since

inductive Edit (κ ν : Type) where
  | set (k : κ) (v : ν)
  | mod (k : κ) (g : ν → ν)
  | del (k : κ)

variable {κ ν : Type} {α : Type} [DecidableEq κ]

namespace Edit

def key : Edit κ ν → κ
  | .set k _ | .mod k _ | .del k => k

/-- The edit neither sets the key nor takes it out. -/
def Spares (k : κ) : Edit κ ν → Prop
  | .set k' _ | .del k' => k' ≠ k
  | .mod _ _ => True

/-- What an edit that spares `k` makes of its value. -/
def change (k : κ) (v : ν) : Edit κ ν → ν
  | .mod k' g => if k' = k then g v else v
  | _ => v

/-- What an edit makes of the value of `k`, if there is one. -/
def apply (k : κ) (o : Option ν) : Edit κ ν → Option ν
  | .set k' v => if k' = k then some v else o
  | .mod k' g => if k' = k then o.map g else o
  | .del k' => if k' = k then none else o

variable {k : κ} {o : Option ν} {v : ν} {e : Edit κ ν}

theorem apply_eq_some : e.apply k o = some v ↔
    e = .set k v ∨ e.Spares k ∧ ∃ v', o = some v' ∧ v = e.change k v' := by
  cases e with
  | set k' v' =>
      by_cases hk : k' = k
      · simp [apply, Spares, hk]
      · simp [apply, Spares, change, hk]
  | mod k' g =>
      by_cases hk : k' = k
      · simp [apply, Spares, change, hk, eq_comm]
      · simp [apply, Spares, change, hk]
  | del k' =>
      by_cases hk : k' = k
      · simp [apply, Spares, hk]
      · simp [apply, Spares, change, hk]

theorem apply_of_key_ne (h : e.key ≠ k) : e.apply k o = o := by
  cases e <;> exact if_neg h

end Edit

namespace OrdMap

def edit (m : OrdMap κ ν) : Edit κ ν → OrdMap κ ν
  | .set k v => m.insert k v
  | .mod k g => m.adjust k g
  | .del k => m.erase k

/-- The map after the events of `l`, if the event `a` makes the edit `f a`. -/
def edits (f : α → Option (Edit κ ν)) (m : OrdMap κ ν) (l : List α) : OrdMap κ ν :=
  l.foldl (fun m a => (f a).elim m m.edit) m

variable {f : α → Option (Edit κ ν)} {m : OrdMap κ ν} {l : List α} {a : α} {k : κ} {v : ν}

theorem keys_adjust (m : OrdMap κ ν) (k : κ) (g : ν → ν) : (m.adjust k g).keys = m.keys :=
  Entries.keys_modify k g m.entries

/-- A change that forgets the old value overwrites it. -/
theorem adjust_const (m : OrdMap κ ν) (k : κ) (v : ν) :
    m.adjust k (fun _ => v) = if m.contains k then m.insert k v else m := by
  split
  · next h =>
      have hk : k ∈ m.keys := of_decide_eq_true h
      refine ext_get? (by rw [keys_adjust, keys_insert, if_pos hk]) (fun k' => ?_)
      rw [get?_adjust, get?_insert]
      obtain ⟨v', hv'⟩ := contains_iff.mp h
      by_cases hk' : k' = k
      · simp [hk', hv']
      · simp [hk']
  · next h =>
      have hk : k ∉ m.keys := fun hk => h (decide_eq_true hk)
      refine ext_get? (keys_adjust ..) (fun k' => ?_)
      rw [get?_adjust]
      by_cases hk' : k' = k
      · simp [hk', get?_eq_none.mpr hk]
      · simp [hk']

theorem mem_keys_iff {m : OrdMap κ ν} {k : κ} : k ∈ m.keys ↔ ∃ v, m.get? k = some v := by
  rw [← contains_iff, contains, decide_eq_true_iff]

theorem edits_concat : edits f m (l ++ [a]) = (f a).elim (edits f m l) (edits f m l).edit := by
  rw [edits, List.foldl_append]
  rfl

theorem get?_edit (m : OrdMap κ ν) (e : Edit κ ν) (k : κ) :
    (m.edit e).get? k = e.apply k (m.get? k) := by
  cases e with
  | set k' v => exact (get?_insert m k' k v).trans (by simp [Edit.apply, eq_comm])
  | mod k' g => exact (get?_adjust m k' k g).trans (by simp [Edit.apply, eq_comm])
  | del k' => exact (get?_erase m k' k).trans (by simp [Edit.apply, eq_comm])

theorem get?_edits_concat : (edits f m (l ++ [a])).get? k =
    (f a).elim ((edits f m l).get? k) (Edit.apply k ((edits f m l).get? k)) := by
  rw [edits_concat]
  cases f a with
  | none => rfl
  | some e => exact get?_edit _ e k

/-! ## Values -/

/-- The last event of `l` that sets `k` or takes it out sets it, and the changes since
make its value `v`. -/
def LastSet (f : α → Option (Edit κ ν)) (k : κ) (l : List α) (v : ν) : Prop :=
  ∃ pre a post v₀, l = pre ++ a :: post ∧ f a = some (.set k v₀) ∧
    (∀ b ∈ post, ∀ e ∈ f b, e.Spares k) ∧ v = (post.filterMap f).foldl (Edit.change k) v₀

theorem lastSet_concat : LastSet f k (l ++ [a]) v ↔ f a = some (.set k v) ∨
    (∀ e ∈ f a, e.Spares k) ∧ ∃ v', LastSet f k l v' ∧ v = (f a).elim v' (Edit.change k v') := by
  constructor
  · rintro ⟨pre, b, post, v₀, h, hset, hpost, rfl⟩
    rcases concat_eq_append_cons.mp h with ⟨-, rfl, rfl⟩ | ⟨rest, rfl, hl⟩
    · exact Or.inl hset
    · refine Or.inr ⟨hpost a (List.mem_append_right _ List.mem_cons_self), _,
        ⟨pre, b, rest, v₀, hl, hset, ?_, rfl⟩, ?_⟩
      · intro c hc
        exact hpost c (List.mem_append_left _ hc)
      · rw [List.filterMap_append, List.foldl_append]
        cases ha : f a <;> simp [ha]
  · rintro (hset | ⟨ha, v', ⟨pre, b, post, v₀, rfl, hset, hpost, rfl⟩, rfl⟩)
    · exact ⟨l, a, [], v, rfl, hset, fun _ h => absurd h List.not_mem_nil, rfl⟩
    · refine ⟨pre, b, post ++ [a], v₀, by simp, hset, ?_, ?_⟩
      · intro c hc
        rcases List.mem_append.mp hc with hc | hc
        · exact hpost c hc
        · rw [List.mem_singleton.mp hc]
          exact ha
      · rw [List.filterMap_append, List.foldl_append]
        cases ha : f a <;> simp [ha]

theorem get?_edits : (edits f .empty l).get? k = some v ↔ LastSet f k l v := by
  induction l using List.reverseRecOn generalizing v with
  | nil =>
      refine iff_of_false (fun h => by cases h) ?_
      rintro ⟨pre, a, post, v₀, h, -⟩
      exact List.append_ne_nil_of_right_ne_nil pre (List.cons_ne_nil a post) h.symm
  | append_singleton l a ih =>
      rw [get?_edits_concat, lastSet_concat]
      cases f a with
      | none => simp [ih]
      | some e =>
          simp only [Option.elim_some, Edit.apply_eq_some, ih, Option.some.injEq,
            Option.mem_def, forall_eq']

/-- What other events do does not matter to a key. -/
theorem get?_edits_filter {p : α → Bool} (hp : ∀ a, p a = false → ∀ e ∈ f a, e.key ≠ k) :
    (edits f m (l.filter p)).get? k = (edits f m l).get? k := by
  induction l using List.reverseRecOn with
  | nil => rfl
  | append_singleton l a ih =>
      rw [List.filter_append]
      cases hpa : p a with
      | true =>
          rw [List.filter_cons_of_pos hpa, List.filter_nil, get?_edits_concat, get?_edits_concat, ih]
      | false =>
          rw [List.filter_cons_of_neg (by rw [hpa]; exact Bool.false_ne_true), List.filter_nil,
            List.append_nil, ih, get?_edits_concat]
          have hne := hp a hpa
          cases hfa : f a with
          | none => rfl
          | some e => exact (Edit.apply_of_key_ne (hne e hfa)).symm

/-! ## Order -/

theorem keys_erase (m : OrdMap κ ν) (k : κ) :
    (m.erase k).keys = m.keys.filter (fun k' => decide (k' ≠ k)) := by
  rw [keys, keys, List.filter_map]
  rfl

/-- The first key has arrived before the second. -/
def ArrivedBefore (f : α → Option (Edit κ ν)) (l : List α) (k k' : κ) : Prop :=
  ∃ n n', n < n' ∧ Arrived (fun l => k ∈ (edits f .empty l).keys) l n ∧
    Arrived (fun l => k' ∈ (edits f .empty l).keys) l n'

/-- Each key has arrived at some time, and an earlier key at an earlier time. -/
theorem keys_edits (l : List α) :
    (∀ k ∈ (edits f .empty l).keys, ∃ n, Arrived (fun l => k ∈ (edits f .empty l).keys) l n) ∧
      (edits f .empty l).keys.Pairwise (ArrivedBefore f l) := by
  induction l using List.reverseRecOn with
  | nil => exact ⟨fun _ h => absurd h List.not_mem_nil, List.Pairwise.nil⟩
  | append_singleton l a ih =>
      obtain ⟨hdate, hpair⟩ := ih
      -- what was there keeps its place and its date as long as it stays
      have hstay : ∀ ks : List κ, ks.Sublist (edits f .empty l).keys →
          (∀ k ∈ ks, k ∈ (edits f .empty (l ++ [a])).keys) →
          (∀ k ∈ ks, ∃ n, Arrived (fun l => k ∈ (edits f .empty l).keys) (l ++ [a]) n) ∧
            ks.Pairwise (ArrivedBefore f (l ++ [a])) := by
        intro ks hsub hmem
        refine ⟨fun k hk => ?_, ?_⟩
        · obtain ⟨n, hn⟩ := hdate k (hsub.subset hk)
          exact ⟨n, hn.concat (hmem k hk)⟩
        · refine (hpair.sublist hsub).imp_of_mem (fun {k k'} hk hk' h => ?_)
          obtain ⟨n, n', hlt, hn, hn'⟩ := h
          exact ⟨n, n', hlt, hn.concat (hmem k hk), hn'.concat (hmem k' hk')⟩
      have hall : (edits f .empty (l ++ [a])).keys = (edits f .empty l).keys →
          (∀ k ∈ (edits f .empty (l ++ [a])).keys,
            ∃ n, Arrived (fun l => k ∈ (edits f .empty l).keys) (l ++ [a]) n) ∧
          (edits f .empty (l ++ [a])).keys.Pairwise (ArrivedBefore f (l ++ [a])) := by
        intro h
        exact hstay _ (h ▸ List.Sublist.refl _) (fun _ hk => hk)
      cases hfa : f a with
      | none => exact hall (by rw [edits_concat, hfa]; rfl)
      | some e =>
          cases e with
          | mod k g => exact hall (by rw [edits_concat, hfa]; exact keys_adjust _ k g)
          | del k =>
              have hkeys : (edits f .empty (l ++ [a])).keys
                  = (edits f .empty l).keys.filter (fun k' => decide (k' ≠ k)) := by
                rw [edits_concat, hfa]
                exact keys_erase _ k
              exact hstay _ (hkeys ▸ List.filter_sublist) (fun _ hk => hk)
          | set k v =>
              have hkeys : (edits f .empty (l ++ [a])).keys
                  = if k ∈ (edits f .empty l).keys then (edits f .empty l).keys
                    else (edits f .empty l).keys ++ [k] := by
                rw [edits_concat, hfa]
                exact keys_insert _ k v
              by_cases hk : k ∈ (edits f .empty l).keys
              · rw [if_pos hk] at hkeys
                exact hall hkeys
              · rw [if_neg hk] at hkeys
                have hmem : ∀ k' ∈ (edits f .empty l).keys,
                    k' ∈ (edits f .empty (l ++ [a])).keys := by
                  intro k' hk'
                  rw [hkeys]
                  exact List.mem_append_left _ hk'
                have hnow : Arrived (fun l => k ∈ (edits f .empty l).keys) (l ++ [a]) l.length :=
                  .now hk (by rw [hkeys]; exact List.mem_append_right _ List.mem_cons_self)
                obtain ⟨hdate', hpair'⟩ := hstay _ (List.Sublist.refl _) hmem
                rw [hkeys]
                refine ⟨fun k' hk' => ?_, List.pairwise_append.mpr
                  ⟨hpair', List.pairwise_singleton _ _, fun k' hk' k'' hk'' => ?_⟩⟩
                · rcases List.mem_append.mp hk' with hk' | hk'
                  · exact hdate' k' hk'
                  · rw [List.mem_singleton.mp hk']
                    exact ⟨_, hnow⟩
                · rw [List.mem_singleton.mp hk'']
                  obtain ⟨n, hn⟩ := hdate k' hk'
                  exact ⟨n, _, hn.lt, hn.concat (hmem k' hk'), hnow⟩

end OrdMap
