/-
# `Lib.OrdMap` — insertion-ordered finite maps

An association list with pairwise distinct keys, where overwriting a key keeps
its position and a new key goes to the end.  Replay buffers are of this shape:
the order of the entries is the order in which their keys last appeared, and a
key has at most one entry.

Distinctness of the keys is a field of `OrdMap`, so no lemma below carries it as
a hypothesis.  The list functions (`upsert`, `lookup`, …) come first, the map
operations are these functions on the entries.
-/
import Mathlib.Data.List.Nodup
import Mathlib.Data.List.Perm.Subperm
import Mathlib.Tactic.Tauto

namespace OrdMap.Entries

variable {κ ν μ : Type} [DecidableEq κ]

/-- Overwrite the slot of `k` in place, or append a new slot. -/
def upsert (k : κ) (v : ν) : List (κ × ν) → List (κ × ν)
  | [] => [(k, v)]
  | e :: l => if e.1 = k then (k, v) :: l else e :: upsert k v l

/-- The value in the first slot of `k`. -/
def lookup (k : κ) : List (κ × ν) → Option ν
  | [] => none
  | e :: l => if e.1 = k then some e.2 else lookup k l

/-- Change the value in the first slot of `k`, if there is one. -/
def modify (k : κ) (f : ν → ν) : List (κ × ν) → List (κ × ν)
  | [] => []
  | e :: l => if e.1 = k then (e.1, f e.2) :: l else e :: modify k f l

/-- Drop every slot of `k`. -/
def remove (k : κ) (l : List (κ × ν)) : List (κ × ν) :=
  l.filter (fun e => decide (e.1 ≠ k))

theorem lookup_eq_none {k : κ} {l : List (κ × ν)} :
    lookup k l = none ↔ k ∉ l.map Prod.fst := by
  induction l with
  | nil => simp [lookup]
  | cons e l ih =>
      by_cases h : e.1 = k
      · simp [lookup, h]
      · simp [lookup, h, ih, Ne.symm h]

theorem keys_upsert (k : κ) (v : ν) (l : List (κ × ν)) :
    (upsert k v l).map Prod.fst
      = if k ∈ l.map Prod.fst then l.map Prod.fst else l.map Prod.fst ++ [k] := by
  induction l with
  | nil => simp [upsert]
  | cons e l ih =>
      by_cases h : e.1 = k
      · simp [upsert, h]
      · by_cases hk : k ∈ l.map Prod.fst
        · simp only [upsert, if_neg h, List.map_cons, ih, if_pos hk]
          rw [if_pos (List.mem_cons_of_mem _ hk)]
        · have hk' : k ∉ e.1 :: l.map Prod.fst := by
            rintro (_ | ⟨_, hm⟩)
            · exact h rfl
            · exact hk hm
          simp only [upsert, if_neg h, List.map_cons, ih, if_neg hk, if_neg hk',
            List.cons_append]

theorem keys_modify (k : κ) (f : ν → ν) (l : List (κ × ν)) :
    (modify k f l).map Prod.fst = l.map Prod.fst := by
  induction l with
  | nil => rfl
  | cons e l ih =>
      by_cases h : e.1 = k
      · simp [modify, h]
      · simp [modify, h, ih]

theorem nodup_upsert {k : κ} {v : ν} {l : List (κ × ν)}
    (h : (l.map Prod.fst).Nodup) : ((upsert k v l).map Prod.fst).Nodup := by
  rw [keys_upsert]
  split
  · exact h
  · next hk =>
      refine List.nodup_append.mpr ⟨h, List.nodup_singleton k, fun a ha b hb => ?_⟩
      rintro rfl
      exact hk (List.mem_singleton.mp hb ▸ ha)

theorem nodup_remove {k : κ} {l : List (κ × ν)}
    (h : (l.map Prod.fst).Nodup) : ((remove k l).map Prod.fst).Nodup :=
  h.sublist (List.filter_sublist.map _)

/-- A new key goes to the end. -/
theorem upsert_of_not_mem {k : κ} {v : ν} {l : List (κ × ν)} (h : k ∉ l.map Prod.fst) :
    upsert k v l = l ++ [(k, v)] := by
  induction l with
  | nil => rfl
  | cons e l ih =>
      simp only [List.map_cons, List.mem_cons, not_or] at h
      rw [upsert, if_neg (fun he => h.1 he.symm), ih h.2, List.cons_append]

theorem lookup_upsert (k k' : κ) (v : ν) (l : List (κ × ν)) :
    lookup k' (upsert k v l) = if k' = k then some v else lookup k' l := by
  induction l with
  | nil => simp [upsert, lookup, eq_comm]
  | cons e l ih =>
      by_cases h : e.1 = k
      · by_cases hk : k' = k
        · simp [upsert, lookup, h, hk]
        · simp [upsert, lookup, h, hk, Ne.symm hk]
      · by_cases hk : k' = k
        · subst hk; simp [upsert, lookup, h, ih]
        · simp [upsert, lookup, h, ih, hk]

theorem lookup_modify (k k' : κ) (f : ν → ν) (l : List (κ × ν)) :
    lookup k' (modify k f l) = if k' = k then (lookup k' l).map f else lookup k' l := by
  induction l with
  | nil => simp [modify, lookup]
  | cons e l ih =>
      by_cases h : e.1 = k
      · by_cases hk : k' = k
        · simp [modify, lookup, h, hk]
        · simp [modify, lookup, h, hk, Ne.symm hk]
      · by_cases hk : k' = k
        · subst hk; simp [modify, lookup, h, ih]
        · simp [modify, lookup, h, ih, hk]

theorem lookup_remove (k k' : κ) (l : List (κ × ν)) :
    lookup k' (remove k l) = if k' = k then none else lookup k' l := by
  induction l with
  | nil => simp [remove, lookup]
  | cons e l ih =>
      have ih' : lookup k' (l.filter (fun e => decide (e.1 ≠ k)))
          = if k' = k then none else lookup k' l := ih
      by_cases h : e.1 = k
      · rw [remove, List.filter_cons_of_neg (by simp [h]), ih']
        by_cases hk : k' = k
        · simp [hk]
        · simp [lookup, hk, h, Ne.symm hk]
      · rw [remove, List.filter_cons_of_pos (by simp [h]), lookup, ih', lookup]
        by_cases hk : k' = k
        · subst hk; simp [h]
        · simp [hk]

theorem mem_of_lookup {k : κ} {v : ν} {l : List (κ × ν)} (h : lookup k l = some v) :
    (k, v) ∈ l := by
  induction l with
  | nil => simp [lookup] at h
  | cons e l ih =>
      by_cases hk : e.1 = k
      · simp only [lookup, if_pos hk, Option.some.injEq] at h
        subst hk; subst h; exact List.mem_cons_self
      · simp only [lookup, if_neg hk] at h
        exact List.mem_cons_of_mem _ (ih h)

/-- Overwriting a slot with what it holds changes nothing. -/
theorem upsert_of_lookup {k : κ} {v : ν} {l : List (κ × ν)} (h : lookup k l = some v) :
    upsert k v l = l := by
  induction l with
  | nil => cases h
  | cons e l ih =>
      rw [lookup] at h
      rw [upsert]
      by_cases hk : e.1 = k
      · rw [if_pos hk] at h ⊢
        rw [← hk, ← Option.some.inj h]
      · rw [if_neg hk] at h ⊢
        rw [ih h]

theorem lookup_of_mem {k : κ} {v : ν} {l : List (κ × ν)}
    (hnd : (l.map Prod.fst).Nodup) (h : (k, v) ∈ l) : lookup k l = some v := by
  induction l with
  | nil => exact absurd h List.not_mem_nil
  | cons e l ih =>
      simp only [List.map_cons, List.nodup_cons] at hnd
      rcases List.mem_cons.mp h with rfl | h
      · simp [lookup]
      · have hne : e.1 ≠ k := by
          rintro rfl
          exact hnd.1 (List.mem_map.mpr ⟨(e.1, v), h, rfl⟩)
        rw [lookup, if_neg hne]
        exact ih hnd.2 h

/-- Two lists with the same keys in the same order, all distinct, and the same
lookups are equal. -/
theorem ext {l l' : List (κ × ν)} (hnd : (l.map Prod.fst).Nodup)
    (hk : l.map Prod.fst = l'.map Prod.fst)
    (hl : ∀ k ∈ l.map Prod.fst, lookup k l = lookup k l') : l = l' := by
  induction l generalizing l' with
  | nil =>
      exact (List.map_eq_nil_iff.mp hk.symm).symm
  | cons e l ih =>
      match l', hk with
      | e' :: l', hk =>
          simp only [List.map_cons, List.cons.injEq] at hk
          simp only [List.map_cons, List.nodup_cons] at hnd
          have hhead := hl e.1 (by simp)
          simp only [lookup, if_true, hk.1, Option.some.injEq] at hhead
          have htail : l = l' := by
            refine ih hnd.2 hk.2 (fun k hkm => ?_)
            have hne : e.1 ≠ k := by rintro rfl; exact hnd.1 hkm
            have := hl k (by simpa using Or.inr (by simpa using hkm))
            rwa [lookup, if_neg hne, lookup, if_neg (hk.1 ▸ hne)] at this
          exact List.cons_eq_cons.mpr ⟨Prod.ext hk.1 hhead, htail⟩

theorem upsert_map (f : ν → μ) (k : κ) (v : ν) (l : List (κ × ν)) :
    (upsert k v l).map (Prod.map id f) = upsert k (f v) (l.map (Prod.map id f)) := by
  induction l with
  | nil => rfl
  | cons e l ih =>
      by_cases h : e.1 = k
      · simp [upsert, h]
      · simp [upsert, h, ih]

theorem remove_map (f : ν → μ) (k : κ) (l : List (κ × ν)) :
    (remove k l).map (Prod.map id f) = remove k (l.map (Prod.map id f)) := by
  simp [remove, List.filter_map, Function.comp_def]

theorem modify_map {f : ν → μ} {g : ν → ν} {g' : μ → μ} (h : ∀ v, f (g v) = g' (f v)) (k : κ)
    (l : List (κ × ν)) :
    (modify k g l).map (Prod.map id f) = modify k g' (l.map (Prod.map id f)) := by
  induction l with
  | nil => rfl
  | cons e l ih =>
      by_cases hk : e.1 = k
      · simp [modify, hk, h]
      · simp [modify, hk, ih]

theorem lookup_map (f : ν → μ) (k : κ) (l : List (κ × ν)) :
    lookup k (l.map (Prod.map id f)) = (lookup k l).map f := by
  induction l with
  | nil => rfl
  | cons e l ih =>
      by_cases h : e.1 = k
      · simp [lookup, h]
      · simp [lookup, h, ih]

theorem upsert_subperm (k : κ) (v : ν) (l : List (κ × ν)) :
    ((upsert k v l).map Prod.snd).Subperm (v :: l.map Prod.snd) := by
  induction l with
  | nil => exact List.Subperm.refl _
  | cons e l ih =>
      by_cases h : e.1 = k
      · rw [upsert, if_pos h]
        exact ((List.sublist_cons_self e.2 (l.map Prod.snd)).cons_cons v).subperm
      · rw [upsert, if_neg h]
        exact ((List.subperm_cons e.2).mpr ih).trans (List.Perm.swap v e.2 _).subperm

end OrdMap.Entries

/-- A finite map that remembers the order in which its keys were first inserted. -/
structure OrdMap (κ ν : Type) where
  entries : List (κ × ν)
  nodup : (entries.map Prod.fst).Nodup
deriving DecidableEq

namespace OrdMap

variable {κ ν μ : Type}

def empty : OrdMap κ ν := ⟨[], List.nodup_nil⟩

instance : Inhabited (OrdMap κ ν) := ⟨empty⟩

/-- The keys, in order. -/
def keys (m : OrdMap κ ν) : List κ := m.entries.map Prod.fst

/-- The values, in the order of their keys. -/
def values (m : OrdMap κ ν) : List ν := m.entries.map Prod.snd

def map (f : ν → μ) (m : OrdMap κ ν) : OrdMap κ μ :=
  ⟨m.entries.map (Prod.map id f), by simpa [Function.comp_def] using m.nodup⟩

@[simp] theorem map_empty (f : ν → μ) : (empty : OrdMap κ ν).map f = empty := rfl

@[simp] theorem keys_map (f : ν → μ) (m : OrdMap κ ν) : (m.map f).keys = m.keys := by
  simp [keys, map, Function.comp_def]

@[simp] theorem values_map (f : ν → μ) (m : OrdMap κ ν) : (m.map f).values = m.values.map f := by
  simp [values, map, Function.comp_def]

theorem ext_entries {m m' : OrdMap κ ν} (h : m.entries = m'.entries) : m = m' := by
  cases m; cases m'; cases h; rfl

variable [DecidableEq κ]

def get? (m : OrdMap κ ν) (k : κ) : Option ν := Entries.lookup k m.entries

def contains (m : OrdMap κ ν) (k : κ) : Bool := decide (k ∈ m.keys)

def insert (m : OrdMap κ ν) (k : κ) (v : ν) : OrdMap κ ν :=
  ⟨Entries.upsert k v m.entries, Entries.nodup_upsert m.nodup⟩

def erase (m : OrdMap κ ν) (k : κ) : OrdMap κ ν :=
  ⟨Entries.remove k m.entries, Entries.nodup_remove m.nodup⟩

def adjust (m : OrdMap κ ν) (k : κ) (f : ν → ν) : OrdMap κ ν :=
  ⟨Entries.modify k f m.entries, by rw [Entries.keys_modify]; exact m.nodup⟩

/-- Insert a list of bindings, first to last. -/
def insertAll (m : OrdMap κ ν) (l : List (κ × ν)) : OrdMap κ ν :=
  l.foldl (fun m e => m.insert e.1 e.2) m

/-- Erase a list of keys. -/
def eraseAll (m : OrdMap κ ν) (ks : List κ) : OrdMap κ ν := ks.foldl erase m

/-! ## Lookups -/

@[simp] theorem get?_empty (k : κ) : (empty : OrdMap κ ν).get? k = none := rfl

@[simp] theorem get?_insert (m : OrdMap κ ν) (k k' : κ) (v : ν) :
    (m.insert k v).get? k' = if k' = k then some v else m.get? k' :=
  Entries.lookup_upsert k k' v m.entries

@[simp] theorem get?_erase (m : OrdMap κ ν) (k k' : κ) :
    (m.erase k).get? k' = if k' = k then none else m.get? k' :=
  Entries.lookup_remove k k' m.entries

@[simp] theorem get?_adjust (m : OrdMap κ ν) (k k' : κ) (f : ν → ν) :
    (m.adjust k f).get? k' = if k' = k then (m.get? k').map f else m.get? k' :=
  Entries.lookup_modify k k' f m.entries

@[simp] theorem get?_map (f : ν → μ) (m : OrdMap κ ν) (k : κ) :
    (m.map f).get? k = (m.get? k).map f :=
  Entries.lookup_map f k m.entries

theorem mem_entries_iff {m : OrdMap κ ν} {k : κ} {v : ν} :
    (k, v) ∈ m.entries ↔ m.get? k = some v :=
  ⟨Entries.lookup_of_mem m.nodup, Entries.mem_of_lookup⟩

theorem mem_values {m : OrdMap κ ν} {v : ν} : v ∈ m.values ↔ ∃ k, m.get? k = some v := by
  constructor
  · intro h
    obtain ⟨⟨k, v'⟩, he, rfl⟩ := List.mem_map.mp h
    exact ⟨k, mem_entries_iff.mp he⟩
  · rintro ⟨k, hk⟩
    exact List.mem_map.mpr ⟨(k, v), mem_entries_iff.mpr hk, rfl⟩

theorem get?_eq_none {m : OrdMap κ ν} {k : κ} : m.get? k = none ↔ k ∉ m.keys :=
  Entries.lookup_eq_none

theorem contains_iff {m : OrdMap κ ν} {k : κ} :
    m.contains k = true ↔ ∃ v, m.get? k = some v := by
  rw [contains, decide_eq_true_iff, ← Option.isSome_iff_exists,
    ← Option.ne_none_iff_isSome, ne_eq, get?_eq_none, not_not]

@[simp] theorem contains_map (f : ν → μ) (m : OrdMap κ ν) (k : κ) :
    (m.map f).contains k = m.contains k := by
  rw [contains, keys_map, contains]

/-! ## Keys -/

theorem keys_insert (m : OrdMap κ ν) (k : κ) (v : ν) :
    (m.insert k v).keys = if k ∈ m.keys then m.keys else m.keys ++ [k] :=
  Entries.keys_upsert k v m.entries

theorem mem_keys_insert {m : OrdMap κ ν} {k k' : κ} {v : ν} :
    k' ∈ (m.insert k v).keys ↔ k' = k ∨ k' ∈ m.keys := by
  rw [keys_insert]
  split
  · next h => exact ⟨Or.inr, fun h' => h'.elim (fun he => he ▸ h) id⟩
  · rw [List.mem_append, List.mem_singleton, or_comm]

theorem mem_keys_erase {m : OrdMap κ ν} {k k' : κ} :
    k' ∈ (m.erase k).keys ↔ k' ≠ k ∧ k' ∈ m.keys := by
  have h := get?_erase m k k'
  by_cases hk : k' = k
  · rw [if_pos hk, get?_eq_none] at h
    exact ⟨fun hm => absurd hm h, fun hm => absurd hk hm.1⟩
  · rw [if_neg hk] at h
    rw [← not_iff_not, ← get?_eq_none, h, get?_eq_none]
    simp [hk]

/-! ## Equality -/

theorem ext_get? {m m' : OrdMap κ ν} (hk : m.keys = m'.keys)
    (hg : ∀ k, m.get? k = m'.get? k) : m = m' :=
  ext_entries (Entries.ext m.nodup hk (fun k _ => hg k))

theorem erase_eq_self {m : OrdMap κ ν} {k : κ} : m.erase k = m ↔ k ∉ m.keys := by
  constructor
  · intro h
    rw [← get?_eq_none, ← h]; simp
  · intro h
    refine ext_entries (List.filter_eq_self.mpr (fun e he => ?_))
    simp only [ne_eq, decide_eq_true_eq]
    rintro rfl
    exact h (List.mem_map_of_mem he)

theorem mem_keys_eraseAll {m : OrdMap κ ν} {ks : List κ} {k : κ} :
    k ∈ (m.eraseAll ks).keys ↔ k ∉ ks ∧ k ∈ m.keys := by
  induction ks generalizing m with
  | nil => simp [eraseAll]
  | cons k' ks ih =>
      rw [show m.eraseAll (k' :: ks) = (m.erase k').eraseAll ks from rfl, ih, mem_keys_erase]
      simp only [List.mem_cons, not_or]
      constructor
      · rintro ⟨h₁, h₂, h₃⟩; exact ⟨⟨h₂, h₁⟩, h₃⟩
      · rintro ⟨⟨h₂, h₁⟩, h₃⟩; exact ⟨h₁, h₂, h₃⟩

theorem eraseAll_eq_self {m : OrdMap κ ν} {ks : List κ} :
    m.eraseAll ks = m ↔ ∀ k ∈ ks, k ∉ m.keys := by
  constructor
  · intro h k hk hm
    exact (mem_keys_eraseAll.mp (h.symm ▸ hm)).1 hk
  · intro h
    induction ks with
    | nil => rfl
    | cons k ks ih =>
        rw [show m.eraseAll (k :: ks) = (m.erase k).eraseAll ks from rfl,
          erase_eq_self.mpr (h k List.mem_cons_self)]
        exact ih (fun k' hk' => h k' (List.mem_cons_of_mem _ hk'))

theorem get?_of_eraseAll {m : OrdMap κ ν} {ks : List κ} {k : κ} {v : ν}
    (h : (m.eraseAll ks).get? k = some v) : m.get? k = some v := by
  induction ks generalizing m with
  | nil => exact h
  | cons k' ks ih =>
      have h' := ih (m := m.erase k') h
      rw [get?_erase] at h'
      split at h'
      · exact nomatch h'
      · exact h'

/-! ## Mapping the values -/

@[simp] theorem map_insert (f : ν → μ) (m : OrdMap κ ν) (k : κ) (v : ν) :
    (m.insert k v).map f = (m.map f).insert k (f v) :=
  ext_entries (Entries.upsert_map f k v m.entries)

@[simp] theorem map_erase (f : ν → μ) (m : OrdMap κ ν) (k : κ) :
    (m.erase k).map f = (m.map f).erase k :=
  ext_entries (Entries.remove_map f k m.entries)

theorem map_adjust {f : ν → μ} {g : ν → ν} {g' : μ → μ} (h : ∀ v, f (g v) = g' (f v))
    (m : OrdMap κ ν) (k : κ) : (m.adjust k g).map f = (m.map f).adjust k g' :=
  ext_entries (Entries.modify_map h k m.entries)

@[simp] theorem map_insertAll (f : ν → μ) (l : List (κ × ν)) (m : OrdMap κ ν) :
    (m.insertAll l).map f = (m.map f).insertAll (l.map (Prod.map id f)) := by
  induction l generalizing m with
  | nil => rfl
  | cons e l ih =>
      have h := ih (m.insert e.1 e.2)
      rw [map_insert] at h
      exact h

@[simp] theorem map_eraseAll (f : ν → μ) (ks : List κ) (m : OrdMap κ ν) :
    (m.eraseAll ks).map f = (m.map f).eraseAll ks := by
  induction ks generalizing m with
  | nil => rfl
  | cons k ks ih =>
      have h := ih (m.erase k)
      rw [map_erase] at h
      exact h

/-! ## Inserting a list of bindings -/

/-- The value bound to `k` last in a list of bindings. -/
def lastFor (k : κ) : List (κ × ν) → Option ν
  | [] => none
  | e :: l => (lastFor k l).or (if e.1 = k then some e.2 else none)

@[simp] theorem insertAll_nil (m : OrdMap κ ν) : m.insertAll [] = m := rfl

@[simp] theorem insertAll_cons (m : OrdMap κ ν) (e : κ × ν) (l : List (κ × ν)) :
    m.insertAll (e :: l) = (m.insert e.1 e.2).insertAll l := rfl

theorem insertAll_append (m : OrdMap κ ν) (l l' : List (κ × ν)) :
    m.insertAll (l ++ l') = (m.insertAll l).insertAll l' :=
  List.foldl_append

theorem get?_insertAll (m : OrdMap κ ν) (l : List (κ × ν)) (k : κ) :
    (m.insertAll l).get? k = (lastFor k l).or (m.get? k) := by
  induction l generalizing m with
  | nil => rfl
  | cons e l ih =>
      rw [insertAll_cons, ih, get?_insert, lastFor, Option.or_assoc]
      by_cases h : k = e.1
      · simp [h]
      · simp [h, Ne.symm h]

theorem mem_keys_insertAll {m : OrdMap κ ν} {l : List (κ × ν)} {k : κ} :
    k ∈ (m.insertAll l).keys ↔ k ∈ l.map Prod.fst ∨ k ∈ m.keys := by
  induction l generalizing m with
  | nil => simp
  | cons e l ih =>
      rw [insertAll_cons, ih, mem_keys_insert, List.map_cons, List.mem_cons]
      tauto

/-- The keys `ks`, then the new ones of `ks'`, each where it comes first. -/
def withKeys (ks ks' : List κ) : List κ := ks ++ (ks'.filter (fun k => decide (k ∉ ks))).eraseDups

@[simp] theorem withKeys_nil (ks : List κ) : withKeys ks [] = ks := List.append_nil ks

theorem withKeys_cons (ks ks' : List κ) (k : κ) :
    withKeys ks (k :: ks') = withKeys (if k ∈ ks then ks else ks ++ [k]) ks' := by
  unfold withKeys
  split
  · next h => rw [List.filter_cons_of_neg (by simpa using h)]
  · next h =>
      have hfilter : (ks'.filter (fun k => decide (k ∉ ks))).filter (fun b => !b == k) =
          ks'.filter (fun b => decide (b ∉ ks ++ [k])) := by
        rw [List.filter_filter]
        refine List.filter_congr (fun b _ => ?_)
        by_cases hb : b ∈ ks <;> by_cases hk : b = k <;> simp [hb, hk]
      rw [List.filter_cons_of_pos (by simpa using h), List.eraseDups_cons, hfilter,
        List.append_assoc, List.singleton_append]

theorem keys_insertAll (m : OrdMap κ ν) (l : List (κ × ν)) :
    (m.insertAll l).keys = withKeys m.keys (l.map Prod.fst) := by
  induction l generalizing m with
  | nil => exact (withKeys_nil _).symm
  | cons e l ih => rw [insertAll_cons, ih, keys_insert, List.map_cons, withKeys_cons]

theorem mem_of_lastFor {k : κ} {v : ν} {l : List (κ × ν)} (h : lastFor k l = some v) :
    (k, v) ∈ l := by
  induction l with
  | nil => simp [lastFor] at h
  | cons e l ih =>
      rw [lastFor] at h
      cases hl : lastFor k l with
      | some w =>
          rw [hl, Option.some_or] at h
          exact List.mem_cons_of_mem _ (ih (hl.trans h))
      | none =>
          rw [hl, Option.none_or] at h
          split at h
          · next hk =>
              have hv : e.2 = v := Option.some.inj h
              exact hk ▸ hv ▸ List.mem_cons_self
          · exact absurd h (by simp)

theorem lastFor_map (f : ν → μ) (k : κ) (l : List (κ × ν)) :
    lastFor k (l.map (Prod.map id f)) = (lastFor k l).map f := by
  induction l with
  | nil => rfl
  | cons e l ih =>
      rw [List.map_cons, lastFor, lastFor, ih, Option.map_or]
      by_cases hk : e.1 = k <;> simp [hk]

theorem lastFor_isSome_of_mem {k : κ} {l : List (κ × ν)} (h : k ∈ l.map Prod.fst) :
    ∃ v, lastFor k l = some v := by
  induction l with
  | nil => exact absurd h List.not_mem_nil
  | cons e l ih =>
      rw [lastFor]
      cases hl : lastFor k l with
      | some w => exact ⟨w, rfl⟩
      | none =>
          have hk : e.1 = k := by
            rcases List.mem_cons.mp h with h | h
            · exact h.symm
            · obtain ⟨v, hv⟩ := ih h
              exact absurd (hl.symm.trans hv) (by simp)
          exact ⟨e.2, by simp [hk]⟩

/-- In a list of bindings sorted by `f`, the last one of a key has the largest `f`. -/
theorem le_lastFor {l : List (κ × ν)} {f : ν → Nat}
    (hs : l.Pairwise (fun a b => f a.2 < f b.2)) {k : κ} {v w : ν} (hv : (k, v) ∈ l)
    (hw : lastFor k l = some w) : f v ≤ f w := by
  induction l with
  | nil => exact absurd hv List.not_mem_nil
  | cons e l ih =>
      obtain ⟨he, hs⟩ := List.pairwise_cons.mp hs
      rw [lastFor] at hw
      cases hl : lastFor k l with
      | some u =>
          rw [hl, Option.some_or] at hw
          obtain rfl := Option.some.inj hw
          rcases List.mem_cons.mp hv with rfl | hv
          · exact Nat.le_of_lt (he _ (mem_of_lastFor hl))
          · exact ih hs hv hl
      | none =>
          rw [hl, Option.none_or] at hw
          rcases List.mem_cons.mp hv with rfl | hv
          · rw [if_pos rfl] at hw
            exact Nat.le_of_eq (congrArg f (Option.some.inj hw))
          · obtain ⟨u, hu⟩ := lastFor_isSome_of_mem (List.mem_map_of_mem (f := Prod.fst) hv)
            exact nomatch hl.symm.trans hu

theorem keys_insertAll_of_subset {m : OrdMap κ ν} {l : List (κ × ν)}
    (h : ∀ e ∈ l, e.1 ∈ m.keys) : (m.insertAll l).keys = m.keys := by
  induction l generalizing m with
  | nil => rfl
  | cons e l ih =>
      have he : (m.insert e.1 e.2).keys = m.keys := by
        rw [keys_insert, if_pos (h e List.mem_cons_self)]
      rw [insertAll_cons, ih (fun e' he' => he ▸ h e' (List.mem_cons_of_mem _ he')), he]

/-- Bindings of distinct new keys are appended as they come. -/
theorem entries_insertAll {m : OrdMap κ ν} {l : List (κ × ν)}
    (h : (m.keys ++ l.map Prod.fst).Nodup) : (m.insertAll l).entries = m.entries ++ l := by
  induction l generalizing m with
  | nil => exact (List.append_nil _).symm
  | cons e l ih =>
      have hk : e.1 ∉ m.keys := fun hm =>
        (List.nodup_append.mp h).2.2 e.1 hm e.1 List.mem_cons_self rfl
      have he : (m.insert e.1 e.2).entries = m.entries ++ [e] :=
        Entries.upsert_of_not_mem hk
      rw [insertAll_cons, ih (by rw [keys_insert, if_neg hk]; simpa using h), he]
      simp

theorem get?_foldl_adjust_of_notMem {α : Type*} {f : α → κ} {g : α → ν → ν} {k : κ} :
    ∀ {l : List α} {m : OrdMap κ ν}, (∀ a ∈ l, f a ≠ k) →
      (l.foldl (fun m a => m.adjust (f a) (g a)) m).get? k = m.get? k := by
  intro l
  induction l with
  | nil => exact fun _ => rfl
  | cons a l ih =>
      intro m h
      obtain ⟨ha, hl⟩ := List.forall_mem_cons.mp h
      rw [List.foldl_cons, ih hl, get?_adjust, if_neg (Ne.symm ha)]

/-- Bindings adjusted once each. -/
theorem get?_foldl_adjust {α : Type*} {f : α → κ} {g : α → ν → ν} {a : α} :
    ∀ {l : List α} {m : OrdMap κ ν}, (l.map f).Nodup → a ∈ l →
      (l.foldl (fun m a => m.adjust (f a) (g a)) m).get? (f a) = (m.get? (f a)).map (g a) := by
  intro l
  induction l with
  | nil => exact fun _ h => nomatch h
  | cons b l ih =>
      intro m hnd ha
      obtain ⟨hb, hnd⟩ := List.nodup_cons.mp hnd
      rw [List.foldl_cons]
      rcases List.mem_cons.mp ha with rfl | ha
      · have hother : ∀ b ∈ l, f b ≠ f a := fun b h he => hb (he ▸ List.mem_map_of_mem h)
        rw [get?_foldl_adjust_of_notMem hother, get?_adjust, if_pos rfl]
      · have hne : f a ≠ f b := fun he => hb (he ▸ List.mem_map_of_mem ha)
        rw [ih hnd ha, get?_adjust, if_neg hne]

/-- What all adjustments keep of a binding. -/
theorem get?_foldl_adjust_keeps {α : Type*} {f : α → κ} {g : α → ν → ν} {k : κ} {v : ν}
    (hkeep : ∀ a, g a v = v) : ∀ {l : List α} {m : OrdMap κ ν}, m.get? k = some v →
      (l.foldl (fun m a => m.adjust (f a) (g a)) m).get? k = some v := by
  intro l
  induction l with
  | nil => exact fun h => h
  | cons a l ih =>
      intro m h
      refine ih ?_
      rw [get?_adjust]
      split
      · rw [h, Option.map_some, hkeep]
      · exact h

theorem values_insert_of_notMem {m : OrdMap κ ν} {k : κ} (v : ν) (h : m.get? k = none) :
    (m.insert k v).values = m.values ++ [v] := by
  show (Entries.upsert k v m.entries).map Prod.snd = _
  rw [Entries.upsert_of_not_mem (get?_eq_none.mp h), List.map_append]
  rfl

/-- A value that is not selected selects nothing new. -/
theorem filter_values_insert {p : ν → Bool} {v : ν} (m : OrdMap κ ν) (k : κ) (hv : p v = false) :
    ((m.insert k v).values.filter p).Sublist (m.values.filter p) := by
  show (((Entries.upsert k v m.entries).map Prod.snd).filter p).Sublist
    ((m.entries.map Prod.snd).filter p)
  generalize m.entries = l
  induction l with
  | nil => simp [Entries.upsert, hv]
  | cons e l ih =>
      rw [Entries.upsert]
      split
      · rw [List.map_cons, List.map_cons, List.filter_cons_of_neg (by simp [hv])]
        exact (List.sublist_cons_self _ _).filter p
      · rw [List.map_cons, List.map_cons, List.filter_cons, List.filter_cons]
        split
        · exact ih.cons_cons e.2
        · exact ih

theorem values_insert_subperm (m : OrdMap κ ν) (k : κ) (v : ν) :
    (m.insert k v).values.Subperm (v :: m.values) :=
  Entries.upsert_subperm k v m.entries

/-- Inserting may drop values, and adds those of the bindings at most. -/
theorem values_insertAll_subperm (m : OrdMap κ ν) (l : List (κ × ν)) :
    (m.insertAll l).values.Subperm (m.values ++ l.map Prod.snd) := by
  induction l generalizing m with
  | nil => rw [insertAll_nil, List.map_nil, List.append_nil]
  | cons e l ih =>
      have h := (List.subperm_append_right (l.map Prod.snd)).mpr (m.values_insert_subperm e.1 e.2)
      exact (ih (m.insert e.1 e.2)).trans (h.trans List.perm_middle.symm.subperm)

theorem values_eraseAll_sublist (m : OrdMap κ ν) (ks : List κ) :
    (m.eraseAll ks).values.Sublist m.values := by
  induction ks generalizing m with
  | nil => exact List.Sublist.refl _
  | cons k ks ih => exact (ih (m.erase k)).trans (List.filter_sublist.map Prod.snd)

theorem insertAll_entries (m : OrdMap κ ν) : empty.insertAll m.entries = m :=
  ext_entries (entries_insertAll (by simpa [keys, empty] using m.nodup))

/-- Inserting changes nothing iff each key's last binding is already there. -/
theorem insertAll_eq_self {m : OrdMap κ ν} {l : List (κ × ν)} :
    m.insertAll l = m ↔ ∀ k v, lastFor k l = some v → m.get? k = some v := by
  constructor
  · intro h k v hv
    rw [← h, get?_insertAll, hv]; rfl
  · intro h
    have hsub : ∀ e ∈ l, e.1 ∈ m.keys := by
      intro e he
      by_contra hk
      obtain ⟨v, hv⟩ := lastFor_isSome_of_mem (List.mem_map_of_mem (f := Prod.fst) he)
      exact absurd ((get?_eq_none.mpr hk).symm.trans (h e.1 v hv)) (by simp)
    refine ext_get? (keys_insertAll_of_subset hsub) (fun k => ?_)
    rw [get?_insertAll]
    cases hl : lastFor k l with
    | none => rfl
    | some v => rw [h k v hl]; rfl

/-! ## What all bindings have -/

/-- Every binding has `P`. -/
def All (P : κ → ν → Prop) (m : OrdMap κ ν) : Prop := ∀ k v, m.get? k = some v → P k v

theorem all_empty {P : κ → ν → Prop} : All P empty := by
  intro k v h
  cases h

theorem All.of_mem {P : κ → ν → Prop} {m : OrdMap κ ν} (h : All P m) {e : κ × ν}
    (he : e ∈ m.entries) : P e.1 e.2 :=
  h e.1 e.2 (mem_entries_iff.mp he)

theorem All.insert {P : κ → ν → Prop} {m : OrdMap κ ν} {k : κ} {v : ν} (h : All P m) (hv : P k v) :
    All P (m.insert k v) := by
  intro k' v' h'
  rw [get?_insert] at h'
  split at h'
  · next hk =>
      rw [hk, ← Option.some.inj h']
      exact hv
  · exact h k' v' h'

theorem All.erase {P : κ → ν → Prop} {m : OrdMap κ ν} (h : All P m) (k : κ) :
    All P (m.erase k) := by
  intro k' v' h'
  rw [get?_erase] at h'
  split at h'
  · cases h'
  · exact h k' v' h'

theorem All.adjust {P : κ → ν → Prop} {m : OrdMap κ ν} {k : κ} {f : ν → ν} (h : All P m)
    (hf : ∀ v, P k v → P k (f v)) : All P (m.adjust k f) := by
  intro k' v' h'
  rw [get?_adjust] at h'
  split at h'
  · next hk =>
      obtain ⟨v, hv, rfl⟩ := Option.map_eq_some_iff.mp h'
      rw [hk]
      exact hf v (hk ▸ h k' v hv)
  · exact h k' v' h'

theorem All.insertAll {P : κ → ν → Prop} {l : List (κ × ν)} (hl : ∀ e ∈ l, P e.1 e.2) :
    ∀ {m : OrdMap κ ν}, All P m → All P (m.insertAll l) := by
  induction l with
  | nil => exact id
  | cons e l ih =>
      intro m h
      obtain ⟨he, hl⟩ := List.forall_mem_cons.mp hl
      exact ih hl (h.insert he)

end OrdMap
