/-
# `Lib.Framing` — incremental decoders of framed streams

A `Grammar` says what stands at the head of a stream: the start of an item that
is still incomplete, a complete item and what follows it, or something that no
continuation can turn into an item.  `Grammar.parse` is the meaning of a whole
stream: its complete items, in order.

A `Reader` meets the stream in chunks of any size.  It decodes at most one item
per poll and may move the first `hold` symbols of an incomplete item out of its
buffer into its own state (`held`), as decoders do with a complete header whose
body has not arrived.  `feed_parse` says that the chunks and the holding never
show in the decoded items, as long as buffer and `held` stay together: the two
are one value, `content`.
-/
import Mathlib.Data.List.Basic

namespace Framing

variable {β φ : Type}

/-- What stands at the head of a stream. -/
inductive Scan (β φ : Type) where
  /-- the stream is a proper prefix of an item -/
  | more
  | item (x : φ) (rest : List β)
  | bad

/-- A prefix-stable way to cut items off the head of a stream. -/
structure Grammar (β φ : Type) where
  scan : List β → Scan β φ
  item_append : ∀ {b : List β} {x : φ} {r : List β} (c : List β),
    scan b = .item x r → scan (b ++ c) = .item x (r ++ c)
  bad_append : ∀ {b : List β} (c : List β), scan b = .bad → scan (b ++ c) = .bad
  item_shrinks : ∀ {b : List β} {x : φ} {r : List β},
    scan b = .item x r → r.length < b.length

/-- The complete items of a stream, the symbols after them, and whether those
symbols cannot start an item. -/
structure Parse (β φ : Type) where
  items : List φ
  rest : List β
  bad : Bool

def Parse.prepend (xs : List φ) (p : Parse β φ) : Parse β φ := { p with items := xs ++ p.items }

namespace Grammar

variable (g : Grammar β φ)

/-- `parse` with a bound on the number of items. -/
def parseUpTo : Nat → List β → Parse β φ
  | 0, b => ⟨[], b, false⟩
  | n + 1, b =>
      match g.scan b with
      | .more => ⟨[], b, false⟩
      | .bad => ⟨[], b, true⟩
      | .item x r => (parseUpTo n r).prepend [x]

/-- All of a stream.  Items are not empty, so the bound is never met. -/
def parse (b : List β) : Parse β φ := g.parseUpTo (b.length + 1) b

variable {g}

theorem parseUpTo_eq {n m : Nat} {b : List β} (hn : b.length < n) (hm : b.length < m) :
    g.parseUpTo n b = g.parseUpTo m b := by
  induction n generalizing m b with
  | zero => omega
  | succ n ih =>
      match m, hm with
      | m + 1, hm =>
          simp only [parseUpTo]
          cases hs : g.scan b with
          | more => rfl
          | bad => rfl
          | item x r =>
              have hlt := g.item_shrinks hs
              exact congrArg (Parse.prepend [x]) (ih (by omega) (by omega))

theorem parse_more {b : List β} (h : g.scan b = .more) : g.parse b = ⟨[], b, false⟩ := by
  simp [parse, parseUpTo, h]

theorem parse_bad {b : List β} (h : g.scan b = .bad) : g.parse b = ⟨[], b, true⟩ := by
  simp [parse, parseUpTo, h]

theorem parse_item {b r : List β} {x : φ} (h : g.scan b = .item x r) :
    g.parse b = (g.parse r).prepend [x] := by
  have hlt := g.item_shrinks h
  rw [parse, parseUpTo, h]
  exact congrArg (Parse.prepend [x]) (parseUpTo_eq hlt (by omega))

/-- An item at the head is what makes the first item. -/
theorem parse_items_eq_nil {b : List β} :
    (g.parse b).items = [] ↔ ∀ x r, g.scan b ≠ .item x r := by
  cases h : g.scan b with
  | more => simp [parse_more h]
  | bad => simp [parse_bad h]
  | item x r => simp [parse_item h, Parse.prepend]

/-- Every item of a stream was cut off the head of some end of it. -/
theorem exists_scan_of_mem_parse {x : φ} : ∀ (n : Nat) (b : List β), b.length < n →
    x ∈ (g.parse b).items → ∃ b' r, b'.length ≤ b.length ∧ g.scan b' = .item x r := by
  intro n
  induction n with
  | zero => intro b hb; omega
  | succ n ih =>
      intro b hb hx
      cases hs : g.scan b with
      | more => rw [parse_more hs] at hx; exact nomatch hx
      | bad => rw [parse_bad hs] at hx; exact nomatch hx
      | item y r =>
          have hlt := g.item_shrinks hs
          rw [parse_item hs] at hx
          rcases List.mem_cons.mp hx with rfl | hx
          · exact ⟨b, r, Nat.le_refl _, hs⟩
          · obtain ⟨b', r', hle, hb'⟩ := ih r (by omega) hx
            exact ⟨b', r', by omega, hb'⟩

/-- `g'` sees the items where `g` does, whatever it makes of them. -/
structure Refines {ψ : Type} (g : Grammar β φ) (g' : Grammar β ψ) : Prop where
  more : ∀ {b}, g.scan b = .more → g'.scan b = .more
  item : ∀ {b x r}, g.scan b = .item x r → ∃ y, g'.scan b = .item y r

end Grammar

/-! ## Readers -/

/-- A decoder between two polls: the symbols it holds in its own state, and the
read buffer that follows them. -/
structure Reader (β : Type) where
  held : List β
  buf : List β
deriving DecidableEq

namespace Reader

def fresh (b : List β) : Reader β := ⟨[], b⟩

/-- The undecoded part of the stream received so far. -/
def content (d : Reader β) : List β := d.held ++ d.buf

@[simp] theorem content_fresh (b : List β) : (fresh b).content = b := rfl

end Reader

/-- What polls have produced: the items, the reader they leave, and whether the
last poll failed. -/
structure Fed (β φ : Type) where
  items : List φ
  reader : Reader β
  failed : Bool

variable (g : Grammar β φ) (hold : List β → Nat)

/-- The reader after a chunk that completes nothing: what it holds already stays as
it is, otherwise `hold` says how much of the incomplete item leaves the buffer. -/
def Reader.extend (d : Reader β) (chunk : List β) : Reader β :=
  if d.held = [] then
    ⟨(d.buf ++ chunk).take (hold (d.buf ++ chunk)), (d.buf ++ chunk).drop (hold (d.buf ++ chunk))⟩
  else ⟨d.held, d.buf ++ chunk⟩

/-- One poll: take in a chunk (`[]` when the poll is answered from the buffer)
and decode. -/
def poll (d : Reader β) (chunk : List β) : Fed β φ :=
  match g.scan (d.content ++ chunk) with
  | .item x r => ⟨[x], .fresh r, false⟩
  | .bad => ⟨[], ⟨d.held, d.buf ++ chunk⟩, true⟩
  | .more => ⟨[], d.extend hold chunk, false⟩

/-- Polls with the given chunks; a failed poll is the last one. -/
def feed : Reader β → List (List β) → Fed β φ
  | d, [] => ⟨[], d, false⟩
  | d, c :: cs =>
      let p := poll g hold d c
      if p.failed then p
      else
        let r := feed p.reader cs
        { r with items := p.items ++ r.items }

/-- Decode until nothing more comes out. -/
def drainUpTo : Nat → Reader β → List φ
  | 0, _ => []
  | n + 1, d =>
      match poll g hold d [] with
      | ⟨[], _, _⟩ => []
      | ⟨x :: xs, d', _⟩ => (x :: xs) ++ drainUpTo n d'

def drain (d : Reader β) : List φ := drainUpTo g hold (d.content.length + 1) d

variable {g hold}

theorem poll_item {d : Reader β} {chunk r : List β} {x : φ}
    (h : g.scan (d.content ++ chunk) = .item x r) :
    poll g hold d chunk = ⟨[x], .fresh r, false⟩ := by
  simp only [poll, h]

theorem poll_bad {d : Reader β} {chunk : List β}
    (h : g.scan (d.content ++ chunk) = .bad) :
    poll g hold d chunk = ⟨[], ⟨d.held, d.buf ++ chunk⟩, true⟩ := by
  simp only [poll, h]

theorem poll_more {d : Reader β} {chunk : List β}
    (h : g.scan (d.content ++ chunk) = .more) :
    poll g hold d chunk = ⟨[], d.extend hold chunk, false⟩ := by
  simp only [poll, h]

/-- A poll that finds nothing complete moves no symbol out of `content`. -/
@[simp] theorem Reader.content_extend (d : Reader β) (chunk : List β) :
    (d.extend hold chunk).content = d.content ++ chunk := by
  unfold extend
  split
  · next h => simp [content, h]
  · simp [content]

/-- What a poll takes off the stream, and what it leaves of it. -/
theorem poll_parse {d d' : Reader β} {chunk : List β} {xs : List φ} {failed : Bool}
    (h : poll g hold d chunk = ⟨xs, d', failed⟩) :
    g.parse (d.content ++ chunk) = (g.parse d'.content).prepend xs := by
  cases hs : g.scan (d.content ++ chunk) with
  | item x r =>
      obtain ⟨rfl, rfl, -⟩ := Fed.mk.inj ((poll_item hs).symm.trans h)
      exact Grammar.parse_item hs
  | more =>
      obtain ⟨rfl, rfl, -⟩ := Fed.mk.inj ((poll_more hs).symm.trans h)
      rw [Reader.content_extend]
      rfl
  | bad =>
      obtain ⟨rfl, rfl, -⟩ := Fed.mk.inj ((poll_bad hs).symm.trans h)
      rw [Reader.content, Reader.content, List.append_assoc]
      rfl

/-- A poll that leaves the reader holding something has found nothing complete. -/
theorem poll_held {d d' : Reader β} {chunk : List β} {xs : List φ} {failed : Bool}
    (h : poll g hold d chunk = ⟨xs, d', failed⟩) (hd' : d'.held ≠ []) :
    ∀ x r, g.scan d'.content ≠ .item x r := by
  intro x r hx
  cases hs : g.scan (d.content ++ chunk) with
  | item y r' =>
      obtain ⟨-, rfl, -⟩ := Fed.mk.inj ((poll_item hs).symm.trans h)
      exact hd' rfl
  | more =>
      obtain ⟨-, rfl, -⟩ := Fed.mk.inj ((poll_more hs).symm.trans h)
      rw [Reader.content_extend, hs] at hx
      exact nomatch hx
  | bad =>
      obtain ⟨-, rfl, -⟩ := Fed.mk.inj ((poll_bad hs).symm.trans h)
      rw [Reader.content, ← List.append_assoc] at hx
      exact nomatch hs.symm.trans hx

theorem feed_cons {d d' : Reader β} {chunk : List β} {xs : List φ} {cs : List (List β)}
    (h : poll g hold d chunk = ⟨xs, d', false⟩) :
    feed g hold d (chunk :: cs)
      = { feed g hold d' cs with items := xs ++ (feed g hold d' cs).items } := by
  simp [feed, h]

theorem feed_item {d : Reader β} {chunk r : List β} {x : φ} {cs : List (List β)}
    (h : g.scan (d.content ++ chunk) = .item x r) :
    feed g hold d (chunk :: cs)
      = { feed g hold (.fresh r) cs with items := x :: (feed g hold (.fresh r) cs).items } :=
  feed_cons (poll_item h)

theorem feed_bad {d : Reader β} {chunk : List β} {cs : List (List β)}
    (h : g.scan (d.content ++ chunk) = .bad) :
    feed g hold d (chunk :: cs) = ⟨[], ⟨d.held, d.buf ++ chunk⟩, true⟩ := by
  simp [feed, poll_bad h]

theorem feed_more {d : Reader β} {chunk : List β} {cs : List (List β)}
    (h : g.scan (d.content ++ chunk) = .more) :
    feed g hold d (chunk :: cs) = feed g hold (d.extend hold chunk) cs :=
  feed_cons (poll_more h)

/-- The items polled out of a reader, then those of its content and of whatever
comes later, are the items of the whole stream. -/
theorem feed_parse (t : List β) : ∀ (cs : List (List β)) (d : Reader β),
    (feed g hold d cs).failed = false →
      g.parse (d.content ++ cs.flatten ++ t)
        = (g.parse ((feed g hold d cs).reader.content ++ t)).prepend
            (feed g hold d cs).items := by
  intro cs
  induction cs with
  | nil => intro d _; simp [feed, Parse.prepend]
  | cons c cs ih =>
      intro d hok
      rw [List.flatten_cons, ← List.append_assoc]
      cases hs : g.scan (d.content ++ c) with
      | bad => rw [feed_bad hs] at hok; exact nomatch hok
      | item x r =>
          rw [feed_item hs] at hok ⊢
          have h := ih (.fresh r) hok
          rw [Reader.content_fresh, List.append_assoc] at h
          rw [List.append_assoc, Grammar.parse_item (g.item_append _ hs), h]
          simp [Parse.prepend]
      | more =>
          rw [feed_more hs] at hok ⊢
          have hext : (d.extend hold c).content = d.content ++ c := d.content_extend c
          rw [← hext, ih _ hok]

theorem drainUpTo_eq : ∀ (n : Nat) (d : Reader β), d.content.length < n →
    drainUpTo g hold n d = (g.parse d.content).items := by
  intro n
  induction n with
  | zero => intro d h; omega
  | succ n ih =>
      intro d hn
      have happ : d.content ++ [] = d.content := List.append_nil _
      cases hs : g.scan d.content with
      | bad => simp [drainUpTo, poll_bad (happ.symm ▸ hs), Grammar.parse_bad hs]
      | more => simp [drainUpTo, poll_more (happ.symm ▸ hs), Grammar.parse_more hs]
      | item x r =>
          have hlt := g.item_shrinks hs
          rw [Grammar.parse_item hs, drainUpTo, poll_item (happ.symm ▸ hs)]
          simp only [ih (.fresh r) (by simp only [Reader.content_fresh]; omega),
            Reader.content_fresh, Parse.prepend]

/-- Draining yields the complete items of the content, held symbols or not. -/
theorem drain_eq (d : Reader β) : drain g hold d = (g.parse d.content).items :=
  drainUpTo_eq _ d (Nat.lt_succ_self _)

/-- A failed feed stopped at something that is no item. -/
theorem feed_failed : ∀ (cs : List (List β)) (d : Reader β),
    (feed g hold d cs).failed = true → g.scan (feed g hold d cs).reader.content = .bad := by
  intro cs
  induction cs with
  | nil => intro d h; exact nomatch h
  | cons c cs ih =>
      intro d h
      cases hs : g.scan (d.content ++ c) with
      | bad =>
          rw [feed_bad hs, Reader.content, ← List.append_assoc]
          exact hs
      | item x r => rw [feed_item hs] at h ⊢; exact ih _ h
      | more => rw [feed_more hs] at h ⊢; exact ih _ h

variable (g hold) in
/-- All that comes out of a reader that polls `cs` and then drains what it has. -/
def read (d : Reader β) (cs : List (List β)) : List φ :=
  let f := feed g hold d cs
  if f.failed then f.items else f.items ++ drain g hold f.reader

/-- The items read are those of the stream, however it was cut. -/
theorem read_eq (d : Reader β) (cs : List (List β)) :
    read g hold d cs = (g.parse (d.content ++ cs.flatten)).items := by
  induction cs generalizing d with
  | nil => simp [read, feed, drain_eq]
  | cons c cs ih =>
      rw [List.flatten_cons, ← List.append_assoc]
      cases hs : g.scan (d.content ++ c) with
      | bad =>
          rw [Grammar.parse_bad (g.bad_append _ hs), read, feed_bad hs]
          rfl
      | item x r =>
          rw [Grammar.parse_item (g.item_append _ hs)]
          show _ = x :: (g.parse (r ++ cs.flatten)).items
          rw [← Reader.content_fresh r, ← ih (.fresh r), read, read, feed_item hs]
          show (if _ then _ else _) = x :: (if _ then _ else _)
          split <;> rfl
      | more =>
          have hext : (d.extend hold c).content = d.content ++ c := d.content_extend c
          rw [← hext, ← ih, read, feed_more hs]
          rfl

/-- Which symbols a reader takes does not depend on what is made of the items. -/
theorem feed_refines {ψ : Type} {g' : Grammar β ψ} (hg : g.Refines g') :
    ∀ (cs : List (List β)) (d : Reader β), (feed g hold d cs).failed = false →
      (feed g' hold d cs).failed = false ∧
        (feed g' hold d cs).reader = (feed g hold d cs).reader := by
  intro cs
  induction cs with
  | nil => intro d _; exact ⟨rfl, rfl⟩
  | cons c cs ih =>
      intro d hok
      cases hs : g.scan (d.content ++ c) with
      | bad => rw [feed_bad hs] at hok; exact nomatch hok
      | item x r =>
          obtain ⟨y, hy⟩ := hg.item hs
          rw [feed_item hs] at hok ⊢
          rw [feed_item hy]
          exact ih _ hok
      | more =>
          rw [feed_more hs] at hok ⊢
          rw [feed_more (hg.more hs)]
          exact ih _ hok

/-- A reader that holds something has decoded all it can: what it holds and its
buffer are the start of one incomplete item. -/
theorem feed_held : ∀ (cs : List (List β)) (d : Reader β),
    (d.held ≠ [] → g.scan d.content = .more) →
    (feed g hold d cs).failed = false → (feed g hold d cs).reader.held ≠ [] →
      g.scan (feed g hold d cs).reader.content = .more := by
  intro cs
  induction cs with
  | nil => intro d hd _ h; exact hd h
  | cons c cs ih =>
      intro d hd hok h
      cases hs : g.scan (d.content ++ c) with
      | bad => rw [feed_bad hs] at hok; exact nomatch hok
      | item x r =>
          rw [feed_item hs] at hok h ⊢
          exact ih (.fresh r) (fun hne => absurd rfl hne) hok h
      | more =>
          rw [feed_more hs] at hok h ⊢
          exact ih _ (fun _ => (Reader.content_extend d c).symm ▸ hs) hok h

/-- Taking a reader's buffer for the rest of the stream is right if nothing is held;
otherwise only if the buffer does not start with something like an item. -/
theorem items_buf_eq_iff {d : Reader β}
    (h : d.held ≠ [] → ∀ x r, g.scan d.content ≠ .item x r) :
    (g.parse d.buf).items = (g.parse d.content).items ↔
      d.held = [] ∨ ∀ x r, g.scan d.buf ≠ .item x r := by
  by_cases hd : d.held = []
  · refine ⟨fun _ => Or.inl hd, fun _ => ?_⟩
    rw [Reader.content, hd, List.nil_append]
  · rw [Grammar.parse_items_eq_nil.mpr (h hd), Grammar.parse_items_eq_nil]
    exact ⟨Or.inr, fun h => h.resolve_left hd⟩

/-- What a reader holds is what `hold` took off some incomplete stream. -/
theorem feed_held_take : ∀ (cs : List (List β)) (d : Reader β),
    (d.held = [] ∨ ∃ b : List β, d.held = b.take (hold b)) →
    ((feed g hold d cs).reader.held = [] ∨
      ∃ b : List β, (feed g hold d cs).reader.held = b.take (hold b)) := by
  intro cs
  induction cs with
  | nil => intro d hd; exact hd
  | cons c cs ih =>
      intro d hd
      cases hs : g.scan (d.content ++ c) with
      | bad => rw [feed_bad hs]; exact hd
      | item x r => rw [feed_item hs]; exact ih (.fresh r) (Or.inl rfl)
      | more =>
          rw [feed_more hs]
          refine ih _ ?_
          unfold Reader.extend
          split
          · exact Or.inr ⟨_, rfl⟩
          · exact hd

end Framing
