/-
# `Lib.Polling` — waiting for the next item of a stream

`nextFrame` polls a reader with one chunk after the other until an item comes out, or
something that is none, or the chunks are used up.  What comes out is what stands at the
head of the stream, and nothing of the stream is lost: `nextFrame_of_item`, `nextFrame_of_bad`,
`nextFrame_of_more`.

A `Peeker` looks at the head of a stream and takes nothing.  A reader that comes after it
starts with all that the peeker has seen (`look_of_found`).
-/
import TrafficDirector.Lib.Framing

namespace Framing

variable {β φ ψ : Type}

/-! ## Readers -/

namespace Reader

/-- A chunk arrives in the buffer. -/
def receive (d : Reader β) (chunk : List β) : Reader β := ⟨d.held, d.buf ++ chunk⟩

@[simp] theorem content_receive (d : Reader β) (chunk : List β) :
    (d.receive chunk).content = d.content ++ chunk :=
  (List.append_assoc ..).symm

end Reader

inductive Taken (β φ : Type) where
  | item (x : φ) (reader : Reader β) (rest : List (List β))
  | bad (reader : Reader β)
  /-- the chunks are used up -/
  | more (reader : Reader β)

section Next

variable (g : Grammar β φ) (hold : List β → Nat)

/-- Decode what is there; if that is not enough, wait for the next chunk. -/
def nextFrame : List (List β) → Reader β → Taken β φ
  | cs, d =>
      match poll g hold d [] with
      | ⟨x :: _, d', _⟩ => .item x d' cs
      | ⟨[], d', true⟩ => .bad d'
      | ⟨[], d', false⟩ =>
          match cs with
          | [] => .more d'
          | chunk :: cs => nextFrame cs (d'.receive chunk)

end Next

variable {g : Grammar β φ} {hold : List β → Nat} {d : Reader β} {cs : List (List β)} {x : φ}
  {r : List β}

/-- What is at the head of the buffer is taken out at once. -/
theorem nextFrame_item (h : g.scan d.content = .item x r) : nextFrame g hold cs d = .item x (.fresh r) cs := by
  rw [nextFrame, poll_item (by rw [List.append_nil]; exact h)]

theorem nextFrame_bad (h : g.scan d.content = .bad) : ∃ d', nextFrame g hold cs d = .bad d' := by
  rw [nextFrame, poll_bad (by rw [List.append_nil]; exact h)]
  exact ⟨_, rfl⟩

theorem nextFrame_nil (h : g.scan d.content = .more) :
    ∃ d', nextFrame g hold [] d = .more d' ∧ d'.content = d.content := by
  rw [nextFrame, poll_more (by rw [List.append_nil]; exact h)]
  exact ⟨_, rfl, by rw [Reader.content_extend, List.append_nil]⟩

theorem nextFrame_cons (hold : List β → Nat) (chunk : List β) (cs : List (List β))
    (h : g.scan d.content = .more) :
    ∃ d', nextFrame g hold (chunk :: cs) d = nextFrame g hold cs d' ∧ d'.content = d.content ++ chunk := by
  rw [nextFrame, poll_more (by rw [List.append_nil]; exact h)]
  exact ⟨_, rfl, by rw [Reader.content_receive, Reader.content_extend, List.append_nil]⟩

theorem nextFrame_of_item (hold : List β → Nat) (d : Reader β)
    (h : g.scan (d.content ++ cs.flatten) = .item x r) :
    ∃ d' cs', nextFrame g hold cs d = .item x d' cs' ∧ d'.held = [] ∧ d'.content ++ cs'.flatten = r := by
  induction cs generalizing d with
  | nil =>
      rw [List.flatten_nil, List.append_nil] at h
      exact ⟨_, _, nextFrame_item h, rfl, List.append_nil r⟩
  | cons chunk cs ih =>
      cases hs : g.scan d.content with
      | item y r' =>
          obtain ⟨rfl, rfl⟩ := Scan.item.inj ((g.item_append _ hs).symm.trans h)
          exact ⟨_, _, nextFrame_item hs, rfl, rfl⟩
      | bad => cases (g.bad_append _ hs).symm.trans h
      | more =>
          obtain ⟨d', hnext, hcontent⟩ := nextFrame_cons hold chunk cs hs
          rw [hnext]
          refine ih d' ?_
          rw [hcontent, List.append_assoc]
          exact h

theorem nextFrame_of_bad (hold : List β → Nat) (d : Reader β)
    (h : g.scan (d.content ++ cs.flatten) = .bad) :
    ∃ d', nextFrame g hold cs d = .bad d' := by
  induction cs generalizing d with
  | nil =>
      rw [List.flatten_nil, List.append_nil] at h
      exact nextFrame_bad h
  | cons chunk cs ih =>
      cases hs : g.scan d.content with
      | item y r' => cases (g.item_append _ hs).symm.trans h
      | bad => exact nextFrame_bad hs
      | more =>
          obtain ⟨d', hnext, hcontent⟩ := nextFrame_cons hold chunk cs hs
          rw [hnext]
          refine ih d' ?_
          rw [hcontent, List.append_assoc]
          exact h

theorem nextFrame_of_more (hold : List β → Nat) (d : Reader β)
    (h : g.scan (d.content ++ cs.flatten) = .more) :
    ∃ d', nextFrame g hold cs d = .more d' ∧ d'.content = d.content ++ cs.flatten := by
  induction cs generalizing d with
  | nil =>
      rw [List.flatten_nil, List.append_nil] at h ⊢
      exact nextFrame_nil h
  | cons chunk cs ih =>
      cases hs : g.scan d.content with
      | item y r' => cases (g.item_append _ hs).symm.trans h
      | bad => cases (g.bad_append _ hs).symm.trans h
      | more =>
          obtain ⟨d', hnext, hcontent⟩ := nextFrame_cons hold chunk cs hs
          rw [hnext, List.flatten_cons, ← List.append_assoc, ← hcontent]
          refine ih d' ?_
          rw [hcontent, List.append_assoc]
          exact h

/-! ## Peekers -/

/-- What a look at the head of a stream says. -/
inductive Look (ψ : Type) where
  | more
  | found (y : ψ)
  | bad

/-- A prefix-stable way to look at the head of a stream; there is nothing to be seen of an
empty one. -/
structure Peeker (β ψ : Type) where
  peek : List β → Look ψ
  peek_nil : peek [] = .more
  found_append : ∀ {b : List β} {y : ψ} (c : List β), peek b = .found y → peek (b ++ c) = .found y
  bad_append : ∀ {b : List β} (c : List β), peek b = .bad → peek (b ++ c) = .bad

inductive Looked (β ψ : Type) where
  | found (y : ψ) (buf : List β) (rest : List (List β))
  | bad (buf : List β)
  /-- the chunks are used up -/
  | more (buf : List β)

/-- Look at the buffer; if that is not enough, wait for the next chunk. -/
def look (p : Peeker β ψ) : List (List β) → List β → Looked β ψ
  | cs, buf =>
      match p.peek buf with
      | .found y => .found y buf cs
      | .bad => .bad buf
      | .more =>
          match cs with
          | [] => .more buf
          | chunk :: cs => look p cs (buf ++ chunk)

variable {p : Peeker β ψ} {y : ψ} {buf : List β}

theorem look_cons {chunk : List β} (h : p.peek buf = .more) :
    look p (chunk :: cs) buf = look p cs (buf ++ chunk) := by
  rw [look, h]

theorem look_of_found (p : Peeker β ψ) (buf : List β) (h : p.peek (buf ++ cs.flatten) = .found y) :
    ∃ buf' cs', look p cs buf = .found y buf' cs' ∧ buf' ++ cs'.flatten = buf ++ cs.flatten := by
  induction cs generalizing buf with
  | nil =>
      rw [List.flatten_nil, List.append_nil] at h
      exact ⟨buf, [], by rw [look, h], rfl⟩
  | cons chunk cs ih =>
      cases hs : p.peek buf with
      | found z =>
          obtain rfl := Look.found.inj ((p.found_append _ hs).symm.trans h)
          exact ⟨buf, chunk :: cs, by rw [look, hs], rfl⟩
      | bad => cases (p.bad_append _ hs).symm.trans h
      | more =>
          rw [look_cons hs, List.flatten_cons, ← List.append_assoc]
          refine ih (buf ++ chunk) ?_
          rw [List.append_assoc]
          exact h

theorem look_of_bad (p : Peeker β ψ) (buf : List β) (h : p.peek (buf ++ cs.flatten) = .bad) :
    ∃ buf', look p cs buf = .bad buf' := by
  induction cs generalizing buf with
  | nil =>
      rw [List.flatten_nil, List.append_nil] at h
      exact ⟨buf, by rw [look, h]⟩
  | cons chunk cs ih =>
      cases hs : p.peek buf with
      | found z => cases (p.found_append _ hs).symm.trans h
      | bad => exact ⟨buf, by rw [look, hs]⟩
      | more =>
          rw [look_cons hs]
          refine ih (buf ++ chunk) ?_
          rw [List.append_assoc]
          exact h

theorem look_of_more (p : Peeker β ψ) (buf : List β) (h : p.peek (buf ++ cs.flatten) = .more) :
    look p cs buf = .more (buf ++ cs.flatten) := by
  induction cs generalizing buf with
  | nil =>
      rw [List.flatten_nil, List.append_nil] at h ⊢
      rw [look, h]
  | cons chunk cs ih =>
      cases hs : p.peek buf with
      | found z => cases (p.found_append _ hs).symm.trans h
      | bad => cases (p.bad_append _ hs).symm.trans h
      | more =>
          rw [look_cons hs, List.flatten_cons, ← List.append_assoc]
          refine ih (buf ++ chunk) ?_
          rw [List.append_assoc]
          exact h

end Framing
