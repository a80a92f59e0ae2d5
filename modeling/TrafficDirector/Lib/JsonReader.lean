/-
# `Lib.JsonReader` — reading JSON text

A scanner for JSON values: blanks between tokens, all escapes, surrogate pairs, fields
in any order.  Texts are UTF-8, and a string whose bytes are not is an error.  Numbers
are natural numbers here; one with a sign, a fraction or an exponent is recognised and
its value forgotten.  A number is complete when something follows it.

`Reads t v`: the text `t` is scanned as the value `v`, whatever follows.  There is one
rule for each way in which `Lib.Json` writes a text, so that what is read from a written
text is found by the structure of the text.
-/
import TrafficDirector.Lib.Json
import TrafficDirector.Lib.Scanner

namespace JsonText

open Framing (Scan Scanner Extends)
open Framing.Scanner

inductive Value where
  | null
  | bool (b : Bool)
  | number (n : Nat)
  /-- a number with a sign, a fraction or an exponent -/
  | decimal
  | string (s : String)
  | array (vs : List Value)
  | object (fields : List (String × Value))

/-! ## Tokens -/

def blank (b : UInt8) : Bool := b = 0x20 || b = 0x09 || b = 0x0a || b = 0x0d

/-- The next byte that is not blank. -/
def token : Scanner UInt8 UInt8
  | [] => .more
  | b :: r => if blank b then token r else .item b r

/-- Exactly these bytes. -/
def literal : Text → Scanner UInt8 Unit
  | [] => yield ()
  | x :: lit => next.andThen (fun b => if b = x then literal lit else fail)

/-! ## Numbers -/

def digit (b : UInt8) : Bool := 0x30 ≤ b && b ≤ 0x39

/-- A byte that may stand in a number: a digit, a sign, a point or an `e`. -/
def numeralByte (b : UInt8) : Bool :=
  digit b || b = 0x2b || b = 0x2d || b = 0x2e || b = 0x45 || b = 0x65

/-- Such bytes, up to the first other one. -/
def numeral : Scanner UInt8 Text
  | [] => .more
  | b :: r =>
      if numeralByte b then
        match numeral r with
        | .item bs r => .item (b :: bs) r
        | s => s
      else .item [] (b :: r)

def digits (t : Text) : Bool := !t.isEmpty && t.all digit

/-- Digits, without a leading zero. -/
def natural (t : Text) : Bool := digits t && (t.length = 1 || t.head? ≠ some 0x30)

def naturalValue (t : Text) : Nat := t.foldl (fun n b => n * 10 + (b.toNat - 0x30)) 0

/-- The exponent of a number, if it has one. -/
def exponent : Text → Bool
  | [] => true
  | e :: t =>
      (e = 0x45 || e = 0x65) &&
        digits (if t.head? = some 0x2b ∨ t.head? = some 0x2d then t.tail else t)

/-- A number as JSON has them. -/
def decimal (t : Text) : Bool :=
  let t := if t.head? = some 0x2d then t.tail else t
  natural (t.takeWhile digit) &&
    (match t.dropWhile digit with
      | 0x2e :: t => digits (t.takeWhile digit) && exponent (t.dropWhile digit)
      | t => exponent t)

def numberValue (t : Text) : Option Value :=
  if natural t then some (.number (naturalValue t))
  else if decimal t then some .decimal
  else none

/-! ## Strings -/

def hexValue (b : UInt8) : Option Nat :=
  if digit b then some (b.toNat - 0x30)
  else if 0x41 ≤ b ∧ b ≤ 0x46 then some (b.toNat - 0x41 + 10)
  else if 0x61 ≤ b ∧ b ≤ 0x66 then some (b.toNat - 0x61 + 10)
  else none

/-- `k` more hexadecimal digits after those that make `n`. -/
def hexDigits : Nat → Nat → Scanner UInt8 Nat
  | 0, n => yield n
  | k + 1, n => next.andThen (fun b => (ofOption (hexValue b)).andThen
      (fun d => hexDigits k (n * 16 + d)))

def leadingSurrogate (n : Nat) : Bool := 0xd800 ≤ n && n < 0xdc00

def trailingSurrogate (n : Nat) : Bool := 0xdc00 ≤ n && n < 0xe000

def utf8 (n : Nat) : Text := String.utf8EncodeChar (Char.ofNat n)

/-- After `\u` -/
def codePoint : Scanner UInt8 Text :=
  (hexDigits 4 0).andThen (fun n =>
    if trailingSurrogate n then fail
    else if leadingSurrogate n then
      (literal [0x5c, 0x75]).andThen (fun _ => (hexDigits 4 0).andThen (fun m =>
        if trailingSurrogate m then
          yield (utf8 ((n - 0xd800) * 0x400 + (m - 0xdc00) + 0x10000))
        else fail))
    else yield (utf8 n))

/-- The byte that a short escape stands for. -/
def shortEscape (b : UInt8) : Option UInt8 :=
  if b = 0x22 ∨ b = 0x5c ∨ b = 0x2f then some b
  else if b = 0x62 then some 0x08
  else if b = 0x66 then some 0x0c
  else if b = 0x6e then some 0x0a
  else if b = 0x72 then some 0x0d
  else if b = 0x74 then some 0x09
  else none

/-- After a backslash. -/
def escaped : Scanner UInt8 Text :=
  next.andThen (fun b =>
    if b = 0x75 then codePoint
    else (ofOption (shortEscape b)).map (fun x => [x]))

/-- A piece of a string, after the bytes `acc`; the closing quote ends it. -/
def stringPiece (acc : Text) : Scanner UInt8 (Text ⊕ Text) :=
  next.andThen (fun b =>
    if b = 0x22 then yield (.inr acc)
    else if b = 0x5c then escaped.map (fun bs => .inl (acc ++ bs))
    else if b < 0x20 then fail
    else yield (.inl (acc ++ [b])))

def textOf (bs : Text) : Option String :=
  bs.toByteArray.utf8Decode?.map (fun cs => String.ofList cs.toList)

/-- After the opening quote. -/
def stringRest (n : Nat) : Scanner UInt8 String :=
  (loop stringPiece n []).andThen (fun bs => ofOption (textOf bs))

/-! ## Values -/

section Members

variable {α : Type}

/-- An item, after the items `acc`, with the comma or the closing bracket behind it. -/
def nextItem (item : Scanner UInt8 α) (close : UInt8) (acc : List α) :
    Scanner UInt8 (List α ⊕ List α) :=
  item.andThen (fun x => token.andThen (fun b =>
    if b = close then yield (.inr (acc ++ [x]))
    else if b = 0x2c then yield (.inl (acc ++ [x]))
    else fail))

/-- After an opening bracket. -/
def members (item : Scanner UInt8 α) (close : UInt8) (n : Nat) : Scanner UInt8 (List α) :=
  token.andThen (fun b =>
    if b = close then yield [] else unread b (loop (nextItem item close) n []))

end Members

/-- A field of an object. -/
def field (value : Scanner UInt8 Value) (n : Nat) : Scanner UInt8 (String × Value) :=
  token.andThen (fun b =>
    if b = 0x22 then
      (stringRest n).andThen (fun k => token.andThen (fun b =>
        if b = 0x3a then value.map (fun v => (k, v)) else fail))
    else fail)

/-- A value that is nested, and whose loops turn, less than `n` times. -/
def value : Nat → Scanner UInt8 Value
  | 0 => fun _ => .more
  | n + 1 => token.andThen (fun b =>
      if b = 0x7b then (members (field (value n) n) 0x7d n).map .object
      else if b = 0x5b then (members (value n) 0x5d n).map .array
      else if b = 0x22 then (stringRest n).map .string
      else if b = 0x74 then (literal [0x72, 0x75, 0x65]).map (fun _ => .bool true)
      else if b = 0x66 then (literal [0x61, 0x6c, 0x73, 0x65]).map (fun _ => .bool false)
      else if b = 0x6e then (literal [0x75, 0x6c, 0x6c]).map (fun _ => .null)
      else (unread b numeral).andThen (fun t => ofOption (numberValue t)))

/-- A whole text. -/
def document (b : Text) : Scan UInt8 Value :=
  match value (b.length + 1) b with
  | .item v r => if r.all blank then .item v [] else .bad
  | s => s

/-! ## More text -/

theorem token_extends : Extends token token where
  bad {b} c h := by
    induction b with
    | nil => cases h
    | cons x b ih =>
        rw [token] at h
        split at h
        · next hx =>
            rw [List.cons_append, token, if_pos hx]
            exact ih h
        · cases h
  item {b x r} c h := by
    induction b with
    | nil => cases h
    | cons y b ih =>
        rw [token] at h
        rw [List.cons_append, token]
        split at h
        · next hy => rw [if_pos hy, ih h]
        · next hy =>
            rw [if_neg hy]
            cases h
            rfl

theorem literal_extends (lit : Text) : Extends (literal lit) (literal lit) := by
  induction lit with
  | nil => exact Extends.yield ()
  | cons x lit ih => exact Extends.next.andThen (fun b => Extends.ite _ ih Extends.fail)

theorem numeral_extends : Extends numeral numeral where
  bad {b} c h := by
    induction b with
    | nil => cases h
    | cons x b ih =>
        rw [numeral] at h
        rw [List.cons_append, numeral]
        split at h
        · next hx =>
            rw [if_pos hx]
            cases hb : numeral b with
            | more => rw [hb] at h; cases h
            | item t r => rw [hb] at h; cases h
            | bad => rw [ih hb]
        · cases h
  item {b t r} c h := by
    induction b generalizing t with
    | nil => cases h
    | cons x b ih =>
        rw [numeral] at h
        rw [List.cons_append, numeral]
        split at h
        · next hx =>
            rw [if_pos hx]
            cases hb : numeral b with
            | more => rw [hb] at h; cases h
            | bad => rw [hb] at h; cases h
            | item t' r' =>
                rw [hb] at h
                cases h
                rw [ih hb]
        · next hx =>
            rw [if_neg hx]
            cases h
            rfl

theorem hexDigits_extends (k n : Nat) : Extends (hexDigits k n) (hexDigits k n) := by
  induction k generalizing n with
  | zero => exact Extends.yield n
  | succ k ih =>
      exact Extends.next.andThen (fun b => (Extends.ofOption _).andThen (fun d => ih _))

theorem codePoint_extends : Extends codePoint codePoint := by
  refine (hexDigits_extends 4 0).andThen (fun n => Extends.ite _ Extends.fail ?_)
  refine Extends.ite _ ?_ (Extends.yield _)
  refine (literal_extends _).andThen (fun _ => (hexDigits_extends 4 0).andThen (fun m => ?_))
  exact Extends.ite _ (Extends.yield _) Extends.fail

theorem escaped_extends : Extends escaped escaped :=
  Extends.next.andThen (fun _ => Extends.ite _ codePoint_extends ((Extends.ofOption _).map _))

theorem stringPiece_extends (acc : Text) : Extends (stringPiece acc) (stringPiece acc) := by
  refine Extends.next.andThen (fun b => Extends.ite _ (Extends.yield _) ?_)
  refine Extends.ite _ (escaped_extends.map _) ?_
  exact Extends.ite _ Extends.fail (Extends.yield _)

variable {n m : Nat}

theorem stringRest_extends (h : n ≤ m) : Extends (stringRest n) (stringRest m) :=
  (Extends.loop stringPiece_extends h []).andThen (fun _ => Extends.ofOption _)

theorem members_extends {α : Type} {item item' : Scanner UInt8 α} (close : UInt8)
    (hitem : Extends item item') (h : n ≤ m) :
    Extends (members item close n) (members item' close m) := by
  have hnext : ∀ acc, Extends (nextItem item close acc) (nextItem item' close acc) := by
    intro acc
    refine hitem.andThen (fun x => token_extends.andThen (fun b => ?_))
    exact Extends.ite _ (Extends.yield _) (Extends.ite _ (Extends.yield _) Extends.fail)
  refine token_extends.andThen (fun b => Extends.ite _ (Extends.yield _) ?_)
  exact (Extends.loop hnext h []).unread b

theorem field_extends {v v' : Scanner UInt8 Value} (hv : Extends v v') (h : n ≤ m) :
    Extends (field v n) (field v' m) := by
  refine token_extends.andThen (fun b => Extends.ite _ ?_ Extends.fail)
  refine (stringRest_extends h).andThen (fun k => token_extends.andThen (fun b => ?_))
  exact Extends.ite _ (hv.map _) Extends.fail

/-- Whatever is found in a text is found in each longer text, with a larger bound too. -/
theorem value_extends (h : n ≤ m) : Extends (value n) (value m) := by
  induction n generalizing m with
  | zero => exact Extends.more _
  | succ n ih =>
      obtain ⟨m, rfl⟩ : ∃ k, m = k + 1 := ⟨m - 1, by omega⟩
      have hm : n ≤ m := by omega
      refine token_extends.andThen (fun b => ?_)
      refine Extends.ite _ ((members_extends _ (field_extends (ih hm) hm) hm).map _) ?_
      refine Extends.ite _ ((members_extends _ (ih hm) hm).map _) ?_
      refine Extends.ite _ ((stringRest_extends hm).map _) ?_
      refine Extends.ite _ ((literal_extends _).map _) ?_
      refine Extends.ite _ ((literal_extends _).map _) ?_
      refine Extends.ite _ ((literal_extends _).map _) ?_
      exact (numeral_extends.unread b).andThen (fun t => Extends.ofOption _)

/-- A text that is a value to its end, cut short: it has an incomplete value, and no error. -/
theorem document_take {t : Text} {v : Value} (h : value (t.length + 1) t = .item v [])
    (hn : n < t.length) : document (t.take n) = .more := by
  have hcut : t.take n ++ t.drop n = t := List.take_append_drop n t
  have hrest : t.drop n ≠ [] := by
    intro hnil
    have := List.length_drop (i := n) (l := t)
    rw [hnil, List.length_nil] at this
    omega
  have hle : (t.take n).length + 1 ≤ t.length + 1 := by
    rw [List.length_take]
    omega
  have hwhole : value (t.length + 1) (t.take n ++ t.drop n) = .item v [] := by
    rw [hcut]
    exact h
  have hmore := (value_extends hle).incomplete hrest hwhole
  rw [document, hmore]

/-! ## Numbers that are written -/

/-- Nothing follows that would belong to a number. -/
def Stops (r : Text) : Prop := ∃ b s, r = b :: s ∧ numeralByte b = false

theorem digit_digitChar : ∀ d < 10, digit (Nat.digitChar d).toUInt8 = true ∧
    (Nat.digitChar d).toUInt8.toNat - 0x30 = d ∧
    (0 < d → (Nat.digitChar d).toUInt8 ≠ 0x30) := by
  decide

theorem number_of_lt {d : Nat} (h : d < 10) : number d = [(Nat.digitChar d).toUInt8] := by
  rw [number, Nat.toDigits_of_lt_base h]
  rfl

theorem number_append {k d : Nat} (hk : 0 < k) (hd : d < 10) :
    number (10 * k + d) = number k ++ number d := by
  rw [number, ← Nat.toDigits_append_toDigits (by omega) hk hd, List.map_append]
  rfl

theorem number_ne_nil (k : Nat) : number k ≠ [] := by
  rw [number, Ne, List.map_eq_nil_iff]
  exact Nat.toDigits_ne_nil

theorem all_digit_number (k : Nat) : (number k).all digit = true := by
  induction k using Nat.base_induction 10 (by decide) with
  | single d hd =>
      rw [number_of_lt hd, List.all_cons, (digit_digitChar d hd).1]
      rfl
  | digit k d hd hk ih =>
      rw [number_append hk hd, List.all_append, ih, number_of_lt hd, List.all_cons,
        (digit_digitChar d hd).1]
      rfl

theorem naturalValue_number (k : Nat) : naturalValue (number k) = k := by
  induction k using Nat.base_induction 10 (by decide) with
  | single d hd =>
      rw [number_of_lt hd]
      show 0 * 10 + _ = d
      rw [(digit_digitChar d hd).2.1, Nat.zero_mul, Nat.zero_add]
  | digit k d hd hk ih =>
      rw [number_append hk hd, number_of_lt hd]
      unfold naturalValue at ih ⊢
      rw [List.foldl_append, ih]
      show k * 10 + _ = _
      rw [(digit_digitChar d hd).2.1, Nat.mul_comm]

theorem head_number {k : Nat} (h : 0 < k) : (number k).head? ≠ some 0x30 := by
  induction k using Nat.base_induction 10 (by decide) with
  | single d hd =>
      rw [number_of_lt hd]
      intro hhead
      exact (digit_digitChar d hd).2.2 h (Option.some.inj hhead)
  | digit k d hd hk ih =>
      rw [number_append hk hd, List.head?_append_of_ne_nil _ (number_ne_nil k)]
      exact ih hk

theorem natural_number (k : Nat) : natural (number k) = true := by
  have hdigits : digits (number k) = true := by
    rw [digits, all_digit_number, Bool.and_true, Bool.not_eq_true', List.isEmpty_eq_false_iff]
    exact number_ne_nil k
  rw [natural, hdigits, Bool.true_and, Bool.or_eq_true]
  rcases Nat.eq_zero_or_pos k with rfl | hk
  · exact Or.inl (by decide)
  · exact Or.inr (decide_eq_true (head_number hk))

theorem numberValue_number (k : Nat) : numberValue (number k) = some (.number k) := by
  rw [numberValue, if_pos (natural_number k), naturalValue_number]

theorem numeral_append {t r : Text} (ht : t.all digit = true) (hr : Stops r) :
    numeral (t ++ r) = .item t r := by
  induction t with
  | nil =>
      obtain ⟨b, s, rfl, hb⟩ := hr
      rw [List.nil_append, numeral, if_neg (by rw [hb]; exact Bool.false_ne_true)]
  | cons b t ih =>
      rw [List.all_cons, Bool.and_eq_true] at ht
      have hb : numeralByte b = true := by
        rw [numeralByte, ht.1]
        rfl
      rw [List.cons_append, numeral, if_pos hb, ih ht.2]

/-! ## Strings that are written -/

/-- A byte that stands for itself in a string. -/
def plain (b : UInt8) : Bool := 0x20 ≤ b && b ≠ 0x22 && b ≠ 0x5c

variable {acc r : Text}

theorem stringPiece_plain {b : UInt8} (h : plain b = true) :
    stringPiece acc (b :: r) = .item (.inl (acc ++ [b])) r := by
  simp only [plain, Bool.and_eq_true, decide_eq_true_eq] at h
  obtain ⟨⟨hge, hquote⟩, hslash⟩ := h
  have hlt : ¬ b < 0x20 := UInt8.not_lt.mpr hge
  have hnext : next (b :: r) = .item b r := rfl
  rw [stringPiece, andThen_item hnext, if_neg hquote, if_neg hslash, if_neg hlt]
  rfl

theorem stringPiece_escaped {x : Text} {t : Text} (h : escaped (t ++ r) = .item x r) :
    stringPiece acc (0x5c :: (t ++ r)) = .item (.inl (acc ++ x)) r := by
  have hnext : next (0x5c :: (t ++ r)) = .item 0x5c (t ++ r) := rfl
  rw [stringPiece, andThen_item hnext, if_neg (by decide), if_pos rfl]
  exact map_item h

theorem loop_plain {bs : Text} (h : ∀ b ∈ bs, plain b = true) :
    loop stringPiece (n + bs.length) acc (bs ++ r) = loop stringPiece n (acc ++ bs) r := by
  induction bs generalizing acc with
  | nil => rw [List.append_nil, List.nil_append, List.length_nil, Nat.add_zero]
  | cons b bs ih =>
      obtain ⟨hb, hbs⟩ := List.forall_mem_cons.mp h
      rw [List.length_cons, ← Nat.add_assoc, List.cons_append, loop_next (stringPiece_plain hb),
        ih hbs, List.append_assoc]
      rfl

theorem plain_ofNat {k : Nat} (hge : 0x20 ≤ k) (hlt : k < 0x100) (hquote : k ≠ 0x22)
    (hslash : k ≠ 0x5c) : plain (UInt8.ofNat k) = true := by
  have htoNat : (UInt8.ofNat k).toNat = k := UInt8.toNat_ofNat_of_lt' hlt
  simp only [plain, Bool.and_eq_true, decide_eq_true_eq, ne_eq]
  refine ⟨⟨?_, fun heq => hquote ?_⟩, fun heq => hslash ?_⟩
  · rw [UInt8.le_iff_toNat_le, htoNat]
    exact hge
  · exact htoNat.symm.trans (congrArg UInt8.toNat heq)
  · exact htoNat.symm.trans (congrArg UInt8.toNat heq)

/-- The bytes of a character that is not escaped. -/
theorem plain_utf8EncodeChar {c : Char} (hge : 0x20 ≤ c.toNat) (hquote : c.toNat ≠ 0x22)
    (hslash : c.toNat ≠ 0x5c) : ∀ b ∈ String.utf8EncodeChar c, plain b = true := by
  -- all bytes of a longer encoding have their top bit set
  have hhigh : ∀ k, 0x80 ≤ k → k < 0x100 → plain (UInt8.ofNat k) = true := by
    intro k hk hlt
    exact plain_ofNat (by omega) hlt (by omega) (by omega)
  have hval : c.val.toNat = c.toNat := rfl
  intro b hb
  unfold String.utf8EncodeChar at hb
  simp only [hval] at hb
  split at hb
  · next hle =>
      obtain rfl := List.mem_singleton.mp hb
      exact plain_ofNat hge (by omega) hquote hslash
  · split at hb
    · simp only [List.mem_cons, List.not_mem_nil, or_false] at hb
      rcases hb with rfl | rfl <;> exact hhigh _ (by omega) (by omega)
    · split at hb
      · simp only [List.mem_cons, List.not_mem_nil, or_false] at hb
        rcases hb with rfl | rfl | rfl <;> exact hhigh _ (by omega) (by omega)
      · simp only [List.mem_cons, List.not_mem_nil, or_false] at hb
        rcases hb with rfl | rfl | rfl | rfl <;> exact hhigh _ (by omega) (by omega)

theorem utf8_toNat (c : Char) : utf8 c.toNat = String.utf8EncodeChar c := by
  rw [utf8, Char.ofNat_toNat]

theorem hexValue_hexDigit : ∀ d < 16, hexValue (hexDigit d) = some d := by
  decide

theorem escaped_short {b x : UInt8} (hb : b ≠ 0x75) (h : shortEscape b = some x) :
    escaped ([b] ++ r) = .item [x] r := by
  have hnext : next (b :: r) = .item b r := rfl
  rw [List.singleton_append, escaped, andThen_item hnext, if_neg hb, h]
  rfl

theorem hexDigits_hexDigit {k d v : Nat} (hd : d < 16) :
    hexDigits (k + 1) v (hexDigit d :: r) = hexDigits k (v * 16 + d) r := by
  have hnext : next (hexDigit d :: r) = .item (hexDigit d) r := rfl
  rw [hexDigits, andThen_item hnext, hexValue_hexDigit d hd]
  rfl

theorem escaped_control {k : Nat} (hk : k < 0x20) :
    escaped ([0x75, 0x30, 0x30, hexDigit (k / 16), hexDigit (k % 16)] ++ r)
      = .item (utf8 k) r := by
  have hzero : hexDigit 0 = 0x30 := by decide
  have hhex : hexDigits 4 0 (0x30 :: 0x30 :: hexDigit (k / 16) :: hexDigit (k % 16) :: r)
      = .item k r := by
    rw [← hzero, hexDigits_hexDigit (by decide), hexDigits_hexDigit (by decide),
      hexDigits_hexDigit (by omega), hexDigits_hexDigit (by omega), hexDigits]
    show Scan.item _ r = _
    congr 1
    omega
  have hnext : next (0x75 :: 0x30 :: 0x30 :: hexDigit (k / 16) :: hexDigit (k % 16) :: r)
      = .item 0x75 (0x30 :: 0x30 :: hexDigit (k / 16) :: hexDigit (k % 16) :: r) := rfl
  have htrailing : ¬ trailingSurrogate k = true := by
    rw [trailingSurrogate, Bool.and_eq_true, decide_eq_true_eq]
    omega
  have hleading : ¬ leadingSurrogate k = true := by
    rw [leadingSurrogate, Bool.and_eq_true, decide_eq_true_eq]
    omega
  show escaped (0x75 :: 0x30 :: 0x30 :: hexDigit (k / 16) :: hexDigit (k % 16) :: r) = _
  rw [escaped, andThen_item hnext, if_pos rfl, codePoint, andThen_item hhex, if_neg htrailing,
    if_neg hleading]
  rfl

/-- The character behind an escape. -/
theorem utf8EncodeChar_of_toNat {c : Char} {k : Nat} (h : c.toNat = k) :
    String.utf8EncodeChar c = utf8 k := by
  rw [← h, utf8_toNat]

/-- An escaped character, or the bytes of one that is not escaped. -/
theorem escape_cases (c : Char) :
    (∃ t, escape c = 0x5c :: t ∧ ∀ r, escaped (t ++ r) = .item (String.utf8EncodeChar c) r) ∨
    (escape c = String.utf8EncodeChar c ∧ ∀ b ∈ String.utf8EncodeChar c, plain b = true) := by
  have hshort : ∀ {b : UInt8} {k : Nat}, c.toNat = k → utf8 k = [UInt8.ofNat k] → b ≠ 0x75 →
      shortEscape b = some (UInt8.ofNat k) →
      ∀ r, escaped ([b] ++ r) = .item (String.utf8EncodeChar c) r := by
    intro b k hk hutf8 hb hx r
    rw [utf8EncodeChar_of_toNat hk, hutf8]
    exact escaped_short hb hx
  unfold escape
  split
  · next h => exact Or.inl ⟨_, rfl, hshort h (by decide) (by decide) (by decide)⟩
  · next h => exact Or.inl ⟨_, rfl, hshort h (by decide) (by decide) (by decide)⟩
  · next h => exact Or.inl ⟨_, rfl, hshort h (by decide) (by decide) (by decide)⟩
  · next h => exact Or.inl ⟨_, rfl, hshort h (by decide) (by decide) (by decide)⟩
  · next h => exact Or.inl ⟨_, rfl, hshort h (by decide) (by decide) (by decide)⟩
  · next h => exact Or.inl ⟨_, rfl, hshort h (by decide) (by decide) (by decide)⟩
  · next h => exact Or.inl ⟨_, rfl, hshort h (by decide) (by decide) (by decide)⟩
  · next hquote hslash _ _ _ _ _ =>
      split
      · next hlt =>
          refine Or.inl ⟨_, rfl, fun r => ?_⟩
          rw [← utf8_toNat]
          exact escaped_control hlt
      · next hge =>
          exact Or.inr ⟨rfl, plain_utf8EncodeChar (Nat.le_of_not_lt hge) hquote hslash⟩

theorem loop_escape (cs : List Char) {n : Nat} (h : (cs.flatMap escape).length < n) :
    loop stringPiece n acc (cs.flatMap escape ++ 0x22 :: r)
      = .item (acc ++ cs.flatMap String.utf8EncodeChar) r := by
  induction cs generalizing acc n with
  | nil =>
      obtain ⟨n, rfl⟩ : ∃ k, n = k + 1 := ⟨n - 1, by omega⟩
      rw [List.flatMap_nil, List.flatMap_nil, List.append_nil]
      exact loop_done rfl
  | cons c cs ih =>
      rw [List.flatMap_cons, List.length_append] at h
      rw [List.flatMap_cons, List.flatMap_cons, List.append_assoc, ← List.append_assoc acc]
      rcases escape_cases c with ⟨t, ht, hescaped⟩ | ⟨hplain, hall⟩
      · rw [ht, List.length_cons] at h
        obtain ⟨n, rfl⟩ : ∃ k, n = k + 1 := ⟨n - 1, by omega⟩
        rw [ht, List.cons_append, loop_next (stringPiece_escaped (hescaped _))]
        exact ih (by omega)
      · rw [hplain] at h
        obtain ⟨n, rfl⟩ : ∃ k, n = k + (String.utf8EncodeChar c).length :=
          ⟨n - (String.utf8EncodeChar c).length, by omega⟩
        rw [hplain, loop_plain hall]
        exact ih (by omega)

theorem textOf_toList (s : String) :
    textOf (s.toList.flatMap String.utf8EncodeChar) = some s := by
  have hdecode : (s.toList.flatMap String.utf8EncodeChar).toByteArray.utf8Decode?
      = some s.toList.toArray :=
    List.utf8Decode?_utf8Encode
  rw [textOf, hdecode, Option.map_some, String.ofList_toList]

theorem stringRest_string (s : String) {n : Nat} (h : (string s).length ≤ n + 1) :
    stringRest n ((string s ++ r).tail) = .item s r := by
  rw [string, List.length_cons, List.length_append, List.length_singleton] at h
  have hloop : loop stringPiece n [] (s.toList.flatMap escape ++ 0x22 :: r)
      = .item ([] ++ s.toList.flatMap String.utf8EncodeChar) r :=
    loop_escape s.toList (by omega)
  show stringRest n (s.toList.flatMap escape ++ [0x22] ++ r) = _
  rw [List.append_assoc, List.singleton_append, stringRest, andThen_item hloop,
    List.nil_append, textOf_toList]
  rfl

/-! ## Values that are written -/

def Value.isNumber : Value → Bool
  | .number _ | .decimal => true
  | _ => false

/-- A text that opens an item: it does not look like blanks or like the end of a list. -/
def Opens (t : Text) : Prop := ∃ b s, t = b :: s ∧ blank b = false ∧ b ≠ 0x5d ∧ b ≠ 0x7d

/-- The text is scanned as the value, whatever follows; a number must come to its end. -/
structure Reads (t : Text) (v : Value) : Prop where
  opens : Opens t
  scan : ∀ {n : Nat} {r : Text}, t.length ≤ n → (v.isNumber = true → Stops r) →
    value n (t ++ r) = .item v r

theorem token_cons {b : UInt8} (h : blank b = false) : token (b :: r) = .item b r := by
  rw [token, if_neg (by rw [h]; exact Bool.false_ne_true)]

theorem reads_number (k : Nat) : Reads (number k) (.number k) := by
  obtain ⟨b, t, hk⟩ := List.exists_cons_of_ne_nil (number_ne_nil k)
  have hall := all_digit_number k
  rw [hk, List.all_cons, Bool.and_eq_true] at hall
  have hne : ∀ {x : UInt8}, digit x = false → b ≠ x := by
    rintro x hx rfl
    exact absurd (hx.symm.trans hall.1) Bool.false_ne_true
  have hblank : blank b = false := by
    simp only [blank, Bool.or_eq_false_iff, decide_eq_false_iff_not]
    exact ⟨⟨⟨hne (by decide), hne (by decide)⟩, hne (by decide)⟩, hne (by decide)⟩
  refine ⟨⟨b, t, hk, hblank, hne (by decide), hne (by decide)⟩, ?_⟩
  intro n r hn hstops
  rw [hk, List.length_cons] at hn
  obtain ⟨n, rfl⟩ : ∃ m, n = m + 1 := ⟨n - 1, by omega⟩
  have hnumeral : unread b numeral (t ++ r) = .item (number k) r := by
    rw [unread, ← List.cons_append, ← hk]
    exact numeral_append (all_digit_number k) (hstops rfl)
  rw [hk, List.cons_append, value, andThen_item (token_cons hblank), if_neg (hne (by decide)),
    if_neg (hne (by decide)), if_neg (hne (by decide)), if_neg (hne (by decide)),
    if_neg (hne (by decide)), if_neg (hne (by decide)), andThen_item hnumeral,
    numberValue_number]
  rfl

theorem reads_string (s : String) : Reads (string s) (.string s) := by
  refine ⟨⟨0x22, _, rfl, by decide, by decide, by decide⟩, ?_⟩
  intro n r hn _
  have hpos : 0 < (string s).length := by
    rw [length_string]
    omega
  obtain ⟨n, rfl⟩ : ∃ m, n = m + 1 := ⟨n - 1, by omega⟩
  have htoken : token (string s ++ r) = .item 0x22 (string s ++ r).tail :=
    token_cons (by decide)
  rw [value, andThen_item htoken, if_neg (by decide), if_neg (by decide), if_pos rfl]
  exact map_item (stringRest_string s hn)

section Members

variable {α : Type} {item : Scanner UInt8 α} {close : UInt8} {parts : List Text} {xs : List α}

/-- The texts are scanned as the items, in front of whatever ends a number. -/
abbrev ItemsRead (item : Scanner UInt8 α) (parts : List Text) (xs : List α) : Prop :=
  List.Forall₂ (fun p x => Opens p ∧ ∀ r, Stops r → item (p ++ r) = .item x r) parts xs

theorem commas_singleton (p : Text) : commas [p] = p := by
  simp [commas]

theorem commas_cons_cons (p p' : Text) (ps : List Text) :
    commas (p :: p' :: ps) = p ++ 0x2c :: commas (p' :: ps) := by
  rw [commas, List.intercalate_cons_cons, List.append_assoc]
  rfl

theorem nextItem_comma {p : Text} {x : α} {acc : List α} (hclose : close ≠ 0x2c)
    (h : ∀ r, Stops r → item (p ++ r) = .item x r) :
    nextItem item close acc (p ++ 0x2c :: r) = .item (.inl (acc ++ [x])) r := by
  rw [nextItem, andThen_item (h _ ⟨0x2c, r, rfl, by decide⟩),
    andThen_item (token_cons (by decide)), if_neg hclose.symm, if_pos rfl]
  rfl

theorem nextItem_close {p : Text} {x : α} {acc : List α} (hblank : blank close = false)
    (hclose : numeralByte close = false) (h : ∀ r, Stops r → item (p ++ r) = .item x r) :
    nextItem item close acc (p ++ close :: r) = .item (.inr (acc ++ [x])) r := by
  rw [nextItem, andThen_item (h _ ⟨close, r, rfl, hclose⟩), andThen_item (token_cons hblank),
    if_pos rfl]
  rfl

theorem loop_commas (hblank : blank close = false) (hclose : numeralByte close = false)
    (hcomma : close ≠ 0x2c) (h : ItemsRead item parts xs) :
    ∀ {n : Nat} {acc : List α}, parts ≠ [] → parts.length ≤ n →
      loop (nextItem item close) n acc (commas parts ++ close :: r) = .item (acc ++ xs) r := by
  induction h with
  | nil => intro n acc hne; exact absurd rfl hne
  | @cons p x parts xs hp hparts ih =>
      intro n acc _ hn
      rw [List.length_cons] at hn
      obtain ⟨n, rfl⟩ : ∃ m, n = m + 1 := ⟨n - 1, by omega⟩
      cases hparts with
      | nil =>
          rw [commas_singleton]
          exact loop_done (nextItem_close hblank hclose hp.2)
      | @cons p' x' parts xs hp' hparts =>
          rw [commas_cons_cons, List.append_assoc, List.cons_append,
            loop_next (nextItem_comma hcomma hp.2), ih (List.cons_ne_nil _ _) (by omega),
            List.append_assoc]
          rfl

theorem members_commas (hblank : blank close = false) (hclose : numeralByte close = false)
    (hcomma : close ≠ 0x2c) (hends : close = 0x5d ∨ close = 0x7d) (h : ItemsRead item parts xs)
    (hn : parts.length ≤ n) : members item close n (commas parts ++ close :: r) = .item xs r := by
  cases h with
  | nil =>
      show members item close n (close :: r) = _
      rw [members, andThen_item (token_cons hblank), if_pos rfl]
      rfl
  | @cons p x parts xs hp hparts =>
      obtain ⟨b, t, hb, hb', hsquare, hcurly⟩ := hp.1
      obtain ⟨u, hu⟩ : ∃ u, commas (p :: parts) = b :: u := by
        cases parts with
        | nil => exact ⟨t, (commas_singleton p).trans hb⟩
        | cons p' parts =>
            refine ⟨t ++ 0x2c :: commas (p' :: parts), ?_⟩
            rw [commas_cons_cons, hb]
            rfl
      have hne : b ≠ close := by
        rcases hends with rfl | rfl
        · exact hsquare
        · exact hcurly
      rw [hu, List.cons_append, members, andThen_item (token_cons hb'), if_neg hne, unread,
        ← List.cons_append, ← hu]
      exact loop_commas hblank hclose hcomma (.cons hp hparts) (List.cons_ne_nil _ _) hn

/-- No list has more parts than bytes. -/
theorem length_le_commas (h : parts ≠ []) : parts.length ≤ (commas parts).length + 1 := by
  rw [length_commas h]
  clear h
  induction parts with
  | nil => exact Nat.le_refl _
  | cons p parts ih =>
      rw [List.length_cons, List.map_cons, List.sum_cons]
      omega

theorem length_part_le (parts : List Text) : ∀ p ∈ parts, p.length ≤ (commas parts).length := by
  intro p hp
  have hcommas := length_commas (List.ne_nil_of_mem hp)
  have hsum : p.length + 1 ≤ (parts.map (fun p => p.length + 1)).sum :=
    List.le_sum_of_mem (List.mem_map_of_mem (f := fun p : Text => p.length + 1) hp)
  omega

end Members

theorem Reads.scan_stops {t : Text} {v : Value} (h : Reads t v) (hn : t.length ≤ n) :
    ∀ r, Stops r → value n (t ++ r) = .item v r := by
  intro r hr
  exact h.scan hn (fun _ => hr)

theorem itemsRead_values {parts : List Text} {vs : List Value} (h : List.Forall₂ Reads parts vs)
    (hle : ∀ p ∈ parts, p.length ≤ n) : ItemsRead (value n) parts vs := by
  induction h with
  | nil => exact .nil
  | cons hp _ ih =>
      obtain ⟨hpn, hle⟩ := List.forall_mem_cons.mp hle
      exact .cons ⟨hp.opens, hp.scan_stops hpn⟩ (ih hle)

theorem reads_array {parts : List Text} {vs : List Value} (h : List.Forall₂ Reads parts vs) :
    Reads (array parts) (.array vs) := by
  refine ⟨⟨0x5b, _, rfl, by decide, by decide, by decide⟩, ?_⟩
  intro n r hn _
  rw [array, List.length_cons, List.length_append, List.length_singleton] at hn
  obtain ⟨n, rfl⟩ : ∃ m, n = m + 1 := ⟨n - 1, by omega⟩
  have hitems : ItemsRead (value n) parts vs := by
    refine itemsRead_values h (fun p hp => ?_)
    have := length_part_le parts p hp
    omega
  have hparts : parts.length ≤ n := by
    cases parts with
    | nil => exact Nat.zero_le n
    | cons p parts =>
        have := length_le_commas (List.cons_ne_nil p parts)
        omega
  have hmembers := members_commas (r := r) (by decide) (by decide) (by decide) (Or.inl rfl)
    hitems hparts
  show value (n + 1) (0x5b :: (commas parts ++ [0x5d] ++ r)) = _
  rw [List.append_assoc, List.singleton_append, value, andThen_item (token_cons (by decide)),
    if_neg (by decide), if_pos rfl]
  exact map_item hmembers

/-- A field is read as its key and the value of its text. -/
abbrev FieldReads (f : String × Text) (kv : String × Value) : Prop := f.1 = kv.1 ∧ Reads f.2 kv.2

theorem field_read {f : String × Text} {kv : String × Value} (h : FieldReads f kv)
    (hn : (string f.1 ++ 0x3a :: f.2).length ≤ n) :
    ∀ r, Stops r → field (value n) n (string f.1 ++ 0x3a :: f.2 ++ r) = .item kv r := by
  intro r hr
  obtain ⟨k, t⟩ := f
  obtain ⟨_, v⟩ := kv
  obtain ⟨rfl, hread⟩ := h
  have hread : Reads t v := hread
  rw [List.length_append, List.length_cons] at hn
  dsimp only at hn ⊢
  have hrest := stringRest_string (r := 0x3a :: (t ++ r)) k (n := n) (by omega)
  have htoken : token (string k ++ 0x3a :: t ++ r)
      = .item 0x22 (string k ++ 0x3a :: (t ++ r)).tail := by
    rw [List.append_assoc]
    exact token_cons (by decide)
  rw [field, andThen_item htoken, if_pos rfl, andThen_item hrest,
    andThen_item (token_cons (by decide)), if_pos rfl]
  exact map_item (hread.scan_stops (by omega) r hr)

theorem itemsRead_fields {fields : List (String × Text)} {kvs : List (String × Value)}
    (h : List.Forall₂ FieldReads fields kvs)
    (hle : ∀ p ∈ fields.map (fun f => string f.1 ++ 0x3a :: f.2), p.length ≤ n) :
    ItemsRead (field (value n) n) (fields.map (fun f => string f.1 ++ 0x3a :: f.2)) kvs := by
  induction h with
  | nil => exact .nil
  | cons hf _ ih =>
      obtain ⟨hfn, hle⟩ := List.forall_mem_cons.mp hle
      exact .cons ⟨⟨0x22, _, rfl, by decide, by decide, by decide⟩, field_read hf hfn⟩ (ih hle)

theorem reads_object {fields : List (String × Text)} {kvs : List (String × Value)}
    (h : List.Forall₂ FieldReads fields kvs) : Reads (object fields) (.object kvs) := by
  refine ⟨⟨0x7b, _, rfl, by decide, by decide, by decide⟩, ?_⟩
  intro n r hn _
  obtain ⟨parts, hparts⟩ : ∃ parts, parts = fields.map (fun f => string f.1 ++ 0x3a :: f.2) :=
    ⟨_, rfl⟩
  rw [object, ← hparts, List.length_cons, List.length_append, List.length_singleton] at hn
  obtain ⟨n, rfl⟩ : ∃ m, n = m + 1 := ⟨n - 1, by omega⟩
  have hitems : ItemsRead (field (value n) n) parts kvs := by
    rw [hparts]
    refine itemsRead_fields h (fun p hp => ?_)
    have := length_part_le parts p (hparts ▸ hp)
    omega
  have hlength : parts.length ≤ n := by
    cases parts with
    | nil => exact Nat.zero_le n
    | cons p parts =>
        have := length_le_commas (List.cons_ne_nil p parts)
        omega
  have hmembers := members_commas (r := r) (by decide) (by decide) (by decide) (Or.inr rfl)
    hitems hlength
  rw [object, ← hparts]
  show value (n + 1) (0x7b :: (commas parts ++ [0x7d] ++ r)) = _
  rw [List.append_assoc, List.singleton_append, value, andThen_item (token_cons (by decide)),
    if_pos rfl]
  exact map_item hmembers

theorem reads_bytes (bs : List UInt8) :
    Reads (bytes bs) (.array (bs.map (fun b => .number b.toNat))) := by
  refine reads_array ?_
  induction bs with
  | nil => exact .nil
  | cons b bs ih => exact .cons (reads_number _) ih

variable {t : Text} {v : Value}

theorem Reads.value_eq (h : Reads t v) (hv : v.isNumber = false) :
    value (t.length + 1) t = .item v [] := by
  have hscan := h.scan (n := t.length + 1) (r := []) (Nat.le_succ _)
    (fun hnumber => absurd (hv.symm.trans hnumber) Bool.false_ne_true)
  rw [List.append_nil] at hscan
  exact hscan

/-- A written text is read as a whole. -/
theorem Reads.document_eq (h : Reads t v) (hv : v.isNumber = false) : document t = .item v [] := by
  rw [document, h.value_eq hv]
  rfl

/-- No proper beginning of it is read as anything, nor found to be wrong. -/
theorem Reads.document_take (h : Reads t v) (hv : v.isNumber = false) (hn : n < t.length) :
    document (t.take n) = .more :=
  JsonText.document_take (h.value_eq hv) hn

/-! ## What is in a value -/

namespace Value

variable {α : Type}

/-- A natural number below the bound. -/
def natBelow (bound : Nat) : Value → Option Nat
  | .number n => if n < bound then some n else none
  | _ => none

def text? : Value → Option String
  | .string s => some s
  | _ => none

/-- A list, item by item. -/
def items? (item : Value → Option α) : Value → Option (List α)
  | .array vs => vs.mapM item
  | _ => none

/-- The values of a record, in the order of its names: an object that has each of them
once, or a list of as many values.  Other fields do not matter. -/
def record? (names : List String) : Value → Option (List Value)
  | .object fields =>
      if names.all (fun name => fields.countP (fun f => f.1 = name) ≤ 1) then
        names.mapM (fun name => fields.lookup name)
      else none
  | .array vs => if vs.length = names.length then some vs else none
  | _ => none

theorem natBelow_number {bound k : Nat} (h : k < bound) : natBelow bound (.number k) = some k :=
  if_pos h

theorem items?_map {β : Type} {item : Value → Option α} {f : β → Value} {g : β → α} (l : List β)
    (h : ∀ b ∈ l, item (f b) = some (g b)) : items? item (.array (l.map f)) = some (l.map g) := by
  show (l.map f).mapM item = some (l.map g)
  induction l with
  | nil => rfl
  | cons b l ih =>
      obtain ⟨hb, hl⟩ := List.forall_mem_cons.mp h
      rw [List.map_cons, List.mapM_cons, hb, Option.bind_eq_bind, Option.bind_some, ih hl]
      rfl

end Value

end JsonText
