/-
# `Lib.Json` — compact JSON text and its length

Numbers, strings, arrays and objects, written without blanks.  A text is made from the
texts of its parts, and its length is a sum over theirs: one comma for each part after
the first, and the brackets around them (`length_array`).  Bytes written as an array of
numbers take two to four characters each (`byteSize`).
-/
import Mathlib.Algebra.GroupWithZero.Nat
import Mathlib.Algebra.Order.BigOperators.Group.List
import Mathlib.Algebra.Order.Group.Nat
import Mathlib.Tactic.Common

namespace JsonText

abbrev Text := List UInt8

/-! ## Text -/

def number (n : Nat) : Text := (Nat.toDigits 10 n).map Char.toUInt8

/-- A digit of an escape. -/
def hexDigit (n : Nat) : UInt8 := (Nat.digitChar n).toUInt8

/-- A character of a string: quotes, backslashes and control characters are escaped,
anything else is written in UTF-8. -/
def escape (c : Char) : Text :=
  match c.toNat with
  | 0x22 => [0x5c, 0x22]
  | 0x5c => [0x5c, 0x5c]
  | 0x08 => [0x5c, 0x62]
  | 0x09 => [0x5c, 0x74]
  | 0x0a => [0x5c, 0x6e]
  | 0x0c => [0x5c, 0x66]
  | 0x0d => [0x5c, 0x72]
  | n =>
      if n < 0x20 then [0x5c, 0x75, 0x30, 0x30, hexDigit (n / 16), hexDigit (n % 16)]
      else String.utf8EncodeChar c

def string (s : String) : Text := 0x22 :: (s.toList.flatMap escape ++ [0x22])

/-- Parts with commas between them. -/
def commas (parts : List Text) : Text := [0x2c].intercalate parts

def array (parts : List Text) : Text := 0x5b :: (commas parts ++ [0x5d])

def object (fields : List (String × Text)) : Text :=
  0x7b :: (commas (fields.map (fun f => string f.1 ++ 0x3a :: f.2)) ++ [0x7d])

/-- Bytes, as an array of numbers. -/
def bytes (bs : List UInt8) : Text := array (bs.map (fun b => number b.toNat))

/-! ## Length -/

/-- The number of decimal digits. -/
def decimals (n : Nat) : Nat := (Nat.toDigits 10 n).length

/-- The length of parts with commas between them and brackets around. -/
def arraySize (sizes : List Nat) : Nat := 1 + max 1 (sizes.map (· + 1)).sum

/-- The digits of a byte and a comma. -/
def byteSize (b : UInt8) : Nat := if b < 10 then 2 else if b < 100 then 3 else 4

def bytesSize (bs : List UInt8) : Nat := 1 + max 1 (bs.map byteSize).sum

/-- The length of a string as it is escaped, without its quotes. -/
def escapedSize (s : String) : Nat := (s.toList.map (fun c => (escape c).length)).sum

theorem length_string (s : String) : (string s).length = escapedSize s + 2 := by
  rw [string, List.length_cons, List.length_append, List.length_flatMap, escapedSize]
  rfl

theorem length_number (n : Nat) : (number n).length = decimals n :=
  List.length_map _

/-- Each part takes its length and a comma, but for the first. -/
theorem length_commas {parts : List Text} (h : parts ≠ []) :
    (commas parts).length + 1 = (parts.map (fun p => p.length + 1)).sum := by
  induction parts with
  | nil => exact absurd rfl h
  | cons p parts ih =>
      cases parts with
      | nil => simp [commas]
      | cons q parts =>
          have ih := ih (List.cons_ne_nil q parts)
          rw [commas, List.intercalate_cons_cons, List.map_cons, List.sum_cons, ← ih]
          simp only [List.length_append, List.length_singleton, commas]
          omega

theorem length_array (parts : List Text) :
    (array parts).length = arraySize (parts.map List.length) := by
  rw [array, arraySize, List.map_map]
  cases parts with
  | nil => rfl
  | cons p parts =>
      have hcommas := length_commas (List.cons_ne_nil p parts)
      have hsum : ((p :: parts).map ((· + 1) ∘ List.length)).sum
          = (commas (p :: parts)).length + 1 := hcommas.symm
      rw [hsum, List.length_cons, List.length_append, List.length_singleton]
      omega

theorem lt_arraySize {sizes : List Nat} {n : Nat} (h : n ∈ sizes) : n < arraySize sizes := by
  have hsum : n + 1 ≤ (sizes.map (· + 1)).sum := List.le_sum_of_mem (List.mem_map_of_mem h)
  rw [arraySize]
  omega

theorem length_object (fields : List (String × Text)) : (object fields).length =
    arraySize (fields.map (fun f => (string f.1).length + (f.2.length + 1))) := by
  have harray := length_array (fields.map (fun f => string f.1 ++ 0x3a :: f.2))
  have hlength : ∀ parts, (array parts).length = (commas parts ++ [0x5d]).length + 1 := by
    intro parts
    rfl
  rw [hlength, List.length_append, List.length_singleton, List.map_map] at harray
  rw [object, List.length_cons, List.length_append, List.length_singleton, harray]
  congr 2
  funext f
  simp

theorem decimals_byte (b : UInt8) : decimals b.toNat + 1 = byteSize b := by
  have hpos : 0 < decimals b.toNat := Nat.length_toDigits_pos
  have hone : decimals b.toNat ≤ 1 ↔ b.toNat < 10 := Nat.length_toDigits_le_iff (by decide) (by decide)
  have htwo : decimals b.toNat ≤ 2 ↔ b.toNat < 100 :=
    Nat.length_toDigits_le_iff (by decide) (by decide)
  have hthree : decimals b.toNat ≤ 3 ↔ b.toNat < 1000 :=
    Nat.length_toDigits_le_iff (by decide) (by decide)
  have hbyte : b.toNat < 256 := b.toNat_lt
  rw [byteSize]
  split
  · next hlt =>
      have hlt : b.toNat < 10 := UInt8.lt_iff_toNat_lt.mp hlt
      omega
  · next hge =>
      have hge : ¬ b.toNat < 10 := fun hlt => hge (UInt8.lt_iff_toNat_lt.mpr hlt)
      split
      · next hlt =>
          have hlt : b.toNat < 100 := UInt8.lt_iff_toNat_lt.mp hlt
          omega
      · next hge' =>
          have hge' : ¬ b.toNat < 100 := fun hlt => hge' (UInt8.lt_iff_toNat_lt.mpr hlt)
          omega

theorem length_bytes (bs : List UInt8) : (bytes bs).length = bytesSize bs := by
  rw [bytes, length_array, arraySize, bytesSize, List.map_map, List.map_map]
  congr 3
  refine List.map_congr_left (fun b _ => ?_)
  show (number b.toNat).length + 1 = byteSize b
  rw [length_number, decimals_byte]

/-- Two characters for each byte, at least. -/
theorem two_mul_length_lt_bytesSize (bs : List UInt8) : 2 * bs.length < bytesSize bs := by
  have hsum : 2 * bs.length ≤ (bs.map byteSize).sum := by
    induction bs with
    | nil => exact Nat.le_refl _
    | cons b bs ih =>
        have hbyte : 2 ≤ byteSize b := by
          rw [byteSize]
          split
          · exact Nat.le_refl _
          · split <;> decide
        rw [List.map_cons, List.sum_cons, List.length_cons]
        omega
  rw [bytesSize]
  omega

end JsonText
