/-
# `TrafficDirector.Session.Patch` — the patch in place, on any bytes

`force_session_resumption` patches a mutable slice that a snapshot has brought in, so
nothing is known of its bytes.  Here it runs as the source has it: a loop over indices,
additions that panic when they overflow, a write in place, and errors that leave the
slice behind as it is at that point.  `forceSessionResumptionMut_eq` says that none of
this shows: no addition overflows, and the result is the pure `forceSessionResumption`.

`WireConnect` is a CONNECT by its fields, and `Encodes` says which byte strings are
encodings of it.  The flags stand behind a length in one to four bytes and a name of any
length; `forceSessionResumption_layout` finds them there.
-/
import TrafficDirector.Session.Resumption

namespace TrafficDirector

/-! ## The patch in place -/

/-- A byte slice; the language keeps its length within `isize::MAX`. -/
structure Slice where
  bytes : Bytes
  small : bytes.length < 2 ^ 63
deriving DecidableEq

/-- Writing to an index. -/
def Slice.set (s : Slice) (i : Nat) (x : UInt8) : Slice where
  bytes := s.bytes.set i x
  small := by
    rw [List.length_set]
    exact s.small

/-- Code that works on a slice and may return an error; `none` is a panic. -/
abbrev PatchM := ExceptT IoError (StateT Slice Option)

namespace PatchM

variable {α : Type} {s : Slice} {i j : Nat} {x : UInt8} {f : UInt8 → PatchM α} {g : Nat → PatchM α}

def malformed : IoError := ⟨.invalidData, "malformed CONNECT in snapshot"⟩

/-- `get(i).ok_or_else(invalid)?` -/
def get (i : Nat) : PatchM UInt8 := fun s =>
  match s.bytes[i]? with
  | some x => some (.ok x, s)
  | none => some (.error malformed, s)

/-- `usize` addition. -/
def add (i j : Nat) : PatchM Nat := fun s => if i + j < 2 ^ 64 then some (.ok (i + j), s) else none

def write (i : Nat) (x : UInt8) : PatchM Unit := fun s => some (.ok (), s.set i x)

theorem get_bind (h : s.bytes[i]? = some x) : (get i >>= f) s = f x s := by
  show (get i s).bind _ = _
  rw [get, h]
  rfl

theorem get_bind_none (h : s.bytes[i]? = none) : (get i >>= f) s = some (.error malformed, s) := by
  show (get i s).bind _ = _
  rw [get, h]
  rfl

theorem add_bind (h : i + j < 2 ^ 64) : (add i j >>= g) s = g (i + j) s := by
  show (add i j s).bind _ = _
  rw [add, if_pos h]
  rfl

end PatchM

open PatchM

/-- The loop over the remaining length: the index after it. -/
def skipRemainingLength (s : Slice) (i : Nat) : Option (Except IoError Nat) :=
  if h : i < s.bytes.length then
    if i + 1 < 2 ^ 64 then
      if s.bytes[i] &&& 0x80 = 0 then some (.ok (i + 1)) else skipRemainingLength s (i + 1)
    else none
  else some (.error malformed)
termination_by s.bytes.length - i

/-- The remaining length is skipped; the slice is only read. -/
def skipped : PatchM Nat := fun s => (skipRemainingLength s 1).map (fun r => (r, s))

theorem skipped_bind {α : Type} {g : Nat → PatchM α} {s : Slice} {i : Nat}
    (h : skipRemainingLength s 1 = some (.ok i)) : (skipped >>= g) s = g i s := by
  show (skipped s).bind _ = _
  rw [skipped, h]
  rfl

theorem skipped_bind_error {α : Type} {g : Nat → PatchM α} {s : Slice} {e : IoError}
    (h : skipRemainingLength s 1 = some (.error e)) : (skipped >>= g) s = some (.error e, s) := by
  show (skipped s).bind _ = _
  rw [skipped, h]
  rfl

def forceSessionResumptionMut : PatchM Unit := do
  let i ← skipped
  let hi ← get i
  let i₁ ← add i 1
  let lo ← get i₁
  let nameLen := hi.toNat * 256 + lo.toNat
  let i₂ ← add i 2
  let i₃ ← add i₂ nameLen
  let flagsAt ← add i₃ 1
  let flags ← get flagsAt
  write flagsAt (flags &&& ~~~ 0x02)

theorem skipRemainingLength_eq (s : Slice) (i : Nat) : skipRemainingLength s i =
    some (match varintLen (s.bytes.drop i) with
      | some n => .ok (n + i)
      | none => .error malformed) := by
  have hsmall := s.small
  fun_induction skipRemainingLength s i with
  | case1 i hi hadd hbyte =>
      rw [List.drop_eq_getElem_cons hi, varintLen, if_pos hbyte, Nat.add_comm]
  | case2 i hi hadd hbyte ih =>
      rw [ih, List.drop_eq_getElem_cons hi, varintLen, if_neg hbyte]
      cases varintLen (s.bytes.drop (i + 1)) with
      | none => rfl
      | some n =>
          simp only [Option.map_some]
          rw [Nat.add_right_comm, Nat.add_assoc]
  | case3 i hi hadd => omega
  | case4 i hi =>
      rw [List.drop_of_length_le (Nat.not_lt.mp hi)]
      rfl

/-- Where the pure patch succeeds, and what it does. -/
theorem forceSessionResumption_eq_ok {b b' : Bytes} : forceSessionResumption b = .ok b' ↔
    ∃ n hi lo flags, varintLen (b.drop 1) = some n ∧ b[n + 1]? = some hi ∧ b[n + 2]? = some lo ∧
      b[n + 3 + (hi.toNat * 256 + lo.toNat) + 1]? = some flags ∧
      b' = b.set (n + 3 + (hi.toNat * 256 + lo.toNat) + 1) (flags &&& ~~~ 0x02) := by
  constructor
  · intro h
    simp only [forceSessionResumption] at h
    split at h
    · cases h
    · next n hn =>
        split at h
        · next hi lo hhi hlo =>
            split at h
            · next flags hflags =>
                exact ⟨n, hi, lo, flags, hn, hhi, hlo, hflags, (Except.ok.inj h).symm⟩
            · cases h
        · cases h
  · rintro ⟨n, hi, lo, flags, hn, hhi, hlo, hflags, rfl⟩
    simp only [forceSessionResumption, hn, hhi, hlo, hflags]

/-- In place: no panic; the bytes that the pure patch gives, or its error and the bytes as
they were. -/
theorem forceSessionResumptionMut_eq (s : Slice) :
    (forceSessionResumptionMut s).map (fun r => (r.1, r.2.bytes)) =
      some (match forceSessionResumption s.bytes with
        | .ok b => (.ok (), b)
        | .error e => (.error e, s.bytes)) := by
  have hlt : ∀ {i : Nat} {x}, s.bytes[i]? = some x → i < 2 ^ 63 := by
    intro i x hx
    exact Nat.lt_trans (List.getElem?_eq_some_iff.mp hx).1 s.small
  have hskip := skipRemainingLength_eq s 1
  unfold forceSessionResumptionMut forceSessionResumption
  cases hn : varintLen (s.bytes.drop 1) with
  | none =>
      rw [hn] at hskip
      rw [skipped_bind_error hskip]
      rfl
  | some n =>
      rw [hn] at hskip
      rw [skipped_bind hskip]
      cases hhi : s.bytes[n + 1]? with
      | none =>
          rw [get_bind_none hhi]
          simp only [hhi]
          rfl
      | some hi =>
          have := hlt hhi
          rw [get_bind hhi, add_bind (by omega)]
          cases hlo : s.bytes[n + 1 + 1]? with
          | none =>
              rw [get_bind_none hlo]
              simp only [hhi, hlo]
              rfl
          | some lo =>
              have := hi.toNat_lt
              have := lo.toNat_lt
              rw [get_bind hlo, add_bind (by omega), add_bind (by omega), add_bind (by omega)]
              simp only [hhi, hlo]
              cases hflags : s.bytes[n + 1 + 2 + (hi.toNat * 256 + lo.toNat) + 1]? with
              | none =>
                  rw [get_bind_none hflags]
                  rfl
              | some flags =>
                  rw [get_bind hflags]
                  rfl

theorem Slice.ext_bytes {s t : Slice} (h : s.bytes = t.bytes) : s = t := by
  cases s
  cases t
  cases h
  rfl

/-- Whatever the bytes, the patch returns. -/
theorem forceSessionResumptionMut_returns (s : Slice) :
    (∃ s', forceSessionResumptionMut s = some (.ok (), s') ∧
      forceSessionResumption s.bytes = .ok s'.bytes) ∨
    ∃ e, forceSessionResumptionMut s = some (.error e, s) ∧
      forceSessionResumption s.bytes = .error e := by
  obtain ⟨⟨r, s'⟩, hm, hr⟩ := Option.map_eq_some_iff.mp (forceSessionResumptionMut_eq s)
  cases hp : forceSessionResumption s.bytes with
  | ok b =>
      rw [hp] at hr
      obtain ⟨rfl, rfl⟩ := Prod.mk.inj hr
      exact Or.inl ⟨s', hm, rfl⟩
  | error e =>
      rw [hp] at hr
      obtain ⟨rfl, hs⟩ := Prod.mk.inj hr
      obtain rfl := Slice.ext_bytes hs
      exact Or.inr ⟨e, hm, rfl⟩

/-! ## Patching again -/

theorem varintLen_set {x : UInt8} : ∀ {b : Bytes} {n i : Nat}, varintLen b = some n → n ≤ i →
    varintLen (b.set i x) = some n
  | [], _, _, h, _ => by cases h
  | y :: b, n, i, h, hi => by
      rw [varintLen] at h
      split at h
      · next hy =>
          cases h
          obtain ⟨i, rfl⟩ := Nat.exists_eq_add_of_le hi
          rw [Nat.add_comm 1, List.set_cons_succ, varintLen, if_pos hy]
      · next hy =>
          obtain ⟨m, hm, rfl⟩ := Option.map_eq_some_iff.mp h
          obtain ⟨i, rfl⟩ := Nat.exists_eq_add_of_le hi
          rw [Nat.add_right_comm, List.set_cons_succ, varintLen, if_neg hy,
            varintLen_set hm (Nat.le_add_right m i)]
          rfl

/-- The bit is clear, and nothing before the flags has changed: a second patch finds the
same byte and leaves it. -/
theorem forceSessionResumption_again {b b' : Bytes} (h : forceSessionResumption b = .ok b') :
    forceSessionResumption b' = .ok b' := by
  obtain ⟨n, hi, lo, flags, hn, hhi, hlo, hflags, rfl⟩ := forceSessionResumption_eq_ok.mp h
  have hlen := (List.getElem?_eq_some_iff.mp hflags).1
  refine forceSessionResumption_eq_ok.mpr ⟨n, hi, lo, flags &&& ~~~ 0x02, ?_, ?_, ?_, ?_, ?_⟩
  · rw [List.drop_set, if_neg (by omega)]
    exact varintLen_set hn (by omega)
  · rw [List.getElem?_set_ne (by omega)]
    exact hhi
  · rw [List.getElem?_set_ne (by omega)]
    exact hlo
  · exact List.getElem?_set_self hlen
  · rw [List.set_set, UInt8.and_assoc, UInt8.and_self]

/-! ## The encodings of a CONNECT -/

/-- A string of at most 65535 bytes. -/
abbrev Field := { b : Bytes // b.length < 2 ^ 16 }

/-- With its length in two bytes before it. -/
def Field.encode (f : Field) : Bytes :=
  UInt8.ofNat (f.val.length / 256) :: UInt8.ofNat (f.val.length % 256) :: f.val

def encodeOption : Option Field → Bytes
  | none => []
  | some f => f.encode

inductive MqttVersion where
  | v31
  | v311
  | v5
deriving DecidableEq

def MqttVersion.level : MqttVersion → UInt8
  | .v31 => 3
  | .v311 => 4
  | .v5 => 5

structure WireWill where
  properties : Bytes
  topic : Field
  payload : Field
deriving DecidableEq

structure WireConnect where
  protocolName : Field
  version : MqttVersion
  /-- bit 0 of the flags -/
  reserved : Bool
  clean : Bool
  willQos : Fin 4
  willRetain : Bool
  keepAlive : UInt8 × UInt8
  properties : Bytes
  clientId : Field
  will : Option WireWill
  userName : Option Field
  password : Option Field
deriving DecidableEq

/-- `v` is a form of the number `n` in one to four bytes, not always the shortest. -/
def Varint (n : Nat) (v : Bytes) : Prop := remainingLength 4 1 v = some (some (n, v.length))

/-- Properties with their length before them, which only MQTT 5 has. -/
inductive EncodesProperties : MqttVersion → Bytes → Bytes → Prop where
  | absent {version : MqttVersion} (h : version ≠ .v5) : EncodesProperties version [] []
  | present {properties v : Bytes} (h : Varint properties.length v) :
      EncodesProperties .v5 properties (v ++ properties)

inductive EncodesWill (version : MqttVersion) : Option WireWill → Bytes → Prop where
  | none : EncodesWill version none []
  | some {will : WireWill} {bs : Bytes} (h : EncodesProperties version will.properties bs) :
      EncodesWill version (some will) (bs ++ will.topic.encode ++ will.payload.encode)

namespace WireConnect

def flags (p : WireConnect) : UInt8 :=
  .ofNat (p.reserved.toNat + 2 * p.clean.toNat + 4 * p.will.isSome.toNat + 8 * p.willQos
    + 32 * p.willRetain.toNat + 64 * p.password.isSome.toNat + 128 * p.userName.isSome.toNat)

/-- What follows the flags, around the properties and the will. -/
def afterFlags (p : WireConnect) (properties will : Bytes) : Bytes :=
  p.keepAlive.1 :: p.keepAlive.2 :: properties ++ p.clientId.encode ++ will
    ++ encodeOption p.userName ++ encodeOption p.password

def body (p : WireConnect) (properties will : Bytes) : Bytes :=
  p.protocolName.encode ++ p.version.level :: p.flags :: p.afterFlags properties will

/-- `b` is an encoding of this CONNECT. -/
def Encodes (p : WireConnect) (b : Bytes) : Prop :=
  ∃ v properties will, Varint (p.body properties will).length v ∧
    EncodesProperties p.version p.properties properties ∧ EncodesWill p.version p.will will ∧
    b = 0x10 :: (v ++ p.body properties will)

/-- The same CONNECT, for a session that goes on. -/
def resuming (p : WireConnect) : WireConnect := { p with clean := false }

/-- Bit 1 of the flags is `clean`, and nothing else of them is. -/
theorem flags_resuming (p : WireConnect) : p.resuming.flags = p.flags &&& ~~~ 0x02 := by
  have hbits : ∀ (reserved clean will retain password userName : Bool) (qos : Fin 4),
      UInt8.ofNat (reserved.toNat + 2 * false.toNat + 4 * will.toNat + 8 * qos
        + 32 * retain.toNat + 64 * password.toNat + 128 * userName.toNat)
      = UInt8.ofNat (reserved.toNat + 2 * clean.toNat + 4 * will.toNat + 8 * qos
        + 32 * retain.toNat + 64 * password.toNat + 128 * userName.toNat) &&& ~~~ 0x02 := by
    decide +kernel
  exact hbits ..

end WireConnect

theorem Varint.append {n : Nat} {v : Bytes} (hv : Varint n v) (c : Bytes) :
    remainingLength 4 1 (v ++ c) = some (some (n, v.length)) :=
  remainingLength_append c 4 1 v _ hv

/-- The two bytes of a length. -/
theorem Field.length_eq (f : Field) :
    (UInt8.ofNat (f.val.length / 256)).toNat * 256 + (UInt8.ofNat (f.val.length % 256)).toNat
      = f.val.length := by
  have hhi : f.val.length / 256 < 2 ^ 8 := Nat.div_lt_of_lt_mul f.property
  have hlo : f.val.length % 256 < 2 ^ 8 := Nat.mod_lt _ (by decide)
  rw [UInt8.toNat_ofNat_of_lt' hhi, UInt8.toNat_ofNat_of_lt' hlo]
  exact Nat.div_add_mod' f.val.length 256

/-- Behind any form of the remaining length and a name of any length, the patch finds the
flags, and changes nothing else. -/
theorem forceSessionResumption_layout {first level flags : UInt8} {v rest : Bytes} {n : Nat}
    (name : Field) (hv : Varint n v) :
    forceSessionResumption (first :: (v ++ (name.encode ++ level :: flags :: rest))) =
      .ok (first :: (v ++ (name.encode ++ level :: (flags &&& ~~~ 0x02) :: rest))) := by
  have hget : ∀ i, (first :: (v ++ (name.encode ++ level :: flags :: rest)))[v.length + i + 1]?
      = (name.encode ++ level :: flags :: rest)[i]? := by
    intro i
    rw [List.getElem?_cons_succ, List.getElem?_append_right (Nat.le_add_right _ i),
      Nat.add_sub_cancel_left]
  have hlen : name.encode.length = name.val.length + 2 := rfl
  refine forceSessionResumption_eq_ok.mpr ⟨v.length, UInt8.ofNat (name.val.length / 256),
    UInt8.ofNat (name.val.length % 256), flags, ?_, hget 0, hget 1, ?_, ?_⟩
  · exact varintLen_of_remainingLength 4 1 _ n _ (hv.append _)
  · rw [name.length_eq, show v.length + 3 + name.val.length + 1
        = v.length + (name.encode.length + 1) + 1 by omega, hget,
      List.getElem?_append_right (Nat.le_add_right _ 1), Nat.add_sub_cancel_left]
    rfl
  · rw [name.length_eq, show v.length + 3 + name.val.length + 1
        = v.length + (name.encode.length + 1) + 1 by omega, List.set_cons_succ,
      List.set_append_right _ _ (Nat.le_add_right _ _), Nat.add_sub_cancel_left,
      List.set_append_right _ _ (Nat.le_add_right _ 1), Nat.add_sub_cancel_left]
    rfl

namespace WireConnect

variable {p : WireConnect} {b : Bytes}

theorem Encodes.patched (h : p.Encodes b) : ∃ b', forceSessionResumption b = .ok b' ∧
    p.resuming.Encodes b' := by
  obtain ⟨v, properties, will, hv, hproperties, hwill, rfl⟩ := h
  refine ⟨_, forceSessionResumption_layout p.protocolName hv, v, properties, will, ?_,
    hproperties, hwill, ?_⟩
  · have hlength : (p.resuming.body properties will).length = (p.body properties will).length := by
      rw [body, body, List.length_append, List.length_append]
      rfl
    rw [hlength]
    exact hv
  · rw [body, flags_resuming]
    rfl

end WireConnect

/-! ## Reading the fields back -/

theorem readField_encode (f : Field) (rest : Bytes) :
    readField (f.encode ++ rest) = some (f.val, rest) := by
  show readField (_ :: _ :: (f.val ++ rest)) = _
  rw [readField, f.length_eq, if_pos, List.take_left', List.drop_left']
  · rfl
  · rfl
  · rw [List.length_append]
    exact Nat.le_add_right _ _

theorem EncodesProperties.read {version : MqttVersion} {properties bs : Bytes}
    (h : EncodesProperties version properties bs) (rest : Bytes) :
    readProperties version.level (bs ++ rest) = some (properties, rest) := by
  cases h with
  | absent hversion =>
      cases version with
      | v31 => rfl
      | v311 => rfl
      | v5 => exact absurd rfl hversion
  | present hv =>
      rw [readProperties, if_pos (show MqttVersion.v5.level = 5 from rfl), List.append_assoc,
        hv.append]
      simp only [List.drop_left', List.length_append, Nat.le_add_right, if_true, List.take_left']

/-- The fields that a reader of the layout finds are those of the CONNECT. -/
theorem WireConnect.Encodes.header {p : WireConnect} {b : Bytes} (h : p.Encodes b) :
    ∃ will, EncodesWill p.version p.will will ∧ connectHeader b =
      some ⟨p.protocolName.val, p.version.level, p.flags, p.keepAlive, p.properties,
        p.clientId.val, will ++ encodeOption p.userName ++ encodeOption p.password⟩ := by
  obtain ⟨v, properties, will, hv, hproperties, hwill, rfl⟩ := h
  refine ⟨will, hwill, ?_⟩
  rw [connectHeader, if_pos rfl, hv.append]
  simp only [List.drop_left', if_true]
  rw [connectBody, WireConnect.body, readField_encode]
  simp only [WireConnect.afterFlags, List.append_assoc, List.cons_append]
  rw [hproperties.read]
  simp only [Option.bind_eq_bind, Option.bind_some]
  rw [readField_encode]
  rfl

/-! ## Any bytes -/

/-- One bit at most has changed: bit 1 of one byte, which is clear now. -/
def ClearsOneBit (b b' : Bytes) : Prop :=
  ∃ i flags, b[i]? = some flags ∧ b' = b.set i (flags &&& ~~~ 0x02)

theorem clearsOneBit_of_ok {b b' : Bytes} (h : forceSessionResumption b = .ok b') :
    ClearsOneBit b b' := by
  obtain ⟨n, hi, lo, flags, -, -, -, hflags, hset⟩ := forceSessionResumption_eq_ok.mp h
  exact ⟨_, flags, hflags, hset⟩

/-- On every slice the patch returns, with an error and the slice as it was, or with one bit
cleared; a second patch changes nothing; and an encoding of a CONNECT becomes one of the
same CONNECT that resumes its session. -/
theorem forceSessionResumption_patches (s : Slice) : ∃ r s',
    forceSessionResumptionMut s = some (r, s') ∧
    ((∃ e, r = .error e ∧ s' = s) ∨ (r = .ok () ∧ ClearsOneBit s.bytes s'.bytes)) ∧
    forceSessionResumptionMut s' = some (r, s') ∧
    ∀ p : WireConnect, p.Encodes s.bytes → r = .ok () ∧ p.resuming.Encodes s'.bytes := by
  rcases forceSessionResumptionMut_returns s with ⟨s', hm, hok⟩ | ⟨e, hm, herror⟩
  · refine ⟨.ok (), s', hm, Or.inr ⟨rfl, clearsOneBit_of_ok hok⟩, ?_, ?_⟩
    · have hagain := forceSessionResumption_again hok
      rcases forceSessionResumptionMut_returns s' with ⟨t, ht, htok⟩ | ⟨e, -, herror⟩
      · obtain rfl := Slice.ext_bytes (Except.ok.inj (hagain.symm.trans htok))
        exact ht
      · cases hagain.symm.trans herror
    · intro p hp
      obtain ⟨b', hb', hresuming⟩ := hp.patched
      obtain rfl := Except.ok.inj (hok.symm.trans hb')
      exact ⟨rfl, hresuming⟩
  · refine ⟨.error e, s, hm, Or.inl ⟨e, rfl, rfl⟩, hm, ?_⟩
    intro p hp
    obtain ⟨b', hb', -⟩ := hp.patched
    cases herror.symm.trans hb'

/-- A CONNECT with a will, a user name and a password, which asks for a clean session. -/
def cleanConnect : WireConnect where
  protocolName := ⟨[0x4d, 0x51, 0x54, 0x54], by decide⟩
  version := .v5
  reserved := false
  clean := true
  willQos := 1
  willRetain := true
  keepAlive := (0, 60)
  properties := [0x11, 0, 0, 0, 10]
  clientId := ⟨[0x63], by decide⟩
  will := some ⟨[], ⟨[0x74], by decide⟩, ⟨[], by decide⟩⟩
  userName := some ⟨[0x75], by decide⟩
  password := some ⟨[0x70], by decide⟩

/-- Its remaining length in two bytes, although one would do. -/
def cleanConnectBytes : Slice where
  bytes := [0x10, 0x9f, 0x00, 0, 4, 0x4d, 0x51, 0x54, 0x54, 5, 0xee, 0, 60, 5, 0x11, 0, 0, 0, 10,
    0, 1, 0x63, 0, 0, 1, 0x74, 0, 0, 0, 1, 0x75, 0, 1, 0x70]
  small := by decide

theorem cleanConnect_encodes : cleanConnect.Encodes cleanConnectBytes.bytes :=
  ⟨[0x9f, 0x00], [5, 0x11, 0, 0, 0, 10], [0, 0, 1, 0x74, 0, 0], rfl,
    @EncodesProperties.present [0x11, 0, 0, 0, 10] [5] rfl,
    @EncodesWill.some .v5 _ [0] (@EncodesProperties.present [] [0] rfl), rfl⟩

theorem forceSessionResumption_patches_clean : ∃ s',
    forceSessionResumptionMut cleanConnectBytes = some (.ok (), s') ∧
    cleanConnect.resuming.Encodes s'.bytes := by
  obtain ⟨r, s', hm, -, -, hencodes⟩ := forceSessionResumption_patches cleanConnectBytes
  obtain ⟨rfl, hresuming⟩ := hencodes cleanConnect cleanConnect_encodes
  exact ⟨s', hm, hresuming⟩

end TrafficDirector
