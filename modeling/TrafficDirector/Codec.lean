/-
# `TrafficDirector.Codec` — what the proxy relies on of the packet codec

The codec crate is not part of the repository.  It enters as a parameter: the
structure `Codec` has the encoder, the decoder of a frame's body, and the one
freedom a decoder has between two reads, to take a complete fixed header out of
the read buffer before the body has arrived (`takesHeader`).  The only law is
that an encoded packet starts with its packet type.

The framing itself (fixed header: one type byte, then a remaining length of one
to four bytes) is that of the MQTT standard, as a `Framing.Grammar`.
-/
import TrafficDirector.Lib.Framing
import TrafficDirector.Packet

namespace TrafficDirector

/-- `session::MAX_PACKET_SIZE` -/
def maxPacketSize : Nat := 1024 * 1024

/-- An encoded packet: a byte vector that is not empty, split at `raw[0]`. -/
structure RawPacket where
  head : UInt8
  tail : Bytes
deriving DecidableEq

namespace RawPacket

def toBytes (r : RawPacket) : Bytes := r.head :: r.tail

/-- `raw.len()` -/
def len (r : RawPacket) : Nat := r.tail.length + 1

/-- `raw[0] >> 4` -/
def packetType (r : RawPacket) : UInt8 := r.head >>> 4

end RawPacket

/-- The packet type of the fixed header. -/
def MqttPacket.packetType : MqttPacket → UInt8
  | .v3 (.connect _) | .v5 (.connect _) => 1
  | .v3 (.connectAck _) | .v5 (.connectAck _) => 2
  | .v3 (.publish _) | .v5 (.publish _) => 3
  | .v3 (.publishAck _) | .v5 (.publishAck _) => 4
  | .v3 (.publishReceived _) | .v5 (.publishReceived _) => 5
  | .v3 (.publishRelease _) | .v5 (.publishRelease _) => 6
  | .v3 (.publishComplete _) | .v5 (.publishComplete _) => 7
  | .v3 (.subscribe ..) | .v5 (.subscribe _) => 8
  | .v3 (.subscribeAck ..) | .v5 (.subscribeAck _) => 9
  | .v3 (.unsubscribe ..) | .v5 (.unsubscribe _) => 10
  | .v3 (.unsubscribeAck _) | .v5 (.unsubscribeAck _) => 11
  | .v3 .pingRequest | .v5 .pingRequest => 12
  | .v3 .pingResponse | .v5 .pingResponse => 13
  | .v3 .disconnect | .v5 (.disconnect _) => 14
  | .v5 .auth => 15

/-! ## Framing -/

/-- The start of a byte string read as a fixed header: `complete first n k` is
the first byte, the remaining length, and the length of the header itself. -/
inductive HeaderScan where
  | more
  | complete (first : UInt8) (remaining len : Nat)
  | bad
deriving DecidableEq

/-- The remaining length, in at most `k` bytes, least significant first; `m` is
the weight of the next byte.  On success the value and the bytes used. -/
def remainingLength : Nat → Nat → Bytes → Option (Option (Nat × Nat))
  | 0, _, _ => some none
  | _ + 1, _, [] => none
  | k + 1, m, b :: bs =>
      if b &&& 0x80 = 0 then some (some ((b &&& 0x7f).toNat * m, 1))
      else (remainingLength k (m * 128) bs).map
        (Option.map (fun r => ((b &&& 0x7f).toNat * m + r.1, r.2 + 1)))

def fixedHeader : Bytes → HeaderScan
  | [] => .more
  | first :: bs =>
      match remainingLength 4 1 bs with
      | none => .more
      | some none => .bad
      | some (some (n, k)) => if maxPacketSize < n then .bad else .complete first n (k + 1)

theorem remainingLength_append (c : Bytes) : ∀ (k m : Nat) (b : Bytes) (r : Option (Nat × Nat)),
    remainingLength k m b = some r → remainingLength k m (b ++ c) = some r
  | 0, _, _, _, h => h
  | _ + 1, _, [], _, h => by simp [remainingLength] at h
  | k + 1, m, x :: bs, r, h => by
      rw [List.cons_append]
      simp only [remainingLength] at h ⊢
      split at h
      · next hx => rw [if_pos hx]; exact h
      · next hx =>
          rw [if_neg hx]
          cases hr : remainingLength k (m * 128) bs with
          | none => rw [hr] at h; exact absurd h (by simp)
          | some r' => rw [remainingLength_append c k _ bs r' hr, ← hr]; exact h

theorem remainingLength_len : ∀ (k m : Nat) (b : Bytes) (n l : Nat),
    remainingLength k m b = some (some (n, l)) → 1 ≤ l ∧ l ≤ b.length
  | 0, _, _, _, _, h => by simp [remainingLength] at h
  | _ + 1, _, [], _, _, h => by simp [remainingLength] at h
  | k + 1, m, x :: bs, n, l, h => by
      simp only [remainingLength] at h
      split at h
      · simp only [Option.some.injEq, Prod.mk.injEq] at h
        obtain ⟨-, rfl⟩ := h
        simp
      · cases hr : remainingLength k (m * 128) bs with
        | none => rw [hr] at h; exact absurd h (by simp)
        | some r' =>
            rw [hr] at h
            cases r' with
            | none => exact absurd h (by simp)
            | some r' =>
                have := remainingLength_len k _ bs r'.1 r'.2 hr
                simp only [Option.map_some, Option.some.injEq, Prod.mk.injEq] at h
                obtain ⟨-, rfl⟩ := h
                simp only [List.length_cons]
                omega

theorem remainingLength_take : ∀ (k m : Nat) (b : Bytes) (n l : Nat),
    remainingLength k m b = some (some (n, l)) → remainingLength k m (b.take l) = some (some (n, l))
  | 0, _, _, _, _, h => by simp [remainingLength] at h
  | _ + 1, _, [], _, _, h => by simp [remainingLength] at h
  | k + 1, m, x :: bs, n, l, h => by
      simp only [remainingLength] at h
      split at h
      · next hx =>
          simp only [Option.some.injEq, Prod.mk.injEq] at h
          obtain ⟨rfl, rfl⟩ := h
          rw [List.take_succ_cons, remainingLength, if_pos hx]
      · next hx =>
          cases hr : remainingLength k (m * 128) bs with
          | none => rw [hr] at h; exact absurd h (by simp)
          | some r' =>
            rw [hr] at h
            cases r' with
            | none => exact absurd h (by simp)
            | some r' =>
                have ih := remainingLength_take k _ bs r'.1 r'.2 hr
                simp only [Option.map_some, Option.some.injEq, Prod.mk.injEq] at h
                obtain ⟨rfl, rfl⟩ := h
                rw [List.take_succ_cons, remainingLength, if_neg hx, ih]
                rfl

theorem fixedHeader_append {b : Bytes} (c : Bytes) (h : fixedHeader b ≠ .more) :
    fixedHeader (b ++ c) = fixedHeader b := by
  cases b with
  | nil => exact absurd rfl h
  | cons x bs =>
      rw [List.cons_append]
      simp only [fixedHeader] at h ⊢
      cases hr : remainingLength 4 1 bs with
      | none => rw [hr] at h; exact absurd rfl h
      | some r => rw [remainingLength_append c 4 1 bs r hr]

theorem fixedHeader_len {b : Bytes} {first : UInt8} {n k : Nat}
    (h : fixedHeader b = .complete first n k) : 2 ≤ k ∧ k ≤ b.length := by
  cases b with
  | nil => exact absurd h (by simp [fixedHeader])
  | cons x bs =>
      simp only [fixedHeader] at h
      split at h
      · exact absurd h (by simp)
      · exact absurd h (by simp)
      · next n' k' hr =>
          have := remainingLength_len 4 1 bs n' k' hr
          split at h
          · exact absurd h (by simp)
          · simp only [HeaderScan.complete.injEq] at h
            obtain ⟨-, -, rfl⟩ := h
            simp only [List.length_cons]
            omega

/-- A complete header is complete by itself. -/
theorem fixedHeader_take {b : Bytes} {first : UInt8} {n k : Nat}
    (h : fixedHeader b = .complete first n k) : fixedHeader (b.take k) = .complete first n k := by
  cases b with
  | nil => exact absurd h (by simp [fixedHeader])
  | cons x bs =>
      simp only [fixedHeader] at h
      split at h
      · exact absurd h (by simp)
      · exact absurd h (by simp)
      · next n' k' hr =>
          split at h
          · exact absurd h (by simp)
          · next hn =>
              simp only [HeaderScan.complete.injEq] at h
              obtain ⟨rfl, rfl, rfl⟩ := h
              rw [List.take_succ_cons, fixedHeader, remainingLength_take 4 1 bs n' k' hr]
              simp only [if_neg hn]

/-- The frame at the head of a byte string, decoded by `parse` from its first
byte and its body. -/
def scanFrame {φ : Type} (parse : UInt8 → Bytes → Option φ) (b : Bytes) : Framing.Scan UInt8 φ :=
  match fixedHeader b with
  | .more => .more
  | .bad => .bad
  | .complete first n k =>
      if (b.drop k).length < n then .more
      else match parse first ((b.drop k).take n) with
        | none => .bad
        | some p => .item p ((b.drop k).drop n)

variable {φ : Type} {parse : UInt8 → Bytes → Option φ}

theorem scanFrame_complete {b : Bytes} {first : UInt8} {n k : Nat}
    (h : fixedHeader b = .complete first n k) :
    scanFrame parse b = if (b.drop k).length < n then .more
      else match parse first ((b.drop k).take n) with
        | none => .bad
        | some p => .item p ((b.drop k).drop n) := by
  simp only [scanFrame, h]

theorem scanFrame_eq_more {b : Bytes} : scanFrame parse b = .more ↔
    fixedHeader b = .more ∨
      ∃ first n k, fixedHeader b = .complete first n k ∧ (b.drop k).length < n := by
  cases hh : fixedHeader b with
  | more => simp [scanFrame, hh]
  | bad => simp [scanFrame, hh]
  | complete first n k =>
      rw [scanFrame_complete hh]
      constructor
      · intro h
        split at h
        · next hn => exact Or.inr ⟨first, n, k, rfl, hn⟩
        · split at h <;> exact nomatch h
      · rintro (h | ⟨_, _, _, h, hn⟩)
        · exact nomatch h
        · obtain ⟨rfl, rfl, rfl⟩ := HeaderScan.complete.inj h
          exact if_pos hn

theorem scanFrame_eq_item {b r : Bytes} {x : φ} : scanFrame parse b = .item x r ↔
    ∃ first n k, fixedHeader b = .complete first n k ∧ n ≤ (b.drop k).length ∧
      parse first ((b.drop k).take n) = some x ∧ r = (b.drop k).drop n := by
  cases hh : fixedHeader b with
  | more => simp [scanFrame, hh]
  | bad => simp [scanFrame, hh]
  | complete first n k =>
      rw [scanFrame_complete hh]
      constructor
      · intro h
        split at h
        · exact nomatch h
        · next hn =>
            split at h
            · exact nomatch h
            · next y hy =>
                obtain ⟨rfl, rfl⟩ := Framing.Scan.item.inj h
                exact ⟨first, n, k, rfl, Nat.le_of_not_lt hn, hy, rfl⟩
      · rintro ⟨_, _, _, h, hn, hp, rfl⟩
        obtain ⟨rfl, rfl, rfl⟩ := HeaderScan.complete.inj h
        rw [if_neg (Nat.not_lt.mpr hn), hp]

/-- The body of the frame at the head is shorter than the stream by two bytes at least. -/
theorem scanFrame_body {b r : Bytes} {x : φ} (h : scanFrame parse b = .item x r) :
    ∃ first body, parse first body = some x ∧ body.length + r.length + 2 ≤ b.length := by
  obtain ⟨first, n, k, hh, hn, hp, rfl⟩ := scanFrame_eq_item.mp h
  have hlen := fixedHeader_len hh
  refine ⟨first, _, hp, ?_⟩
  simp only [List.length_take, List.length_drop] at hn ⊢
  omega

/-- Once the frame at the head is there, what follows does not matter to it. -/
theorem scanFrame_append {b : Bytes} (c : Bytes) (h : scanFrame parse b ≠ .more) :
    scanFrame parse (b ++ c) = match scanFrame parse b with
      | .item p r => .item p (r ++ c)
      | s => s := by
  cases hh : fixedHeader b with
  | more => simp [scanFrame, hh] at h
  | bad =>
      have hbc := fixedHeader_append c (by rw [hh]; simp)
      simp [scanFrame, hbc, hh]
  | complete first n k =>
      have hlen := fixedHeader_len hh
      have hbc := fixedHeader_append c (by rw [hh]; simp)
      rw [scanFrame_complete hh] at h ⊢
      rw [scanFrame_complete (hbc.trans hh), List.drop_append_of_le_length hlen.2]
      split at h
      · exact absurd rfl h
      · next hn =>
          rw [if_neg hn, if_neg (by simp only [List.length_append]; omega),
            List.take_append_of_le_length (by omega)]
          cases parse first ((b.drop k).take n) with
          | none => rfl
          | some p => rw [List.drop_append_of_le_length (by omega)]

/-- MQTT framing with the body decoder `parse`. -/
def mqttGrammar (parse : UInt8 → Bytes → Option φ) : Framing.Grammar UInt8 φ where
  scan := scanFrame parse
  item_append c h := by rw [scanFrame_append c (by rw [h]; simp), h]
  bad_append c h := by rw [scanFrame_append c (by rw [h]; simp), h]
  item_shrinks h := by
    obtain ⟨_, _, -, hlen⟩ := scanFrame_body h
    omega

/-- The frames themselves, each as its first byte and its body. -/
def frameGrammar : Framing.Grammar UInt8 (UInt8 × Bytes) :=
  mqttGrammar (fun first body => some (first, body))

theorem frameGrammar_scan (b : Bytes) :
    frameGrammar.scan b = scanFrame (fun first body => some (first, body)) b := rfl

/-- How much of an incomplete frame a decoder keeps to itself, if `takesHeader`
says of which it takes the fixed header. -/
def holdWith (takesHeader : Bytes → Bool) (b : Bytes) : Nat :=
  match fixedHeader b with
  | .complete _ _ k => if takesHeader b then k else 0
  | _ => 0

/-- A stream is cut into the same frames by whatever accepts their bodies. -/
theorem mqttGrammar_refines {ψ : Type} {parse' : UInt8 → Bytes → Option ψ}
    (h : ∀ first body x, parse first body = some x → ∃ y, parse' first body = some y) :
    (mqttGrammar parse).Refines (mqttGrammar parse') where
  more hb := scanFrame_eq_more.mpr (scanFrame_eq_more.mp hb)
  item hb := by
    obtain ⟨first, n, k, hh, hn, hp, hr⟩ := scanFrame_eq_item.mp hb
    obtain ⟨y, hy⟩ := h _ _ _ hp
    exact ⟨y, scanFrame_eq_item.mpr ⟨first, n, k, hh, hn, hy, hr⟩⟩

/-- What a decoder holds is a complete fixed header. -/
theorem holdWith_header {takesHeader : Bytes → Bool} {b : Bytes}
    (h : b.take (holdWith takesHeader b) ≠ []) :
    ∃ first n, fixedHeader (b.take (holdWith takesHeader b))
      = .complete first n (b.take (holdWith takesHeader b)).length := by
  cases hh : fixedHeader b with
  | more => simp [holdWith, hh] at h
  | bad => simp [holdWith, hh] at h
  | complete first n k =>
      have hlen := fixedHeader_len hh
      cases ht : takesHeader b with
      | false => simp [holdWith, hh, ht] at h
      | true =>
          rw [show holdWith takesHeader b = k by simp [holdWith, hh, ht], fixedHeader_take hh,
            List.length_take, Nat.min_eq_left hlen.2]
          exact ⟨first, n, rfl⟩

/-! ## The codec -/

structure Codec where
  encode : MqttPacket → RawPacket
  /-- the packet of a frame, from its first byte and its body -/
  parse : ProtocolVersion → UInt8 → Bytes → Option MqttPacket
  /-- whether `decode` moves the complete fixed header of this incomplete frame
  out of the read buffer, into the codec value -/
  takesHeader : Bytes → Bool
  /-- `{packet:?}` -/
  debug : MqttPacket → String
  /-- the text of the error `decode` returns on this byte string -/
  decodeError : ProtocolVersion → Bytes → String
  encode_type : ∀ p, (encode p).packetType = p.packetType

namespace Codec

variable (c : Codec)

def grammar (v : ProtocolVersion) : Framing.Grammar UInt8 MqttPacket := mqttGrammar (c.parse v)

theorem grammar_scan (v : ProtocolVersion) (b : Bytes) :
    (c.grammar v).scan b = scanFrame (c.parse v) b := rfl

/-- How much of an incomplete frame goes into the codec value: nothing, or its
complete fixed header. -/
def hold : Bytes → Nat := holdWith c.takesHeader

/-- `loop { match codec.decode(buf) { Ok(Some(p)) => …, _ => break } }` with a
codec made by `codec_for`: the packets decoded from `b`. -/
def decodeAll (v : ProtocolVersion) (b : Bytes) : List MqttPacket :=
  Framing.drain (c.grammar v) c.hold (.fresh b)

@[simp] theorem decodeAll_nil (v : ProtocolVersion) : c.decodeAll v [] = [] := by
  rw [decodeAll, Framing.drain_eq, Framing.Reader.content_fresh, Framing.Grammar.parse_more]
  rfl

end Codec

/-- `encode_raw` -/
def encodeRaw (c : Codec) (packet : MqttPacket) : RawPacket := c.encode packet

end TrafficDirector
