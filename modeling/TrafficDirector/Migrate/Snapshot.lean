/-
# `TrafficDirector.Migrate.Snapshot` — an instance of `Json`

The results about hand-offs take `serde_json` as a parameter, and what they use of it as
`Json.Writes`.  `serdeJson` stands in for it on concrete inputs: it writes compact text
(`SessionSnapshot.text`), and reads any JSON text of the shape that the derived code wants,
except that a packet without a first byte is refused.  `serdeJson_writes`: it does for every
snapshot what `Json.Writes` asks.
-/
import TrafficDirector.Lib.JsonReader
import TrafficDirector.Migrate.Size

namespace TrafficDirector

open JsonText (Text Value Reads string object array number bytes)

/-! ## Reading -/

def u8Of (v : Value) : Option UInt8 := (v.natBelow 256).map UInt8.ofNat

def u16Of (v : Value) : Option UInt16 := (v.natBelow 65536).map UInt16.ofNat

def bytesOf (v : Value) : Option Bytes := v.items? u8Of

/-- Packets have a first byte: no session has put any others into a snapshot. -/
def RawPacket.ofBytes : Bytes → Option RawPacket
  | [] => none
  | b :: bs => some ⟨b, bs⟩

def rawOf (v : Value) : Option RawPacket := (bytesOf v).bind RawPacket.ofBytes

namespace WindowState

def ofName (name : String) : Option WindowState :=
  [c2bPublishSent, c2bPubrelSent, b2cPublishSent, b2cPubrecForwarded].find?
    (fun state => state.name = name)

/-- A variant is its name, or an object with that name and nothing under it. -/
def ofValue : Value → Option WindowState
  | .string name => ofName name
  | .object [(name, .null)] => ofName name
  | _ => none

end WindowState

def WindowEntry.ofValue (v : Value) : Option WindowEntry :=
  match v.record? ["packet_id", "state", "raw"] with
  | some [packetId, state, raw] => do
      return ⟨← u16Of packetId, ← WindowState.ofValue state, ← rawOf raw⟩
  | _ => none

def SubscriptionEntry.ofValue (v : Value) : Option SubscriptionEntry :=
  match v.record? ["topic_filter", "options"] with
  | some [topicFilter, options] => do return ⟨← topicFilter.text?, ← u8Of options⟩
  | _ => none

def BufferedPublish.ofValue (v : Value) : Option BufferedPublish :=
  match v.record? ["packet_id", "raw", "qos"] with
  | some [packetId, raw, qos] => do return ⟨← u16Of packetId, ← rawOf raw, ← u8Of qos⟩
  | _ => none

def SessionSnapshot.ofValue (v : Value) : Option SessionSnapshot :=
  match v.record? ["version", "connect_raw", "client_buf", "broker_buf", "windows",
    "subscriptions", "buffered"] with
  | some [version, connectRaw, clientBuf, brokerBuf, windows, subscriptions, buffered] => do
      return ⟨← u8Of version, ← bytesOf connectRaw, ← bytesOf clientBuf, ← bytesOf brokerBuf,
        ← windows.items? WindowEntry.ofValue, ← subscriptions.items? SubscriptionEntry.ofValue,
        ← buffered.items? BufferedPublish.ofValue⟩
  | _ => none

theorem SessionSnapshot.head_text {s : SessionSnapshot} {p : Bytes}
    (h : (Except.ok s.text : Except IoError Bytes) = .ok p) : p.head? = some 0x7b := by
  obtain rfl := Except.ok.inj h
  rfl

/-- Stands in for `serde_json::to_vec` and `serde_json::from_slice`. -/
def serdeJson : Json where
  toVec s := .ok s.text
  fromSlice b :=
    match JsonText.document b with
    | .more => .error ⟨.unexpectedEof, "EOF while parsing"⟩
    | .bad => .error (invalidData "invalid JSON")
    | .item v _ =>
        match SessionSnapshot.ofValue v with
        | some snapshot => .ok snapshot
        | none => .error (invalidData "invalid snapshot")
  toVec_object := SessionSnapshot.head_text

/-! ## Texts as values -/

def bytesValue (bs : Bytes) : Value := .array (bs.map (fun b => .number b.toNat))

def WindowEntry.value (w : WindowEntry) : Value :=
  .object [("packet_id", .number w.packetId.toNat), ("state", .string w.state.name),
    ("raw", bytesValue w.raw.toBytes)]

def SubscriptionEntry.value (e : SubscriptionEntry) : Value :=
  .object [("topic_filter", .string e.topicFilter), ("options", .number e.options.toNat)]

def BufferedPublish.value (p : BufferedPublish) : Value :=
  .object [("packet_id", .number p.packetId.toNat), ("raw", bytesValue p.raw.toBytes),
    ("qos", .number p.qos.toNat)]

def SessionSnapshot.value (s : SessionSnapshot) : Value :=
  .object [("version", .number s.version.toNat), ("connect_raw", bytesValue s.connectRaw),
    ("client_buf", bytesValue s.clientBuf), ("broker_buf", bytesValue s.brokerBuf),
    ("windows", .array (s.windows.map WindowEntry.value)),
    ("subscriptions", .array (s.subscriptions.map SubscriptionEntry.value)),
    ("buffered", .array (s.buffered.map BufferedPublish.value))]

theorem reads_list {α : Type} {text : α → Text} {value : α → Value} (l : List α)
    (h : ∀ a, Reads (text a) (value a)) : Reads (array (l.map text)) (.array (l.map value)) := by
  refine JsonText.reads_array ?_
  induction l with
  | nil => exact .nil
  | cons a l ih => exact .cons (h a) ih

theorem WindowEntry.reads_text (w : WindowEntry) : Reads w.text w.value :=
  JsonText.reads_object (.cons ⟨rfl, JsonText.reads_number _⟩
    (.cons ⟨rfl, JsonText.reads_string _⟩ (.cons ⟨rfl, JsonText.reads_bytes _⟩ .nil)))

theorem SubscriptionEntry.reads_text (e : SubscriptionEntry) : Reads e.text e.value :=
  JsonText.reads_object (.cons ⟨rfl, JsonText.reads_string _⟩
    (.cons ⟨rfl, JsonText.reads_number _⟩ .nil))

theorem BufferedPublish.reads_text (p : BufferedPublish) : Reads p.text p.value :=
  JsonText.reads_object (.cons ⟨rfl, JsonText.reads_number _⟩
    (.cons ⟨rfl, JsonText.reads_bytes _⟩ (.cons ⟨rfl, JsonText.reads_number _⟩ .nil)))

theorem SessionSnapshot.reads_text (s : SessionSnapshot) : Reads s.text s.value := by
  refine JsonText.reads_object (.cons ⟨rfl, JsonText.reads_number _⟩ ?_)
  refine .cons ⟨rfl, JsonText.reads_bytes _⟩ (.cons ⟨rfl, JsonText.reads_bytes _⟩ ?_)
  refine .cons ⟨rfl, JsonText.reads_bytes _⟩ (.cons ⟨rfl, ?_⟩ (.cons ⟨rfl, ?_⟩
    (.cons ⟨rfl, ?_⟩ .nil)))
  · exact reads_list _ WindowEntry.reads_text
  · exact reads_list _ SubscriptionEntry.reads_text
  · exact reads_list _ BufferedPublish.reads_text

/-! ## Values as snapshots -/

theorem u8Of_toNat (b : UInt8) : u8Of (.number b.toNat) = some b := by
  rw [u8Of, Value.natBelow_number b.toNat_lt, Option.map_some, UInt8.ofNat_toNat]

theorem u16Of_toNat (b : UInt16) : u16Of (.number b.toNat) = some b := by
  rw [u16Of, Value.natBelow_number b.toNat_lt, Option.map_some, UInt16.ofNat_toNat]

theorem bytesOf_value (bs : Bytes) : bytesOf (bytesValue bs) = some bs := by
  have hmap : (bytesValue bs).items? u8Of = some (bs.map id) :=
    Value.items?_map bs (fun b _ => u8Of_toNat b)
  rw [List.map_id] at hmap
  exact hmap

theorem rawOf_value (raw : RawPacket) : rawOf (bytesValue raw.toBytes) = some raw := by
  rw [rawOf, bytesOf_value]
  rfl

theorem WindowState.ofValue_name (state : WindowState) : ofValue (.string state.name) = some state := by
  cases state <;> decide

theorem WindowEntry.ofValue_value (w : WindowEntry) : ofValue w.value = some w := by
  have hrecord : w.value.record? ["packet_id", "state", "raw"]
      = some [.number w.packetId.toNat, .string w.state.name, bytesValue w.raw.toBytes] := rfl
  rw [ofValue, hrecord]
  dsimp only
  rw [u16Of_toNat, WindowState.ofValue_name, rawOf_value]
  rfl

theorem SubscriptionEntry.ofValue_value (e : SubscriptionEntry) : ofValue e.value = some e := by
  have hrecord : e.value.record? ["topic_filter", "options"]
      = some [.string e.topicFilter, .number e.options.toNat] := rfl
  rw [ofValue, hrecord]
  dsimp only
  rw [u8Of_toNat]
  rfl

theorem BufferedPublish.ofValue_value (p : BufferedPublish) : ofValue p.value = some p := by
  have hrecord : p.value.record? ["packet_id", "raw", "qos"]
      = some [.number p.packetId.toNat, bytesValue p.raw.toBytes, .number p.qos.toNat] := rfl
  rw [ofValue, hrecord]
  dsimp only
  rw [u16Of_toNat, rawOf_value, u8Of_toNat]
  rfl

theorem items?_values {α : Type} {ofValue : Value → Option α} {value : α → Value} (l : List α)
    (h : ∀ a, ofValue (value a) = some a) : (Value.array (l.map value)).items? ofValue = some l := by
  have hmap := Value.items?_map (g := id) l (fun a _ => h a)
  rw [List.map_id] at hmap
  exact hmap

theorem SessionSnapshot.ofValue_value (s : SessionSnapshot) : ofValue s.value = some s := by
  have hrecord : s.value.record? ["version", "connect_raw", "client_buf", "broker_buf", "windows",
      "subscriptions", "buffered"]
      = some [.number s.version.toNat, bytesValue s.connectRaw, bytesValue s.clientBuf,
        bytesValue s.brokerBuf, .array (s.windows.map WindowEntry.value),
        .array (s.subscriptions.map SubscriptionEntry.value),
        .array (s.buffered.map BufferedPublish.value)] := rfl
  rw [ofValue, hrecord]
  dsimp only
  rw [u8Of_toNat, bytesOf_value, bytesOf_value, bytesOf_value,
    items?_values s.windows WindowEntry.ofValue_value,
    items?_values s.subscriptions SubscriptionEntry.ofValue_value,
    items?_values s.buffered BufferedPublish.ofValue_value]
  rfl

/-! ## The round trip -/

theorem serdeJson_fromSlice (s : SessionSnapshot) : serdeJson.fromSlice s.text = .ok s := by
  have hdocument := s.reads_text.document_eq rfl
  show (match JsonText.document s.text with
    | .more => _
    | .bad => _
    | .item v _ => _) = _
  rw [hdocument]
  dsimp only
  rw [s.ofValue_value]

theorem serdeJson_take (s : SessionSnapshot) {n : Nat} (hn : n < s.text.length) :
    serdeJson.fromSlice (s.text.take n) = .error ⟨.unexpectedEof, "EOF while parsing"⟩ := by
  have hdocument := s.reads_text.document_take rfl hn
  show (match JsonText.document (s.text.take n) with
    | .more => _
    | .bad => _
    | .item v _ => _) = _
  rw [hdocument]

/-- A snapshot survives as text, and a text that is cut short is found to be so. -/
theorem serdeJson_writes (s : SessionSnapshot) : serdeJson.Writes s where
  toVec := rfl
  fromSlice := serdeJson_fromSlice s
  cut _ hn := ⟨_, serdeJson_take s hn⟩

end TrafficDirector
