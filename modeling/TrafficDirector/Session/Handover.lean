/-
# `TrafficDirector.Session.Handover` — the client's byte stream across a hand-off

A frozen session takes the client's read buffer along, but not what the decoder
holds.  `migrationTransparent_iff`: if the decoder holds nothing, whatever is
decoded before and after the freeze is what one decoder makes of the whole
stream; if it holds a fixed header, there are packets with which it is not.
-/
import TrafficDirector.Session.Framed
import TrafficDirector.Session.Survival
import TrafficDirector.ReferenceCodec

namespace TrafficDirector

open Framing (Reader)

variable {c : Codec} {v : ProtocolVersion} {d : Reader UInt8} {s t : Session} {es : List Event}
  {cs : List Bytes} {out : List Output}

/-- A client of version `v` sends a stream that starts with `b` (what the handshake
has left in the buffer), cut into `cs` before the freeze and `cs'` after it: the
packets read before, then those the adopting session reads, are the packets of a
session that is never frozen. -/
def MigrationTransparent (c : Codec) (v : ProtocolVersion) (b : Bytes) (cs : List Bytes) : Prop :=
  ∀ (id : SessionId) (hs : Handshake) (broker : Reader UInt8) (now : Nat) (es : List Event)
    (t : Session) (out : List Output), hs.version = v →
    (sessionMachine c).run (.running (Session.initial id hs (.fresh b) broker now)) es
      = some (.running t, out) →
    Polls c v clientSocket (.fresh b) es cs →
    ∀ (fd : Int) (id' : SessionId) (now' : Nat) (s' : Session),
      adoptSession c (t.freeze fd).snapshot id' now' = .ok s' →
      ∀ cs' : List Bytes, es.filterMap Event.clientPacket ++ c.read s'.hs.version s'.client cs'
        = c.read v (.fresh b) (cs ++ cs')

/-- The client's decoder when `b` and `cs` have arrived, by the framing alone. -/
def framedReader (takesHeader : Bytes → Bool) (b : Bytes) (cs : List Bytes) : Reader UInt8 :=
  (Framing.feed frameGrammar (holdWith takesHeader) (.fresh b) cs).reader

/-- What a body decodes to does not matter to the reader. -/
theorem feed_framedReader {b : Bytes} (h : (c.feed v (.fresh b) cs).failed = false) :
    (c.feed v (.fresh b) cs).reader = framedReader c.takesHeader b cs :=
  (Framing.feed_refines (mqttGrammar_refines (fun _ _ _ _ => ⟨_, rfl⟩)) cs _ h).2.symm

/-- What the adopting session decodes, and with what. -/
theorem adoptSession_client {s' : Session} {fd : Int} {id : SessionId} {now : Nat}
    (h : adoptSession c (t.freeze fd).snapshot id now = .ok s') :
    s'.client = .fresh t.client.buf ∧ s'.hs.version = t.hs.version := by
  obtain ⟨keepAlive, rfl⟩ := adoptSession_freeze h
  exact ⟨rfl, rfl⟩

/-- The packets of a stream: those fed, then those of what the reader has and of the rest. -/
theorem read_append {b : Bytes} (cs' : List Bytes)
    (h : (c.feed v (.fresh b) cs).failed = false) :
    c.read v (.fresh b) (cs ++ cs') = (c.feed v (.fresh b) cs).items ++
      ((c.grammar v).parse ((c.feed v (.fresh b) cs).reader.content ++ cs'.flatten)).items := by
  rw [Codec.read, Framing.read_eq, List.flatten_append, ← List.append_assoc,
    Framing.feed_parse _ _ _ h]
  rfl

/-- A decoder that holds nothing is in the snapshot as a whole. -/
theorem transparent_of_held {b : Bytes} (h : (framedReader c.takesHeader b cs).held = []) :
    MigrationTransparent c v b cs := by
  intro id hs broker now es t out hv hrun hpolls fd id' now' s' hadopt cs'
  obtain ⟨hok, hitems⟩ := hpolls.feed
  have hclient := hpolls.client rfl hrun
  obtain ⟨hc', hv'⟩ := adoptSession_client hadopt
  have hheld : t.client.held = [] := by rw [hclient, feed_framedReader hok]; exact h
  have hcontent : t.client.content = t.client.buf := by rw [Reader.content, hheld]; rfl
  have hversion : s'.hs.version = v := (hv'.trans (run_version hrun)).trans hv
  rw [read_append cs' hok, ← hclient, hitems, hversion, hc', Codec.read, Framing.read_eq,
    Reader.content_fresh, hcontent]
  rfl

/-! ## A decoder that holds a header -/

/-- A session that has a broker, whose writes all go through, can be brought by its
client to read any chunks. -/
theorem exists_run_polls (cs : List Bytes) : ∀ (s : Session), s.broker.isSome = true →
    (c.feed v s.client cs).failed = false →
    ∃ es t out, (sessionMachine c).run (.running s) es = some (.running t, out) ∧
      Polls c v clientSocket s.client es cs := by
  induction cs with
  | nil => intro s _ _; exact ⟨[], s, [], rfl, .done⟩
  | cons chunk cs ih =>
      intro s up hok
      cases hs : (c.grammar v).scan (s.client.content ++ chunk) with
      | bad => rw [Codec.feed, Framing.feed_bad hs] at hok; cases hok
      | more =>
          rw [Codec.feed, Framing.feed_more hs] at hok
          obtain ⟨es, t, out, hrun, hpolls⟩ :=
            ih { s with client := s.client.extend c.hold chunk } up hok
          have hstep : forwardLoop c (.running s) (.clientBytes (s.client.extend c.hold chunk))
              = some (.running { s with client := s.client.extend c.hold chunk }, []) := by
            rw [forwardLoop_connected up]
            rfl
          exact ⟨_, t, _, run_cons hstep hrun, .poll (Framing.poll_more hs) rfl hpolls⟩
      | item p r =>
          rw [Codec.feed, Framing.feed_item hs] at hok
          obtain ⟨es, t, out, hrun, hpolls⟩ := ih ((s.heard 0 (.fresh r)).tracked c p) up hok
          obtain ⟨pongs, hpongs⟩ := answerPing_ok p
          have hstep : forwardLoop c (.running s) (.clientRead 0 (.packet p) (.fresh r) .ok .ok)
              = some (.running ((s.heard 0 (.fresh r)).tracked c p),
                  pongs ++ [.toBroker (.packet p)]) := by
            rw [forwardLoop_connected up]
            simp only [connectedStep, clientPacket, hpongs]
            rfl
          exact ⟨_, t, _, run_cons hstep hrun, .poll (Framing.poll_item hs) rfl hpolls⟩

variable {takesHeader : Bytes → Bool} {b : Bytes}

/-- What a decoder holds is the complete fixed header of a frame whose body has not
arrived. -/
theorem framedReader_held (h : (framedReader takesHeader b cs).held ≠ []) :
    (Framing.feed frameGrammar (holdWith takesHeader) (.fresh b) cs).failed = false ∧
    ∃ first n, fixedHeader (framedReader takesHeader b cs).held
        = .complete first n (framedReader takesHeader b cs).held.length ∧
      (framedReader takesHeader b cs).buf.length < n := by
  obtain ⟨x, hx⟩ : ∃ x : Bytes, (framedReader takesHeader b cs).held
      = x.take (holdWith takesHeader x) :=
    (Framing.feed_held_take cs (.fresh b) (Or.inl rfl)).resolve_left h
  obtain ⟨first, n, hheader⟩ := holdWith_header (hx ▸ h)
  rw [← hx] at hheader
  have hcontent : fixedHeader (framedReader takesHeader b cs).content
      = .complete first n (framedReader takesHeader b cs).held.length :=
    (fixedHeader_append _ (by rw [hheader]; simp)).trans hheader
  have hok : (Framing.feed frameGrammar (holdWith takesHeader) (.fresh b) cs).failed = false := by
    cases hf : (Framing.feed frameGrammar (holdWith takesHeader) (.fresh b) cs).failed with
    | false => rfl
    | true =>
        have hbad : frameGrammar.scan (framedReader takesHeader b cs).content = .bad :=
          Framing.feed_failed cs (.fresh b) hf
        rw [frameGrammar_scan, scanFrame_complete hcontent] at hbad
        split at hbad <;> exact nomatch hbad
  refine ⟨hok, first, n, hheader, ?_⟩
  have hmore : frameGrammar.scan (framedReader takesHeader b cs).content = .more :=
    Framing.feed_held cs (.fresh b) (fun hne => absurd rfl hne) hok h
  rw [frameGrammar_scan] at hmore
  rcases scanFrame_eq_more.mp hmore with hm | ⟨_, _, _, hh, hn⟩
  · exact nomatch hm.symm.trans hcontent
  · obtain ⟨rfl, rfl, rfl⟩ := HeaderScan.complete.inj (hh.symm.trans hcontent)
    rwa [Reader.content, List.drop_left] at hn

/-- A codec that knows one frame from all others. -/
def markingCodec (takesHeader : Bytes → Bool) (first : UInt8) (body : Bytes) : Codec :=
  { ReferenceCodec.codec true with
    takesHeader := takesHeader
    parse := fun _ f x => some (if f = first ∧ x = body then .v3 .pingResponse else .v3 .disconnect) }

/-- The marked frame does not fit into its own body. -/
theorem not_mem_parse_body {first : UInt8} {body : Bytes} :
    .v3 .pingResponse ∉ (((markingCodec takesHeader first body).grammar v).parse body).items := by
  intro h
  obtain ⟨b', r, hle, hscan⟩ :=
    Framing.Grammar.exists_scan_of_mem_parse _ body (Nat.lt_succ_self _) h
  rw [Codec.grammar_scan] at hscan
  obtain ⟨f, x, hx, hlen⟩ := scanFrame_body hscan
  have hmarked : f = first ∧ x = body := by
    by_contra hne
    simp only [markingCodec, if_neg hne] at hx
    exact nomatch hx
  rw [hmarked.2] at hlen
  omega

/-- Its own decoder decodes it from the header and the body. -/
theorem markingCodec_scan {first : UInt8} {header body : Bytes}
    (h : fixedHeader header = .complete first body.length header.length) :
    ((markingCodec takesHeader first body).grammar v).scan (header ++ body)
      = .item (.v3 .pingResponse) [] := by
  rw [Codec.grammar_scan]
  refine scanFrame_eq_item.mpr ⟨first, body.length, header.length,
    (fixedHeader_append _ (by rw [h]; simp)).trans h, ?_⟩
  rw [List.drop_left, List.take_length, List.drop_length]
  exact ⟨Nat.le_refl _, by simp [markingCodec], rfl⟩

/-- Of a frame whose header the decoder holds, the adopting session sees the body
only. -/
theorem not_transparent_of_held (h : (framedReader takesHeader b cs).held ≠ []) :
    ∃ c : Codec, c.takesHeader = takesHeader ∧ ¬ MigrationTransparent c v b cs := by
  obtain ⟨hok, first, n, hheader, hn⟩ := framedReader_held h
  let buf := (framedReader takesHeader b cs).buf
  let rest : Bytes := List.replicate (n - buf.length) 0
  let c := markingCodec takesHeader first (buf ++ rest)
  refine ⟨c, rfl, fun htransparent => ?_⟩
  have hrefines : frameGrammar.Refines (c.grammar v) :=
    mqttGrammar_refines (fun _ _ _ _ => ⟨_, rfl⟩)
  obtain ⟨hfed, hreader⟩ : (c.feed v (.fresh b) cs).failed = false ∧
      (c.feed v (.fresh b) cs).reader = framedReader takesHeader b cs :=
    Framing.feed_refines hrefines cs _ hok
  -- a session of this client, frozen after `cs`
  let hs : Handshake := ⟨v, ReferenceCodec.handshake.connectRaw, 60⟩
  have hreplay : hs.Replayable c := ⟨⟨_, rfl⟩, ⟨_, _, rfl⟩⟩
  obtain ⟨es, t, out, hrun, hpolls⟩ :=
    exists_run_polls cs (Session.initial 0 hs (.fresh b) (.fresh []) 0) rfl hfed
  have hpolls : Polls c v clientSocket (.fresh b) es cs := hpolls
  obtain ⟨s', hadopt⟩ := adoptSession_freeze_ok (run_replayable hreplay hrun) 0 1 0
  obtain ⟨hclient, hversion⟩ := adoptSession_client hadopt
  have hbuf : t.client.buf = buf := by rw [hpolls.client rfl hrun, hreader]
  have hv : s'.hs.version = v := hversion.trans (run_version hrun)
  -- the marked frame is all that the rest of the stream completes
  have hlength : (buf ++ rest).length = n := by
    rw [List.length_append, List.length_replicate]
    exact Nat.add_sub_cancel' (Nat.le_of_lt hn)
  have hscan : (c.grammar v).scan ((framedReader takesHeader b cs).content ++ rest)
      = .item (.v3 .pingResponse) [] := by
    rw [Reader.content, List.append_assoc]
    exact markingCodec_scan (hlength.symm ▸ hheader)
  have heq := htransparent 0 hs (.fresh []) 0 es t out rfl hrun hpolls 0 1 0 s' hadopt [rest]
  rw [read_append _ hfed, hpolls.feed.2, hreader, hv, hclient, hbuf, Codec.read, Framing.read_eq,
    Reader.content_fresh, List.flatten_singleton, Framing.Grammar.parse_item hscan] at heq
  have hbody : .v3 .pingResponse ∈ ((c.grammar v).parse (buf ++ rest)).items := by
    rw [List.append_cancel_left heq]
    exact List.mem_cons_self
  exact not_mem_parse_body hbody

/-- A hand-off is transparent to the client's byte stream, whatever the packets,
exactly when the decoder holds no fixed header at the freeze. -/
theorem migrationTransparent_iff (takesHeader : Bytes → Bool) (v : ProtocolVersion) (b : Bytes)
    (cs : List Bytes) :
    (∀ c : Codec, c.takesHeader = takesHeader → MigrationTransparent c v b cs) ↔
      (framedReader takesHeader b cs).held = [] := by
  constructor
  · intro h
    by_contra hne
    obtain ⟨c, hc, hnot⟩ := not_transparent_of_held hne
    exact hnot (h c hc)
  · intro h c hc
    exact transparent_of_held (hc ▸ h)

open ReferenceCodec in
/-- A PUBLISH whose fixed header and topic have arrived when the session is frozen:
the adopting session reads the topic's length as a packet type and decodes
nothing. -/
theorem migration_loses_header :
    (framedReader (codec true).takesHeader [] [[0x30, 6, 0, 1, 0x74]]).held = [0x30, 6] ∧
    ¬ MigrationTransparent (codec true) .mqtt3 [] [[0x30, 6, 0, 1, 0x74]] := by
  refine ⟨by decide, fun h => ?_⟩
  have hpolls : Polls (codec true) .mqtt3 clientSocket (.fresh [])
      [.clientBytes ⟨[0x30, 6], [0, 1, 0x74]⟩] [[0x30, 6, 0, 1, 0x74]] :=
    .poll rfl rfl .done
  have heq := h 0 handshake (.fresh []) 0 _ _ _ rfl rfl hpolls 0 1 0 _ rfl [[0x68, 0x69, 0x21]]
  exact absurd heq (by decide)

end TrafficDirector
