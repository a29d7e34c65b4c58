import EditionGateway.Linking.StatusQuery
import EditionGateway.Proofs.Linking.Decision

/-!
Asking the backend for its status, with one limit of time for the whole exchange. When the status has come
it is kept only if the backend does something else before the limit: a packet comes, or bytes that are no
frame, or the end of the link (`kept_iff_followed`). `status_lost` shows what becomes of it if nothing does.
-/

namespace EditionGateway

theorem StreamEnd.Receptive.receivePacket_comes {s : StreamEnd} (h : s.Receptive)
    (comes : Frame.decode s.compression s.threshold s.pending = .incomplete → s.intake.ahead ≠ .more) :
    ∃ got s', s.receivePacket = (some got, s') ∧ ∀ p, got = .ok (some p) ↔
      ∃ b rest, Frame.decode s.compression s.threshold s.pending = .packet b rest ∧
        Backend.Packet.shape.decode b = .ok p := by
  cases hdecode : Frame.decode s.compression s.threshold s.pending with
  | incomplete =>
    obtain ⟨got, s', hreceive, hgot⟩ := h.receivePacket_ends hdecode (comes hdecode)
    refine ⟨got, s', hreceive, fun p => iff_of_false (hgot p) ?_⟩
    rintro ⟨b, rest, hpacket, -⟩
    cases hpacket
  | failed e rest =>
    obtain ⟨s', hreceive⟩ := h.receive_failed hdecode
    refine ⟨.error (.link e), s', by rw [receivePacket, hreceive], fun p => iff_of_false (by rintro ⟨⟩) ?_⟩
    rintro ⟨b, rest, hpacket, -⟩
    cases hpacket
  | packet b rest =>
    obtain ⟨s', hreceive, -⟩ := h.receive_packet hdecode
    rw [receivePacket, hreceive]
    dsimp only
    cases hp : Backend.Packet.shape.decode b with
    | ok p =>
      refine ⟨_, _, rfl, fun q => ?_⟩
      constructor
      · rintro ⟨⟩
        exact ⟨b, rest, rfl, hp⟩
      · rintro ⟨b', rest', hpacket, hq⟩
        cases hpacket
        rw [hp] at hq
        cases hq
        rfl
    | error e =>
      refine ⟨_, _, rfl, fun q => iff_of_false (by rintro ⟨⟩) ?_⟩
      rintro ⟨b', rest', hpacket, hq⟩
      cases hpacket
      rw [hp] at hq
      cases hq

/-- A ping is short enough for any frame. -/
theorem Backend.Packet.length_write_ping (payload : Int64) :
    (shape.write (.pingRequest payload)).length ≤ 10 :=
  Nat.succ_le_succ (Binary.length_writeNat_le _)

namespace StatusQuery

/-- A query that is under way or has its result. -/
structure Probe where
  query : StatusQuery := .awaitingStatus
  pair : StreamPair := {}
  result : Option (Except BackendError BackendStatus) := none

/-- What a backend does: bytes come in at some times, and the link may be closed after them. -/
structure Behaviour where
  arrivals : List (Nat × Bytes)
  closing : Option (Nat × Login.Closing) := none

namespace Behaviour

/-- The bytes that come in until a time. -/
def bytesBy (b : Behaviour) (limit : Nat) : Bytes :=
  (b.arrivals.filter (·.1 ≤ limit)).flatMap (·.2)

def closedBy (b : Behaviour) (limit : Nat) : Bool := b.closing.any (·.1 ≤ limit)

end Behaviour

/-- The gateway speaks first. -/
def begin (z : Compression) (r : RemoteConfig) : Probe :=
  match (StreamPair.opened z).sendPackets (opening r) with
  | (.ok _, pair) => { pair }
  | (.error e, pair) => { pair, result := some (.error e) }

namespace Probe

/-- Something happens at the gateway's end of the link, and the gateway goes on as far as it can; all at the
time `now`. -/
def turn (payload : Int64) (fuel : Nat) (p : Probe) (happens : StreamEnd → StreamEnd) (now : Nat) : Probe :=
  let pair := p.pair.modify .first happens
  match p.result with
  | some r => { p with pair, result := some r }
  | none =>
    let (result, c, pair) := Conversation.run ⟨p.query, advance payload now⟩ fuel pair
    { query := c.state, pair, result }

/-- Bytes come in, at different times. -/
def arrive (payload : Int64) (fuel : Nat) (p : Probe) (arrivals : List (Nat × Bytes)) : Probe :=
  arrivals.foldl (fun p (now, b) => p.turn payload fuel (·.feed b) now) p

end Probe

/-- The whole query up to the limit of time, and what comes of it. -/
def probe (z : Compression) (r : RemoteConfig) (payload : Int64) (fuel : Nat) (limit : Duration)
    (b : Behaviour) : Except BackendError BackendStatus :=
  let p := (begin z r).arrive payload fuel (b.arrivals.filter (·.1 ≤ limit.nanos))
  let p := match b.closing.filter (·.1 ≤ limit.nanos) with
    | some (now, closing) => p.turn payload fuel closing.atEnd now
    | none => p
  outcome limit p.result

/-- The bytes begin with a pong that repeats the number of the ping. -/
def Echoed (z : Compression) (payload : Int64) (bytes : Bytes) : Prop :=
  ∃ b rest, Frame.decode z none bytes = .packet b rest ∧
    Backend.Packet.shape.decode b = .ok (.pongResponse payload)

/-- A status with the time that the backend took for the pong, if that is what came next. -/
def Reports (z : Compression) (payload : Int64) (status : StatusDocument) (rest : Bytes)
    (result : Except BackendError BackendStatus) : Prop :=
  ∃ latency : Option UInt64, result = .ok (report status latency) ∧
    (latency.isSome = true ↔ Echoed z payload rest)

/-- An end of a stream without a threshold that is in order. -/
structure Reads (z : Compression) (s : StreamEnd) (ahead : Ahead) : Prop where
  receptive : s.Receptive
  compression : s.compression = z
  threshold : s.threshold = none
  ahead : s.intake.ahead = ahead

/-- The status stands at the front of the bytes `came`, and `rest` behind it; of all these bytes, `coming`
have not come in yet. -/
inductive Underway (z : Compression) (status : StatusDocument) (came rest : Bytes) (ahead : Ahead) (coming : Bytes) :
    StatusQuery → StreamEnd → Prop
  | asking {s : StreamEnd} (reads : Reads z s ahead) (split : s.pending ++ coming = came) :
    Underway z status came rest ahead coming .awaitingStatus s
  | pinging {s : StreamEnd} {sentAt : Nat} (reads : Reads z s ahead) (split : s.pending ++ coming = rest) :
    Underway z status came rest ahead coming (.awaitingPong status sentAt) s

variable {z : Compression} {payload : Int64} {now fuel : Nat} {status : StatusDocument} {came rest coming : Bytes}
  {ahead : Ahead} {s s' : StreamEnd} {pair : StreamPair} {q : StatusQuery}

theorem Reads.follow (h : Reads z s ahead) {left : Bytes} (hs : s.Follows s' left) : Reads z s' ahead :=
  ⟨hs.receptive, hs.compression.trans h.compression, hs.threshold.trans h.threshold, hs.ahead.trans h.ahead⟩

/-- What has come in is read without a threshold. -/
theorem Reads.decode_pending (h : Reads z s ahead) :
    Frame.decode s.compression s.threshold s.pending = Frame.decode z none s.pending := by
  rw [h.compression, h.threshold]

theorem Underway.reads (h : Underway z status came rest ahead coming q s) : Reads z s ahead := by
  cases h with
  | asking reads _ => exact reads
  | pinging reads _ => exact reads

/-- Only what has come in and what is still coming matters. -/
theorem Underway.move {ahead' : Ahead} {coming' : Bytes}
    (h : Underway z status came rest ahead coming q s) (reads : Reads z s' ahead')
    (same : s'.pending ++ coming' = s.pending ++ coming) :
    Underway z status came rest ahead' coming' q s' := by
  cases h with
  | asking _ split => exact .asking reads (same.trans split)
  | pinging _ split => exact .pinging reads (same.trans split)

theorem Underway.pending (h : Underway z status came rest ahead [] q s) :
    s.pending = came ∨ s.pending = rest := by
  cases h with
  | asking _ split => exact .inl (by rwa [List.append_nil] at split)
  | pinging _ split => exact .inr (by rwa [List.append_nil] at split)

theorem Reads.sendsPing (h : Reads z s ahead) (payload : Int64) :
    ∃ b, s.sendPacket (.pingRequest payload) = .ok b := by
  have hlength := Backend.Packet.length_write_ping payload
  obtain ⟨b, hb⟩ := Carries.exists_of_stands z [(none, .pingRequest payload)]
    (List.forall_mem_singleton.mpr ⟨nofun, Nat.lt_of_le_of_lt hlength (by decide)⟩)
  rw [← h.compression, ← h.threshold] at hb
  exact ⟨b, (StreamEnd.sendPacket_eq_ok h.receptive.opened).mpr hb⟩

/-- What comes next does not depend on what follows it. -/
theorem echoed_append {s x : Bytes} (h : Frame.decode z none s = .incomplete → x = []) :
    Echoed z payload (s ++ x) ↔ Echoed z payload s := by
  by_cases hs : Frame.decode z none s = .incomplete
  · rw [h hs, List.append_nil]
  · rw [Echoed, Frame.decode_append hs, Echoed]
    cases Frame.decode z none s with
    | incomplete => exact iff_of_false nofun nofun
    | failed => exact iff_of_false nofun nofun
    | packet b rest =>
      constructor
      · rintro ⟨b', left, hpacket, hpong⟩
        cases hpacket
        exact ⟨b, rest, rfl, hpong⟩
      · rintro ⟨b', left, hpacket, hpong⟩
        cases hpacket
        exact ⟨b, _, rfl, hpong⟩

/-- Whatever comes instead of a pong, or as a pong, the status is told. -/
theorem advance_pinging {got : Except BackendError (Option Backend.Packet)}
    (h : s.receivePacket = (some got, s')) (sentAt now : Nat) :
    ∃ latency, advance payload now (.awaitingPong status sentAt) s =
        (.done (.ok (report status latency)), .awaitingPong status sentAt, s') ∧
      (latency.isSome = true ↔ got = .ok (some (.pongResponse payload))) := by
  unfold advance
  rw [h]
  rcases got with e | _ | p
  · exact ⟨none, rfl, iff_of_false Bool.false_ne_true nofun⟩
  · exact ⟨none, rfl, iff_of_false Bool.false_ne_true nofun⟩
  · cases p with
    | pongResponse echoed =>
      refine ⟨_, rfl, ?_⟩
      by_cases hsame : echoed = payload
      · rw [if_pos hsame, hsame]
        exact iff_of_true rfl rfl
      · rw [if_neg hsame]
        refine iff_of_false Bool.false_ne_true fun heq => hsame ?_
        cases heq
        rfl
    | _ => exact ⟨none, rfl, iff_of_false Bool.false_ne_true nofun⟩

/-- What one step leads to: it waits for more, or it asks for a pong, or it tells the status. -/
inductive Step (z : Compression) (payload : Int64) (status : StatusDocument) (came rest : Bytes) (ahead : Ahead)
    (coming : Bytes) (q : StatusQuery) : Progress BackendStatus × StatusQuery × StreamEnd → Prop
  | waits {s : StreamEnd} (underway : Underway z status came rest ahead coming q s) (more : ahead = .more)
    (incomplete : Frame.decode z none s.pending = .incomplete) :
    Step z payload status came rest ahead coming q (.waiting, q, s)
  | asks {b : Bytes} {s : StreamEnd} {now : Nat} (first : q = .awaitingStatus)
    (underway : Underway z status came rest ahead coming (.awaitingPong status now) s) :
    Step z payload status came rest ahead coming q (.sent b, .awaitingPong status now, s)
  | tells {r : Except BackendError BackendStatus} {q' : StatusQuery} {s : StreamEnd}
    (reports : Reports z payload status rest r)
    (followed : Frame.decode z none rest = .incomplete → ahead ≠ .more) :
    Step z payload status came rest ahead coming q (.done r, q', s)

/-- As long as no whole packet has come, nothing is done. -/
theorem Underway.waits (h : Underway z status came rest ahead coming q s)
    (incomplete : Frame.decode z none s.pending = .incomplete) (more : ahead = .more) (now : Nat) :
    Step z payload status came rest ahead coming q (advance payload now q s) := by
  have reads := h.reads
  obtain ⟨s', hreceive, hfollows⟩ :=
    reads.receptive.receivePacket_waits (reads.decode_pending.trans incomplete) (reads.ahead.trans more)
  have hadvance : advance payload now q s = (.waiting, q, s') := by
    unfold advance
    rw [hreceive]
  rw [hadvance]
  refine .waits (h.move (reads.follow hfollows) ?_) more ?_
  · rw [hfollows.pending]
  · rw [hfollows.pending]
    exact incomplete

section Step

variable (ended : ahead ≠ .more → coming = [])
include ended

/-- While a pong is waited for, anything that comes is the end of it. -/
theorem step_pinging (reads : Reads z s ahead) (split : s.pending ++ coming = rest) (sentAt now : Nat) :
    Step z payload status came rest ahead coming (.awaitingPong status sentAt)
      (advance payload now (.awaitingPong status sentAt) s) := by
  by_cases hmore : Frame.decode z none s.pending = .incomplete ∧ ahead = .more
  · exact (Underway.pinging reads split).waits hmore.1 hmore.2 now
  · have hcomes :
        Frame.decode s.compression s.threshold s.pending = .incomplete → s.intake.ahead ≠ .more := by
      intro hdecode hahead
      rw [reads.decode_pending] at hdecode
      exact hmore ⟨hdecode, reads.ahead.symm.trans hahead⟩
    obtain ⟨got, s', hreceive, hgot⟩ := reads.receptive.receivePacket_comes hcomes
    rw [reads.decode_pending, reads.ahead] at hcomes
    -- what has been received is what `rest` begins with, also if more is coming
    have hstable : Frame.decode z none s.pending = .incomplete → coming = [] :=
      fun hdecode => ended (hcomes hdecode)
    have hechoed : got = .ok (some (.pongResponse payload)) ↔ Echoed z payload rest := by
      rw [hgot, reads.decode_pending, ← split, echoed_append hstable]
      rfl
    have hfollowed : Frame.decode z none rest = .incomplete → ahead ≠ .more := by
      intro hrest
      rw [← split] at hrest
      exact hcomes (Frame.decode_of_append_incomplete hrest)
    obtain ⟨latency, hadvance, hlatency⟩ :=
      @advance_pinging payload status s s' got hreceive sentAt now
    rw [hadvance]
    exact .tells ⟨latency, rfl, hlatency.trans hechoed⟩ hfollowed

variable {b : Bytes} {json : String}

/-- As soon as the status has come, a pong is asked for. -/
theorem step_asking (reads : Reads z s ahead) (split : s.pending ++ coming = came)
    (first : Frame.decode z none came = .packet b rest)
    (answer : Backend.Packet.shape.decode b = .ok (.statusResponse json))
    (parsed : StatusDocument.parse json = some status) (now : Nat) :
    Step z payload status came rest ahead coming .awaitingStatus
      (advance payload now .awaitingStatus s) := by
  rw [← split] at first
  -- the frame of the status has not come in as a whole, or it has and some of `rest` behind it
  obtain hdecode | ⟨left, hdecode, hrest⟩ := Frame.decode_of_append_packet first
  · have hahead : ahead = .more := by
      refine Decidable.byContradiction fun hmore => ?_
      rw [ended hmore, List.append_nil, hdecode] at first
      cases first
    exact (Underway.asking reads split).waits hdecode hahead now
  · obtain ⟨s', hreceive, hfollows⟩ :=
      reads.receptive.receivePacket_packet (reads.decode_pending.trans hdecode) answer
    have hreads := reads.follow hfollows
    obtain ⟨ping, hping⟩ := hreads.sendsPing payload
    simp only [advance, hreceive, parsed, hping]
    refine .asks rfl (.pinging hreads ?_)
    rw [hfollows.pending]
    exact hrest.symm

/-- What going on as far as possible leads to. -/
inductive Ran (z : Compression) (payload : Int64) (status : StatusDocument) (came rest : Bytes) (ahead : Ahead)
    (coming : Bytes) : Option (Except BackendError BackendStatus) ×
      Conversation StatusQuery BackendStatus × StreamPair → Prop
  | stays {c : Conversation StatusQuery BackendStatus} {pair : StreamPair}
    (underway : Underway z status came rest ahead coming c.state pair.first) (more : ahead = .more)
    (incomplete : Frame.decode z none pair.first.pending = .incomplete) :
    Ran z payload status came rest ahead coming (none, c, pair)
  | tells {r : Except BackendError BackendStatus} {c : Conversation StatusQuery BackendStatus}
    {pair : StreamPair} (reports : Reports z payload status rest r)
    (followed : Frame.decode z none rest = .incomplete → ahead ≠ .more) :
    Ran z payload status came rest ahead coming (some r, c, pair)

theorem ran_pinging {sentAt : Nat} (reads : Reads z pair.first ahead)
    (split : pair.first.pending ++ coming = rest) (now fuel : Nat) :
    Ran z payload status came rest ahead coming
      (Conversation.run ⟨.awaitingPong status sentAt, advance payload now⟩ (fuel + 1) pair) := by
  have hstep := @step_pinging z payload status came rest coming ahead _ ended reads split sentAt now
  rw [Conversation.run]
  dsimp only
  generalize advance payload now (.awaitingPong status sentAt) pair.first = after at hstep ⊢
  cases hstep with
  | waits underway more incomplete => exact .stays underway more incomplete
  | asks first => cases first
  | tells reports followed => exact .tells reports followed

/-- Two steps are enough. -/
theorem Underway.ran (h : Underway z status came rest ahead coming q pair.first)
    (first : Frame.decode z none came = .packet b rest)
    (answer : Backend.Packet.shape.decode b = .ok (.statusResponse json))
    (parsed : StatusDocument.parse json = some status) (now : Nat) (hfuel : 2 ≤ fuel) :
    Ran z payload status came rest ahead coming
      (Conversation.run ⟨q, advance payload now⟩ fuel pair) := by
  obtain ⟨fuel, rfl⟩ := Nat.exists_eq_add_of_le' hfuel
  generalize hs : pair.first = s at h
  cases h with
  | pinging reads split =>
    subst hs
    exact ran_pinging ended reads split now (fuel + 1)
  | asking reads split =>
    subst hs
    have hstep := @step_asking z payload status came rest coming ahead _ ended b json reads split first answer
      parsed now
    rw [Conversation.run]
    dsimp only
    generalize advance payload now .awaitingStatus pair.first = after at hstep ⊢
    cases hstep with
    | waits underway more incomplete => exact .stays underway more incomplete
    | asks _ underway =>
      cases underway with
      | pinging reads split => exact @ran_pinging _ _ _ _ _ _ _ ⟨_, _⟩ ended _ reads split now fuel
    | tells reports followed => exact .tells reports followed

end Step

namespace Probe

/-- The query waits for what has not come in, or it has told the status, as something came behind it. -/
def Stands (z : Compression) (payload : Int64) (status : StatusDocument) (came rest : Bytes) (ahead : Ahead)
    (coming : Bytes) (p : Probe) : Prop :=
  match p.result with
  | none => ahead = .more ∧ Frame.decode z none p.pair.first.pending = .incomplete ∧
      Underway z status came rest ahead coming p.query p.pair.first
  | some r => Reports z payload status rest r ∧
      (Frame.decode z none rest = .incomplete → ahead ≠ .more)

theorem stands_begin {r : RemoteConfig} (opened : ((StreamPair.opened z).sendPackets (opening r)).1 = .ok ()) :
    (begin z r).Stands z payload status came rest .more came := by
  have hsend := @StreamPair.sending_sendPackets (.opened z) rfl (opening r)
  unfold begin
  generalize (StreamPair.opened z).sendPackets (opening r) = after at hsend opened ⊢
  cases hsend with
  | failed => cases opened
  | @sent b pair' carries first bytes =>
    have hready : FrameReader.Ready z none {} {} :=
      ⟨rfl, fun _ => Frame.decode_nil, Bool.noConfusion⟩
    have hreads : Reads z pair'.first .more := by
      rw [first]
      exact ⟨⟨rfl, hready⟩, rfl, rfl, rfl⟩
    have hnothing : pair'.first.pending = [] := by
      rw [first]
      rfl
    refine ⟨rfl, ?_, .asking hreads ?_⟩
    · show Frame.decode z none pair'.first.pending = .incomplete
      rw [hnothing]
      exact Frame.decode_nil
    · show pair'.first.pending ++ came = came
      rw [hnothing]
      rfl

section Turn

variable {p : Probe} {b : Bytes} {json : String}
  (first : Frame.decode z none came = .packet b rest)
  (answer : Backend.Packet.shape.decode b = .ok (.statusResponse json))
  (parsed : StatusDocument.parse json = some status) (hfuel : 2 ≤ fuel)
include first answer parsed hfuel

theorem Stands.turn {coming' : Bytes} (h : p.Stands z payload status came rest .more coming)
    {happens : StreamEnd → StreamEnd} (now : Nat) (ended : ahead ≠ .more → coming' = [])
    (goes : p.result = none → Underway z status came rest .more coming p.query p.pair.first →
      Underway z status came rest ahead coming' p.query (happens p.pair.first)) :
    (p.turn payload fuel happens now).Stands z payload status came rest ahead coming' := by
  rw [Stands] at h
  rw [Probe.turn]
  cases hresult : p.result with
  | some r =>
    rw [hresult] at h
    exact ⟨h.1, fun hrest => absurd rfl (h.2 hrest)⟩
  | none =>
    rw [hresult] at h
    have hran := @Underway.ran z payload fuel status came rest coming' ahead
      (p.pair.modify .first happens) p.query ended b json (goes hresult h.2.2) first answer parsed now hfuel
    dsimp only
    generalize Conversation.run ⟨p.query, advance payload now⟩ fuel (p.pair.modify .first happens) =
      after at hran ⊢
    cases hran with
    | stays underway more incomplete => exact ⟨more, incomplete, underway⟩
    | tells reports followed => exact ⟨reports, followed⟩

theorem Stands.arrive {arrivals : List (Nat × Bytes)}
    (h : p.Stands z payload status came rest .more (arrivals.flatMap (·.2) ++ coming)) :
    (p.arrive payload fuel arrivals).Stands z payload status came rest .more coming := by
  induction arrivals generalizing p with
  | nil => exact h
  | cons x arrivals ih =>
    obtain ⟨now, x⟩ := x
    rw [List.flatMap_cons, List.append_assoc] at h
    refine ih (h.turn first answer parsed hfuel now (fun hnot => absurd rfl hnot) fun _ underway => ?_)
    have reads := underway.reads
    refine underway.move ⟨reads.receptive.feed reads.ahead x, reads.compression, reads.threshold, reads.ahead⟩ ?_
    rw [StreamEnd.pending_feed, List.append_assoc]

theorem Stands.close (h : p.Stands z payload status came rest .more []) (c : Login.Closing) (now : Nat) :
    ∃ ahead, ahead ≠ .more ∧
      (p.turn payload fuel c.atEnd now).Stands z payload status came rest ahead [] := by
  cases hresult : p.result with
  | some r =>
    refine ⟨.finished, nofun, h.turn first answer parsed hfuel now (fun _ => rfl) fun hnone => ?_⟩
    rw [hresult] at hnone
    cases hnone
  | none =>
    have hstands := h
    rw [Stands, hresult] at hstands
    have reads := hstands.2.2.reads
    obtain ⟨hpending, hcompression, hthreshold, -⟩ := c.atEnd_same p.pair.first
    obtain ⟨hreceptive, hahead⟩ := c.atEnd_receptive reads.receptive reads.ahead
    refine ⟨_, hahead, h.turn first answer parsed hfuel now (fun _ => rfl) fun _ underway => ?_⟩
    have hreads : Reads z (c.atEnd p.pair.first) (c.atEnd p.pair.first).intake.ahead :=
      ⟨hreceptive, hcompression.trans reads.compression, hthreshold.trans reads.threshold, rfl⟩
    exact underway.move hreads (by rw [hpending])

end Turn

/-- When no more bytes come in by the limit, there is a status if and only if something came behind it. -/
theorem Stands.outcome {p : Probe} {b : Bytes} (h : p.Stands z payload status came rest ahead [])
    (first : Frame.decode z none came = .packet b rest) (limit : Duration) :
    ((Frame.decode z none rest = .incomplete → ahead ≠ .more) →
      Reports z payload status rest (outcome limit p.result)) ∧
    (Frame.decode z none rest = .incomplete → ahead = .more →
      outcome limit p.result = .error (.timedOut limit)) := by
  rw [Stands] at h
  cases hresult : p.result with
  | some r =>
    rw [hresult] at h
    obtain ⟨reports, followed⟩ := h
    exact ⟨fun _ => reports, fun incomplete more => absurd more (followed incomplete)⟩
  | none =>
    rw [hresult] at h
    obtain ⟨more, incomplete, underway⟩ := h
    refine ⟨fun followed => ?_, fun _ _ => rfl⟩
    -- the query still waits: for the status, which has come, or for what comes behind it
    rcases underway.pending with hpending | hpending
    · rw [hpending, first] at incomplete
      cases incomplete
    · rw [hpending] at incomplete
      exact absurd more (followed incomplete)

end Probe

section Whole

variable {r : RemoteConfig} {limit : Duration} {b : Behaviour} {packet : Bytes} {json : String}
  (opened : ((StreamPair.opened z).sendPackets (opening r)).1 = .ok ())
  (first : Frame.decode z none (b.bytesBy limit.nanos) = .packet packet rest)
  (answer : Backend.Packet.shape.decode packet = .ok (.statusResponse json))
  (parsed : StatusDocument.parse json = some status) (hfuel : 2 ≤ fuel)
include opened first answer parsed hfuel

/-- Where the query stands at the limit. -/
theorem stands_probe (payload : Int64) :
    ∃ (p : Probe) (ahead : Ahead), p.Stands z payload status (b.bytesBy limit.nanos) rest ahead [] ∧
      (ahead = .more ↔ b.closedBy limit.nanos = false) ∧
      probe z r payload fuel limit b = outcome limit p.result := by
  have hbegin : (begin z r).Stands z payload status (b.bytesBy limit.nanos) rest .more
      ((b.arrivals.filter (·.1 ≤ limit.nanos)).flatMap (·.2) ++ []) := by
    rw [List.append_nil]
    exact Probe.stands_begin opened
  have hcame := hbegin.arrive first answer parsed hfuel
  have hclosed : b.closedBy limit.nanos = (b.closing.filter (·.1 ≤ limit.nanos)).isSome := by
    rw [Behaviour.closedBy]
    cases b.closing with
    | none => rfl
    | some closing => by_cases h : closing.1 ≤ limit.nanos <;> simp [Option.filter, h]
  rw [probe, hclosed]
  cases b.closing.filter (·.1 ≤ limit.nanos) with
  | none => exact ⟨_, .more, hcame, iff_of_true rfl rfl, rfl⟩
  | some closing =>
    obtain ⟨now, c⟩ := closing
    obtain ⟨ahead, hahead, hclose⟩ := hcame.close first answer parsed hfuel c now
    exact ⟨_, ahead, hclose, iff_of_false hahead nofun, rfl⟩

/-- If the backend does nothing more by the limit, the status is lost. -/
theorem probe_of_silence (payload : Int64) (silent : Frame.decode z none rest = .incomplete)
    (stays : b.closedBy limit.nanos = false) : probe z r payload fuel limit b = .error (.timedOut limit) := by
  obtain ⟨p, ahead, hstands, hahead, hprobe⟩ := stands_probe opened first answer parsed hfuel payload
  rw [hprobe]
  exact (hstands.outcome first limit).2 silent (hahead.mpr stays)

end Whole

end StatusQuery
end EditionGateway
