import EditionGateway.Proofs.Linking.Passage

/-!
Logins under way. The bytes of the backend come in in any pieces, and in between the gateway goes on as
far as it can; each step of a run reads the next packet, waits for it, or is the end of the login.
-/

namespace EditionGateway

/-- The packet that comes next, if it has come in. -/
def StreamEnd.nextPacket? (s : StreamEnd) : Option Backend.Packet :=
  match s.receivePacket.1 with
  | some (.ok p) => p
  | _ => none

namespace Login

/-- The login of a player, with the packets that have been read kept beside it. -/
def witnessed (l : Login) (checks : Nat → IdentityService) (heard : List Backend.Packet) :
    Conversation (List Backend.Packet) Unit where
  state := heard
  advance heard s :=
    let (progress, s') := { l with identity := checks heard.length }.advance s
    (progress, heard ++ s.nextPacket?.toList, s')

/-- A login that is under way or has its result. -/
structure Attempt where
  pair : StreamPair := {}
  heard : List Backend.Packet := []
  result : Option (Except BackendError Unit) := none

/-- The gateway speaks first. -/
def begin (l : Login) : Attempt :=
  match (StreamPair.opened l.compression).sendPackets l.opening with
  | (.ok _, pair) => { pair }
  | (.error e, pair) => { pair := pair.drop .first, result := some (.error e) }

/-- Bytes of the backend come in, or the gateway goes on in at most `fuel` steps. -/
inductive Turn
  | arrive (b : Bytes)
  | poll (fuel : Nat)

/-- How the backend closes the link: after its last byte, or without having read all. -/
inductive Closing
  | finish
  | breakOff

/-- What the gateway's end sees of it. -/
def Closing.atEnd : Closing → StreamEnd → StreamEnd
  | finish => StreamEnd.finish
  | breakOff => StreamEnd.breakOff

/-- The bytes that come in. -/
def Turn.bytes : Turn → Bytes
  | arrive b => b
  | poll _ => []

namespace Attempt

variable (l : Login) (checks : Nat → IdentityService)

/-- The gateway goes on with the login; it closes the link if there is no use in it. -/
def poll (a : Attempt) (fuel : Nat) : Attempt :=
  match a.result with
  | some _ => a
  | none =>
    match (l.witnessed checks a.heard).run fuel a.pair with
    | (none, c, pair) => { a with pair, heard := c.state }
    | (some (.ok u), c, pair) => { pair, heard := c.state, result := some (.ok u) }
    | (some (.error e), c, pair) =>
      { pair := pair.drop .first, heard := c.state, result := some (.error e) }

def next (a : Attempt) : Turn → Attempt
  | .arrive b => { a with pair := a.pair.modify .first (·.feed b) }
  | .poll fuel => a.poll l checks fuel

def after (a : Attempt) (turns : List Turn) : Attempt := turns.foldl (next l checks) a

/-- The backend closes the link. -/
def close (a : Attempt) (c : Closing) : Attempt := { a with pair := a.pair.modify .first c.atEnd }

/-- What the gateway has sent. -/
def sent (a : Attempt) : Bytes := a.pair.second.intake.bytes

end Attempt

/-! ### Under way -/

/-- The packets that have been read let the login go on, and those that are left of `ps` come next, up to
the bytes `coming`. -/
structure Underway (l : Login) (checks : Nat → IdentityService) (z : Compression) (ps : List Backend.Packet)
    (ahead : Ahead) (coming : Bytes) (heard : List Backend.Packet) (pair : StreamPair) : Prop where
  receptive : pair.first.Receptive
  compression : pair.first.compression = l.compression
  passed : l.Passed checks heard pair.first.threshold pair.second.intake.bytes
  rest : ∃ post, ps = heard ++ post ∧
    Carries z (underThresholds pair.first.threshold post) (pair.first.pending ++ coming)
  ended : ahead ≠ .more → coming = []
  ahead : pair.first.intake.ahead = ahead

/-- How a login has ended. The player was let in, or a packet was the end of it, or the link ended after
packets that all let it go on, or it did not even begin. -/
inductive Settled (l : Login) (checks : Nat → IdentityService) (ps : List Backend.Packet) :
    Except BackendError Unit → List Backend.Packet → StreamPair → Prop
  | linked {pre post : List Backend.Packet} {uuid : Uuid} {name : String} {pair : StreamPair}
    (success : ps = pre ++ .loginSuccess uuid name :: post)
    (passed : l.Passed checks pre pair.first.threshold pair.second.intake.bytes)
    (opened : pair.first.closed = false) :
    Settled l checks ps (.ok ()) (pre ++ [.loginSuccess uuid name]) pair
  | refused {e : BackendError} {pre post : List Backend.Packet} {p : Backend.Packet} {t : Threshold}
    {pair : StreamPair} (split : ps = pre ++ p :: post)
    (passed : l.Passed checks pre t pair.second.intake.bytes)
    (other : ∀ uuid name, p ≠ .loginSuccess uuid name)
    (stuck : ∀ t sent, ¬ l.Passed checks (pre ++ [p]) t sent) :
    Settled l checks ps (.error e) (pre ++ [p]) pair
  | deserted {e : BackendError} {t : Threshold} {pair : StreamPair}
    (passed : l.Passed checks ps t pair.second.intake.bytes) : Settled l checks ps (.error e) ps pair
  | unopened {e : BackendError} {due : List (Threshold × Backend.Packet)} {pair : StreamPair}
    (fails : ∀ sent, ¬ Carries l.compression l.greetings sent) (due_of : due <+: l.greetings)
    (sent : Carries l.compression due pair.second.intake.bytes) :
    Settled l checks ps (.error e) [] pair

variable {l : Login} {checks : Nat → IdentityService} {z : Compression} {ps heard : List Backend.Packet}
  {ahead : Ahead} {coming : Bytes} {pair : StreamPair}

/-- What one step leads to. -/
inductive Underway.Step (l : Login) (checks : Nat → IdentityService) (z : Compression)
    (ps : List Backend.Packet) (ahead : Ahead) (coming : Bytes) (heard : List Backend.Packet)
    (pair : StreamPair) : Progress Unit × List Backend.Packet × StreamEnd → Prop
  | waits {s : StreamEnd} (more : ahead = .more)
    (underway : Underway l checks z ps ahead coming heard { pair with first := s }) :
    Step l checks z ps ahead coming heard pair (.waiting, heard, s)
  | goes {b : Bytes} {p : Backend.Packet} {s : StreamEnd}
    (underway : Underway l checks z ps ahead coming (heard ++ [p])
      { first := s, second := pair.second.feed b }) :
    Step l checks z ps ahead coming heard pair (.sent b, heard ++ [p], s)
  | settles {r : Except BackendError Unit} {heard' : List Backend.Packet} {s : StreamEnd}
    (settled : Settled l checks ps r heard' { pair with first := s }) :
    Step l checks z ps ahead coming heard pair (.done r, heard', s)

namespace Underway

/-- The same place with the reader somewhere else. -/
theorem follow (h : Underway l checks z ps ahead coming heard pair) {s : StreamEnd}
    (hs : pair.first.Follows s pair.first.pending) :
    Underway l checks z ps ahead coming heard { pair with first := s } where
  receptive := hs.receptive
  compression := hs.compression.trans h.compression
  passed := by
    rw [hs.threshold]
    exact h.passed
  rest := by
    rw [hs.threshold, hs.pending]
    exact h.rest
  ended := h.ended
  ahead := hs.ahead.trans h.ahead

theorem witnessed_advance (s : StreamEnd) :
    (l.witnessed checks heard).advance heard s =
      (({ l with identity := checks heard.length }.advance s).1, heard ++ s.nextPacket?.toList,
        ({ l with identity := checks heard.length }.advance s).2) := rfl

/-- Without a complete frame the login waits, unless it is the end of the link. -/
theorem step_incomplete (h : Underway l checks z ps ahead coming heard pair)
    (hdecode : Frame.decode pair.first.compression pair.first.threshold pair.first.pending = .incomplete)
    (hall : ahead ≠ .more → ps = heard) :
    Step l checks z ps ahead coming heard pair ((l.witnessed checks heard).advance heard pair.first) := by
  rw [witnessed_advance]
  by_cases hmore : ahead = .more
  case pos =>
    obtain ⟨s, hreceive, hfollows⟩ := h.receptive.receivePacket_waits hdecode (h.ahead.trans hmore)
    simp only [advance, StreamEnd.nextPacket?, hreceive, Option.toList_none, List.append_nil]
    exact .waits hmore (h.follow hfollows)
  case neg =>
    have hend : pair.first.intake.ahead ≠ .more := fun hnot => hmore (h.ahead.symm.trans hnot)
    obtain ⟨got, s, hreceive, hgot⟩ := h.receptive.receivePacket_ends hdecode hend
    have hsettled {e : BackendError} : Settled l checks ps (.error e) heard { pair with first := s } := by
      rw [hall hmore]
      exact .deserted h.passed
    simp only [advance, StreamEnd.nextPacket?, hreceive]
    rcases got with e | _ | p
    · rw [Option.toList_none, List.append_nil]
      exact .settles hsettled
    · rw [Option.toList_none, List.append_nil]
      exact .settles hsettled
    · exact absurd rfl (hgot p)

/-- The next packet is read, and the login goes on or is settled. -/
theorem step_packet {p : Backend.Packet} {post : List Backend.Packet} {b rest : Bytes}
    (h : Underway l checks z ps ahead coming heard pair) (hps : ps = heard ++ p :: post)
    (hdecode : Frame.decode pair.first.compression pair.first.threshold pair.first.pending = .packet b rest)
    (hp : Backend.Packet.shape.decode b = .ok p)
    (hrest : Carries z (underThresholds (pair.first.threshold.after p) post) (rest ++ coming)) :
    Step l checks z ps ahead coming heard pair ((l.witnessed checks heard).advance heard pair.first) := by
  obtain ⟨s, hreceive, hfollows⟩ := h.receptive.receivePacket_packet hdecode hp
  have houtcome := outcome_advance h.passed h.compression hreceive hfollows
  have hnext : pair.first.nextPacket?.toList = [p] := by
    simp only [StreamEnd.nextPacket?, hreceive, Option.toList_some]
  have hsplit : ps = heard ++ [p] ++ post := by
    rw [hps, List.append_cons]
  rw [witnessed_advance, hnext]
  generalize { l with identity := checks heard.length }.advance pair.first = after at houtcome ⊢
  cases houtcome with
  | goes receptive compression passed threshold hahead pending =>
    refine .goes ⟨receptive, compression.trans h.compression, passed, ⟨post, hsplit, ?_⟩, h.ended, hahead.trans h.ahead⟩
    rw [threshold, pending]
    exact hrest
  | linked success threshold opened =>
    subst success
    refine .settles (.linked hps ?_ opened)
    rw [threshold]
    exact h.passed
  | refused other stuck =>
    exact .settles (.refused hps h.passed other stuck)

/-- Each step reads a packet, unless it has to wait. -/
theorem step (hz : z.Lawful) (hsame : z.decompress = l.compression.decompress)
    (h : Underway l checks z ps ahead coming heard pair) :
    Step l checks z ps ahead coming heard pair ((l.witnessed checks heard).advance heard pair.first) := by
  obtain ⟨post, hps, hcarries⟩ := h.rest
  cases post with
  | nil =>
    rw [List.append_nil] at hps
    have hempty := (List.append_eq_nil_iff.mp hcarries.of_nil).1
    exact h.step_incomplete (by rw [hempty]; rfl) fun _ => hps
  | cons p post =>
    have hpart := Carries.decode_part hz hcarries
    rw [Frame.decode_congr hsame, ← h.compression] at hpart
    obtain hdecode | ⟨b, rest, hdecode, hp, hrest⟩ := hpart
    · refine h.step_incomplete hdecode fun hmore => ?_
      -- when all bytes have come in, the first frame is complete
      rw [h.ended hmore, List.append_nil] at hcarries
      obtain ⟨b, rest, hfull, -⟩ := Carries.decode hz hcarries
      rw [Frame.decode_congr hsame, ← h.compression, hdecode] at hfull
      cases hfull
    · exact h.step_packet hps hdecode hp hrest

/-- What a run of steps leads to. -/
inductive Run (l : Login) (checks : Nat → IdentityService) (z : Compression) (ps : List Backend.Packet)
    (ahead : Ahead) (coming : Bytes) (done : Nat) :
    Option (Except BackendError Unit) × Conversation (List Backend.Packet) Unit × StreamPair → Prop
  | stays {heard : List Backend.Packet} {pair : StreamPair}
    (underway : Underway l checks z ps ahead coming heard pair)
    (far : ahead ≠ .more → done ≤ heard.length) :
    Run l checks z ps ahead coming done (none, l.witnessed checks heard, pair)
  | settles {r : Except BackendError Unit} {heard : List Backend.Packet} {pair : StreamPair}
    (settled : Settled l checks ps r heard pair) :
    Run l checks z ps ahead coming done (some r, l.witnessed checks heard, pair)

theorem run (hz : z.Lawful) (hsame : z.decompress = l.compression.decompress)
    (h : Underway l checks z ps ahead coming heard pair) (fuel : Nat) :
    Run l checks z ps ahead coming (heard.length + fuel) ((l.witnessed checks heard).run fuel pair) := by
  induction fuel generalizing heard pair with
  | zero => exact .stays h fun _ => Nat.le_refl _
  | succ fuel ih =>
    have hstep := h.step hz hsame
    have hstate : (l.witnessed checks heard).state = heard := rfl
    rw [Conversation.run, hstate]
    generalize (l.witnessed checks heard).advance heard pair.first = after at hstep ⊢
    cases hstep with
    | waits more underway => exact .stays underway fun hnot => absurd more hnot
    | goes underway =>
      -- one packet more has been read, and one step less is left
      have hrun := ih underway
      rw [List.length_append, List.length_singleton, Nat.add_right_comm, Nat.add_assoc] at hrun
      exact hrun
    | settles settled => exact .settles settled

end Underway

end Login
end EditionGateway
