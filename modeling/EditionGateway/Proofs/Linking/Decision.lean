import EditionGateway.Gateway.Loopback
import EditionGateway.Proofs.Linking.Attempt

/-!
Whole logins, from the greeting to the end of the link. Whether the player is let in is settled by the
packets of the backend alone.
-/

namespace EditionGateway

namespace Login

theorem greetings_eq (l : Login) : l.greetings = l.opening.map fun p => (none, p) := by
  rw [greetings, opening]
  cases l.remote.auth <;> rfl

end Login

/-- An end that is taken away is closed, and what it has sent is still there. -/
theorem StreamPair.drop_first (pair : StreamPair) :
    (pair.drop .first).first.closed = true ∧
      (pair.drop .first).second.intake.bytes = pair.second.intake.bytes := by
  have hfinish (s : StreamEnd) : s.finish.intake.bytes = s.intake.bytes := by
    rw [StreamEnd.finish]
    split <;> rfl
  rw [drop]
  split
  · exact ⟨rfl, hfinish _⟩
  · exact ⟨rfl, hfinish _⟩

namespace Login

variable {l : Login} {checks : Nat → IdentityService} {z : Compression} {ps heard : List Backend.Packet}
  {ahead : Ahead} {coming : Bytes} {pair : StreamPair} {a : Attempt}

theorem Settled.move {r : Except BackendError Unit} {pair' : StreamPair}
    (h : Settled l checks ps r heard pair) (hsent : pair'.second.intake.bytes = pair.second.intake.bytes)
    (hfirst : r = .ok () →
      pair'.first.threshold = pair.first.threshold ∧ pair'.first.closed = pair.first.closed) :
    Settled l checks ps r heard pair' := by
  cases h with
  | linked success passed opened =>
    obtain ⟨hthreshold, hclosed⟩ := hfirst rfl
    refine .linked success ?_ (hclosed.trans opened)
    rw [hthreshold, hsent]
    exact passed
  | refused split passed other stuck => exact .refused split (hsent ▸ passed) other stuck
  | deserted passed => exact .deserted (hsent ▸ passed)
  | unopened fails due_of sent => exact .unopened fails due_of (hsent ▸ sent)

/-- Closing a link only tells that no more will come. -/
theorem Closing.atEnd_eq (c : Closing) (s : StreamEnd) :
    ∃ ahead, c.atEnd s = { s with intake := { s.intake with ahead } } ∧
      (s.intake.ahead = .more → ahead ≠ .more) := by
  cases c with
  | finish =>
    by_cases hmore : s.intake.ahead = .more
    · exact ⟨.finished, if_pos hmore, nofun⟩
    · exact ⟨s.intake.ahead, if_neg hmore, fun h => absurd h hmore⟩
  | breakOff => exact ⟨.reset, rfl, nofun⟩

theorem Closing.atEnd_same (c : Closing) (s : StreamEnd) :
    (c.atEnd s).pending = s.pending ∧ (c.atEnd s).compression = s.compression ∧
      (c.atEnd s).threshold = s.threshold ∧ (c.atEnd s).closed = s.closed := by
  obtain ⟨ahead, hend, -⟩ := c.atEnd_eq s
  rw [hend]
  exact ⟨rfl, rfl, rfl, rfl⟩

/-- What has come in before can be read after it. -/
theorem Closing.atEnd_receptive (c : Closing) {s : StreamEnd} (h : s.Receptive)
    (hahead : s.intake.ahead = .more) : (c.atEnd s).Receptive ∧ (c.atEnd s).intake.ahead ≠ .more := by
  obtain ⟨ahead, hend, hnot⟩ := c.atEnd_eq s
  rw [hend]
  refine ⟨⟨h.opened, h.ready.sane, h.ready.looked, fun hat => ?_⟩, hnot hahead⟩
  have hfinished := (h.ready.drained hat).2.2
  rw [hahead] at hfinished
  cases hfinished

namespace Attempt

/-- The login is under way, or it is settled; then the link is closed unless the player was let in. -/
def Stands (l : Login) (checks : Nat → IdentityService) (z : Compression) (ps : List Backend.Packet)
    (ahead : Ahead) (coming : Bytes) (a : Attempt) : Prop :=
  match a.result with
  | none => Underway l checks z ps ahead coming a.heard a.pair
  | some r => Settled l checks ps r a.heard a.pair ∧ (a.pair.first.closed = true ↔ r ≠ .ok ())

theorem stands_begin {wire : Bytes} (h : Carries z (underThresholds none ps) wire) :
    l.begin.Stands l checks z ps .more wire := by
  let pair := StreamPair.opened l.compression
  have hsend : StreamPair.Sending l.greetings pair (pair.sendPackets l.opening) := by
    rw [greetings_eq]
    exact @StreamPair.sending_sendPackets pair rfl l.opening
  unfold begin
  generalize pair.sendPackets l.opening = after at hsend ⊢
  cases hsend with
  | @sent b pair' carries first bytes =>
    have hready : FrameReader.Ready l.compression none {} {} :=
      ⟨rfl, fun _ => Frame.decode_nil, Bool.noConfusion⟩
    change Underway l checks z ps .more wire [] pair'
    refine ⟨?_, ?_, ?_, ⟨ps, rfl, ?_⟩, fun hnot => absurd rfl hnot, ?_⟩
    · rw [first]
      exact ⟨rfl, hready⟩
    · rw [first]
      rfl
    · rw [first, bytes]
      exact .opened carries
    · rw [first]
      exact h
    · rw [first]
      rfl
  | @failed e due b pair' fails due_of carries bytes =>
    have hdrop := pair'.drop_first
    refine ⟨.unopened fails due_of ?_, iff_of_true hdrop.1 nofun⟩
    rw [hdrop.2, bytes]
    exact carries

theorem Stands.poll (hz : z.Lawful) (hsame : z.decompress = l.compression.decompress)
    (h : a.Stands l checks z ps ahead coming) (fuel : Nat) :
    (a.poll l checks fuel).Stands l checks z ps ahead coming := by
  rw [Attempt.poll]
  cases hresult : a.result with
  | some r => exact h
  | none =>
    rw [Stands, hresult] at h
    have hrun := h.run hz hsame fuel
    dsimp only at hrun ⊢
    generalize (l.witnessed checks a.heard).run fuel a.pair = after at hrun ⊢
    cases hrun with
    | stays underway => exact underway
    | @settles r heard pair settled =>
      cases r with
      | ok u =>
        refine ⟨settled, iff_of_false ?_ fun hnot => hnot rfl⟩
        cases settled with
        | linked _ _ opened =>
          rw [opened]
          exact Bool.false_ne_true
      | error e =>
        have hdrop := pair.drop_first
        exact ⟨settled.move hdrop.2 nofun, iff_of_true hdrop.1 nofun⟩

theorem Stands.arrive {b : Bytes} (h : a.Stands l checks z ps .more (b ++ coming)) :
    (a.next l checks (.arrive b)).Stands l checks z ps .more coming := by
  rw [Stands] at h ⊢
  change match a.result with | none => _ | some r => _
  cases hresult : a.result with
  | none =>
    rw [hresult] at h
    obtain ⟨post, hps, hcarries⟩ := h.rest
    have hreceptive := h.receptive.feed h.ahead b
    refine ⟨hreceptive, h.compression, h.passed, ⟨post, hps, ?_⟩, fun hnot => absurd rfl hnot, h.ahead⟩
    change Carries z (underThresholds a.pair.first.threshold post) ((a.pair.first.feed b).pending ++ coming)
    rw [StreamEnd.pending_feed, List.append_assoc]
    exact hcarries
  | some r =>
    rw [hresult] at h
    exact ⟨h.1.move rfl fun _ => ⟨rfl, rfl⟩, h.2⟩

theorem Stands.after {turns : List Turn} (hz : z.Lawful) (hsame : z.decompress = l.compression.decompress)
    (h : a.Stands l checks z ps .more (turns.flatMap Turn.bytes ++ coming)) :
    (a.after l checks turns).Stands l checks z ps .more coming := by
  induction turns generalizing a with
  | nil => exact h
  | cons turn turns ih =>
    rw [List.flatMap_cons, List.append_assoc] at h
    cases turn with
    | arrive b => exact ih h.arrive
    | poll fuel => exact ih (h.poll hz hsame fuel)

/-- When the backend closes the link, all its bytes have come in. -/
theorem Stands.close (h : a.Stands l checks z ps .more []) (c : Closing) :
    ∃ ahead, ahead ≠ .more ∧ (a.close c).Stands l checks z ps ahead [] := by
  obtain ⟨hpending, hcompression, hthreshold, hclosed⟩ := c.atEnd_same a.pair.first
  rw [Stands] at h
  cases hresult : a.result with
  | none =>
    rw [hresult] at h
    obtain ⟨hreceptive, hahead⟩ := c.atEnd_receptive h.receptive h.ahead
    have hclose : (a.close c).result = none := hresult
    refine ⟨_, hahead, ?_⟩
    rw [Stands, hclose]
    refine ⟨hreceptive, hcompression.trans h.compression, ?_, ?_, fun _ => rfl, rfl⟩
    · show l.Passed checks a.heard (c.atEnd a.pair.first).threshold a.sent
      rw [hthreshold]
      exact h.passed
    · show ∃ post, ps = a.heard ++ post ∧ Carries z
        (underThresholds (c.atEnd a.pair.first).threshold post) ((c.atEnd a.pair.first).pending ++ [])
      rw [hthreshold, hpending]
      exact h.rest
  | some r =>
    rw [hresult] at h
    have hclose : (a.close c).result = some r := hresult
    refine ⟨.finished, nofun, ?_⟩
    rw [Stands, hclose]
    refine ⟨h.1.move rfl fun _ => ⟨hthreshold, hclosed⟩, ?_⟩
    show (c.atEnd a.pair.first).closed = true ↔ r ≠ .ok ()
    rw [hclosed]
    exact h.2

/-- A login that goes on long enough after the end of the link has a result. -/
theorem Stands.settled (hz : z.Lawful) (hsame : z.decompress = l.compression.decompress)
    (h : a.Stands l checks z ps ahead []) (hahead : ahead ≠ .more) {fuel : Nat} (hfuel : ps.length < fuel) :
    ∃ r, (a.poll l checks fuel).result = some r := by
  rw [Attempt.poll]
  cases hresult : a.result with
  | some r => exact ⟨r, hresult⟩
  | none =>
    rw [Stands, hresult] at h
    have hrun := h.run hz hsame fuel
    dsimp only at hrun ⊢
    generalize (l.witnessed checks a.heard).run fuel a.pair = after at hrun ⊢
    cases hrun with
    | @stays heard pair underway far =>
      obtain ⟨post, hps, -⟩ := underway.rest
      have hlength := congrArg List.length hps
      -- as many packets would have been read as there were steps
      have hfar := far hahead
      rw [List.length_append] at hlength
      omega
    | @settles r heard pair settled =>
      cases r with
      | ok u => exact ⟨_, rfl⟩
      | error e => exact ⟨_, rfl⟩

end Attempt

theorem Settled.succeeds_iff {r : Except BackendError Unit} (h : Settled l checks ps r heard pair) :
    r = .ok () ↔ l.Succeeds checks ps := by
  cases h with
  | linked success passed _ => exact iff_of_true rfl ⟨_, _, _, _, _, _, success, passed⟩
  | refused split passed other stuck =>
    rw [split]
    exact iff_of_false nofun (fails_of_stuck passed other stuck)
  | deserted passed => exact iff_of_false nofun (fails_of_passed passed)
  | unopened fails => exact iff_of_false nofun (fails_of_unopened fails)

/-- Only one packet can let the player in. -/
theorem Passed.first_success {pre pre' post post' : List Backend.Packet} {t t' : Threshold}
    {sent sent' : Bytes} {uuid uuid' : Uuid} {name name' : String} (h : l.Passed checks pre t sent)
    (h' : l.Passed checks pre' t' sent')
    (heq : pre ++ .loginSuccess uuid name :: post = pre' ++ .loginSuccess uuid' name' :: post') :
    pre = pre' ∧ uuid = uuid' ∧ name = name' := by
  obtain ⟨rfl, hsame⟩ | hbefore | hbefore := places_cases heq
  · cases hsame
    exact ⟨rfl, rfl, rfl⟩
  · exact absurd (hbefore.mem (List.mem_append_right _ List.mem_cons_self)) (h'.not_success uuid name)
  · exact absurd (hbefore.mem (List.mem_append_right _ List.mem_cons_self)) (h.not_success uuid' name')

/-- A login from its beginning to the end of the link, after which the gateway goes on in at most `fuel`
steps. -/
def course (l : Login) (checks : Nat → IdentityService) (turns : List Turn) (c : Closing) (fuel : Nat) :
    Attempt :=
  ((l.begin.after l checks turns).close c).poll l checks fuel

section Decided

variable {wire : Bytes} {turns : List Turn} {fuel : Nat}

theorem settled_course (l : Login) (checks : Nat → IdentityService) (hz : z.Lawful)
    (hsame : z.decompress = l.compression.decompress) (hwire : Carries z (underThresholds none ps) wire)
    (hturns : turns.flatMap Turn.bytes = wire) (c : Closing) (hfuel : ps.length < fuel) :
    let a := l.course checks turns c fuel
    ∃ r, a.result = some r ∧ Settled l checks ps r a.heard a.pair ∧
      (a.pair.first.closed = true ↔ r ≠ .ok ()) := by
  intro a
  have hbegin : l.begin.Stands l checks z ps .more (turns.flatMap Turn.bytes ++ []) := by
    rw [List.append_nil, hturns]
    exact Attempt.stands_begin hwire
  obtain ⟨ahead, hahead, hclose⟩ := (hbegin.after hz hsame).close c
  obtain ⟨r, hr⟩ := hclose.settled hz hsame hahead hfuel
  have hstands := hclose.poll hz hsame fuel
  change a.result = some r at hr
  change a.Stands l checks z ps ahead [] at hstands
  rw [Attempt.Stands, hr] at hstands
  exact ⟨r, hr, hstands⟩

end Decided

/-- The packets that are kept beside a login make no difference to it. -/
theorem run_witnessed (l : Login) (heard : List Backend.Packet) (fuel : Nat) (pair : StreamPair) :
    let told := (l.witnessed (fun _ => l.identity) heard).run fuel pair
    let plain := l.conversation.run fuel pair
    told.1 = plain.1 ∧ told.2.2 = plain.2.2 := by
  induction fuel generalizing heard pair with
  | zero => exact ⟨rfl, rfl⟩
  | succ fuel ih =>
    rw [Conversation.run, Conversation.run]
    dsimp only [witnessed, conversation]
    rcases l.advance pair.first with ⟨_ | b | r, s⟩
    · exact ⟨rfl, rfl⟩
    · exact ih _ _
    · exact ⟨rfl, rfl⟩

/-- A session goes on with the login of its link as an attempt goes on, the identity service being always
the same. -/
theorem pollLogin_eq (l : Login) (pair : StreamPair) :
    let a := ({ pair } : Attempt).poll l (fun _ => l.identity) Loopback.loginFuel
    Loopback.pollLogin { pair, login := some (.ok l) } =
      (a.result, { pair := a.pair, login := if a.result.isSome then none else some (.ok l) }) := by
  obtain ⟨hresult, hpair⟩ := l.run_witnessed [] Loopback.loginFuel pair
  rw [Loopback.pollLogin, Attempt.poll]
  dsimp only at hresult hpair ⊢
  generalize (l.witnessed (fun _ => l.identity) []).run Loopback.loginFuel pair = told at hresult hpair ⊢
  generalize l.conversation.run Loopback.loginFuel pair = plain at hresult hpair ⊢
  obtain ⟨r, c, pair⟩ := told
  obtain ⟨r', c', pair'⟩ := plain
  subst hresult hpair
  rcases r with _ | ⟨_ | _⟩ <;> rfl

end Login
end EditionGateway
