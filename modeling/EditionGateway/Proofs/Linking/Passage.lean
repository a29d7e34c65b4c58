import EditionGateway.Proofs.Linking.Carriage

/-!
One step of a login. The packets of the backend that let a login go on are changes of the compression
and, if the player is to be verified, challenges that he meets; each step reads the next packet.
-/

namespace EditionGateway
namespace Login

/-- What the gateway says first: where it wants to log in, and whom. It gives an identifier only if the
backend cannot have the name verified. -/
def greetings (l : Login) : List (Threshold × Backend.Packet) :=
  let uuid := if l.remote.auth = .offline then some (offlineUuid l.credentials.username) else none
  [(none, .handshake Backend.protocolVersion l.remote.address l.remote.portNumber .login),
    (none, .loginStart l.credentials.username uuid)]

/-- The packets let the login go on; `t` is the threshold after them, and `sent` is what the gateway has
sent by then. The identity service answers to the packet at place `n` as `checks n`. -/
inductive Passed (l : Login) (checks : Nat → IdentityService) :
    List Backend.Packet → Threshold → Bytes → Prop
  | opened {sent : Bytes} : Carries l.compression l.greetings sent → Passed l checks [] none sent
  | compressed {ps : List Backend.Packet} {t : Threshold} {sent : Bytes} (n : Int32) :
    Passed l checks ps t sent → Passed l checks (ps ++ [.setCompression n]) (thresholdOf n) sent
  | challenged {ps : List Backend.Packet} {t : Threshold} {sent answer : Bytes} {profile : Profile}
    (server : String) (token : Bytes) (online : l.remote.auth = .online)
    (verified : checks ps.length l.credentials.username l.credentials.token = .ok profile)
    (answered : Carries l.compression [(t, .loginChallengeResponse token l.credentials.token)] answer) :
    Passed l checks ps t sent → Passed l checks (ps ++ [.loginChallenge server token]) t (sent ++ answer)

namespace Passed

variable {l : Login} {checks : Nat → IdentityService} {ps qs : List Backend.Packet} {p : Backend.Packet}
  {t t' : Threshold} {sent sent' : Bytes}

/-- The last packet that has been passed. -/
theorem last (h : Passed l checks (ps ++ [p]) t' sent') :
    ∃ t sent, Passed l checks ps t sent ∧
      ((∃ n, p = .setCompression n ∧ t' = thresholdOf n ∧ sent' = sent) ∨
        ∃ server token answer profile, p = .loginChallenge server token ∧ l.remote.auth = .online ∧
          checks ps.length l.credentials.username l.credentials.token = .ok profile ∧
          Carries l.compression [(t, .loginChallengeResponse token l.credentials.token)] answer ∧
          t' = t ∧ sent' = sent ++ answer) := by
  generalize hqs : ps ++ [p] = qs at h
  cases h with
  | opened => exact absurd hqs (List.append_ne_nil_of_right_ne_nil _ (List.cons_ne_nil _ _))
  | compressed n h =>
    obtain ⟨rfl, hp⟩ := List.append_inj' hqs rfl
    exact ⟨_, _, h, .inl ⟨n, (List.cons.inj hp).1, rfl, rfl⟩⟩
  | challenged server token online verified answered h =>
    obtain ⟨rfl, hp⟩ := List.append_inj' hqs rfl
    exact ⟨_, _, h,
      .inr ⟨server, token, _, _, (List.cons.inj hp).1, online, verified, answered, rfl, rfl⟩⟩

theorem of_nil (h : Passed l checks [] t sent) : t = none ∧ Carries l.compression l.greetings sent := by
  generalize hnil : [] = ps at h
  cases h with
  | opened hsent => exact ⟨rfl, hsent⟩
  | compressed => exact absurd hnil.symm (List.append_ne_nil_of_right_ne_nil _ (List.cons_ne_nil _ _))
  | challenged => exact absurd hnil.symm (List.append_ne_nil_of_right_ne_nil _ (List.cons_ne_nil _ _))

theorem of_prefix (h : Passed l checks (ps ++ qs) t sent) : ∃ t sent, Passed l checks ps t sent := by
  induction qs generalizing ps with
  | nil => exact ⟨t, sent, by rwa [List.append_nil] at h⟩
  | cons q qs ih =>
    rw [List.append_cons] at h
    obtain ⟨_, _, hsnoc⟩ := ih h
    obtain ⟨t, sent, hps, -⟩ := hsnoc.last
    exact ⟨t, sent, hps⟩

/-- The packets settle the threshold and what has been sent. -/
theorem unique (h : Passed l checks ps t sent) (h' : Passed l checks ps t' sent') :
    t = t' ∧ sent = sent' := by
  induction h generalizing t' sent' with
  | opened hsent =>
    obtain ⟨rfl, hsent'⟩ := h'.of_nil
    exact ⟨rfl, hsent.unique hsent'⟩
  | compressed n _ ih =>
    obtain ⟨_, _, hps, ⟨m, hm, rfl, rfl⟩ | ⟨_, _, _, _, hp, -⟩⟩ := h'.last
    · cases hm
      exact ⟨rfl, (ih hps).2⟩
    · cases hp
  | challenged server token _ _ answered _ ih =>
    obtain ⟨_, _, hps, ⟨_, hp, -⟩ | ⟨_, _, _, _, hp, -, -, answered', rfl, rfl⟩⟩ := h'.last
    · cases hp
    · cases hp
      obtain ⟨rfl, rfl⟩ := ih hps
      exact ⟨rfl, congrArg _ (answered.unique answered')⟩

/-- A challenge that has been passed is answered under the threshold before it. -/
theorem of_challenge {server : String} {token : Bytes} (h : Passed l checks ps t sent)
    (h' : Passed l checks (ps ++ [.loginChallenge server token]) t' sent') :
    l.remote.auth = .online ∧
      (∃ profile, checks ps.length l.credentials.username l.credentials.token = .ok profile) ∧
      ∃ answer, Carries l.compression [(t, .loginChallengeResponse token l.credentials.token)] answer := by
  obtain ⟨_, _, hps, ⟨_, hp, -⟩ | ⟨_, _, answer, profile, hp, honline, hverified, hanswer, -⟩⟩ := h'.last
  · cases hp
  · cases hp
    obtain ⟨rfl, -⟩ := h.unique hps
    exact ⟨honline, ⟨profile, hverified⟩, answer, hanswer⟩

/-- A packet of any other kind does not let the login go on. -/
theorem kind_of_last (h : Passed l checks (ps ++ [p]) t sent) :
    (∃ n, p = .setCompression n) ∨ ∃ server token, p = .loginChallenge server token := by
  obtain ⟨_, _, -, ⟨n, hp, -⟩ | ⟨server, token, _, _, hp, -⟩⟩ := h.last
  · exact .inl ⟨n, hp⟩
  · exact .inr ⟨server, token, hp⟩

/-- A packet that ends a login does not let it go on. -/
theorem not_success (h : Passed l checks ps t sent) (uuid : Uuid) (name : String) :
    .loginSuccess uuid name ∉ ps := by
  induction h with
  | opened => exact List.not_mem_nil
  | compressed n _ ih =>
    intro hmem
    obtain hmem | hmem := List.mem_append.mp hmem
    · exact ih hmem
    · cases List.mem_singleton.mp hmem
  | challenged server token _ _ _ _ ih =>
    intro hmem
    obtain hmem | hmem := List.mem_append.mp hmem
    · exact ih hmem
    · cases List.mem_singleton.mp hmem

end Passed

/-- The backend lets the player in after packets that let the login go on. -/
def Succeeds (l : Login) (checks : Nat → IdentityService) (ps : List Backend.Packet) : Prop :=
  ∃ pre uuid name post t sent, ps = pre ++ .loginSuccess uuid name :: post ∧ l.Passed checks pre t sent

section Fails

/-- Two places in a list are the same, or one of them comes before the other. -/
theorem places_cases {α : Type} {pre pre' post post' : List α} {p q : α}
    (h : pre ++ p :: post = pre' ++ q :: post') :
    (pre = pre' ∧ p = q) ∨ pre ++ [p] <+: pre' ∨ pre' ++ [q] <+: pre := by
  obtain ⟨a, rfl, htail⟩ | ⟨a, rfl, htail⟩ := List.append_eq_append_iff.mp h
  · cases a with
    | nil =>
      cases htail
      exact .inl ⟨(List.append_nil _).symm, rfl⟩
    | cons r a =>
      obtain ⟨rfl, -⟩ := List.cons.inj htail
      exact .inr (.inl ⟨a, (List.append_cons _ _ _).symm⟩)
  · cases a with
    | nil =>
      cases htail
      exact .inl ⟨List.append_nil _, rfl⟩
    | cons r a =>
      obtain ⟨rfl, -⟩ := List.cons.inj htail
      exact .inr (.inr ⟨a, (List.append_cons _ _ _).symm⟩)

variable {l : Login} {checks : Nat → IdentityService} {ps post : List Backend.Packet} {p : Backend.Packet}
  {t : Threshold} {sent : Bytes}

theorem fails_of_passed (h : l.Passed checks ps t sent) : ¬ l.Succeeds checks ps := by
  rintro ⟨pre, uuid, name, post, _, _, rfl, -⟩
  exact h.not_success uuid name (List.mem_append_right _ List.mem_cons_self)

/-- A packet that neither lets the login go on nor the player in is the end of it. -/
theorem fails_of_stuck (h : l.Passed checks ps t sent) (hp : ∀ uuid name, p ≠ .loginSuccess uuid name)
    (hstuck : ∀ t sent, ¬ l.Passed checks (ps ++ [p]) t sent) :
    ¬ l.Succeeds checks (ps ++ p :: post) := by
  rintro ⟨pre, uuid, name, post', t', sent', heq, hpre⟩
  obtain ⟨-, hsame⟩ | ⟨more, rfl⟩ | hbefore := places_cases heq
  · exact hp uuid name hsame
  · obtain ⟨_, _, hsnoc⟩ := hpre.of_prefix
    exact hstuck _ _ hsnoc
  · exact h.not_success uuid name (hbefore.mem (List.mem_append_right _ List.mem_cons_self))

theorem fails_of_unopened (h : ∀ sent, ¬ Carries l.compression l.greetings sent) :
    ¬ l.Succeeds checks ps := by
  rintro ⟨pre, _, _, _, _, _, -, hpre⟩
  have hnil : ∃ t sent, l.Passed checks [] t sent := hpre.of_prefix
  obtain ⟨_, _, hnil⟩ := hnil
  exact h _ hnil.of_nil.2

end Fails

end Login

namespace StreamEnd

variable {s : StreamEnd} {p : Backend.Packet} {b f rest : Bytes}

/-- What an open end can send is carried under its threshold. -/
theorem sendPacket_eq_ok (hopened : s.closed = false) :
    s.sendPacket p = .ok f ↔ Carries s.compression [(s.threshold, p)] f := by
  constructor
  · intro h
    rw [sendPacket] at h
    split at h
    case h_1 => cases h
    case h_2 b hb =>
      rw [send, if_neg (by simp [hopened])] at h
      cases hf : Frame.encode s.compression s.threshold b with
      | error e =>
        rw [hf] at h
        cases h
      | ok f' =>
        rw [hf] at h
        cases h
        exact .one hb hf
  · intro h
    cases h with
    | cons hb hf hnil =>
      cases hnil
      rw [sendPacket, hb]
      dsimp only
      rw [send, if_neg (by simp [hopened]), hf, List.append_nil]
      rfl

namespace Receptive

theorem receivePacket_packet (h : s.Receptive)
    (hdecode : Frame.decode s.compression s.threshold s.pending = .packet b rest)
    (hp : Backend.Packet.shape.decode b = .ok p) :
    ∃ s', s.receivePacket = (some (.ok (some p)), s') ∧ s.Follows s' rest := by
  obtain ⟨s', hreceive, hfollows⟩ := h.receive_packet hdecode
  refine ⟨s', ?_, hfollows⟩
  rw [receivePacket, hreceive]
  dsimp only
  rw [hp]

theorem receivePacket_waits (h : s.Receptive)
    (hdecode : Frame.decode s.compression s.threshold s.pending = .incomplete)
    (hahead : s.intake.ahead = .more) : ∃ s', s.receivePacket = (none, s') ∧ s.Follows s' s.pending := by
  obtain ⟨s', hreceive, hfollows⟩ := h.receive_waits hdecode hahead
  exact ⟨s', by rw [receivePacket, hreceive], hfollows⟩

theorem receivePacket_ends (h : s.Receptive)
    (hdecode : Frame.decode s.compression s.threshold s.pending = .incomplete)
    (hahead : s.intake.ahead ≠ .more) :
    ∃ got s', s.receivePacket = (some got, s') ∧ ∀ p, got ≠ .ok (some p) := by
  obtain ⟨got, s', hreceive, hgot⟩ := h.receive_ends hdecode hahead
  rw [receivePacket, hreceive]
  cases got with
  | packet p => exact absurd rfl (hgot p)
  | ended => exact ⟨_, _, rfl, nofun⟩
  | failed e => exact ⟨_, _, rfl, nofun⟩

end Receptive
end StreamEnd

/-- What comes of sending packets: all of them are carried to the other end, or those before the first one
that cannot be sent. -/
inductive StreamPair.Sending (ps : List (Threshold × Backend.Packet)) (pair : StreamPair) :
    Except BackendError Unit × StreamPair → Prop
  | sent {b : Bytes} {pair' : StreamPair} (carries : Carries pair.first.compression ps b)
    (first : pair'.first = pair.first)
    (bytes : pair'.second.intake.bytes = pair.second.intake.bytes ++ b) : Sending ps pair (.ok (), pair')
  | failed {e : BackendError} {due : List (Threshold × Backend.Packet)} {b : Bytes} {pair' : StreamPair}
    (fails : ∀ b, ¬ Carries pair.first.compression ps b) (due_of : due <+: ps) (carries : Carries pair.first.compression due b)
    (bytes : pair'.second.intake.bytes = pair.second.intake.bytes ++ b) : Sending ps pair (.error e, pair')

theorem StreamPair.sending_sendPackets {pair : StreamPair} (hopened : pair.first.closed = false)
    (ps : List Backend.Packet) :
    Sending (ps.map fun p => (pair.first.threshold, p)) pair (pair.sendPackets ps) := by
  induction ps generalizing pair with
  | nil => exact .sent .nil rfl (List.append_nil _).symm
  | cons p ps ih =>
    rw [sendPackets, List.map_cons]
    cases hp : pair.first.sendPacket p with
    | error e =>
      refine .failed (fun b h => ?_) (List.nil_prefix) .nil (List.append_nil _).symm
      cases h with
      | cons encoded framed _ =>
        rw [(StreamEnd.sendPacket_eq_ok hopened).mpr (.one encoded framed)] at hp
        cases hp
    | ok f =>
      have hf := (StreamEnd.sendPacket_eq_ok hopened).mp hp
      have hrest := @ih (pair.modify .second (·.feed f)) hopened
      dsimp only
      generalize (pair.modify .second (·.feed f)).sendPackets ps = after at hrest ⊢
      cases hrest with
      | sent carries first bytes =>
        refine .sent (hf.append carries) first ?_
        rw [bytes, ← List.append_assoc]
        rfl
      | failed fails due_of carries bytes =>
        refine .failed (fun b h => ?_) ?_ (hf.append carries) ?_
        · cases h with
          | cons _ _ hrest => exact fails _ hrest
        · exact List.cons_prefix_cons.mpr ⟨rfl, due_of⟩
        · rw [bytes, ← List.append_assoc]
          rfl

namespace Login

variable {l : Login} {checks : Nat → IdentityService} {heard : List Backend.Packet} {p : Backend.Packet}
  {s s' : StreamEnd} {sent rest : Bytes}

/-- What the next packet leads to: the login goes on, or the player is let in, or it is the end. -/
inductive Outcome (l : Login) (checks : Nat → IdentityService) (heard : List Backend.Packet) (sent : Bytes)
    (p : Backend.Packet) (s : StreamEnd) (rest : Bytes) : Progress Unit × StreamEnd → Prop
  | goes {answer : Bytes} {s' : StreamEnd} (receptive : s'.Receptive)
    (compression : s'.compression = s.compression)
    (passed : l.Passed checks (heard ++ [p]) s'.threshold (sent ++ answer))
    (threshold : s'.threshold = s.threshold.after p) (ahead : s'.intake.ahead = s.intake.ahead)
    (pending : s'.pending = rest) : Outcome l checks heard sent p s rest (.sent answer, s')
  | linked {uuid : Uuid} {name : String} {s' : StreamEnd} (success : p = .loginSuccess uuid name)
    (threshold : s'.threshold = s.threshold) (opened : s'.closed = false) :
    Outcome l checks heard sent p s rest (.done (.ok ()), s')
  | refused {e : BackendError} {s' : StreamEnd} (other : ∀ uuid name, p ≠ .loginSuccess uuid name)
    (stuck : ∀ t sent, ¬ l.Passed checks (heard ++ [p]) t sent) :
    Outcome l checks heard sent p s rest (.done (.error e), s')

theorem outcome_advance (h : l.Passed checks heard s.threshold sent) (hsame : s.compression = l.compression)
    (hreceive : s.receivePacket = (some (.ok (some p)), s')) (hfollows : s.Follows s' rest) :
    Outcome l checks heard sent p s rest ({ l with identity := checks heard.length }.advance s) := by
  -- reading the packet leaves the threshold as it was; only a change of the compression sets it
  have hthreshold := hfollows.threshold
  rw [advance, hreceive]
  dsimp only
  cases p with
  | setCompression n =>
    dsimp only [react]
    have hset : (s'.setThreshold (thresholdOf n)).threshold = thresholdOf n := clamp_thresholdOf n
    refine .goes (hfollows.receptive.setThreshold _) hfollows.compression ?_ hset hfollows.ahead hfollows.pending
    rw [hset, List.append_nil]
    exact .compressed n h
  | loginChallenge server token =>
    -- the login goes on if the player is to be verified, meets the check and can answer
    have hopened := hfollows.receptive.opened
    dsimp only [react]
    cases hauth : l.remote.auth with
    | offline =>
      refine .refused nofun fun t sent' hpassed => ?_
      have honline := (h.of_challenge hpassed).1
      rw [hauth] at honline
      cases honline
    | online =>
      cases hverified : checks heard.length l.credentials.username l.credentials.token with
      | error e =>
        refine .refused nofun fun t sent' hpassed => ?_
        obtain ⟨-, ⟨profile, hprofile⟩, -⟩ := h.of_challenge hpassed
        rw [hverified] at hprofile
        cases hprofile
      | ok profile =>
        dsimp only
        cases hsend : s'.sendPacket (.loginChallengeResponse token l.credentials.token) with
        | error e =>
          refine .refused nofun fun t sent' hpassed => ?_
          obtain ⟨-, -, answer, hanswer⟩ := h.of_challenge hpassed
          rw [← hthreshold, ← hsame, ← hfollows.compression] at hanswer
          rw [(StreamEnd.sendPacket_eq_ok hopened).mpr hanswer] at hsend
          cases hsend
        | ok answer =>
          have hanswer := (StreamEnd.sendPacket_eq_ok hopened).mp hsend
          refine .goes hfollows.receptive hfollows.compression ?_ hthreshold hfollows.ahead hfollows.pending
          rw [hfollows.compression, hsame, hthreshold] at hanswer
          rw [hthreshold]
          exact .challenged server token hauth hverified hanswer h
  | loginSuccess uuid name => exact .linked rfl hthreshold hfollows.receptive.opened
  | _ => exact .refused nofun fun t sent hpassed => hpassed.kind_of_last.elim nofun nofun

end Login
end EditionGateway
