import EditionGateway.Discovery.Responder

/-!
Reading an advertisement back. A semicolon inside a description is read as one, wherever it stands. But a
backslash at the end of a description is read together with the semicolon that ends the field, so that two
fields become one and the line has too few of them (`parse_encode`).
-/

namespace EditionGateway
namespace Advertisement

/-- There is nothing to escape in it. -/
def IsBare (s : String) : Prop := ∀ c ∈ s.toList, c ≠ ';' ∧ c ≠ '\\'

/-- It ends in a backslash, and so takes the semicolon after it for its own. -/
def Swallows (s : String) : Prop := s.toList.getLast? = some '\\'

instance (s : String) : Decidable (IsBare s) := List.decidableBAll _ s.toList

instance (s : String) : Decidable (Swallows s) := inferInstanceAs (Decidable (_ = some '\\'))

theorem IsBare.not_swallows {s : String} (h : IsBare s) : ¬ Swallows s :=
  fun hs => (h '\\' (List.mem_of_getLast? hs)).2 rfl

section Escaping

/-- What `escape` makes of the characters of a text. -/
def escaped (cs : List Char) : List Char := cs.flatMap fun c => if c = ';' then ['\\', ';'] else [c]

theorem escaped_append (cs ds : List Char) : escaped (cs ++ ds) = escaped cs ++ escaped ds :=
  List.flatMap_append

theorem escaped_cons_other {c : Char} (hc : c ≠ ';') (cs : List Char) :
    escaped (c :: cs) = c :: escaped cs :=
  congrArg (· ++ escaped cs) (if_neg hc)

theorem escaped_of_bare {cs : List Char} (h : ∀ c ∈ cs, c ≠ ';' ∧ c ≠ '\\') : escaped cs = cs := by
  induction cs with
  | nil => rfl
  | cons c cs ih =>
    rw [escaped_cons_other (h c List.mem_cons_self).1, ih fun c hc => h c (List.mem_cons_of_mem _ hc)]

/-- An escaped text does not begin with a semicolon. -/
theorem escaped_cons_head (c : Char) (cs r : List Char) :
    (escaped (c :: cs) ++ r).head? ≠ some ';' := by
  by_cases hc : c = ';'
  · subst hc
    exact nofun
  · rw [escaped_cons_other hc]
    exact fun heq => hc (Option.some.inj heq)

theorem splitFrom_other (current : List Char) {c : Char} (hc : c ≠ ';') {r : List Char}
    (h : c = '\\' → r.head? ≠ some ';') : splitFrom current (c :: r) = splitFrom (c :: current) r := by
  rw [splitFrom.eq_def current (c :: r)]
  split
  · contradiction
  · next heq =>
    cases heq
    exact absurd rfl (h rfl)
  · next heq =>
    cases heq
    exact if_neg hc

/-- An escaped text is read as it was, unless a semicolon comes next. -/
theorem splitFrom_escaped (current cs : List Char) {r : List Char} (h : r.head? ≠ some ';') :
    splitFrom current (escaped cs ++ r) = splitFrom (cs.reverse ++ current) r := by
  induction cs generalizing current with
  | nil => rfl
  | cons c cs ih =>
    have hstep : splitFrom current (escaped (c :: cs) ++ r) =
        splitFrom (c :: current) (escaped cs ++ r) := by
      by_cases hc : c = ';'
      · subst hc
        rfl
      · rw [escaped_cons_other hc]
        refine splitFrom_other current hc fun _ => ?_
        cases cs with
        | nil => exact h
        | cons d cs => exact escaped_cons_head d cs r
    rw [hstep, ih, List.reverse_cons, List.append_assoc]
    rfl

/-- The field ends where it should. -/
theorem splitFrom_field (current : List Char) {s : String} (hs : ¬ Swallows s) (r : List Char) :
    splitFrom current (field (escape s) ++ r) =
      String.ofList (current.reverse ++ s.toList) :: splitFrom [] r := by
  show splitFrom current (escaped s.toList ++ [';'] ++ r) = _
  unfold Swallows at hs
  rcases List.eq_nil_or_concat s.toList with hempty | ⟨cs, c, hlast⟩
  · rw [hempty, List.append_nil]
    rfl
  rw [hlast, List.concat_eq_append] at hs ⊢
  have hc : c ≠ '\\' := fun heq => hs (by rw [heq, List.getLast?_concat])
  have hend (current : List Char) : splitFrom current (escaped [c] ++ ';' :: r) =
      String.ofList (c :: current).reverse :: splitFrom [] r := by
    by_cases hsemicolon : c = ';'
    · subst hsemicolon
      rfl
    · rw [escaped_cons_other hsemicolon]
      exact splitFrom_other current hsemicolon fun heq => absurd heq hc
  rw [escaped_append, List.append_assoc, List.append_assoc]
  show splitFrom current (escaped cs ++ (escaped [c] ++ ';' :: r)) = _
  rw [splitFrom_escaped current cs (escaped_cons_head c [] _), hend]
  simp

/-- The field goes on with the next one. -/
theorem splitFrom_swallowed (current : List Char) {s : String} (hs : Swallows s) (r : List Char) :
    ∃ current', splitFrom current (field (escape s) ++ r) = splitFrom (';' :: current') r := by
  obtain ⟨cs, hcs⟩ := List.getLast?_eq_some_iff.mp hs
  refine ⟨cs.reverse ++ current, ?_⟩
  show splitFrom current (escaped s.toList ++ [';'] ++ r) = _
  rw [hcs, escaped_append, List.append_assoc, List.append_assoc]
  exact splitFrom_escaped current cs (r := '\\' :: ';' :: r) nofun

end Escaping

/-- A line of fields. -/
def line (texts : List String) : List Char := texts.flatMap fun s => field (escape s)

theorem splitFrom_line {texts : List String} (h : ∀ s ∈ texts, ¬ Swallows s) :
    splitFrom [] (line texts) = texts := by
  induction texts with
  | nil => rfl
  | cons s texts ih =>
    show splitFrom [] (field (escape s) ++ line texts) = s :: texts
    rw [splitFrom_field [] (h s List.mem_cons_self), ih fun s hs => h s (List.mem_cons_of_mem _ hs)]
    simp

/-- Each text that swallows the end of its field makes one field less. -/
theorem length_splitFrom_line (current : List Char) (texts : List String) {last : String}
    (h : texts.getLast? = some last) (hlast : ¬ Swallows last) :
    (splitFrom current (line texts)).length + texts.countP (Swallows ·) = texts.length := by
  induction texts generalizing current with
  | nil => cases h
  | cons s texts ih =>
    show (splitFrom current (field (escape s) ++ line texts)).length + _ = texts.length + 1
    by_cases hs : Swallows s
    · obtain ⟨current', hsplit⟩ := splitFrom_swallowed current hs (line texts)
      have htexts : texts.getLast? = some last := by
        cases texts with
        | nil =>
          cases h
          exact absurd hs hlast
        | cons _ _ => exact h
      rw [hsplit, List.countP_cons_of_pos (by simpa using hs), ← ih (';' :: current') htexts]
      rfl
    · have htexts : (splitFrom [] (line texts)).length + texts.countP (Swallows ·) = texts.length := by
        cases texts with
        | nil => rfl
        | cons _ _ => exact ih [] h
      rw [splitFrom_field current hs, List.countP_cons_of_neg (by simpa using hs), List.length_cons,
        ← htexts]
      omega

section Numbers

theorem isBare_toString (n : Nat) : IsBare (toString n) := by
  intro c hc
  have hdigit : c.isDigit := Nat.isDigit_of_mem_toDigits (by decide) (by decide) (Nat.toList_repr ▸ hc)
  constructor <;> rintro rfl <;> exact absurd hdigit (by decide)

theorem foldlM_digits {cs : List Char} (h : ∀ c ∈ cs, c.isDigit) (n : Nat) :
    cs.foldlM (fun n c => if c.isDigit then some (10 * n + (c.toNat - 48)) else none) n =
      some (Nat.ofDigitChars 10 cs n) := by
  induction cs generalizing n with
  | nil => rfl
  | cons c cs ih =>
    rw [List.foldlM_cons, if_pos (h c List.mem_cons_self), Nat.ofDigitChars_cons]
    exact ih (fun c hc => h c (List.mem_cons_of_mem _ hc)) _

theorem number?_toString (n : Nat) : number? (toString n) = some n := by
  have hdigits : ∀ c ∈ Nat.toDigits 10 n, c.isDigit :=
    fun c hc => Nat.isDigit_of_mem_toDigits (by decide) (by decide) hc
  unfold number?
  rw [show (toString n).toList = Nat.toDigits 10 n from Nat.toList_repr]
  split
  · next heq => exact absurd (hdigits '+' (heq ▸ List.mem_cons_self)) (by decide)
  · rw [if_neg (by simp [Nat.toDigits_ne_nil]), foldlM_digits hdigits,
      Nat.ofDigitChars_toDigits (by decide) (by decide)]

theorem numberBelow_toString {n bound : Nat} (h : n < bound) (name : String) :
    numberBelow bound name (toString n) = .ok n := by
  unfold numberBelow
  rw [number?_toString]
  exact if_pos h

end Numbers

/-- The fields that are written as they are need no escape. -/
structure IsPlain (a : Advertisement) : Prop where
  edition : IsBare a.edition
  version : IsBare a.version
  gameMode : IsBare a.gameMode

/-- The twelve fields. -/
def texts (a : Advertisement) : List String :=
  [a.edition, a.motd, toString a.protocol.toNat, a.version, toString a.onlinePlayers.toNat,
    toString a.maxPlayers.toNat, toString a.serverGuid.toNat, a.subMotd, a.gameMode, toString 1,
    toString a.portV4.toNat, toString a.portV6.toNat]

/-- How many descriptions end in a backslash. -/
def swallowed (a : Advertisement) : Nat := [a.motd, a.subMotd].countP (Swallows ·)

/-- What is read of its line: all of it, if no description ends in a backslash. Otherwise the line has too few
fields, one less for each such description. -/
def reread (a : Advertisement) : Except Malformed Advertisement :=
  if a.swallowed = 0 then .ok a else .error (.tooFewFields (fieldCount - a.swallowed))

section RoundTrip

variable {a : Advertisement}

theorem split_encode (plain : a.IsPlain) : split a.encode = splitFrom [] (line a.texts) := by
  have hbare {s : String} (h : IsBare s) : escape s = s.toList := escaped_of_bare h
  unfold split encode line texts
  rw [String.toList_ofList]
  simp only [List.flatMap_cons, List.flatMap_nil, numeral, hbare plain.edition, hbare plain.version,
    hbare plain.gameMode, hbare (isBare_toString _)]

theorem swallowed_eq (plain : a.IsPlain) : a.texts.countP (Swallows ·) = a.swallowed := by
  have hnot {s : String} (h : IsBare s) : decide (Swallows s) = false := by simpa using h.not_swallows
  unfold texts swallowed
  simp only [List.countP_cons, List.countP_nil, hnot plain.edition, hnot plain.version,
    hnot plain.gameMode, hnot (isBare_toString _)]
  simp

theorem swallowed_eq_zero : a.swallowed = 0 ↔ ¬ Swallows a.motd ∧ ¬ Swallows a.subMotd := by
  simp [swallowed, List.countP_eq_zero]

theorem parse_of_few {s : String} (h : (split s).length < fieldCount) :
    parse s = .error (.tooFewFields (split s).length) := by
  unfold parse
  split
  · next heq =>
    rw [heq] at h
    simp [fieldCount] at h
    omega
  · rfl

theorem parse_of_texts {s : String} (h : split s = a.texts) : parse s = .ok a := by
  unfold parse
  rw [h]
  simp only [texts, numberBelow_toString (UInt32.toNat_lt_size _),
    numberBelow_toString (UInt64.toNat_lt_size _), numberBelow_toString (UInt16.toNat_lt_size _)]
  simp only [bind, Except.bind, pure, Except.pure, UInt32.ofNat_toNat, UInt64.ofNat_toNat,
    UInt16.ofNat_toNat]

theorem reread_eq (plain : a.IsPlain) : parse a.encode = a.reread := by
  unfold reread
  split
  · next hnone =>
    have hall : ∀ s ∈ a.texts, ¬ Swallows s := by
      rw [← swallowed_eq plain, List.countP_eq_zero] at hnone
      simpa using hnone
    exact parse_of_texts ((split_encode plain).trans (splitFrom_line hall))
  · next hsome =>
    have hlength := length_splitFrom_line [] a.texts rfl
      (isBare_toString a.portV6.toNat).not_swallows
    rw [← split_encode plain, swallowed_eq plain, show a.texts.length = fieldCount from rfl] at hlength
    rw [parse_of_few (by omega), show (split a.encode).length = fieldCount - a.swallowed by omega]

end RoundTrip

/-- A responder has nothing to escape but the descriptions. -/
theorem isPlain_advertisement (r : Responder) (registry : Registry) :
    (r.advertisement registry).IsPlain where
  edition := show IsBare Responder.editionLabel by decide
  version := show IsBare Client.Version.newest.name by decide
  gameMode := show IsBare Client.GameMode.survival.label by decide

/-- An advertisement is read back as it was, if and only if no description ends in a backslash. The line has too
few fields otherwise; and so has the reply of a responder. -/
theorem parse_encode {a : Advertisement} (plain : a.IsPlain) :
    (parse a.encode = .ok a ↔ ¬ Swallows a.motd ∧ ¬ Swallows a.subMotd) ∧
      parse a.encode = a.reread ∧
      ∀ (r : Responder) (registry : Registry), (r.reply registry).map parse =
        if registry.shuttingDown then none else some (r.advertisement registry).reread := by
  refine ⟨?_, reread_eq plain, fun r registry => ?_⟩
  · rw [reread_eq plain, ← swallowed_eq_zero]
    unfold reread
    split
    · next hnone => exact ⟨fun _ => hnone, fun _ => rfl⟩
    · next hsome => exact ⟨nofun, fun hnone => absurd hnone hsome⟩
  · unfold Responder.reply
    split
    · rfl
    · rw [Option.map_some, reread_eq (isPlain_advertisement r registry)]

/-- Semicolons and backslashes in both descriptions, but none at the end of the second. -/
def riddled : Advertisement where
  edition := "MCPE"
  motd := ";a\\\\;b;"
  protocol := 748
  version := "1.21.40"
  onlinePlayers := 1
  maxPlayers := 101
  serverGuid := 12345
  subMotd := "\\c"
  gameMode := "Survival"
  portV4 := 19132
  portV6 := 19133

theorem parse_encode_riddled :
    riddled.IsPlain ∧ riddled.swallowed = 0 ∧ parse riddled.encode = .ok riddled := by
  have hplain : riddled.IsPlain := ⟨by decide, by decide, by decide⟩
  have hnone : riddled.swallowed = 0 := by decide
  exact ⟨hplain, hnone, (parse_encode hplain).2.1.trans (if_pos hnone)⟩

/-- A backslash at the end of a description takes the field after it away. -/
theorem trailing_backslash_misread :
    let a := { riddled with motd := "a\\" }
    a.IsPlain ∧ parse a.encode = .error (.tooFewFields 11) := by
  intro a
  have hplain : a.IsPlain := ⟨by decide, by decide, by decide⟩
  have hone : a.swallowed = 1 := by decide
  rw [reread_eq hplain, reread, hone]
  exact ⟨hplain, rfl⟩

end Advertisement
end EditionGateway
