import EditionGateway.Conversion.Dispatch
import Mathlib.Data.List.TakeWhile

/-!
What goes to the backend for what a player says and for a command. A command always becomes a line with
one slash in front (`command_one_slash`). A line of chat is cut after it has been looked at, so it can be
blank when it arrives (`chat_speaks_iff`).
-/

namespace EditionGateway

namespace Text

/-- `t` is `s` without the white space around it. -/
structure IsTrimmed (s t : List Char) : Prop where
  around : ∃ before after, s = before ++ t ++ after ∧ (∀ c ∈ before, isBlank c) ∧ ∀ c ∈ after, isBlank c
  head : ∀ c, t.head? = some c → isBlank c = false
  last : ∀ c, t.getLast? = some c → isBlank c = false

theorem head_of_dropWhile {p : Char → Bool} {s : List Char} {c : Char} (h : (s.dropWhile p).head? = some c) :
    p c = false := by
  have hnot := List.head?_dropWhile_not p s
  rw [h] at hnot
  exact hnot

theorem trim_isTrimmed (s : List Char) : IsTrimmed s (trim s) := by
  -- what stands behind is in front when read backwards
  have hsplit : s.dropWhile isBlank = trim s ++ ((s.dropWhile isBlank).reverse.takeWhile isBlank).reverse := by
    rw [trim, ← List.reverse_append, List.takeWhile_append_dropWhile, List.reverse_reverse]
  have hbehind : ∀ c ∈ ((s.dropWhile isBlank).reverse.takeWhile isBlank).reverse, isBlank c :=
    fun c hc => List.mem_takeWhile_imp (List.mem_reverse.mp hc)
  refine ⟨⟨s.takeWhile isBlank, _, ?_, fun c hc => List.mem_takeWhile_imp hc, hbehind⟩, fun c hc => ?_,
    fun c hc => ?_⟩
  · rw [List.append_assoc, ← hsplit, List.takeWhile_append_dropWhile]
  · refine head_of_dropWhile (s := s) ?_
    rw [hsplit, List.head?_append, hc]
    rfl
  · rw [trim, List.getLast?_reverse] at hc
    exact head_of_dropWhile hc

/-- `body` is `t` without the slashes in front. -/
structure IsStripped (t body : List Char) : Prop where
  slashes : ∃ k, t = List.replicate k '/' ++ body
  head : body.head? ≠ some '/'

theorem dropWhile_isStripped (t : List Char) : IsStripped t (t.dropWhile (· = '/')) := by
  refine ⟨⟨(t.takeWhile (· = '/')).length, ?_⟩, fun h => ?_⟩
  · have hslashes : t.takeWhile (· = '/') = List.replicate (t.takeWhile (· = '/')).length '/' :=
      List.eq_replicate_iff.mpr ⟨rfl, fun c hc => by simpa using List.mem_takeWhile_imp hc⟩
    rw [← hslashes, List.takeWhile_append_dropWhile]
  · simpa using head_of_dropWhile h

/-- Nothing is left exactly if there are only slashes. -/
theorem IsStripped.eq_nil_iff {t body : List Char} (h : IsStripped t body) :
    body = [] ↔ ∀ c ∈ t, c = '/' := by
  obtain ⟨⟨k, rfl⟩, hhead⟩ := h
  constructor
  · rintro rfl c hc
    rw [List.append_nil] at hc
    exact List.eq_of_mem_replicate hc
  · intro hall
    cases body with
    | nil => rfl
    | cons c r =>
      have hc : c = '/' := hall c (List.mem_append_right _ List.mem_cons_self)
      exact absurd (congrArg some hc) hhead

end Text

namespace Conversion.ToBackend

/-- Not all of a text is white space. -/
def Speaks (cs : List Char) : Prop := ∃ c ∈ cs, Text.isBlank c = false

theorem speaks_iff {s : String} : Speaks s.toList ↔ ¬ isBlankText s := by
  simp [Speaks, isBlankText]

theorem Speaks.of_prefix {s t : List Char} (h : Speaks s) (hs : s <+: t) : Speaks t := by
  obtain ⟨c, hc, hblank⟩ := h
  exact ⟨c, hs.subset hc, hblank⟩

theorem toList_truncate (cs : List Char) : (truncate cs).toList = cs.take maxChatLength :=
  String.toList_ofList

theorem length_truncate (cs : List Char) : (truncate cs).length = min maxChatLength cs.length := by
  rw [← String.length_toList, toList_truncate, List.length_take]

end Conversion.ToBackend

namespace Converters

open Conversion ToBackend

variable (m : Mappings) (stats : ConversionStats) (c : SessionContext)

theorem dispatch_text (kind : Client.TextKind) (source message : String) :
    ((standard m).dispatchToBackend stats c (.text kind source message)).packets =
      if (kind = .chat ∨ kind = .raw) ∧ ¬ isBlankText message then [.clientChat (truncate message.toList)]
      else [] := by
  have hd : (standard m).dispatchToBackend stats c (.text kind source message) =
    apply m (some ToBackend.text) stats c (.text kind source message) := rfl
  rw [hd]
  unfold apply ToBackend.text
  by_cases h : (kind = .chat ∨ kind = .raw) ∧ ¬ isBlankText message
  · simp only [if_pos h]
    rfl
  · simp only [if_neg h]
    rfl

theorem dispatch_command (command : String) :
    let body := (Text.trim command.toList).dropWhile (· = '/')
    ((standard m).dispatchToBackend stats c (.commandRequest command)).packets =
      if body.isEmpty then [] else [.clientChat (truncate ('/' :: body))] := by
  intro body
  have hd : (standard m).dispatchToBackend stats c (.commandRequest command) =
    apply m (some ToBackend.command) stats c (.commandRequest command) := rfl
  rw [hd]
  unfold apply ToBackend.command
  by_cases h : body.isEmpty
  · simp only [body, if_pos h]
    rfl
  · simp only [body, if_neg h]
    rfl

/-- What a player says goes on as one line or not at all. The line is as much of it as the backend takes, and
there is one if something in that much is not white space. The line itself says something exactly if
what is cut off is not all that was said. -/
theorem chat_speaks_iff (kind : Client.TextKind) (source message : String) :
    let out := ((standard m).dispatchToBackend stats c (.text kind source message)).packets
    let front := message.toList.take maxChatLength
    (out = [] ∨ ∃ line, out = [.clientChat line] ∧ line.toList <+: message.toList ∧
      line.length = min maxChatLength message.length) ∧
    (kind = .chat ∨ kind = .raw → Speaks front → out ≠ []) ∧
    ((∀ line, .clientChat line ∈ out → Speaks line.toList) ↔
      (kind = .chat ∨ kind = .raw → Speaks message.toList → Speaks front)) := by
  intro out front
  have hout : out = _ := dispatch_text m stats c kind source message
  have hfront : (truncate message.toList).toList = front := toList_truncate _
  by_cases hkind : kind = .chat ∨ kind = .raw
  case neg =>
    rw [if_neg fun h => hkind h.1] at hout
    rw [hout]
    exact ⟨.inl rfl, fun h => absurd h hkind, fun _ h => absurd h hkind, fun _ _ h => nomatch h⟩
  case pos =>
    by_cases hspeaks : Speaks message.toList
    case neg =>
      rw [if_neg fun h => hspeaks (speaks_iff.mpr h.2)] at hout
      rw [hout]
      refine ⟨.inl rfl, fun _ h => ?_, fun _ _ h => absurd h hspeaks, fun _ _ h => nomatch h⟩
      exact absurd (h.of_prefix (List.take_prefix _ _)) hspeaks
    case pos =>
      rw [if_pos ⟨hkind, speaks_iff.mp hspeaks⟩] at hout
      rw [hout]
      refine ⟨.inr ⟨_, rfl, ?_, ?_⟩, fun _ _ => List.cons_ne_nil _ _, fun h _ _ => ?_, fun h line hline => ?_⟩
      · rw [hfront]
        exact List.take_prefix _ _
      · exact length_truncate _
      · exact hfront ▸ h _ List.mem_cons_self
      · obtain rfl : line = truncate message.toList := by simpa using hline
        exact hfront ▸ h hkind hspeaks

/-- What the backend does not take of a long line makes no difference if something was said before. -/
theorem chat_speaks_iff_long :
    let message := String.ofList ('\u3000' :: List.replicate 299 'é')
    let out := ((standard {}).dispatchToBackend {} { id := ⟨1⟩ } (.text .raw "" message)).packets
    ∃ line, out = [.clientChat line] ∧ line.length = 256 ∧ Speaks line.toList := by
  intro message out
  obtain ⟨hone, hsent, hspeaks⟩ := chat_speaks_iff {} {} { id := ⟨1⟩ } .raw "" message
  have hmessage : message.toList = '\u3000' :: List.replicate 299 'é' := String.toList_ofList
  have hsays : Speaks (message.toList.take maxChatLength) := by
    rw [hmessage, maxChatLength, List.take_succ_cons, List.take_replicate]
    exact ⟨'é', List.mem_cons_of_mem _ (List.mem_replicate.mpr ⟨by decide, rfl⟩), rfl⟩
  obtain ⟨line, hout, -, hlength⟩ := hone.resolve_left (hsent (.inr rfl) hsays)
  refine ⟨line, hout, ?_, hspeaks.mpr (fun _ _ => hsays) line ?_⟩
  · rw [hlength, ← String.length_toList, hmessage, List.length_cons, List.length_replicate]
    rfl
  · rw [hout]
    exact List.mem_singleton_self _

/-- A line of white space goes to the backend if something stands behind it. -/
theorem blank_front_sent :
    let front := List.replicate 256 ' '
    ((standard {}).dispatchToBackend {} { id := ⟨1⟩ }
        (.text .chat "" (String.ofList (front ++ ['x'])))).packets =
      [.clientChat (String.ofList front)] ∧ ¬ Speaks front := by
  intro front
  refine ⟨?_, fun ⟨c, hc, hblank⟩ => ?_⟩
  · have hspeaks : Speaks (String.ofList (front ++ ['x'])).toList := by
      rw [String.toList_ofList]
      exact ⟨'x', List.mem_append_right _ List.mem_cons_self, rfl⟩
    have hcut : (front ++ ['x']).take maxChatLength = front := List.take_left' List.length_replicate
    rw [dispatch_text, if_pos ⟨.inl rfl, speaks_iff.mp hspeaks⟩, String.toList_ofList, truncate, hcut]
  · rw [List.eq_of_mem_replicate hc] at hblank
    cases hblank

/-- A command goes on as one line, unless there are only slashes in it and white space around them. The line has
one slash in front, and behind it as much of the command as the backend takes. -/
theorem command_one_slash (command : String) :
    let out := ((standard m).dispatchToBackend stats c (.commandRequest command)).packets
    let trimmed := Text.trim command.toList
    let body := trimmed.dropWhile (· = '/')
    Text.IsTrimmed command.toList trimmed ∧ Text.IsStripped trimmed body ∧
      (out = [] ↔ ∀ ch ∈ trimmed, ch = '/') ∧
      (out = [] ∨ ∃ line first rest, out = [.clientChat line] ∧ line.toList = '/' :: first :: rest ∧
        first ≠ '/' ∧ first :: rest <+: body ∧ 2 ≤ line.length ∧ line.length ≤ maxChatLength) := by
  intro out trimmed body
  have hstripped : Text.IsStripped trimmed body := Text.dropWhile_isStripped trimmed
  have hout : out = if body.isEmpty then [] else [.clientChat (truncate ('/' :: body))] :=
    dispatch_command m stats c command
  refine ⟨Text.trim_isTrimmed _, hstripped, ?_⟩
  rw [← hstripped.eq_nil_iff]
  clear_value out body
  cases body with
  | nil => exact ⟨⟨fun _ => rfl, fun _ => hout⟩, .inl hout⟩
  | cons first rest =>
    have hline : (truncate ('/' :: first :: rest)).toList = '/' :: first :: rest.take 254 :=
      toList_truncate _
    have hlength : (truncate ('/' :: first :: rest)).length = min 256 (rest.length + 2) :=
      length_truncate _
    refine ⟨⟨fun h => ?_, nofun⟩, .inr ⟨_, first, rest.take 254, hout, hline, ?_, ?_, ?_, ?_⟩⟩
    · rw [hout] at h
      cases h
    · exact fun h => hstripped.head (congrArg some h)
    · exact List.cons_prefix_cons.mpr ⟨rfl, List.take_prefix _ _⟩
    · omega
    · rw [hlength]
      exact Nat.min_le_left _ _

/-- The slashes inside a command stay. -/
theorem command_one_slash_padded :
    let command := "\u3000//tp //é "
    let out := ((standard {}).dispatchToBackend {} { id := ⟨1⟩ } (.commandRequest command)).packets
    ∃ line rest, out = [.clientChat line] ∧ line.toList = '/' :: rest ∧ rest <+: ['t', 'p', ' ', '/', '/', 'é'] := by
  intro command out
  have htrimmed : Text.trim command.toList = ['/', '/', 't', 'p', ' ', '/', '/', 'é'] := by decide
  obtain ⟨-, -, hnone, hone⟩ := command_one_slash {} {} { id := ⟨1⟩ } command
  have hout : out ≠ [] := by
    intro h
    have hslashes := hnone.mp h
    rw [htrimmed] at hslashes
    exact absurd (hslashes 't' (by decide)) (by decide)
  obtain ⟨line, first, rest, hline, hlist, -, hfront, -⟩ := hone.resolve_left hout
  rw [htrimmed] at hfront
  exact ⟨line, first :: rest, hline, hlist, hfront⟩

end Converters
end EditionGateway
