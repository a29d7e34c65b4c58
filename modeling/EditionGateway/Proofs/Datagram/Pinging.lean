import EditionGateway.Datagram.Probe
import EditionGateway.Proofs.Datagram.Wire
import EditionGateway.Proofs.Text.Cutting

/-!
What a ping brings back. A pong always says how long its text is, but it may hold more text than the network
carries: what is not carried is not read either, and the ping is not answered. Up to that length the whole
text is read (`conveyed_iff_short`).
-/

namespace EditionGateway
namespace Datagram

variable {time guid : UInt64} {text : String}

/-- A pong has this many bytes in front of its text. -/
def pongHead : Nat := 19

/-- With more bytes of text a pong is too long for the network. -/
def longestText : Nat := maxLength - pongHead

/-- Behind the head are as many bytes as the number says with which it ends. -/
def InStep (b : Bytes) : Prop :=
  Bytes.beValue ((b.drop (pongHead - 2)).take 2) = (b.drop pongHead).length

/-- What an answer with the text should be. The network carries it, it says how long its text is, and who has
asked at the time reads the whole text in it; if that is too long for the network, a front of it. -/
structure Conveys (time : UInt64) (text : String) (b : Bytes) : Prop where
  carried : b.length ≤ maxLength
  inStep : InStep b
  read : ∃ front, pongText time b = .ok (some front) ∧ (∃ rest, text = front ++ rest) ∧
    ((Bytes.ofText text).length ≤ longestText → front = text)

/-- A ping waits on after this reply. -/
def Reply.IsPassed (time : UInt64) : Reply → Prop
  | .server b => pongText time b = .ok none
  | .stranger _ => True
  | .silence => True

/-- What is passed over makes no difference to what a ping comes to. -/
theorem probe_of_passed {server : Address} {before : List Reply} (h : ∀ r ∈ before, r.IsPassed time)
    (after : List Reply) : probe server time (before ++ after) = probe server time after := by
  induction before with
  | nil => rfl
  | cons r before ih =>
    have hrest := ih fun q hq => h q (List.mem_cons_of_mem r hq)
    have hr := h r List.mem_cons_self
    cases r with
    | server b =>
      have hb : pongText time b = .ok none := hr
      rw [List.cons_append, probe, hb]
      exact hrest
    | stranger b => exact hrest
    | silence => exact hrest

theorem pong_eq (time guid : UInt64) (text : String) :
    let p := (Bytes.ofText text).take 0xffff
    pong time guid text = pongMark :: (Bytes.be 8 time.toNat ++ (Bytes.be 8 guid.toNat ++
      (Bytes.be 2 p.length ++ p))) := by
  simp only [pong, List.cons_append, List.append_assoc]

theorem length_pong (time guid : UInt64) (text : String) :
    (pong time guid text).length = pongHead + min 0xffff (Bytes.ofText text).length := by
  simp only [pong_eq, List.length_cons, List.length_append, Bytes.length_be, List.length_take, pongHead]
  omega

/-- The number in front of the text is wide enough for as much of it as is sent. -/
theorem length_take_lt (text : String) : ((Bytes.ofText text).take 0xffff).length < Nat.pow 256 2 :=
  Nat.lt_of_le_of_lt (List.length_take_le _ _) (by decide)

theorem inStep_pong (time guid : UInt64) (text : String) : InStep (pong time guid text) := by
  have hdrop : (pong time guid text).drop (pongHead - 2) =
      Bytes.be 2 ((Bytes.ofText text).take 0xffff).length ++ (Bytes.ofText text).take 0xffff := by
    rw [pong_eq, ← List.append_assoc]
    exact List.drop_left' (by simp only [List.length_append, Bytes.length_be])
  have hrest : (pong time guid text).drop pongHead = (Bytes.ofText text).take 0xffff := by
    rw [show pongHead = pongHead - 2 + 2 from rfl, ← List.drop_drop, hdrop]
    exact List.drop_left' (Bytes.length_be 2 _)
  rw [InStep, hdrop, hrest, List.take_left' (Bytes.length_be 2 _), Bytes.beValue_be,
    Nat.mod_eq_of_lt (length_take_lt text)]

/-- A pong is read by who has asked at its time, if its bytes are text; all others pass over it. -/
theorem pongText_pong (asked time guid : UInt64) (text : String) :
    pongText asked (pong time guid text) =
      if time = asked then
        match Bytes.toText? ((Bytes.ofText text).take 0xffff) with
        | some front => .ok (some front)
        | none => .error (.malformed .badText)
      else .ok none := by
  have hmark : ¬ UInt8.ofNat pongMark.toNat ≠ pongMark := by decide
  have htime : time.toNat < Nat.pow 256 8 := time.toNat_lt
  have hguid : guid.toNat < Nat.pow 256 8 := guid.toNat_lt
  rw [pong_eq, pongText, pongText.scan, Scan.eval, StateT.run', Scan.bind_of_ok (Scan.number_byte _ _ _),
    if_neg hmark, Scan.bind_of_ok (Scan.number_be 8 _ _ _ htime)]
  by_cases h : time = asked
  · have hn : ¬ time.toNat ≠ asked.toNat := fun hne => hne (congrArg UInt64.toNat h)
    rw [if_pos h, if_neg hn, Scan.bind_of_ok (Scan.number_be 8 _ _ _ hguid),
      Scan.bind_of_ok (Scan.number_be 2 _ _ _ (length_take_lt text))]
    -- the number is that of all bytes that are left
    have htake := Scan.take_append ((Bytes.ofText text).take 0xffff) [] (0 + 1 + 8 + 8 + 2)
    rw [List.append_nil] at htake
    rw [Scan.bind_of_ok htake]
    cases Bytes.toText? ((Bytes.ofText text).take 0xffff) <;> rfl
  · have hn : time.toNat ≠ asked.toNat := fun hne => h (UInt64.toNat_inj.mp hne)
    rw [if_neg h, if_pos hn]
    rfl

theorem pongText_eq_some_iff {front : String} :
    pongText time (pong time guid text) = .ok (some front) ↔ Bytes.IsFront 0xffff text front := by
  rw [pongText_pong, if_pos rfl, ← Bytes.toText?_take]
  cases Bytes.toText? ((Bytes.ofText text).take 0xffff) <;> simp

theorem pongText_eq_error_iff {e : LinkError} :
    pongText time (pong time guid text) = .error e ↔
      e = .malformed .badText ∧ ∀ front, ¬ Bytes.IsFront 0xffff text front := by
  rw [pongText_pong, if_pos rfl]
  simp only [← Bytes.toText?_take]
  cases Bytes.toText? ((Bytes.ofText text).take 0xffff) <;> simp [eq_comm]

theorem pongText_of_short (h : (Bytes.ofText text).length ≤ 0xffff) :
    pongText time (pong time guid text) = .ok (some text) := by
  refine pongText_eq_some_iff.mpr ⟨⟨"", (String.append_empty).symm⟩, ?_⟩
  rw [Nat.min_eq_right h]

theorem carried_iff (time guid : UInt64) (text : String) :
    (pong time guid text).length ≤ maxLength ↔ (Bytes.ofText text).length ≤ longestText := by
  have hhead : pongHead = 19 := rfl
  have hmax : maxLength = 65507 := rfl
  rw [length_pong, longestText]
  omega

/-- The text of a pong that is carried has not been cut. -/
theorem conveys_iff (time guid : UInt64) (text : String) :
    Conveys time text (pong time guid text) ↔ (Bytes.ofText text).length ≤ longestText := by
  constructor
  · intro h
    exact (carried_iff time guid text).mp h.carried
  · intro h
    have hwhole : pongText time (pong time guid text) = .ok (some text) :=
      pongText_of_short (Nat.le_trans h (by decide))
    exact ⟨(carried_iff time guid text).mpr h, inStep_pong time guid text, text, hwhole,
      ⟨"", String.append_empty.symm⟩, fun _ => rfl⟩

namespace Endpoint

theorem reply_pong (time guid : UInt64) (text : String) :
    reply (pong time guid text) =
      if (Bytes.ofText text).length ≤ longestText then some (pong time guid text) else none := by
  simp only [reply, carried_iff]

/-- An endpoint that listens answers a ping with what there is to answer, unless that is too long. -/
theorem handle_ping {e : Endpoint} (running : e.running = true) (listening : e.listening = true)
    (advertisement : Option String) (firstSplit : UInt16) (a : Address) (time client : UInt64) :
    e.handle advertisement firstSplit a (ping time client) =
      (advertisement.bind fun text => reply (pong time e.guid text), e) := by
  have htime : pingTime.eval (Bytes.be 8 time.toNat ++ Bytes.be 8 client.toNat) = .ok time := by
    have hlast := Scan.number_be 8 client.toNat [] (0 + 8) client.toNat_lt
    rw [List.append_nil] at hlast
    rw [Scan.eval, StateT.run', pingTime, Scan.bind_of_ok (Scan.number_be 8 _ _ _ time.toNat_lt),
      Scan.bind_of_ok hlast, UInt64.ofNat_toNat]
    rfl
  simp only [ping, List.cons_append, handle, running, not_true_eq_false, if_false, if_true, listening, htime,
    Except.toOption]
  cases advertisement <;> rfl

end Endpoint

/-- Who pings a server that listens is told the whole text if it is short enough. Otherwise nothing comes
back, and the ping times out; in neither case does it fail on what it reads. A pong always says how
long its text is. What it holds of a longer text is as much as the number can say, and is read unless a
character is cut through there. -/
theorem conveyed_iff_short {e : Endpoint} (running : e.running = true) (listening : e.listening = true)
    (time client : UInt64) (text : String) (a : Address) (firstSplit : UInt16) (server : Address)
    {before : List Reply} (passed : ∀ r ∈ before, r.IsPassed time) :
    let b := pong time e.guid text
    let size := (Bytes.ofText text).length
    let answer := (e.handle (some text) firstSplit a (ping time client)).1
    (Conveys time text b ↔ size ≤ longestText) ∧
    (size ≤ longestText → answer = some b ∧
      ∀ after, probe server time (before ++ .server b :: after) = .ok text) ∧
    (longestText < size → answer = none ∧
      probe server time before = .error (.timedOut ("no pong from " ++ server))) ∧
    InStep b ∧
    (∀ front, pongText time b = .ok (some front) ↔ Bytes.IsFront 0xffff text front) ∧
    ∀ err, pongText time b = .error err ↔
      err = .malformed .badText ∧ ∀ front, ¬ Bytes.IsFront 0xffff text front := by
  intro b size answer
  have hanswer : answer = if size ≤ longestText then some b else none := by
    simp only [answer, Endpoint.handle_ping running listening, Option.bind_some]
    exact Endpoint.reply_pong time e.guid text
  refine ⟨conveys_iff time e.guid text, fun hshort => ⟨?_, fun after => ?_⟩, fun hlong => ⟨?_, ?_⟩,
    inStep_pong time e.guid text, fun front => pongText_eq_some_iff, fun err => pongText_eq_error_iff⟩
  · rw [hanswer, if_pos hshort]
  · have hread : pongText time b = .ok (some text) := pongText_of_short (Nat.le_trans hshort (by decide))
    rw [probe_of_passed passed, probe, hread]
  · rw [hanswer, if_neg (Nat.not_le_of_lt hlong)]
  · have hend : probe server time (before ++ []) = probe server time [] := probe_of_passed passed []
    rw [List.append_nil] at hend
    exact hend

/-- A text of characters of two bytes each that a pong has just room for. Before the pong come silence, a
datagram of a stranger, and a pong to an earlier ping. -/
theorem conveyed_iff_short_brimful :
    let e := Endpoint.listen 7 defaultMtu
    let text := String.ofList (List.replicate 32744 'é')
    let before : List Reply := [.silence, .stranger [1], .server (pong 41 7 "MCPE;hi;")]
    (∀ r ∈ before, r.IsPassed 42) ∧ (Bytes.ofText text).length = longestText ∧
      Conveys 42 text (pong 42 7 text) ∧
      (e.handle (some text) 0 "a" (ping 42 5)).1 = some (pong 42 7 text) ∧
      probe "b" 42 (before ++ [.server (pong 42 7 text)]) = .ok text := by
  intro e text before
  have passed : ∀ r ∈ before, r.IsPassed 42 := by
    have hold : pongText 42 (pong 41 7 "MCPE;hi;") = .ok none := by
      rw [pongText_pong, if_neg (by decide)]
    simp only [before, List.forall_mem_cons, Reply.IsPassed]
    exact ⟨trivial, trivial, hold, fun _ h => nomatch h⟩
  have hlength : (Bytes.ofText text).length = longestText :=
    Bytes.length_ofText_replicate 32744 'é'
  obtain ⟨hiff, hshort, -⟩ := conveyed_iff_short (e := e) rfl rfl 42 5 text "a" 0 "b" passed
  obtain ⟨hanswer, htold⟩ := hshort (Nat.le_of_eq hlength)
  exact ⟨passed, hlength, hiff.mpr (Nat.le_of_eq hlength), hanswer, htold []⟩

/-- With one byte more a pong is lost. The number could still tell more bytes than that; of a text that is
too long for the number too, half a character may be left. -/
theorem overlong_pong_lost :
    let text := String.ofList (List.replicate 65489 'a')
    let cut := String.ofList (List.replicate 32768 'é')
    ¬ Conveys 42 text (pong 42 7 text) ∧
      ((Endpoint.listen 7 defaultMtu).handle (some text) 0 "a" (ping 42 5)).1 = none ∧
      pongText 42 (pong 42 7 text) = .ok (some text) ∧
      pongText 42 (pong 42 7 cut) = .error (.malformed .badText) := by
  intro text cut
  have hlength : (Bytes.ofText text).length = 65489 := Bytes.length_ofText_replicate 65489 'a'
  have hcut : (Bytes.ofText cut).length = 65536 := Bytes.length_ofText_replicate 32768 'é'
  have hlong : ¬ (Bytes.ofText text).length ≤ longestText := by
    rw [hlength]
    decide
  refine ⟨fun h => hlong ((conveys_iff 42 7 text).mp h), ?_, pongText_of_short (by omega), ?_⟩
  · rw [Endpoint.handle_ping rfl rfl, Option.bind_some, Endpoint.reply_pong, if_neg hlong]
  · refine pongText_eq_error_iff.mpr ⟨rfl, ?_⟩
    rintro front ⟨⟨rest, hrest⟩, hfront⟩
    -- all of its characters have two bytes
    have hchars : front.toList ++ rest.toList = List.replicate 32768 'é' := by
      rw [← String.toList_append, ← hrest, String.toList_ofList]
    obtain ⟨-, hall, -⟩ := List.append_eq_replicate_iff.mp hchars
    have heven := Bytes.length_ofText_replicate front.toList.length 'é'
    have htwo : 'é'.utf8Size = 2 := rfl
    rw [← hall, String.ofList_toList, hfront, hcut, htwo] at heven
    omega

end Datagram
end EditionGateway
