import EditionGateway.Link.Memory
import Mathlib.Data.List.Induction
import Mathlib.Data.List.Perm.Subperm

/-!
Both ends of a link inside the process, over any history of steps at them. No lock holds the steps of a call
together: the other end may close the link, or receive, between the check and the push of a send. What a step
comes to is settled by the steps before it (`due`). Packets are received in the order in which they were
accepted, and the end of the link comes behind them; what still comes after it was under way before
(`queues_reliably`).
-/

namespace EditionGateway

namespace MemoryLink

/-- What is done at an end of a link, each at one moment. A send is a check, and a push if the link was found
open. A receive looks at the queue; if there is nothing it asks whether the link is closed, and if it is, looks
for the last time. An end that is dropped leaves, and then what waits there is discarded. -/
inductive Step
  | check (e : LinkEnd) (p : Bytes)
  | push (e : LinkEnd) (p : Bytes)
  | look (e : LinkEnd)
  | ask (e : LinkEnd)
  | lastLook (e : LinkEnd)
  | close (e : LinkEnd)
  | leave (e : LinkEnd)
  | discard (e : LinkEnd)
deriving DecidableEq

/-- The end at which a step is made. -/
def Step.source : Step → LinkEnd
  | check e _ => e
  | push e _ => e
  | look e => e
  | ask e => e
  | lastLook e => e
  | close e => e
  | leave e => e
  | discard e => e

/-- What a step comes to. A receive that waits is made again later. -/
inductive Answer
  | passed
  | sent
  | refused (e : LinkError)
  | nothing
  | closing
  | waits
  | got (r : Received)
  | done

def perform (l : MemoryLink) : Step → Answer × MemoryLink
  | .check _ _ =>
    match l.check with
    | .ok _ => (.passed, l)
    | .error r => (.refused r, l)
  | .push e p =>
    match l.push e p with
    | .ok l => (.sent, l)
    | .error r => (.refused r, l)
  | .look e =>
    match l.look e with
    | (some r, l) => (.got r, l)
    | (none, l) => (.nothing, l)
  | .ask _ => (if l.closed then .closing else .waits, l)
  | .lastLook e =>
    let (r, l) := l.lastLook e
    (.got r, l)
  | .close _ => (.done, l.close)
  | .leave e => (.done, l.leave e)
  | .discard e => (.done, l.discard e)

/-- The steps that have been made, each with what it came to. -/
abbrev Log := List (Step × Answer)

/-- The packets for an end that the other end was told to have sent. -/
def accepted (log : Log) (e : LinkEnd) : List Bytes :=
  log.filterMap fun
    | (.push d p, .sent) => if d = e.other then some p else none
    | _ => none

/-- The packets that an end has received. -/
def taken (log : Log) (e : LinkEnd) : List Bytes :=
  log.filterMap fun
    | (.look d, .got (.packet p)) => if d = e then some p else none
    | (.lastLook d, .got (.packet p)) => if d = e then some p else none
    | _ => none

/-- What has been accepted for an end and not been received. -/
def pending (log : Log) (e : LinkEnd) : List Bytes := (accepted log e).drop (taken log e).length

def isClosed (log : Log) : Bool := log.any fun x => x.1 = .close .first ∨ x.1 = .close .second

def hasLeft (log : Log) (e : LinkEnd) : Bool := log.any fun x => x.1 = .leave e

def isGone (log : Log) (e : LinkEnd) : Bool := log.any fun x => x.1 = .discard e

/-- A step begins a send at an end, or ends one, or leaves them as they are. -/
def carry (e : LinkEnd) (ps : List Bytes) : Step × Answer → List Bytes
  | (.check d p, .passed) => if d = e then ps ++ [p] else ps
  | (.push d p, _) => if d = e then ps.erase p else ps
  | _ => ps

/-- The packets of an end's sends that have found the link open and have not pushed yet. -/
def underway (log : Log) (e : LinkEnd) : List Bytes := log.foldl (carry e) []

/-- How far a receive has come: it has found nothing, or then also that the link is closed. -/
inductive Stage
  | idle
  | looked
  | closing
deriving DecidableEq

def Stage.after (e : LinkEnd) (s : Stage) : Step × Answer → Stage
  | (.look d, .nothing) => if d = e then .looked else s
  | (.ask d, .closing) => if d = e then .closing else s
  | (.look d, _) => if d = e then .idle else s
  | (.ask d, _) => if d = e then .idle else s
  | (.lastLook d, _) => if d = e then .idle else s
  | _ => s

def stage (log : Log) (e : LinkEnd) : Stage := log.foldl (Stage.after e) .idle

/-- Whether a step can come next. An end leaves when none of its sends is under way, and then only what waits
there is still discarded. A receive may be given up, and another one begin, at any time. -/
def mayCome (log : Log) : Step → Bool
  | .check e _ => !hasLeft log e
  | .push e p => decide (p ∈ underway log e)
  | .look e => !hasLeft log e
  | .ask e => !hasLeft log e && decide (stage log e = .looked)
  | .lastLook e => !hasLeft log e && decide (stage log e = .closing)
  | .close e => !hasLeft log e
  | .leave e => !hasLeft log e && (underway log e).isEmpty
  | .discard e => hasLeft log e && !isGone log e

/-- What an end is told that looks at its queue, if this is the answer when no packet is there. -/
def told (log : Log) (e : LinkEnd) (a : Answer) : Answer :=
  match pending log e with
  | p :: _ => .got (.packet p)
  | [] => a

/-- What a step has to come to after what has been done before. -/
def due (log : Log) : Step → Answer
  | .check _ _ => if isClosed log then .refused (.closed "memory link closed") else .passed
  | .push e _ => if isGone log e.other then .refused (.closed "peer dropped") else .sent
  | .look e => told log e (if hasLeft log e.other then .got .ended else .nothing)
  | .ask _ => if isClosed log then .closing else .waits
  | .lastLook e => told log e (.got .ended)
  | .close _ => .done
  | .leave _ => .done
  | .discard _ => .done

/-- A link, and what has been done with it. -/
structure Talk where
  link : MemoryLink := {}
  log : Log := []

def Talk.next (t : Talk) (s : Step) : Talk :=
  if mayCome t.log s then
    let (a, l) := t.link.perform s
    { link := l, log := t.log ++ [(s, a)] }
  else t

/-- A new link after steps at both ends, in this order. -/
def Talk.after (ss : List Step) : Talk := ss.foldl next {}

/-- Every step could be made, and came to what was due. -/
def Lawful (log : Log) : Prop :=
  ∀ before s a later, log = before ++ (s, a) :: later → mayCome before s = true ∧ a = due before s

section Log

variable {log : Log} {s : Step} {x : Step × Answer} {e : LinkEnd}

theorem accepted_append (log more : Log) (e : LinkEnd) :
    accepted (log ++ more) e = accepted log e ++ accepted more e := List.filterMap_append

theorem taken_append (log more : Log) (e : LinkEnd) :
    taken (log ++ more) e = taken log e ++ taken more e := List.filterMap_append

theorem isClosed_append (log more : Log) : isClosed (log ++ more) = (isClosed log || isClosed more) :=
  List.any_append

theorem hasLeft_append (log more : Log) (e : LinkEnd) :
    hasLeft (log ++ more) e = (hasLeft log e || hasLeft more e) := List.any_append

theorem isGone_append (log more : Log) (e : LinkEnd) :
    isGone (log ++ more) e = (isGone log e || isGone more e) := List.any_append

theorem underway_concat (log : Log) (x : Step × Answer) (e : LinkEnd) :
    underway (log ++ [x]) e = carry e (underway log e) x := by
  rw [underway, List.foldl_append]
  rfl

theorem stage_concat (log : Log) (x : Step × Answer) (e : LinkEnd) :
    stage (log ++ [x]) e = (stage log e).after e x := by
  rw [stage, List.foldl_append]
  rfl

/-- Only a packet that is received adds to what has been received. -/
theorem taken_single (x : Step × Answer) (e : LinkEnd) :
    taken [x] e = [] ∨ ∃ p, x.1.source = e ∧ x.2 = .got (.packet p) ∧ taken [x] e = [p] := by
  rw [taken, List.filterMap_cons, List.filterMap_nil]
  split
  case h_1 => exact .inl rfl
  case h_2 p hp =>
    refine .inr ⟨p, ?_⟩
    split at hp
    case h_3 => cases hp
    all_goals
      split at hp
      case isTrue hd =>
        cases hp
        exact ⟨hd, rfl, rfl⟩
      case isFalse => cases hp

/-- It is the two looks of a receive that may yield something. -/
theorem looks_of_due_got {r : Received} (h : due log s = .got r) :
    s = .look s.source ∨ s = .lastLook s.source := by
  cases s with
  | look e => exact .inl rfl
  | lastLook e => exact .inr rfl
  | check e p =>
    rw [due] at h
    split at h <;> cases h
  | push e p =>
    rw [due] at h
    split at h <;> cases h
  | ask e =>
    rw [due] at h
    split at h <;> cases h
  | close e => cases h
  | leave e => cases h
  | discard e => cases h

/-- A receive yields the first packet that has been accepted and not been received. If there is none it yields
the end of the link, either because the link is closed or because the other end has left. -/
theorem due_got {r : Received} (h : due log s = .got r) :
    (∃ p rest, pending log s.source = p :: rest ∧ r = .packet p) ∨
      (pending log s.source = [] ∧ r = .ended ∧
        (s = .lastLook s.source ∨ hasLeft log s.source.other = true)) := by
  rcases looks_of_due_got h with hs | hs
  · rw [hs, due, told] at h
    split at h
    case h_1 p rest hpending =>
      cases h
      exact .inl ⟨p, rest, hpending, rfl⟩
    case h_2 hnil =>
      split at h
      case isTrue hleft =>
        cases h
        exact .inr ⟨hnil, rfl, .inr hleft⟩
      case isFalse => cases h
  · rw [hs, due, told] at h
    split at h
    case h_1 p rest hpending =>
      cases h
      exact .inl ⟨p, rest, hpending, rfl⟩
    case h_2 hnil =>
      cases h
      exact .inr ⟨hnil, rfl, .inl hs⟩

theorem mem_taken {p : Bytes} (hs : s = .look s.source ∨ s = .lastLook s.source)
    (h : (s, .got (.packet p)) ∈ log) : p ∈ taken log s.source := by
  refine List.mem_filterMap.mpr ⟨_, h, ?_⟩
  rcases hs with hs | hs
  · rw [hs]
    exact if_pos rfl
  · rw [hs]
    exact if_pos rfl

theorem taken_due (log : Log) (s : Step) (e : LinkEnd) : taken [(s, due log s)] e <+: pending log e := by
  rcases taken_single (s, due log s) e with htaken | ⟨p, rfl, hdue, htaken⟩
  · rw [htaken]
    exact List.nil_prefix
  · rcases due_got hdue with ⟨q, rest, hpending, hq⟩ | ⟨-, hended, -⟩
    · obtain rfl := Received.packet.inj hq
      rw [htaken, hpending]
      exact ⟨rest, rfl⟩
    · cases hended

/-- A receive stays where it is, is over, or is led on by the step that leads there. -/
theorem Stage.after_cases (t : Stage) (x : Step × Answer) (e : LinkEnd) :
    t.after e x = t ∨ t.after e x = .idle ∨ (x = (.look e, .nothing) ∧ t.after e x = .looked) ∨
      (x = (.ask e, .closing) ∧ t.after e x = .closing) := by
  unfold Stage.after
  split
  case h_1 d =>
    by_cases hd : d = e
    · exact .inr (.inr (.inl ⟨by rw [hd], if_pos hd⟩))
    · exact .inl (if_neg hd)
  case h_2 d =>
    by_cases hd : d = e
    · exact .inr (.inr (.inr ⟨by rw [hd], if_pos hd⟩))
    · exact .inl (if_neg hd)
  case h_6 => exact .inl rfl
  all_goals
    split
    · exact .inr (.inl rfl)
    · exact .inl rfl

end Log

section Perform

variable (l : MemoryLink) (e d : LinkEnd) (i : MemoryInbox) (p : Bytes)

@[simp] theorem inbox_setInbox : (l.setInbox e i).inbox d = if d = e then i else l.inbox d := by
  cases e <;> cases d <;> rfl

@[simp] theorem closed_setInbox : (l.setInbox e i).closed = l.closed := by
  cases e <;> rfl

theorem perform_check : l.perform (.check e p) =
    (if l.closed then .refused (.closed "memory link closed") else .passed, l) := by
  simp only [perform, check]
  cases l.closed <;> rfl

theorem perform_push : l.perform (.push e p) =
    if (l.inbox e.other).gone then (.refused (.closed "peer dropped"), l)
    else (.sent, l.setInbox e.other { l.inbox e.other with packets := (l.inbox e.other).packets ++ [p] }) := by
  simp only [perform, push]
  cases (l.inbox e.other).gone <;> rfl

theorem perform_look : l.perform (.look e) =
    match (l.inbox e).packets with
    | p :: r => (.got (.packet p), l.setInbox e { l.inbox e with packets := r })
    | [] => (if (l.inbox e).ended then .got .ended else .nothing, l) := by
  simp only [perform, look, take]
  cases (l.inbox e).packets with
  | cons p r => rfl
  | nil => cases h : (l.inbox e).ended <;> simp only [h] <;> rfl

theorem perform_lastLook : l.perform (.lastLook e) =
    match (l.inbox e).packets with
    | p :: r => (.got (.packet p), l.setInbox e { l.inbox e with packets := r })
    | [] => (.got .ended, l) := by
  simp only [perform, lastLook, take]
  cases (l.inbox e).packets <;> rfl

end Perform

/-- What one step does: it closes the link or takes an end away if it says so, and what lay in a queue and what
was accepted for it is received or lies there now. -/
structure Accounts (l : MemoryLink) (x : Step × Answer) (m : MemoryLink) : Prop where
  closed : m.closed = (l.closed || isClosed [x])
  ended : ∀ e, (m.inbox e).ended = ((l.inbox e).ended || hasLeft [x] e.other)
  gone : ∀ e, (m.inbox e).gone = ((l.inbox e).gone || isGone [x] e)
  packets : ∀ e, isGone [x] e = false →
    (l.inbox e).packets ++ accepted [x] e = taken [x] e ++ (m.inbox e).packets

/-- A step that is told of no packet and does nothing to the ends leaves the link as it is. -/
theorem Accounts.quiet (l : MemoryLink) {x : Step × Answer} (hclosed : isClosed [x] = false)
    (hleft : ∀ e, hasLeft [x] e = false) (hgone : ∀ e, isGone [x] e = false)
    (haccepted : ∀ e, accepted [x] e = []) (htaken : ∀ e, taken [x] e = []) : Accounts l x l := by
  refine ⟨?_, fun e => ?_, fun e => ?_, fun e _ => ?_⟩
  · rw [hclosed, Bool.or_false]
  · rw [hleft, Bool.or_false]
  · rw [hgone, Bool.or_false]
  · rw [haccepted, htaken, List.append_nil, List.nil_append]

/-- A packet that was waiting is received by either look. -/
theorem Accounts.receive (l : MemoryLink) {e : LinkEnd} {s : Step} {p : Bytes} {r : List Bytes}
    (hs : s = .look e ∨ s = .lastLook e) (hpackets : (l.inbox e).packets = p :: r) :
    Accounts l (s, .got (.packet p)) (l.setInbox e { l.inbox e with packets := r }) := by
  refine ⟨?_, fun d => ?_, fun d => ?_, fun d _ => ?_⟩
  · rcases hs with rfl | rfl <;> simp [isClosed]
  · rcases hs with rfl | rfl <;> cases e <;> cases d <;> simp [hasLeft]
  · rcases hs with rfl | rfl <;> cases e <;> cases d <;> simp [isGone]
  · rcases hs with rfl | rfl <;> cases e <;> cases d <;> simp [accepted, taken, hpackets]

theorem perform_accounts (l : MemoryLink) (s : Step) : Accounts l (s, (l.perform s).1) (l.perform s).2 := by
  cases s with
  | check e p =>
    rw [perform_check]
    exact .quiet l rfl (fun _ => rfl) (fun _ => rfl) (fun _ => rfl) (fun _ => rfl)
  | push e p =>
    rw [perform_push]
    split
    case isTrue => exact .quiet l rfl (fun _ => rfl) (fun _ => rfl) (fun _ => rfl) (fun _ => rfl)
    case isFalse =>
      refine ⟨?_, fun d => ?_, fun d => ?_, fun d _ => ?_⟩
      · simp [isClosed]
      · cases e <;> cases d <;> simp [hasLeft, LinkEnd.other]
      · cases e <;> cases d <;> simp [isGone, LinkEnd.other]
      · cases e <;> cases d <;> simp [accepted, taken, LinkEnd.other]
  | look e =>
    rw [perform_look]
    split
    case h_1 p r hpackets => exact .receive l (.inl rfl) hpackets
    case h_2 =>
      split
      · exact .quiet l rfl (fun _ => rfl) (fun _ => rfl) (fun _ => rfl) (fun _ => rfl)
      · exact .quiet l rfl (fun _ => rfl) (fun _ => rfl) (fun _ => rfl) (fun _ => rfl)
  | ask e => exact .quiet l rfl (fun _ => rfl) (fun _ => rfl) (fun _ => rfl) (fun _ => rfl)
  | lastLook e =>
    rw [perform_lastLook]
    split
    case h_1 p r hpackets => exact .receive l (.inr rfl) hpackets
    case h_2 => exact .quiet l rfl (fun _ => rfl) (fun _ => rfl) (fun _ => rfl) (fun _ => rfl)
  | close e =>
    refine ⟨?_, fun d => ?_, fun d => ?_, fun d _ => ?_⟩
    · cases e <;> simp [perform, MemoryLink.close, isClosed]
    · cases d <;> simp [perform, MemoryLink.close, hasLeft, inbox]
    · cases d <;> simp [perform, MemoryLink.close, isGone, inbox]
    · cases d <;> simp [perform, MemoryLink.close, accepted, taken, inbox]
  | leave e =>
    refine ⟨?_, fun d => ?_, fun d => ?_, fun d _ => ?_⟩
    · simp [perform, MemoryLink.leave, isClosed]
    · cases e <;> cases d <;> simp [perform, MemoryLink.leave, hasLeft, LinkEnd.other]
    · cases e <;> cases d <;> simp [perform, MemoryLink.leave, isGone, LinkEnd.other]
    · cases e <;> cases d <;> simp [perform, MemoryLink.leave, accepted, taken, LinkEnd.other]
  | discard e =>
    refine ⟨?_, fun d => ?_, fun d => ?_, fun d hd => ?_⟩
    · simp [perform, MemoryLink.discard, isClosed]
    · cases e <;> cases d <;> simp [perform, MemoryLink.discard, hasLeft]
    · cases e <;> cases d <;> simp [perform, MemoryLink.discard, isGone]
    · have hne : d ≠ e := by
        rintro rfl
        simp [isGone] at hd
      simp [perform, MemoryLink.discard, accepted, taken, hne]

/-- The link is as its log says: what has been accepted for an end that is still there has been received or
lies in its queue. -/
structure Sound (l : MemoryLink) (log : Log) : Prop where
  closed : l.closed = isClosed log
  ended : ∀ e, (l.inbox e).ended = hasLeft log e.other
  gone : ∀ e, (l.inbox e).gone = isGone log e
  left : ∀ e, hasLeft log e = false → isGone log e = false
  packets : ∀ e, isGone log e = false → accepted log e = taken log e ++ (l.inbox e).packets

namespace Sound

variable {l m : MemoryLink} {log : Log} {x : Step × Answer} {s : Step} {e : LinkEnd}

theorem start : Sound {} [] :=
  ⟨rfl, fun e => by cases e <;> rfl, fun e => by cases e <;> rfl, fun e _ => by cases e <;> rfl,
    fun e _ => by cases e <;> rfl⟩

theorem next (h : Sound l log) (hs : mayCome log s = true) :
    Sound (l.perform s).2 (log ++ [(s, (l.perform s).1)]) := by
  have hx := perform_accounts l s
  refine ⟨?_, fun e => ?_, fun e => ?_, fun e he => ?_, fun e he => ?_⟩
  · rw [isClosed_append, hx.closed, h.closed]
  · rw [hasLeft_append, hx.ended, h.ended]
  · rw [isGone_append, hx.gone, h.gone]
  · rw [hasLeft_append, Bool.or_eq_false_iff] at he
    rw [isGone_append, h.left e he.1, Bool.false_or]
    -- only an end that has left can go
    refine Bool.eq_false_iff.mpr fun hgone => ?_
    obtain rfl : s = .discard e := by simpa [isGone] using hgone
    simp [mayCome, he.1] at hs
  · rw [isGone_append, Bool.or_eq_false_iff] at he
    rw [accepted_append, taken_append, h.packets e he.1, List.append_assoc, hx.packets e he.2,
      List.append_assoc]

/-- What has not been received yet lies in the queue. -/
theorem pending_eq (h : Sound l log) (he : hasLeft log e = false) : pending log e = (l.inbox e).packets := by
  rw [pending, h.packets e (h.left e he), List.drop_left]

/-- A link gives the answers that are due. -/
theorem answer_eq (h : Sound l log) (hs : mayCome log s = true) : (l.perform s).1 = due log s := by
  cases s with
  | check e p => rw [perform_check, h.closed, due]
  | push e p =>
    rw [perform_push, h.gone, due]
    split <;> rfl
  | look e =>
    have he : hasLeft log e = false := by simpa [mayCome] using hs
    rw [perform_look, h.ended, due, told, h.pending_eq he]
    cases (l.inbox e).packets <;> rfl
  | ask e => rw [perform, h.closed, due]
  | lastLook e =>
    have he : hasLeft log e = false := by
      simp only [mayCome, Bool.and_eq_true, Bool.not_eq_true'] at hs
      exact hs.1
    rw [perform_lastLook, due, told, h.pending_eq he]
    cases (l.inbox e).packets <;> rfl
  | close e => rfl
  | leave e => rfl
  | discard e => rfl

end Sound

/-! What follows from the answers being due, whatever gives them. -/

namespace Lawful

variable {log before later : Log} {s : Step} {a : Answer} {e : LinkEnd}

theorem of_append (h : Lawful (before ++ later)) : Lawful before := by
  rintro b s a l rfl
  exact h b s a (l ++ later) (by simp)

theorem last (h : Lawful (log ++ [(s, a)])) : mayCome log s = true ∧ a = due log s :=
  h log s a [] rfl

theorem nil : Lawful [] := by
  intro before s a later h
  exact absurd h.symm (List.append_ne_nil_of_right_ne_nil _ (List.cons_ne_nil _ _))

theorem concat (h : Lawful log) (hs : mayCome log s = true) : Lawful (log ++ [(s, due log s)]) := by
  intro before d a later hsplit
  cases later using List.reverseRecOn with
  | nil =>
    obtain ⟨rfl, hx⟩ := List.append_inj' hsplit rfl
    cases hx
    exact ⟨hs, rfl⟩
  | append_singleton later y =>
    rw [← List.cons_append, ← List.append_assoc] at hsplit
    obtain ⟨rfl, -⟩ := List.append_inj' hsplit rfl
    exact h before d a later rfl

/-- What an end receives is a beginning of what was accepted for it. -/
theorem taken_prefix (h : Lawful log) (e : LinkEnd) : taken log e <+: accepted log e := by
  induction log using List.reverseRecOn with
  | nil => exact List.prefix_refl _
  | append_singleton log x ih =>
    obtain ⟨s, a⟩ := x
    obtain ⟨rest, hrest⟩ := ih h.of_append
    have hnew := taken_due log s e
    rw [pending, ← hrest, List.drop_left] at hnew
    obtain ⟨rest', hrest'⟩ := hnew
    rw [h.last.2, taken_append, accepted_append, ← hrest, ← hrest', List.append_assoc, List.append_assoc]
    exact List.prefix_append_right_inj _ |>.mpr (List.prefix_append _ _)

/-- A receive looks for the last time only when the link is closed. -/
theorem closed_of_closing (h : Lawful log) (he : stage log e = .closing) : isClosed log = true := by
  induction log using List.reverseRecOn with
  | nil => cases he
  | append_singleton log x ih =>
    obtain ⟨s, a⟩ := x
    rw [isClosed_append, Bool.or_eq_true]
    rw [stage_concat] at he
    rcases (stage log e).after_cases (s, a) e with hstay | hidle | ⟨-, hlooked⟩ | ⟨hx, -⟩
    · exact .inl (ih h.of_append (hstay.symm.trans he))
    · cases hidle.symm.trans he
    · cases hlooked.symm.trans he
    · obtain ⟨rfl, rfl⟩ := Prod.mk.inj hx
      have hdue := h.last.2
      rw [due] at hdue
      split at hdue
      case isTrue hclosed => exact .inl hclosed
      case isFalse => cases hdue

end Lawful

/-- The link is closed for an end, or the other end has left. -/
def isCut (log : Log) (e : LinkEnd) : Bool := isClosed log || hasLeft log e.other

section Cut

variable {log more : Log} {s : Step} {a : Answer} {e : LinkEnd}

theorem isCut_append (h : isCut log e = true) (more : Log) : isCut (log ++ more) e = true := by
  rw [isCut, Bool.or_eq_true] at h
  rw [isCut, isClosed_append, hasLeft_append, Bool.or_eq_true, Bool.or_eq_true, Bool.or_eq_true]
  exact h.imp .inl .inl

/-- An end is told of the end of the link when the link is cut for it and no packet is left. -/
theorem Lawful.cut_of_ended (h : Lawful (log ++ [(s, .got .ended)])) :
    isCut log s.source = true ∧ taken log s.source = accepted log s.source := by
  obtain ⟨hs, hdue⟩ := h.last
  rcases due_got hdue.symm with ⟨_, _, _, hpacket⟩ | ⟨hnil, -, hlast | hleft⟩
  · cases hpacket
  all_goals
    refine ⟨?_, (h.of_append.taken_prefix s.source).eq_of_length_le (List.drop_eq_nil_iff.mp hnil)⟩
    rw [isCut, Bool.or_eq_true]
  · rw [hlast, mayCome, Bool.and_eq_true, decide_eq_true_eq] at hs
    exact .inl (h.of_append.closed_of_closing hs.2)
  · exact .inr hleft

/-- When a link is cut for an end, only a send that is under way at the other end can still be accepted for it,
and is then no longer under way. -/
theorem accepted_due (hcut : isCut log e = true) (hs : mayCome log s = true) :
    (accepted [(s, due log s)] e ++ underway (log ++ [(s, due log s)]) e.other).Subperm
      (underway log e.other) := by
  rw [underway_concat]
  cases s with
  | check d p =>
    rw [due]
    split
    case isTrue => exact .refl _
    case isFalse hopen =>
      -- the other end has left, and begins no send
      have hd : d ≠ e.other := by
        rintro rfl
        rw [isCut, Bool.eq_false_iff.mpr hopen, Bool.false_or] at hcut
        simp [mayCome, hcut] at hs
      rw [carry, if_neg hd]
      exact .refl _
  | push d p =>
    rw [due, carry]
    by_cases hd : d = e.other
    · subst hd
      have hp : p ∈ underway log e.other := by simpa [mayCome] using hs
      rw [if_pos rfl]
      split
      case isTrue => exact List.erase_subperm p _
      case isFalse =>
        rw [show accepted [(Step.push e.other p, Answer.sent)] e = [p] by simp [accepted]]
        exact (List.perm_cons_erase hp).symm.subperm
    · rw [if_neg hd]
      split
      case isTrue => exact .refl _
      case isFalse =>
        rw [show accepted [(Step.push d p, Answer.sent)] e = [] by simp [accepted, hd]]
        exact .refl _
  | look d => exact .refl _
  | ask d => exact .refl _
  | lastLook d => exact .refl _
  | close d => exact .refl _
  | leave d => exact .refl _
  | discard d => exact .refl _

/-- From when a link is cut for an end, what is accepted for it was under way then. -/
theorem Lawful.accepted_of_cut (hlog : Lawful (log ++ more)) (hcut : isCut log e = true) :
    (accepted more e ++ underway (log ++ more) e.other).Subperm (underway log e.other) := by
  induction more using List.reverseRecOn with
  | nil =>
    rw [List.append_nil]
    exact .refl _
  | append_singleton more x ih =>
    rw [← List.append_assoc] at hlog ⊢
    obtain ⟨s, a⟩ := x
    obtain ⟨hs, rfl⟩ := hlog.last
    have hnew := accepted_due (isCut_append hcut more) hs
    rw [accepted_append, List.append_assoc]
    exact ((List.subperm_append_left _).mpr hnew).trans (ih hlog.of_append)

/-- A step that yields something leaves the sends as they are, and ends the receive. -/
theorem after_got {r : Received} (h : due log s = .got r) (e : LinkEnd) :
    underway (log ++ [(s, .got r)]) e = underway log e ∧ stage (log ++ [(s, .got r)]) s.source = .idle := by
  rw [underway_concat, stage_concat]
  rcases looks_of_due_got h with hs | hs
  · rw [hs]
    exact ⟨rfl, if_pos rfl⟩
  · rw [hs]
    exact ⟨rfl, if_pos rfl⟩

/-- What is received after an end has been told of the end of the link was under way at the other end then. -/
theorem Lawful.taken_of_ended (h : Lawful (log ++ (s, .got .ended) :: more)) :
    (taken more s.source).Subperm (underway log s.source.other) := by
  rw [List.append_cons] at h
  obtain ⟨hcut, hempty⟩ := h.of_append.cut_of_ended
  have hnew := h.accepted_of_cut (isCut_append hcut [(s, .got .ended)])
  rw [(after_got h.of_append.last.2.symm _).1] at hnew
  refine List.Subperm.trans ?_ ((List.sublist_append_left _ _).subperm.trans hnew)
  have htaken : taken [(s, .got .ended)] s.source = [] := by cases s <;> rfl
  have haccepted : accepted [(s, .got .ended)] s.source = [] := by cases s <;> rfl
  have hprefix := h.taken_prefix s.source
  rw [taken_append, taken_append, accepted_append, accepted_append, htaken, haccepted, hempty,
    List.prefix_append_right_inj] at hprefix
  exact hprefix.sublist.subperm

/-- An end that does not wait when the link is cut for it does not wait again. -/
theorem Lawful.never_looked (hlog : Lawful (log ++ more))
    (h : isClosed log = true ∨ hasLeft log e.other = true ∧ stage log e ≠ .looked) :
    isClosed (log ++ more) = true ∨ hasLeft (log ++ more) e.other = true ∧ stage (log ++ more) e ≠ .looked := by
  induction more using List.reverseRecOn with
  | nil => rwa [List.append_nil]
  | append_singleton more x ih =>
    rw [← List.append_assoc] at hlog ⊢
    rw [isClosed_append, hasLeft_append, Bool.or_eq_true, Bool.or_eq_true]
    refine (ih hlog.of_append).imp .inl fun ⟨hleft, hstage⟩ => ⟨.inl hleft, fun hlooked => ?_⟩
    rw [stage_concat] at hlooked
    rcases (stage (log ++ more) e).after_cases x e with hstay | hidle | ⟨rfl, -⟩ | ⟨-, hclosing⟩
    · exact hstage (hstay.symm.trans hlooked)
    · cases hidle.symm.trans hlooked
    · -- a look at the queue of an end whose other end has left finds something
      have hdue := hlog.last.2
      rw [due, if_pos hleft, told] at hdue
      split at hdue <;> cases hdue
    · cases hclosing.symm.trans hlooked

/-- An end that has been told of the end of the link is not kept waiting. -/
theorem Lawful.not_waits (h : Lawful (log ++ (s, .got .ended) :: more)) : (.ask s.source, .waits) ∉ more := by
  intro hmem
  obtain ⟨l, r, rfl⟩ := List.append_of_mem hmem
  rw [List.append_cons, ← List.append_assoc] at h
  have hended := h.of_append.of_append
  have hstart : isClosed (log ++ [(s, .got .ended)]) = true ∨
      hasLeft (log ++ [(s, .got .ended)]) s.source.other = true ∧
        stage (log ++ [(s, .got .ended)]) s.source ≠ .looked := by
    have hcut := isCut_append hended.cut_of_ended.1 [(s, .got .ended)]
    rw [isCut, Bool.or_eq_true] at hcut
    refine hcut.imp_right fun hleft => ⟨hleft, ?_⟩
    rw [(after_got hended.last.2.symm s.source).2]
    exact nofun
  obtain ⟨hask, hdue⟩ := h _ _ _ r rfl
  rw [mayCome, Bool.and_eq_true, decide_eq_true_eq] at hask
  rcases h.of_append.never_looked hstart with hclosed | ⟨-, hstage⟩
  · rw [due, if_pos hclosed] at hdue
    cases hdue
  · exact hstage hask.2

end Cut

/-- From when an end has been told of the end of the link, it is told of nothing else. -/
def StaysEnded (log : Log) : Prop :=
  ∀ before s later, log = before ++ (s, .got .ended) :: later →
    ∀ s' r, (s', .got r) ∈ later → s'.source = s.source → r = .ended

/-- What an end can rely on, seen from the log. -/
structure Reliable (log : Log) : Prop where
  in_order : ∀ e, taken log e <+: accepted log e
  ends : ∀ before s later, log = before ++ (s, .got .ended) :: later →
    (isClosed before ∨ hasLeft before s.source.other) ∧ taken before s.source = accepted before s.source
  late : ∀ before s later, log = before ++ (s, .got .ended) :: later →
    (taken later s.source).Subperm (underway before s.source.other) ∧ (.ask s.source, .waits) ∉ later
  stays_ended : ∀ before s later, log = before ++ (s, .got .ended) :: later →
    underway before s.source.other = [] → ∀ s' r, (s', .got r) ∈ later → s'.source = s.source → r = .ended
  refuses : ∀ d b before later, log = before ++ (.close d, b) :: later →
    (∀ e p a, (.check e p, a) ∈ later → a = .refused (.closed "memory link closed")) ∧
      ∀ e, (accepted later e).Subperm (underway before e.other)

theorem Lawful.reliable {log : Log} (h : Lawful log) : Reliable log := by
  refine ⟨h.taken_prefix, ?_, ?_, ?_, ?_⟩
  · rintro before s later rfl
    rw [List.append_cons] at h
    obtain ⟨hcut, hempty⟩ := h.of_append.cut_of_ended
    rw [isCut, Bool.or_eq_true] at hcut
    exact ⟨hcut, hempty⟩
  · rintro before s later rfl
    exact ⟨h.taken_of_ended, h.not_waits⟩
  · rintro before s later rfl hnone s' r hmem hsource
    have htaken := h.taken_of_ended
    rw [hnone, List.subperm_nil] at htaken
    obtain ⟨l, l', hlater⟩ := List.append_of_mem hmem
    have hdue := (h (before ++ (s, .got .ended) :: l) s' (.got r) l' (by simp [hlater])).2.symm
    rcases due_got hdue with ⟨p, -, -, rfl⟩ | ⟨-, rfl, -⟩
    · have hp := mem_taken (looks_of_due_got hdue) hmem
      rw [hsource, htaken] at hp
      exact absurd hp List.not_mem_nil
    · rfl
  · rintro d b before later rfl
    rw [List.append_cons] at h
    have hclosed : isClosed (before ++ [(.close d, b)]) = true := by
      rw [isClosed_append]
      cases d <;> simp [isClosed]
    refine ⟨fun e p a hmem => ?_, fun e => ?_⟩
    · obtain ⟨l, r, rfl⟩ := List.append_of_mem hmem
      rw [← List.append_assoc] at h
      have hstill : isClosed (before ++ [(.close d, b)] ++ l) = true := by
        rw [isClosed_append, hclosed, Bool.true_or]
      exact (h _ _ _ r rfl).2.trans (if_pos hstill)
    · have hnew := h.accepted_of_cut (e := e) (by rw [isCut, hclosed, Bool.true_or])
      rw [underway_concat] at hnew
      exact (List.sublist_append_left _ _).subperm.trans hnew

/-- The log of every history is lawful, and tells what has become of the link. -/
theorem Talk.sound_after (ss : List Step) :
    Sound (Talk.after ss).link (Talk.after ss).log ∧ Lawful (Talk.after ss).log := by
  induction ss using List.reverseRecOn with
  | nil => exact ⟨.start, .nil⟩
  | append_singleton ss s ih =>
    obtain ⟨hsound, hlawful⟩ := ih
    have hstep : Talk.after (ss ++ [s]) = (Talk.after ss).next s := by
      rw [Talk.after, List.foldl_append]
      rfl
    rw [hstep, Talk.next]
    split
    case isTrue hs =>
      have hlog := hlawful.concat hs
      rw [← hsound.answer_eq hs] at hlog
      exact ⟨hsound.next hs, hlog⟩
    case isFalse => exact ⟨hsound, hlawful⟩

/-- A link is a pair of queues, however the steps at its two ends are mixed. An end receives, in order, what was
accepted for it. It is told of the end of the link only when the link is closed or the other end has left and
everything has been received. From then on it is not kept waiting, and is told of nothing else but packets of
sends that had found the link open and were under way at the other end. From when the link is closed, by either
end, every send that begins is refused and adds nothing. Nothing else is refused, and nobody waits in vain: each
step comes to what is due after the steps before it. -/
theorem queues_reliably (ss : List Step) :
    let t := Talk.after ss
    Reliable t.log ∧
      (∀ before s a later, t.log = before ++ (s, a) :: later → a = due before s) ∧
      (isClosed t.log = true → ∀ e p, (t.next (.check e p)).link = t.link ∧
        ∀ d, underway (t.next (.check e p)).log d = underway t.log d) := by
  intro t
  obtain ⟨hsound, hlawful⟩ := Talk.sound_after ss
  refine ⟨hlawful.reliable, fun before s a later hsplit => (hlawful before s a later hsplit).2, fun h e p => ?_⟩
  rw [Talk.next]
  split
  case isTrue =>
    rw [perform_check, hsound.closed, if_pos h]
    exact ⟨rfl, fun d => underway_concat _ _ d⟩
  case isFalse => exact ⟨rfl, fun _ => rfl⟩

/-- One end says goodbye and the other one closes the link. It goes on to read, and nothing that is sent
afterwards reaches it. -/
theorem queues_reliably_goodbye :
    let t := Talk.after [.check .first [1], .push .first [1], .close .second, .look .second, .look .second,
      .ask .second, .lastLook .second, .check .first [2], .look .second, .ask .second, .lastLook .second]
    let before : Log := [(.check .first [1], .passed), (.push .first [1], .sent), (.close .second, .done),
      (.look .second, .got (.packet [1])), (.look .second, .nothing), (.ask .second, .closing)]
    let later : Log := [(.check .first [2], .refused (.closed "memory link closed")), (.look .second, .nothing),
      (.ask .second, .closing), (.lastLook .second, .got .ended)]
    t.log = before ++ (.lastLook .second, .got .ended) :: later ∧ taken before .second = accepted before .second ∧
      underway before .first = [] ∧ (∀ s r, (s, .got r) ∈ later → s.source = .second → r = .ended) ∧
      (t.next (.check .first [3])).link = t.link := by
  intro t before later
  obtain ⟨hreliable, -, hadds⟩ := queues_reliably [.check .first [1], .push .first [1], .close .second,
    .look .second, .look .second, .ask .second, .lastLook .second, .check .first [2], .look .second,
    .ask .second, .lastLook .second]
  have hlog : t.log = before ++ (.lastLook .second, .got .ended) :: later := rfl
  exact ⟨hlog, (hreliable.ends before _ later hlog).2, rfl, hreliable.stays_ended before _ later hlog rfl,
    (hadds rfl .first [3]).1⟩

/-- A send finds the link open. Before it pushes, the other end closes the link and is told of the end of it;
then it receives the packet all the same. -/
theorem not_staysEnded :
    ¬ StaysEnded (Talk.after [.check .first [1], .close .second, .look .second, .ask .second, .lastLook .second,
      .push .first [1], .look .second]).log := by
  intro h
  have hpacket := h [(.check .first [1], .passed), (.close .second, .done), (.look .second, .nothing),
    (.ask .second, .closing)] (.lastLook .second) [(.push .first [1], .sent), (.look .second, .got (.packet [1]))]
    rfl (.look .second) (.packet [1]) (by simp) rfl
  cases hpacket

end MemoryLink
end EditionGateway
