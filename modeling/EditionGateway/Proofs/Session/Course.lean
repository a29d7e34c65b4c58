import EditionGateway.Gateway.Session

/-!
What can become of a session, and what an onlooker notes about it: what it is told, what it has done
for it and which states it shows. An event that a session does not wait for is passed over, so every
list of events is a run.
-/

namespace EditionGateway

/-- What an act is, without its circumstances. -/
inductive Act.Kind
  | enter
  | tell
  | compress
  | connect
  | ask
  | register
  | stopListening
  | closeClient
  | closeBackend
  | deregister
deriving DecidableEq, Repr

namespace Act

def kind : Act → Act.Kind
  | .enter _ => .enter
  | .tell _ => .tell
  | .compress _ => .compress
  | .connect _ => .connect
  | .ask _ => .ask
  | .register _ => .register
  | .stopListening => .stopListening
  | .closeClient => .closeClient
  | .closeBackend => .closeBackend
  | .deregister => .deregister

/-- Sending and registering can fail. Nothing else that a session has done for it can. -/
def canFail (a : Act) : Bool := a.kind = .tell ∨ a.kind = .ask ∨ a.kind = .register

/-- The state that is entered. -/
def entered? : Act → Option Lifecycle
  | .enter l => some l
  | _ => none

theorem eq_enter {a : Act} {l : Lifecycle} (h : a.entered? = some l) : a = .enter l := by
  cases a <;> simp_all [entered?]

end Act

inductive Note
  | heard (e : Event)
  | did (lane : Lane) (act : Act) (r : Except GatewayError Unit)
  | became (state : Lifecycle)

/-- Notes about one session, oldest first. -/
abbrev Notes := List Note

namespace Notes

/-- What has been done, or has been tried. -/
def acts (n : Notes) : List Act := n.filterMap fun
  | .did _ a _ => some a
  | _ => none

/-- The states that have been shown since the session has started. -/
def states (n : Notes) : List Lifecycle := n.filterMap fun
  | .became l => some l
  | _ => none

/-- What was to be sent to the client, and what has come of it. -/
def tells (n : Notes) : List (Client.Packet × Except GatewayError Unit) := n.filterMap fun
  | .did _ (.tell p) r => some (p, r)
  | _ => none

/-- The packets that have been sent to the client. -/
def told (n : Notes) : List Client.Packet := n.filterMap fun
  | .did _ (.tell p) (.ok _) => some p
  | _ => none

/-- The packets that have been sent to the backend. -/
def asked (n : Notes) : List Backend.Packet := n.filterMap fun
  | .did _ (.ask p) (.ok _) => some p
  | _ => none

/-- The packets of the client that have been read. -/
def reads (n : Notes) : List Client.Packet := n.filterMap fun
  | .heard (.client (.ok p)) => some p
  | _ => none

/-- How often something has been done, or has been tried. -/
def count (n : Notes) (k : Act.Kind) : Nat := (acts n).countP (·.kind = k)

/-- The link to the backend has been opened. -/
def Linked (n : Notes) : Prop := .heard (.connected (.ok ())) ∈ n

/-- The session has been put into the registry. -/
def Registered (n : Notes) : Prop := ∃ lane u, .did lane (.register u) (.ok ()) ∈ n

@[simp] theorem acts_nil : acts [] = [] := rfl

@[simp] theorem acts_heard (e : Event) (n : Notes) : acts (.heard e :: n) = acts n := rfl

@[simp] theorem acts_did (lane : Lane) (a : Act) (r : Except GatewayError Unit) (n : Notes) :
    acts (.did lane a r :: n) = a :: acts n := rfl

@[simp] theorem acts_became (l : Lifecycle) (n : Notes) : acts (.became l :: n) = acts n := rfl

@[simp] theorem states_nil : states [] = [] := rfl

@[simp] theorem states_heard (e : Event) (n : Notes) : states (.heard e :: n) = states n := rfl

@[simp] theorem states_did (lane : Lane) (a : Act) (r : Except GatewayError Unit) (n : Notes) :
    states (.did lane a r :: n) = states n := rfl

@[simp] theorem states_became (l : Lifecycle) (n : Notes) :
    states (.became l :: n) = l :: states n := rfl

@[simp] theorem acts_append (n m : Notes) : acts (n ++ m) = acts n ++ acts m :=
  List.filterMap_append

@[simp] theorem states_append (n m : Notes) : states (n ++ m) = states n ++ states m :=
  List.filterMap_append

@[simp] theorem tells_append (n m : Notes) : tells (n ++ m) = tells n ++ tells m :=
  List.filterMap_append

@[simp] theorem told_append (n m : Notes) : told (n ++ m) = told n ++ told m :=
  List.filterMap_append

@[simp] theorem asked_append (n m : Notes) : asked (n ++ m) = asked n ++ asked m :=
  List.filterMap_append

@[simp] theorem reads_append (n m : Notes) : reads (n ++ m) = reads n ++ reads m :=
  List.filterMap_append

@[simp] theorem count_append (n m : Notes) (k : Act.Kind) :
    count (n ++ m) k = count n k + count m k := by
  simp [count, List.countP_append]

theorem mem_acts {n : Notes} {lane : Lane} {a : Act} {r : Except GatewayError Unit}
    (h : .did lane a r ∈ n) : a ∈ acts n :=
  List.mem_filterMap.mpr ⟨_, h, rfl⟩

end Notes

namespace Session

/-- Whether an event can happen to a session: it waits for it, and only what can fail is ever said
to have failed. -/
def admits (s : Session) : Event → Bool
  | .done lane (.error _) => (s.next? lane).any (·.canFail)
  | e => s.awaits e

/-- What the event itself gives to note. -/
def noted (s : Session) : Event → Notes
  | .done lane r => ((s.next? lane).map fun a => Note.did lane a r).toList
  | e => [.heard e]

/-- The state that a session shows after a change, if it is another one. -/
def shown (s t : Session) : Notes := if t.lifecycle = s.lifecycle then [] else [.became t.lifecycle]

theorem admits_of_result {s : Session} {lane : Lane} {a : Act} {r : Except GatewayError Unit}
    (ha : s.next? lane = some a) (hr : r = .ok () ∨ a.canFail) : s.admits (.done lane r) := by
  cases r with
  | ok u => simp [admits, awaits, ha]
  | error e => simpa [admits, ha] using hr

theorem next?_main {s : Session} {a : Act} {rest : List Act} (ht : s.todo = a :: rest) :
    s.next? .main = some a := by
  simp [next?, ht]

theorem noted_done {s : Session} {lane : Lane} {a : Act} (ha : s.next? lane = some a)
    (r : Except GatewayError Unit) : s.noted (.done lane r) = [.did lane a r] := by
  simp [noted, ha]

theorem noted_main {s : Session} {a : Act} {rest : List Act} (ht : s.todo = a :: rest)
    (r : Except GatewayError Unit) : s.noted (.done .main r) = [.did .main a r] :=
  noted_done (next?_main ht) r

/-- What is noted of an event is at most an act that was next. -/
theorem acts_noted {s : Session} {e : Event} {a : Act} (h : a ∈ Notes.acts (s.noted e)) :
    a ∈ s.todo ∨ a.kind = .tell ∨ a.kind = .ask := by
  cases e with
  | done lane r =>
    cases hn : s.next? lane with
    | none => simp [noted, hn] at h
    | some b =>
      obtain rfl : a = b := by simpa [noted, hn] using h
      cases lane with
      | main => exact .inl (List.mem_of_mem_head? hn)
      | toBackend =>
        obtain ⟨p, -, rfl⟩ := Option.map_eq_some_iff.mp hn
        exact .inr (.inr rfl)
      | toClient | commands =>
        obtain ⟨p, -, rfl⟩ := Option.map_eq_some_iff.mp hn
        exact .inr (.inl rfl)
  | _ => cases h

/-- What is shown is only a state. -/
theorem shown_eq (s t : Session) : s.shown t = [] ∨ s.shown t = [.became t.lifecycle] := by
  unfold shown
  split
  · exact .inl rfl
  · exact .inr rfl

@[simp] theorem acts_shown (s t : Session) : Notes.acts (s.shown t) = [] := by
  rcases s.shown_eq t with h | h <;> rw [h] <;> rfl

@[simp] theorem reads_shown (s t : Session) : Notes.reads (s.shown t) = [] := by
  rcases s.shown_eq t with h | h <;> rw [h] <;> rfl

@[simp] theorem told_shown (s t : Session) : Notes.told (s.shown t) = [] := by
  rcases s.shown_eq t with h | h <;> rw [h] <;> rfl

theorem did_not_mem_shown (s t : Session) {lane : Lane} {a : Act} {r : Except GatewayError Unit} :
    Note.did lane a r ∉ s.shown t := by
  unfold shown
  split <;> simp

end Session

/-- A session, and all that has been noted about it. -/
structure Course where
  session : Session
  notes : Notes := []

namespace Course

/-- What becomes of a session with an event. -/
def next (c : Course) (now : Nat) (e : Event) : Course :=
  if c.session.admits e then
    let s := c.session.handle now e
    { session := s, notes := c.notes ++ c.session.noted e ++ c.session.shown s }
  else c

/-- What becomes of a session with one event after the other, each with the time at which it
happens. -/
def after (c : Course) (es : List (Nat × Event)) : Course :=
  es.foldl (fun c o => c.next o.1 o.2) c

/-- A new session. -/
def start (config : GatewayConfig) (converters : Converters) (id : SessionId) (now : Nat) :
    Course where
  session := .start config converters id now

/-- What happens in turn to a new session whose client logs in as it should, until the session is
established. -/
def welcomed : List Event :=
  [.done .main (.ok ()), .client (.ok (.requestNetworkSettings 748)), .done .main (.ok ()),
    .done .main (.ok ()), .client (.ok (.login 748 "Steve" ⟨0, 0⟩ "" "")),
    .client (.ok (.clientData "\x7b\x7d")), .done .main (.ok ()), .done .main (.ok ()),
    .done .main (.ok ()), .client (.ok (.resourcePackClientResponse .completed)),
    .done .main (.ok ()), .done .main (.ok ()), .done .main (.ok ()), .connected (.ok ()),
    .done .main (.ok ())]

theorem next_notes {c : Course} {now : Nat} {e : Event} (h : c.session.admits e) :
    (c.next now e).notes =
      c.notes ++ c.session.noted e ++ c.session.shown (c.session.handle now e) := by
  simp [next, h]

@[simp] theorem after_nil (c : Course) : c.after [] = c := rfl

@[simp] theorem after_append (c : Course) (es fs : List (Nat × Event)) :
    c.after (es ++ fs) = (c.after es).after fs :=
  List.foldl_append

/-- What holds of a session, and is kept by every event of some sort that can happen, holds all along
while only such events happen. -/
theorem after_induction {P : Course → Prop} {Q : Event → Prop} {c : Course} (hc : P c)
    (step : ∀ (c : Course) (now : Nat) (e : Event), P c → c.session.admits e → Q e →
      P { session := c.session.handle now e,
          notes := c.notes ++ c.session.noted e ++ c.session.shown (c.session.handle now e) })
    (es : List (Nat × Event)) (hes : ∀ o ∈ es, Q o.2) : P (c.after es) := by
  induction es generalizing c with
  | nil => exact hc
  | cons o es ih =>
    have hn : P (c.next o.1 o.2) := by
      unfold next
      split
      · exact step c o.1 o.2 hc (by assumption) (hes o List.mem_cons_self)
      · exact hc
    exact ih hn fun o' ho' => hes o' (List.mem_cons_of_mem _ ho')

end Course
end EditionGateway
