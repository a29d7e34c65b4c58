import EditionGateway.Proofs.Session.Agenda

/-!
The notes about a session fall into those made before it begins to end and those of its teardown.
-/

namespace EditionGateway

namespace Lifecycle

theorem moveTo_closing {l : Lifecycle} (h : l < .closing) : l.moveTo .closing = .closing := by
  simp [moveTo, canBecome, h]

theorem lt_trans {a b c : Lifecycle} (h : a < b) (k : b < c) : a < c := Nat.lt_trans h k

theorem ne_of_lt {a b : Lifecycle} (h : a < b) : a ≠ b := by
  rintro rfl
  exact Nat.lt_irrefl _ h

theorem pairwise_snoc {ls : List Lifecycle} {l k : Lifecycle} (h : ls.Pairwise (· < ·))
    (hl : ls.getLast? = some l) (hk : l < k) : (ls ++ [k]).Pairwise (· < ·) := by
  obtain ⟨pre, rfl⟩ := List.getLast?_eq_some_iff.mp hl
  refine List.pairwise_append.mpr ⟨h, by simp, ?_⟩
  intro a ha b hb
  obtain rfl := List.mem_singleton.mp hb
  rcases List.mem_append.mp ha with ha | ha
  · exact lt_trans ((List.pairwise_append.mp h).2.2 a ha l (by simp)) hk
  · obtain rfl := List.mem_singleton.mp ha
    exact hk

end Lifecycle

/-- An act of a session that has not begun to end. -/
def Act.IsOpening : Act → Prop
  | .tell p => p.kind ≠ .disconnect
  | .stopListening | .closeClient | .closeBackend | .deregister => False
  | .enter l => l < .closing
  | .compress _ | .ask _ | .connect _ | .register _ => True

/-- The packet that is to be sent to the client. -/
def Act.told? : Act → Option Client.Packet
  | .tell p => some p
  | _ => none

theorem Act.IsPlain.isOpening {a : Act} (h : a.IsPlain) : a.IsOpening := by
  cases a <;> first | exact h.elim | exact h

def Event.opensLink : Event → Bool
  | .connected (.ok _) => true
  | _ => false

namespace Notes

theorem map_tells (n : Notes) : (tells n).map (·.1) = (acts n).filterMap Act.told? := by
  induction n with
  | nil => rfl
  | cons x n ih =>
    cases x with
    | heard e => exact ih
    | became l => exact ih
    | did lane a r => cases a <;> first | exact ih | exact congrArg (_ :: ·) ih

/-- All states that have been shown. -/
def history (n : Notes) : List Lifecycle := .connecting :: states n

theorem history_became (n : Notes) (l : Lifecycle) :
    history (n ++ [.became l]) = history n ++ [l] := by
  simp [history]

/-- What the notes about a session are like that has not begun to end. -/
structure Early (n : Notes) (linked registered : Bool) : Prop where
  ascending : (history n).Pairwise (· < ·)
  opened : ∀ l ∈ history n, l < .closing
  linked_iff : linked = true ↔ Linked n
  registered_iff : registered = true ↔ Registered n
  opening : ∀ a ∈ acts n, a.IsOpening
  once : count n .register ≤ 1
  settled : registered = true → (history n).getLast? = some .established

theorem early_nil : Early [] false false where
  ascending := by simp [history]
  opened := by
    intro l hl
    simp only [history, states, List.filterMap_nil, List.mem_singleton] at hl
    subst hl
    decide
  linked_iff := by simp [Linked]
  registered_iff := by simp [Registered]
  opening := by simp
  once := by simp [count]
  settled := nofun

namespace Early

variable {n : Notes} {linked registered : Bool}

theorem heard (h : Early n linked registered) (e : Event) :
    Early (n ++ [.heard e]) (linked || e.opensLink) registered where
  ascending := by simpa [history] using h.ascending
  opened := by simpa [history] using h.opened
  linked_iff := by
    have he : e.opensLink = true ↔ Note.heard (.connected (.ok ())) = .heard e := by
      constructor
      · intro ho
        unfold Event.opensLink at ho
        split at ho
        · rfl
        · cases ho
      · intro ho
        obtain rfl := Note.heard.inj ho
        rfl
    simp only [Bool.or_eq_true, h.linked_iff, he, Linked, List.mem_append, List.mem_singleton]
  registered_iff := by simpa [Registered] using h.registered_iff
  opening := by simpa using h.opening
  once := by simpa [count] using h.once
  settled := by simpa [history] using h.settled

theorem did (h : Early n linked registered) {a : Act} (ha : a.IsOpening)
    (hr : a.kind = .register → count n .register = 0 ∧ (history n).getLast? = some .established)
    (lane : Lane) (r : Except GatewayError Unit) :
    Early (n ++ [.did lane a r]) linked
      (registered || (decide (a.kind = .register) && r.toBool)) where
  ascending := by simpa [history] using h.ascending
  opened := by simpa [history] using h.opened
  linked_iff := by simpa [Linked] using h.linked_iff
  registered_iff := by
    have hb : (decide (a.kind = .register) && r.toBool) = true ↔
        ∃ l u, Note.did l (.register u) (.ok ()) = .did lane a r := by
      cases a <;> cases r <;> simp [Act.kind, Except.toBool]
    rw [Bool.or_eq_true, h.registered_iff, hb]
    simp only [Registered, List.mem_append, List.mem_singleton, exists_or]
  opening := by
    simp only [acts_append, List.mem_append]
    rintro b (hb | hb)
    · exact h.opening b hb
    · obtain rfl : b = a := by simpa using hb
      exact ha
  once := by
    have hc : count [.did lane a r] .register ≤ 1 := List.countP_le_length
    rw [count_append]
    by_cases hk : a.kind = .register
    · have h0 := (hr hk).1
      omega
    · have h0 : count [.did lane a r] .register = 0 := by simp [count, hk]
      have h1 := h.once
      omega
  settled := by
    intro hs
    have hh : history (n ++ [.did lane a r]) = history n := by simp [history]
    rw [hh]
    rcases Bool.or_eq_true_iff.mp hs with hs | hs
    · exact h.settled hs
    · exact (hr (of_decide_eq_true (Bool.and_eq_true_iff.mp hs).1)).2

theorem became (h : Early n linked registered) {l k : Lifecycle}
    (hl : (history n).getLast? = some l) (hk : l < k) (hc : k < .closing) :
    Early (n ++ [.became k]) linked registered where
  ascending := by
    rw [history_became]
    exact Lifecycle.pairwise_snoc h.ascending hl hk
  opened := by
    rw [history_became]
    intro a ha
    rcases List.mem_append.mp ha with ha | ha
    · exact h.opened a ha
    · obtain rfl := List.mem_singleton.mp ha
      exact hc
  linked_iff := by simpa [Linked] using h.linked_iff
  registered_iff := by simpa [Registered] using h.registered_iff
  opening := by simpa using h.opening
  once := by simpa [count] using h.once
  settled := by
    intro hs
    obtain rfl := Option.some.inj ((h.settled hs).symm.trans hl)
    -- There is no state between `established` and `closing`.
    exact absurd hc (by cases k <;> first | decide | exact absurd hk (by decide))

/-- Nothing of a teardown has been done. -/
theorem count_eq_zero (h : Early n linked registered) {k : Act.Kind}
    (hk : k = .closeClient ∨ k = .closeBackend ∨ k = .deregister) : count n k = 0 := by
  refine List.countP_eq_zero.mpr fun a ha hak => ?_
  have ho := h.opening a ha
  obtain rfl : a.kind = k := of_decide_eq_true hak
  cases a <;> first | exact ho | simp [Act.kind] at hk

theorem tells_stay (h : Early n linked registered) : ∀ t ∈ tells n, t.1.kind ≠ .disconnect := by
  intro t ht
  have hm : t.1 ∈ (acts n).filterMap Act.told? := by
    rw [← map_tells]
    exact List.mem_map_of_mem ht
  obtain ⟨a, ha, hat⟩ := List.mem_filterMap.mp hm
  have ho := h.opening a ha
  cases a with
  | tell p =>
    obtain rfl := Option.some.inj hat
    exact ho
  | _ => cases hat

end Early

/-- What the notes about a teardown are like when some of its acts are still to be done. -/
structure Late (plan todo : List Act) (m : Notes) : Prop where
  unheard : ∀ e, .heard e ∉ m
  planned : acts m ++ todo = plan
  entered : states m = (acts m).filterMap Act.entered?
  last : todo = [] → ∀ l, plan.getLast? = some (.enter l) → m.getLast? = some (.became l)

theorem late_nil (plan : List Act) : Late plan plan [] where
  unheard := by simp
  planned := rfl
  entered := rfl
  last := by
    rintro rfl l hl
    cases hl

/-- The next act is done, or has failed, and the state that it enters is shown. -/
theorem Late.next {plan todo : List Act} {m : Notes} {a : Act} (h : Late plan (a :: todo) m)
    (lane : Lane) (r : Except GatewayError Unit) :
    Late plan todo (m ++ [.did lane a r] ++ (a.entered?.map Note.became).toList) := by
  have hplan : acts (m ++ [.did lane a r]) ++ todo = plan := by
    rw [← h.planned, acts_append, List.append_assoc]
    rfl
  cases ha : a.entered? with
  | none =>
    refine ⟨?_, ?_, ?_, ?_⟩
    · simpa using h.unheard
    · simpa using hplan
    · simp [h.entered, ha]
    · rintro rfl l hl
      rw [← hplan, List.append_nil, acts_append] at hl
      have hal : a = .enter l := by simpa using hl
      simp [hal, Act.entered?] at ha
  | some l =>
    refine ⟨?_, ?_, ?_, ?_⟩
    · simpa using h.unheard
    · rw [acts_append]
      simpa using hplan
    · simp [h.entered, ha]
    · rintro rfl k hk
      rw [← hplan, List.append_nil, acts_append] at hk
      have hak : a = .enter k := by simpa using hk
      rw [hak] at ha
      simp [Option.some.inj ha]

end Notes
end EditionGateway
