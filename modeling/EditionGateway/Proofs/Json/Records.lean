import EditionGateway.Json.Record

/-!
Which values a record gives its fields: those of the members that have a name of the field, wherever
they stand in an object, or those of an array in order.
-/

namespace EditionGateway.Json

theorem length_le_one_iff {α : Type} (l : List α) :
    l.length ≤ 1 ↔ l.Pairwise fun _ _ => False := by
  match l with
  | [] => simp
  | [_] => simp
  | a :: b :: l =>
    refine ⟨fun h => ?_, fun h => ?_⟩
    · rw [List.length_cons, List.length_cons] at h
      omega
    · exact absurd List.mem_cons_self ((List.pairwise_cons.mp h).1 b)

theorem isSingle_iff (ms : List (String × Json)) (names : List String) :
    isSingle ms names = true ↔ ms.Pairwise fun a b => ¬(a.1 ∈ names ∧ b.1 ∈ names) := by
  rw [isSingle, decide_eq_true_eq, length_le_one_iff, List.pairwise_filter]
  simp only [List.contains_iff_mem, not_and, imp_false]

/-- The value of a field does not depend on where its member stands. -/
theorem member?_eq_some_iff {ms : List (String × Json)} {names : List String}
    (h : isSingle ms names = true) (v : Json) :
    member? ms names = some v ↔ ∃ key, key ∈ names ∧ (key, v) ∈ ms := by
  rw [isSingle_iff] at h
  rw [member?, Option.map_eq_some_iff]
  constructor
  · intro ⟨m, hfind, hv⟩
    have hname := List.find?_some hfind
    exact ⟨m.1, List.contains_iff_mem.mp hname, hv ▸ List.mem_of_find?_eq_some hfind⟩
  · intro ⟨key, hname, hmem⟩
    refine ⟨(key, v), ?_, rfl⟩
    induction ms with
    | nil => cases hmem
    | cons m ms ih =>
      rw [List.pairwise_cons] at h
      rcases List.mem_cons.mp hmem with heq | htail
      · rw [← heq]
        exact List.find?_cons_of_pos (List.contains_iff_mem.mpr hname)
      · -- The member in front is of another field.
        have hm : names.contains m.1 = false := Bool.eq_false_iff.mpr fun hc =>
          h.1 _ htail ⟨List.contains_iff_mem.mp hc, hname⟩
        rw [List.find?_cons, hm]
        exact ih h.2 htail

/-- The members of an object whose keys all spell texts. -/
theorem members?_eq_some_iff (j : Json) (ms : List (String × Json)) :
    j.members? = some ms ↔ j = obj ms := by
  cases j with
  | object ns =>
    rw [members?, obj, object.injEq]
    induction ns generalizing ms with
    | nil => cases ms <;> simp
    | cons n ns ih =>
      obtain ⟨key, v⟩ := n
      cases key with
      | none => cases ms <;> simp
      | some key =>
        rw [List.mapM_cons]
        simp only [Option.map_some, Option.bind_eq_bind, Option.bind_some, Option.bind_eq_some_iff,
          ih, Option.pure_def, Option.some_inj]
        constructor
        · intro ⟨rest, hrest, hms⟩
          rw [← hms, hrest]
          rfl
        · intro h
          cases ms with
          | nil => cases h
          | cons m rest =>
            cases h
            exact ⟨rest, rfl, rfl⟩
  | null => simp [members?, obj]
  | bool b => simp [members?, obj]
  | number n => simp [members?, obj]
  | text s => simp [members?, obj]
  | array vs => simp [members?, obj]

/-- The values of a record are those of an object whose keys all spell texts, with at most one member
for each field, or those of an array with a value for each. -/
theorem fieldValues?_eq_some_iff (fields : List (List String)) (d e : Nat) (j : Json)
    (vs : List (Option Json)) :
    j.fieldValues? fields false (d + 1) = some (e, vs) ↔ d = e ∧
      ((∃ ms, j = obj ms ∧ (∀ names ∈ fields, isSingle ms names = true) ∧
          fields.map (member? ms) = vs) ∨
        ∃ items, j = .array items ∧ items.length = fields.length ∧ items.map some = vs) := by
  cases j with
  | array items =>
    simp only [fieldValues?, Bool.false_eq_true, false_and, or_false, obj, reduceCtorEq, exists_false,
      false_or]
    constructor
    · intro h
      split at h
      · next hlen =>
        rw [hlen, Nat.sub_self, List.replicate_zero, List.append_nil] at h
        cases h
        exact ⟨rfl, items, rfl, hlen, rfl⟩
      · cases h
    · intro ⟨hd, ns, hns, hlen, hvs⟩
      cases hns
      rw [if_pos hlen, hlen, Nat.sub_self, List.replicate_zero, List.append_nil, hd, hvs]
  | object ns =>
    simp only [reduceCtorEq, false_and, exists_false, or_false, ← members?_eq_some_iff, fieldValues?]
    cases hms : (object ns).members? with
    | none => simp
    | some ms =>
      simp only [Option.some_inj, exists_eq_left', ← List.all_eq_true]
      split
      · next hall =>
        rw [Option.some_inj, Prod.mk.injEq]
        simp only [hall, true_and]
      · next hall => simp [hall]
  | null => simp [fieldValues?, obj]
  | bool b => simp [fieldValues?, obj]
  | number n => simp [fieldValues?, obj]
  | text s => simp [fieldValues?, obj]

theorem optional?_isSome {α : Type} (read : Json → Option α) (v : Option Json) :
    (optional? read v).isSome ↔ ∀ j, v = some j → j = .null ∨ (read j).isSome := by
  match v with
  | none => simp [optional?]
  | some .null => simp [optional?]
  | some (.bool _) => simp [optional?]
  | some (.number _) => simp [optional?]
  | some (.text _) => simp [optional?]
  | some (.array _) => simp [optional?]
  | some (.object _) => simp [optional?]

end EditionGateway.Json
