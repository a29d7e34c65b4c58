import EditionGateway.Proofs.Json.Records
import EditionGateway.Session.ClientData

/-!
Which payloads are taken as client data: `parse_succeeds_iff`. Besides objects there are arrays among
them, with a value for each field, and no object is taken that has both names of one field, see
`array_taken`.
-/

namespace EditionGateway.ClientData

/-- What a field holds: a text, or one of the integers that words with `size` values stand for. -/
inductive Kind
  | text
  | integer (size : Nat)

/-- A value of a kind. An integer is written without a fraction or an exponent, and zero without a
sign. -/
inductive Kind.Fits : Kind → Json → Prop
  | text (s : String) : Fits .text (.text (some s))
  | integer {size : Nat} (d : Decimal) (i : Int) (value : d.toInt? = some i)
    (lower : -((size / 2 : Nat) : Int) ≤ i) (upper : i < (size / 2 : Nat)) :
    Fits (.integer size) (.number (.decimal d))

structure Field where
  names : List String
  kind : Kind

def fields : List Field :=
  [⟨["LanguageCode"], .text⟩, ⟨["DeviceOS"], .integer UInt64.size⟩,
    ⟨["CurrentInputMode"], .integer UInt64.size⟩,
    ⟨["ViewDistance", "RenderDistance"], .integer UInt32.size⟩, ⟨["DeviceModel"], .text⟩,
    ⟨["GameVersion"], .text⟩]

/-- A field may hold `null` as well. -/
def Field.Allows (f : Field) (v : Json) : Prop := v = .null ∨ f.kind.Fits v

/-- The values that are taken as client data. -/
inductive Accepted : Json → Prop
  | object (ms : List (String × Json))
    (single : ∀ f ∈ fields, ms.Pairwise fun a b => ¬(a.1 ∈ f.names ∧ b.1 ∈ f.names))
    (allowed : ∀ f ∈ fields, ∀ m ∈ ms, m.1 ∈ f.names → f.Allows m.2) : Accepted (.obj ms)
  | array (items : List Json) (length : items.length = fields.length)
    (allowed : ∀ p ∈ fields.zip items, p.1.Allows p.2) : Accepted (.array items)

theorem text?_isSome_iff (v : Json) : v.text?.isSome ↔ Kind.text.Fits v := by
  constructor
  · intro h
    cases v with
    | text s =>
      cases s with
      | none => cases h
      | some s => exact .text s
    | _ => cases h
  · intro h
    cases h with
    | text s => rfl

theorem intOfWord?_isSome_iff (size : Nat) (v : Json) :
    (v.intOfWord? size).isSome ↔ (Kind.integer size).Fits v := by
  unfold Json.intOfWord?
  constructor
  · intro h
    split at h
    · next i hi =>
      split at h
      · next hrange =>
        cases v with
        | number n =>
          cases n with
          | decimal d => exact .integer d i hi hrange.1 hrange.2
          | _ => cases hi
        | _ => cases hi
      · cases h
    · cases h
  · intro h
    cases h with
    | integer d i value lower upper =>
      have hint : (Json.number (.decimal d)).int? = some i := value
      simp only [hint, if_pos (And.intro lower upper), Option.isSome_some]

/-- What a field may get from a record. -/
def Field.Takes (f : Field) (v : Option Json) : Prop := ∀ j, v = some j → f.Allows j

namespace Field.Takes

variable {f : Field}

theorem of_read {α : Type} {read : Json → Option α} (h : ∀ v, (read v).isSome ↔ f.kind.Fits v)
    (v : Option Json) : (Json.optional? read v).isSome ↔ f.Takes v := by
  rw [Json.optional?_isSome, Field.Takes]
  simp only [h, Field.Allows]

theorem text (hf : f.kind = .text) (v : Option Json) :
    (Json.optional? Json.text? v).isSome ↔ f.Takes v := by
  apply of_read
  intro v
  rw [hf, text?_isSome_iff]

theorem integer {size : Nat} (hf : f.kind = .integer size) (v : Option Json) :
    (Json.optional? (Json.intOfWord? size) v).isSome ↔ f.Takes v := by
  apply of_read
  intro v
  rw [hf, intOfWord?_isSome_iff]

theorem some_iff (v : Json) : f.Takes (some v) ↔ f.Allows v := by simp [Field.Takes]

theorem member?_iff {ms : List (String × Json)} (h : Json.isSingle ms f.names = true) :
    f.Takes (Json.member? ms f.names) ↔ ∀ m ∈ ms, m.1 ∈ f.names → f.Allows m.2 := by
  simp only [Field.Takes, Json.member?_eq_some_iff h]
  constructor
  · intro htakes m hm hname
    exact htakes m.2 ⟨m.1, hname, hm⟩
  · intro hallows v ⟨key, hname, hm⟩
    exact hallows (key, v) hm hname

end Field.Takes

theorem any_const {α : Type} (x : Option α) (b : Bool) : (x.any fun _ => b) = (x.isSome && b) := by
  cases x <;> rfl

/-- The values of a record are client data if each field takes its own. -/
theorem ofJson_isSome_iff (j : Json) :
    (ofJson j).isSome ↔ ∃ d vs, j.fieldValues? fieldNames false Json.maxDepth = some (d, vs) ∧
      vs.length = fields.length ∧ ∀ p ∈ fields.zip vs, p.1.Takes p.2 := by
  unfold ofJson
  cases hr : j.fieldValues? fieldNames false Json.maxDepth with
  | none => simp
  | some r =>
    obtain ⟨d, vs⟩ := r
    simp only [Option.bind_eq_bind, Option.bind_some, Option.some_inj, Prod.mk.injEq, and_assoc,
      exists_and_left, exists_eq_left']
    split
    · next language os input view model version =>
      simp only [Option.isSome_bind, Option.pure_def, Option.isSome_some, any_const, Bool.and_true,
        Bool.and_eq_true]
      simp only [fields, List.zip_cons_cons, List.zip_nil_right, List.forall_mem_cons,
        List.length_cons, List.length_nil, true_and]
      exact and_congr (Field.Takes.text rfl language) <|
        and_congr (Field.Takes.integer rfl os) <| and_congr (Field.Takes.integer rfl input) <|
        and_congr (Field.Takes.integer rfl view) <| and_congr (Field.Takes.text rfl model) <|
        (Field.Takes.text rfl version).trans (and_iff_left nofun).symm
    · next hne =>
      -- There are as many values as fields, so this does not occur.
      refine ⟨nofun, fun h => ?_⟩
      match vs, h.1 with
      | [_, _, _, _, _, _], _ => exact (hne _ _ _ _ _ _ rfl).elim

/-- The fields are known by the names that are looked at. -/
theorem names_fields : fields.map (·.names) = fieldNames := rfl

theorem forall_mem_zip_map {α β : Type} (l : List α) (g : α → β) (p : α × β → Prop) :
    (∀ x ∈ l.zip (l.map g), p x) ↔ ∀ a ∈ l, p (a, g a) := by
  have hzip : (l.map fun a => a).zip (l.map g) = l.map fun a => (a, g a) := List.zip_map'
  rw [List.map_id'] at hzip
  rw [hzip, List.forall_mem_map]

theorem takes_members_iff {ms : List (String × Json)}
    (h : ∀ names ∈ fieldNames, Json.isSingle ms names = true) :
    (∀ p ∈ fields.zip (fieldNames.map (Json.member? ms)), p.1.Takes p.2) ↔
      ∀ f ∈ fields, ∀ m ∈ ms, m.1 ∈ f.names → f.Allows m.2 := by
  rw [← names_fields, List.map_map, forall_mem_zip_map]
  apply forall₂_congr
  intro f hf
  apply Field.Takes.member?_iff
  exact h f.names (List.mem_map.mpr ⟨f, hf, rfl⟩)

theorem takes_items_iff (items : List Json) :
    (∀ p ∈ fields.zip (items.map some), p.1.Takes p.2) ↔
      ∀ p ∈ fields.zip items, p.1.Allows p.2 := by
  rw [List.zip_map_right, List.forall_mem_map]
  simp only [Prod.map_fst, Prod.map_snd, id_eq, Field.Takes.some_iff]

/-- An object or an array is accepted for the values that it gives the fields. -/
theorem accepted_iff (j : Json) :
    Accepted j ↔ ∃ d vs, j.fieldValues? fieldNames false Json.maxDepth = some (d, vs) ∧
      vs.length = fields.length ∧ ∀ p ∈ fields.zip vs, p.1.Takes p.2 := by
  have hvalues (d : Nat) (vs : List (Option Json)) :=
    Json.fieldValues?_eq_some_iff fieldNames 126 d j vs
  have hsingle (ms : List (String × Json)) :
      (∀ names ∈ fieldNames, Json.isSingle ms names = true) ↔
        ∀ f ∈ fields, ms.Pairwise fun a b => ¬(a.1 ∈ f.names ∧ b.1 ∈ f.names) := by
    rw [← names_fields, List.forall_mem_map]
    simp only [Json.isSingle_iff]
  constructor
  · intro h
    cases h with
    | object ms single allowed =>
      have hms := (hsingle ms).mpr single
      refine ⟨126, _, (hvalues _ _).mpr ⟨rfl, .inl ⟨ms, rfl, hms, rfl⟩⟩, rfl, ?_⟩
      exact (takes_members_iff hms).mpr allowed
    | array items length allowed =>
      refine ⟨126, _, (hvalues _ _).mpr ⟨rfl, .inr ⟨items, rfl, length, rfl⟩⟩, ?_, ?_⟩
      · rw [List.length_map, length]
      · exact (takes_items_iff items).mpr allowed
  · intro ⟨d, vs, hvs, _, htakes⟩
    rcases ((hvalues d vs).mp hvs).2 with ⟨ms, rfl, hms, rfl⟩ | ⟨items, rfl, hlen, rfl⟩
    · exact .object ms ((hsingle ms).mp hms) ((takes_members_iff hms).mp htakes)
    · exact .array items hlen ((takes_items_iff items).mp htakes)

/-- Client data is read from those payloads that spell a value which is accepted. All others are
malformed. -/
theorem parse_succeeds_iff (payload : String) :
    ((∃ d, parse payload = .ok d) ↔
      ∃ j, Json.parse (Bytes.ofText payload) = some j ∧ Accepted j) ∧
    ∀ e, parse payload = .error e → e = .malformedClientData "not the expected object" := by
  have hread : (∃ j, Json.parse (Bytes.ofText payload) = some j ∧ Accepted j) ↔
      ((Json.parse (Bytes.ofText payload)).bind ofJson).isSome := by
    rw [Option.isSome_bind, Option.any_eq_true]
    simp only [accepted_iff, ofJson_isSome_iff]
  rw [hread, parse]
  cases (Json.parse (Bytes.ofText payload)).bind ofJson with
  | none => simp
  | some d => simp

theorem parse_succeeds_of_object :
    (∃ d, parse "\x7b\"DeviceOS\":7,\"Skin\":[],\"RenderDistance\":8\x7d" = .ok d) ∧
      parse "[1,2,3]" = .error (.malformedClientData "not the expected object") := by
  constructor
  · apply (parse_succeeds_iff _).1.mpr
    refine ⟨.obj [("DeviceOS", .ofNat 7), ("Skin", .array []), ("RenderDistance", .ofNat 8)], rfl,
      .object _ (by decide) ?_⟩
    have hos : (Kind.integer UInt64.size).Fits (.ofNat 7) := .integer _ 7 rfl (by decide) (by decide)
    have hdistance : (Kind.integer UInt32.size).Fits (.ofNat 8) :=
      .integer _ 8 rfl (by decide) (by decide)
    simp [fields, Field.Allows, hos, hdistance]
  · cases hp : parse "[1,2,3]" with
    | error e => rw [(parse_succeeds_iff "[1,2,3]").2 e hp]
    | ok d => cases hp

/-- An array of six values is taken. An object with both names of one field is not, although each has a
value that the field allows. -/
theorem array_taken :
    parse "[null,null,null,null,null,null]" = .ok {} ∧
      Json.parse (Bytes.ofText "\x7b\"ViewDistance\":8,\"RenderDistance\":8\x7d") =
        some (.obj [("ViewDistance", .ofNat 8), ("RenderDistance", .ofNat 8)]) ∧
      parse "\x7b\"ViewDistance\":8,\"RenderDistance\":8\x7d" =
        .error (.malformedClientData "not the expected object") :=
  ⟨rfl, rfl, rfl⟩

end EditionGateway.ClientData
