import EditionGateway.Json.Access
import EditionGateway.Proofs.Json.Records
import EditionGateway.Session.ClientData

/-!
Members of client data that are not looked at. Whatever they are and wherever they stand, two objects that
say the same about the fields are read alike, as long as every key spells a text. An object with a key
that spells none is refused, although nobody looks at that member: `unknown_keys_ignored`.
-/

namespace EditionGateway

namespace Json

/-- The key of a member is one of these names. -/
def isNamed (names : List String) (m : Literal × Json) : Bool := m.1.any names.contains

/-- Every key spells a text. -/
def Spelled (ms : List (Literal × Json)) : Prop := ∀ m ∈ ms, m.1.isSome = true

/-- What a member says: nothing if it holds `null`. -/
def said (v : Option Json) : Option Json := v.filter fun j => !j.isNull

theorem optional?_said {α : Type} (read : Json → Option α) (v : Option Json) :
    optional? read (said v) = optional? read v := by
  match v with
  | none => rfl
  | some .null => rfl
  | some (.bool _) => rfl
  | some (.number _) => rfl
  | some (.text _) => rfl
  | some (.array _) => rfl
  | some (.object _) => rfl

theorem exists_obj_of_spelled {ms : List (Literal × Json)} (h : Spelled ms) :
    ∃ ns, Json.object ms = obj ns := by
  induction ms with
  | nil => exact ⟨[], rfl⟩
  | cons m ms ih =>
    obtain ⟨ns, hns⟩ := ih fun m hm => h m (List.mem_cons_of_mem _ hm)
    obtain ⟨key, hkey⟩ := Option.isSome_iff_exists.mp (h m List.mem_cons_self)
    refine ⟨(key, m.2) :: ns, ?_⟩
    injection hns with hns
    rw [hns, obj, List.map_cons, ← hkey]

theorem spelled_of_obj {ms : List (Literal × Json)} {ns : List (String × Json)}
    (h : Json.object ms = obj ns) : Spelled ms := by
  injection h with h
  rw [h]
  exact List.forall_mem_map.mpr fun _ _ => rfl

end Json

namespace ClientData

open Json

/-- A member whose key is looked at and which does not hold `null`. -/
def tells (m : Literal × Json) : Bool := isNamed fieldNames.flatten m && !m.2.isNull

/-- At most one member for each field. -/
def Single (ms : List (Literal × Json)) : Prop :=
  ∀ names ∈ fieldNames, (ms.filter (isNamed names)).length ≤ 1

instance (ms : List (Literal × Json)) : Decidable (Single ms) :=
  inferInstanceAs (Decidable (∀ names ∈ fieldNames, (ms.filter (isNamed names)).length ≤ 1))

/-- Two objects that say the same about the fields. -/
structure Alike (ms ns : List (Literal × Json)) : Prop where
  left : Single ms
  right : Single ns
  told : (ms.filter tells).Perm (ns.filter tells)

theorem isSingle_of_single {ms : List (String × Json)}
    (h : Single (ms.map fun m => (some m.1, m.2))) {names : List String} (hn : names ∈ fieldNames) :
    isSingle ms names = true := by
  have hlen := h names hn
  rw [List.filter_map, List.length_map] at hlen
  exact decide_eq_true hlen

/-- What a field is told is told by a member under one of its names. -/
theorem said_member?_eq_some_iff {ms : List (String × Json)}
    (h : Single (ms.map fun m => (some m.1, m.2))) {names : List String} (hn : names ∈ fieldNames)
    (v : Json) :
    said (member? ms names) = some v ↔ ∃ key ∈ names,
      (some key, v) ∈ (ms.map fun m => ((some m.1, m.2) : Literal × Json)).filter tells := by
  rw [said, Option.filter_eq_some_iff, member?_eq_some_iff (isSingle_of_single h hn)]
  constructor
  · rintro ⟨⟨key, hkey, hmem⟩, hnull⟩
    refine ⟨key, hkey, List.mem_filter.mpr ⟨List.mem_map.mpr ⟨_, hmem, rfl⟩, ?_⟩⟩
    have hnamed : fieldNames.flatten.contains key = true :=
      List.contains_iff_mem.mpr (List.mem_flatten.mpr ⟨names, hn, hkey⟩)
    exact Bool.and_eq_true_iff.mpr ⟨hnamed, hnull⟩
  · rintro ⟨key, hkey, hmem⟩
    obtain ⟨hmem, htells⟩ := List.mem_filter.mp hmem
    obtain ⟨m, hm, heq⟩ := List.mem_map.mp hmem
    cases heq
    exact ⟨⟨m.1, hkey, hm⟩, (Bool.and_eq_true_iff.mp htells).2⟩

variable {ms ns : List (String × Json)}

/-- The fields of alike objects are told the same. -/
theorem said_member?_of_alike
    (h : Alike (ms.map fun m => (some m.1, m.2)) (ns.map fun m => (some m.1, m.2)))
    {names : List String} (hn : names ∈ fieldNames) :
    said (member? ms names) = said (member? ns names) := by
  apply Option.ext
  intro v
  rw [said_member?_eq_some_iff h.left hn, said_member?_eq_some_iff h.right hn]
  simp only [h.told.mem_iff]

theorem fieldValues?_of_single (h : Single (ms.map fun m => (some m.1, m.2))) :
    (obj ms).fieldValues? fieldNames false maxDepth = some (126, fieldNames.map (member? ms)) := by
  apply (fieldValues?_eq_some_iff fieldNames 126 126 (obj ms) _).mpr
  exact ⟨rfl, .inl ⟨ms, rfl, fun _ hn => isSingle_of_single h hn, rfl⟩⟩

theorem ofJson_of_alike
    (h : Alike (ms.map fun m => (some m.1, m.2)) (ns.map fun m => (some m.1, m.2))) :
    ofJson (obj ms) = ofJson (obj ns) := by
  have hfields : ∀ names ∈ fieldNames, ∀ {α : Type} (read : Json → Option α),
      optional? read (member? ms names) = optional? read (member? ns names) := by
    intro names hn α read
    rw [← optional?_said, said_member?_of_alike h hn, optional?_said]
  rw [ofJson, ofJson, fieldValues?_of_single h.left, fieldValues?_of_single h.right]
  simp only [fieldNames, List.forall_mem_cons] at hfields
  obtain ⟨hlanguage, hos, hinput, hview, hmodel, hversion, -⟩ := hfields
  simp only [fieldNames, List.map_cons, List.map_nil, Option.bind_eq_bind, Option.bind_some,
    hlanguage, hos, hinput, hview, hmodel, hversion]

/-- An object with a key that spells no text is no client data. -/
theorem ofJson_of_not_spelled {ms : List (Literal × Json)} (h : ¬ Spelled ms) :
    ofJson (.object ms) = none := by
  have hmembers : (Json.object ms).members? = none := by
    cases hm : (Json.object ms).members? with
    | none => rfl
    | some ns => exact absurd (spelled_of_obj ((members?_eq_some_iff _ ns).mp hm)) h
  have hvalues : (Json.object ms).fieldValues? fieldNames false maxDepth = none := by
    rw [maxDepth, fieldValues?, hmembers]
  rw [ofJson, hvalues]
  rfl

theorem parse_eq_ok_iff {payload : String} {j : Json}
    (h : Json.parse (Bytes.ofText payload) = some j) (d : ClientData) :
    parse payload = .ok d ↔ ofJson j = some d := by
  rw [parse, h, Option.bind_some]
  cases ofJson j with
  | none => exact iff_of_false nofun nofun
  | some e => simp

/-- Two objects that say the same about the fields are read alike if their keys all spell texts, or if in
both some key does not. An object with a key that spells no text is refused. -/
theorem unknown_keys_ignored {p q : String} {ms ns : List (Literal × Json)}
    (hp : Json.parse (Bytes.ofText p) = some (.object ms))
    (hq : Json.parse (Bytes.ofText q) = some (.object ns)) (h : Alike ms ns) :
    ((Spelled ms ↔ Spelled ns) → ∀ d, parse p = .ok d ↔ parse q = .ok d) ∧
      (¬ Spelled ms → ∀ d, parse p ≠ .ok d) ∧ (¬ Spelled ns → ∀ d, parse q ≠ .ok d) := by
  have hrefused {payload : String} {ms : List (Literal × Json)}
      (hparse : Json.parse (Bytes.ofText payload) = some (.object ms)) (hms : ¬ Spelled ms)
      (d : ClientData) : parse payload ≠ .ok d := by
    rw [ne_eq, parse_eq_ok_iff hparse, ofJson_of_not_spelled hms]
    exact nofun
  refine ⟨fun hboth d => ?_, hrefused hp, hrefused hq⟩
  by_cases hms : Spelled ms
  · obtain ⟨ms, hobj⟩ := exists_obj_of_spelled hms
    obtain ⟨ns, hobj'⟩ := exists_obj_of_spelled (hboth.mp hms)
    cases hobj
    cases hobj'
    rw [parse_eq_ok_iff hp, parse_eq_ok_iff hq]
    exact iff_of_eq (congrArg (· = some d) (ofJson_of_alike h))
  · exact iff_of_false (hrefused hp hms d) (hrefused hq (fun hns => hms (hboth.mpr hns)) d)

theorem unknown_keys_ignored_of_two :
    Alike [(some "Skin", .array []), (some "DeviceOS", .ofNat 7), (some "Skin", .bool true),
        (some "GameVersion", .null), (some "RenderDistance", .ofNat 8)]
      [(some "RenderDistance", .ofNat 8), (some "Cape", .object [(some "DeviceOS", .ofNat 1)]),
        (some "DeviceOS", .ofNat 7)] ∧
    ∀ d, parse "\x7b\"Skin\":[],\"DeviceOS\":7,\"Skin\":true,\"GameVersion\":null,\"RenderDistance\":8\x7d" =
        .ok d ↔
      parse "\x7b\"RenderDistance\":8,\"Cape\":\x7b\"DeviceOS\":1\x7d,\"DeviceOS\":7\x7d" = .ok d := by
  have halike : Alike [(some "Skin", .array []), (some "DeviceOS", .ofNat 7), (some "Skin", .bool true),
        (some "GameVersion", .null), (some "RenderDistance", .ofNat 8)]
      [(some "RenderDistance", .ofNat 8), (some "Cape", .object [(some "DeviceOS", .ofNat 1)]),
        (some "DeviceOS", .ofNat 7)] :=
    ⟨by decide, by decide, .swap _ _ _⟩
  refine ⟨halike, (unknown_keys_ignored rfl rfl halike).1 (iff_of_true ?_ ?_)⟩
  · simp [Spelled]
  · simp [Spelled]

/-- The key of this member is a lone surrogate, which spells no text. -/
theorem unspelled_key_refused :
    Json.parse (Bytes.ofText "\x7b\x7d") = some (.object []) ∧
      Json.parse (Bytes.ofText "\x7b\"\\ud800\":1\x7d") = some (.object [(none, .ofNat 1)]) ∧
      Alike [] [(none, .ofNat 1)] ∧ parse "\x7b\x7d" = .ok {} ∧
      parse "\x7b\"\\ud800\":1\x7d" = .error (.malformedClientData "not the expected object") :=
  ⟨rfl, rfl, ⟨by decide, by decide, .refl _⟩, rfl, rfl⟩

end ClientData
end EditionGateway
