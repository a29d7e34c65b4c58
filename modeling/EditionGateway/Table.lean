/-!
Finite maps as lists of pairs with distinct keys, in the order of insertion.
-/

namespace EditionGateway

abbrev Table (κ ν : Type) := List (κ × ν)

namespace Table

variable {κ ν : Type} [DecidableEq κ]

def get? (t : Table κ ν) (k : κ) : Option ν := (t.find? fun e => e.1 = k).map (·.2)

def erase (t : Table κ ν) (k : κ) : Table κ ν := t.filter fun e => e.1 ≠ k

/-- Puts a value under a key, in place of the one that was there. -/
def insert (t : Table κ ν) (k : κ) (v : ν) : Table κ ν := t.erase k ++ [(k, v)]

/-- Changes the value under a key, if there is one. -/
def modify (t : Table κ ν) (k : κ) (f : ν → ν) : Table κ ν :=
  t.map fun e => if e.1 = k then (e.1, f e.2) else e

def contains (t : Table κ ν) (k : κ) : Bool := (t.get? k).isSome

def keys (t : Table κ ν) : List κ := t.map (·.1)

def values (t : Table κ ν) : List ν := t.map (·.2)

@[simp] theorem get?_nil (k : κ) : get? ([] : Table κ ν) k = none := rfl

theorem get?_cons (e : κ × ν) (t : Table κ ν) (k : κ) :
    get? (e :: t) k = if e.1 = k then some e.2 else get? t k := by
  by_cases h : e.1 = k <;> simp [get?, h]

theorem get?_append (s t : Table κ ν) (k : κ) : get? (s ++ t) k = (get? s k).or (get? t k) := by
  induction s with
  | nil => simp
  | cons e s ih =>
    rw [List.cons_append, get?_cons, get?_cons, ih]
    split <;> simp

theorem get?_erase (t : Table κ ν) (k j : κ) :
    get? (erase t k) j = if j = k then none else get? t j := by
  induction t with
  | nil => simp [erase]
  | cons e t ih =>
    simp only [erase] at ih
    rw [get?_cons]
    by_cases h : e.1 = k
    · rw [erase, List.filter_cons_of_neg (by simp [h]), ih]
      grind
    · rw [erase, List.filter_cons_of_pos (by simp [h]), get?_cons, ih]
      grind

theorem get?_insert (t : Table κ ν) (k j : κ) (v : ν) :
    get? (insert t k v) j = if j = k then some v else get? t j := by
  rw [insert, get?_append, get?_erase, get?_cons]
  by_cases h : j = k
  · simp [h]
  · simp [h, Ne.symm h]

theorem get?_modify (t : Table κ ν) (k j : κ) (f : ν → ν) :
    get? (modify t k f) j = if j = k then (get? t k).map f else get? t j := by
  induction t with
  | nil => simp [modify]
  | cons e t ih =>
    simp only [modify] at ih
    rw [modify, List.map_cons, get?_cons, get?_cons, get?_cons, ih]
    grind

theorem mem_of_get? {t : Table κ ν} {k : κ} {v : ν} (h : t.get? k = some v) : (k, v) ∈ t := by
  obtain ⟨e, he, rfl⟩ := Option.map_eq_some_iff.mp h
  have hk : e.1 = k := by simpa using List.find?_some he
  rw [← hk]
  exact List.mem_of_find?_eq_some he

theorem contains_iff (t : Table κ ν) (k : κ) : t.contains k = true ↔ k ∈ t.keys := by
  simp [contains, get?, keys]

theorem mem_keys_iff (t : Table κ ν) (k : κ) : k ∈ t.keys ↔ ∃ v, t.get? k = some v := by
  rw [← contains_iff, contains, Option.isSome_iff_exists]

theorem erase_of_absent {t : Table κ ν} {k : κ} (h : t.get? k = none) : t.erase k = t := by
  refine List.filter_eq_self.mpr fun e he => ?_
  have hkeys : k ∉ t.keys := by
    rw [← contains_iff, contains, h]
    exact Bool.false_ne_true
  simpa using fun heq : e.1 = k => hkeys (List.mem_map.mpr ⟨e, he, heq⟩)

theorem erase_concat (t : Table κ ν) (k : κ) (v : ν) : erase (t ++ [(k, v)]) k = erase t k := by
  simp [erase]

theorem contains_erase (t : Table κ ν) (k j : κ) :
    (erase t k).contains j = (decide (j ≠ k) && t.contains j) := by
  rw [contains, get?_erase, contains]
  split <;> simp [*]

theorem contains_insert (t : Table κ ν) (k j : κ) (v : ν) :
    (insert t k v).contains j = (decide (j = k) || t.contains j) := by
  rw [contains, get?_insert, contains]
  split <;> simp [*]

theorem keys_erase (t : Table κ ν) (k : κ) : keys (erase t k) = (keys t).filter (· ≠ k) := by
  simp [keys, erase, List.filter_map, Function.comp_def]

theorem keys_insert (t : Table κ ν) (k : κ) (v : ν) :
    keys (insert t k v) = (keys t).filter (· ≠ k) ++ [k] := by
  rw [insert, ← keys_erase]
  simp [keys]

theorem keys_modify (t : Table κ ν) (k : κ) (f : ν → ν) : keys (modify t k f) = keys t := by
  simp only [keys, modify, List.map_map]
  apply List.map_congr_left
  intro e _
  simp only [Function.comp_apply]
  split <;> rfl

theorem nodup_keys_erase {t : Table κ ν} (h : (keys t).Nodup) (k : κ) : (keys (erase t k)).Nodup := by
  rw [keys_erase]
  exact h.filter _

theorem nodup_keys_insert {t : Table κ ν} (h : (keys t).Nodup) (k : κ) (v : ν) :
    (keys (insert t k v)).Nodup := by
  rw [keys_insert]
  refine List.nodup_append.mpr ⟨h.filter _, by simp, ?_⟩
  rintro a ha b hb rfl
  simp only [List.mem_singleton] at hb
  simp [hb] at ha

end Table
end EditionGateway
