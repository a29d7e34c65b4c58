import EditionGateway.Text.Legacy

/-!
What a line with formatting codes shows, read character by character, and that the line of a tree
shows the tree.
-/

namespace EditionGateway

namespace Color

/-- The colour that a code selects. -/
def ofCode? (k : Char) : Option Color := all.find? fun c => c.code = k

theorem ofCode?_code (c : Color) : ofCode? c.code = some c := by
  cases c <;> rfl

/-- No colour has the code of a reset or of a format. -/
theorem code_not_mem (c : Color) : c.code ∉ ['r', 'l', 'm', 'n', 'o'] := by
  cases c <;> decide

end Color

namespace TextStyle

/-- The style after a formatting code; nothing if the character is no code. -/
def select? (s : TextStyle) (k : Char) : Option TextStyle :=
  if k = 'r' then some {}
  else if k = 'l' then some { s with bold := true }
  else if k = 'm' then some { s with strikethrough := true }
  else if k = 'n' then some { s with underlined := true }
  else if k = 'o' then some { s with italic := true }
  else (Color.ofCode? k).map fun c => { color := some c }

/-- The characters that are shown of a line, each in its style; `s` is in force at the beginning. A
section sign that no code follows is shown itself. -/
def shows (s : TextStyle) : List Char → List (Char × TextStyle)
  | [] => []
  | [c] => [(c, s)]
  | c :: k :: r =>
    match if c = sectionSign then s.select? k else none with
    | some t => shows t r
    | none => (c, s) :: shows s (k :: r)

/-- The style of a piece. `path` is the piece, then those around it from the inside out. -/
def along (path : List TextComponent) : TextStyle where
  color := path.findSome? (·.color)
  bold := path.any (·.bold)
  italic := path.any (·.italic)
  underlined := path.any (·.underlined)
  strikethrough := path.any (·.strikethrough)

theorem along_cons (c : TextComponent) (around : List TextComponent) :
    along (c :: around) = (along around).inherit c := by
  cases h : c.color <;> simp [along, inherit, h]

section Shows

variable {s t : TextStyle} {k : Char}

theorem shows_code (h : s.select? k = some t) (r : List Char) :
    shows s (sectionSign :: k :: r) = shows t r := by
  rw [shows, if_pos rfl, h]

theorem shows_cons (s : TextStyle) {c : Char} (h : c ≠ sectionSign) (r : List Char) :
    shows s (c :: r) = (c, s) :: shows s r := by
  cases r with
  | nil => rfl
  | cons k r => rw [shows, if_neg h]

/-- A text without section signs is shown as it is. -/
theorem shows_text (s : TextStyle) {text : List Char} (h : sectionSign ∉ text) (r : List Char) :
    shows s (text ++ r) = text.map (·, s) ++ shows s r := by
  induction text with
  | nil => rfl
  | cons c text ih =>
    have hc : c ≠ sectionSign := fun hc => h (hc ▸ List.mem_cons_self)
    have htext : sectionSign ∉ text := fun hm => h (List.mem_cons_of_mem c hm)
    rw [List.cons_append, shows_cons s hc, ih htext]
    rfl

theorem select?_color (s : TextStyle) (c : Color) : s.select? c.code = some { color := some c } := by
  have h := c.code_not_mem
  simp only [List.mem_cons, List.not_mem_nil, or_false, not_or] at h
  simp [select?, h, Color.ofCode?_code]

/-- The code of a format is read if the format is on. -/
theorem shows_switch (s : TextStyle) (on : Bool) (h : s.select? k = some t) (r : List Char) :
    shows s (switch on k ++ r) = shows (if on then t else s) r := by
  cases on with
  | false => rfl
  | true => exact shows_code h r

end Shows

/-- The codes of a style select it. -/
theorem shows_codes (t : TextStyle) (r : List Char) : shows {} (t.codes ++ r) = shows t r := by
  obtain ⟨color, bold, italic, underlined, strikethrough⟩ := t
  have hformats (s : TextStyle) : shows s (switch bold 'l' ++ (switch strikethrough 'm' ++
      (switch underlined 'n' ++ (switch italic 'o' ++ r)))) = shows ⟨s.color, s.bold || bold,
        s.italic || italic, s.underlined || underlined, s.strikethrough || strikethrough⟩ r := by
    rw [shows_switch s bold rfl, shows_switch _ strikethrough rfl, shows_switch _ underlined rfl,
      shows_switch _ italic rfl]
    cases bold <;> cases strikethrough <;> cases underlined <;> cases italic <;> simp
  simp only [codes, List.append_assoc]
  cases color with
  | none => exact hformats {}
  | some c => exact (shows_code (select?_color {} c) _).trans (hformats _)

/-- A change of style is read as one. -/
theorem shows_change (s t : TextStyle) (r : List Char) : shows s (s.change t ++ r) = shows t r := by
  unfold change
  split
  · next h => rw [h]; rfl
  · rw [List.append_assoc]
    split
    · next h => rw [h]; exact shows_codes t r
    · exact (shows_code rfl _).trans (shows_codes t r)

end TextStyle

namespace TextComponent

open TextStyle

mutual

/-- The characters of a piece and of those in it, each in its style. `around` are the pieces around
it from the inside out. -/
def glyphs (around : List TextComponent) : TextComponent → List (Char × TextStyle)
  | c@⟨text, _, _, _, _, _, extra⟩ =>
    text.toList.map (·, along (c :: around)) ++ glyphsAll (c :: around) extra

def glyphsAll (around : List TextComponent) : List TextComponent → List (Char × TextStyle)
  | [] => []
  | c :: cs => glyphs around c ++ glyphsAll around cs

end

mutual

/-- A piece and all in it. -/
def pieces : TextComponent → List TextComponent
  | c@⟨_, _, _, _, _, _, extra⟩ => c :: piecesAll extra

def piecesAll : List TextComponent → List TextComponent
  | [] => []
  | c :: cs => pieces c ++ piecesAll cs

end

/-- A piece sets no colour and no format. -/
def isUnstyled (c : TextComponent) : Bool := along [c] = {}

theorem inherit_of_isUnstyled {c : TextComponent} (h : c.isUnstyled = true) :
    ({} : TextStyle).inherit c = {} := by
  have hc : along [c] = {} := of_decide_eq_true h
  exact (along_cons c []).symm.trans hc

mutual

theorem chars_glyphs : (around : List TextComponent) → (c : TextComponent) →
    (glyphs around c).map Prod.fst = c.plain.toList
  | around, ⟨text, _, _, _, _, _, extra⟩ => by
    have h (around : List TextComponent) := chars_glyphsAll around extra
    simp [glyphs, plain, h, Function.comp_def]

theorem chars_glyphsAll : (around cs : List TextComponent) →
    (glyphsAll around cs).map Prod.fst = (plainAll cs).toList
  | _, [] => rfl
  | around, c :: cs => by
    have hc := chars_glyphs around c
    have hcs := chars_glyphsAll around cs
    simp [glyphsAll, plainAll, hc, hcs]

end

mutual

/-- What a piece adds to a line shows it, and leaves the reader with the style that the writer
remembers. -/
theorem shows_legacyFrom (around : List TextComponent) (active : TextStyle) (r : List Char) :
    (c : TextComponent) → (∀ p ∈ c.pieces, sectionSign ∉ p.text.toList) →
      shows active ((legacyFrom (along around) active c).1 ++ r) =
        glyphs around c ++ shows (legacyFrom (along around) active c).2 r
  | ⟨text, _, _, _, _, _, extra⟩, h => by
    have htext : sectionSign ∉ text.toList := h _ List.mem_cons_self
    have hextra : ∀ p ∈ piecesAll extra, sectionSign ∉ p.text.toList :=
      fun p hp => h p (List.mem_cons_of_mem _ hp)
    simp only [legacyFrom, glyphs, ← along_cons]
    split
    -- an empty text selects no style, and the reader stays where the piece before has left it
    · next hempty =>
      rw [show text.toList = [] by simpa using hempty]
      exact shows_legacyAll _ active r extra hextra
    · simp only [List.append_assoc]
      rw [shows_change, shows_text _ htext, shows_legacyAll _ _ r extra hextra]

theorem shows_legacyAll (around : List TextComponent) (active : TextStyle) (r : List Char) :
    (cs : List TextComponent) → (∀ p ∈ piecesAll cs, sectionSign ∉ p.text.toList) →
      shows active ((legacyAll (along around) active cs).1 ++ r) =
        glyphsAll around cs ++ shows (legacyAll (along around) active cs).2 r
  | [], _ => rfl
  | c :: cs, h => by
    have hc : ∀ p ∈ c.pieces, sectionSign ∉ p.text.toList :=
      fun p hp => h p (List.mem_append_left _ hp)
    have hcs : ∀ p ∈ piecesAll cs, sectionSign ∉ p.text.toList :=
      fun p hp => h p (List.mem_append_right _ hp)
    simp only [legacyAll, glyphsAll, List.append_assoc]
    rw [shows_legacyFrom around active _ c hc, shows_legacyAll around _ r cs hcs]

end

mutual

/-- A tree without styles adds its texts to a line, and no code. -/
theorem legacyFrom_unstyled : (c : TextComponent) → (∀ p ∈ c.pieces, p.isUnstyled = true) →
    legacyFrom {} {} c = (c.plain.toList, {})
  | ⟨text, _, _, _, _, _, extra⟩, h => by
    have hextra := legacyAll_unstyled extra fun p hp => h p (List.mem_cons_of_mem _ hp)
    have hown := inherit_of_isUnstyled (h _ List.mem_cons_self)
    simp only [legacyFrom, hown, hextra, change, plain, String.toList_append]
    split
    · next hempty => rw [show text.toList = [] by simpa using hempty, List.nil_append]
    · simp

theorem legacyAll_unstyled : (cs : List TextComponent) →
    (∀ p ∈ piecesAll cs, p.isUnstyled = true) → legacyAll {} {} cs = ((plainAll cs).toList, {})
  | [], _ => rfl
  | c :: cs, h => by
    have hc := legacyFrom_unstyled c fun p hp => h p (List.mem_append_left _ hp)
    have hcs := legacyAll_unstyled cs fun p hp => h p (List.mem_append_right _ hp)
    simp [legacyAll, plainAll, hc, hcs]

end

/-- The line of a tree without section signs shows the characters of its texts, each in the style
that it has in the tree. Where there is no style there is no code. -/
theorem legacy_shows (c : TextComponent) :
    (c.glyphs []).map Prod.fst = c.plain.toList ∧
      ((∀ p ∈ c.pieces, sectionSign ∉ p.text.toList) → shows {} c.legacy.toList = c.glyphs []) ∧
      ((∀ p ∈ c.pieces, p.isUnstyled = true) → c.legacy = c.plain) := by
  refine ⟨chars_glyphs [] c, fun h => ?_, fun h => ?_⟩
  · have hline : c.legacy.toList = (legacyFrom (along []) {} c).1 ++ [] := by
      rw [legacy, String.toList_ofList, List.append_nil]
      rfl
    rw [hline, shows_legacyFrom [] {} [] c h]
    exact List.append_nil _
  · rw [legacy, legacyFrom_unstyled c h, String.ofList_toList]

/-- A yellow text with a bold word that ends in red, and a text without any style. -/
theorem legacy_shows_warning :
    let word : TextComponent :=
      { text := "b", bold := true, extra := [{ text := "c", color := some .red }] }
    let c : TextComponent :=
      { text := "a", color := some .yellow, extra := [word, .ofText "", .ofText "!"] }
    let d : TextComponent := (TextComponent.ofText "a").withExtra (.ofText "b")
    (∀ p ∈ c.pieces, sectionSign ∉ p.text.toList) ∧
      shows {} c.legacy.toList = [('a', { color := some .yellow }),
        ('b', { color := some .yellow, bold := true }), ('c', { color := some .red, bold := true }),
        ('!', { color := some .yellow })] ∧
      (∀ p ∈ d.pieces, p.isUnstyled = true) ∧ d.legacy = "ab" := by
  intro word c d
  have hc : ∀ p ∈ c.pieces, sectionSign ∉ p.text.toList := by decide
  have hd : ∀ p ∈ d.pieces, p.isUnstyled = true := by decide
  exact ⟨hc, (legacy_shows c).2.1 hc, hd, (legacy_shows d).2.2 hd⟩

end TextComponent
end EditionGateway
