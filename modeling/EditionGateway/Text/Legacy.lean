import EditionGateway.Text.Component

/-!
Styled text as a flat line with formatting codes: a section sign and a character that resets the
style, selects a colour or switches a format on.
-/

namespace EditionGateway

/-- A colour and the formats that are on. -/
structure TextStyle where
  color : Option Color := none
  bold : Bool := false
  italic : Bool := false
  underlined : Bool := false
  strikethrough : Bool := false
deriving DecidableEq, Repr

namespace TextStyle

def sectionSign : Char := '\u00a7'

/-- The style of a piece inside a piece of style `outer`. -/
def inherit (outer : TextStyle) (c : TextComponent) : TextStyle where
  color := c.color.or outer.color
  bold := c.bold || outer.bold
  italic := c.italic || outer.italic
  underlined := c.underlined || outer.underlined
  strikethrough := c.strikethrough || outer.strikethrough

def switch (on : Bool) (code : Char) : List Char := if on then [sectionSign, code] else []

/-- The codes that select a style after a reset. -/
def codes (s : TextStyle) : List Char :=
  (match s.color with
    | some color => [sectionSign, color.code]
    | none => [])
  ++ switch s.bold 'l' ++ switch s.strikethrough 'm' ++ switch s.underlined 'n'
  ++ switch s.italic 'o'

/-- The codes that turn one style into another: none if they are equal, and a reset in front unless
there is nothing to reset. -/
def change (active target : TextStyle) : List Char :=
  if target = active then []
  else (if active = {} then [] else [sectionSign, 'r']) ++ target.codes

end TextStyle

namespace TextComponent

mutual

/-- The line that a piece adds while `active` is the style in force, and the style after it. An
empty text selects no style. -/
def legacyFrom (outer active : TextStyle) : TextComponent → List Char × TextStyle
  | c@⟨text, _, _, _, _, _, extra⟩ =>
    let style := outer.inherit c
    if text.isEmpty then legacyAll style active extra
    else
      let (rest, last) := legacyAll style style extra
      (active.change style ++ text.toList ++ rest, last)

def legacyAll (outer active : TextStyle) : List TextComponent → List Char × TextStyle
  | [] => ([], active)
  | c :: cs =>
    let (line, middle) := legacyFrom outer active c
    let (rest, last) := legacyAll outer middle cs
    (line ++ rest, last)

end

/-- The line with formatting codes that shows the tree. -/
def legacy (c : TextComponent) : String := String.ofList (legacyFrom {} {} c).1

end TextComponent
end EditionGateway
