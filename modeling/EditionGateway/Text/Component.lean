/-!
Styled text: a tree of pieces. A piece has a colour and formats of its own or takes them from the
pieces around it.
-/

namespace EditionGateway

inductive Color
  | black
  | darkBlue
  | darkGreen
  | darkAqua
  | darkRed
  | darkPurple
  | gold
  | gray
  | darkGray
  | blue
  | green
  | aqua
  | red
  | lightPurple
  | yellow
  | white
deriving DecidableEq, Repr

namespace Color

def all : List Color :=
  [.black, .darkBlue, .darkGreen, .darkAqua, .darkRed, .darkPurple, .gold, .gray, .darkGray, .blue,
    .green, .aqua, .red, .lightPurple, .yellow, .white]

def name : Color → String
  | .black => "black"
  | .darkBlue => "dark_blue"
  | .darkGreen => "dark_green"
  | .darkAqua => "dark_aqua"
  | .darkRed => "dark_red"
  | .darkPurple => "dark_purple"
  | .gold => "gold"
  | .gray => "gray"
  | .darkGray => "dark_gray"
  | .blue => "blue"
  | .green => "green"
  | .aqua => "aqua"
  | .red => "red"
  | .lightPurple => "light_purple"
  | .yellow => "yellow"
  | .white => "white"

/-- The character that selects the colour in a formatting code. -/
def code : Color → Char
  | .black => '0'
  | .darkBlue => '1'
  | .darkGreen => '2'
  | .darkAqua => '3'
  | .darkRed => '4'
  | .darkPurple => '5'
  | .gold => '6'
  | .gray => '7'
  | .darkGray => '8'
  | .blue => '9'
  | .green => 'a'
  | .aqua => 'b'
  | .red => 'c'
  | .lightPurple => 'd'
  | .yellow => 'e'
  | .white => 'f'

end Color

/-- A styled text. `extra` follows `text` and takes the style of the whole where it sets none. -/
structure TextComponent where
  text : String
  color : Option Color := none
  bold : Bool := false
  italic : Bool := false
  underlined : Bool := false
  strikethrough : Bool := false
  extra : List TextComponent := []
deriving Repr

namespace TextComponent

def ofText (s : String) : TextComponent := { text := s }

def withExtra (c child : TextComponent) : TextComponent := { c with extra := c.extra ++ [child] }

mutual

/-- The texts of the tree, one after the other. -/
def plain : TextComponent → String
  | ⟨text, _, _, _, _, _, extra⟩ => text ++ plainAll extra

def plainAll : List TextComponent → String
  | [] => ""
  | c :: cs => plain c ++ plainAll cs

end

end TextComponent
end EditionGateway
