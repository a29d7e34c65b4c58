import EditionGateway.Shape.Variant
import EditionGateway.Text.Component

/-!
The layout of styled texts. A piece has seven fields, of which the last is the list of the pieces
inside it.
-/

namespace EditionGateway

open Binary (Reader)

def Color.shape : Shape Color := Shape.enumeration (Color.all.map fun c => (c.name, c))

namespace TextComponent

mutual

def write : TextComponent → Bytes
  | ⟨text, color, bold, italic, underlined, strikethrough, extra⟩ =>
    Shape.text.write text ++ (Shape.option Color.shape).write color ++ Shape.flag.write bold
      ++ Shape.flag.write italic ++ Shape.flag.write underlined ++ Shape.flag.write strikethrough
      ++ Binary.writeNat extra.length ++ writeAll extra

def writeAll : List TextComponent → Bytes
  | [] => []
  | c :: cs => write c ++ writeAll cs

end

/-- Reads a piece in which fewer than `fuel` pieces lie inside one another. -/
def readAt : Nat → Reader TextComponent
  | 0 => Reader.fail .endOfInput
  | fuel + 1 => do
    let text ← Shape.text.read
    let color ← (Shape.option Color.shape).read
    let bold ← Shape.flag.read
    let italic ← Shape.flag.read
    let underlined ← Shape.flag.read
    let strikethrough ← Shape.flag.read
    let extra ← Reader.replicate (← Binary.readBelow UInt64.size) (readAt fuel)
    return { text, color, bold, italic, underlined, strikethrough, extra }

mutual

def toJson : TextComponent → Json
  | ⟨text, color, bold, italic, underlined, strikethrough, extra⟩ => .obj [
    ("text", Shape.text.toJson text),
    ("color", (Shape.option Color.shape).toJson color),
    ("bold", .bool bold),
    ("italic", .bool italic),
    ("underlined", .bool underlined),
    ("strikethrough", .bool strikethrough),
    ("extra", .array (toJsonAll extra))]

def toJsonAll : List TextComponent → List Json
  | [] => []
  | c :: cs => toJson c :: toJsonAll cs

end

/-- The fields of a piece, given how the pieces inside it are laid out. -/
def fields (inner : Shape TextComponent) :
    Fields (String × Option Color × Bool × Bool × Bool × Bool × List TextComponent) :=
  .field "text" .text <| .field "color" (.option Color.shape) <| .field "bold" .flag <|
  .field "italic" .flag <| .field "underlined" .flag <| .field "strikethrough" .flag <|
  .last "extra" (.list inner)

/-- Reads a piece from JSON in which fewer than `fuel` pieces lie inside one another. -/
def ofJsonAt : Nat → Nat → Json → Option TextComponent
  | 0, _, _ => none
  | fuel + 1, d, j =>
    let inner : Shape TextComponent := ⟨write, Reader.fail .invalid, toJson, ofJsonAt fuel, none⟩
    ((fields inner).ofJson d j).map
      fun (text, color, bold, italic, underlined, strikethrough, extra) =>
        { text, color, bold, italic, underlined, strikethrough, extra }

/-- Each piece takes a byte at least, and a container at least, so the fuel never runs out. -/
def shape : Shape TextComponent where
  write := write
  read s := readAt (s.length + 1) s
  toJson := toJson
  ofJson d j := ofJsonAt (d + 1) d j

end TextComponent
end EditionGateway
