import EditionGateway.Json.Lexer

/-!
From tokens to a JSON value. The open arrays and objects are kept on a stack, so values may nest to
any depth.
-/

namespace EditionGateway.Json

namespace Parser

/-- A container that is still open, its finished parts in reverse. An object waits for the value of
`key`. -/
inductive Open
  | array (items : List Json)
  | object (members : List (Literal × Json)) (key : Literal)

/-- What may come next. -/
inductive Stage
  | value
  | firstItem
  | firstKey (members : List (Literal × Json))
  | key (members : List (Literal × Json))
  | colon (members : List (Literal × Json)) (key : Literal)
  | after (v : Json)

structure State where
  stack : List Open := []
  stage : Stage := .value

/-- A value may begin with this token. -/
def beginValue (stack : List Open) : Token → Option State
  | .leftBrace => some ⟨stack, .firstKey []⟩
  | .leftBracket => some ⟨stack, .firstItem⟩
  | .text s => some ⟨stack, .after (.text s)⟩
  | .scalar v => some ⟨stack, .after v⟩
  | _ => none

def step (s : State) (t : Token) : Option State :=
  match s.stage, t with
  | .value, _ => beginValue s.stack t
  | .firstItem, .rightBracket => some ⟨s.stack, .after (.array [])⟩
  | .firstItem, _ => beginValue (.array [] :: s.stack) t
  | .firstKey _, .rightBrace => some ⟨s.stack, .after (.object [])⟩
  | .firstKey ms, .text k => some ⟨s.stack, .colon ms k⟩
  | .key ms, .text k => some ⟨s.stack, .colon ms k⟩
  | .colon ms k, .colon => some ⟨.object ms k :: s.stack, .value⟩
  | .after v, .comma =>
    match s.stack with
    | .array items :: rest => some ⟨.array (v :: items) :: rest, .value⟩
    | .object ms k :: rest => some ⟨rest, .key ((k, v) :: ms)⟩
    | [] => none
  | .after v, .rightBracket =>
    match s.stack with
    | .array items :: rest => some ⟨rest, .after (.array (v :: items).reverse)⟩
    | _ => none
  | .after v, .rightBrace =>
    match s.stack with
    | .object ms k :: rest => some ⟨rest, .after (.object ((k, v) :: ms).reverse)⟩
    | _ => none
  | _, _ => none

def result : State → Option Json
  | ⟨[], .after v⟩ => some v
  | _ => none

end Parser

/-- The value that a JSON text spells; blanks around it are skipped. -/
def parse (s : Bytes) : Option Json := do
  let tokens ← Lexer.tokens s
  let state ← tokens.foldlM Parser.step {}
  Parser.result state

end EditionGateway.Json
