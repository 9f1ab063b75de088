import Checkpointing.Decimal.Shortest

/-!
# JSON values

JSON values and their two written forms: `Json.compact` on one line without blanks, and
`Json.pretty` with one element a line, indented by two blanks.  The fields of an object keep their
order.
-/

namespace Checkpointing

/-- A JSON value; whole numbers are told apart from others. -/
inductive Json where
  | null
  | bool (b : Bool)
  | whole (i : Int)
  | real (x : Float)
  | text (s : String)
  | array (elements : List Json)
  | object (fields : List (String × Json))
deriving Repr, Inhabited

namespace Json

/-- A whole number that is not negative. -/
def nat (n : Nat) : Json := .whole n

/-- A value that may be absent, as `null`. -/
def ofOption {α : Type} (f : α → Json) : Option α → Json
  | none => .null
  | some a => f a

/-- The hexadecimal digit of a number below 16. -/
def hexDigit (n : Nat) : Char :=
  if n < 10 then Char.ofNat (48 + n) else Char.ofNat (87 + n)

/-- A character as it stands in a written text. -/
def escaped (c : Char) : List Char :=
  if c = '"' then ['\\', '"']
  else if c = '\\' then ['\\', '\\']
  else if c = '\n' then ['\\', 'n']
  else if c = '\r' then ['\\', 'r']
  else if c = '\t' then ['\\', 't']
  else if c = '\x08' then ['\\', 'b']
  else if c = '\x0c' then ['\\', 'f']
  else if c.toNat < 32 then ['\\', 'u', '0', '0', hexDigit (c.toNat / 16), hexDigit (c.toNat % 16)]
  else [c]

/-- A text between quotes. -/
def quoted (s : String) : String :=
  String.ofList ('"' :: s.toList.flatMap escaped ++ ['"'])

/-- A number, boolean, text or `null`. -/
def scalar : Json → String
  | .bool b => toString b
  | .whole i => toString i
  | .real x => (Decimal.ofFloat? x).getD "null"
  | .text s => quoted s
  | _ => "null"

mutual

/-- The value on one line. -/
def compact : Json → String
  | .array elements => "[" ++ ",".intercalate (compactElements elements) ++ "]"
  | .object fields => "\x7b" ++ ",".intercalate (compactFields fields) ++ "\x7d"
  | j => j.scalar

/-- The elements of an array, each on one line. -/
def compactElements : List Json → List String
  | [] => []
  | j :: rest => j.compact :: compactElements rest

/-- The fields of an object, each on one line. -/
def compactFields : List (String × Json) → List String
  | [] => []
  | (name, j) :: rest => (quoted name ++ ":" ++ j.compact) :: compactFields rest

end

/-- Puts parts on lines of their own, one level further in than the brackets around them. -/
def block (level : Nat) (opening closing : String) (parts : List String) : String :=
  if parts.isEmpty then opening ++ closing
  else
    opening ++ "\n" ++ ",\n".intercalate (parts.map fun p => "".pushn ' ' (2 * (level + 1)) ++ p) ++
      "\n" ++ "".pushn ' ' (2 * level) ++ closing

mutual

/-- The value over several lines, starting at a level of indentation. -/
def prettyAt (level : Nat) : Json → String
  | .array elements => block level "[" "]" (prettyElements (level + 1) elements)
  | .object fields => block level "\x7b" "\x7d" (prettyFields (level + 1) fields)
  | j => j.scalar

/-- The elements of an array at a level of indentation. -/
def prettyElements (level : Nat) : List Json → List String
  | [] => []
  | j :: rest => j.prettyAt level :: prettyElements level rest

/-- The fields of an object at a level of indentation. -/
def prettyFields (level : Nat) : List (String × Json) → List String
  | [] => []
  | (name, j) :: rest => (quoted name ++ ": " ++ j.prettyAt level) :: prettyFields level rest

end

/-- The value over several lines. -/
def pretty (j : Json) : String := j.prettyAt 0

end Json

end Checkpointing
