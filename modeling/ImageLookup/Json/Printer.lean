import ImageLookup.Decimal.Shortest
import ImageLookup.Json.Value

/-! # Writing documents

Texts are quoted with a backslash before quotes and backslashes; of the control characters
below U+0020 five have a letter of their own and the others are written `\u00xx`.  Every
other character stands for itself.  `pretty` gives each member and item a line of its own,
two blanks deeper than its container; `compact` writes no blanks at all.
-/

namespace ImageLookup.Json

def escape (c : Char) : List Char :=
  if c == '"' then ['\\', '"']
  else if c == '\\' then ['\\', '\\']
  else if c == '\x08' then ['\\', 'b']
  else if c == '\t' then ['\\', 't']
  else if c == '\n' then ['\\', 'n']
  else if c == '\x0c' then ['\\', 'f']
  else if c == '\r' then ['\\', 'r']
  else if c.toNat < 0x20 then
    ['\\', 'u', '0', '0', Text.hexDigit (c.toNat / 16), Text.hexDigit (c.toNat % 16)]
  else [c]

def quoted (s : String) : List Char := '"' :: (s.toList.flatMap escape ++ ['"'])

structure Layout where
  /-- What stands between the parts of a container that is `depth` containers deep. -/
  lineBreak (depth : Nat) : List Char
  /-- What stands between a key and its value. -/
  separator : List Char

def Layout.pretty : Layout := ⟨fun depth => '\n' :: List.replicate (2 * depth) ' ', [':', ' ']⟩

def Layout.compact : Layout := ⟨fun _ => [], [':']⟩

mutual

def Value.print (layout : Layout) (depth : Nat) : Value → List Char
  | .null => "null".toList
  | .bool b => if b then "true".toList else "false".toList
  | .integer i => (toString i).toList
  | .real x => x.documentText
  | .text s => quoted s
  | .array [] => ['[', ']']
  | .array (v :: vs) =>
    '[' :: (layout.lineBreak (depth + 1) ++ v.print layout (depth + 1)
      ++ printItems layout (depth + 1) vs ++ layout.lineBreak depth ++ [']'])
  | .object [] => ['\x7b', '\x7d']
  | .object ((key, v) :: members) =>
    '\x7b' :: (layout.lineBreak (depth + 1) ++ quoted key ++ layout.separator
      ++ v.print layout (depth + 1) ++ printMembers layout (depth + 1) members
      ++ layout.lineBreak depth ++ ['\x7d'])

def printItems (layout : Layout) (depth : Nat) : List Value → List Char
  | [] => []
  | v :: vs =>
    ',' :: (layout.lineBreak depth ++ v.print layout depth ++ printItems layout depth vs)

def printMembers (layout : Layout) (depth : Nat) : List (String × Value) → List Char
  | [] => []
  | (key, v) :: members =>
    ',' :: (layout.lineBreak depth ++ quoted key ++ layout.separator ++ v.print layout depth
      ++ printMembers layout depth members)

end

def Value.pretty (v : Value) : List Char := v.print .pretty 0

def Value.compact (v : Value) : List Char := v.print .compact 0

end ImageLookup.Json
