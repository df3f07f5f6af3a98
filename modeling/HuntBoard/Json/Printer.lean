-- Writing JSON values in the shortest form: no blanks, and only the escapes
-- that a reader needs.
import HuntBoard.Json.Basic
import HuntBoard.Text.Digits

namespace HuntBoard.Json

open HuntBoard.Text

/-- One character between quotes. -/
def escapeChar (c : Char) : List Char :=
  if c = '"' then ['\\', '"']
  else if c = '\\' then ['\\', '\\']
  else if c = '\x08' then ['\\', 'b']
  else if c = '\x0c' then ['\\', 'f']
  else if c = '\n' then ['\\', 'n']
  else if c = '\r' then ['\\', 'r']
  else if c = '\t' then ['\\', 't']
  else if c.toNat < 0x20 then ['\\', 'u'] ++ fixedHex 4 c.toNat
  else [c]

/-- A text in quotes. -/
def quote (s : String) : List Char := '"' :: (s.toList.flatMap escapeChar ++ ['"'])

mutual

/-- The characters of a value. What cannot be read is written as `null`. -/
def chars : Json → List Char
  | .null | .unreadable => ['n', 'u', 'l', 'l']
  | .bool true => ['t', 'r', 'u', 'e']
  | .bool false => ['f', 'a', 'l', 's', 'e']
  | .int n => (toString n).toList
  | .decimal m e => (toString m).toList ++ ['e'] ++ (toString e).toList
  | .str s => quote s
  | .arr items => ['['] ++ itemChars items ++ [']']
  | .obj members => ['\x7b'] ++ memberChars members ++ ['\x7d']

def itemChars : List Json → List Char
  | [] => []
  | [j] => j.chars
  | j :: rest => j.chars ++ [','] ++ itemChars rest

def memberChars : List (String × Json) → List Char
  | [] => []
  | [(k, j)] => quote k ++ [':'] ++ j.chars
  | (k, j) :: rest => quote k ++ [':'] ++ j.chars ++ [','] ++ memberChars rest

end

/-- The text of a value. -/
def text (j : Json) : String := String.ofList j.chars

end HuntBoard.Json
