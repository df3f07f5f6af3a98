-- Forms as text: names and values in the encoding of forms, as they are sent
-- in queries and in bodies of requests.
import HuntBoard.Puzzle.Basic
import HuntBoard.Url.Basic

namespace HuntBoard

/-- The characters that stand for themselves in a form. -/
def Form.keeps (c : Char) : Bool := c.isAlphanum || "*-._".toList.contains c

/-- A text in a form: a space is a plus. -/
def Form.encodeChar (c : Char) : List Char := if c = ' ' then ['+'] else Url.percentChar Form.keeps c

def Form.encodeText (s : String) : List Char := s.toList.flatMap Form.encodeChar

def Form.encodeField (f : String × String) : List Char :=
  Form.encodeText f.1 ++ '=' :: Form.encodeText f.2

/-- A form as text. -/
def Form.encode (f : Form) : List Char := Text.joined '&' (f.map Form.encodeField)

namespace Url

/-- An address with one more field in its query. -/
def addField (u : Url) (name value : String) : Url :=
  let field := Form.encodeField (name, value)
  { u with query := some (match u.query with
      | some q => if q.isEmpty then String.ofList field else q ++ "&" ++ String.ofList field
      | none => String.ofList field) }

end Url

end HuntBoard
