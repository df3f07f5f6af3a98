-- Requests to the server over HTTP, and what comes of them.
import HuntBoard.Url.Query
import HuntBoard.Url.Reader
import HuntBoard.Write.Reply

namespace HuntBoard

/-! ## Replies -/

namespace HttpReply

def changeIdHeader : String := "x-change-id"

/-- Blanks at the ends of a header's value do not belong to it. -/
def isHeaderBlank (c : Char) : Bool := c = ' ' || c = '\t'

def isVisible (c : Char) : Bool := (0x20 ≤ c.toNat && c.toNat < 0x7F) || c = '\t'

/-- The value of a header; one that is not plain text counts as empty. -/
def headerText (value : String) : String :=
  let l := ((value.toList.dropWhile isHeaderBlank).reverse.dropWhile isHeaderBlank).reverse
  if l.all isVisible then String.ofList l else ""

/-- A reply from its parts: of headers with the same name, the first counts, and
names of headers are the same in either case. -/
def ofParts (status : Nat) (headers : List (String × String)) (body : String) : HttpReply where
  status := status
  changeId := (headers.find? fun h => String.ofList (h.1.toList.map Char.toLower) = changeIdHeader).map
    fun h => headerText h.2
  body := body

end HttpReply

/-! ## Requests -/

structure HttpRequest where
  method : Method
  url : Url
  cookie : Option String
  form : Form

namespace HttpRequest

/-- The body of a request; without fields there is none. -/
def body (r : HttpRequest) : Option String :=
  if r.form.isEmpty then none else some (String.ofList r.form.encode)

def contentType (r : HttpRequest) : Option String :=
  r.body.map fun _ => "application/x-www-form-urlencoded"

end HttpRequest

/-- A way to the server: what it replies, unless it cannot be reached. -/
abbrev Transport := HttpRequest → Option HttpReply

/-! ## The server -/

/-- The server as a client knows it. -/
structure Server where
  base : Url
  cookie : Option String := none

namespace Server

def withoutLastSlashes (l : List Char) : List Char := (l.reverse.dropWhile (· = '/')).reverse

/-- The server at an address. -/
def at? (base : String) (cookie : Option String) : Except ServerFault Server :=
  match Url.ofText? base with
  | some base => .ok { base, cookie }
  | none => .error .invalidUrl

/-- The address of a path of the server: the path is put behind the text of the
base, without the slashes at its end. -/
def endpoint (s : Server) (path : String) : Except ServerFault Url :=
  match Url.ofChars? (withoutLastSlashes s.base.chars ++ path.toList) with
  | some u => .ok u
  | none => .error .invalidUrl

/-- Send a request and wait for the reply. -/
def exchange (s : Server) (t : Transport) (method : Method) (path : String) (form : Form) :
    Except ServerFault HttpReply := do
  let url ← s.endpoint path
  match t { method, url, cookie := s.cookie, form } with
  | some r => .ok r
  | none => .error .network

/-- Ask for the state of the hunt. -/
def home (s : Server) (t : Transport) : Except ServerFault Snapshot := do
  (← s.exchange t .get "/home" []).snapshot

/-- Ask for a write. -/
def write (s : Server) (t : Transport) (request : WriteRequest) : Except ServerFault WriteReply := do
  (← s.exchange t request.method request.path request.form).write request

end Server

end HuntBoard
