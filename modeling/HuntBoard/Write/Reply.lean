-- Reading the server's answer to a request: what it means, or why it cannot
-- be used.
import HuntBoard.Json.Reader
import HuntBoard.Text.Blank
import HuntBoard.Text.Quoted
import HuntBoard.Wire.Entity
import HuntBoard.Write.Request

namespace HuntBoard

/-- Why a request to the server came to nothing. -/
inductive ServerFault where
  /-- The session is no longer good. -/
  | unauthorized
  | status (code : Nat) (body : String)
  /-- The server could not be reached, or went away. -/
  | network
  | missingChangeId
  | invalidChangeId (raw : String)
  /-- The body of the answer is not what was asked for. -/
  | badBody
  | invalidUrl
  deriving DecidableEq

namespace ServerFault

/-- The text of a fault, where this library knows all of it. -/
def message? : ServerFault → Option String
  | unauthorized => some "session expired (401)"
  | status code body => some ("request failed with status " ++ toString code ++ ": " ++ body)
  | missingChangeId => some "response is missing the X-Change-ID header"
  | invalidChangeId raw => some ("invalid X-Change-ID header: " ++ Text.quoted raw)
  | network | badBody | invalidUrl => none

end ServerFault

/-! ## Answers -/

/-- An answer over HTTP, as far as it is looked at. -/
structure HttpReply where
  status : Nat
  /-- The change id header; one that is not plain text counts as empty. -/
  changeId : Option String
  body : String

namespace HttpReply

/-- The answer has a status of success. -/
def accepted (r : HttpReply) : Except ServerFault Unit :=
  if r.status = 401 then .error .unauthorized
  else if 200 ≤ r.status ∧ r.status < 300 then .ok ()
  else .error (.status r.status r.body)

/-- The digits of a number, behind a plus that it may have. -/
def unsigned (l : List Char) : List Char :=
  match l with
  | '+' :: rest => rest
  | l => l

/-- Read a change id: digits for a number of 64 bits, with blanks around them. -/
def readChangeId : Option String → Except ServerFault ChangeId
  | none => .error .missingChangeId
  | some raw =>
    match (Text.decimal? (unsigned (Text.trimBlanks raw.toList))).bind uint64? with
    | some n => .ok ⟨n⟩
    | none => .error (.invalidChangeId raw)

/-- The entity in the body of an answer. -/
def readEntity? (t : EntityType) (body : String) : Option Entity := do
  let j ← Json.ofText? body
  match t with
  | .puzzle => (Puzzle.ofJson? j).map .puzzle
  | .round => (Round.ofJson? j).map .round

/-- The state of the hunt in an answer. -/
def snapshot (r : HttpReply) : Except ServerFault Snapshot := do
  r.accepted
  match (Json.ofText? r.body).bind Snapshot.ofJson? with
  | some s => .ok s
  | none => .error .badBody

/-- What an answer says about a write. Only a creation needs the entity that it
is answered with. -/
def write (request : WriteRequest) (r : HttpReply) : Except ServerFault WriteReply := do
  r.accepted
  let changeId ← readChangeId r.changeId
  if request.method = .delete then .ok { changeId }
  else
    match readEntity? request.entityType r.body with
    | some e => .ok { changeId, entity := some e }
    | none => if request.isCreate then .error .badBody else .ok { changeId }

end HttpReply

end HuntBoard
