-- Reading JSON values as plain types and as records. A record is an object
-- or an array of its fields in order; fields it does not know are passed
-- over, and a field it knows may come once.
import HuntBoard.Json.Basic
import HuntBoard.Ids
import HuntBoard.Text.Digits

namespace HuntBoard.Json

/-! ## Plain values -/

def asText? : Json → Option String
  | .str s => some s
  | _ => none

def asBool? : Json → Option Bool
  | .bool b => some b
  | _ => none

/-- A whole number of 64 bits with sign. -/
def asInt64? : Json → Option Int64
  | .int n => int64? n
  | _ => none

/-- A whole number of 64 bits without sign. -/
def asUInt64? : Json → Option UInt64
  | .int n => if 0 ≤ n then uint64? n.toNat else none
  | _ => none

def asPuzzleId? (j : Json) : Option PuzzleId := j.asInt64?.map PuzzleId.mk

def asRoundId? (j : Json) : Option RoundId := j.asInt64?.map RoundId.mk

def asChangeId? (j : Json) : Option ChangeId := j.asUInt64?.map ChangeId.mk

/-- A value that may be absent: `null` is nothing. -/
def asOption? {α : Type} (read : Json → Option α) : Json → Option (Option α)
  | .null => some none
  | j => (read j).map some

/-- An array of values of one type. -/
def asList? {α : Type} (read : Json → Option α) : Json → Option (List α)
  | .arr items => items.mapM read
  | _ => none

/-- An array of two values. -/
def asPair? {α β : Type} (left : Json → Option α) (right : Json → Option β) :
    Json → Option (α × β)
  | .arr [a, b] => do
    let a ← left a
    let b ← right b
    some (a, b)
  | _ => none

/-- An object as a map; of two members under one key the later stays. -/
def asMap? {κ α : Type} [Ord κ] [Std.TransOrd κ] [Std.LawfulEqOrd κ] (key : String → Option κ)
    (read : Json → Option α) : Json → Option (KeyedMap κ α)
  | .obj members => (members.mapM fun (k, j) => do
      let k ← key k
      let v ← read j
      some (k, v)).map KeyedMap.ofList
  | _ => none

/-- One of a few named choices: its name, or an object of that name over `null`. -/
def asChoice? {α : Type} (choices : List (String × α)) : Json → Option α
  | .str s => choices.lookup s
  | .obj [(s, .null)] => choices.lookup s
  | _ => none

/-- A choice over an empty object as one over `null`. -/
def overNull : Json → Json
  | .obj [(s, .obj [])] => .obj [(s, .null)]
  | j => j

/-! ## Whole numbers as keys -/

/-- A whole number as the name of a member: digits without leading zeros, and
perhaps a minus. -/
def intKey? (s : String) : Option Int :=
  match s.toList with
  | '-' :: ds =>
    if ds.head? = some '0' then none else (Text.decimal? ds).map fun n => -(n : Int)
  | ds =>
    if ds.head? = some '0' ∧ ds.length > 1 then none else (Text.decimal? ds).map fun n => (n : Int)

/-- The id of a puzzle as the name of a member. -/
def puzzleKey? (s : String) : Option PuzzleId := (intKey? s).bind fun n => (Json.int n).asPuzzleId?

/-! ## Records -/

/-- The fields a record was read with, each at most once. -/
structure Fields where
  values : List (String × Json)

namespace Fields

/-- The known members of an object, none twice. -/
def ofMembers? (names : List String) : List (String × Json) → Option (List (String × Json))
  | [] => some []
  | (k, j) :: rest => do
    let fs ← ofMembers? names rest
    if names.contains k then
      if fs.any (fun f => f.1 == k) then none else some ((k, j) :: fs)
    else some fs

def field? (fs : Fields) (name : String) : Option Json := fs.values.lookup name

/-- A field that has to be there. -/
def required {α : Type} (fs : Fields) (name : String) (read : Json → Option α) : Option α :=
  (fs.field? name).bind read

/-- A field that has a value of its own when it is missing. -/
def orElse {α : Type} (fs : Fields) (name : String) (missing : α) (read : Json → Option α) :
    Option α :=
  match fs.field? name with
  | some j => read j
  | none => some missing

end Fields

/-- Read a value as a record with fields of these names in this order. -/
def record? (names : List String) : Json → Option Fields
  | .obj members => (Fields.ofMembers? names members).map Fields.mk
  | .arr items => if items.length ≤ names.length then some ⟨names.zip items⟩ else none
  | _ => none

/-! ## Writing -/

def ofInt64 (n : Int64) : Json := .int n.toInt

def ofUInt64 (n : UInt64) : Json := .int n.toNat

def ofPuzzleId (p : PuzzleId) : Json := ofInt64 p.val

def ofRoundId (r : RoundId) : Json := ofInt64 r.val

def ofChangeId (c : ChangeId) : Json := ofUInt64 c.val

def ofOption {α : Type} (write : α → Json) : Option α → Json
  | some a => write a
  | none => .null

end HuntBoard.Json
