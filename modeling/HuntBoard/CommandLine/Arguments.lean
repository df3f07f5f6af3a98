-- The words of a command line: options with and without a value, and the
-- values between them that are told apart by their place. A value is looked
-- at only when the next option or value comes, so what comes later can go
-- wrong first.

namespace HuntBoard.CommandLine

/-- Why words do not make a command. -/
inductive Refusal where
  /-- Help was asked for. -/
  | help
  /-- The words make no sense. -/
  | usage
  deriving DecidableEq

/-! ## What may be given -/

/-- Something that may be given once. -/
structure Parameter where
  name : String
  accepts : String → Bool := fun _ => true
  /-- An option that is there or not, without a value. -/
  isFlag : Bool := false

/-- What a command may be given. -/
structure Shape where
  options : List Parameter := []
  /-- The values that stand without a name, in order. -/
  places : List Parameter := []

/-! ## Words -/

/-- What a word looks like. -/
inductive Look where
  /-- Two dashes, which make all words behind them values. -/
  | divider
  /-- An option, perhaps with its value behind an equals sign. -/
  | option (name : String) (value : Option String)
  /-- Letters behind one dash. -/
  | letters (l : List Char)
  | value

def Look.ofWord (w : String) : Look :=
  match w.toList with
  | ['-', '-'] => .divider
  | '-' :: '-' :: l =>
    match l.dropWhile (· ≠ '=') with
    | [] => .option (String.ofList l) none
    | _ :: rest => .option (String.ofList (l.takeWhile (· ≠ '='))) (some (String.ofList rest))
  | '-' :: c :: l => .letters (c :: l)
  | _ => .value

/-! ## Reading -/

/-- How far the words of a command are read. -/
structure Reading where
  options : List Parameter
  /-- The places that are still to be filled. -/
  places : List Parameter
  /-- What was given and found good, under its name. -/
  given : List (String × String) := []
  /-- What was given last, without its value if that is still to come. -/
  last : Option (Parameter × Option String) := none
  /-- The words that follow are all values. -/
  divided : Bool := false

namespace Reading

def ofShape (s : Shape) : Reading := { options := s.options, places := s.places }

/-- The value that was given under a name. -/
def value? (r : Reading) (name : String) : Option String := r.given.lookup name

/-- The next word is the value of an option, if it looks like a value. -/
def awaitsValue (r : Reading) : Bool := r.last.any fun (_, v) => v.isNone

/-- Put a value under the name of its parameter; it has to be a good one, and
the first one. -/
def give (r : Reading) (p : Parameter) (value : String) : Except Refusal Reading :=
  if (r.value? p.name).isNone && p.accepts value then
    .ok { r with given := r.given ++ [(p.name, value)] }
  else .error .usage

/-- Look at what was given last. -/
def settle (r : Reading) : Except Refusal Reading :=
  match r.last with
  | none => .ok r
  | some (_, none) => .error .usage
  | some (p, some value) => { r with last := none }.give p value

/-- Take an option. -/
def takeOption (r : Reading) (name : String) (value : Option String) : Except Refusal Reading :=
  match r.options.find? (·.name = name), value with
  | none, none => if name = "help" then r.settle.bind fun _ => .error .help else .error .usage
  | none, some _ => .error .usage
  | some p, none => do
    let r ← r.settle
    if p.isFlag then r.give p "" else .ok { r with last := some (p, none) }
  | some p, some v => do
    let r ← r.settle
    if p.isFlag then .error .usage else r.give p v

/-- Take letters behind one dash. There is only one that means something, and it
asks for help. -/
def takeLetters (r : Reading) (l : List Char) : Except Refusal Reading :=
  if l.head? = some 'h' then r.settle.bind fun _ => .error .help else .error .usage

/-- Take a value that belongs to the next place. -/
def takePlace (r : Reading) (value : String) : Except Refusal Reading :=
  match r.places with
  | [] => .error .usage
  | p :: places => r.settle.map fun r => { r with places, last := some (p, some value) }

/-- Take a value: that of the option before it, or of the next place. -/
def takeValue (r : Reading) (value : String) : Except Refusal Reading :=
  match r.last with
  | some (p, none) => if r.divided then .error .usage else .ok { r with last := some (p, some value) }
  | _ => r.takePlace value

/-- Take a word. -/
def take (r : Reading) (word : String) : Except Refusal Reading :=
  if r.divided then r.takeValue word
  else
    match Look.ofWord word with
    | .divider => .ok { r with divided := true }
    | .option name value => r.takeOption name value
    | .letters l => r.takeLetters l
    | .value => r.takeValue word

/-- Take words up to one that names a command, and give what is left. -/
def takeAll (isCommand : String → Bool) : Reading → List String → Except Refusal (Reading × List String)
  | r, [] => .ok (r, [])
  | r, word :: rest =>
    if !r.divided && !r.awaitsValue && isCommand word then .ok (r, word :: rest)
    else (r.take word).bind fun r => takeAll isCommand r rest

end Reading

end HuntBoard.CommandLine
