-- Reading a value from its notation.
import HuntBoard.Ron.Basic
import HuntBoard.Ron.Space
import HuntBoard.Ron.Token

namespace HuntBoard.Ron

/-- Names that are whole values: no parentheses belong to them. -/
def isLoneWord (name : String) : Bool :=
  ["true", "false", "None", "inf", "NaN"].contains name

/-- A number as a value; only whole ones without a sign are of interest. -/
def ofNumber (l : List Char) (n : Nat) : Ron :=
  if l.head? = some '+' ∨ l.head? = some '-' then other else number n

/-- A number. One that is not a whole number of 64 bits may still be a decimal
fraction, written without its point. -/
def numberValue? (l : List Char) : Option (Ron × List Char) :=
  match (if looksLikeFloat l then none else whole? l) with
  | some (n, rest) => some (ofNumber l n, rest)
  | none => (behindFloat? l).map (other, ·)

/-- Named values stand in the parentheses: a name comes first, with a colon behind it. -/
def opensRecord (l : List Char) : Bool :=
  match name? l with
  | some (_, rest) => ((skip rest).bind (·.head?)) = some ':'
  | none => false

mutual

/-- A value. Every round takes at least one character. -/
def value? : Nat → List Char → Option (Ron × List Char)
  | 0, _ => none
  | fuel + 1, l =>
    match name? l with
    | some (name, rest) =>
      if isLoneWord name then some (word name, rest)
      else do
        let behind ← skip rest
        match behind with
        | '(' :: _ => inParens? fuel (some name) behind
        | _ => if name = "Some" then none else some (word name, rest)
    | none =>
      match l with
      | '(' :: _ => inParens? fuel none l
      | '[' :: rest => do
        let rest ← skip rest
        let (_, rest) ← items? fuel ']' rest
        some (other, rest)
      | '\x7b' :: rest => do
        let rest ← skip rest
        let rest ← behindEntries? fuel rest
        some (other, rest)
      | '"' :: _ | 'r' :: _ => (text? l).map fun (s, rest) => (text s, rest)
      | '\'' :: _ => (behindChar? l).map (other, ·)
      | '-' :: 'i' :: 'n' :: 'f' :: rest => some (other, rest)
      | c :: _ => if c.isDigit ∨ c = '+' ∨ c = '-' ∨ c = '.' then numberValue? l else none
      | [] => none

/-- What stands in parentheses. -/
def inParens? : Nat → Option String → List Char → Option (Ron × List Char)
  | 0, _, _ => none
  | fuel + 1, name, l => do
    let l ← after? '(' l
    if opensRecord l then
      let (fields, rest) ← fields? fuel l
      some (record name fields, rest)
    else
      let (items, rest) ← items? fuel ')' l
      if name = some "Some" ∧ items.length ≠ 1 then none else some (tuple name items, rest)

/-- Values with commas between them, up to a closing mark. -/
def items? : Nat → Char → List Char → Option (List Ron × List Char)
  | 0, _, _ => none
  | fuel + 1, mark, l =>
    match l with
    | [] => none
    | c :: rest =>
      if c = mark then some ([], rest)
      else do
        let (v, rest) ← value? fuel l
        let (more, rest) ← comma rest
        if more then
          let (vs, rest) ← items? fuel mark rest
          some (v :: vs, rest)
        else if rest.head? = some mark then some ([v], rest.drop 1)
        else none

/-- Named values with commas between them, up to the closing parenthesis. -/
def fields? : Nat → List Char → Option (List (String × Ron) × List Char)
  | 0, _ => none
  | fuel + 1, l =>
    match l with
    | [] => none
    | ')' :: rest => some ([], rest)
    | l => do
      let (name, rest) ← name? l
      let rest ← skip rest
      let rest ← after? ':' rest
      let (v, rest) ← value? fuel rest
      let (more, rest) ← comma rest
      if more then
        let (fs, rest) ← fields? fuel rest
        some ((name, v) :: fs, rest)
      else if rest.head? = some ')' then some ([(name, v)], rest.drop 1)
      else none

/-- The text behind pairs of values, up to the closing brace. -/
def behindEntries? : Nat → List Char → Option (List Char)
  | 0, _ => none
  | fuel + 1, l =>
    match l with
    | [] => none
    | '\x7d' :: rest => some rest
    | l => do
      let (_, rest) ← value? fuel l
      let rest ← skip rest
      let rest ← after? ':' rest
      let (_, rest) ← value? fuel rest
      let (more, rest) ← comma rest
      if more then behindEntries? fuel rest
      else if rest.head? = some '\x7d' then some (rest.drop 1)
      else none

end

/-! ## Whole texts -/

/-- Relaxations of the notation that a text can ask for. -/
def extensions : List String := ["unwrap_newtypes", "implicit_some", "unwrap_variant_newtypes"]

/-- The text behind several characters with space between them. -/
def afterAll? : List Char → List Char → Option (List Char)
  | [], l => some l
  | c :: cs, l => (after? c l).bind (afterAll? cs)

/-- The names of extensions up to the end of their list. Every round takes at
least one character. -/
def extensionNames? : Nat → List Char → Option (List String × List Char)
  | 0, _ => none
  | fuel + 1, l => do
    let (name, rest) ← name? l
    if !extensions.contains name then none
    else
      let (more, rest) ← comma rest
      if more && rest.head?.any isNameChar then
        let (names, rest) ← extensionNames? fuel rest
        some (name :: names, rest)
      else some ([name], rest)

/-- The extensions that a text begins with. -/
def header? : Nat → List Char → Option (List String × List Char)
  | 0, _ => none
  | fuel + 1, l =>
    match l with
    | '#' :: _ => do
      let l ← afterAll? ['#', '!', '['] l
      if "enable".toList.isPrefixOf l then
        let l ← skip (l.drop 6)
        let l ← after? '(' l
        let (names, l) ← extensionNames? (l.length + 1) l
        let l ← afterAll? [')', ']'] l
        let (more, l) ← header? fuel l
        some (names ++ more, l)
      else none
    | l => some ([], l)

/-- A text as a value, with the extensions it asks for. -/
def ofText? (s : String) : Option (List String × Ron) := do
  let l ← skip s.toList
  let (extensions, l) ← header? (l.length + 1) l
  let (v, rest) ← value? (2 * l.length + 2) l
  let rest ← skip rest
  if rest.isEmpty then some (extensions, v) else none

end HuntBoard.Ron
