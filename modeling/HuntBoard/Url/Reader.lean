-- Reading an address that stands alone, with no other to start from. Every
-- spelling is brought into one form on the way: case of scheme and host, dots
-- in the path, usual ports, and characters that have to be encoded.
import HuntBoard.Url.Basic

namespace HuntBoard.Url

/-! ## The parts of the text -/

/-- Blanks and control characters at the ends do not count. -/
def isOuterBlank (c : Char) : Bool := c.toNat ≤ 0x20

/-- Tabs and line breaks count nowhere. -/
def isSkipped (c : Char) : Bool := c = '\t' || c = '\n' || c = '\r'

def cleaned (l : List Char) : List Char :=
  ((l.dropWhile isOuterBlank).reverse.dropWhile isOuterBlank).reverse.filter (!isSkipped ·)

def isSchemeChar (c : Char) : Bool := c.isAlphanum || c = '+' || c = '-' || c = '.'

/-- The scheme, in lower case, and the text behind its colon. -/
def cutScheme? (l : List Char) : Option (Scheme × List Char) :=
  let name := l.takeWhile isSchemeChar
  match name, l.drop name.length with
  | c :: _, ':' :: rest =>
    if c.isAlpha then some (.ofName (String.ofList (name.map Char.toLower)), rest) else none
  | _, _ => none

/-- In special addresses, a backslash is as good as a slash. -/
def isSlash (special : Bool) (c : Char) : Bool := c = '/' || (special && c = '\\')

def isQueryMark (c : Char) : Bool := c = '?' || c = '#'

/-- The text up to the first character of a kind, and the text from there. -/
def cutAt (p : Char → Bool) (l : List Char) : List Char × List Char :=
  (l.takeWhile (!p ·), l.dropWhile (!p ·))

/-! ## The authority -/

/-- The text before the last `@`, if there is one, and the text behind it. -/
def cutUser (l : List Char) : Option (List Char) × List Char :=
  match cutAt (· = '@') l.reverse with
  | (_, []) => (none, l)
  | (host, _ :: user) => (some user.reverse, host.reverse)

/-- The host ends at the first colon outside of brackets. -/
def cutHost (inBrackets : Bool) : List Char → List Char × List Char
  | [] => ([], [])
  | c :: rest =>
    if c = ':' ∧ inBrackets = false then ([], c :: rest)
    else
      let (host, behind) := cutHost (if c = '[' then true else if c = ']' then false else inBrackets) rest
      (c :: host, behind)

/-- A port behind its colon: the usual port of the scheme, or none, is not kept. -/
def port? (scheme : Scheme) : List Char → Option (Option Nat)
  | [] => some none
  | _ :: [] => some none
  | _ :: digits =>
    match Text.decimal? digits with
    | some n => if 65535 < n then none else some (if scheme.usualPort? = some n then none else some n)
    | none => none

/-- A text in which all characters are encoded that do not stand for themselves. -/
def encoded (keeps : Char → Bool) (l : List Char) : String := String.ofList (percentEncode keeps l)

/-- User and password with a colon between them. -/
def userInfo (l : List Char) : String × String :=
  let (user, password) := cutAt (· = ':') l
  (encoded keepsInUserInfo user, encoded keepsInUserInfo (password.drop 1))

def host? (scheme : Scheme) (l : List Char) : Option Host :=
  if scheme.isSpecial then Host.ofSpecial? l else Host.ofOpaque? l

/-- An authority from its text; `ends` tells that nothing stands behind it. A
user needs a host, and so does a port. -/
def authority? (scheme : Scheme) (l : List Char) (ends : Bool) : Option Authority := do
  let (user, rest) := cutUser l
  let (hostText, portText) := cutHost false rest
  let (username, password) := userInfo (user.getD [])
  let host ← host? scheme hostText
  let port ← port? scheme portText
  if hostText.isEmpty ∧
      (!username.isEmpty ∨ !password.isEmpty ∨ !portText.isEmpty ∨ (user = some [] ∧ !ends)) then none
  else some { username, password, host, port }

/-! ## The path -/

/-- A dot may be written in percent-encoding. -/
def dots : List Char → List Char
  | '%' :: '2' :: e :: rest => if e = 'e' ∨ e = 'E' then '.' :: dots rest else '%' :: '2' :: dots (e :: rest)
  | c :: rest => c :: dots rest
  | [] => []

/-- Walk from directory to directory: two dots lead back, one dot nowhere. -/
def walk (path : List String) : List (List Char) → List String
  | [] => path
  | segment :: rest =>
    let stay : List String := if rest.isEmpty then [""] else []
    if dots segment = ['.', '.'] then walk (path.dropLast ++ stay) rest
    else if dots segment = ['.'] then walk (path ++ stay) rest
    else walk (path ++ [encoded keepsInPath segment]) rest

/-- The segments of a path, with or without the slash in front. -/
def segments (special : Bool) (l : List Char) : List String :=
  walk [] (Text.pieces (isSlash special)
    (match l with
      | [] => []
      | c :: rest => if isSlash special c then rest else l))

/-- The path behind a host: empty, or a list of segments. -/
def hostPath (scheme : Scheme) (l : List Char) : UrlPath :=
  if l.isEmpty ∧ scheme.isSpecial = false then .segments [] else .segments (segments scheme.isSpecial l)

/-! ## The query and the fragment -/

def query? (scheme : Scheme) (l : List Char) : Option String :=
  match (cutAt (· = '#') l).1 with
  | '?' :: text => some (encoded (if scheme.isSpecial then keepsInSpecialQuery else keepsInQuery) text)
  | _ => none

def fragment? (l : List Char) : Option String :=
  match (cutAt (· = '#') l).2 with
  | _ :: text => some (encoded keepsInFragment text)
  | [] => none

/-- An address whose query and fragment are in the rest of its text. -/
def withTail (scheme : Scheme) (authority : Option Authority) (path : UrlPath) (tail : List Char) : Url :=
  { scheme, authority, path, query := query? scheme tail, fragment := fragment? tail }

/-! ## Whole addresses -/

/-- An address from the text behind the two slashes. -/
def afterSlashes? (scheme : Scheme) (l : List Char) : Option Url := do
  let (before, tail) := cutAt isQueryMark l
  let (authorityText, path) := cutAt (isSlash scheme.isSpecial) before
  let authority ← authority? scheme authorityText (path.isEmpty && tail.isEmpty)
  some (withTail scheme authority (hostPath scheme path) tail)

/-- The host of a file; the machine itself goes without a name. -/
def fileHost? (l : List Char) : Option Host :=
  if l.isEmpty then some (.name "")
  else (Host.ofSpecial? l).map fun h => if h = .name "localhost" then .name "" else h

/-- The path of a file begins with no empty segments. -/
def filePath (l : List Char) : List String :=
  let path := segments true l
  let kept := path.dropWhile String.isEmpty
  if kept.isEmpty then [""] else kept

/-- An address of a file, with its host behind two slashes. -/
def file? (l : List Char) : Option Url := do
  let (before, tail) := cutAt isQueryMark l
  match before with
  | a :: b :: rest =>
    if isSlash true a ∧ isSlash true b then
      let (hostText, path) := cutAt (isSlash true) rest
      let host ← fileHost? hostText
      some (withTail .file (some { host }) (.segments (filePath path)) tail)
    else some (withTail .file (some { host := .name "" }) (.segments (filePath before)) tail)
  | _ => some (withTail .file (some { host := .name "" }) (.segments (filePath before)) tail)

/-- An address of a scheme that is not special. -/
def plain? (scheme : Scheme) (l : List Char) : Option Url :=
  match l with
  | '/' :: '/' :: rest => afterSlashes? scheme rest
  | '/' :: _ =>
    let (before, tail) := cutAt isQueryMark l
    some (withTail scheme none (.segments (segments false before)) tail)
  | _ =>
    let (before, tail) := cutAt isQueryMark l
    some (withTail scheme none (.opaqueText (encoded keepsPrintable before)) tail)

def ofChars? (l : List Char) : Option Url := do
  let (scheme, rest) ← cutScheme? (cleaned l)
  match scheme with
  | .file => file? rest
  | .other _ => plain? scheme rest
  | _ => afterSlashes? scheme (rest.dropWhile (isSlash true))

/-- Read an address. -/
def ofText? (s : String) : Option Url := ofChars? s.toList

end HuntBoard.Url
