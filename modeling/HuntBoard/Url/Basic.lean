-- Addresses of resources, and the text they are written as.
import HuntBoard.Url.Host

namespace HuntBoard

/-- Some schemes are special: their addresses always have a host and a path. -/
inductive Scheme where
  | http
  | https
  | ws
  | wss
  | ftp
  | file
  | other (name : String)
  deriving DecidableEq

namespace Scheme

def text : Scheme → String
  | http => "http"
  | https => "https"
  | ws => "ws"
  | wss => "wss"
  | ftp => "ftp"
  | file => "file"
  | other name => name

/-- A scheme by its name in lower case. -/
def ofName (s : String) : Scheme :=
  match [http, https, ws, wss, ftp, file].find? (·.text = s) with
  | some scheme => scheme
  | none => other s

def isSpecial : Scheme → Bool
  | other _ => false
  | _ => true

/-- The port that is meant where none is named. -/
def usualPort? : Scheme → Option Nat
  | http | ws => some 80
  | https | wss => some 443
  | ftp => some 21
  | file | other _ => none

end Scheme

/-- A path is a list of segments, or a text that means something to its scheme only. -/
inductive UrlPath where
  | segments (l : List String)
  | opaqueText (s : String)
  deriving DecidableEq

/-- The host of an address, with the user and the port there. -/
structure Authority where
  username : String := ""
  password : String := ""
  host : Host
  /-- A port other than the usual one. -/
  port : Option Nat := none
  deriving DecidableEq

structure Url where
  scheme : Scheme
  authority : Option Authority := none
  path : UrlPath := .segments []
  query : Option String := none
  fragment : Option String := none
  deriving DecidableEq

namespace Authority

/-- The user, in front of the host. -/
def userChars (a : Authority) : List Char :=
  if a.username.isEmpty && a.password.isEmpty then []
  else
    a.username.toList ++ (if a.password.isEmpty then [] else ':' :: a.password.toList) ++ ['@']

def portChars (a : Authority) : List Char :=
  match a.port with
  | some n => ':' :: (toString n).toList
  | none => []

def chars (a : Authority) : List Char := a.userChars ++ a.host.chars ++ a.portChars

end Authority

namespace Url

def segmentChars (l : List String) : List Char := l.flatMap fun s => '/' :: s.toList

/-- Without a host, a path may not begin with two slashes: a dot keeps them apart. -/
def pathChars (u : Url) : List Char :=
  match u.path with
  | .opaqueText s => s.toList
  | .segments l =>
    if u.authority.isNone ∧ l.head? = some "" ∧ 1 < l.length then '/' :: '.' :: segmentChars l
    else segmentChars l

def authorityChars (u : Url) : List Char :=
  match u.authority with
  | some a => '/' :: '/' :: a.chars
  | none => []

def afterMark (mark : Char) : Option String → List Char
  | some s => mark :: s.toList
  | none => []

def chars (u : Url) : List Char :=
  u.scheme.text.toList ++ [':'] ++ u.authorityChars ++ u.pathChars ++ afterMark '?' u.query ++
    afterMark '#' u.fragment

/-- The address as it is written. -/
def text (u : Url) : String := String.ofList u.chars

end Url

end HuntBoard
