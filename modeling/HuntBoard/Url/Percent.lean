-- Percent-encoding: characters that may not stand for themselves are written
-- as the bytes of their UTF-8 form, each in two hexadecimal digits.
import HuntBoard.Text.Digits

namespace HuntBoard.Url

def percentByte (b : UInt8) : List Char :=
  ['%', Text.upperHexDigit (b.toNat / 16), Text.upperHexDigit (b.toNat % 16)]

/-- A character as it is, or in percent-encoding. -/
def percentChar (keeps : Char → Bool) (c : Char) : List Char :=
  if keeps c then [c] else (String.utf8EncodeChar c).flatMap percentByte

def percentEncode (keeps : Char → Bool) (l : List Char) : List Char := l.flatMap (percentChar keeps)

/-! ## Which characters stand for themselves -/

/-- Characters of ASCII that can be printed, the space included. -/
def keepsPrintable (c : Char) : Bool := 0x20 ≤ c.toNat && c.toNat < 0x7F

def keepsInFragment (c : Char) : Bool := keepsPrintable c && !(" \"<>`".toList.contains c)

def keepsInPath (c : Char) : Bool := keepsInFragment c && !("#?\x7b\x7d".toList.contains c)

def keepsInUserInfo (c : Char) : Bool := keepsInPath c && !("/:;=@[\\]^|".toList.contains c)

def keepsInQuery (c : Char) : Bool := keepsPrintable c && !(" \"#<>".toList.contains c)

/-- In the query of a special address, also the quote is encoded. -/
def keepsInSpecialQuery (c : Char) : Bool := keepsInQuery c && c != '\''

/-! ## Decoding -/

/-- The bytes of a text, with percent-encoding undone; a sign that no two
hexadecimal digits follow stands for itself. -/
def percentDecode : List Char → List UInt8
  | [] => []
  | '%' :: a :: b :: rest =>
    match Text.hexDigit? a, Text.hexDigit? b with
    | some m, some n => UInt8.ofNat (16 * m + n) :: percentDecode rest
    | _, _ => 0x25 :: percentDecode (a :: b :: rest)
  | c :: rest => String.utf8EncodeChar c ++ percentDecode rest

end HuntBoard.Url
