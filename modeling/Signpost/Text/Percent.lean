import Signpost.Text.Slice
import Signpost.Text.Utf8

/-!
The URL codec of parameter values. `encode` writes every character outside the unreserved set
as percent escapes of its UTF-8 bytes; `decode` reads `+` as a blank and expands escapes, keeping
a percent sign that starts no escape. Query strings are read with the same codec.
-/

namespace Signpost.Percent

/-- Characters that stand for themselves in an encoded value. -/
def isUnreserved (c : Char) : Bool :=
  ('A' ≤ c && c ≤ 'Z') || ('a' ≤ c && c ≤ 'z') || ('0' ≤ c && c ≤ '9') ||
    c == '-' || c == '_' || c == '.' || c == '~'

def hexDigit (n : Nat) : Char := Char.ofNat (if n < 10 then 0x30 + n else 0x37 + n)

def hexValue? (c : Char) : Option Nat :=
  if '0' ≤ c ∧ c ≤ '9' then some (c.toNat - 0x30)
  else if 'A' ≤ c ∧ c ≤ 'F' then some (c.toNat - 0x37)
  else if 'a' ≤ c ∧ c ≤ 'f' then some (c.toNat - 0x57)
  else none

/-- A byte written as `%HH`. -/
def escapeByte (b : UInt8) : List Char := ['%', hexDigit (b.toNat / 16), hexDigit (b.toNat % 16)]

def encodeChar (c : Char) : List Char :=
  if isUnreserved c then [c] else (String.utf8EncodeChar c).flatMap escapeByte

def encodeChars (s : List Char) : List Char := s.flatMap encodeChar

def bytes : List Char → List UInt8
  | [] => []
  | '%' :: a :: b :: s =>
    match hexValue? a, hexValue? b with
    | some high, some low => UInt8.ofNat (high * 16 + low) :: bytes s
    | _, _ => 0x25 :: bytes (a :: b :: s)
  | '+' :: s => 0x20 :: bytes s
  | c :: s => String.utf8EncodeChar c ++ bytes s

/-- The text an encoded text stands for; bytes that are not UTF-8 are replaced. -/
def decodeChars (s : List Char) : List Char := Utf8.decodeLossy (bytes s)

/-- A parameter value as it is put into a URL. -/
def encode (value : String) : String := String.ofList (encodeChars value.toList)

/-- A parameter value as it is read out of a URL. -/
def decode (value : String) : String := String.ofList (decodeChars value.toList)

/-- The key/value pairs of a query string: parts between `&`, empty ones skipped, each cut at its
first `=`. -/
def queryPairs (query : List Char) : List (String × String) :=
  ((Text.splitAll '&' query).filter (· ≠ [])).map fun part =>
    let (key, value) := (Text.cutAt? '=' part).getD (part, [])
    (String.ofList (decodeChars key), String.ofList (decodeChars value))

end Signpost.Percent
