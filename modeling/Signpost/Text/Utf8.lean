/-!
Characters as UTF-8 bytes, and reading bytes that may be broken: every maximal broken stretch
becomes one replacement character.
-/

namespace Signpost.Utf8

def encode (s : List Char) : List UInt8 := s.flatMap String.utf8EncodeChar

/-- What stands in for bytes that spell no character. -/
def replacement : Char := Char.ofNat 0xFFFD

/-- After a leading byte: how many bytes must follow, and the range of the first of them. The
narrowed ranges exclude overlong forms, surrogates and numbers past the last character. -/
def tailAfter? (lead : UInt8) : Option (Nat × UInt8 × UInt8) :=
  if lead < 0xC2 then none
  else if lead < 0xE0 then some (1, 0x80, 0xBF)
  else if lead = 0xE0 then some (2, 0xA0, 0xBF)
  else if lead = 0xED then some (2, 0x80, 0x9F)
  else if lead < 0xF0 then some (2, 0x80, 0xBF)
  else if lead = 0xF0 then some (3, 0x90, 0xBF)
  else if lead < 0xF4 then some (3, 0x80, 0xBF)
  else if lead = 0xF4 then some (3, 0x80, 0x8F)
  else none

/-- The longest run of at most `n` continuation bytes in front, the first within `low` and
`high`. -/
def takeTail : Nat → UInt8 → UInt8 → List UInt8 → List UInt8
  | n + 1, low, high, b :: bytes =>
    if low ≤ b ∧ b ≤ high then b :: takeTail n 0x80 0xBF bytes else []
  | _, _, _, _ => []

def assemble (lead : UInt8) (tail : List UInt8) : Nat :=
  tail.foldl (fun n b => n * 64 + b.toNat % 64) (lead.toNat % Nat.pow 2 (6 - tail.length))

/-- Reads UTF-8; a leading byte without its whole tail becomes, together with the part of the tail
that is there, one replacement character. -/
def decodeLossy : List UInt8 → List Char
  | [] => []
  | lead :: bytes =>
    if lead < 0x80 then Char.ofNat lead.toNat :: decodeLossy bytes
    else
      match tailAfter? lead with
      | none => replacement :: decodeLossy bytes
      | some (n, low, high) =>
        let tail := takeTail n low high bytes
        if tail.length = n then Char.ofNat (assemble lead tail) :: decodeLossy (bytes.drop n)
        else replacement :: decodeLossy (bytes.drop tail.length)
termination_by bytes => bytes.length
decreasing_by all_goals simp only [List.length_cons, List.length_drop]; omega

/-- Reads UTF-8 without repair: `none` if any byte is out of place. -/
def decode? (bytes : List UInt8) : Option (List Char) :=
  let text := decodeLossy bytes
  if encode text = bytes then some text else none

end Signpost.Utf8
