import Signpost.Text.Percent
import Signpost.Text.Slice

/-!
Numbers, dates and times of TOML: which words are some. Whole numbers must fit into 64 bits with a
sign, and decimal fractions must not be too large for a floating-point number of that size.
-/

namespace Signpost.Toml

/-- Groups of digits set off by underscores. -/
def isGrouped (isDigit : Char → Bool) (s : List Char) : Bool :=
  (Text.splitAll '_' s).all fun part => part != [] && part.all isDigit

def unsigned : List Char → List Char
  | '+' :: s | '-' :: s => s
  | s => s

/-- The number that digits of a base spell; underscores do not count. -/
def valueIn (base : Nat) (s : List Char) : Nat :=
  s.foldl (fun n c => match Percent.hexValue? c with
    | some d => n * base + d
    | none => n) 0

/-- Grouped decimal digits without a leading zero. -/
def isDecimal (s : List Char) : Bool :=
  isGrouped Char.isDigit s && (s == ['0'] || s.head? != some '0')

def isDigitBelow (base : Nat) (c : Char) : Bool := c.isDigit && c.toNat < '0'.toNat + base

/-- A whole number: decimal with or without a sign, or in base 16, 8 or 2 without one. -/
def isInteger (s : List Char) : Bool :=
  match s with
  | '0' :: 'x' :: t =>
    isGrouped (fun c => (Percent.hexValue? c).isSome) t && valueIn 16 t < 0x8000000000000000
  | '0' :: 'o' :: t => isGrouped (isDigitBelow 8) t && valueIn 8 t < 0x8000000000000000
  | '0' :: 'b' :: t => isGrouped (isDigitBelow 2) t && valueIn 2 t < 0x8000000000000000
  | '-' :: t => isDecimal t && valueIn 10 t ≤ 0x8000000000000000
  | t => isDecimal (unsigned t) && valueIn 10 (unsigned t) < 0x8000000000000000

/-- The parts of a decimal fraction without its sign: whole digits, digits behind the point, and the
exponent with its sign. -/
structure Fraction where
  whole : List Char
  decimals : Option (List Char)
  exponent : Option (List Char)

namespace Fraction

def ofWord (s : List Char) : Fraction :=
  let mantissa := s.takeWhile fun c => c != 'e' && c != 'E'
  let exponent :=
    match s.dropWhile fun c => c != 'e' && c != 'E' with
    | _ :: e => some e
    | [] => none
  match Text.cutAt? '.' mantissa with
  | some (whole, decimals) => ⟨whole, some decimals, exponent⟩
  | none => ⟨mantissa, none, exponent⟩

def isValid (f : Fraction) : Bool :=
  isDecimal f.whole && f.decimals.all (isGrouped Char.isDigit) &&
    f.exponent.all (fun e => isGrouped Char.isDigit (unsigned e)) &&
    (f.decimals.isSome || f.exponent.isSome)

/-- The least number that is rounded to infinity. -/
def bound : Nat := Nat.pow 2 1024 - Nat.pow 2 970

def isTooLarge (f : Fraction) : Bool :=
  let decimals := f.decimals.getD []
  let digits := valueIn 10 (f.whole ++ decimals)
  let exponent := f.exponent.getD []
  let size := valueIn 10 (unsigned exponent)
  let places := (decimals.filter Char.isDigit).length
  if digits = 0 then false
  else if exponent.head? = some '-' then bound * Nat.pow 10 (places + min size 1000000) ≤ digits
  else if places + 400 < size then true
  else bound * Nat.pow 10 places ≤ digits * Nat.pow 10 size

end Fraction

/-- A decimal fraction, or infinity or no number, with or without a sign. -/
def isFloat (s : List Char) : Bool :=
  let t := unsigned s
  t == "inf".toList || t == "nan".toList ||
    let f := Fraction.ofWord t
    f.isValid && (s.head? == some '-' || !f.isTooLarge)

/-! ### Dates and times -/

def digits? (n : Nat) (s : List Char) : Option Nat :=
  if s.length = n && s.all Char.isDigit then some (valueIn 10 s) else none

def isLeapYear (year : Nat) : Bool := year % 4 == 0 && (year % 100 != 0 || year % 400 == 0)

def daysIn (year month : Nat) : Nat :=
  if month = 2 then if isLeapYear year then 29 else 28
  else if month = 4 ∨ month = 6 ∨ month = 9 ∨ month = 11 then 30
  else 31

def isDate (s : List Char) : Bool :=
  match Text.splitAll '-' s with
  | [y, m, d] =>
    match digits? 4 y, digits? 2 m, digits? 2 d with
    | some year, some month, some day =>
      1 ≤ month && month ≤ 12 && 1 ≤ day && day ≤ daysIn year month
    | _, _, _ => false
  | _ => false

/-- Two digits up to a largest number. -/
def isUpTo (largest : Nat) (s : List Char) : Bool := (digits? 2 s).any (· ≤ largest)

/-- A time: hours, minutes, and seconds with or without a fraction. A minute may have a leap
second. -/
def isTime (s : List Char) : Bool :=
  match Text.splitAll ':' s with
  | [h, m, t] =>
    let (seconds, fraction) := (Text.cutAt? '.' t).getD (t, ['0'])
    isUpTo 23 h && isUpTo 59 m && isUpTo 60 seconds && fraction != [] && fraction.all Char.isDigit
  | _ => false

/-- The distance of a local time from universal time: hours and minutes. -/
def isOffset (s : List Char) : Bool :=
  match Text.splitAll ':' s with
  | [h, m] => isUpTo 23 h && isUpTo 59 m
  | _ => false

/-- A time with or without its distance from universal time. -/
def isTimeWithOffset (s : List Char) : Bool :=
  let time := s.takeWhile fun c => c != '+' && c != '-' && c != 'Z' && c != 'z'
  isTime time &&
    match s.drop time.length with
    | [] | ['Z'] | ['z'] => true
    | '+' :: offset | '-' :: offset => isOffset offset
    | _ => false

def isDateTime (s : List Char) : Bool :=
  isDate s || isTime s ||
    isDate (s.take 10) && (s[10]?.any fun c => c == 'T' || c == 't') && isTimeWithOffset (s.drop 11)

def isNumberChar (c : Char) : Bool :=
  c.isAlphanum || c == '_' || c == '+' || c == '-' || c == '.' || c == ':'

/-- The text behind a number, date or time. Between a date and a time there may be a blank. -/
def skipNumber? (s : List Char) : Option (List Char) :=
  let word := s.takeWhile isNumberChar
  match s.dropWhile isNumberChar with
  | ' ' :: d :: s =>
    if isDate word && d.isDigit then
      let rest := d :: s
      if isTimeWithOffset (rest.takeWhile isNumberChar) then some (rest.dropWhile isNumberChar)
      else none
    else if isInteger word || isFloat word || isDateTime word then some (' ' :: d :: s)
    else none
  | rest => if isInteger word || isFloat word || isDateTime word then some rest else none

end Signpost.Toml
