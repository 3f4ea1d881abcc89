import Signpost.Route.Basic
import Signpost.Unicode.Category

/-!
A route as a line of text that shows all that it holds, for logs. Texts stand between quotation
marks: marks, backslashes and control characters are escaped, and so is what does not show or
clings to the character before it.
-/

namespace Signpost.Quoted

/-- The digits of a number in base 16, lower case, without leading zeros. -/
def hexDigits (n : Nat) : List Char := Nat.toDigits 16 n

def quoteChar (c : Char) : List Char :=
  match c with
  | '\x00' => ['\\', '0']
  | '\t' => ['\\', 't']
  | '\r' => ['\\', 'r']
  | '\n' => ['\\', 'n']
  | '"' => ['\\', '"']
  | '\\' => ['\\', '\\']
  | _ =>
    if Unicode.isPrintable c && !Unicode.isGraphemeExtender c then [c]
    else "\\u\x7b".toList ++ hexDigits c.toNat ++ ['\x7d']

def quote (s : String) : String := String.ofList ('"' :: (s.toList.flatMap quoteChar ++ ['"']))

def list (items : List String) : String := "[" ++ ", ".intercalate items ++ "]"

/-- Keys and values between braces, set off by commas. -/
def record (fields : List (String × String)) : String :=
  "\x7b" ++ ", ".intercalate (fields.map fun (k, v) => k ++ ": " ++ v) ++ "\x7d"

/-- Named fields between braces with blanks inside, behind the name of their type. -/
def fields (type : String) (fields : List (String × String)) : String :=
  type ++ " \x7b " ++ ", ".intercalate (fields.map fun (k, v) => k ++ ": " ++ v) ++ " \x7d"

end Signpost.Quoted

namespace Signpost.Route

def displayText (s : List Char) : String := Quoted.quote (String.ofList s)

def displayParams (p : Params) : String :=
  Quoted.record (p.toList.map fun (k, v) => (Quoted.quote k, Quoted.quote v))

def displayGroup (g : OptionalGroup) : String :=
  Quoted.fields "OptionalSegment"
    [("segment", displayText g.text), ("prefix", displayText g.before),
      ("suffix", displayText g.after)]

/-- A route by its parts; of hooks only whether there is one. -/
def display (r : Route) : String :=
  let pattern := match r.template.regex with
    | some regex => "Some(" ++ displayText regex.source ++ ")"
    | none => "None"
  Quoted.fields "Route"
    [("name", Quoted.quote r.name),
      ("template", displayText r.template.text),
      ("pattern", pattern),
      ("named_params",
        Quoted.record (r.template.tokens.map fun t => (Quoted.quote t.name, displayText t.text))),
      ("optional_params",
        Quoted.record (r.template.groups.map fun g =>
          (Quoted.quote g.token.name, displayGroup g))),
      ("default_params", displayParams r.defaults),
      ("method_params",
        Quoted.record (r.overrides.toList.map fun (m, p) => (Quoted.quote m, displayParams p))),
      ("condition", toString r.condition.isSome),
      ("callback", toString r.callback.isSome)]

end Signpost.Route
