import Signpost.Text.Percent
import Signpost.Yaml.Character

/-!
What can stand before a node or a document: anchors, tags and directives. Of a tag only its handle
matters, which must be known.
-/

namespace Signpost.Yaml

/-! ### Anchors -/

/-- Whether the name of an anchor or alias may end here. -/
def endsName : List Char → Bool
  | [] => true
  | c :: _ => !isWordPart c || "?:,]\x7d%@\x60".toList.contains c

def readName (p : Place) (s : List Char) : Option (Reading String) :=
  let name := s.takeWhile isNameChar
  let rest := s.dropWhile isNameChar
  if name = [] || !endsName rest then none
  else some ⟨String.ofList name, rest, p.right name.length⟩

/-! ### Tags -/

def isTagChar (verbatim : Bool) (c : Char) : Bool :=
  isNameChar c || ";/?:@&=+$.!~*'()".toList.contains c || verbatim && ",[]".toList.contains c

/-- How many bytes a character has whose first byte is this. -/
def escapeWidth? (byte : Nat) : Option Nat :=
  if byte < 0x80 then some 1
  else if byte < 0xC0 then none
  else if byte < 0xE0 then some 2
  else if byte < 0xF0 then some 3
  else if byte < 0xF8 then some 4
  else none

/-- Passes `n` bytes in escaped form that continue a character. -/
def skipTail? : (n : Nat) → List Char → Option (List Char)
  | 0, s => some s
  | n + 1, '%' :: a :: b :: s =>
    match Percent.hexValue? a, Percent.hexValue? b with
    | some a, some _ => if 8 ≤ a ∧ a < 12 then skipTail? n s else none
    | _, _ => none
  | _ + 1, _ => none

/-- Passes a character in escaped form, from behind the first percent sign. -/
def skipEscape? : List Char → Option (List Char)
  | a :: b :: s =>
    match Percent.hexValue? a, Percent.hexValue? b with
    | some a, some b => (escapeWidth? (a * 16 + b)).bind fun n => skipTail? (n - 1) s
    | _, _ => none
  | _ => none

theorem length_skipTail? {n : Nat} {s rest : List Char} (h : skipTail? n s = some rest) :
    rest.length ≤ s.length := by
  fun_induction skipTail? n s with
  | case1 => cases h; exact Nat.le_refl _
  | case2 n a b s x hx _ _ _ ih =>
    have := ih h
    simp only [List.length_cons]
    omega
  | case3 => cases h
  | case4 => cases h
  | case5 => cases h

theorem length_skipEscape? {s rest : List Char} (h : skipEscape? s = some rest) :
    rest.length ≤ s.length := by
  unfold skipEscape? at h
  split at h
  · split at h
    · obtain ⟨n, _, h⟩ := Option.bind_eq_some_iff.mp h
      have := length_skipTail? h
      simp only [List.length_cons]
      omega
    · cases h
  · cases h

/-- Passes the characters of a tag; the text behind, or `none` if an escape is broken. -/
def skipTag? (verbatim : Bool) (s : List Char) : Option (List Char) :=
  match s with
  | [] => some []
  | c :: s =>
    if c = '%' then
      match h : skipEscape? s with
      | none => none
      | some rest =>
        have := length_skipEscape? h
        skipTag? verbatim rest
    else if isTagChar verbatim c then skipTag? verbatim s
    else some (c :: s)
termination_by s.length
decreasing_by all_goals simp only [List.length_cons]; omega

/-- The handle of a tag and the text behind the whole tag, from behind the first exclamation mark.
The handle is empty if the tag is written out or nothing but the mark. -/
def readHandle (s : List Char) : Option (String × List Char) :=
  match s with
  | '<' :: s =>
    match skipTag? true s with
    | some ('>' :: rest) => if s.head? = some '>' then none else some ("", rest)
    | _ => none
  | _ =>
    let name := s.takeWhile isNameChar
    match s.dropWhile isNameChar with
    | '!' :: suffix =>
      (skipTag? false suffix).bind fun rest =>
        if rest.length = suffix.length then none
        else some (String.ofList ('!' :: (name ++ ['!'])), rest)
    | _ => (skipTag? false s).map fun rest => (if rest.length = s.length then "" else "!", rest)

def readTag (inFlow : Bool) (p : Place) (s : List Char) : Option (Reading String) :=
  (readHandle s).bind fun (handle, rest) =>
    if atGap rest || inFlow && rest.head? = some ',' then
      some ⟨handle, rest, p.right (s.length - rest.length)⟩
    else none

/-! ### Directives -/

/-- What a directive says: the version of the format, or a handle for tags. -/
inductive Directive where
  | version (major minor : Nat)
  | handle (name : String)
  deriving DecidableEq, Repr

/-- Reads a number of at most nine digits. -/
def readVersionNumber (s : List Char) : Option (Nat × List Char) :=
  let digits := s.takeWhile Char.isDigit
  if digits = [] || 9 < digits.length then none
  else some (digits.foldl (fun n c => n * 10 + (c.toNat - '0'.toNat)) 0, s.dropWhile Char.isDigit)

def readVersion (s : List Char) : Option (Directive × List Char) :=
  (readVersionNumber (s.dropWhile isBlank)).bind fun (major, s) =>
    match s with
    | '.' :: s => (readVersionNumber s).map fun (minor, rest) => (.version major minor, rest)
    | _ => none

/-- Reads what stands behind the name of a handle directive: a handle and the beginning of the tags
that it stands for. -/
def readHandleDirective (s : List Char) : Option (Directive × List Char) :=
  match s.dropWhile isBlank with
  | '!' :: s =>
    let name := s.takeWhile isNameChar
    let handle? : Option (String × List Char) :=
      match s.dropWhile isNameChar with
      | '!' :: rest => some (String.ofList ('!' :: (name ++ ['!'])), rest)
      | rest => if name = [] then some ("!", rest) else none
    handle?.bind fun (handle, rest) =>
      let start := rest.dropWhile isBlank
      if start.length = rest.length then none
      else
        (skipTag? true start).bind fun rest =>
          if rest.length = start.length || !atGap rest then none else some (.handle handle, rest)
  | _ => none

def readDirective (p : Place) (s : List Char) : Option (Reading Directive) :=
  let name := s.takeWhile isNameChar
  let body := s.dropWhile isNameChar
  if !atGap body then none
  else
    let directive? :=
      match String.ofList name with
      | "YAML" => readVersion body
      | "TAG" => readHandleDirective body
      | _ => none
    directive?.bind fun (d, rest) =>
      let rest := rest.dropWhile isBlank
      let rest :=
        match rest with
        | '#' :: _ => rest.dropWhile (!isBreak ·)
        | _ => rest
      match rest with
      | [] => some ⟨d, [], p.right s.length⟩
      | c :: rest => if isBreak c then some ⟨d, rest, p.nextLine⟩ else none

end Signpost.Yaml
