import Pageloom.Text.CaseTable

/-!
# Letter case

Lower, upper and capitalized texts by the full mappings of Unicode: one character may become several
(`ß` in upper case is `SS`), and a capital sigma at the end of a word becomes the final sigma.

## Main definitions

* `Pageloom.lowerChar`: one character to one character, for comparisons that ignore case.
* `Text.lower`, `Text.upper`, `Text.capitalize`.
* `Text.dropWord?`: an ASCII word in any case at the start of a text.
-/

namespace Pageloom

/-- The lower case of a character as a single character. -/
def lowerChar (c : Char) : Char :=
  if c.toNat < 128 then c.toLower
  else if c.toNat = 0x130 then 'i'
  else match CaseRun.find? c.toNat lowerRuns with
    | some n => Char.ofNat n
    | none => c

/-- The lower case of a character outside the context of a final sigma. -/
def lowerFull (c : Char) : Text :=
  if c.toNat = 0x130 then [Char.ofNat 0x69, Char.ofNat 0x307] else [lowerChar c]

/-- The upper case of a character. -/
def upperFull (c : Char) : Text :=
  if c.toNat < 128 then [c.toUpper]
  else match upperSpecials.lookup c.toNat with
    | some codes => codes.map Char.ofNat
    | none =>
      match CaseRun.find? c.toNat upperRuns with
      | some n => [Char.ofNat n]
      | none => [c]

/-- The form of a character at the start of a capitalized word. -/
def titleFull (c : Char) : Text :=
  if c.toNat < 128 then [c.toUpper]
  else match titleSpecials.lookup c.toNat with
    | some codes => codes.map Char.ofNat
    | none => upperFull c

/-- Whether an odd number of the ascending `borders` lies at or below the code of `c`. -/
private def between (borders : List Nat) (c : Char) : Bool :=
  (borders.takeWhile (· ≤ c.toNat)).length % 2 == 1

/-- Letters that have case. -/
def isCased (c : Char) : Bool := between casedBorders c

/-- Characters that are passed over when the letters around a sigma are looked for. -/
def isCaseIgnorable (c : Char) : Bool := between caseIgnorableBorders c

namespace Text

/-- Whether the first character that is not passed over has case. -/
def opensCased (t : Text) : Bool :=
  match t.dropWhile isCaseIgnorable with
  | [] => false
  | c :: _ => isCased c

/-- The lower case of a text that follows other text; `afterCased` tells whether the last character
there that is not passed over has case. -/
def lowerFrom (afterCased : Bool) : Text → Text
  | [] => []
  | c :: cs =>
    let image :=
      if c.toNat = 0x3A3 then [Char.ofNat (if afterCased && !opensCased cs then 0x3C2 else 0x3C3)]
      else lowerFull c
    image ++ lowerFrom (if isCaseIgnorable c then afterCased else isCased c) cs

/-- The lower case of a text. -/
def lower (t : Text) : Text := lowerFrom false t

/-- The upper case of a text. -/
def upper (t : Text) : Text := (t.map upperFull).flatten

/-- The first character in title case, the others in lower case. -/
def capitalize : Text → Text
  | [] => []
  | c :: cs => titleFull c ++ lowerFrom (if isCaseIgnorable c then false else isCased c) cs

/-- The lower case of the letters A to Z, other characters as they are. -/
def lowerAscii (t : Text) : Text := t.map Char.toLower

/-- Whether a character is a form of the lower-case ASCII letter `letter` when case is ignored. The
long s, the dotted capital I and the dotless i count as forms of theirs, and the Kelvin sign as a
form of k. -/
def isFormOf (letter c : Char) : Bool :=
  c == letter || c.toLower == letter || (letter == 's' && c.toNat == 0x17F) ||
    (letter == 'i' && (c.toNat == 0x130 || c.toNat == 0x131)) ||
    (letter == 'k' && c.toNat == 0x212A)

/-- What is left of `t` behind the lower-case ASCII `word`, if `t` begins with it in any case; first
comes the spelling found. -/
def dropWord? : (word t : Text) → Option (Text × Text)
  | [], t => some ([], t)
  | _ :: _, [] => none
  | w :: ws, c :: cs =>
    if isFormOf w c then (dropWord? ws cs).map fun (spelling, rest) => (c :: spelling, rest)
    else none

end Text

end Pageloom
