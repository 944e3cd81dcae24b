/-!
# Texts

A text is the list of its characters, so that scanners recurse on it and statements about it are
statements about lists. This module holds what every other one does with texts: taking them apart at
a character, putting them together again, cutting at a first occurrence, and changing every maximal
run of a class of characters.

## Main definitions

* `Pageloom.Text`: a text, with string literals as constants of the type.
* `Text.split`, `Text.join`: parts between separators; `Text.lines` for line feeds.
* `Text.trim` and its one-sided forms: dropping characters of a class at the ends.
* `Text.runs`: the maximal runs of a class; `Text.squeeze`: one character for each run.
* `Text.cut?`: what stands before and after the first occurrence of a text.
-/

namespace Pageloom

/-- A text is the list of its characters. -/
abbrev Text := List Char

instance : Coe String Text := ⟨String.toList⟩

namespace Text

/-! ### Taking apart and putting together -/

/-- The parts between the occurrences of `sep`: one part more than there are occurrences. -/
def split (sep : Char) : Text → List Text
  | [] => [[]]
  | c :: cs =>
    if c = sep then [] :: split sep cs
    else
      match split sep cs with
      | [] => [[c]]
      | part :: parts => (c :: part) :: parts

/-- The parts one after the other, with `sep` between neighbours. -/
def join (sep : Text) : List Text → Text
  | [] => []
  | [part] => part
  | part :: parts => part ++ sep ++ join sep parts

/-- The lines of a text, without their line feeds. A final line feed starts one more, empty line. -/
def lines (t : Text) : List Text := split '\n' t

/-- What is left of `t` behind `start`, if `t` begins with it. -/
def dropPrefix? : (start t : Text) → Option Text
  | [], t => some t
  | _ :: _, [] => none
  | p :: ps, c :: cs => if p = c then dropPrefix? ps cs else none

/-- Whether `t` begins with `start`. -/
def startsWith (start t : Text) : Bool := (dropPrefix? start t).isSome

/-- Whether `t` ends with `tail`. -/
def endsWith (tail t : Text) : Bool := startsWith tail.reverse t.reverse

/-- What stands before and behind the first occurrence of `needle`. -/
def cut? (needle : Text) : Text → Option (Text × Text)
  | [] => if needle = [] then some ([], []) else none
  | c :: cs =>
    match dropPrefix? needle (c :: cs) with
    | some rest => some ([], rest)
    | none => (cut? needle cs).map fun (before, rest) => (c :: before, rest)

/-- What stands before and behind the first character that satisfies `p`, which is the second of the
three parts. -/
def cutWhere? (p : Char → Bool) : Text → Option (Text × Char × Text)
  | [] => none
  | c :: cs =>
    if p c then some ([], c, cs)
    else (cutWhere? p cs).map fun (before, d, rest) => (c :: before, d, rest)

/-- Whether `needle` occurs in `t`. -/
def hasPart (needle t : Text) : Bool := (cut? needle t).isSome

/-! ### Classes of characters -/

/-- Drops characters of the class at the start. -/
def trimStart (p : Char → Bool) (t : Text) : Text := t.dropWhile p

/-- Drops characters of the class at the end. -/
def trimEnd (p : Char → Bool) (t : Text) : Text := (t.reverse.dropWhile p).reverse

/-- Drops characters of the class at both ends. -/
def trim (p : Char → Bool) (t : Text) : Text := trimEnd p (trimStart p t)

/-- The maximal runs of characters of the class, in order. -/
def runs (p : Char → Bool) : Text → List Text
  | [] => []
  | c :: cs =>
    if p c then
      match cs with
      | [] => [[c]]
      | d :: _ =>
        if p d then
          match runs p cs with
          | [] => [[c]]
          | run :: rest => (c :: run) :: rest
        else [c] :: runs p cs
    else runs p cs

/-- One `mark` in place of each maximal run of characters of the class. With `inside`, the text
continues a run that already has its mark. -/
def squeezeFrom (p : Char → Bool) (mark : Char) : (inside : Bool) → Text → Text
  | _, [] => []
  | inside, c :: cs =>
    if p c then
      if inside then squeezeFrom p mark true cs else mark :: squeezeFrom p mark true cs
    else c :: squeezeFrom p mark false cs

/-- One `mark` in place of each maximal run of characters of the class. -/
def squeeze (p : Char → Bool) (mark : Char) (t : Text) : Text := squeezeFrom p mark false t

/-! ### Replacement -/

/-- Replaces the occurrences of `old` from left to right; `skip` characters at the start belong to
an occurrence that is already replaced. -/
def replaceFrom (old new : Text) : (skip : Nat) → Text → Text
  | _, [] => []
  | 0, c :: cs =>
    if startsWith old (c :: cs) then new ++ replaceFrom old new (old.length - 1) cs
    else c :: replaceFrom old new 0 cs
  | n + 1, _ :: cs => replaceFrom old new n cs

/-- Every occurrence of `old`, from left to right and without overlaps, replaced by `new`. The empty
text occurs before every character and at the end. -/
def replace (old new t : Text) : Text :=
  if old = [] then new ++ (t.map fun c => c :: new).flatten else replaceFrom old new 0 t

/-- Every `old` replaced by `new`. -/
def replaceChar (old new : Char) (t : Text) : Text := t.map fun c => if c = old then new else c

/-- Carriage returns, alone or before a line feed, turned into line feeds. -/
def unifyBreaks : Text → Text
  | [] => []
  | '\r' :: '\n' :: cs => '\n' :: unifyBreaks cs
  | c :: cs => (if c = '\r' then '\n' else c) :: unifyBreaks cs

/-! ### Order and numbers -/

/-- Lexicographic order by character code. -/
def before : Text → Text → Bool
  | _, [] => false
  | [], _ :: _ => true
  | a :: as, b :: bs => if a = b then before as bs else a.toNat < b.toNat

/-- The decimal digits of a number. -/
def ofNat (n : Nat) : Text := Nat.toDigits 10 n

/-- The decimal digits of a number, with a minus sign before a negative one. -/
def ofInt : Int → Text
  | .ofNat n => ofNat n
  | .negSucc n => '-' :: ofNat (n + 1)

/-- The digits, with zeros in front up to the given width. -/
def padZeros (width : Nat) (digits : Text) : Text :=
  List.replicate (width - digits.length) '0' ++ digits

/-- The number of at least `width` hexadecimal digits, lower case. -/
def ofHex (width n : Nat) : Text := padZeros width (Nat.toDigits 16 n)

/-- The value of a hexadecimal digit of either case. -/
def hexValue? (c : Char) : Option Nat :=
  if c.isDigit then some (c.toNat - '0'.toNat)
  else if 'a' ≤ c && c ≤ 'f' then some (c.toNat - 'a'.toNat + 10)
  else if 'A' ≤ c && c ≤ 'F' then some (c.toNat - 'A'.toNat + 10)
  else none

/-- The number that digits with the given values spell in the given base. -/
def valueOf (base : Nat) (digits : List Nat) : Nat :=
  digits.foldl (fun n d => n * base + d) 0

/-- The number that ASCII decimal digits spell. -/
def natValue (digits : Text) : Nat := valueOf 10 (digits.map fun c => c.toNat - '0'.toNat)

end Text

end Pageloom
