import Ascent.Text.Alphanumeric
import Ascent.Text.CaseTable

/-!
Lower, upper, title case and case folding.

Upper-casing and folding map each character on its own, so they distribute over concatenation
(`upperChars_append`, `foldChars_append`). Lower-casing looks around a capital sigma, which has a
form of its own at the end of a word.

Main exports: `lower`, `upper`, `fold`, `title`, `sameIgnoringCase`.
-/

namespace Ascent.Text

/-- The image of a character under runs, where one of them holds it. -/
def runImage? (runs : List CaseRun) (n : Nat) : Option Nat :=
  (runs.find? fun (first, last, step, _) => first ≤ n && n ≤ last && (n - first) % step == 0).map
    fun (first, _, _, image) => image + (n - first)

/-- The characters that a code point expands to, where it does. -/
def expansion? (expansions : List (Nat × List Nat)) (n : Nat) : Option (List Char) :=
  (expansions.lookup n).map (·.map Char.ofNat)

/-- The lower-case form of a character, out of context. -/
def lowerChar (c : Char) : List Char :=
  if c.toNat < 128 then [c.toLower]
  else if c.toNat = 0x130 then ['i', Char.ofNat 0x307]
  else [((runImage? lowerRuns c.toNat).map Char.ofNat).getD c]

/-- The upper-case form of a character. -/
def upperChar (c : Char) : List Char :=
  if c.toNat < 128 then [c.toUpper]
  else match expansion? upperExpansions c.toNat with
    | some cs => cs
    | none => [((runImage? upperRuns c.toNat).map Char.ofNat).getD c]

/-- The folded form of a character, equal for characters that differ in case only. -/
def foldChar (c : Char) : List Char :=
  if c.toNat < 128 then [c.toLower]
  else match expansion? foldExpansions c.toNat with
    | some cs => cs
    | none => match runImage? foldRuns c.toNat with
      | some n => [Char.ofNat n]
      | none => lowerChar c

/-- The form of a character that begins a title-case word. -/
def titleChar (c : Char) : List Char :=
  if c.toNat < 128 then [c.toUpper]
  else match expansion? titleExpansions c.toNat with
    | some cs => cs
    | none => match runImage? titleRuns c.toNat with
      | some n => [Char.ofNat n]
      | none => upperChar c

/-- Whether a character is a letter with a case. -/
def isCased (c : Char) : Bool :=
  if c.toNat < 128 then c.isAlpha else inRanges casedRanges c.toNat

/-- Whether a character is passed over when one asks where a word ends. -/
def isCaseIgnorable (c : Char) : Bool :=
  if c.toNat < 128 then ['\'', '.', ':', '^', Char.ofNat 96].contains c
  else inRanges caseIgnorableRanges c.toNat

/-- The lower-case form of a character between `before`, nearest first, and `after`: a capital sigma
at the end of a word takes its final form. -/
def lowerBetween (before : List Char) (c : Char) (after : List Char) : List Char :=
  if c.toNat = 0x3A3 then
    let follows := ((before.dropWhile isCaseIgnorable).head?.map isCased).getD false
    let ends := !((after.dropWhile isCaseIgnorable).head?.map isCased).getD false
    [Char.ofNat (if follows && ends then 0x3C2 else 0x3C3)]
  else lowerChar c

/-- The lower-case form of characters that follow `before`, nearest first. -/
def lowerAfter (before : List Char) : List Char → List Char
  | [] => []
  | c :: rest => lowerBetween before c rest ++ lowerAfter (c :: before) rest

/-- The lower-case form. -/
def lowerChars (cs : List Char) : List Char := lowerAfter [] cs

/-- The upper-case form. -/
def upperChars (cs : List Char) : List Char := cs.flatMap upperChar

/-- The folded form. -/
def foldChars (cs : List Char) : List Char := cs.flatMap foldChar

/-- The title-case form of characters that follow `before`, nearest first: the first letter of each
run of cased letters is a capital. -/
def titleAfter (before : List Char) : List Char → List Char
  | [] => []
  | c :: rest =>
    let within := (before.head?.map isCased).getD false
    (if within then lowerBetween before c rest else titleChar c) ++ titleAfter (c :: before) rest

/-- The lower-case form of a text. -/
def lower (s : String) : String := String.ofList (lowerChars s.toList)

/-- The upper-case form of a text. -/
def upper (s : String) : String := String.ofList (upperChars s.toList)

/-- The form of a text that is equal for texts that differ in case only. -/
def fold (s : String) : String := String.ofList (foldChars s.toList)

/-- The title-case form of a text. -/
def title (s : String) : String := String.ofList (titleAfter [] s.toList)

/-- Whether two texts differ in case at most. -/
def sameIgnoringCase (s t : String) : Bool := fold s == fold t

theorem upperChars_append (cs ds : List Char) :
    upperChars (cs ++ ds) = upperChars cs ++ upperChars ds := List.flatMap_append

theorem foldChars_append (cs ds : List Char) :
    foldChars (cs ++ ds) = foldChars cs ++ foldChars ds := List.flatMap_append

end Ascent.Text
