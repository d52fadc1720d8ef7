import Ascent.Json.Reader
import Ascent.Text.Pattern

/-!
Texts and keys in TOML.

A text stands in double quotes, with escapes, or in single quotes, without; tripled quotes let it go
on over several lines. A key is a bare word or a text on one line, or several of these with points
in between.

Main exports: `Toml.readQuoted?`, `Toml.readKey?`.
-/

namespace Ascent.Toml

open Text

/-- What a reader finds at the head of the characters, and what follows it. -/
abbrev Read (α : Type) := List Char → Option (α × List Char)

/-- Whether a character is a blank inside a line. -/
def isGap (c : Char) : Bool := c = ' ' || c = '\t'

/-- The characters after the blanks at their head. -/
def skipGap (cs : List Char) : List Char := cs.dropWhile isGap

/-- Whether a character may not stand in a line of text or in a comment. -/
def isIllegal (c : Char) : Bool := (c.toNat < 32 && c ≠ '\t') || c.toNat = 127

/-- Whether a character may not stand in a text of one line, or of several. -/
def isIllegalIn (lines : Bool) (c : Char) : Bool := isIllegal c && !(lines && c = '\n')

/-! ### Escapes -/

/-- The character whose number is written in hexadecimal at the head of the characters. -/
def hexChar? (width : Nat) (cs : List Char) : Option Char := do
  let digits ← (cs.take width).mapM Json.hexValue?
  let n := digits.foldl (fun n d => 16 * n + d) 0
  if digits.length = width && (n < 0xD800 || (0xE000 ≤ n && n < 0x110000)) then some (Char.ofNat n)
  else none

/-- The character that a one-letter escape stands for. -/
def escape? (c : Char) : Option Char :=
  if c = '"' || c = '\\' then some c
  else if c = 'b' then some (Char.ofNat 8)
  else if c = 't' then some '\t'
  else if c = 'n' then some '\n'
  else if c = 'f' then some (Char.ofNat 12)
  else if c = 'r' then some '\r'
  else none

/-- How many characters a line break takes after a backslash, with the blanks around it and the
empty lines that follow. -/
def breakSize? (cs : List Char) : Option Nat :=
  match skipGap cs with
  | '\n' :: rest =>
    some ((cs.takeWhile isGap).length + 1 + (rest.takeWhile fun c => isGap c || c = '\n').length)
  | _ => none

/-- What the characters after a backslash stand for, and how many of them. -/
def escaped? (lines : Bool) : Pattern (List Char)
  | [] => none
  | c :: rest =>
    if c = 'u' then (hexChar? 4 rest).map fun d => ([d], 5)
    else if c = 'U' then (hexChar? 8 rest).map fun d => ([d], 9)
    else if lines && (isGap c || c = '\n') then (breakSize? (c :: rest)).map fun size => ([], size)
    else (escape? c).map fun d => ([d], 1)

/-! ### Texts -/

/-- A text with escapes up to its closing quotes, after its first `skipped` characters. -/
def readEscapedFrom (lines : Bool) (skipped : Nat) : Read (List Char)
  | [] => none
  | c :: rest => match skipped with
    | n + 1 => readEscapedFrom lines n rest
    | 0 =>
      if c = '"' && (!lines || rest.take 2 = ['"', '"']) then
        some ([], rest.drop (if lines then 2 else 0))
      else if c = '\\' then match escaped? lines rest with
        | some (written, size) =>
          (readEscapedFrom lines size rest).map fun (text, rest) => (written ++ text, rest)
        | none => none
      else if isIllegalIn lines c then none
      else (readEscapedFrom lines 0 rest).map fun (text, rest) => (c :: text, rest)

/-- A text without escapes up to its closing quotes. -/
def readPlain (lines : Bool) : Read (List Char)
  | [] => none
  | c :: rest =>
    if c = '\'' && (!lines || rest.take 2 = ['\'', '\'']) then
      some ([], rest.drop (if lines then 2 else 0))
    else if isIllegalIn lines c then none
    else (readPlain lines rest).map fun (text, rest) => (c :: text, rest)

/-- A text after its opening quote, on one line. -/
def readLine? (quote : Char) : Read (List Char) :=
  if quote = '"' then readEscapedFrom false 0 else readPlain false

/-- A text after its opening quotes, on several lines. A line break right after them is not part of
it; up to two more quotes at its end are. -/
def readLines? (quote : Char) (cs : List Char) : Option (List Char × List Char) := do
  let cs := match cs with
    | '\n' :: rest => rest
    | cs => cs
  let (text, rest) ← if quote = '"' then readEscapedFrom true 0 cs else readPlain true cs
  let more := (rest.take 2).takeWhile (· = quote)
  some (text ++ more, rest.drop more.length)

/-- A text after its first opening quote; two more open one of several lines. -/
def readQuoted? (quote : Char) (cs : List Char) : Option (List Char × List Char) :=
  match dropStart? [quote, quote] cs with
  | some rest => readLines? quote rest
  | none => readLine? quote cs

/-! ### Keys -/

/-- Whether a character may stand in a bare key. -/
def isBareKeyChar (c : Char) : Bool := c.isAlphanum || c = '-' || c = '_'

/-- One part of a key. -/
def readKeyPart? : Read (List Char)
  | [] => none
  | c :: rest =>
    if c = '"' || c = '\'' then readLine? c rest
    else if isBareKeyChar c then
      some ((c :: rest).takeWhile isBareKeyChar, (c :: rest).dropWhile isBareKeyChar)
    else none

/-- A key of at most `parts` parts, with the blanks after it. -/
def readKeyParts? : Nat → Read (List String)
  | 0, _ => none
  | parts + 1, cs => do
    let (part, rest) ← readKeyPart? cs
    match skipGap rest with
    | '.' :: rest =>
      let (more, rest) ← readKeyParts? parts (skipGap rest)
      some (String.ofList part :: more, rest)
    | rest => some ([String.ofList part], rest)

/-- A key, with the blanks after it. -/
def readKey? : Read (List String) := fun cs => readKeyParts? (cs.length + 1) cs

end Ascent.Toml
