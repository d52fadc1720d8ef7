import Ascent.Pairs
import Ascent.Text.Basic
import Ascent.Text.Pattern

/-!
Tags: the bracketed commands that stand in a narrator's text, `[NAME: key=value key="a value"]`.

A tag begins with a bracket, a name of word characters and a colon, and ends at the next closing
bracket. Its arguments are keys of word characters and points, each with an equals sign and a value:
in double quotes, in single quotes, or bare up to a blank, a comma or a closing bracket. What does
not look like an argument is passed over; of arguments with one key the last counts.

Main exports: `Tag`, `Tag.readParams`, `Tag.findAll`, `Command`.
-/

namespace Ascent

open Text

/-- The arguments of a command: each key with its value, which may be missing. -/
abbrev Params := Pairs (Option String)

/-- A command for the engine. -/
structure Command where
  name : String
  params : Params := []
deriving DecidableEq, Repr

/-- A tag as it is written: its name in upper case, its arguments, and its text. -/
structure Tag where
  name : String
  params : Pairs String
  raw : String
deriving DecidableEq, Repr

namespace Tag

/-- Whether a character may stand in the key of an argument. -/
def isKeyChar (c : Char) : Bool := isWord c || c = '.'

/-- Whether a character may stand in a bare value. -/
def isBareChar (c : Char) : Bool := !(isBlank c || c = ',' || c = ']')

/-- A bare value and its length. -/
def bareValue : Pattern (List Char) := fun cs =>
  let value := cs.takeWhile isBareChar
  if value.isEmpty then none else some (value, value.length)

/-- A value in the given quotes and its length with them, where the text begins with one and another
one follows. -/
def quotedValue (quote : Char) : Pattern (List Char)
  | [] => none
  | c :: rest =>
    let value := rest.takeWhile (· ≠ quote)
    if c = quote && (rest.dropWhile (· ≠ quote)).head?.isSome then some (value, value.length + 2)
    else none

/-- A value: quoted if it can be read so, bare otherwise. -/
def paramValue : Pattern (List Char) := fun cs =>
  (quotedValue '"' cs).or ((quotedValue '\'' cs).or (bareValue cs))

/-- An argument: a key, an equals sign and a value, with blanks around the sign. -/
def param : Pattern (String × String) := fun cs =>
  let key := cs.takeWhile isKeyChar
  let afterKey := cs.dropWhile isKeyChar
  match afterKey.dropWhile isBlank with
  | '=' :: rest =>
    if key.isEmpty then none
    else (paramValue (rest.dropWhile isBlank)).map fun (value, size) =>
      ((String.ofList key, String.ofList value),
        key.length + (afterKey.takeWhile isBlank).length + 1 + (rest.takeWhile isBlank).length
          + size)
  | _ => none

/-- The arguments written in a text. -/
def readParams (cs : List Char) : Pairs String := Pairs.ofList (param.findAll cs)

/-- A tag at the head of the characters. -/
def tag : Pattern Tag
  | '[' :: rest =>
    let name := rest.takeWhile isWord
    match rest.dropWhile isWord with
    | ':' :: body =>
      let args := body.takeWhile (· ≠ ']')
      if name.isEmpty || (body.dropWhile (· ≠ ']')).isEmpty then none
      else
        let size := name.length + args.length + 3
        some (⟨String.ofList (upperChars name), readParams (trimChars args),
          String.ofList (('[' :: rest).take size)⟩, size)
    | _ => none
  | _ => none

/-- All tags of a text, in order. -/
def findAll (cs : List Char) : List Tag := tag.findAll cs

/-- The command that a tag gives. -/
def toCommand (t : Tag) : Command := ⟨t.name, t.params.map fun (key, value) => (key, some value)⟩

end Tag
end Ascent
