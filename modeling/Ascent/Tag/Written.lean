import Ascent.Tag

/-!
Tags as a narrator writes them.

A tag is a name in capitals and its arguments, in brackets. An argument is a key and a value, and
the value stands in double quotes, in single quotes, or bare where it can. Blanks and commas part
the arguments of a tag, and any text without an opening bracket stands around the tags.

Main exports: `Quoting`, `WrittenParam`, `WrittenTag`, `TaggedText`, `TaggedText.text`.
-/

namespace Ascent

open Text

/-- How the value of an argument is written. -/
inductive Quoting where
  | double
  | single
  | bare
deriving DecidableEq, Repr

namespace Quoting

/-- Whether a value can be written so. A closing bracket ends the tag, so no value holds one. -/
def admits (q : Quoting) (value : List Char) : Bool :=
  !value.contains ']' && match q with
    | .double => !value.contains '"'
    | .single => !value.contains '\''
    | .bare => !value.isEmpty && value.all (fun c => !(isBlank c || c = ',')) &&
        value.head? ≠ some '"' && value.head? ≠ some '\''

/-- A value as it is written. -/
def write : Quoting → List Char → List Char
  | .double, value => '"' :: (value ++ ['"'])
  | .single, value => '\'' :: (value ++ ['\''])
  | .bare, value => value

end Quoting

/-- An argument as it is written. -/
structure WrittenParam where
  key : String
  value : String
  quoting : Quoting
  keyed : key ≠ ""
  plain : ∀ c ∈ key.toList, Tag.isKeyChar c
  admitted : quoting.admits value.toList

/-- The characters of an argument. -/
def WrittenParam.chars (p : WrittenParam) : List Char :=
  p.key.toList ++ '=' :: p.quoting.write p.value.toList

/-- What parts two arguments: blanks and commas, at least one of them. -/
structure Gap where
  chars : List Char
  nonempty : chars ≠ []
  parting : ∀ c ∈ chars, isBlank c ∨ c = ','

/-- Arguments one after another, each with the gap that parts it from the next one; after the last
one there is none. -/
def writeParams : List (WrittenParam × Gap) → List Char
  | [] => []
  | [(p, _)] => p.chars
  | (p, gap) :: next :: rest => p.chars ++ (gap.chars ++ writeParams (next :: rest))

/-- A tag as it is written: a name of word characters in capitals, and arguments of distinct keys.
-/
structure WrittenTag where
  name : String
  params : List (WrittenParam × Gap)
  named : name ≠ ""
  word : ∀ c ∈ name.toList, isWord c
  capital : upper name = name
  distinct : (params.map (·.1.key)).Nodup

namespace WrittenTag

/-- The characters of a tag. -/
def chars (t : WrittenTag) : List Char :=
  '[' :: (t.name.toList ++ ':' :: ' ' :: (writeParams t.params ++ [']']))

/-- What a reader should make of a tag. -/
def tag (t : WrittenTag) : Tag :=
  ⟨t.name, t.params.map fun (p, _) => (p.key, p.value), String.ofList t.chars⟩

end WrittenTag

/-- A text between tags. -/
structure Filler where
  chars : List Char
  closed : '[' ∉ chars

/-- A text with tags in it, each followed by a filler. -/
structure TaggedText where
  lead : Filler
  tags : List (WrittenTag × Filler)

/-- The text itself. -/
def TaggedText.text (p : TaggedText) : String :=
  String.ofList (p.lead.chars ++ p.tags.flatMap fun (t, filler) => t.chars ++ filler.chars)

end Ascent
