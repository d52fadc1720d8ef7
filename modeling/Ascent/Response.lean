import Ascent.Tag

/-!
A narrator's response: the story it tells, what happens elsewhere, what it thinks, and its tags.

The parts of a response stand in marked blocks, `<narration>…</narration>` and others, whose marks
may be written in any case. A block ends at the first closing mark after it opens. A response
without marks is all story, less its tags.

Main exports: `Response`, `Response.read`.
-/

namespace Ascent

open Text

/-- The kinds of block. -/
inductive Block where
  | thinking
  | elsewhere
  | narration
  | tags
  | definitions
deriving DecidableEq, Repr

/-- The word in the marks of a block. -/
def Block.word : Block → String
  | .thinking => "thinking"
  | .elsewhere => "world_sim"
  | .narration => "narration"
  | .tags => "data_tags"
  | .definitions => "entity_definitions"

/-- The mark that opens a block. -/
def Block.opening (b : Block) : List Char := '<' :: b.word.toList ++ ['>']

/-- The mark that closes a block. -/
def Block.closing (b : Block) : List Char := '<' :: '/' :: b.word.toList ++ ['>']

/-- The characters up to the first occurrence of a word, in any case. -/
def upToWord? (word : List Char) : List Char → Option (List Char)
  | [] => none
  | c :: rest =>
    if (dropWord? word (c :: rest)).isSome then some []
    else (upToWord? word rest).map (c :: ·)

/-- A block with its marks. -/
def Block.pattern (b : Block) : Pattern (List Char) := fun cs => do
  let rest ← dropWord? b.opening cs
  let content ← upToWord? b.closing rest
  some (content, b.opening.length + content.length + b.closing.length)

/-- The trimmed content of the first block of a kind. -/
def Block.content? (b : Block) (cs : List Char) : Option (List Char) :=
  (b.pattern.first? cs).map trimChars

/-- The text without the blocks of the given kinds. -/
def eraseBlocks (bs : List Block) (cs : List Char) : List Char :=
  bs.foldl (fun cs b => b.pattern.erase cs) cs

/-- A response in its parts. -/
structure Response where
  narration : String
  tags : List Tag
  elsewhere : Option String
  thinking : String
deriving DecidableEq, Repr

namespace Response

/-- What a narrator writes in a block that has nothing to say. -/
def emptyMarkers : List String := ["EMPTY", "EMPTY.", "NONE"]

/-- How a narrator begins to talk about the task instead of the story. -/
def asides : List String :=
  ["i will", "here is", "based on", "analyzing", "strategizing", "confidence"]

/-- Whether a text begins as talk about the task. -/
def isAside (cs : List Char) : Bool := asides.any fun word => (dropWord? word.toList cs).isSome

/-- What happens elsewhere, unless the block says that it is nothing. -/
def elsewhere? (cs : List Char) : Option String :=
  match Block.elsewhere.content? cs with
  | some text =>
    if text.isEmpty || emptyMarkers.contains (String.ofList (upperChars text)) then none
    else some (String.ofList text)
  | none => none

/-- The story of a response without a block for it: what is left without the other blocks and the
tags, unless it is talk about the task. -/
def unmarkedNarration (cs : List Char) : List Char :=
  let rest := trimChars
    (Tag.tag.erase (eraseBlocks [.thinking, .elsewhere, .tags, .definitions] cs))
  if isAside rest then [] else rest

/-- The story. -/
def narrationOf (cs : List Char) : List Char :=
  let marked := (Block.narration.content? cs).getD []
  if marked.isEmpty && !contains Block.narration.opening (lowerChars cs) then unmarkedNarration cs
  else marked

/-- Where tags are looked for first: in their block, or in the whole text but for what is thought
and what is defined. -/
def tagText (cs : List Char) : List Char :=
  (Block.tags.content? cs).getD (eraseBlocks [.thinking, .definitions] cs)

/-- The tags: those of the block for them or of the whole text, then those of the definitions. -/
def tagsOf (cs : List Char) : List Tag :=
  Tag.findAll (tagText cs) ++ Tag.findAll ((Block.definitions.content? cs).getD [])

/-- The parts of a response. -/
def read (raw : String) : Response :=
  let cs := raw.toList
  { narration := String.ofList (narrationOf cs)
    tags := tagsOf cs
    elsewhere := elsewhere? cs
    thinking := String.ofList ((Block.thinking.content? cs).getD []) }

end Response
end Ascent
