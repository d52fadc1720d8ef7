import Ascent.Pairs
import Ascent.Text.Basic

/-!
Files in folders, as far as a program that is run once sees them.

A path is relative to the folder where the program runs, or absolute. It is tidied up when it is
read: doubled and trailing slashes and single points go. Going up leads out of the folder that was
named, which has to be there.

Main exports: `Path`, `Path.ofText`, `Folder`, `Folder.ofFiles`, `Folder.read`, `Folder.write`,
`Folder.make`.
-/

namespace Ascent

/-- A path: the slashes that make it absolute, if it is, and its parts. -/
structure Path where
  root : String := ""
  parts : List String := []
deriving DecidableEq, Repr

namespace Path

/-- The path that a text stands for. Exactly two slashes in front are kept. -/
def ofText (s : String) : Path :=
  let cs := s.toList
  let slashes := (cs.takeWhile (· = '/')).length
  let pieces := (Text.splitWhere (· = '/') cs).map String.ofList
  { root := if slashes = 0 then "" else if slashes = 2 then "//" else "/"
    parts := pieces.filter fun piece => piece ≠ "" && piece ≠ "." }

/-- A path as it is shown. -/
def text (p : Path) : String :=
  if p.root = "" && p.parts.isEmpty then "." else p.root ++ Text.joinWith "/" p.parts

/-- The path of the folder around. -/
def parent (p : Path) : Path := { p with parts := p.parts.dropLast }

/-- A path with one more part. -/
def child (p : Path) (part : String) : Path := { p with parts := p.parts ++ [part] }

/-- A path one part further, or one part back; there is no going back from where only going up has
led to, and none from the root. -/
def next (p : Path) (part : String) : Path :=
  if part ≠ ".." || (p.root = "" && p.parts.all (· = "..")) then p.child part else p.parent

/-- The place that a path leads to if all folders on the way are there. -/
def place (p : Path) : Path := p.parts.foldl next { root := p.root }

end Path

/-- Why a file cannot be read or written. -/
inductive FileFault where
  | missing
  | isFolder
  | notFolder
  | exists
  /-- A path or a part of it is too long. -/
  | tooLong
  /-- A path holds a character that no path may hold. -/
  | badName
deriving DecidableEq, Repr

namespace Path

/-- How many bytes a part of a path may have. -/
def maxPart : Nat := 255

/-- How many bytes a path may have. -/
def maxSize : Nat := 4095

/-- Whether a path holds the character that ends paths. -/
def isBad (p : Path) : Bool := p.parts.any (·.contains (Char.ofNat 0))

/-- What is wrong with a path wherever it leads. -/
def fault? (p : Path) : Option FileFault :=
  if p.isBad then some .badName
  else if maxSize < p.text.utf8ByteSize then some .tooLong
  else none

end Path

/-- Files with what they hold, and folders that were made, all under paths that never go up but at
their beginning. -/
structure Folder where
  files : List (Path × String) := []
  made : List Path := []
deriving DecidableEq, Repr

namespace Folder

/-- The folder with the files that were found under paths, and with the folders on the way to
them. -/
def ofFiles (found : List (Path × String)) : Folder :=
  let onTheWay (p : Path) := (List.range p.parts.length).map fun i =>
    { p with parts := p.parts.take i : Path }.place
  { files := found.map fun (p, text) => (p.place, text)
    made := found.flatMap fun (p, _) => onTheWay p }

/-- What a file holds. -/
def content? (f : Folder) (p : Path) : Option String := f.files.lookup p

/-- Whether something lies inside a folder at a path. -/
def holds (p inside : Path) : Bool :=
  p.root = inside.root && p.parts.isPrefixOf inside.parts && p.parts.length < inside.parts.length

/-- Whether a path leads to a folder: one that was made or has something inside, or the one where
the program runs or one around it. -/
def isFolder (f : Folder) (p : Path) : Bool :=
  p.parts.all (· = "..") || f.made.contains p
    || f.made.any (holds p) || f.files.any fun (q, _) => holds p q

/-- A path one part further, from a place where there has to be a folder. -/
def step (f : Folder) (place : Path) (part : String) : Except FileFault Path :=
  if f.isFolder place then
    if Path.maxPart < part.utf8ByteSize then .error .tooLong else .ok (place.next part)
  else if (f.content? place).isSome then .error .notFolder
  else .error .missing

/-- The place that a path leads to, whether something is there or not. -/
def locate (f : Folder) (p : Path) : Except FileFault Path :=
  match p.fault? with
  | some e => .error e
  | none => p.parts.foldlM (step f) { root := p.root }

/-- What a file at a path holds. -/
def read (f : Folder) (p : Path) : Except FileFault String := do
  let place ← f.locate p
  match f.content? place with
  | some text => return text
  | none => throw (if f.isFolder place then .isFolder else .missing)

/-- Whether something is at a path. A path that is too long is a fault. -/
def has (f : Folder) (p : Path) : Except FileFault Bool :=
  match f.locate p with
  | .ok place => .ok ((f.content? place).isSome || f.isFolder place)
  | .error .tooLong => .error .tooLong
  | .error _ => .ok false

/-- The folder with a folder made inside, if it is not there. -/
def makeOne (f : Folder) (p : Path) : Except FileFault Folder := do
  let place ← f.locate p
  if (f.content? place).isSome then throw .exists
  else return if f.isFolder place then f else { f with made := place :: f.made }

/-- The folder with a folder made inside, and those around it. A file on the way is no folder. -/
def make (f : Folder) (p : Path) : Except FileFault Folder := do
  let inner (f : Folder) (i : Nat) : Except FileFault Folder :=
    match f.makeOne { p with parts := p.parts.take (i + 1) } with
    | .error .exists => .error (if i + 1 < p.parts.length then .notFolder else .exists)
    | result => result
  match p.fault? with
  | some e => .error e
  | none => (List.range p.parts.length).foldlM inner f

/-- Files with what one of them holds changed, or one more file. -/
def putFile (place : Path) (text : String) : List (Path × String) → List (Path × String)
  | [] => [(place, text)]
  | (q, old) :: rest => if q = place then (q, text) :: rest else (q, old) :: putFile place text rest

theorem lookup_putFile (place q : Path) (text : String) (files : List (Path × String)) :
    (putFile place text files).lookup q = if q = place then some text else files.lookup q := by
  induction files with
  | nil => grind [putFile]
  | cons file rest ih => grind [putFile]

/-- The folder with a file written inside; the folder around it has to be there. -/
def write (f : Folder) (p : Path) (text : String) : Except FileFault Folder := do
  let place ← f.locate p
  if f.isFolder place then throw .isFolder
  else return { f with files := putFile place text f.files }

/-- The files that are there now and were not there before, or held something else. -/
def changes (before after : Folder) : List (Path × String) :=
  after.files.filter fun (p, text) => before.content? p ≠ some text

end Folder
end Ascent
