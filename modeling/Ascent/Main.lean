import Ascent.CommandLine

/-!
The program: arguments and files go in, what is shown and the files that changed come out.

Main exports: `runProgram`, `main`.
-/

namespace Ascent

/-- The cells of a row between bars. -/
def rowText (cells : List String) : String := "| " ++ " | ".intercalate cells ++ " |"

/-- A thing that is shown, as plain lines. -/
def linesOf : Shown → List String
  | .line text => [text]
  | .panel text _ title => title.toList ++ [text]
  | .table title columns rows => title :: rowText columns :: rows.map rowText

/-- What a run that broke off says. -/
def crashText : Crash → String
  | .fault f => f.message
  | .file .missing => "no such file or folder"
  | .file .isFolder => "is a folder"
  | .file .notFolder => "not a folder"
  | .file .exists => "file exists"
  | .file .tooLong => "path too long"
  | .file .badName => "not a path"
  | .unknownLevel => "unknown logging level"
  | .notATable => "table expected"
  | .notAPath => "path expected"

/-- A file with what it holds, if it can be read. -/
def readFile? (p : Path) : IO (Option (Path × String)) :=
  try return some (p, ← IO.FS.readFile p.text) catch _ => return none

/-- A file is written, in a folder that is made if it is not there. -/
def writeFile (p : Path) (text : String) : IO Unit := do
  IO.FS.createDirAll p.parent.text
  IO.FS.writeFile p.text text

/-- The program: files are read before the run and written after it. -/
def runProgram (args : List String) : IO UInt32 := do
  let paths := ((Invocation.read args).map Invocation.paths).getD []
  let files ← paths.eraseDups.filterMapM readFile?
  let before := Folder.ofFiles files
  let result := runCommandLine args before
  for (p, text) in Folder.changes before result.run.folder do writeFile p text
  for text in result.run.shown.flatMap linesOf do IO.println text
  match result.crash with
  | some c => IO.eprintln (crashText c)
  | none =>
    if result.code = 2 then IO.eprintln "usage: new NAME | apply RESPONSE | show | tier LABEL"
  return result.code.toUInt32

end Ascent

/-- Runs the program on its arguments. -/
def main (args : List String) : IO UInt32 := Ascent.runProgram args
