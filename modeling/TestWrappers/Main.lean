import TestWrappers.Program

/-!
# The Command

The program at work on real files.

Everything is decided elsewhere. This module carries out the requests of a run
on the files of the machine, prints the events that the filter lets through, and
hands over the arguments and the exit status.

## Main definitions

* `Machine`: The host of real files.
* `main`: The command.
-/

namespace TestWrappers

/-- The host of real files. It prints the events that its filter shows. -/
abbrev Machine := ReaderT Filter IO

namespace Machine

/-- The number and wording of an error, as far as it has them. -/
def details : IO.Error → Nat × String
  | .alreadyExists _ code text | .interrupted _ code text | .noFileOrDirectory _ code text
  | .invalidArgument _ code text | .permissionDenied _ code text
  | .resourceExhausted _ code text | .inappropriateType _ code text
  | .noSuchThing _ code text | .otherError code text | .resourceBusy code text
  | .resourceVanished code text | .unsupportedOperation code text | .hardwareFault code text
  | .unsatisfiedConstraints code text | .illegalOperation code text
  | .protocolError code text | .timeExpired code text => (code.toNat, text)
  | .unexpectedEof => (0, "unexpected end of file")
  | .userError text => (0, text)

/-- Carry out an act on files, unless a path holds a zero byte. -/
def perform {α : Type} (path : Path) (act : String → IO α) : Machine (Except FileError α) := do
  if 0 ∈ path.bytes then
    return .error .zeroByte
  try
    return .ok (← act path.display)
  catch error =>
    let (code, text) := details error
    return .error (.system (.ofCode code text))

/-- Remove a directory with everything in it, or a link. -/
def removeTree (text : String) : IO Unit := do
  match (← (System.mkFilePath [text]).symlinkMetadata).type with
  | .symlink => IO.FS.removeFile text
  | _ => IO.FS.removeDirAll text

/-- A directory that could not be made is no failure if it is there. -/
def acceptDir (text : String) (error : IO.Error) : IO Unit := do
  unless ← (System.mkFilePath [text]).isDir do
    throw error

/-- Make the first directory. If something on the way to it is missing, make the
    others before. -/
def makeEach : List String → IO Unit
  | [] => return
  | text :: passed => do
    try
      IO.FS.createDir text
    catch
      | .noFileOrDirectory _ _ _ =>
        makeEach passed
        try
          IO.FS.createDir text
        catch error =>
          acceptDir text error
      | error => acceptDir text error

instance : Host Machine where
  list path := perform path fun text => do
    let entries ← (System.mkFilePath [text]).readDir
    return entries.toList.map fun entry => Utf8.encode entry.fileName
  isDirectory path := do
    let result ← perform path fun text => (System.mkFilePath [text]).isDir
    return result.toOption.getD false
  pathExists path := do
    let result ← perform path fun text => (System.mkFilePath [text]).pathExists
    return result.toOption.getD false
  removeTree path := perform path removeTree
  makeDirs path := perform path fun _ => makeEach (path.ancestors.map Path.display)
  write path contents := perform path fun text =>
    IO.FS.writeBinFile text ⟨contents.toArray⟩
  log event := do
    if (← read).shows event then
      IO.eprintln event.line

/-- How the command is used. -/
def usage : String :=
  "Usage: art-testgen [--root <ROOT>] [--test-dir <TEST_DIR>] [--output-dir <OUTPUT_DIR>] " ++
    "[-v|--verbose]... [-h|--help] [-V|--version]"

/-- What is wrong with the arguments. -/
def complaint : CommandLine.Ending → String
  | .help | .version => ""
  | .unknownArgument => "error: unexpected argument found"
  | .invalidValue => "error: a value is required for an option but none was supplied"
  | .argumentConflict => "error: an option cannot be used multiple times"
  | .tooManyValues => "error: unexpected value for a flag found"

/-- Run the command with its arguments. -/
def execute (args : List String) : IO UInt32 := do
  match CommandLine.parse args with
  | .error ending =>
    match ending with
    | .help => IO.println usage
    | .version => IO.println Program.version
    | _ => IO.eprintln (complaint ending ++ "\n\n" ++ usage)
    return ending.exitStatus.toUInt32
  | .ok options =>
    let filter := Program.filter (← IO.getEnv "RUST_LOG") options
    let outcome ← ReaderT.run (m := IO) (Program.run options) filter
    IO.eprint outcome.report
    return outcome.exitStatus.toUInt32

end Machine

end TestWrappers

/-- Generate the wrappers that the arguments ask for. -/
def main (args : List String) : IO UInt32 := TestWrappers.Machine.execute args
