import TestWrappers.Layout

/-!
# The Command Line

The arguments a run is started with, and what they ask for.

Three options name directories and one flag raises the verbosity. A directory
follows its option either behind an equals sign or as the next argument, and
then it cannot look like an option itself. The flag may be written out, or
shortened and repeated behind one hyphen.

Arguments are taken in one by one. An option that waits for its value is kept
aside: it is looked at only when the next option or flag that exists is met, or
at the end. Whatever does not exist is refused on the spot, even in front of an
option that was kept aside and will turn out to be wrong.

## Main definitions

* `DirectoryOption`: The options that name a directory, and what they stand for.
* `Options`: What the arguments ask for, and `Options.layout`, where that is.
* `Argument`: An argument by its spelling.
* `CommandLine.Ending`: The ways in which arguments do not lead to a run.
* `CommandLine.parse`: The options that arguments ask for.
-/

namespace TestWrappers

/-- An option that names a directory. -/
inductive DirectoryOption where
  /-- The directory that the other two are taken from. -/
  | root
  /-- The directory of the fixtures. -/
  | testDir
  /-- The directory of the wrappers. -/
  | outputDir
deriving DecidableEq, Repr

namespace DirectoryOption

/-- The options that name a directory. -/
def all : List DirectoryOption := [root, testDir, outputDir]

/-- The name of an option, as it stands behind two hyphens. -/
def name : DirectoryOption → String
  | root => "root"
  | testDir => "test-dir"
  | outputDir => "output-dir"

/-- The option of a name. -/
def ofName? (name : String) : Option DirectoryOption := all.find? (·.name == name)

/-- The directory that an option stands for if it is not given. -/
def standard : DirectoryOption → String
  | root => "."
  | testDir => Layout.standardTestDir
  | outputDir => Layout.standardOutputDir

end DirectoryOption

/-- What the arguments ask for. -/
structure Options where
  /-- The directories that were named. -/
  directory? : DirectoryOption → Option Path
  /-- How often more output was asked for, as far as it is counted. -/
  verbosity : Nat

namespace Options

/-- Nothing is asked for. -/
def empty : Options := ⟨fun _ => none, 0⟩

/-- The greatest count of requests for more output. -/
def maxVerbosity : Nat := 255

/-- Name a directory. -/
def setDirectory (options : Options) (option : DirectoryOption) (path : Path) : Options :=
  { options with directory? := fun o => if o = option then some path else options.directory? o }

/-- Ask for more output once more. -/
def raiseVerbosity (options : Options) : Options :=
  { options with verbosity := min (options.verbosity + 1) maxVerbosity }

/-- The directory that the others are taken from: the working directory, unless
    one is named. -/
def root (options : Options) : Path :=
  (options.directory? .root).getD (.ofString DirectoryOption.root.standard)

/-- The layout that is asked for. -/
def layout (options : Options) : Layout where
  testDir := match options.directory? .testDir with
    | some path => options.root.join path
    | none => (Layout.rooted options.root).testDir
  outputDir := match options.directory? .outputDir with
    | some path => options.root.join path
    | none => (Layout.rooted options.root).outputDir

end Options

/-- An argument by its spelling. -/
inductive Argument where
  /-- Two hyphens alone, which end the options. -/
  | endOfOptions
  /-- A name behind two hyphens, perhaps with a value behind an equals sign. -/
  | long (name : String) (value : Option String)
  /-- Letters behind one hyphen. -/
  | short (letters : List Char)
  /-- Anything else, a single hyphen included. -/
  | plain (text : String)
deriving DecidableEq, Repr

/-- An argument as it is spelled. -/
def Argument.ofChars : List Char → Argument
  | ['-', '-'] => endOfOptions
  | '-' :: '-' :: cs =>
    let name := String.ofList (cs.takeWhile (· != '='))
    match cs.dropWhile (· != '=') with
    | [] => long name none
    | _ :: value => long name (some (String.ofList value))
  | '-' :: c :: cs => short (c :: cs)
  | cs => plain (String.ofList cs)

namespace CommandLine

/-- A way in which arguments do not lead to a run. -/
inductive Ending where
  /-- Help is asked for. -/
  | help
  /-- The version is asked for. -/
  | version
  /-- Something is given that does not exist. -/
  | unknownArgument
  /-- An option has no value, or an empty one. -/
  | invalidValue
  /-- An option is given twice. -/
  | argumentConflict
  /-- A flag is given a value. -/
  | tooManyValues
deriving DecidableEq, Repr

/-- The exit status of a program that ends so. -/
def Ending.exitStatus : Ending → Nat
  | help | version => 0
  | unknownArgument | invalidValue | argumentConflict | tooManyValues => 2

/-- What has been made of the arguments so far. -/
structure Progress where
  /-- What the arguments ask for. -/
  options : Options
  /-- The option kept aside, and its value if that has come. -/
  waiting : Option (DirectoryOption × Option String)

namespace Progress

/-- Nothing has been taken in. -/
def start : Progress := ⟨.empty, none⟩

/-- Take an option and its value. -/
def assign (options : Options) (option : DirectoryOption) (value : Option String) :
    Except Ending Options :=
  match value with
  | none => .error .invalidValue
  | some text =>
    if (options.directory? option).isSome then .error .argumentConflict
    else if text = "" then .error .invalidValue
    else .ok (options.setDirectory option (.ofString text))

/-- Take the option that was kept aside. -/
def settle (progress : Progress) : Except Ending Options :=
  match progress.waiting with
  | none => .ok progress.options
  | some (option, value) => assign progress.options option value

/-- Take a letter behind one hyphen. -/
def letter (progress : Progress) (c : Char) : Except Ending Progress :=
  if c = 'v' then progress.settle.map fun options => ⟨options.raiseVerbosity, none⟩
  else if c = 'h' then progress.settle.bind fun _ => .error .help
  else if c = 'V' then progress.settle.bind fun _ => .error .version
  else .error .unknownArgument

/-- Take the letters behind one hyphen. -/
def letters : Progress → List Char → Except Ending Progress
  | progress, [] => .ok progress
  | progress, c :: cs => (progress.letter c).bind fun next => letters next cs

/-- The letter that is short for a flag. -/
def flagLetter? (name : String) : Option Char :=
  if name = "verbose" then some 'v'
  else if name = "help" then some 'h'
  else if name = "version" then some 'V'
  else none

/-- Take a name behind two hyphens. -/
def long (progress : Progress) (name : String) (value : Option String) :
    Except Ending Progress :=
  match DirectoryOption.ofName? name, value with
  | some option, none => progress.settle.map fun options => ⟨options, some (option, none)⟩
  | some option, some text =>
    progress.settle.bind fun options =>
      (assign options option (some text)).map fun options => ⟨options, none⟩
  | none, value =>
    match flagLetter? name, value with
    | some c, none => progress.letter c
    | some _, some _ => .error .tooManyValues
    | none, _ => .error .unknownArgument

/-- Take an argument that can only be the value of an option kept aside. -/
def plain (progress : Progress) (text : String) : Except Ending Progress :=
  match progress.waiting with
  | some (option, none) => .ok ⟨progress.options, some (option, some text)⟩
  | _ => .error .unknownArgument

/-- Take an argument in front of the end of the options. -/
def take (progress : Progress) : Argument → Except Ending Progress
  | .endOfOptions => .ok progress
  | .long name value => progress.long name value
  | .short cs => progress.letters cs
  | .plain text => progress.plain text

end Progress

/-- Take arguments in. What follows the end of the options is refused, because
    nothing but options exists. -/
def read : Progress → List String → Except Ending Progress
  | progress, [] => .ok progress
  | progress, arg :: args =>
    match Argument.ofChars arg.toList with
    | .endOfOptions => if args.isEmpty then .ok progress else .error .unknownArgument
    | argument => (progress.take argument).bind fun next => read next args

/-- The options that arguments ask for. -/
def parse (args : List String) : Except Ending Options :=
  (read .start args).bind Progress.settle

end CommandLine

end TestWrappers
