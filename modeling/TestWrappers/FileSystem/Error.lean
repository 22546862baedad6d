/-!
# File Errors

Why an operation on files fails.

A path that holds a zero byte is refused before the system is asked, because
the system could only see the path up to there. Every other failure comes from
the system and has its number and wording there. The errors named here are those
that paths, links and kinds of entries can bring about; all others, such as a
missing permission, are carried along as they come.

## Main definitions

* `Errno`: A failure reported by the system, with its number and wording.
* `FileError`: Why an operation on files fails, and its wording.

## Theorems

* `Errno.code_ofCode`: A failure found by its number has that number.
* `FileError.code?_eq_none_iff`: Only a refused path has no number.
* `FileError.mapError_ok`, `FileError.mapError_error`: Telling errors
  differently changes errors only.
-/

namespace TestWrappers

/-- A failure reported by the system. -/
inductive Errno where
  /-- Nothing is there. -/
  | noEntry
  /-- The entry is in use. -/
  | busy
  /-- Something is there already. -/
  | alreadyExists
  /-- Something other than a directory stands where a directory has to be. -/
  | notDirectory
  /-- A directory stands where something else has to be. -/
  | isDirectory
  /-- The path cannot be used for this. -/
  | invalid
  /-- The path or one of its names is too long. -/
  | nameTooLong
  /-- A directory that has to be empty is not. -/
  | notEmpty
  /-- Too many links would have to be followed. -/
  | loop
  /-- Any other failure. -/
  | other (code : Nat) (text : String)
deriving DecidableEq, Repr

namespace Errno

/-- The number of a failure. -/
def code : Errno → Nat
  | noEntry => 2
  | busy => 16
  | alreadyExists => 17
  | notDirectory => 20
  | isDirectory => 21
  | invalid => 22
  | nameTooLong => 36
  | notEmpty => 39
  | loop => 40
  | other code _ => code

/-- The wording of a failure. -/
def text : Errno → String
  | noEntry => "No such file or directory"
  | busy => "Device or resource busy"
  | alreadyExists => "File exists"
  | notDirectory => "Not a directory"
  | isDirectory => "Is a directory"
  | invalid => "Invalid argument"
  | nameTooLong => "File name too long"
  | notEmpty => "Directory not empty"
  | loop => "Too many levels of symbolic links"
  | other _ text => text

/-- The failures that have a name here. -/
def named : List Errno :=
  [noEntry, busy, alreadyExists, notDirectory, isDirectory, invalid, nameTooLong, notEmpty, loop]

/-- The failure of a number, with a wording for one that has no name here. -/
def ofCode (code : Nat) (text : String) : Errno :=
  (named.find? (·.code == code)).getD (other code text)

theorem code_ofCode (code : Nat) (text : String) : (ofCode code text).code = code := by
  simp only [ofCode]
  cases h : named.find? (·.code == code) with
  | none => rfl
  | some errno =>
    have hcode := List.find?_some h
    exact eq_of_beq hcode

end Errno

/-- Why an operation on files fails. -/
inductive FileError where
  /-- The path holds a zero byte. -/
  | zeroByte
  /-- The system reports a failure. -/
  | system (errno : Errno)
deriving DecidableEq, Repr

namespace FileError

/-- The number of the failure, if the system reported it. -/
def code? : FileError → Option Nat
  | zeroByte => none
  | system errno => some errno.code

/-- The wording of an error. -/
def message : FileError → String
  | zeroByte => "file name contained an unexpected NUL byte"
  | system errno => errno.text ++ " (os error " ++ toString errno.code ++ ")"

theorem code?_eq_none_iff (error : FileError) : error.code? = none ↔ error = zeroByte := by
  cases error <;> simp [code?]

/-- An outcome that is no error is kept when errors are told differently. -/
theorem mapError_ok {e e' a : Type} (tell : e → e') (result : a) :
    (Except.ok result : Except e a).mapError tell = .ok result := rfl

/-- An error is told differently. -/
theorem mapError_error {e e' a : Type} (tell : e → e') (error : e) :
    (Except.error error : Except e a).mapError tell = .error (tell error) := rfl

end FileError

end TestWrappers
