import TestWrappers.Path

/-!
# Log Events

What a run tells about itself while it goes on.

Four things are worth telling: that the wrappers of a configuration are being
generated, that there are no test cases for them, that a file has been written,
and that everything is done. An event holds what it is about; its level, the
part of the program it comes from and its wording follow from that.

A wording may hold a path, and a path may hold characters that a terminal would
obey. Those are written out in the line.

What an event tells has names, of the wording itself and of each value that is
told beside it. A reader can ask for the events that tell something by its name.

## Main definitions

* `Level`: How important an event is.
* `Event`: Something worth telling.
* `Event.level`, `Event.target`, `Event.text`: What a line says about it.
* `Event.fields`: The names of what it tells.
* `Event.line`: The line.

## Theorems

* `Event.level_eq_debug_iff`: Only written files are told as details.
-/

namespace TestWrappers

/-- How important an event is, the most important first. -/
inductive Level where
  | error
  | warn
  | info
  | debug
  | trace
deriving DecidableEq, Repr

namespace Level

/-- The place of a level, counted from the most important. -/
def rank : Level → Nat
  | error => 1
  | warn => 2
  | info => 3
  | debug => 4
  | trace => 5

/-- The name of a level. -/
def name : Level → String
  | error => "ERROR"
  | warn => "WARN"
  | info => "INFO"
  | debug => "DEBUG"
  | trace => "TRACE"

end Level

/-- Something worth telling. -/
inductive Event where
  /-- The wrappers of a configuration are being generated. -/
  | generating (toolchain tool : String) (testCases : Nat)
  /-- A directory holds no test cases. -/
  | noTestCases (directory : Path)
  /-- A wrapper has been written. -/
  | wrote (file : Path)
  /-- Everything is done. -/
  | done (configurations files : Nat)
deriving DecidableEq, Repr

namespace Event

/-- How important an event is. -/
def level : Event → Level
  | generating _ _ _ | done _ _ => .info
  | noTestCases _ => .warn
  | wrote _ => .debug

/-- The part of the program that an event comes from. -/
def target : Event → String
  | generating _ _ _ | noTestCases _ | wrote _ => "art_testgen::generator"
  | done _ _ => "art_testgen"

/-- The names of what an event tells. -/
def fields : Event → List String
  | generating _ _ _ => ["message", "toolchain", "tool", "test_cases"]
  | noTestCases _ | wrote _ => ["message"]
  | done _ _ => ["message", "configurations", "files"]

/-- The digits of a number to the base sixteen, two at least. -/
def hexadecimal (n : Nat) : List Char := [Nat.digitChar (n / 16), Nat.digitChar (n % 16)]

/-- A character as it is written in a line: what a terminal would obey is
    written out. -/
def visible (c : Char) : List Char :=
  if c = '\x1b' ∨ c = '\x07' ∨ c = '\x08' ∨ c = '\x0c' ∨ c = '\x7f' then
    ['\\', 'x'] ++ hexadecimal c.toNat
  else if 0x80 ≤ c.toNat ∧ c.toNat ≤ 0x9f then
    ['\\', 'u', '\x7b'] ++ hexadecimal c.toNat ++ ['\x7d']
  else
    [c]

/-- A path as it is written in a line. -/
def shown (path : Path) : String := String.ofList (path.display.toList.flatMap visible)

/-- The wording of an event. -/
def text : Event → String
  | generating toolchain tool testCases =>
    "generating art tests toolchain=\"" ++ toolchain ++ "\" tool=\"" ++ tool ++
      "\" test_cases=" ++ toString testCases
  | noTestCases directory => "no test cases found in " ++ shown directory
  | wrote file => "wrote " ++ shown file
  | done configurations files =>
    "done configurations=" ++ toString configurations ++ " files=" ++ toString files

/-- The line that tells of an event. -/
def line (event : Event) : String :=
  event.level.name ++ " " ++ event.target ++ ": " ++ event.text

theorem level_eq_debug_iff (event : Event) :
    event.level = .debug ↔ ∃ file, event = .wrote file := by
  cases event <;> simp [level]

end Event

end TestWrappers
