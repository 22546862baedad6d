import TestWrappers.Log.Directive
import TestWrappers.Text.Decimal
import TestWrappers.Text.Pattern
import TestWrappers.Text.Utf8

/-!
# Directives in Writing

How a directive is written.

A directive is a level alone, or a target, a part between brackets, or both,
perhaps with a level behind an equals sign. A level is a name in letters of
either case or a number; a word that is no level is a target, and whatever names
no level means every level. Between the brackets stands the name of a span, or a
field between braces, or both. A field is a name, or a name and a value behind an
equals sign, and a value is a number or a pattern.

The signs are looked for in the text without the blanks around it, but the words
are cut from the text with them, at the same places. So a directive with blanks in
front of it can be read, but hardly ever means anything. Places are counted in
bytes, and a word that would start or end within a character is none. A `Cell`
keeps a byte of the one text together with the byte at its place in the other.

## Main definitions

* `Level.ofText?`: A level in its written form.
* `Directive.Cell`: A byte, and the one at its place in the full text.
* `Subject.ofBrackets?`: What stands between brackets.
* `Directive.ofText?`: A directive in its written form.
-/

namespace TestWrappers

namespace Level

/-- The levels and silence by their names in small letters. -/
def byName : List (String × Option Level) :=
  [("error", some error), ("warn", some warn), ("info", some info), ("debug", some debug),
    ("trace", some trace), ("off", none)]

/-- The levels and silence by their numbers. -/
def byNumber : List (Option Level) :=
  [none, some error, some warn, some info, some debug, some trace]

/-- The number that a text of digits stands for, perhaps behind a plus sign. -/
def number? (text : List Char) : Option Nat :=
  let digits := match text with
    | '+' :: cs => cs
    | cs => cs
  if Decimal.isDigits digits then
    some (digits.foldl (fun n c => 10 * n + (c.toNat - '0'.toNat)) 0)
  else
    none

/-- A level, or silence, by its name in letters of either case or its number. -/
def ofText? (text : List Char) : Option (Option Level) :=
  match number? text with
  | some n => byNumber[n]?
  | none => (byName.find? (·.1.toList == text.map Char.toLower)).map (·.2)

/-- The level behind an equals sign, which is every level if nothing is there. -/
def ofEnding? (text : List Char) : Option (Option Level) :=
  if text.isEmpty then some (some .trace) else ofText? text

end Level

namespace Subject

/-- The text is the value of a field. -/
def isValue (text : List Char) : Bool := Decimal.isNumber text || Pattern.isPattern text

/-- What stands between brackets: the name of a span, which may be missing, and a
    field. A second value is not looked at. -/
def ofBrackets? (span field : List Char) : Option Subject :=
  if field.isEmpty then none
  else
    match field.dropWhile (· != '=') with
    | [] => some (if span.isEmpty then .field (String.ofList field) else .spans)
    | _ :: value => if isValue (value.takeWhile (· != '=')) then some .spans else none

end Subject

namespace Directive

/-- The bytes of a text. -/
def bytes (text : List Char) : List UInt8 := Utf8.encode (String.ofList text)

/-- A byte of a text without the blanks around it, and the byte at its place in the
    full text. -/
structure Cell where
  /-- The byte in which signs are looked for, as the character of its number. A
      byte that is no character alone is no sign either. -/
  bare : Char
  /-- The byte that words are made of. -/
  full : UInt8
deriving DecidableEq, Repr

/-- The cell of two bytes at the same place. -/
def Cell.ofBytes (bare full : UInt8) : Cell := ⟨Char.ofUInt8 bare, full⟩

/-- The cells of a text. -/
def cells (text : List Char) : List Cell :=
  List.zipWith Cell.ofBytes (bytes (Blank.trim text)) (bytes text)

/-- The end of a text that its cells do not reach. -/
def uncelled (text : List Char) : List UInt8 := (bytes text).drop (cells text).length

/-- The word that cells and the bytes behind them make, if they make one. -/
def word? (cells : List Cell) (rest : List UInt8) : Option (List Char) :=
  (Utf8.decode? (cells.map Cell.full ++ rest)).map String.toList

/-- The cells up to the first of some signs. -/
def upTo (signs : List Char) (cells : List Cell) : List Cell :=
  cells.takeWhile fun cell => !signs.contains cell.bare

/-- The cells from the first of some signs on. -/
def fromOn (signs : List Char) (cells : List Cell) : List Cell :=
  cells.dropWhile fun cell => !signs.contains cell.bare

/-- A directive from its level on, which stands behind an equals sign if it is
    there. Behind the cells comes the rest of the text. -/
def ofEnding? (target : List Char) (subject : Subject) (ending : List Cell)
    (rest : List UInt8) : Option Directive :=
  match ending with
  | [] => some ⟨String.ofList target, subject, some .trace⟩
  | ⟨'=', _⟩ :: level => do
    let least ← Level.ofEnding? (← word? level rest)
    return ⟨String.ofList target, subject, least⟩
  | _ => none

/-- A directive from the inside of its brackets on. -/
def ofBrackets? (target : List Char) (inside : List Cell) (rest : List UInt8) :
    Option Directive := do
  let span ← word? (upTo [']', '\x7b'] inside) []
  match fromOn [']', '\x7b'] inside with
  | [] => none
  | ⟨']', _⟩ :: ending => ofEnding? target .spans ending rest
  | _ :: braced =>
    match fromOn ['\x7d'] braced with
    | _ :: ⟨']', _⟩ :: ending =>
      let field ← word? (upTo ['\x7d'] braced) []
      let subject ← Subject.ofBrackets? span field
      ofEnding? target subject ending rest
    | _ => none

/-- A character that a directive may start with, if that is not its bracket. -/
def mayStart (c : Char) : Bool :=
  Letter.isLetterOrNumeral c || c == '-' || c == ':' || c == '_'

/-- A directive that is a single word: a level, or else a target. -/
def ofWord (text : List Char) : Directive :=
  match Level.ofText? text with
  | some level => ⟨"", .events, level⟩
  | none => ⟨String.ofList text, .events, some .trace⟩

/-- A directive that starts with its target, or is a level alone. -/
def ofTarget? (text : List Char) : Option Directive :=
  let target := word? (upTo ['=', '['] (cells text)) []
  match fromOn ['=', '['] (cells text) with
  | [] => some (ofWord text)
  | ⟨'[', _⟩ :: inside => target.bind (ofBrackets? · inside (uncelled text))
  | ending => target.bind (ofEnding? · .events ending (uncelled text))

/-- A directive in its written form. -/
def ofText? (text : List Char) : Option Directive :=
  match Blank.trim text with
  | [] => none
  | '[' :: _ => ofBrackets? [] (cells text).tail (uncelled text)
  | c :: _ => if mayStart c then ofTarget? text else none

end Directive

end TestWrappers
