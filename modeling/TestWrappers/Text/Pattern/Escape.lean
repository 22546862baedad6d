import TestWrappers.Text.Pattern.Mode

/-!
# Escapes in Patterns

What a backslash in a pattern stands for.

In front of a sign it takes away what the sign would mean. In front of a letter
it names a character that is hard to write, a class of characters, or a place
between characters. A character can also be given by its number to the base
sixteen, in two, four or eight digits.

## Main definitions

* `Pattern.Escape`: What an escape stands for.
* `Pattern.Escape.read`: The escape behind a backslash.

## Theorems

* `Pattern.Escape.length_read_lt`: An escape is at least one character long.
-/

namespace TestWrappers

namespace Pattern

/-- What an escape stands for. -/
inductive Escape where
  /-- A character, which may be given as a byte. -/
  | char (c : Char) (isByte : Bool)
  /-- The digits, blanks or word characters, or all others. -/
  | set (isNegated : Bool)
  /-- The start or the end of a word, or a place that is neither. -/
  | wordBoundary
  /-- The start or the end of the text. -/
  | anchor
deriving DecidableEq, Repr

namespace Escape

/-- The value of a digit to the base sixteen. -/
def digit? (c : Char) : Option Nat :=
  if c.isDigit then some (c.toNat - '0'.toNat)
  else if 'a' ≤ c ∧ c ≤ 'f' then some (c.toNat - 'a'.toNat + 10)
  else if 'A' ≤ c ∧ c ≤ 'F' then some (c.toNat - 'A'.toNat + 10)
  else none

/-- The number that so many digits at the start of a text add to a number, and
    what is behind them. -/
def number? (mode : Mode) : Nat → Nat → List Char → Option (Nat × List Char)
  | 0, n, text => some (n, mode.skip text)
  | count + 1, n, text =>
    match mode.skip text with
    | [] => none
    | c :: cs => (digit? c).bind fun d => number? mode count (16 * n + d) cs

/-- The character whose number stands at the start of a text, and what is behind
    it. A number of two digits is that of a byte. -/
def numbered? (mode : Mode) (digits : Nat) (text : List Char) : Option (Escape × List Char) :=
  (number? mode digits 0 text).bind fun (n, rest) =>
    if n.isValidChar then some (.char (Char.ofNat n) (digits == 2), rest) else none

/-- The characters that letters behind a backslash name. -/
def named : List (Char × Char) :=
  [('a', '\x07'), ('f', '\x0c'), ('t', '\t'), ('n', '\n'), ('r', '\r'), ('v', '\x0b')]

/-- A sign that means itself behind a backslash: an ASCII character that is no
    letter, digit or angle bracket. -/
def isSign (c : Char) : Bool := c.toNat < 0x80 && !c.isAlphanum && c != '<' && c != '>'

/-- What a single character behind a backslash stands for. -/
def ofChar? (c : Char) : Option Escape :=
  if isSign c then some (.char c false)
  else if ['d', 's', 'w'].contains c then some (.set false)
  else if ['D', 'S', 'W'].contains c then some (.set true)
  else if ['A', 'z'].contains c then some .anchor
  else if ['b', 'B', '<', '>'].contains c then some .wordBoundary
  else (named.lookup c).map (.char · false)

/-- The escape behind a backslash, and what is behind it. -/
def read (mode : Mode) : List Char → Option (Escape × List Char)
  | [] => none
  | 'x' :: cs => numbered? mode 2 cs
  | 'u' :: cs => numbered? mode 4 cs
  | 'U' :: cs => numbered? mode 8 cs
  | c :: cs => (ofChar? c).map (·, cs)

theorem length_number?_le {mode : Mode} {count n m : Nat} {text rest : List Char}
    (h : number? mode count n text = some (m, rest)) : rest.length ≤ text.length := by
  induction count generalizing n text with
  | zero =>
    simp only [number?, Option.some.injEq, Prod.mk.injEq] at h
    exact h.2 ▸ mode.length_skip_le text
  | succ count ih =>
    have hskip := mode.length_skip_le text
    simp only [number?] at h
    split at h
    · exact absurd h (by simp only [reduceCtorEq, not_false_eq_true])
    · next c cs hcs =>
      rcases Option.bind_eq_some_iff.1 h with ⟨d, _, hd⟩
      rw [hcs, List.length_cons] at hskip
      exact Nat.le_trans (ih hd) (by omega)

theorem length_numbered?_le {mode : Mode} {digits : Nat} {text rest : List Char} {escape : Escape}
    (h : numbered? mode digits text = some (escape, rest)) : rest.length ≤ text.length := by
  rcases Option.bind_eq_some_iff.1 h with ⟨⟨n, rest'⟩, hn, h⟩
  simp only [Option.ite_none_right_eq_some, Option.some.injEq, Prod.mk.injEq] at h
  exact h.2.2 ▸ length_number?_le hn

theorem length_read_lt {mode : Mode} {text rest : List Char} {escape : Escape}
    (h : read mode text = some (escape, rest)) : rest.length < text.length := by
  simp only [read] at h
  split at h
  · exact absurd h (by simp only [reduceCtorEq, not_false_eq_true])
  · exact Nat.lt_succ_of_le (length_numbered?_le h)
  · exact Nat.lt_succ_of_le (length_numbered?_le h)
  · exact Nat.lt_succ_of_le (length_numbered?_le h)
  · rcases Option.map_eq_some_iff.1 h with ⟨_, _, h⟩
    rw [← (Prod.mk.inj h).2]
    exact Nat.lt_succ_self _

end Escape

end Pattern

end TestWrappers
