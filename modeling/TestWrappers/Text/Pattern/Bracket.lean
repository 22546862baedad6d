import TestWrappers.Text.Pattern.Escape
import TestWrappers.Text.Pattern.Nesting

/-!
# Bracketed Classes in Patterns

Classes of characters that a pattern spells out between brackets.

Between the brackets stand characters, ranges of characters, escapes, classes
that have a name, and further brackets. They may be joined by operators for what
two classes have in common and what they have apart. Right behind the opening
bracket dashes, and a closing bracket if there are none, mean themselves. A
bracket that is read for ASCII only cannot say what it does not contain, because
that would be more than text.

Each thing between the brackets is a `Turn` of the reading. For each bracket that
is open, `Open` keeps what is needed to know how deep it is in the end.

## Main definitions

* `Pattern.Bracket.Open`: An open bracket.
* `Pattern.Bracket.turn`: The next thing between brackets.
* `Pattern.Bracket.close`: What is behind the closing bracket.

## Theorems

* `Pattern.Bracket.length_turn_lt`: A turn is at least one character long.
* `Pattern.Bracket.length_close_lt`: A closing bracket is one, too.
-/

namespace TestWrappers

namespace Pattern

namespace Bracket

/-- What a thing between brackets is to the brackets around it. -/
inductive Turn where
  /-- A bracket that opens. -/
  | opens
  /-- The end of the innermost bracket. -/
  | closes
  /-- An operator. -/
  | operator
  /-- A dash at the start. -/
  | dash
  /-- Any other member of the class. -/
  | member
deriving DecidableEq, Repr

/-- An open bracket. -/
structure Open where
  /-- The depth of what stands before the last operator, if there is one. -/
  left : Option Nat
  /-- The depths of the members since then, the last first. -/
  members : List Nat
  /-- Nothing but dashes has been read yet. -/
  atStart : Bool
deriving DecidableEq, Repr

namespace Open

/-- A bracket right behind its opening. -/
def empty : Open := ⟨none, [], true⟩

/-- The depth of what has been read of a bracket. An operator has its two sides
    within it. -/
def side (bracket : Open) : Nat :=
  match bracket.left with
  | none => Nesting.together bracket.members
  | some depth => max depth (Nesting.together bracket.members) + 1

/-- The depth of the bracket as a whole. -/
def depth (bracket : Open) : Nat := bracket.side + 1

/-- The bracket with one more member. -/
def add (bracket : Open) (depth : Nat) : Open := ⟨bracket.left, depth :: bracket.members, false⟩

/-- The bracket with one more dash at its start. -/
def addDash (bracket : Open) : Open := { bracket with members := 0 :: bracket.members }

/-- The bracket with one more operator. -/
def operate (bracket : Open) : Open := ⟨some bracket.side, [], false⟩

end Open

/-- The names of classes. -/
def names : List String :=
  ["alnum", "alpha", "ascii", "blank", "cntrl", "digit", "graph", "lower", "print", "punct",
    "space", "upper", "word", "xdigit"]

/-- The named class whose opening bracket has been read: if it stands for all
    other characters, and what is behind it. -/
def namedClass? : List Char → Option (Bool × List Char)
  | ':' :: cs =>
    let isNegated := cs.head? == some '^'
    let cs := if isNegated then cs.tail else cs
    match cs.dropWhile (· != ':') with
    | ':' :: ']' :: rest =>
      if names.contains (String.ofList (cs.takeWhile (· != ':'))) then some (isNegated, rest)
      else none
    | _ => none
  | _ => none

/-- What is behind an opening bracket and the sign that makes it stand for all
    other characters. -/
def openBracket (mode : Mode) (text : List Char) : Option (List Char) :=
  match mode.skip text with
  | '^' :: cs => if mode.allScripts then some cs else none
  | cs => some cs

/-- A character or an escape, and what is behind it. -/
def single (mode : Mode) : List Char → Option (Escape × List Char)
  | [] => none
  | '\\' :: cs => Escape.read mode cs
  | c :: cs => some (.char c false, cs)

/-- The character may stand between brackets. -/
def admits (mode : Mode) (c : Char) : Bool :=
  if mode.allScripts then !mode.anyCase else c.toNat < 0x80

/-- What an escape stands for may stand alone between brackets. -/
def admitsAlone (mode : Mode) : Escape → Bool
  | .char c _ => admits mode c
  | .set isNegated => !mode.allScripts && !isNegated
  | .wordBoundary | .anchor => false

/-- The two ends make a range that may stand between brackets. -/
def admitsRange (mode : Mode) : Escape → Escape → Bool
  | .char first _, .char last _ => admits mode first && admits mode last && first ≤ last
  | _, _ => false

/-- What is behind a range, or behind the character or escape that is none. -/
def member (mode : Mode) (text : List Char) : Option (List Char) :=
  match single mode text with
  | none => none
  | some (first, rest) =>
    match mode.skip rest with
    | '-' :: cs =>
      if [some ']', some '-'].contains (mode.peek cs) then
        if admitsAlone mode first then some ('-' :: cs) else none
      else
        match single mode (mode.skip cs) with
        | none => none
        | some (last, rest) => if admitsRange mode first last then some rest else none
    | cs => if admitsAlone mode first then some cs else none

/-- A named class may stand between brackets. -/
def admitsNamed (mode : Mode) (isNegated : Bool) : Bool :=
  if mode.allScripts then !mode.anyCase else !isNegated

/-- The sign that means itself right behind an opening bracket, and what is behind
    it. -/
def first? (bracket : Open) : List Char → Option (Turn × List Char)
  | '-' :: cs => if bracket.atStart then some (.dash, cs) else none
  | ']' :: cs => if bracket.atStart && bracket.members.isEmpty then some (.member, cs) else none
  | _ => none

/-- The next thing anywhere else between brackets, and what is behind it. -/
def later (mode : Mode) : List Char → Option (Turn × List Char)
  | [] => none
  | '[' :: cs =>
    match namedClass? cs with
    | some (isNegated, rest) => if admitsNamed mode isNegated then some (.member, rest) else none
    | none => (openBracket mode cs).map (.opens, ·)
  | ']' :: cs => some (.closes, cs)
  | '&' :: '&' :: cs | '-' :: '-' :: cs | '~' :: '~' :: cs => some (.operator, cs)
  | cs => (member mode cs).map (.member, ·)

/-- The next thing between brackets, and what is behind it. -/
def turn (mode : Mode) (bracket : Open) (text : List Char) : Option (Turn × List Char) :=
  match first? bracket text with
  | some found => if mode.refusesLetters then none else some found
  | none => later mode text

theorem length_namedClass?_le {text rest : List Char} {isNegated : Bool}
    (h : namedClass? text = some (isNegated, rest)) : rest.length ≤ text.length := by
  simp only [namedClass?] at h
  split at h
  · next cs =>
    split at h
    · next hdrop =>
      simp only [Option.ite_none_right_eq_some, Option.some.injEq, Prod.mk.injEq] at h
      have hle := (List.dropWhile_suffix (· != ':') (l :=
        if cs.head? == some '^' then cs.tail else cs)).length_le
      have htail : (if cs.head? == some '^' then cs.tail else cs).length ≤ cs.length := by
        split
        · simp only [List.length_tail]; omega
        · exact Nat.le_refl _
      rw [hdrop] at hle
      simp only [List.length_cons] at hle ⊢
      rw [← h.2.2]
      omega
    · exact absurd h (by simp only [reduceCtorEq, not_false_eq_true])
  · exact absurd h (by simp only [reduceCtorEq, not_false_eq_true])

theorem length_openBracket_le {mode : Mode} {text rest : List Char}
    (h : openBracket mode text = some rest) : rest.length ≤ text.length := by
  have hskip := mode.length_skip_le text
  rw [openBracket] at h
  split at h
  · next cs hcs =>
    simp only [Option.ite_none_right_eq_some, Option.some.injEq] at h
    rw [hcs, List.length_cons] at hskip
    rw [← h.2]
    omega
  · rw [← Option.some.inj h]
    exact hskip

theorem length_single_lt {mode : Mode} {text rest : List Char} {escape : Escape}
    (h : single mode text = some (escape, rest)) : rest.length < text.length := by
  simp only [single] at h
  split at h
  · exact absurd h (by simp only [reduceCtorEq, not_false_eq_true])
  · exact Nat.lt_succ_of_lt (Escape.length_read_lt h)
  · rw [← (Prod.mk.inj (Option.some.inj h)).2]
    exact Nat.lt_succ_self _

theorem length_member_lt {mode : Mode} {text rest : List Char}
    (h : member mode text = some rest) : rest.length < text.length := by
  simp only [member] at h
  split at h
  · exact absurd h (by simp only [reduceCtorEq, not_false_eq_true])
  · next first behind hsingle =>
    have hlt := length_single_lt hsingle
    have hskip := mode.length_skip_le behind
    split at h
    · next cs hcs =>
      rw [hcs] at hskip
      split at h
      · simp only [Option.ite_none_right_eq_some, Option.some.injEq] at h
        rw [← h.2]
        omega
      · have hcs' := mode.length_skip_le cs
        split at h
        · exact absurd h (by simp only [reduceCtorEq, not_false_eq_true])
        · next hlast =>
          simp only [Option.ite_none_right_eq_some, Option.some.injEq] at h
          have hlt' := length_single_lt hlast
          rw [List.length_cons] at hskip
          rw [← h.2]
          omega
    · simp only [Option.ite_none_right_eq_some, Option.some.injEq] at h
      rw [← h.2]
      omega

theorem length_first?_lt {bracket : Open} {text rest : List Char} {t : Turn}
    (h : first? bracket text = some (t, rest)) : rest.length < text.length := by
  simp only [first?] at h
  split at h
  iterate 2
    · simp only [Option.ite_none_right_eq_some, Option.some.injEq, Prod.mk.injEq] at h
      rw [← h.2.2]
      exact Nat.lt_succ_self _
  · exact absurd h (by simp only [reduceCtorEq, not_false_eq_true])

theorem length_later_lt {mode : Mode} {text rest : List Char} {t : Turn}
    (h : later mode text = some (t, rest)) : rest.length < text.length := by
  simp only [later] at h
  split at h
  · exact absurd h (by simp only [reduceCtorEq, not_false_eq_true])
  · split at h
    · next hnamed =>
      simp only [Option.ite_none_right_eq_some, Option.some.injEq, Prod.mk.injEq] at h
      rw [← h.2.2]
      exact Nat.lt_succ_of_le (length_namedClass?_le hnamed)
    · rcases Option.map_eq_some_iff.1 h with ⟨_, hopen, h⟩
      rw [← (Prod.mk.inj h).2]
      exact Nat.lt_succ_of_le (length_openBracket_le hopen)
  · rw [← (Prod.mk.inj (Option.some.inj h)).2]
    exact Nat.lt_succ_self _
  iterate 3
    · rw [← (Prod.mk.inj (Option.some.inj h)).2]
      exact Nat.lt_succ_of_lt (Nat.lt_succ_self _)
  · rcases Option.map_eq_some_iff.1 h with ⟨_, hmember, h⟩
    rw [← (Prod.mk.inj h).2]
    exact length_member_lt hmember

theorem length_turn_lt {mode : Mode} {bracket : Open} {text rest : List Char} {t : Turn}
    (h : turn mode bracket text = some (t, rest)) : rest.length < text.length := by
  rw [turn] at h
  split at h
  · next hfirst =>
    simp only [Option.ite_none_left_eq_some, Option.some.injEq] at h
    exact length_first?_lt (h.2 ▸ hfirst)
  · exact length_later_lt h

/-- The depth of the outermost open bracket when it is closed, and what is behind
    it. Of the brackets around the innermost one the next comes first. -/
def close (mode : Mode) (outer : List Open) (bracket : Open) (text : List Char) :
    Option (Nat × List Char) :=
  match _ : turn mode bracket (mode.skip text) with
  | none => none
  | some (.opens, rest) => close mode (bracket :: outer) .empty rest
  | some (.operator, rest) => close mode outer bracket.operate rest
  | some (.dash, rest) => close mode outer bracket.addDash rest
  | some (.member, rest) => close mode outer (bracket.add 0) rest
  | some (.closes, rest) =>
    match outer with
    | [] => some (bracket.depth, rest)
    | next :: outer => close mode outer (next.add bracket.depth) rest
termination_by text.length
decreasing_by
  all_goals
    exact Nat.lt_of_lt_of_le (length_turn_lt (by assumption)) (mode.length_skip_le text)

theorem length_close_lt {mode : Mode} {outer : List Open} {bracket : Open} {depth : Nat}
    {text rest : List Char} (h : close mode outer bracket text = some (depth, rest)) :
    rest.length < text.length := by
  have hlt {bracket : Open} {text behind : List Char} {t : Turn}
      (hturn : turn mode bracket (mode.skip text) = some (t, behind)) :
      behind.length < text.length :=
    Nat.lt_of_lt_of_le (length_turn_lt hturn) (mode.length_skip_le text)
  fun_induction close mode outer bracket text with
  | case1 => exact absurd h (by simp only [reduceCtorEq, not_false_eq_true])
  | case2 _ _ _ _ hturn ih | case3 _ _ _ _ hturn ih | case4 _ _ _ _ hturn ih
  | case5 _ _ _ _ hturn ih => exact Nat.lt_trans (ih h) (hlt hturn)
  | case6 _ _ _ hturn =>
    rw [← (Prod.mk.inj (Option.some.inj h)).2]
    exact hlt hturn
  | case7 _ _ _ hturn _ _ ih => exact Nat.lt_trans (ih h) (hlt hturn)

/-- The depth of a class whose opening bracket has been read, and what is behind
    it. -/
def read (mode : Mode) (text : List Char) : Option (Nat × List Char) :=
  (openBracket mode text).bind (close mode [] .empty)

theorem length_read_lt {mode : Mode} {depth : Nat} {text rest : List Char}
    (h : read mode text = some (depth, rest)) : rest.length < text.length := by
  rcases Option.bind_eq_some_iff.1 h with ⟨_, hopen, hclose⟩
  exact Nat.lt_of_lt_of_le (length_close_lt hclose) (length_openBracket_le hopen)

end Bracket

end Pattern

end TestWrappers
