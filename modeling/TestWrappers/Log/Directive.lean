import TestWrappers.Log.Event

/-!
# Directives

How important an event has to be, said for some of the events.

A directive names a level, and with it all levels that are more important, or
silence. It may also name a target, and then it is about the events whose target
starts so, and a field, and then it is about the events that have it. It may be
about what goes on within spans of time, or about the values of fields; no event
here is within a span, and no value is looked at, so such a directive is about
none.

Of two directives the one with the longer target says more about an event, and
of two with equally long targets the one that names a field. Of two fields the
one that comes later in the alphabet counts as more.

## Main definitions

* `Subject`: What a directive is about, apart from a target.
* `Directive`: A level, and the events it is for.
* `Directive.appliesTo`: A directive is about an event.
* `Directive.shows`: A directive lets a level be shown.
* `Directive.saysLess`: A directive says less about an event than another.

## Theorems

* `Directive.not_saysLess_self`: No directive says less than itself.
-/

namespace TestWrappers

/-- What a directive is about, apart from a target. -/
inductive Subject where
  /-- All events. -/
  | events
  /-- The events that have a field. -/
  | field (name : String)
  /-- What goes on within a span of time, or has a certain value. -/
  | spans
deriving DecidableEq, Repr

namespace Subject

/-- The fields that an event must have. -/
def fields : Subject → List String
  | events | spans => []
  | field name => [name]

/-- The subject is what an event with these fields is about. -/
def appliesTo (subject : Subject) (names : List String) : Bool :=
  match subject with
  | events => true
  | field name => names.contains name
  | spans => false

end Subject

/-- A level, and the events it is for. -/
structure Directive where
  /-- What the targets of the events start with. -/
  target : String
  /-- What else the events are known by. -/
  subject : Subject
  /-- The least important level to show, if any is to be shown. -/
  level : Option Level
deriving DecidableEq, Repr

namespace Directive

/-- The directive is about the event. -/
def appliesTo (directive : Directive) (event : Event) : Bool :=
  directive.target.toList.isPrefixOf event.target.toList &&
    directive.subject.appliesTo event.fields

/-- The directive lets events of this level be shown. -/
def shows (directive : Directive) (level : Level) : Bool :=
  match directive.level with
  | none => false
  | some least => level.rank ≤ least.rank

/-- The directive says less than another about an event that both are about. -/
def saysLess (directive other : Directive) : Bool :=
  directive.target.length < other.target.length ||
    (directive.target.length == other.target.length &&
      directive.subject.fields < other.subject.fields)

theorem not_saysLess_self (directive : Directive) : directive.saysLess directive = false := by
  simp only [saysLess, Nat.lt_irrefl, decide_false, Bool.false_or, beq_self_eq_true,
    Bool.true_and, decide_eq_false_iff_not]
  exact List.lt_irrefl _

end Directive

end TestWrappers
