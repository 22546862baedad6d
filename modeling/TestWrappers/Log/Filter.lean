import TestWrappers.Log.Directive.Written

/-!
# Log Filters

Which events a reader wants to see.

A filter is a list of directives. Of the directives that are about an event the
one that says most about it decides, and of two that say the same the later one.
An event that no directive is about is not shown.

In its written form the directives stand between commas. If one directive cannot
be read, the filter as a whole cannot.

## Main definitions

* `Filter`: A list of directives.
* `Filter.shows`: Whether an event is shown.
* `Filter.ofText?`: A filter in its written form.
* `Filter.ofVerbosity`: The filter for a reader who asked for more output.

## Theorems

* `Filter.shows_ofVerbosity`: What is shown at a verbosity.
-/

namespace TestWrappers

/-- A list of directives. -/
abbrev Filter := List Directive

namespace Filter

/-- The directive of two that says more, the second if they say the same. -/
def moreSpecific (a b : Directive) : Directive := if b.saysLess a then a else b

/-- The directive that decides about an event. -/
def decisive? (filter : Filter) (event : Event) : Option Directive :=
  match filter.filter (·.appliesTo event) with
  | [] => none
  | directive :: directives => some (directives.foldl moreSpecific directive)

/-- The event is shown. -/
def shows (filter : Filter) (event : Event) : Bool :=
  match filter.decisive? event with
  | none => false
  | some directive => directive.shows event.level

/-- The filter of a level, for all targets. -/
def ofLevel (level : Level) : Filter := [⟨"", .events, some level⟩]

/-- The filter for a reader who asked for more output so many times. -/
def ofVerbosity : Nat → Filter
  | 0 => ofLevel .info
  | 1 => ofLevel .debug
  | _ => ofLevel .trace

/-- The stretches of a text between commas. -/
def splitAtCommas : List Char → List (List Char)
  | [] => [[]]
  | c :: cs =>
    if c = ',' then
      [] :: splitAtCommas cs
    else
      match splitAtCommas cs with
      | [] => [[c]]
      | stretch :: stretches => (c :: stretch) :: stretches

/-- A filter in its written form. One that says nothing shows errors only. -/
def ofText? (text : String) : Option Filter :=
  match (splitAtCommas text.toList).filter (!·.isEmpty) with
  | [] => some (ofLevel .error)
  | stretches => stretches.mapM Directive.ofText?

/-- The filter that is asked for: in writing if that can be read, and otherwise
    by the verbosity. -/
def choose (written : Option String) (verbosity : Nat) : Filter :=
  (written.bind ofText?).getD (ofVerbosity verbosity)

theorem shows_ofLevel (level : Level) (event : Event) :
    (ofLevel level).shows event = decide (event.level.rank ≤ level.rank) := rfl

theorem shows_ofVerbosity (verbosity : Nat) (event : Event) :
    (ofVerbosity verbosity).shows event = true ↔ verbosity ≠ 0 ∨ event.level ≠ .debug := by
  rcases verbosity with _ | _ | verbosity <;> cases event <;>
    simp [ofVerbosity, shows_ofLevel, Event.level, Level.rank]

end Filter

end TestWrappers
