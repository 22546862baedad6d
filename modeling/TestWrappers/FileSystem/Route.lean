import TestWrappers.FileSystem.Name

/-!
# Routes

A path as directions: where to start and which steps to take.

Empty segments give no step. A separator at the end gives none either, but it
says that what is reached has to be a directory, so the route remembers it.
Directions to a place are then the steps, and one more that stays where it is if
there was a separator at the end, since staying is possible in a directory only.

Whoever makes, removes or opens an entry follows the steps up to the last one
and looks at the last one itself.

## Main definitions

* `Step`: One step of a route.
* `Route`: The start, the steps, and whether they have to end in a directory.
* `Path.route`: The route of a path.
* `Route.toEnd`, `Route.toLast`: The steps to where the route ends, and to the
  directory in which the last step is taken.

## Theorems

* `Route.steps_eq_append`: A last step stands behind the others.
-/

namespace TestWrappers

/-- A step of a route. -/
inductive Step where
  /-- Stay in the directory. -/
  | stay
  /-- Go up to the directory around. -/
  | climb
  /-- Go to the entry of this name. -/
  | enter (name : Name)
  /-- Go to an entry whose name is longer than names can be. -/
  | overlong
deriving DecidableEq

/-- The step that a segment of a path asks for, if it asks for any. -/
def Step.ofSegment? (segment : List UInt8) : Option Step :=
  if segment = [] then none
  else if segment = [Path.dot] then some stay
  else if segment = [Path.dot, Path.dot] then some climb
  else some (((Name.ofBytes? segment).map enter).getD overlong)

/-- A path as directions. -/
structure Route where
  /-- The route starts at the root. -/
  fromRoot : Bool
  /-- The steps to take. -/
  steps : List Step
  /-- The route has to end in a directory. -/
  slash : Bool
deriving DecidableEq

/-- The route of a path. -/
def Path.route (path : Path) : Route where
  fromRoot := path.isAbsolute
  steps := path.segments.filterMap Step.ofSegment?
  slash := path.bytes.getLast? == some Path.separator

namespace Route

/-- The steps to where the route ends. -/
def toEnd (route : Route) : List Step :=
  if route.slash then route.steps ++ [.stay] else route.steps

/-- The steps to the directory in which the last step is taken. -/
def toLast (route : Route) : List Step := route.steps.dropLast ++ [.stay]

/-- The last step. A route that names just the root has none. -/
def last? (route : Route) : Option Step := route.steps.getLast?

/-- The location at which a route starts for someone in a directory. -/
def start (route : Route) (directory : Location) : Location :=
  if route.fromRoot then [] else directory

theorem steps_eq_append {route : Route} {step : Step} (h : route.last? = some step) :
    route.steps = route.steps.dropLast ++ [step] := by
  rcases List.getLast?_eq_some_iff.mp h with ⟨steps, hsteps⟩
  rw [hsteps, List.dropLast_concat]

end Route

end TestWrappers
