import TestWrappers.FileSystem.Error
import TestWrappers.FileSystem.Route
import TestWrappers.FileSystem.Tree

/-!
# Following Routes

What a route leads to in a tree.

Steps are taken one by one, each in a directory. `advance` takes them until they
are done or until something other than a step decides: nothing is there, the
steps are blocked, or a link stands in the way. It never follows a link, so it
only depends on the steps, and what it meets says exactly where the rest of the
route is to be continued.

A link sends the route through its target, from the directory that the link is
in, and then on through the steps that were left. A route with links is thus a
sequence of stretches without, and the number of stretches that may be walked is
what ends a cycle of links.

A file can be opened for writing where nothing is yet, and then it is made. A
link in the last place is followed to its target all the same, so the file is
made where the link points to.

## Main definitions

* `Reach`: What a stretch of steps leads to.
* `Tree.advance`: Steps taken up to the first link.
* `Tree.walk`: The location a route leads to.
* `Tree.walkForWriting`: The location at which a file is opened for writing.

## Theorems

* `Tree.advance_append`: Steps can be taken in two stretches.
* `Tree.get?_of_advance_link`: What stands where steps stop at a link.
* `Tree.get?_of_walk`: A walk ends where something is.
-/

namespace TestWrappers

/-- What a stretch of steps leads to. -/
inductive Reach where
  /-- All steps are done. -/
  | arrived (place : Location)
  /-- The directory has no entry of the name, and these steps are left. -/
  | absent (directory : Location) (name : Name) (rest : List Step)
  /-- The entry of the name is a link, and these steps are left. -/
  | link (directory : Location) (name : Name) (target : Path) (rest : List Step)
  /-- A step cannot be taken. -/
  | blocked (errno : Errno)

/-- What is reached by taking more steps. -/
def Reach.andThen (reach : Reach) (next : Location → Reach) (steps : List Step) : Reach :=
  match reach with
  | arrived place => next place
  | absent directory name rest => absent directory name (rest ++ steps)
  | link directory name target rest => link directory name target (rest ++ steps)
  | blocked errno => blocked errno

namespace Tree

/-- Take steps up to the first link. -/
def advance (tree : Tree) : Location → List Step → Reach
  | place, [] => .arrived place
  | place, step :: steps =>
    match tree.get? place with
    | none => .blocked .noEntry
    | some .directory =>
      match step with
      | .stay => advance tree place steps
      | .climb => advance tree place.tail steps
      | .overlong => .blocked .nameTooLong
      | .enter name =>
        match tree.get? (name :: place) with
        | none => .absent place name steps
        | some (.link target) => .link place name target steps
        | some _ => advance tree (name :: place) steps
    | some _ => .blocked .notDirectory

/-- Take steps and follow links, in as many stretches as are allowed. -/
def walk (tree : Tree) : Nat → Location → List Step → Except Errno Location
  | 0, _, _ => .error .loop
  | stretches + 1, place, steps =>
    match tree.advance place steps with
    | .arrived place => .ok place
    | .absent _ _ _ => .error .noEntry
    | .blocked errno => .error errno
    | .link directory _ target rest =>
      walk tree stretches (target.route.start directory) (target.route.toEnd ++ rest)

/-- The location at which a file is opened for writing, seen from a directory.
    A file that is not there yet can be made there. -/
def walkForWriting (tree : Tree) : Nat → Location → Route → Except Errno Location
  | 0, _, _ => .error .loop
  | stretches + 1, seenFrom, route =>
    match tree.advance (route.start seenFrom) route.toLast with
    | .absent _ _ _ => .error .noEntry
    | .blocked errno => .error errno
    | .link directory _ target rest =>
      walkForWriting tree stretches directory
        ⟨target.route.fromRoot, target.route.toEnd ++ rest ++ route.last?.toList, route.slash⟩
    | .arrived place =>
      match route.last? with
      | none | some .stay | some .climb => .error .isDirectory
      | some step =>
        if route.slash then .error .isDirectory
        else
          match tree.advance place [step] with
          | .arrived file =>
            if tree.get? file = some .directory then .error .isDirectory else .ok file
          | .absent directory name _ => .ok (name :: directory)
          | .blocked errno => .error errno
          | .link directory _ target _ => walkForWriting tree stretches directory target.route

theorem advance_append (tree : Tree) (place : Location) (first second : List Step) :
    tree.advance place (first ++ second) =
      (tree.advance place first).andThen (fun next => tree.advance next second) second := by
  induction first generalizing place with
  | nil => rfl
  | cons step first ih =>
    simp only [List.cons_append, advance]
    cases tree.get? place with
    | none => rfl
    | some entry =>
      cases entry with
      | file contents => rfl
      | link target => rfl
      | directory =>
        cases step with
        | stay => exact ih place
        | climb => exact ih place.tail
        | overlong => rfl
        | enter name =>
          dsimp only
          cases tree.get? (name :: place) with
          | none => rfl
          | some entry =>
            cases entry with
            | link target => rfl
            | file contents => exact ih (name :: place)
            | directory => exact ih (name :: place)

theorem get?_of_advance {tree : Tree} {place last : Location} {steps : List Step}
    (hplace : (tree.get? place).isSome = true) (h : tree.advance place steps = .arrived last) :
    (tree.get? last).isSome = true := by
  induction steps generalizing place with
  | nil =>
    simp only [advance, Reach.arrived.injEq] at h
    rw [← h]
    exact hplace
  | cons step steps ih =>
    simp only [advance] at h
    split at h
    · simp only [reduceCtorEq] at h
    · rename_i hdir
      split at h
      · exact ih hplace h
      · refine ih ?_ h
        cases place with
        | nil => rfl
        | cons name directory =>
          rw [List.tail_cons, get?_tail hdir]
          rfl
      · simp only [reduceCtorEq] at h
      · split at h
        · simp only [reduceCtorEq] at h
        · simp only [reduceCtorEq] at h
        · rename_i entry _ hentry
          exact ih (by rw [hentry]; rfl) h
    · simp only [reduceCtorEq] at h

theorem get?_of_advance_link {tree : Tree} {place directory : Location} {name : Name}
    {target : Path} {steps rest : List Step}
    (h : tree.advance place steps = .link directory name target rest) :
    tree.get? directory = some .directory ∧
      tree.get? (name :: directory) = some (.link target) := by
  induction steps generalizing place with
  | nil => simp only [advance, reduceCtorEq] at h
  | cons step steps ih =>
    simp only [advance] at h
    split at h
    · simp only [reduceCtorEq] at h
    · rename_i hdir
      split at h
      · exact ih h
      · exact ih h
      · simp only [reduceCtorEq] at h
      · split at h
        · simp only [reduceCtorEq] at h
        · rename_i hlink
          simp only [Reach.link.injEq] at h
          obtain ⟨rfl, rfl, rfl, _⟩ := h
          exact ⟨hdir, hlink⟩
        · exact ih h
    · simp only [reduceCtorEq] at h

theorem get?_of_walk {tree : Tree} {stretches : Nat} {place last : Location}
    {steps : List Step} (hplace : (tree.get? place).isSome = true)
    (h : tree.walk stretches place steps = .ok last) : (tree.get? last).isSome = true := by
  induction stretches generalizing place steps with
  | zero => simp only [walk, reduceCtorEq] at h
  | succ stretches ih =>
    simp only [walk] at h
    split at h
    · rename_i hreach
      simp only [Except.ok.injEq] at h
      rw [← h]
      exact get?_of_advance hplace hreach
    · simp only [reduceCtorEq] at h
    · simp only [reduceCtorEq] at h
    · rename_i hreach
      refine ih ?_ h
      simp only [Route.start]
      split
      · rfl
      · rw [(get?_of_advance_link hreach).1]
        rfl

end Tree

end TestWrappers
