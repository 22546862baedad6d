import TestWrappers.Proofs.FileSystem.Emptying

/-!
# Files Written into a Directory

What the writing of a file does that is named by a path and one more segment.

The path may go through links before it comes to the directory, each of which
sends the opening of the file through its target. The directory is the same that
the path itself leads to, so only the last segment decides, unless a link of that
name is in the directory.

Files that are put into an empty directory one after the other may replace each
other, but none of them replaces anything that was there at first. So whatever
could be reached at first is still reached, and it is enough to look up the path
of the directory once (`Stocked`).

## Main definitions

* `FileSystem.Vacant`: A path leads to an empty directory.
* `FileSystem.Stocked`: Entries have come into a directory.

## Theorems

* `Tree.walkForWriting_of_walk`: Where a file in a directory is opened.
* `FileSystem.route_join_eq`: When the path of a file can be looked up.
* `FileSystem.write_join`: A file written into a directory.
* `FileSystem.Stocked.put`: One more entry.
-/

namespace TestWrappers

/-- A file that is named by one more step behind a directory is opened there. -/
theorem Tree.walkForWriting_of_walk {tree : Tree} {stretches : Nat} {seenFrom place : Location}
    {route : Route} (hwalk : tree.walk stretches (route.start seenFrom) route.steps = .ok place)
    (hdir : tree.get? place = some .directory)
    (hlinks : ∀ name target, tree.get? (name :: place) ≠ some (.link target)) (step : Step) :
    tree.walkForWriting stretches seenFrom ⟨route.fromRoot, route.steps ++ [step], false⟩ =
      match step with
      | .stay | .climb => .error .isDirectory
      | .overlong => .error .nameTooLong
      | .enter name =>
        if tree.get? (name :: place) = some .directory then .error .isDirectory
        else .ok (name :: place) := by
  induction stretches generalizing seenFrom route with
  | zero =>
    unfold Tree.walk at hwalk
    cases hwalk
  | succ stretches ih =>
    have hstart : Route.start ⟨route.fromRoot, route.steps ++ [step], false⟩ seenFrom =
        route.start seenFrom := rfl
    unfold Tree.walk at hwalk
    simp only [walkForWriting, Route.toLast, Route.last?, List.dropLast_concat,
      List.getLast?_concat, hstart, advance_append]
    cases hreach : tree.advance (route.start seenFrom) route.steps with
    | absent directory name rest =>
      rw [hreach] at hwalk
      cases hwalk
    | blocked errno =>
      rw [hreach] at hwalk
      cases hwalk
    | link directory name target rest =>
      rw [hreach] at hwalk
      -- Both go on through the target, and the directory lets itself be stayed in.
      have hstay := walk_concat_stay.mpr ⟨hwalk, hdir⟩
      rw [List.append_assoc] at hstay
      simp only [Reach.andThen]
      exact @ih directory ⟨target.route.fromRoot, target.route.toEnd ++ (rest ++ [.stay]), false⟩
        hstay
    | arrived reached =>
      rw [hreach, Except.ok.injEq] at hwalk
      subst hwalk
      simp only [Reach.andThen, advance, hdir]
      cases step with
      | stay => rfl
      | climb => rfl
      | overlong => simp only [Bool.false_eq_true, ↓reduceIte]
      | enter name =>
        simp only [Bool.false_eq_true, ↓reduceIte]
        cases hentry : tree.get? (name :: reached) with
        | none => simp only [reduceCtorEq, ↓reduceIte]
        | some entry =>
          cases entry with
          | directory => simp only [hentry, ↓reduceIte]
          | file contents => simp only [hentry, Option.some.injEq, reduceCtorEq, ↓reduceIte]
          | link target => exact absurd hentry (hlinks name target)

namespace FileSystem

variable {files reached : FileSystem} {path : Path} {place : Location} {segment : List UInt8}

/-- A segment behind a path that can be looked up can itself be looked up, unless
    the whole is too long. -/
theorem route_join_eq (hroute : files.route path = .ok path.route) (hne : segment ≠ [])
    (hzero : 0 ∉ segment) :
    files.route (path.join ⟨segment⟩) =
      if files.isTooLong (path.join ⟨segment⟩) = true then .error (.system .nameTooLong)
      else .ok (path.join ⟨segment⟩).route := by
  have hpath := ((route_eq_ok_iff files path path.route).mp hroute).1
  have hfree : 0 ∉ (path.join ⟨segment⟩).bytes := by
    unfold Path.join
    split
    · exact hzero
    · split
      · intro hmem
        exact (List.mem_append.mp hmem).elim hpath hzero
      · intro hmem
        rcases List.mem_append.mp hmem with hin | hin
        · exact hpath hin
        · exact (List.mem_cons.mp hin).elim (by decide) hzero
  have hnil : (path.join ⟨segment⟩).bytes ≠ [] := by
    intro hnil
    have hlast := Path.getLast?_join path hne
    rw [hnil] at hlast
    exact hne (List.getLast?_eq_none_iff.mp hlast.symm)
  unfold FileSystem.route
  rw [if_neg hfree, if_neg hnil]

/-- The file of a segment behind the path of a directory is written in the directory
    and under the name of the segment, or not at all. -/
theorem write_join (hplace : files.locate path = .ok place)
    (hdir : files.tree.get? place = some .directory)
    (hlinks : ∀ name target, files.tree.get? (name :: place) ≠ some (.link target))
    (hsep : Path.separator ∉ segment) (hne : segment ≠ [])
    (hroute : files.route (path.join ⟨segment⟩) = .ok (path.join ⟨segment⟩).route)
    (contents : List UInt8) :
    files.write (path.join ⟨segment⟩) contents =
      match Step.ofSegment? segment with
      | some (.enter name) =>
        if files.tree.get? (name :: place) = some .directory then .error (.system .isDirectory)
        else .ok (files.withTree (files.tree.put (name :: place) (.file contents)))
      | some .overlong => .error (.system .nameTooLong)
      | _ => .error (.system .isDirectory) := by
  have hwalk := Tree.walk_steps_of_toEnd ((locate_eq_ok_iff files path place).mp hplace).2
  have hopened := Tree.walkForWriting_of_walk hwalk hdir hlinks
  simp only [write, bind, Except.bind, hroute, Path.route_join path hsep hne]
  rcases Path.ofSegment?_cases segment with
    ⟨hnil, _⟩ | ⟨_, hstep⟩ | ⟨_, hstep⟩ | ⟨_, _, ⟨name, _, hstep⟩ | ⟨_, hstep⟩⟩
  · exact absurd hnil hne
  all_goals rw [hstep, Option.toList_some, hopened]
  · rfl
  · rfl
  · by_cases hthere : files.tree.get? (name :: place) = some .directory
    · simp only [hthere, ↓reduceIte]
      rfl
    · simp only [hthere, ↓reduceIte]
      rfl
  · rfl

/-- The path leads to a directory, and nothing is in it. -/
structure Vacant (path : Path) (place : Location) (files : FileSystem) : Prop where
  /-- The path leads to the location. -/
  located : files.locate path = .ok place
  /-- A directory is there. -/
  directory : files.tree.get? place = some .directory
  /-- Nothing is in it. -/
  empty : ∀ name, files.tree.get? (name :: place) = none

theorem Fresh.vacant (h : Fresh files path) : ∃ place, Vacant path place files := by
  rcases h with ⟨name, directory, _, _, hplace, hdir, hempty⟩
  exact ⟨name :: directory, hplace, hdir, hempty⟩

/-- Entries have come into the directory at the location, and nothing else has
    changed. -/
structure Stocked (place : Location) (files reached : FileSystem) : Prop where
  /-- Paths start in the same directory. -/
  workingDirectory : reached.workingDirectory = files.workingDirectory
  /-- The same paths are too long. -/
  pathLimit : reached.pathLimit = files.pathLimit
  /-- Every entry is still there as it was. -/
  kept : files.tree.PartOf reached.tree
  /-- What is not an entry of the directory is as it was. -/
  elsewhere : ∀ other, (∀ name, other ≠ name :: place) →
    reached.tree.get? other = files.tree.get? other

namespace Stocked

theorem refl (place : Location) (files : FileSystem) : Stocked place files files :=
  ⟨rfl, rfl, Tree.PartOf.refl files.tree, fun _ _ => rfl⟩

/-- Whatever stands by now at a name that was free at first can be replaced. -/
theorem put (h : Stocked place files reached) {name : Name}
    (hnone : files.tree.get? (name :: place) = none) (entry : Entry) :
    Stocked place files (reached.withTree (reached.tree.put (name :: place) entry)) where
  workingDirectory := h.workingDirectory
  pathLimit := h.pathLimit
  kept := by
    intro other kept hkept
    have hne : other ≠ name :: place := by
      intro heq
      rw [heq, hnone] at hkept
      cases hkept
    exact (Tree.get?_put_of_ne reached.tree entry hne).trans (h.kept other kept hkept)
  elsewhere := by
    intro other hother
    exact (Tree.get?_put_of_ne reached.tree entry (hother name)).trans (h.elsewhere other hother)

/-- A path still leads where it led at first. -/
theorem locate (h : Stocked place files reached) {other : Path} {there : Location}
    (hother : files.locate other = .ok there) : reached.locate other = .ok there := by
  rw [locate_eq_ok_iff] at hother ⊢
  refine ⟨(route_congr h.pathLimit other).trans hother.1, ?_⟩
  rw [walkOf, h.workingDirectory]
  exact Tree.walk_of_partOf h.kept hother.2

theorem confined (h : Stocked place files reached) : Confined [place] files reached where
  workingDirectory := h.workingDirectory
  pathLimit := h.pathLimit
  outside := by
    intro other hout
    refine Or.inl (h.elsewhere other fun name heq => ?_)
    have hin := Location.isWithin_cons name (Location.isWithin_refl place)
    rw [← heq, hout _ List.mem_cons_self] at hin
    exact absurd hin Bool.false_ne_true

end Stocked

end FileSystem

end TestWrappers
