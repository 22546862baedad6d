import Mathlib.Data.List.Infix
import TestWrappers.Proofs.FileSystem.Building
import TestWrappers.Proofs.Path.Joining

/-!
# Where Steps Land

The location that steps lead to when there are no links.

A path that never climbs says by itself where it leads: behind its start, to one
name after the other. Only a link can take it elsewhere. So if nothing on the way
is a link, the path leads to that location or nowhere at all, whatever the tree,
and it does lead there if a directory stands there. A statement about paths is
turned into one about locations in this way, and locations do not change when
the tree does.

The paths that are passed through on the way land on the way, since each of them
takes the first steps of the path.

## Main definitions

* `Location.along`: The location behind some steps.
* `Path.landing`: The location that a path names.
* `Tree.Unlinked`: Nothing on the way to a location is a link.
* `Tree.Open`: Whatever is on the way to a location is a directory.

## Theorems

* `Tree.eq_along_of_walk`: Without links steps lead nowhere else.
* `Tree.walk_along`: They do lead to a directory.
* `Tree.walk_of_missing`: On an open way they can only miss something.
* `Tree.walk_of_file`: They cannot go on behind a file.
* `Path.steps_of_mem_ancestors`: The paths passed through take the first steps.
-/

namespace TestWrappers

/-- The name that a step goes to. -/
def Step.name? : Step → Option Name
  | .enter name => some name
  | .stay | .climb | .overlong => none

namespace Location

/-- The location behind steps that do not climb. -/
def along (place : Location) (steps : List Step) : Location :=
  (steps.filterMap Step.name?).reverse ++ place

theorem along_append (place : Location) (first second : List Step) :
    place.along (first ++ second) = (place.along first).along second := by
  unfold along
  rw [List.filterMap_append, List.reverse_append, List.append_assoc]

theorem along_enter (place : Location) (name : Name) (steps : List Step) :
    place.along (.enter name :: steps) = along (name :: place) steps := by
  have hcons : (.enter name :: steps).filterMap Step.name? = name :: steps.filterMap Step.name? :=
    List.filterMap_cons_some rfl
  unfold along
  rw [hcons, List.reverse_cons, List.append_assoc, List.singleton_append]

theorem along_concat (place : Location) (steps : List Step) (name : Name) :
    place.along (steps ++ [.enter name]) = name :: place.along steps := by
  rw [along_append, along_enter]
  rfl

theorem isWithin_along (place : Location) (steps : List Step) :
    (place.along steps).isWithin place = true :=
  isWithin_iff.mpr (List.suffix_append _ place)

theorem isWithin_trans {a b c : Location} (hab : a.isWithin b = true)
    (hbc : b.isWithin c = true) : a.isWithin c = true :=
  isWithin_iff.mpr ((isWithin_iff.mp hbc).trans (isWithin_iff.mp hab))

theorem length_le_of_isWithin {inner outer : Location} (h : inner.isWithin outer = true) :
    outer.length ≤ inner.length :=
  (isWithin_iff.mp h).length_le

theorem eq_of_isWithin {inner outer : Location} (h : inner.isWithin outer = true)
    (hlength : inner.length ≤ outer.length) : inner = outer :=
  ((isWithin_iff.mp h).eq_of_length_le hlength).symm

end Location

namespace Path

/-- The location that a path names, seen from a directory, if it does not climb
    and meets no link. -/
def landing (path : Path) (directory : Location) : Location :=
  (path.route.start directory).along path.route.steps

/-- A path with a step is not empty. -/
theorem bytes_ne_nil_of_last {path : Path} {step : Step} (h : path.route.last? = some step) :
    path.bytes ≠ [] := by
  intro hnil
  have hsteps : path.route.steps = [] := by
    unfold Path.route Path.segments
    rw [hnil]
    rfl
  rw [Route.last?, hsteps] at h
  exact absurd h nofun

theorem landing_join (path : Path) (name : Name) (directory : Location) :
    (path.join ⟨name.bytes⟩).landing directory = name :: path.landing directory := by
  unfold landing
  rw [route_join_name, ← Location.along_concat]
  rfl

theorem Continues.firstSteps {longer shorter : Path} (h : longer.Continues shorter) :
    shorter.route.steps <+: longer.route.steps := by
  rcases h with ⟨_, before, step, after, hsteps, _⟩
  rw [hsteps, List.append_assoc]
  exact List.prefix_append _ _

/-- In a chain of paths, each one takes the first steps of the longest one. -/
theorem steps_of_mem_chain {longest passed : Path} {paths : List Path}
    (hchain : (longest :: paths).IsChain Continues) (h : passed ∈ longest :: paths) :
    passed.route.steps <+: longest.route.steps ∧
      passed.route.fromRoot = longest.route.fromRoot := by
  induction paths generalizing longest with
  | nil =>
    rw [List.mem_singleton.mp h]
    exact ⟨List.prefix_refl _, rfl⟩
  | cons next paths ih =>
    rcases List.isChain_cons_cons.mp hchain with ⟨hnext, hrest⟩
    rcases List.mem_cons.mp h with rfl | hin
    · exact ⟨List.prefix_refl _, rfl⟩
    · rcases ih hrest hin with ⟨hfirst, hroot⟩
      exact ⟨hfirst.trans hnext.firstSteps, hroot.trans hnext.1.symm⟩

/-- The paths passed through on the way take the first steps of the path. -/
theorem steps_of_mem_ancestors {path passed : Path} (h : passed ∈ path.ancestors) :
    passed.route.steps <+: path.route.steps ∧ passed.route.fromRoot = path.route.fromRoot := by
  have hchain := isChain_ancestors path
  cases hpaths : path.ancestors with
  | nil =>
    rw [hpaths] at h
    exact absurd h List.not_mem_nil
  | cons longest paths =>
    have hpath : path.bytes ≠ [] := by
      intro hnil
      rw [ancestors, if_pos hnil] at hpaths
      cases hpaths
    rcases ancestors_of_ne_nil hpath with ⟨first, segments, _, hancestors⟩
    have heq : path = longest := (List.cons.inj (hancestors.symm.trans hpaths)).1
    rw [hpaths] at h hchain
    rw [heq]
    exact steps_of_mem_chain hchain h

/-- The shorter ones among them do not take the last step, if it goes to a name. -/
theorem steps_of_mem_tail_ancestors {path passed : Path} {name : Name}
    (hlast : path.route.last? = some (.enter name)) (h : passed ∈ path.ancestors.tail) :
    passed.route.steps <+: path.route.steps.dropLast ∧
      passed.route.fromRoot = path.route.fromRoot := by
  have hchain := isChain_ancestors path
  rcases ancestors_of_ne_nil (bytes_ne_nil_of_last hlast) with ⟨_, segments, _, hpaths⟩
  rw [hpaths] at h hchain
  rw [List.tail_cons] at h
  cases hshorter : (ancestorsFrom _ segments.reverse).tail with
  | nil =>
    rw [hshorter] at h
    exact absurd h List.not_mem_nil
  | cons next paths =>
    rw [hshorter] at h hchain
    rcases List.isChain_cons_cons.mp hchain with ⟨⟨hroot, before, step, after, hsteps, _, _, hafter⟩,
      hrest⟩
    rcases steps_of_mem_chain hrest h with ⟨hfirst, hroot'⟩
    refine ⟨?_, hroot'.trans hroot.symm⟩
    -- Behind its own step the path only stays, so that step is the last one.
    rcases List.eq_nil_or_concat after with rfl | ⟨front, other, rfl⟩
    · rw [hsteps, List.dropLast_concat]
      exact hfirst.trans (List.prefix_append _ before)
    · rw [Route.last?, hsteps, List.concat_eq_append, ← List.cons_append, ← List.append_assoc,
        List.getLast?_concat, Option.some.injEq] at hlast
      have hstay := hafter other (by simp only [List.concat_eq_append, List.mem_append,
        List.mem_singleton, or_true])
      rw [hlast] at hstay
      cases hstay

theorem isWithin_landing_of_mem_ancestors {path passed : Path} (h : passed ∈ path.ancestors)
    (directory : Location) :
    (path.landing directory).isWithin (passed.landing directory) = true := by
  rcases steps_of_mem_ancestors h with ⟨⟨more, hsteps⟩, hroot⟩
  unfold landing Route.start
  rw [← hsteps, Location.along_append, hroot]
  exact Location.isWithin_along _ more

end Path

namespace Tree

variable {tree : Tree} {stretches : Nat} {place last : Location} {steps : List Step}

/-- Neither the location nor anything around it is a link. -/
def Unlinked (tree : Tree) (place : Location) : Prop :=
  ∀ outer target, place.isWithin outer = true → tree.get? outer ≠ some (.link target)

theorem Unlinked.outer {outer : Location} (h : tree.Unlinked place)
    (hin : place.isWithin outer = true) : tree.Unlinked outer :=
  fun other target hother => h other target (Location.isWithin_trans hin hother)

/-- Whatever is around a directory is a directory. -/
theorem get?_of_isWithin {inner outer : Location} (h : tree.get? inner = some .directory)
    (hin : inner.isWithin outer = true) : tree.get? outer = some .directory := by
  induction inner with
  | nil =>
    have hnil : outer = [] := List.suffix_nil.mp (Location.isWithin_iff.mp hin)
    rw [hnil]
    rfl
  | cons name inner ih =>
    rcases Location.isWithin_cons_iff.mp hin with heq | hrest
    · rw [heq]
      exact h
    · exact ih (get?_tail h) hrest

/-- Whatever is around an entry is a directory. -/
theorem get?_around {inner outer : Location} {entry : Entry} (h : tree.get? inner = some entry)
    (hin : inner.isWithin outer = true) (hne : outer ≠ inner) :
    tree.get? outer = some .directory := by
  cases inner with
  | nil => exact absurd (List.suffix_nil.mp (Location.isWithin_iff.mp hin)) hne
  | cons name inner =>
    rcases Location.isWithin_cons_iff.mp hin with heq | hrest
    · exact absurd heq hne
    · exact get?_of_isWithin (get?_tail h) hrest

/-- Nothing around an entry is a link. -/
theorem Unlinked.of_entry {entry : Entry} (h : tree.get? place = some entry)
    (hne : ∀ target, entry ≠ .link target) : tree.Unlinked place := by
  intro outer target hin hlink
  by_cases heq : outer = place
  · rw [heq, h] at hlink
    exact hne target (Option.some.inj hlink)
  · rw [get?_around h hin heq] at hlink
    cases hlink

theorem Unlinked.of_directory (h : tree.get? place = some .directory) : tree.Unlinked place :=
  Unlinked.of_entry h nofun

/-- Steps that do not climb and meet no link arrive where they land, or they stop
    on the way. -/
theorem advance_of_unlinked (hclimb : Step.climb ∉ steps)
    (hlinks : tree.Unlinked (place.along steps)) :
    tree.advance place steps = .arrived (place.along steps) ∨
      (∃ directory name rest, tree.advance place steps = .absent directory name rest) ∨
      ∃ errno, tree.advance place steps = .blocked errno := by
  induction steps generalizing place with
  | nil => exact Or.inl rfl
  | cons step steps ih =>
    have hrest : Step.climb ∉ steps := fun hmem => hclimb (List.mem_cons_of_mem step hmem)
    unfold advance
    cases hplace : tree.get? place with
    | none => exact Or.inr (Or.inr ⟨.noEntry, rfl⟩)
    | some entry =>
      cases entry with
      | file contents => exact Or.inr (Or.inr ⟨.notDirectory, rfl⟩)
      | link target => exact Or.inr (Or.inr ⟨.notDirectory, rfl⟩)
      | directory =>
        cases step with
        | stay => exact ih hrest hlinks
        | climb => exact absurd List.mem_cons_self hclimb
        | overlong => exact Or.inr (Or.inr ⟨.nameTooLong, rfl⟩)
        | enter name =>
          rw [Location.along_enter] at hlinks ⊢
          dsimp only
          cases hname : tree.get? (name :: place) with
          | none => exact Or.inr (Or.inl ⟨place, name, steps, rfl⟩)
          | some inner =>
            cases inner with
            | file contents => exact ih hrest hlinks
            | directory => exact ih hrest hlinks
            | link target =>
              -- The link would be around the location at which the steps land.
              exact absurd hname (hlinks _ target (Location.isWithin_along _ steps))

/-- Without links steps lead nowhere but where they land. -/
theorem eq_along_of_walk (hclimb : Step.climb ∉ steps)
    (hlinks : tree.Unlinked (place.along steps))
    (h : tree.walk stretches place steps = .ok last) : last = place.along steps := by
  cases stretches with
  | zero =>
    unfold walk at h
    cases h
  | succ stretches =>
    unfold walk at h
    rcases advance_of_unlinked hclimb hlinks with hreach | ⟨_, _, _, hreach⟩ | ⟨_, hreach⟩
    · rw [hreach] at h
      exact (Except.ok.inj h).symm
    · rw [hreach] at h
      cases h
    · rw [hreach] at h
      cases h

/-- Steps that are no longer than names can be lead to a directory that stands
    where they land. -/
theorem advance_along (hclimb : Step.climb ∉ steps) (hlong : Step.overlong ∉ steps)
    (hdir : tree.get? (place.along steps) = some .directory) :
    tree.advance place steps = .arrived (place.along steps) := by
  induction steps generalizing place with
  | nil => rfl
  | cons step steps ih =>
    have hclimb' : Step.climb ∉ steps := fun hmem => hclimb (List.mem_cons_of_mem step hmem)
    have hlong' : Step.overlong ∉ steps := fun hmem => hlong (List.mem_cons_of_mem step hmem)
    have hplace := get?_of_isWithin hdir (Location.isWithin_along place (step :: steps))
    cases step with
    | stay =>
      simp only [advance, hplace]
      exact ih hclimb' hlong' hdir
    | climb => exact absurd List.mem_cons_self hclimb
    | overlong => exact absurd List.mem_cons_self hlong
    | enter name =>
      rw [Location.along_enter] at hdir ⊢
      have hname := get?_of_isWithin hdir (Location.isWithin_along (name :: place) steps)
      simp only [advance, hplace, hname]
      exact ih hclimb' hlong' hdir

theorem walk_along (stretches : Nat) (hclimb : Step.climb ∉ steps)
    (hlong : Step.overlong ∉ steps) (hdir : tree.get? (place.along steps) = some .directory) :
    tree.walk (stretches + 1) place steps = .ok (place.along steps) := by
  simp only [walk, advance_along hclimb hlong hdir]

/-- A walk that gets to its end has met no name that is too long. -/
theorem overlong_notMem_of_walk (h : tree.walk stretches place steps = .ok last) :
    Step.overlong ∉ steps := by
  intro hmem
  rcases List.append_of_mem hmem with ⟨first, second, rfl⟩
  cases hfirst : tree.walk stretches place first with
  | error errno =>
    rw [walk_append_of_error _ hfirst] at h
    exact absurd h nofun
  | ok reached =>
    -- The walk gets to the first name that is too long, and no further.
    rcases walk_append_of_ok hfirst with ⟨left, hleft⟩
    rw [hleft] at h
    by_cases hdir : tree.get? reached = some .directory
    · simp only [walk, advance, hdir, reduceCtorEq] at h
    · rcases walk_of_not_directory hdir left .overlong second with ⟨errno, herror⟩
      rw [herror] at h
      exact absurd h nofun

/-- Whatever is at the location or around it is a directory. -/
def Open (tree : Tree) (place : Location) : Prop :=
  ∀ outer entry, place.isWithin outer = true → tree.get? outer = some entry → entry = .directory

theorem open_iff_tails : tree.Open place ↔
    ∀ outer ∈ place.tails, (tree.get? outer).all (· == .directory) = true := by
  unfold Open
  constructor
  · intro h outer hmem
    refine (Option.all_eq_true _ _).mpr fun entry hentry => ?_
    have hin := Location.isWithin_iff.mpr ((List.mem_tails _ _).mp hmem)
    exact beq_iff_eq.mpr (h outer entry hin hentry)
  · intro h outer entry hin hentry
    have hall := h outer ((List.mem_tails _ _).mpr (Location.isWithin_iff.mp hin))
    rw [hentry] at hall
    exact eq_of_beq hall

instance : Decidable (tree.Open place) := decidable_of_iff _ open_iff_tails.symm

theorem Open.outer {outer : Location} (h : tree.Open place) (hin : place.isWithin outer = true) :
    tree.Open outer :=
  fun other entry hother => h other entry (Location.isWithin_trans hin hother)

theorem Open.unlinked (h : tree.Open place) : tree.Unlinked place :=
  fun outer _ hin hlink => absurd (h outer _ hin hlink) nofun

theorem Open.eq_directory (h : tree.Open place) (hne : tree.get? place ≠ none) :
    tree.get? place = some .directory := by
  rcases Option.ne_none_iff_exists'.mp hne with ⟨entry, hentry⟩
  rw [hentry, h place entry (Location.isWithin_refl place) hentry]

/-- On an open way to a location where nothing is, something is not found. -/
theorem walk_of_missing (stretches : Nat)
    (hplain : ∀ step ∈ steps, step = .stay ∨ ∃ name, step = .enter name)
    (hplace : tree.get? place = some .directory) (hopen : tree.Open (place.along steps))
    (hnone : tree.get? (place.along steps) = none) :
    tree.walk (stretches + 1) place steps = .error .noEntry := by
  have hreach : ∃ directory name rest, tree.advance place steps = .absent directory name rest := by
    induction steps generalizing place with
    | nil =>
      -- The steps have landed where nothing is, but a directory is here.
      have hsome : tree.get? (place.along []) = some .directory := hplace
      rw [hnone] at hsome
      exact absurd hsome nofun
    | cons step steps ih =>
      have hrest : ∀ other ∈ steps, other = .stay ∨ ∃ name, other = .enter name :=
        fun other hmem => hplain other (List.mem_cons_of_mem step hmem)
      rcases hplain step List.mem_cons_self with rfl | ⟨name, rfl⟩
      · simp only [advance, hplace]
        exact ih hrest hplace hopen hnone
      · rw [Location.along_enter] at hopen hnone
        simp only [advance, hplace]
        cases hname : tree.get? (name :: place) with
        | none => exact ⟨place, name, steps, rfl⟩
        | some entry =>
          -- An entry on an open way is a directory, so the walk goes on in it.
          have hdir := hopen _ entry (Location.isWithin_along (name :: place) steps) hname
          rw [hdir] at hname ⊢
          exact ih hrest hname hopen hnone
  rcases hreach with ⟨directory, name, rest, hreach⟩
  simp only [walk, hreach]

/-- No step can be taken behind a file on the way. -/
theorem advance_of_file {outer : Location} {contents : List UInt8}
    (hplain : ∀ step ∈ steps, step = .stay ∨ ∃ name, step = .enter name)
    (hplace : tree.get? place = some .directory) (hfile : tree.get? outer = some (.file contents))
    (hin : (place.along steps).isWithin outer = true) (last : Step) :
    tree.advance place (steps ++ [last]) = .blocked .notDirectory := by
  induction steps generalizing place with
  | nil =>
    -- What is around a directory is no file.
    rw [get?_of_isWithin hplace hin] at hfile
    cases hfile
  | cons step steps ih =>
    have hrest : ∀ other ∈ steps, other = .stay ∨ ∃ name, other = .enter name :=
      fun other hmem => hplain other (List.mem_cons_of_mem step hmem)
    rcases hplain step List.mem_cons_self with rfl | ⟨name, rfl⟩
    · simp only [List.cons_append, advance, hplace]
      exact ih hrest hplace hin
    · rw [Location.along_enter] at hin
      simp only [List.cons_append, advance, hplace]
      by_cases hnext : name :: place = outer
      · -- The next entry is the file, and there is one more step.
        rw [← hnext] at hfile
        cases steps with
        | nil => simp only [hfile, List.nil_append, advance]
        | cons other steps => simp only [hfile, List.cons_append, advance]
      · -- The next entry is around the file, since the place itself is a directory.
        have hdir : tree.get? (name :: place) = some .directory := by
          rcases List.suffix_or_suffix_of_suffix (Location.isWithin_iff.mp hin)
            (List.suffix_append _ (name :: place)) with hsuffix | hsuffix
          · rcases Location.isWithin_cons_iff.mp (Location.isWithin_iff.mpr hsuffix) with heq | hout
            · exact absurd heq.symm hnext
            · rw [get?_of_isWithin hplace hout] at hfile
              cases hfile
          · exact get?_around hfile (Location.isWithin_iff.mpr hsuffix) hnext
        simp only [hdir]
        exact ih hrest hdir hin

theorem walk_of_file {outer : Location} {contents : List UInt8} (stretches : Nat)
    (hplain : ∀ step ∈ steps, step = .stay ∨ ∃ name, step = .enter name)
    (hplace : tree.get? place = some .directory) (hfile : tree.get? outer = some (.file contents))
    (hin : (place.along steps).isWithin outer = true) (last : Step) :
    tree.walk (stretches + 1) place (steps ++ [last]) = .error .notDirectory := by
  simp only [walk, advance_of_file hplain hplace hfile hin last]

end Tree

namespace FileSystem

/-- A path that leads to a directory without climbing and without links leads to
    where it lands. -/
theorem locate_eq_landing {files : FileSystem} {path : Path} {place : Location}
    (hclimb : Step.climb ∉ path.route.steps)
    (hlinks : files.tree.Unlinked (path.landing files.workingDirectory))
    (h : files.locate path = .ok place) : place = path.landing files.workingDirectory :=
  Tree.eq_along_of_walk hclimb hlinks
    (Tree.walk_steps_of_toEnd ((locate_eq_ok_iff files path place).mp h).2)

/-- A path that can be looked up at all leads to a directory where it lands. -/
theorem locate_landing {files : FileSystem} {path : Path}
    (hroute : files.route path = .ok path.route) (hclimb : Step.climb ∉ path.route.steps)
    (hlong : Step.overlong ∉ path.route.steps)
    (hdir : files.tree.get? (path.landing files.workingDirectory) = some .directory) :
    files.locate path = .ok (path.landing files.workingDirectory) := by
  refine (locate_eq_ok_iff files path _).mpr ⟨hroute, ?_⟩
  exact Tree.walk_toEnd_of_directory (Tree.walk_along maxLinks hclimb hlong hdir) hdir

/-- A path that led anywhere leads to a directory that now stands where it lands. -/
theorem locate_landing_of_locate {files after : FileSystem} {path : Path} {place : Location}
    (hclimb : Step.climb ∉ path.route.steps)
    (hcwd : after.workingDirectory = files.workingDirectory)
    (hlimit : after.pathLimit = files.pathLimit) (hplace : files.locate path = .ok place)
    (hdir : after.tree.get? (path.landing files.workingDirectory) = some .directory) :
    after.locate path = .ok (path.landing files.workingDirectory) := by
  rcases (locate_eq_ok_iff files path place).mp hplace with ⟨hroute, hwalk⟩
  have hlong := Tree.overlong_notMem_of_walk (Tree.walk_steps_of_toEnd hwalk)
  rw [← hcwd] at hdir ⊢
  exact locate_landing ((route_congr hlimit path).trans hroute) hclimb hlong hdir

/-- Without links, what a path leads to is decided where it lands. -/
theorem isDirectory_iff_landing {files : FileSystem} {path : Path}
    (hclimb : Step.climb ∉ path.route.steps) (hlong : Step.overlong ∉ path.route.steps)
    (hlinks : files.tree.Unlinked (path.landing files.workingDirectory)) :
    files.isDirectory path = true ↔ files.route path = .ok path.route ∧
      files.tree.get? (path.landing files.workingDirectory) = some .directory := by
  rw [isDirectory_iff_locate]
  constructor
  · intro h
    rcases h with ⟨place, hplace, hdir⟩
    refine ⟨((locate_eq_ok_iff files path place).mp hplace).1, ?_⟩
    rw [← locate_eq_landing hclimb hlinks hplace]
    exact hdir
  · intro h
    exact ⟨_, locate_landing h.1 hclimb hlong h.2, h.2⟩

end FileSystem

end TestWrappers
