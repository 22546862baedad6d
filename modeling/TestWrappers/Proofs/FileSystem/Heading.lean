import TestWrappers.Proofs.FileSystem.Clearing

/-!
# Where Paths Head

Which entry a path is for, whether that is there or not.

The directories that are missing on the way of a path can still be made, and then it leads
somewhere. So steps are taken as if there were a directory wherever there is no link, and the
path heads for the entry at the end of them. A path that leads to an entry heads for it.

What a path heads for is up to the links on its way and to nothing else. It stays the same when
entries of other kinds come or go, as long as those links are kept and there are no new ones.

## Main definitions

* `Tree.glide`: Steps taken up to the first link, as if all else were directories.
* `FileSystem.heading?`: The entry that a path is for.
* `FileSystem.linksMet`: The links on the way to it.
* `FileSystem.LinksLeft`: A file system with fewer links.

## Theorems

* `FileSystem.heading?_of_locateEntry`: A path heads for the entry that it leads to.
* `FileSystem.LinksLeft.heading?`: The links on the way decide what a path heads for.
-/

namespace TestWrappers

namespace Tree

/-- The target of the link at a location, if there is one. -/
def link? (tree : Tree) (place : Location) : Option Path :=
  match tree.get? place with
  | some (.link target) => some target
  | _ => none

/-- Take steps up to the first link, as if there were a directory wherever there is none. -/
def glide (tree : Tree) : Location → List Step → Reach
  | place, [] => .arrived place
  | place, .stay :: steps => glide tree place steps
  | place, .climb :: steps => glide tree place.tail steps
  | _, .overlong :: _ => .blocked .nameTooLong
  | place, .enter name :: steps =>
    match tree.link? (name :: place) with
    | some target => .link place name target steps
    | none => glide tree (name :: place) steps

theorem link?_eq_some_iff (tree : Tree) (place : Location) (target : Path) :
    tree.link? place = some target ↔ tree.get? place = some (.link target) := by
  unfold link?
  split
  · rename_i other hlink
    rw [hlink, Option.some.injEq, Option.some.injEq, Entry.link.injEq]
  · rename_i hother
    exact ⟨fun h => absurd h.symm (Option.some_ne_none target), fun h => absurd h (hother target)⟩

/-- The location that steps head for, in as many stretches between links as are allowed. -/
def heading? (tree : Tree) : Nat → Location → List Step → Option Location
  | 0, _, _ => none
  | stretches + 1, place, steps =>
    match tree.glide place steps with
    | .arrived place => some place
    | .absent _ _ _ | .blocked _ => none
    | .link directory _ target rest =>
      heading? tree stretches (target.route.start directory) (target.route.toEnd ++ rest)

/-- The links that are followed on the way there. -/
def linksMet (tree : Tree) : Nat → Location → List Step → List Location
  | 0, _, _ => []
  | stretches + 1, place, steps =>
    match tree.glide place steps with
    | .arrived _ | .absent _ _ _ | .blocked _ => []
    | .link directory name target rest =>
      (name :: directory) ::
        linksMet tree stretches (target.route.start directory) (target.route.toEnd ++ rest)

/-- Steps that do not stop go where they would go if all but links were directories. -/
theorem glide_eq_advance (tree : Tree) (place : Location) (steps : List Step) :
    (∃ directory name rest, tree.advance place steps = .absent directory name rest) ∨
      (∃ errno, tree.advance place steps = .blocked errno) ∨
      tree.glide place steps = tree.advance place steps := by
  induction steps generalizing place with
  | nil => exact Or.inr (Or.inr rfl)
  | cons step steps ih =>
    unfold advance
    cases tree.get? place with
    | none => exact Or.inr (Or.inl ⟨_, rfl⟩)
    | some entry =>
      cases entry with
      | file contents => exact Or.inr (Or.inl ⟨_, rfl⟩)
      | link target => exact Or.inr (Or.inl ⟨_, rfl⟩)
      | directory =>
        cases step with
        | stay => exact ih place
        | climb => exact ih place.tail
        | overlong => exact Or.inr (Or.inl ⟨_, rfl⟩)
        | enter name =>
          unfold glide link?
          dsimp only
          cases tree.get? (name :: place) with
          | none => exact Or.inl ⟨_, _, _, rfl⟩
          | some entry =>
            cases entry with
            | directory => exact ih (name :: place)
            | file contents => exact ih (name :: place)
            | link target => exact Or.inr (Or.inr rfl)

/-- Steps that can be walked head for where they lead. -/
theorem heading?_of_walk {tree : Tree} {stretches : Nat} {place last : Location}
    {steps : List Step} (h : tree.walk stretches place steps = .ok last) :
    tree.heading? stretches place steps = some last := by
  induction stretches generalizing place steps with
  | zero => cases h
  | succ stretches ih =>
    unfold walk at h
    unfold heading?
    -- A walk that succeeds has no stretch that stops, so gliding takes the same stretches.
    rcases tree.glide_eq_advance place steps with
      ⟨directory, name, rest, habsent⟩ | ⟨errno, hblocked⟩ | hsame
    · rw [habsent] at h
      cases h
    · rw [hblocked] at h
      cases h
    · rw [hsame]
      generalize tree.advance place steps = reach at h ⊢
      cases reach with
      | arrived other => exact congrArg some (Except.ok.inj h)
      | absent directory name rest => cases h
      | blocked errno => cases h
      | link directory name target rest => exact ih h

end Tree

namespace FileSystem

/-- The location of the entry that a path is for, if its last step is a name. -/
def heading? (files : FileSystem) (path : Path) : Option Location :=
  match path.route.last? with
  | some (.enter name) =>
    (files.tree.heading? (maxLinks + 1) (path.route.start files.workingDirectory)
      path.route.steps.dropLast).map (name :: ·)
  | _ => none

/-- The links that are followed on the way to this entry. -/
def linksMet (files : FileSystem) (path : Path) : List Location :=
  files.tree.linksMet (maxLinks + 1) (path.route.start files.workingDirectory)
    path.route.steps.dropLast

/-- The links of a file system are kept but for those at or inside some locations, and no link
    has been added. -/
structure LinksLeft (lost : List Location) (files left : FileSystem) : Prop where
  /-- Paths start in the same directory. -/
  workingDirectory : left.workingDirectory = files.workingDirectory
  /-- No link has been added. -/
  old : ∀ place target, left.tree.link? place = some target →
    files.tree.link? place = some target
  /-- A link elsewhere is still there. -/
  kept : ∀ place target, files.tree.link? place = some target →
    (∀ entry ∈ lost, place.isWithin entry = false) → left.tree.link? place = some target

variable {files left further : FileSystem} {lost more : List Location} {path : Path}

/-- A path heads for the entry that it leads to. -/
theorem heading?_of_locateEntry {name : Name} {entry : Location}
    (hlast : path.route.last? = some (.enter name)) (hslash : path.route.slash = false)
    (h : files.locateEntry path = .ok entry) : files.heading? path = some entry := by
  rcases locateEntry_eq_ok h with ⟨name', directory, hlast', hwalk, rfl⟩ | ⟨_, hslash'⟩
  · have hheading := Tree.heading?_of_walk hwalk
    unfold heading?
    rw [hlast']
    dsimp only
    rw [hheading]
    rfl
  · exact absurd (hslash.symm.trans (hslash' name hlast)) Bool.false_ne_true

namespace LinksLeft

theorem refl (files : FileSystem) : LinksLeft [] files files :=
  ⟨rfl, fun _ _ h => h, fun _ _ h _ => h⟩

/-- What is lost in two stretches is lost in both. -/
theorem trans (h : LinksLeft lost files left) (hmore : LinksLeft more left further) :
    LinksLeft (lost ++ more) files further where
  workingDirectory := hmore.workingDirectory.trans h.workingDirectory
  old place target hlink := h.old place target (hmore.old place target hlink)
  kept place target hlink hout :=
    hmore.kept place target
      (h.kept place target hlink fun entry hentry => hout entry (List.mem_append_left more hentry))
      fun entry hentry => hout entry (List.mem_append_right lost hentry)

/-- Steps are taken up to the same link as long as that one is not lost. -/
theorem glide (h : LinksLeft lost files left) {place : Location} {steps : List Step}
    (hmet : ∀ directory name target rest,
      files.tree.glide place steps = .link directory name target rest →
        ∀ entry ∈ lost, Location.isWithin (name :: directory) entry = false) :
    left.tree.glide place steps = files.tree.glide place steps := by
  induction steps generalizing place with
  | nil => rfl
  | cons step steps ih =>
    cases step with
    | stay => exact ih hmet
    | climb => exact ih hmet
    | overlong => rfl
    | enter name =>
      unfold Tree.glide at hmet ⊢
      cases hlink : files.tree.link? (name :: place) with
      | some target =>
        rw [hlink] at hmet
        rw [h.kept _ _ hlink (hmet place name target steps rfl)]
      | none =>
        -- A link that had come in here would turn the steps elsewhere.
        have hnone : left.tree.link? (name :: place) = none := by
          refine Option.eq_none_iff_forall_ne_some.mpr fun target hleft => ?_
          exact absurd ((h.old _ _ hleft).symm.trans hlink) (Option.some_ne_none target)
        rw [hlink] at hmet
        rw [hnone]
        exact ih hmet

/-- Steps head for the same location as long as no link on their way is lost. -/
theorem heading?_steps (h : LinksLeft lost files left) {stretches : Nat} {place : Location}
    {steps : List Step} (hmet : ∀ link ∈ files.tree.linksMet stretches place steps,
      ∀ entry ∈ lost, link.isWithin entry = false) :
    left.tree.heading? stretches place steps = files.tree.heading? stretches place steps := by
  induction stretches generalizing place steps with
  | zero => rfl
  | succ stretches ih =>
    unfold Tree.linksMet at hmet
    -- The first link that is met is not lost, and the others are met behind it.
    have hsame : left.tree.glide place steps = files.tree.glide place steps := by
      refine h.glide fun directory name target rest hreach => ?_
      rw [hreach] at hmet
      exact hmet _ List.mem_cons_self
    unfold Tree.heading?
    rw [hsame]
    cases hreach : files.tree.glide place steps with
    | arrived last => rfl
    | absent directory name rest => rfl
    | blocked errno => rfl
    | link directory name target rest =>
      rw [hreach] at hmet
      exact ih fun link hlink => hmet link (List.mem_cons_of_mem _ hlink)

/-- A path heads for the same entry as long as no link on its way is lost. -/
theorem heading? (h : LinksLeft lost files left)
    (hmet : ∀ link ∈ files.linksMet path, ∀ entry ∈ lost, link.isWithin entry = false) :
    left.heading? path = files.heading? path := by
  unfold FileSystem.heading?
  rw [h.workingDirectory]
  split
  · rw [h.heading?_steps hmet]
  · rfl

end LinksLeft

end FileSystem

end TestWrappers
