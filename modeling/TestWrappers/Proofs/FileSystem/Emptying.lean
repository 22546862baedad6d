import TestWrappers.Proofs.FileSystem.Clearing
import TestWrappers.Proofs.FileSystem.Landing

/-!
# Emptying a Directory

What a reset changes, location by location.

Where a path does not climb and nothing on its way is a link, the directory that
is emptied is the one at the location that the path names, and so is the one
that is made again. Everything else stays as it was, but for the directories
around it that were missing.

## Main definitions

* `FileSystem.Confined`: A change is confined to some locations.
* `FileSystem.Emptied`: A directory has been emptied.

## Theorems

* `FileSystem.Emptied.get?_eq`: Emptying a directory again changes nothing.
* `FileSystem.emptied_of_resetFiles`: A reset empties a directory.
-/

namespace TestWrappers

namespace FileSystem

/-- Nothing has changed but what is at the locations or inside of them, and that
    missing directories around them may have been made. -/
structure Confined (places : List Location) (files after : FileSystem) : Prop where
  /-- Paths start in the same directory. -/
  workingDirectory : after.workingDirectory = files.workingDirectory
  /-- The same paths are too long. -/
  pathLimit : after.pathLimit = files.pathLimit
  /-- What is elsewhere stays, or is a new directory around one of them. -/
  outside : ∀ other, (∀ place ∈ places, other.isWithin place = false) →
    after.tree.get? other = files.tree.get? other ∨
      (files.tree.get? other = none ∧ after.tree.get? other = some .directory ∧
        ∃ place ∈ places, place.isWithin other = true)

namespace Confined

variable {places more : List Location} {files reached after : FileSystem}

theorem refl (places : List Location) (files : FileSystem) : Confined places files files :=
  ⟨rfl, rfl, fun _ _ => Or.inl rfl⟩

theorem trans (h : Confined places files reached) (h' : Confined places reached after) :
    Confined places files after where
  workingDirectory := h'.workingDirectory.trans h.workingDirectory
  pathLimit := h'.pathLimit.trans h.pathLimit
  outside := by
    intro other hother
    rcases h'.outside other hother with hsame | ⟨hnone, hdir, haround⟩
    · rw [hsame]
      exact h.outside other hother
    · rcases h.outside other hother with hsame | ⟨_, hthere, _⟩
      · exact Or.inr ⟨hsame ▸ hnone, hdir, haround⟩
      · -- What has been made before is not missing.
        rw [hthere] at hnone
        exact absurd hnone nofun

theorem mono (h : Confined places files after) (hsub : ∀ place ∈ places, place ∈ more) :
    Confined more files after where
  workingDirectory := h.workingDirectory
  pathLimit := h.pathLimit
  outside := by
    intro other hother
    rcases h.outside other fun place hmem => hother place (hsub place hmem) with
      hsame | ⟨hnone, hdir, place, hmem, haround⟩
    · exact Or.inl hsame
    · exact Or.inr ⟨hnone, hdir, place, hsub place hmem, haround⟩

/-- Around a location that is not inside the change, only missing directories are
    made. -/
theorem around (h : Confined places files after) {place outer : Location}
    (hplace : ∀ changed ∈ places, place.isWithin changed = false)
    (hin : place.isWithin outer = true) :
    after.tree.get? outer = files.tree.get? outer ∨
      (files.tree.get? outer = none ∧ after.tree.get? outer = some .directory) := by
  have hout : ∀ changed ∈ places, outer.isWithin changed = false := by
    intro changed hmem
    refine Bool.eq_false_iff.mpr fun hinside => ?_
    exact Bool.eq_false_iff.mp (hplace changed hmem) (Location.isWithin_trans hin hinside)
  rcases h.outside outer hout with hsame | ⟨hnone, hdir, _⟩
  · exact Or.inl hsame
  · exact Or.inr ⟨hnone, hdir⟩

theorem unlinked (h : Confined places files after) {place : Location}
    (hlinks : files.tree.Unlinked place)
    (hplace : ∀ changed ∈ places, place.isWithin changed = false) :
    after.tree.Unlinked place := by
  intro outer target hin hlink
  rcases h.around hplace hin with hsame | ⟨_, hdir⟩
  · exact hlinks outer target hin (hsame ▸ hlink)
  · rw [hdir] at hlink
    exact absurd hlink nofun

theorem isOpen (h : Confined places files after) {place : Location}
    (hopen : files.tree.Open place)
    (hplace : ∀ changed ∈ places, place.isWithin changed = false) :
    after.tree.Open place := by
  intro outer entry hin hentry
  rcases h.around hplace hin with hsame | ⟨_, hdir⟩
  · exact hopen outer entry hin (hsame ▸ hentry)
  · exact Option.some.inj (hentry.symm.trans hdir)

theorem directory (h : Confined places files after) {place : Location}
    (hdir : files.tree.get? place = some .directory)
    (hplace : ∀ changed ∈ places, place.isWithin changed = false) :
    after.tree.get? place = some .directory := by
  rcases h.around hplace (Location.isWithin_refl place) with hsame | ⟨hnone, _⟩
  · exact hsame.trans hdir
  · rw [hnone] at hdir
    exact absurd hdir nofun

end Confined

/-- The directory at a location has been emptied, or made empty, and nothing else
    has changed. -/
structure Emptied (place : Location) (files after : FileSystem) : Prop where
  /-- The change is confined to the directory. -/
  confined : Confined [place] files after
  /-- A directory is there. -/
  directory : after.tree.get? place = some .directory
  /-- Nothing is in it. -/
  empty : ∀ name, after.tree.get? (name :: place) = none

/-- A directory that has been emptied is left as it is when it is emptied again. -/
theorem Emptied.get?_eq {place : Location} {files after again : FileSystem}
    (h : Emptied place files after) (h' : Emptied place after again) (other : Location) :
    again.tree.get? other = after.tree.get? other := by
  by_cases heq : other = place
  · rw [heq, h.directory, h'.directory]
  cases hin : other.isWithin place with
  | true =>
    -- Whatever is inside the directory would be there through an entry in it.
    have hnone : ∀ {reached : FileSystem}, (∀ name, reached.tree.get? (name :: place) = none) →
        reached.tree.get? other = none := by
      refine fun hempty => Option.eq_none_iff_forall_ne_some.mpr fun entry hentry => ?_
      rcases Tree.exists_get?_of_isWithin (Option.isSome_of_eq_some hentry) hin heq with
        ⟨name, hname⟩
      rw [hempty name] at hname
      cases hname
    rw [hnone h.empty, hnone h'.empty]
  | false =>
    rcases h'.confined.outside other (fun there hmem => List.mem_singleton.mp hmem ▸ hin) with
      hsame | ⟨hmissing, _, there, hmem, haround⟩
    · exact hsame
    · -- Nothing is missing around the directory, since it is there.
      rw [List.mem_singleton.mp hmem] at haround
      rw [Tree.get?_of_isWithin h.directory haround] at hmissing
      cases hmissing

variable {files left after : FileSystem} {path : Path} {name : Name}

/-- The location that a path names which ends in a name. -/
theorem landing_of_last (hlast : path.route.last? = some (.enter name)) (directory : Location) :
    path.landing directory =
      name :: (path.route.start directory).along path.route.steps.dropLast := by
  have hsteps := Route.steps_eq_append hlast
  unfold Path.landing
  rw [← Location.along_concat, ← hsteps]

/-- Without links on the way to it, the entry that a path names which ends in a
    name is where the path lands, and a directory is around it. -/
theorem locateEntry_eq_landing (hclimb : Step.climb ∉ path.route.steps)
    (hlast : path.route.last? = some (.enter name)) (hslash : path.route.slash = false)
    (hlinks : files.tree.Unlinked (path.landing files.workingDirectory).tail) {entry : Location}
    (h : files.locateEntry path = .ok entry) :
    entry = path.landing files.workingDirectory ∧
      files.walkOf path path.route.steps.dropLast =
        .ok (path.landing files.workingDirectory).tail := by
  have hdrop : Step.climb ∉ path.route.steps.dropLast :=
    fun hmem => hclimb (List.dropLast_subset _ hmem)
  rw [landing_of_last hlast] at hlinks ⊢
  rcases locateEntry_eq_ok h with ⟨name', directory, hlast', hwalk, rfl⟩ | ⟨_, hfalse⟩
  · -- The path has no slash at its end, so the entry itself is named.
    rw [hlast, Option.some.injEq, Step.enter.injEq] at hlast'
    have hplace := Tree.eq_along_of_walk hdrop hlinks hwalk
    subst hplace
    exact ⟨hlast' ▸ rfl, hwalk⟩
  · rw [hfalse name hlast] at hslash
    exact absurd hslash nofun

/-- Removing what a path leads to takes away only what is at the location that the
    path names. -/
theorem isWithin_of_takenBy (hclimb : Step.climb ∉ path.route.steps)
    (hlast : path.route.last? = some (.enter name)) (hslash : path.route.slash = false)
    (hlinks : files.tree.Unlinked (path.landing files.workingDirectory).tail)
    {other : Location} (h : files.TakenBy path other) :
    other.isWithin (path.landing files.workingDirectory) = true := by
  rcases h with ⟨_, entry, hentry, hin⟩
  rw [← (locateEntry_eq_landing hclimb hlast hslash hlinks hentry).1]
  exact hin

/-- What is around the location that a path names is not inside of it. -/
theorem isWithin_landing_of_tail (hlast : path.route.last? = some (.enter name))
    {directory outer : Location}
    (hin : Location.isWithin (path.landing directory).tail outer = true) :
    outer.isWithin (path.landing directory) = false := by
  refine Bool.eq_false_iff.mpr fun hinside => ?_
  -- It would have to be as long as the location and shorter at once.
  have hle := Location.length_le_of_isWithin hinside
  have hle' := Location.length_le_of_isWithin hin
  rw [landing_of_last hlast] at hle hle'
  rw [List.length_cons] at hle
  rw [List.tail_cons] at hle'
  omega

/-- Making directories puts no link on a way. -/
theorem Grown.unlinked {paths : List Path} {reached : FileSystem}
    (h : Grown paths files reached) {place : Location} (hlinks : files.tree.Unlinked place) :
    reached.tree.Unlinked place := by
  intro outer target hin hlink
  cases hbefore : files.tree.get? outer with
  | none => exact absurd (h.made outer _ hbefore hlink).1 nofun
  | some entry =>
    have hsame := h.kept outer entry hbefore
    rw [hlink, Option.some.injEq] at hsame
    exact hlinks outer target hin (hsame ▸ hbefore)

/-- What has been made on the way of a path to a directory is around where the
    path lands. -/
theorem isWithin_of_made {reached : FileSystem} {place : Location}
    (hclimb : Step.climb ∉ path.route.steps) (hgrown : Grown path.ancestors files reached)
    (hdir : reached.tree.get? (path.landing reached.workingDirectory) = some .directory)
    {entry : Entry} (hbefore : files.tree.get? place = none)
    (hafter : reached.tree.get? place = some entry) :
    entry = .directory ∧ (path.landing reached.workingDirectory).isWithin place = true := by
  rcases hgrown.made place entry hbefore hafter with ⟨rfl, way, hway, hplace⟩
  have hin := Path.isWithin_landing_of_mem_ancestors hway reached.workingDirectory
  -- The way takes the first steps of the path, so it does not climb either.
  have hclimb' : Step.climb ∉ way.route.steps :=
    fun hmem => hclimb ((Path.steps_of_mem_ancestors hway).1.subset hmem)
  have hlands := locate_eq_landing hclimb' ((Tree.Unlinked.of_directory hdir).outer hin) hplace
  exact ⟨rfl, hlands ▸ hin⟩

/-- A reset of a path that does not climb and meets no link empties the directory
    at the location that the path names. -/
theorem emptied_of_resetFiles (hclimb : Step.climb ∉ path.route.steps)
    (hlast : path.route.last? = some (.enter name)) (hslash : path.route.slash = false)
    (hlinks : files.tree.Unlinked (path.landing files.workingDirectory).tail)
    (h : Generation.resetFiles files path = (.ok (), after)) :
    Emptied (path.landing files.workingDirectory) files after ∧
      after.locate path = .ok (path.landing files.workingDirectory) := by
  have hpath := Path.bytes_ne_nil_of_last hlast
  rcases resetFiles_eq_ok h with ⟨left, hremoved, hmake⟩
  have hgrown := grown_of_makeDirs hmake
  have hcwd : after.workingDirectory = files.workingDirectory :=
    hgrown.workingDirectory.trans hremoved.workingDirectory
  -- Outside of the location nothing is removed.
  have hkept : ∀ other, other.isWithin (path.landing files.workingDirectory) = false →
      left.tree.get? other = files.tree.get? other := by
    intro other hout
    refine hremoved.kept other fun htaken => ?_
    have hin := isWithin_of_takenBy hclimb hlast hslash hlinks htaken
    exact Bool.eq_false_iff.mp hout hin
  -- The directories around the location are the old ones or have been made.
  have haround : after.tree.Unlinked (path.landing files.workingDirectory).tail := by
    refine hgrown.unlinked fun outer target hin hlink => ?_
    rw [hkept outer (isWithin_landing_of_tail hlast hin)] at hlink
    exact hlinks outer target hin hlink
  -- So the fresh directory of the path is the one at the location.
  rcases fresh_of_reset hremoved hmake hpath (Route.isStraight_of_climb_notMem hclimb) with
    ⟨name', directory, hlast', hwalk, hlocate, hdir, hempty⟩
  have hdrop : Step.climb ∉ path.route.steps.dropLast :=
    fun hmem => hclimb (List.dropLast_subset _ hmem)
  have hplace : name' :: directory = path.landing files.workingDirectory := by
    rw [landing_of_last hlast] at haround ⊢
    rw [hlast, Option.some.injEq, Step.enter.injEq] at hlast'
    rw [walkOf, hcwd] at hwalk
    rw [hlast', Tree.eq_along_of_walk hdrop haround hwalk]
  rw [hplace] at hlocate hdir hempty
  refine ⟨⟨⟨hcwd, hgrown.pathLimit.trans hremoved.pathLimit, fun other hother => ?_⟩, hdir,
    hempty⟩, hlocate⟩
  rw [← hkept other (hother _ List.mem_cons_self)]
  cases hleft : left.tree.get? other with
  | some entry => exact Or.inl (hgrown.kept other entry hleft)
  | none =>
    cases hafter : after.tree.get? other with
    | none => exact Or.inl rfl
    | some entry =>
      rw [← hcwd] at hdir ⊢
      rcases isWithin_of_made hclimb hgrown hdir hleft hafter with ⟨rfl, hin⟩
      exact Or.inr ⟨rfl, rfl, _, List.mem_cons_self, hin⟩

end FileSystem

end TestWrappers
