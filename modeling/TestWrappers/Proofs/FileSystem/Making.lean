import TestWrappers.Proofs.FileSystem.Emptying
import TestWrappers.Proofs.Path.Plain

/-!
# When Directories Can Be Made

Conditions under which making a directory succeeds.

If everything on the way of a plain path that is there is a directory, then the
directory of the path can be made. The missing ones are made from the outside to
the inside, and each of them has a directory to stand in by then. The induction
is on the segments, the last one first, as the paths on the way are.

## Main definitions

* `FileSystem.startOf`: The location at which a path starts.
* `FileSystem.behind`: The location behind segments.

## Theorems

* `FileSystem.makeDir_of_missing`, `FileSystem.makeDir_of_room`: Making one
  directory, without and with a directory to stand in.
* `FileSystem.makeEach_behind_name`: One more name on a path.
* `FileSystem.makeEach_ancestorsFrom`: Missing directories can be made.
* `FileSystem.makeDirs_of_open`: The same for the path of an entry.
-/

namespace TestWrappers

namespace FileSystem

variable {files : FileSystem} {path : Path} {name : Name} {front : List Step}

/-- A directory whose own place is missing too cannot be made yet. -/
theorem makeDir_of_missing (hroute : files.route path = .ok path.route)
    (hsteps : path.route.steps = front ++ [.enter name])
    (hplain : ∀ step ∈ front, step = .stay ∨ ∃ name, step = .enter name)
    (hstart : files.tree.get? (path.route.start files.workingDirectory) = some .directory)
    (hopen : files.tree.Open ((path.route.start files.workingDirectory).along front))
    (hnone : files.tree.get? ((path.route.start files.workingDirectory).along front) = none) :
    files.makeDir path = .error (.system .noEntry) := by
  -- Nothing is where the directory would be made, so the walk to there misses something.
  have hwalk := Tree.walk_of_missing maxLinks hplain hstart hopen hnone
  have hfollow : files.follow path.route path.route.toLast = .error (.system .noEntry) := by
    refine (follow_eq_error_iff _ _ _ _).mpr ⟨.noEntry, rfl, ?_⟩
    rw [Route.toLast, hsteps, List.dropLast_concat]
    exact Tree.walk_append_of_error [.stay] hwalk
  simp only [makeDir, bind, Except.bind, hroute, hfollow]

/-- Of steps that stay or go to a name, none does anything else. -/
theorem notMem_concat {step : Step} (hstay : step ≠ .stay) (hname : step.name? = none)
    (h : ∀ step ∈ front, step = .stay ∨ ∃ name, step = .enter name) :
    step ∉ front ++ [.enter name] := by
  intro hmem
  have hcases : step = .stay ∨ ∃ inner, step = .enter inner := by
    rcases List.mem_append.mp hmem with hin | hlast
    · exact h step hin
    · exact Or.inr ⟨name, List.mem_singleton.mp hlast⟩
  rcases hcases with heq | ⟨inner, rfl⟩
  · exact hstay heq
  · cases hname

/-- A directory that has a place to stand in is made or is there already. -/
theorem makeDir_of_room (hroute : files.route path = .ok path.route)
    (hsteps : path.route.steps = front ++ [.enter name])
    (hplain : ∀ step ∈ front, step = .stay ∨ ∃ name, step = .enter name)
    (hdir : files.tree.get? ((path.route.start files.workingDirectory).along front) =
      some .directory)
    (hopen : files.tree.Open (path.landing files.workingDirectory)) :
    ∃ made : FileSystem, made.tree.get? (path.landing files.workingDirectory) = some .directory ∧
      (files.makeDir path = .ok made ∨
        (files.makeDir path = .error (.system .alreadyExists) ∧
          files.isDirectory path = true ∧ made = files)) := by
  have hlast : path.route.last? = some (.enter name) := by
    rw [Route.last?, hsteps, List.getLast?_concat]
  have hland : path.landing files.workingDirectory =
      name :: (path.route.start files.workingDirectory).along front := by
    rw [landing_of_last hlast, hsteps, List.dropLast_concat]
  have hclimb : Step.climb ∉ path.route.steps := by
    rw [hsteps]
    exact notMem_concat (by decide) rfl hplain
  have hlong : Step.overlong ∉ path.route.steps := by
    rw [hsteps]
    exact notMem_concat (by decide) rfl hplain
  have hfollow : files.follow path.route path.route.toLast =
      .ok ((path.route.start files.workingDirectory).along front) := by
    refine (followToLast_eq_ok_iff _ _ _).mpr ⟨?_, hdir⟩
    rw [hsteps] at hclimb hlong
    rw [walkOf, hsteps, List.dropLast_concat]
    exact Tree.walk_along maxLinks (fun hmem => hclimb (List.mem_append_left _ hmem))
      (fun hmem => hlong (List.mem_append_left _ hmem)) hdir
  by_cases hnone : files.tree.get? (path.landing files.workingDirectory) = none
  · -- Nothing has the name yet, so the directory is made.
    have hhold : files.tree.CanHold (path.landing files.workingDirectory) := by
      rw [hland] at hnone ⊢
      refine ⟨hdir, fun hthere => ?_⟩
      rw [hnone] at hthere
      cases hthere
    refine ⟨files.withTree (files.tree.put (path.landing files.workingDirectory) .directory),
      Tree.get?_put_self .directory hhold, Or.inl ?_⟩
    rw [hland] at hnone
    exact (makeDir_eq_ok_iff _ _ _).mpr ⟨_, _, name, hroute, hfollow, hlast, hnone, by rw [hland]⟩
  · -- On an open way whatever has the name is a directory.
    have hthere := hopen.eq_directory hnone
    refine ⟨files, hthere, Or.inr ⟨?_, ?_, rfl⟩⟩
    · rw [hland] at hthere
      simp only [makeDir, bind, Except.bind, hroute, hfollow, hlast, hthere]
    · exact (isDirectory_iff_locate files path).mpr
        ⟨_, locate_landing hroute hclimb hlong hthere, hthere⟩

theorem makeEach_of_room (hroute : files.route path = .ok path.route)
    (hsteps : path.route.steps = front ++ [.enter name])
    (hplain : ∀ step ∈ front, step = .stay ∨ ∃ name, step = .enter name)
    (hdir : files.tree.get? ((path.route.start files.workingDirectory).along front) =
      some .directory)
    (hopen : files.tree.Open (path.landing files.workingDirectory)) (passed : List Path) :
    ∃ made, files.makeEach (path :: passed) = (.ok (), made) ∧
      made.tree.get? (path.landing files.workingDirectory) = some .directory := by
  rcases makeDir_of_room hroute hsteps hplain hdir hopen with
    ⟨made, hmade, hok | ⟨hthere, haccept, rfl⟩⟩
  · exact ⟨made, by rw [makeEach, hok], hmade⟩
  · refine ⟨made, ?_, hmade⟩
    rw [makeEach, hthere]
    simp only [acceptDir, haccept, ↓reduceIte]

theorem Grown.isOpen {paths : List Path} {reached : FileSystem} (h : Grown paths files reached)
    {place : Location} (hopen : files.tree.Open place) : reached.tree.Open place := by
  intro outer entry hin hentry
  cases hbefore : files.tree.get? outer with
  | none => exact (h.made outer entry hbefore hentry).1
  | some before =>
    have hsame := h.kept outer before hbefore
    rw [hentry, Option.some.injEq] at hsame
    rw [hsame]
    exact hopen outer before hin hbefore

theorem route_of_plain (segments : List (List UInt8)) (hlimit : files.pathLimit = none)
    (hplain : ∀ segment ∈ segments, Path.isIdle segment = true ∨ Name.Valid segment)
    (hne : (Path.ofSegments segments).bytes ≠ []) :
    files.route (Path.ofSegments segments) = .ok (Path.ofSegments segments).route := by
  refine (route_eq_ok_iff _ _ _).mpr ⟨Path.zero_notMem_of_plain hplain, hne, ?_, rfl⟩
  unfold isTooLong
  rw [hlimit]

/-- The location at which a path with the given first segment starts. -/
def startOf (files : FileSystem) (first : List UInt8) : Location :=
  if first = [] then [] else files.workingDirectory

/-- The location behind segments. -/
def behind (files : FileSystem) (first : List UInt8) (segments : List (List UInt8)) : Location :=
  (files.startOf first).along ((first :: segments.reverse).filterMap Step.ofSegment?)

theorem start_ofSegments (files : FileSystem) {first : List UInt8} {more : List (List UInt8)}
    (hsep : Path.separator ∉ first) (hne : first ≠ [] ∨ more ≠ []) :
    (Path.ofSegments (first :: more)).route.start files.workingDirectory = files.startOf first := by
  have habs := Path.isAbsolute_ofSegments hsep more
  unfold Route.start startOf
  rw [Path.route, habs]
  cases first with
  | cons b first => rfl
  | nil =>
    cases more with
    | cons next more => rfl
    | nil => exact absurd rfl (hne.resolve_left fun hnil => hnil rfl)

theorem steps_of_plain {segments : List (List UInt8)}
    (h : ∀ segment ∈ segments, Path.isIdle segment = true ∨ Name.Valid segment) :
    ∀ step ∈ segments.filterMap Step.ofSegment?, step = .stay ∨ ∃ name, step = .enter name := by
  intro step hstep
  rcases List.mem_filterMap.mp hstep with ⟨segment, hsegment, hof⟩
  exact Path.ofSegment?_of_plain (h segment hsegment) hof

theorem plain_cons_name {first : List UInt8} {segments : List (List UInt8)} (name : Name)
    (h : ∀ segment ∈ first :: segments, Path.isIdle segment = true ∨ Name.Valid segment) :
    ∀ segment ∈ first :: name.bytes :: segments,
      Path.isIdle segment = true ∨ Name.Valid segment := by
  intro segment hmem
  rcases List.mem_cons.mp hmem with rfl | hin
  · exact h segment List.mem_cons_self
  · rcases List.mem_cons.mp hin with rfl | hrest
    · exact Or.inr name.valid
    · exact h segment (List.mem_cons_of_mem first hrest)

theorem behind_of_isIdle {first segment : List UInt8} {segments : List (List UInt8)}
    (h : Path.isIdle segment = true) :
    files.behind first (segment :: segments) = files.behind first segments := by
  -- An idle segment is no step at all or stays.
  have hlast : ∀ place : Location,
      place.along ([segment].filterMap Step.ofSegment?) = place := by
    intro place
    cases hstep : Step.ofSegment? segment with
    | none => rw [List.filterMap_cons_none hstep]; rfl
    | some step =>
      rw [List.filterMap_cons_some hstep, Path.ofSegment?_eq_stay_of_isIdle h hstep]
      rfl
  unfold behind
  rw [List.reverse_cons, ← List.cons_append, List.filterMap_append, Location.along_append, hlast]

theorem behind_of_name {first : List UInt8} {segments : List (List UInt8)} (name : Name) :
    files.behind first (name.bytes :: segments) = name :: files.behind first segments := by
  have hlast : [name.bytes].filterMap Step.ofSegment? = [.enter name] :=
    List.filterMap_cons_some (Path.ofSegment?_name name)
  unfold behind
  rw [List.reverse_cons, ← List.cons_append, List.filterMap_append, hlast, Location.along_concat]

/-- What the path of plain segments says that end in a name. -/
theorem route_behind (files : FileSystem) {first : List UInt8} {segments : List (List UInt8)}
    (hplain : ∀ segment ∈ first :: segments, Path.isIdle segment = true ∨ Name.Valid segment)
    (name : Name) :
    (Path.ofSegments (first :: (name.bytes :: segments).reverse)).route.steps =
        (first :: segments.reverse).filterMap Step.ofSegment? ++ [.enter name] ∧
      (Path.ofSegments (first :: (name.bytes :: segments).reverse)).route.start
        files.workingDirectory = files.startOf first ∧
      (Path.ofSegments (first :: (name.bytes :: segments).reverse)).bytes ≠ [] := by
  have hall := Path.forall_mem_reverse (plain_cons_name name hplain)
  have hsep : ∀ segment ∈ first :: (name.bytes :: segments).reverse,
      Path.separator ∉ segment :=
    fun segment hmem => Path.separator_notMem_of_plain (hall segment hmem)
  have hlast : [name.bytes].filterMap Step.ofSegment? = [.enter name] :=
    List.filterMap_cons_some (Path.ofSegment?_name name)
  have hmore : (name.bytes :: segments).reverse ≠ [] := by
    rw [ne_eq, List.reverse_eq_nil_iff]
    exact List.cons_ne_nil _ _
  refine ⟨?_, start_ofSegments files (hsep first List.mem_cons_self) (Or.inr hmore), ?_⟩
  · rw [Path.steps_ofSegments (List.cons_ne_nil _ _) hsep, List.reverse_cons, ← List.cons_append,
      List.filterMap_append, hlast]
  · -- An empty path has one segment, and this one has two.
    intro hnil
    have hsegments := Path.segments_ofSegments (List.cons_ne_nil _ _) hsep
    have hlength := congrArg List.length hsegments
    rw [Path.segments, hnil, List.length_cons, List.length_reverse, List.length_cons] at hlength
    simp only [Path.split, List.length_cons, List.length_nil] at hlength
    omega

/-- A path that stays where it starts needs nothing to be made. -/
theorem makeEach_of_stay (hroute : files.route path = .ok path.route)
    (hsteps : path.route.steps = [.stay])
    (hstart : files.tree.get? (path.route.start files.workingDirectory) = some .directory)
    (passed : List Path) : files.makeEach (path :: passed) = (.ok (), files) := by
  have hland : path.landing files.workingDirectory = path.route.start files.workingDirectory := by
    unfold Path.landing
    rw [hsteps]
    rfl
  have hclimb : Step.climb ∉ path.route.steps := by
    rw [hsteps]
    decide
  have hlong : Step.overlong ∉ path.route.steps := by
    rw [hsteps]
    decide
  have hfollow : files.follow path.route path.route.toLast =
      .ok (path.route.start files.workingDirectory) := by
    refine (followToLast_eq_ok_iff _ _ _).mpr ⟨?_, hstart⟩
    rw [walkOf, hsteps]
    rfl
  have hlast : path.route.last? = some .stay := by
    rw [Route.last?, hsteps]
    rfl
  have hmake : files.makeDir path = .error (.system .alreadyExists) := by
    simp only [makeDir, bind, Except.bind, hroute, hfollow, hlast]
  rw [← hland] at hstart
  -- The error is accepted, since a directory is there.
  have haccept := (isDirectory_iff_locate files path).mpr
    ⟨_, locate_landing hroute hclimb hlong hstart, hstart⟩
  rw [makeEach, hmake]
  simp only [acceptDir, haccept, ↓reduceIte]

-- A single segment needs no other directory than the one it starts in.
theorem makeEach_single {first : List UInt8}
    (hplain : ∀ segment ∈ [first], Path.isIdle segment = true ∨ Name.Valid segment)
    (hlimit : files.pathLimit = none) (hne : first ≠ [])
    (hstart : files.tree.get? (files.startOf first) = some .directory)
    (hopen : files.tree.Open (files.behind first [])) :
    ∃ made, files.makeEach [Path.ofSegments [first]] = (.ok (), made) ∧
      made.tree.get? (files.behind first []) = some .directory := by
  have hsep : ∀ segment ∈ [first], Path.separator ∉ segment :=
    fun segment hmem => Path.separator_notMem_of_plain (hplain segment hmem)
  have hbytes : (Path.ofSegments [first]).bytes ≠ [] := by
    rw [Path.ofSegments, List.intercalate_singleton]
    exact hne
  have hroute := route_of_plain _ hlimit hplain hbytes
  have hsteps := Path.steps_ofSegments (List.cons_ne_nil first []) hsep
  have hfrom : (Path.ofSegments [first]).route.start files.workingDirectory =
      files.startOf first := start_ofSegments files (hsep first List.mem_cons_self) (Or.inl hne)
  have hland : (Path.ofSegments [first]).landing files.workingDirectory =
      files.behind first [] := by
    unfold Path.landing
    rw [hfrom, hsteps]
    rfl
  rw [← hfrom] at hstart
  rcases hplain first List.mem_cons_self with hidle | hvalid
  · have hstay : (Path.ofSegments [first]).route.steps = [.stay] := by
      rw [hsteps]
      rcases Path.ofSegment?_cases first with ⟨hnil, _⟩ | ⟨_, hstep⟩ | ⟨rfl, _⟩ | ⟨hnot, _⟩
      · exact absurd hnil hne
      · rw [List.filterMap_cons_some hstep, List.filterMap_nil]
      · exact absurd hidle (by decide)
      · rw [hnot] at hidle
        exact absurd hidle Bool.false_ne_true
    -- The segment is a dot, and names where the path starts.
    refine ⟨files, makeEach_of_stay hroute hstay hstart [], ?_⟩
    rw [← hland]
    unfold Path.landing
    rw [hstay]
    exact hstart
  · have henter : (Path.ofSegments [first]).route.steps = [] ++ [.enter ⟨first, hvalid⟩] := by
      rw [hsteps]
      exact List.filterMap_cons_some (Path.ofSegment?_name ⟨first, hvalid⟩)
    rw [← hland] at hopen ⊢
    exact makeEach_of_room hroute henter (fun _ hmem => absurd hmem List.not_mem_nil) hstart
      hopen []

/-- One more name, if the directory in front of it can be made. -/
theorem makeEach_behind_name {first : List UInt8} {segments : List (List UInt8)} (name : Name)
    (hplain : ∀ segment ∈ first :: segments, Path.isIdle segment = true ∨ Name.Valid segment)
    (hlimit : files.pathLimit = none)
    (hstart : files.tree.get? (files.startOf first) = some .directory)
    (hopen : files.tree.Open (files.behind first (name.bytes :: segments)))
    (hfront : ∃ made, files.makeEach (Path.ancestorsFrom first segments) = (.ok (), made) ∧
      made.tree.get? (files.behind first segments) = some .directory) :
    ∃ made, files.makeEach (Path.ofSegments (first :: (name.bytes :: segments).reverse) ::
        Path.ancestorsFrom first segments) = (.ok (), made) ∧
      made.tree.get? (files.behind first (name.bytes :: segments)) = some .directory := by
  have hsteps := steps_of_plain (Path.forall_mem_reverse hplain)
  rcases route_behind files hplain name with ⟨hpath, hfrom, hne⟩
  have hroute := route_of_plain _ hlimit (Path.forall_mem_reverse (plain_cons_name name hplain)) hne
  have hland : (Path.ofSegments (first :: (name.bytes :: segments).reverse)).landing
      files.workingDirectory = files.behind first (name.bytes :: segments) := by
    unfold Path.landing
    rw [hfrom, hpath, Location.along_concat, behind_of_name]
    rfl
  have haround : files.tree.Open (files.behind first segments) := by
    rw [behind_of_name] at hopen
    exact hopen.outer (Location.isWithin_cons name (Location.isWithin_refl _))
  rw [← hland] at hopen ⊢
  rw [← hfrom] at hstart
  by_cases hnone : files.tree.get? (files.behind first segments) = none
  · -- The directory around it is made first, and then there is room for it.
    rcases hfront with ⟨middle, hmiddle, hdir⟩
    have hgrown := grown_makeEach (Path.ancestorsFrom first segments) files
    rw [hmiddle] at hgrown
    have hcwd := hgrown.workingDirectory
    unfold behind at hnone haround hdir
    rw [← hfrom] at hnone haround hdir
    have hmissing := makeDir_of_missing hroute hpath hsteps hstart haround hnone
    rw [← hcwd] at hdir hopen ⊢
    rcases makeDir_of_room ((route_congr hgrown.pathLimit _).trans hroute) hpath hsteps
      hdir (hgrown.isOpen hopen) with ⟨made, hmade, hok | ⟨hthere, haccept, rfl⟩⟩
    · refine ⟨made, ?_, hmade⟩
      rw [makeEach, hmissing]
      simp only [hmiddle, hok]
    · refine ⟨made, ?_, hmade⟩
      rw [makeEach, hmissing]
      simp only [hmiddle, hthere, acceptDir, haccept, ↓reduceIte]
  · -- The directory around it is there, and nothing else has to be made.
    have hdir := haround.eq_directory hnone
    unfold behind at hdir
    rw [← hfrom] at hdir
    exact makeEach_of_room hroute hpath hsteps hdir hopen _

/-- Plain segments lead to a directory that can be made with all the directories
    on its way, if nothing but directories is on its way. -/
theorem makeEach_ancestorsFrom {first : List UInt8} {segments : List (List UInt8)}
    (hplain : ∀ segment ∈ first :: segments, Path.isIdle segment = true ∨ Name.Valid segment)
    (hlimit : files.pathLimit = none)
    (hstart : files.tree.get? (files.startOf first) = some .directory)
    (hopen : files.tree.Open (files.behind first segments)) :
    ∃ made, files.makeEach (Path.ancestorsFrom first segments) = (.ok (), made) ∧
      made.tree.get? (files.behind first segments) = some .directory := by
  induction segments with
  | nil =>
    by_cases hnil : first = []
    · -- The path is the root or empty, and there is nothing to make.
      refine ⟨files, ?_, ?_⟩
      · rw [Path.ancestorsFrom, if_pos hnil]
        rfl
      · rw [hnil] at hstart ⊢
        exact hstart
    · have hsingle : Path.ancestorsFrom first [] = [Path.ofSegments [first]] := by
        rw [Path.ancestorsFrom, if_neg hnil, Path.ofSegments, List.intercalate_singleton]
      rw [hsingle]
      exact makeEach_single hplain hlimit hnil hstart hopen
  | cons segment segments ih =>
    have hrest := Path.forall_mem_skip hplain
    by_cases hidle : Path.isIdle segment = true
    · -- An idle segment adds no path and no step.
      rw [behind_of_isIdle hidle] at hopen ⊢
      rw [Path.ancestorsFrom, if_pos hidle]
      exact ih hrest hopen
    · have hvalid : Name.Valid segment :=
        (hplain segment (List.mem_cons_of_mem first List.mem_cons_self)).resolve_left hidle
      have hname : segment = Name.bytes ⟨segment, hvalid⟩ := rfl
      rw [Path.ancestorsFrom, if_neg hidle]
      rw [hname] at hopen ⊢
      generalize (⟨segment, hvalid⟩ : Name) = name at hopen ⊢
      have haround : files.tree.Open (files.behind first segments) := by
        rw [behind_of_name] at hopen
        exact hopen.outer (Location.isWithin_cons name (Location.isWithin_refl _))
      exact makeEach_behind_name name hrest hlimit hstart hopen (ih hrest haround)

/-- A plain path can be looked up, as far as its length goes. -/
theorem route_of_isPlain (hlimit : files.pathLimit = none) (hplain : path.IsPlain)
    (hne : path.bytes ≠ []) : files.route path = .ok path.route := by
  have hroute := route_of_plain path.segments hlimit hplain
  rw [Path.ofSegments_segments] at hroute
  exact hroute hne

theorem route_join_of_isPlain (hlimit : files.pathLimit = none) (hplain : path.IsPlain)
    (name : Name) :
    files.route (path.join ⟨name.bytes⟩) = .ok (path.join ⟨name.bytes⟩).route := by
  have hlast : (path.join ⟨name.bytes⟩).route.last? = some (.enter name) := by
    rw [Path.route_join_name]
    exact List.getLast?_concat
  exact route_of_isPlain hlimit (hplain.join name) (Path.bytes_ne_nil_of_last hlast)

theorem makeDirs_of_open (hlimit : files.pathLimit = none) (hplain : path.IsPlain) (name : Name)
    (hstart : files.tree.get? (path.route.start files.workingDirectory) = some .directory)
    (hopen : files.tree.Open ((path.join ⟨name.bytes⟩).landing files.workingDirectory)) :
    ∃ made, files.makeDirs (path.join ⟨name.bytes⟩) = (.ok (), made) := by
  rcases Path.ancestors_join path name with ⟨first, segments, hsegments, hancestors⟩
  have hall := hplain.join name
  unfold Path.IsPlain at hall
  rw [hsegments] at hall
  have hwhole := Path.ofSegments_segments (path.join ⟨name.bytes⟩)
  rw [hsegments] at hwhole
  -- A name is never empty, so an empty segment is not the only one.
  have hne : first ≠ [] ∨ segments ≠ [] := by
    refine Classical.or_iff_not_imp_right.mpr fun hnil hfirst => name.valid.1 ?_
    rcases Path.segments_join path name.valid.2.2.2.1 name.valid.1 with ⟨front, hjoined, _⟩
    rw [hsegments, Classical.not_not.mp hnil, hfirst] at hjoined
    have hlast := congrArg List.getLast? hjoined
    rw [List.getLast?_concat] at hlast
    exact (Option.some.inj hlast).symm
  have hfrom := start_ofSegments files
    (Path.separator_notMem_of_plain (hall first List.mem_cons_self)) hne
  rw [hwhole] at hfrom
  have hland : files.behind first segments.reverse =
      (path.join ⟨name.bytes⟩).landing files.workingDirectory := by
    unfold behind Path.landing
    rw [hfrom, List.reverse_reverse, Path.route, hsegments]
  rw [Path.route_join_name] at hfrom
  have hstart' : files.tree.get? (files.startOf first) = some .directory := by
    rw [← hfrom]
    exact hstart
  rw [← hland] at hopen
  rcases makeEach_ancestorsFrom (Path.forall_mem_reverse hall) hlimit hstart' hopen with
    ⟨made, hmade, _⟩
  unfold makeDirs
  rw [hancestors]
  exact ⟨made, hmade⟩

end FileSystem

end TestWrappers
