import TestWrappers.Proofs.FileSystem.Landing
import TestWrappers.Proofs.Path.Plain

/-!
# Paths Taken From a Root

One place, named from where one is and named from a root.

A path that is taken from a root says the steps of the root and then its own. Seen from
the root it says its own steps only, with a single dot in front. The two are tied: they
differ in how they begin, and in nothing behind that. Joining keeps them tied, because it
does not matter in which order three paths are put together. The paths that they pass
through are tied as well, down to those that the root itself passes through.

## Main definitions

* `Path.glue`, `Path.front`: What stands in front of a path that is taken from another one.
* `Path.Tied`: Paths that name one place, with a root in front and without it.
* `Path.StepsFrom`: A path to what is right behind a root.
* `Route.Tied`: The routes of tied paths.

## Theorems

* `Path.join_assoc`: Three paths that are put together.
* `Path.segments_join_relative`: The segments of a path that is taken from another one.
* `Path.Tied.join`, `Path.tied_join_join`: Joining ties paths.
* `Path.Tied.route`, `Path.Tied.landing`: Tied paths have tied routes and land at one place.
* `Path.Tied.exists_ancestors`: The paths on the way are tied, as far as they are behind
  the root.
-/

namespace TestWrappers

namespace Path

/-- What joining puts between a path and what is taken from it. -/
def glue (path : Path) : List UInt8 :=
  if path.bytes = [] ∨ path.bytes.getLast? = some separator then [] else [separator]

variable {root a b c more : Path} {segments : List (List UInt8)}

theorem join_of_absolute (a : Path) (h : b.isAbsolute = true) : a.join b = b := by
  rw [join, if_pos h]

theorem join_of_relative (a : Path) (h : b.isAbsolute = false) :
    a.join b = ⟨a.bytes ++ (a.glue ++ b.bytes)⟩ := by
  unfold join glue
  rw [if_neg (Bool.eq_false_iff.mp h)]
  split <;> rfl

theorem isAbsolute_append (hne : a.bytes ≠ []) (bytes : List UInt8) :
    (⟨a.bytes ++ bytes⟩ : Path).isAbsolute = a.isAbsolute := by
  unfold isAbsolute
  rw [List.head?_append_of_ne_nil _ hne]

/-- What is taken from a path that starts at the root does so too. -/
theorem isAbsolute_join_of_absolute (h : a.isAbsolute = true) (b : Path) :
    (a.join b).isAbsolute = true := by
  have hne : a.bytes ≠ [] := by
    intro hnil
    rw [isAbsolute, hnil] at h
    exact absurd h (by decide)
  cases hb : b.isAbsolute with
  | true => rw [join_of_absolute a hb, hb]
  | false => rw [join_of_relative a hb, isAbsolute_append hne, h]

theorem isAbsolute_join_of_relative (ha : a.isAbsolute = false) (hb : b.isAbsolute = false)
    (hne : a.bytes ≠ []) : (a.join b).isAbsolute = false := by
  rw [join_of_relative a hb, isAbsolute_append hne, ha]

theorem glue_join (a : Path) (hb : b.isAbsolute = false) :
    (a.join b).glue = if b.bytes = [] then [] else b.glue := by
  rw [join_of_relative a hb]
  split
  · rename_i hnil
    rw [hnil, List.append_nil, glue, if_pos]
    unfold glue
    split
    · rename_i hor
      rw [List.append_nil]
      exact hor
    · exact Or.inr List.getLast?_concat
  · rename_i hne
    have hlast : (a.bytes ++ (a.glue ++ b.bytes)).getLast? = b.bytes.getLast? := by
      rw [← List.append_assoc, List.getLast?_append_of_ne_nil _ hne]
    have hne' : a.bytes ++ (a.glue ++ b.bytes) ≠ [] := fun hnil =>
      hne (List.append_eq_nil_iff.mp (List.append_eq_nil_iff.mp hnil).2).2
    unfold glue at hlast hne' ⊢
    dsimp only
    rw [hlast]
    simp only [hne, hne', false_or]

/-- It does not matter which two of three paths are put together first. -/
theorem join_assoc (a b c : Path) : (a.join b).join c = a.join (b.join c) := by
  cases hc : c.isAbsolute with
  | true => rw [join_of_absolute _ hc, join_of_absolute _ hc, join_of_absolute _ hc]
  | false =>
    cases hb : b.isAbsolute with
    | true =>
      rw [join_of_absolute a hb, join_of_absolute a (isAbsolute_join_of_absolute hb c)]
    | false =>
      have hinner : (b.join c).isAbsolute = false := by
        by_cases hnil : b.bytes = []
        · rw [join_of_relative b hc, glue, hnil, if_pos (Or.inl rfl)]
          exact hc
        · exact isAbsolute_join_of_relative hb hc hnil
      rw [join_of_relative _ hc, glue_join a hb, join_of_relative a hb, join_of_relative a hinner,
        join_of_relative b hc]
      -- Behind an empty path nothing is put in between, whatever is in front of it.
      by_cases hnil : b.bytes = []
      · have hglue : b.glue = [] := if_pos (Or.inl hnil)
        rw [if_pos hnil, hnil, hglue]
        simp only [List.append_nil, List.nil_append, List.append_assoc]
      · rw [if_neg hnil]
        simp only [List.append_assoc]

/-- The segments of a path that stand in front of what is taken from it: an empty last one
    is swallowed. -/
def front (path : Path) : List (List UInt8) :=
  if path.bytes.getLast? = some separator then path.segments.dropLast else path.segments

theorem separator_notMem_front {segment : List UInt8} (h : segment ∈ a.front) :
    separator ∉ segment := by
  have hmem : segment ∈ a.segments := by
    unfold front at h
    split at h
    · exact List.dropLast_subset _ h
    · exact h
  exact separator_notMem_of_mem_segments hmem

/-- In front of what is taken from a path stand its front and a separator. -/
theorem bytes_front (hne : a.bytes ≠ []) :
    a.front ≠ [] ∧ a.bytes ++ a.glue = [separator].intercalate a.front ++ [separator] ∧
      a.route.steps = a.front.filterMap Step.ofSegment? := by
  unfold front
  split
  · rename_i hlast
    rcases List.getLast?_eq_some_iff.mp hlast with ⟨bytes, hbytes⟩
    have hsegments : a.segments = split bytes ++ [[]] := by
      rw [segments, hbytes, split_append_separator]
      rfl
    have hglue : a.glue = [] := if_pos (Or.inr hlast)
    rw [hsegments, List.dropLast_concat, intercalate_split, hglue, List.append_nil, route,
      hsegments, List.filterMap_append]
    exact ⟨split_ne_nil bytes, hbytes, List.append_nil _⟩
  · rename_i hlast
    have hglue : a.glue = [separator] := if_neg fun hor => hor.elim hne hlast
    rw [segments, intercalate_split, hglue]
    exact ⟨split_ne_nil a.bytes, rfl, rfl⟩

/-- The segments of a path that is taken from another one stand behind the front of
    that. -/
theorem segments_join_relative (hne : a.bytes ≠ []) (hb : b.isAbsolute = false) :
    (a.join b).segments = a.front ++ b.segments := by
  rcases bytes_front hne with ⟨hfront, hbytes, _⟩
  rw [join_of_relative a hb, segments, ← List.append_assoc, hbytes, List.append_assoc,
    List.singleton_append, split_append_separator,
    split_intercalate hfront fun _ => separator_notMem_front]
  rfl

/-- Segments behind the front of a path are taken from it. -/
theorem ofSegments_front (hne : a.bytes ≠ []) (hsegments : segments ≠ [])
    (hrelative : (ofSegments segments).isAbsolute = false) :
    ofSegments (a.front ++ segments) = a.join (ofSegments segments) := by
  rcases bytes_front hne with ⟨hfront, hbytes, _⟩
  have hwhole : ∀ front : List (List UInt8), front ≠ [] →
      [separator].intercalate (front ++ segments) =
        [separator].intercalate front ++ separator :: [separator].intercalate segments := by
    intro front hfront
    induction front with
    | nil => exact absurd rfl hfront
    | cons first front ih =>
      by_cases hnil : front = []
      · rw [hnil, List.singleton_append, List.intercalate_cons_of_ne_nil hsegments,
          List.intercalate_singleton, List.append_assoc]
        rfl
      · have hwhole : front ++ segments ≠ [] := List.append_ne_nil_of_left_ne_nil hnil _
        rw [List.cons_append, List.intercalate_cons_of_ne_nil hwhole,
          List.intercalate_cons_of_ne_nil hnil, ih hnil]
        simp only [List.append_assoc]
  rw [join_of_relative a hrelative, ← List.append_assoc, hbytes, ofSegments, hwhole _ hfront,
    List.append_assoc, List.singleton_append]
  rfl

/-- A path that does not start at the root of all files and is not empty begins with a
    segment that is not empty. -/
theorem first_ne_nil (hne : a.bytes ≠ []) (ha : a.isAbsolute = false) :
    ∀ segment ∈ a.segments.head?, segment ≠ [] := by
  have hpath := ofSegments_segments a
  rcases List.exists_cons_of_ne_nil (segments_ne_nil a) with ⟨first, more, hsegments⟩
  have hsep : separator ∉ first :=
    separator_notMem_of_mem_segments (hsegments ▸ List.mem_cons_self)
  rw [hsegments] at hpath ⊢
  rw [← hpath, isAbsolute_ofSegments hsep] at ha
  intro segment hsegment hnil
  rw [List.head?_cons, Option.mem_some_iff] at hsegment
  rw [hsegment, hnil] at hpath ha
  cases more with
  | nil => exact hne (congrArg bytes hpath).symm
  | cons next more => exact absurd ha nofun

/-- So it has a step. -/
theorem steps_ne_nil (hne : a.bytes ≠ []) (ha : a.isAbsolute = false) : a.route.steps ≠ [] := by
  rcases List.exists_cons_of_ne_nil (segments_ne_nil a) with ⟨first, more, hsegments⟩
  have hfirst : first ≠ [] := first_ne_nil hne ha first (by rw [hsegments]; rfl)
  have hstep : Step.ofSegment? first ≠ none := by
    rcases ofSegment?_cases first with ⟨hnil, _⟩ | ⟨_, hstep⟩ | ⟨_, hstep⟩ |
      ⟨_, _, ⟨_, _, hstep⟩ | ⟨_, hstep⟩⟩
    · exact absurd hnil hfirst
    all_goals exact hstep ▸ nofun
  rcases Option.ne_none_iff_exists'.mp hstep with ⟨step, hstep⟩
  rw [route, hsegments, List.filterMap_cons_some hstep]
  exact List.cons_ne_nil _ _

/-- The route of a path that is taken from another one. -/
theorem route_join_relative (hne : a.bytes ≠ []) (hb : b.isAbsolute = false)
    (hne' : b.bytes ≠ []) : (a.join b).route =
      ⟨a.route.fromRoot, a.route.steps ++ b.route.steps, b.route.slash⟩ := by
  have hlast : (a.join b).bytes.getLast? = b.bytes.getLast? := by
    rw [join_of_relative a hb, ← List.append_assoc, List.getLast?_append_of_ne_nil _ hne']
  have hroot : (a.join b).isAbsolute = a.isAbsolute := by
    rw [join_of_relative a hb, isAbsolute_append hne]
  unfold route
  rw [hlast, hroot, segments_join_relative hne hb, List.filterMap_append,
    ← (bytes_front hne).2.2]
  rfl

/-- The path names a place from where one is by way of a root, and the other path names it
    from that root: both start at the root of all files and are the same, or there is one
    path that is taken from the root and from the directory one is in. -/
def Tied (root a b : Path) : Prop :=
  (a.isAbsolute = true ∧ a = b) ∨
    ∃ more : Path, more.isAbsolute = false ∧ more.bytes ≠ [] ∧
      a = root.join more ∧ b = (ofString ".").join more

/-- Tied paths stay tied when the same is put behind them. -/
theorem Tied.join (h : Tied root a b) (c : Path) : Tied root (a.join c) (b.join c) := by
  rcases h with ⟨habsolute, rfl⟩ | ⟨more, hrelative, hne, rfl, rfl⟩
  · exact Or.inl ⟨isAbsolute_join_of_absolute habsolute c, rfl⟩
  · cases hc : c.isAbsolute with
    | true =>
      rw [join_of_absolute _ hc, join_of_absolute _ hc]
      exact Or.inl ⟨hc, rfl⟩
    | false =>
      have hmore : (more.join c).bytes ≠ [] := by
        rw [join_of_relative more hc]
        exact List.append_ne_nil_of_left_ne_nil hne _
      exact Or.inr ⟨more.join c, isAbsolute_join_of_relative hrelative hc hne, hmore,
        join_assoc root more c, join_assoc _ more c⟩

/-- What is put behind something that is taken from a root and from the directory one is
    in gives tied paths. -/
theorem tied_join_join (root place : Path) (hc : c.isAbsolute = false) (hne : c.bytes ≠ []) :
    Tied root ((root.join place).join c) (((ofString ".").join place).join c) := by
  by_cases hnil : place.bytes = []
  · -- Nothing is taken from the root but what is put behind it.
    have hplace : place.isAbsolute = false := by
      rw [isAbsolute, hnil]
      rfl
    have hinner : place.join c = c := by
      rw [join_of_relative place hc, glue, hnil, if_pos (Or.inl rfl)]
      rfl
    rw [join_assoc, join_assoc, hinner]
    exact Or.inr ⟨c, hc, hne, rfl, rfl⟩
  · refine Tied.join ?_ c
    cases hplace : place.isAbsolute with
    | true =>
      rw [join_of_absolute _ hplace, join_of_absolute _ hplace]
      exact Or.inl ⟨hplace, rfl⟩
    | false => exact Or.inr ⟨place, hplace, hnil, rfl, rfl⟩

end Path

/-- The routes of tied paths: the steps of the root, or staying where one is, and then
    the same steps. -/
def Route.Tied (root a b : Route) : Prop :=
  (a.fromRoot = true ∧ a = b) ∨
    ∃ steps slash, steps ≠ [] ∧ a = ⟨root.fromRoot, root.steps ++ steps, slash⟩ ∧
      b = ⟨false, .stay :: steps, slash⟩

namespace Path

variable {root a b : Path} {segments : List (List UInt8)}

theorem Tied.route (h : Tied root a b) (hroot : root.bytes ≠ []) :
    Route.Tied root.route a.route b.route := by
  rcases h with ⟨habsolute, rfl⟩ | ⟨more, hrelative, hne, rfl, rfl⟩
  · exact Or.inl ⟨habsolute, rfl⟩
  · have hdot : (ofString ".").route = ⟨false, [.stay], false⟩ := by decide
    refine Or.inr ⟨more.route.steps, more.route.slash, steps_ne_nil hne hrelative,
      route_join_relative hroot hrelative hne, ?_⟩
    rw [route_join_relative (by decide) hrelative hne, hdot]
    rfl

/-- Segments that do not begin with an empty one are a path that is taken from somewhere. -/
theorem isAbsolute_ofSegments_of_first (hsegments : segments ≠ [])
    (hsep : ∀ segment ∈ segments, separator ∉ segment)
    (hfirst : ∀ segment ∈ segments.head?, segment ≠ []) :
    (ofSegments segments).isAbsolute = false ∧ (ofSegments segments).bytes ≠ [] := by
  rcases List.exists_cons_of_ne_nil hsegments with ⟨first, more, rfl⟩
  have hne : first ≠ [] := hfirst first rfl
  constructor
  · rw [isAbsolute_ofSegments (hsep first List.mem_cons_self), List.isEmpty_eq_false_iff.mpr hne]
    rfl
  · cases more with
    | nil =>
      rw [ofSegments, List.intercalate_singleton]
      exact hne
    | cons next more =>
      rw [ofSegments, List.intercalate_cons_cons]
      exact List.append_ne_nil_of_left_ne_nil (List.append_ne_nil_of_left_ne_nil hne _) _

/-- Segments behind the front of a root, and behind a single dot. -/
theorem ofSegments_behind (hroot : root.bytes ≠ []) (hsegments : segments ≠ [])
    (hrelative : (ofSegments segments).isAbsolute = false) :
    ofSegments (root.front ++ segments) = root.join (ofSegments segments) ∧
      ofSegments ([dot] :: segments) = (ofString ".").join (ofSegments segments) := by
  have hdot : (ofString ".").front = [[dot]] := by decide
  have hhere := ofSegments_front (show (ofString ".").bytes ≠ [] by decide) hsegments hrelative
  rw [hdot] at hhere
  exact ⟨ofSegments_front hroot hsegments hrelative, hhere⟩

/-- The path takes one step from where the root leads, and stays there before that. -/
def StepsFrom (root path : Path) : Prop :=
  ∃ stays step slash,
    path.route = ⟨root.route.fromRoot, root.route.steps ++ (stays ++ [step]), slash⟩ ∧
      ∀ other ∈ stays, other = .stay

/-- What stands behind a root and is idle but for the last segment takes one step from
    there. -/
theorem stepsFrom_join (hroot : root.bytes ≠ []) {stays : List (List UInt8)}
    {segment : List UInt8} (hsep : ∀ other ∈ stays ++ [segment], separator ∉ other)
    (hfirst : ∀ other ∈ (stays ++ [segment]).head?, other ≠ [])
    (hstays : ∀ other ∈ stays, isIdle other = true) (hsegment : isIdle segment = false) :
    StepsFrom root (root.join (ofSegments (stays ++ [segment]))) := by
  have hnil : stays ++ [segment] ≠ [] :=
    List.append_ne_nil_of_right_ne_nil _ (List.cons_ne_nil _ _)
  rcases isAbsolute_ofSegments_of_first hnil hsep hfirst with ⟨hrelative, hne⟩
  have hstep : ∃ step, Step.ofSegment? segment = some step := by
    rcases ofSegment?_cases segment with ⟨rfl, _⟩ | ⟨rfl, _⟩ | ⟨_, hstep⟩ |
      ⟨_, _, ⟨_, _, hstep⟩ | ⟨_, hstep⟩⟩
    · exact absurd hsegment nofun
    · exact absurd hsegment (by decide)
    all_goals exact ⟨_, hstep⟩
  rcases hstep with ⟨step, hstep⟩
  have hsteps : (ofSegments (stays ++ [segment])).route.steps =
      stays.filterMap Step.ofSegment? ++ [step] := by
    rw [route, segments_ofSegments hnil hsep, List.filterMap_append,
      List.filterMap_cons_some hstep]
    rfl
  refine ⟨stays.filterMap Step.ofSegment?, step, (ofSegments (stays ++ [segment])).route.slash,
    ?_, fun other hother => ?_⟩
  · rw [route_join_relative hroot hrelative hne, hsteps]
  · rcases List.mem_filterMap.mp hother with ⟨stay, hmem, hof⟩
    exact ofSegment?_eq_stay_of_isIdle (hstays stay hmem) hof

/-- The paths on the way behind a root are tied to those on the way from there. Unless
    nothing but idle segments is behind the root, one of them takes a single step from
    it. The segments are given last first. -/
theorem exists_ancestorsFrom_front (hroot : root.bytes ≠ []) {first : List UInt8}
    {outer : List (List UInt8)} (hfront : root.front = first :: outer)
    (hsep : ∀ segment ∈ segments, separator ∉ segment)
    (hfirst : ∀ segment ∈ segments.getLast?, segment ≠ []) :
    ∃ pathsA pathsB,
      ancestorsFrom first (segments ++ outer.reverse) =
        pathsA ++ ancestorsFrom first outer.reverse ∧
      ancestorsFrom [dot] segments = pathsB ++ [⟨[dot]⟩] ∧
      List.Forall₂ root.Tied pathsA pathsB ∧
      ((∃ segment ∈ segments, isIdle segment = false) → ∃ path ∈ pathsA, root.StepsFrom path) := by
  -- Each segment that is not idle gives one path on either side, and these are tied.
  induction segments with
  | nil =>
    refine ⟨[], [], rfl, if_neg (List.cons_ne_nil _ _), List.Forall₂.nil, ?_⟩
    rintro ⟨_, hmem, _⟩
    exact absurd hmem List.not_mem_nil
  | cons segment segments ih =>
    have hfirst' : ∀ other ∈ segments.getLast?, other ≠ [] := by
      intro other hother
      refine hfirst other ?_
      rw [List.getLast?_cons, hother]
      rfl
    rcases ih (fun other hmem => hsep other (List.mem_cons_of_mem segment hmem)) hfirst' with
      ⟨pathsA, pathsB, hA, hB, htied, hnext⟩
    rw [List.cons_append, ancestorsFrom, ancestorsFrom]
    by_cases hidle : isIdle segment = true
    · rw [if_pos hidle, if_pos hidle]
      refine ⟨pathsA, pathsB, hA, hB, htied, ?_⟩
      rintro ⟨other, hmem, hother⟩
      rcases List.mem_cons.mp hmem with rfl | hin
      · exact absurd (hother.symm.trans hidle) Bool.false_ne_true
      · exact hnext ⟨other, hin, hother⟩
    · rw [if_neg hidle, if_neg hidle, hA, hB]
      have hnil : (segment :: segments).reverse ≠ [] :=
        List.reverse_ne_nil_iff.mpr (List.cons_ne_nil _ _)
      have hsep' : ∀ other ∈ (segment :: segments).reverse, separator ∉ other :=
        fun other hmem => hsep other (List.mem_reverse.mp hmem)
      have hfirst' : ∀ other ∈ (segment :: segments).reverse.head?, other ≠ [] := by
        rw [List.head?_reverse]
        exact hfirst
      rcases isAbsolute_ofSegments_of_first hnil hsep' hfirst' with ⟨hrelative, hne⟩
      rcases ofSegments_behind hroot hnil hrelative with ⟨ha, hb⟩
      have ha' : ofSegments (first :: (segment :: (segments ++ outer.reverse)).reverse) =
          root.join (ofSegments (segment :: segments).reverse) := by
        rw [← ha, hfront, ← List.cons_append, List.reverse_append, List.reverse_reverse]
        rfl
      rw [ha', hb]
      refine ⟨_ :: pathsA, _ :: pathsB, rfl, rfl,
        List.Forall₂.cons (Or.inr ⟨_, hrelative, hne, rfl, rfl⟩) htied, fun _ => ?_⟩
      by_cases hmore : ∃ other ∈ segments, isIdle other = false
      · rcases hnext hmore with ⟨path, hmem, hpath⟩
        exact ⟨path, List.mem_cons_of_mem _ hmem, hpath⟩
      · -- This is the first segment that is not idle.
        rw [List.reverse_cons] at hsep' hfirst' ⊢
        refine ⟨_, List.mem_cons_self, stepsFrom_join hroot hsep' hfirst' (fun other hmem => ?_)
          (Bool.eq_false_iff.mpr hidle)⟩
        exact (Bool.not_eq_false _).mp fun hother =>
          hmore ⟨other, List.mem_reverse.mp hmem, hother⟩

/-- Names behind tied paths have tied paths on their ways. Those of both are tied, or
    those behind the root are and one of them takes a single step from it. -/
theorem Tied.exists_ancestors (h : Tied root a b) (hroot : root.bytes ≠ []) (name : Name) :
    ∃ pathsA pathsB restA restB,
      (a.join ⟨name.bytes⟩).ancestors = pathsA ++ restA ∧
      (b.join ⟨name.bytes⟩).ancestors = pathsB ++ restB ∧
      List.Forall₂ root.Tied pathsA pathsB ∧
      ((restA = [] ∧ restB = []) ∨ ∃ path ∈ pathsA, root.StepsFrom path) := by
  have hname := isAbsolute_name name
  rcases h with ⟨habsolute, rfl⟩ | ⟨more, hrelative, hne, rfl, rfl⟩
  · -- All paths on the way start at the root of all files.
    refine ⟨_, _, [], [], (List.append_nil _).symm, (List.append_nil _).symm, ?_,
      Or.inl ⟨rfl, rfl⟩⟩
    refine List.forall₂_same.mpr fun passed hpassed => Or.inl ⟨?_, rfl⟩
    exact (steps_of_mem_ancestors hpassed).2.trans (isAbsolute_join_of_absolute habsolute _)
  · have hrelative' := isAbsolute_join_of_relative hrelative hname hne
    -- The segments of the root stand in front on one side, and a single dot on the other.
    rcases ancestors_join (root.join more) name with ⟨first, segments, hsegments, hA⟩
    rcases ancestors_join ((ofString ".").join more) name with ⟨first', segments', hsegments', hB⟩
    rcases segments_join more name.valid.2.2.2.1 name.valid.1 with ⟨_, hlast, _⟩
    rcases List.exists_cons_of_ne_nil (bytes_front hroot).1 with ⟨head, outer, hfront⟩
    have hdot : (ofString ".").front = [[dot]] := by decide
    rw [join_assoc, segments_join_relative hroot hrelative', hfront, List.cons_append,
      List.cons.injEq] at hsegments
    rw [join_assoc, segments_join_relative (by decide) hrelative', hdot, List.cons_append,
      List.cons.injEq, List.nil_append] at hsegments'
    rcases hsegments with ⟨rfl, rfl⟩
    rcases hsegments' with ⟨rfl, rfl⟩
    have hne' : (more.join ⟨name.bytes⟩).bytes ≠ [] := by
      rw [join_of_relative more hname]
      exact List.append_ne_nil_of_left_ne_nil hne _
    have hfirst : ∀ segment ∈ (more.join ⟨name.bytes⟩).segments.reverse.getLast?,
        segment ≠ [] := by
      rw [List.getLast?_reverse]
      exact first_ne_nil hne' hrelative'
    rcases exists_ancestorsFrom_front hroot hfront
      (fun segment hmem => separator_notMem_of_mem_segments (List.mem_reverse.mp hmem)) hfirst with
      ⟨pathsA, pathsB, hpathsA, hpathsB, htied, hnext⟩
    rw [List.reverse_append] at hA
    refine ⟨pathsA, pathsB, _, _, hA.trans hpathsA, hB.trans hpathsB, htied,
      Or.inr (hnext ⟨name.bytes, ?_, isIdle_name name⟩)⟩
    rw [hlast, List.mem_reverse]
    exact List.mem_concat_self

theorem Tied.landing (h : Tied root a b) (hroot : root.bytes ≠ []) (directory : Location) :
    a.landing directory = b.landing (root.landing directory) := by
  unfold Path.landing
  rcases h.route hroot with ⟨habsolute, heq⟩ | ⟨steps, slash, _, ha, hb⟩
  · rw [← heq, Route.start, Route.start, habsolute, if_pos rfl, if_pos rfl]
  · rw [ha, hb]
    exact Location.along_append _ root.route.steps steps

end Path

theorem Route.Tied.last? {root a b : Route} (h : Route.Tied root a b) :
    a.last? = b.last? ∧ a.slash = b.slash := by
  rcases h with ⟨_, rfl⟩ | ⟨steps, slash, hne, rfl, rfl⟩
  · exact ⟨rfl, rfl⟩
  · unfold Route.last?
    rcases List.exists_cons_of_ne_nil hne with ⟨step, steps, rfl⟩
    rw [List.getLast?_append_of_ne_nil _ hne, List.getLast?_cons_cons]
    exact ⟨rfl, rfl⟩

end TestWrappers
