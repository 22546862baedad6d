import Mathlib.Data.List.Chain
import TestWrappers.FileSystem.Route

/-!
# What a Path Passes Through

How the steps of a path grow out of those of the paths that it passes through.

Directories on the way to a path are made one path after the other, the
shortest first. That works because each path takes the steps of the one before
and just one more that counts: the rest of what it adds is staying where it is.
`Continues` is that relation, and `isChain_ancestors` says that it holds from
each path on the way to the next one.

The steps of a path are read off its segments, so everything here rests on one
fact about bytes: segments that hold no separator are found again when they are
put together with separators between them.

## Main definitions

* `Path.Continues`: A path takes one more step than another one.
* `Path.IsStraight`, `Route.IsStraight`: A path or route climbs before it goes to
  any name, or not at all.

## Theorems

* `Path.split_intercalate`: Segments are found again.
* `Path.steps_ofSegments`: The steps of a path made of segments.
* `Path.isChain_ancestors`: Each path on the way continues the next shorter one.
* `Path.IsStraight.route`: A straight path has a straight route.
-/

namespace TestWrappers

/-- The route climbs, if at all, before it goes to any name. -/
def Route.IsStraight (route : Route) : Prop :=
  route.steps.Pairwise fun first second => (∃ name, first = .enter name) → second ≠ .climb

theorem Route.isStraight_of_climb_notMem {route : Route} (h : Step.climb ∉ route.steps) :
    route.IsStraight := by
  rw [IsStraight, List.pairwise_iff_forall_sublist]
  intro first second hsub _ hclimb
  exact h (hclimb ▸ hsub.subset (List.mem_cons_of_mem _ List.mem_cons_self))

namespace Path

theorem separator_notMem_of_mem_split {bytes segment : List UInt8} (h : segment ∈ split bytes) :
    separator ∉ segment := by
  induction bytes generalizing segment with
  | nil =>
    simp only [split, List.mem_singleton] at h
    rw [h]
    exact List.not_mem_nil
  | cons b bytes ih =>
    simp only [split] at h
    split at h
    · rcases List.mem_cons.mp h with rfl | hmem
      · exact List.not_mem_nil
      · exact ih hmem
    · rename_i hb
      -- The byte joins the first segment of what follows it.
      cases hs : split bytes with
      | nil => exact absurd hs (split_ne_nil bytes)
      | cons first more =>
        rw [hs] at h ih
        rcases List.mem_cons.mp h with rfl | hmem
        · intro hsep
          rcases List.mem_cons.mp hsep with heq | hfirst
          · exact hb heq.symm
          · exact ih List.mem_cons_self hfirst
        · exact ih (List.mem_cons_of_mem first hmem)

/-- A separator between two sequences of bytes parts their segments. -/
theorem split_append_separator (bytes more : List UInt8) :
    split (bytes ++ separator :: more) = split bytes ++ split more := by
  induction bytes with
  | nil => simp only [List.nil_append, split, ↓reduceIte, List.singleton_append]
  | cons b bytes ih =>
    rw [List.cons_append, split, split]
    split
    · rw [ih, List.cons_append]
    · rw [ih]
      cases hs : split bytes with
      | nil => exact absurd hs (split_ne_nil bytes)
      | cons segment segments => rfl

theorem split_of_notMem {segment : List UInt8} (h : separator ∉ segment) :
    split segment = [segment] := by
  induction segment with
  | nil => rfl
  | cons b segment ih =>
    simp only [List.mem_cons, not_or] at h
    rw [split, if_neg (Ne.symm h.1), ih h.2]

/-- Segments without separators are found again when they are put together. -/
theorem split_intercalate {segments : List (List UInt8)} (hne : segments ≠ [])
    (h : ∀ segment ∈ segments, separator ∉ segment) :
    split ([separator].intercalate segments) = segments := by
  induction segments with
  | nil => exact absurd rfl hne
  | cons first more ih =>
    have hfirst := h first List.mem_cons_self
    cases more with
    | nil => rw [List.intercalate_singleton, split_of_notMem hfirst]
    | cons next more =>
      rw [List.intercalate_cons_cons, List.append_assoc, List.singleton_append,
        split_append_separator, split_of_notMem hfirst, List.singleton_append,
        ih (List.cons_ne_nil next more) fun segment hmem => h segment (List.mem_cons_of_mem _ hmem)]

theorem separator_notMem_of_mem_segments {path : Path} {segment : List UInt8}
    (h : segment ∈ path.segments) : separator ∉ segment :=
  separator_notMem_of_mem_split h

theorem segments_ofSegments {segments : List (List UInt8)} (hne : segments ≠ [])
    (h : ∀ segment ∈ segments, separator ∉ segment) : (ofSegments segments).segments = segments :=
  split_intercalate hne h

theorem steps_ofSegments {segments : List (List UInt8)} (hne : segments ≠ [])
    (h : ∀ segment ∈ segments, separator ∉ segment) :
    (ofSegments segments).route.steps = segments.filterMap Step.ofSegment? := by
  rw [route, segments_ofSegments hne h]

/-- A path starts at the root exactly if its first segment is empty and another
    one follows. -/
theorem isAbsolute_ofSegments {first : List UInt8} (h : separator ∉ first)
    (more : List (List UInt8)) :
    (ofSegments (first :: more)).isAbsolute = (first.isEmpty && !more.isEmpty) := by
  cases first with
  | nil =>
    cases more with
    | nil => rfl
    | cons next more =>
      rw [isAbsolute, ofSegments, List.intercalate_cons_cons]
      rfl
  | cons b first =>
    have hb : separator ≠ b := fun heq => h (heq ▸ List.mem_cons_self)
    cases more with
    | nil => simp [isAbsolute, ofSegments, List.intercalate_singleton, Ne.symm hb]
    | cons next more => simp [isAbsolute, ofSegments, List.intercalate_cons_cons, Ne.symm hb]

/-- What a segment says: nothing, to stay, to climb, or to go to an entry whose
    name it is or would be if it were not too long. -/
theorem ofSegment?_cases (segment : List UInt8) :
    (segment = [] ∧ Step.ofSegment? segment = none) ∨
    (segment = [dot] ∧ Step.ofSegment? segment = some .stay) ∨
    (segment = [dot, dot] ∧ Step.ofSegment? segment = some .climb) ∨
    (isIdle segment = false ∧ segment ≠ [dot, dot] ∧
      ((∃ name, name.bytes = segment ∧ Step.ofSegment? segment = some (.enter name)) ∨
        (¬ Name.Valid segment ∧ Step.ofSegment? segment = some .overlong))) := by
  by_cases hnil : segment = []
  · exact Or.inl ⟨hnil, by rw [Step.ofSegment?, if_pos hnil]⟩
  by_cases hdot : segment = [dot]
  · exact Or.inr (Or.inl ⟨hdot, by rw [Step.ofSegment?, if_neg hnil, if_pos hdot]⟩)
  by_cases hup : segment = [dot, dot]
  · exact Or.inr (Or.inr (Or.inl ⟨hup, by
      rw [Step.ofSegment?, if_neg hnil, if_neg hdot, if_pos hup]⟩))
  refine Or.inr (Or.inr (Or.inr ⟨?_, hup, ?_⟩))
  · simp only [isIdle, Bool.or_eq_false_iff, beq_eq_false_iff_ne, ne_eq]
    exact ⟨hnil, hdot⟩
  · rw [Step.ofSegment?, if_neg hnil, if_neg hdot, if_neg hup]
    by_cases hvalid : Name.Valid segment
    · exact Or.inl ⟨⟨segment, hvalid⟩, rfl, by rw [Name.ofBytes?, dif_pos hvalid]; rfl⟩
    · exact Or.inr ⟨hvalid, by rw [Name.ofBytes?, dif_neg hvalid]; rfl⟩

theorem ofSegment?_eq_stay_of_isIdle {segment : List UInt8} (h : isIdle segment = true)
    {step : Step} (hstep : Step.ofSegment? segment = some step) : step = .stay := by
  rcases ofSegment?_cases segment with ⟨_, hseg⟩ | ⟨_, hseg⟩ | ⟨rfl, _⟩ | ⟨hidle, _⟩
  · rw [hseg] at hstep
    simp only [reduceCtorEq] at hstep
  · rw [hseg] at hstep
    exact (Option.some.inj hstep).symm
  · exact absurd h (by decide)
  · rw [hidle] at h
    exact absurd h Bool.false_ne_true

/-- A segment that is not idle asks for a step, and not for staying. -/
theorem exists_ofSegment?_of_not_isIdle {segment : List UInt8} (h : isIdle segment = false) :
    ∃ step, Step.ofSegment? segment = some step ∧ step ≠ .stay := by
  rcases ofSegment?_cases segment with
    ⟨rfl, _⟩ | ⟨rfl, _⟩ | ⟨_, hseg⟩ | ⟨_, _, ⟨name, _, hseg⟩ | ⟨_, hseg⟩⟩
  · exact absurd h (by decide)
  · exact absurd h (by decide)
  · exact ⟨.climb, hseg, nofun⟩
  · exact ⟨.enter name, hseg, nofun⟩
  · exact ⟨.overlong, hseg, nofun⟩

-- The first segment of a path stands for itself, and the others are gone through
-- from the last one.
theorem forall_mem_skip {p : List UInt8 → Prop} {first segment : List UInt8}
    {segments : List (List UInt8)} (h : ∀ s ∈ first :: segment :: segments, p s) :
    ∀ s ∈ first :: segments, p s := by
  intro s hmem
  rcases List.mem_cons.mp hmem with rfl | hin
  · exact h s List.mem_cons_self
  · exact h s (List.mem_cons_of_mem first (List.mem_cons_of_mem segment hin))

theorem forall_mem_reverse {p : List UInt8 → Prop} {first : List UInt8}
    {segments : List (List UInt8)} (h : ∀ s ∈ first :: segments, p s) :
    ∀ s ∈ first :: segments.reverse, p s := by
  intro s hmem
  rcases List.mem_cons.mp hmem with rfl | hin
  · exact h s List.mem_cons_self
  · exact h s (List.mem_cons_of_mem first (List.mem_reverse.mp hin))

/-- The first path takes the steps of the second, one step more that is not
    staying, and around that step it may stay where it is. -/
def Continues (longer shorter : Path) : Prop :=
  longer.route.fromRoot = shorter.route.fromRoot ∧
  ∃ before step after, longer.route.steps = shorter.route.steps ++ before ++ step :: after ∧
    step ≠ .stay ∧ (∀ other ∈ before, other = .stay) ∧ ∀ other ∈ after, other = .stay

/-- The longest of the paths passed through takes all steps, up to staying. -/
theorem exists_stays_of_ancestorsFrom {first : List UInt8} {segments : List (List UInt8)}
    (h : ∀ segment ∈ first :: segments, separator ∉ segment) {path : Path} {passed : List Path}
    (hpaths : ancestorsFrom first segments = path :: passed) :
    path.route.fromRoot = first.isEmpty ∧
      ∃ stays, (first :: segments.reverse).filterMap Step.ofSegment? = path.route.steps ++ stays ∧
        ∀ other ∈ stays, other = .stay := by
  have hfirst := h first List.mem_cons_self
  fun_induction ancestorsFrom first segments with
  | case1 hnil => simp only [reduceCtorEq] at hpaths
  | case2 hne =>
    simp only [List.cons.injEq] at hpaths
    rcases hpaths with ⟨rfl, _⟩
    -- One path is left, whose only segment is the first one.
    have hsegments : (ofSegments [first]).route.steps = [first].filterMap Step.ofSegment? :=
      steps_ofSegments (List.cons_ne_nil _ _) fun segment hmem => by
        rw [List.mem_singleton.mp hmem]
        exact hfirst
    have habs := isAbsolute_ofSegments hfirst []
    have hpath : ofSegments [first] = ⟨first⟩ := by rw [ofSegments, List.intercalate_singleton]
    rw [hpath] at hsegments habs
    refine ⟨?_, [], ?_, fun _ hmem => absurd hmem List.not_mem_nil⟩
    · rw [route, habs]
      cases first with
      | nil => exact absurd rfl hne
      | cons b first => rfl
    · rw [List.append_nil, hsegments]
      rfl
  | case3 segment segments hidle ih =>
    have hmore : ∀ s ∈ first :: segments, separator ∉ s := forall_mem_skip h
    -- The idle segment is passed over. If it is a step at all, it stays.
    rcases ih hmore hpaths with ⟨hroot, stays, hsteps, hstays⟩
    refine ⟨hroot, stays ++ [segment].filterMap Step.ofSegment?, ?_, fun other hmem => ?_⟩
    · rw [List.reverse_cons, ← List.cons_append, List.filterMap_append, hsteps, List.append_assoc]
    · rcases List.mem_append.mp hmem with hin | hlast
      · exact hstays other hin
      · rcases List.mem_filterMap.mp hlast with ⟨s, hs, hother⟩
        rw [List.mem_singleton.mp hs] at hother
        exact ofSegment?_eq_stay_of_isIdle hidle hother
  | case4 segment segments hidle ih =>
    simp only [List.cons.injEq] at hpaths
    rcases hpaths with ⟨rfl, _⟩
    have hall : ∀ s ∈ first :: (segment :: segments).reverse, separator ∉ s :=
      forall_mem_reverse h
    refine ⟨?_, [], ?_, fun _ hmem => absurd hmem List.not_mem_nil⟩
    · rw [route, isAbsolute_ofSegments hfirst]
      simp
    · rw [List.append_nil, steps_ofSegments (List.cons_ne_nil _ _) hall]

theorem continues_of_ancestorsFrom {first segment : List UInt8} {segments : List (List UInt8)}
    (h : ∀ s ∈ first :: segment :: segments, separator ∉ s) (hidle : isIdle segment = false)
    {shorter : Path} {passed : List Path}
    (hpaths : ancestorsFrom first segments = shorter :: passed) :
    Continues (ofSegments (first :: (segment :: segments).reverse)) shorter := by
  have hfirst := h first List.mem_cons_self
  have hmore : ∀ s ∈ first :: segments, separator ∉ s := forall_mem_skip h
  have hall : ∀ s ∈ first :: (segment :: segments).reverse, separator ∉ s :=
    forall_mem_reverse h
  rcases exists_stays_of_ancestorsFrom hmore hpaths with ⟨hroot, stays, hsteps, hstays⟩
  rcases exists_ofSegment?_of_not_isIdle hidle with ⟨step, hstep, hnot⟩
  refine ⟨?_, stays, step, [], ?_, hnot, hstays, fun _ hmem => absurd hmem List.not_mem_nil⟩
  · rw [hroot, route, isAbsolute_ofSegments hfirst]
    simp
  · rw [steps_ofSegments (List.cons_ne_nil _ _) hall, List.reverse_cons, ← List.cons_append,
      List.filterMap_append, hsteps, List.filterMap_cons_some hstep, List.filterMap_nil]

theorem isChain_ancestorsFrom {first : List UInt8} {segments : List (List UInt8)}
    (h : ∀ segment ∈ first :: segments, separator ∉ segment) :
    (ancestorsFrom first segments).IsChain Continues := by
  induction segments with
  | nil =>
    rw [ancestorsFrom]
    split
    · exact List.IsChain.nil
    · exact List.IsChain.singleton _
  | cons segment segments ih =>
    have hmore : ∀ s ∈ first :: segments, separator ∉ s := forall_mem_skip h
    rw [ancestorsFrom]
    split
    · exact ih hmore
    · rename_i hidle
      have hchain := ih hmore
      cases hpaths : ancestorsFrom first segments with
      | nil => exact List.IsChain.singleton _
      | cons shorter passed =>
        rw [hpaths] at hchain
        exact List.IsChain.cons_cons
          (continues_of_ancestorsFrom h (Bool.eq_false_iff.mpr hidle) hpaths) hchain

theorem ancestors_of_ne_nil {path : Path} (h : path.bytes ≠ []) :
    ∃ first segments, path.segments = first :: segments ∧
      path.ancestors = path :: (ancestorsFrom first segments.reverse).tail := by
  cases hsegments : path.segments with
  | nil => exact absurd hsegments (segments_ne_nil path)
  | cons first segments =>
    refine ⟨first, segments, rfl, ?_⟩
    rw [ancestors, if_neg h, hsegments]

/-- Each path on the way to a path continues the next shorter one. -/
theorem isChain_ancestors (path : Path) : path.ancestors.IsChain Continues := by
  by_cases hpath : path.bytes = []
  · rw [ancestors, if_pos hpath]
    exact List.IsChain.nil
  rcases ancestors_of_ne_nil hpath with ⟨first, segments, hsegments, hancestors⟩
  have hall : ∀ segment ∈ first :: segments.reverse, separator ∉ segment :=
    forall_mem_reverse fun segment hmem => separator_notMem_of_mem_segments (hsegments ▸ hmem)
  have hchain := isChain_ancestorsFrom hall
  rw [hancestors]
  cases hpaths : ancestorsFrom first segments.reverse with
  | nil => exact List.IsChain.singleton _
  | cons longest passed =>
    rw [hpaths] at hchain
    cases passed with
    | nil => exact List.IsChain.singleton _
    | cons shorter passed =>
      -- The path as it is written differs from the longest one by staying at its end.
      rcases List.isChain_cons_cons.mp hchain with
        ⟨⟨hroot, before, step, after, hsteps, hnot, hbefore, hafter⟩, hrest⟩
      rcases exists_stays_of_ancestorsFrom hall hpaths with ⟨hfrom, stays, hall', hstays⟩
      refine List.IsChain.cons_cons ⟨?_, before, step, after ++ stays, ?_, hnot, hbefore, ?_⟩ hrest
      · have hpath' := isAbsolute_ofSegments (hall first List.mem_cons_self) segments
        rw [← hsegments, ofSegments_segments] at hpath'
        rw [← hroot, hfrom, route, hpath']
        cases first with
        | cons b first => rfl
        | nil =>
          cases segments with
          | nil => simp only [List.reverse_nil, ancestorsFrom, ↓reduceIte, reduceCtorEq] at hpaths
          | cons next segments => rfl
      · rw [List.reverse_reverse] at hall'
        rw [route, hsegments, hall', hsteps]
        simp only [List.append_assoc, List.cons_append]
      · intro other hmem
        exact (List.mem_append.mp hmem).elim (hafter other) (hstays other)

/-- The path climbs, if at all, before it goes to any name. -/
def IsStraight (path : Path) : Prop :=
  path.components.Pairwise fun first second => (∃ bytes, first = .name bytes) → second ≠ .up

theorem isStraight_of_up_notMem {path : Path} (h : Component.up ∉ path.components) :
    path.IsStraight := by
  rw [IsStraight, List.pairwise_iff_forall_sublist]
  intro first second hsub _ hup
  exact h (hup ▸ hsub.subset (List.mem_cons_of_mem _ List.mem_cons_self))

theorem ofSegment_of_enter {segment : List UInt8} {name : Name}
    (h : Step.ofSegment? segment = some (.enter name)) :
    isIdle segment = false ∧ Component.ofSegment segment = .name segment := by
  rcases ofSegment?_cases segment with
    ⟨_, hseg⟩ | ⟨_, hseg⟩ | ⟨_, hseg⟩ | ⟨hidle, hup, _⟩
  · rw [hseg] at h
    simp only [reduceCtorEq] at h
  · rw [hseg] at h
    simp only [Option.some.injEq, reduceCtorEq] at h
  · rw [hseg] at h
    simp only [Option.some.injEq, reduceCtorEq] at h
  · exact ⟨hidle, if_neg hup⟩

theorem eq_of_ofSegment?_eq_climb {segment : List UInt8}
    (h : Step.ofSegment? segment = some .climb) : segment = [dot, dot] := by
  rcases ofSegment?_cases segment with
    ⟨_, hseg⟩ | ⟨_, hseg⟩ | ⟨hup, _⟩ | ⟨_, _, ⟨name, _, hseg⟩ | ⟨_, hseg⟩⟩
  · rw [hseg] at h
    simp only [reduceCtorEq] at h
  · rw [hseg] at h
    simp only [Option.some.injEq, reduceCtorEq] at h
  · exact hup
  · rw [hseg] at h
    simp only [Option.some.injEq, reduceCtorEq] at h
  · rw [hseg] at h
    simp only [Option.some.injEq, reduceCtorEq] at h

theorem IsStraight.route {path : Path} (h : path.IsStraight) : path.route.IsStraight := by
  rw [IsStraight, components, List.pairwise_append, List.pairwise_map, List.pairwise_filter] at h
  rw [Route.IsStraight, Path.route, List.pairwise_filterMap]
  refine h.2.1.imp fun {first second} hpair step hstep other hother hname hclimb => ?_
  rcases hname with ⟨name, rfl⟩
  subst hclimb
  -- A name followed by a climb would be a name followed by two dots.
  rcases ofSegment_of_enter hstep with ⟨hidle, hcomponent⟩
  have hup := eq_of_ofSegment?_eq_climb hother
  subst hup
  exact hpair (by rw [hidle]; rfl) rfl ⟨first, hcomponent⟩ rfl

end Path

end TestWrappers
