import TestWrappers.Proofs.Path.Passage

/-!
# Paths of Entries

What becomes of a path when a single segment is put behind it.

Joining only concatenates bytes, with a separator between them or not, and the
first path may be empty, may be the root, or may end in a separator already. All
of these cases come to the same: the steps of the first path and then one more.
A separator at its end is swallowed, so that the joined path no longer insists
on a directory.

## Theorems

* `Path.segments_join`: The segment stands behind those of the first path.
* `Path.route_join`: One more step is taken.
* `Path.components_join`: One more component is said.
* `Path.IsStraight.join`: A name behind a straight path leaves it straight.
-/

namespace TestWrappers

namespace Path

-- A path that ends in a separator has an empty last segment, and that is the
-- one the new segment takes the place of.
theorem segments_join (a : Path) {segment : List UInt8} (h : separator ∉ segment)
    (hne : segment ≠ []) : ∃ front, (a.join ⟨segment⟩).segments = front ++ [segment] ∧
      (a.segments = front ∨ a.segments = front ++ [[]]) := by
  have hrelative : (⟨segment⟩ : Path).isAbsolute = false := by
    cases segment with
    | nil => exact absurd rfl hne
    | cons b segment =>
      have hb : b ≠ separator := fun heq => h (heq ▸ List.mem_cons_self)
      simp only [isAbsolute, List.head?_cons, beq_eq_false_iff_ne, ne_eq, Option.some.injEq, hb,
        not_false_eq_true]
  unfold join
  rw [if_neg (Bool.eq_false_iff.mp hrelative)]
  by_cases hempty : a.bytes = []
  · -- The empty path has one segment, an empty one.
    refine ⟨[], ?_, Or.inr ?_⟩
    · rw [if_pos (Or.inl hempty), hempty, segments, List.nil_append, split_of_notMem h]
      rfl
    · rw [segments, hempty]
      rfl
  by_cases hlast : a.bytes.getLast? = some separator
  · rcases List.getLast?_eq_some_iff.mp hlast with ⟨bytes, hbytes⟩
    refine ⟨split bytes, ?_, Or.inr ?_⟩
    · rw [if_pos (Or.inr hlast), segments, hbytes, List.append_assoc, List.singleton_append,
        split_append_separator, split_of_notMem h]
    · rw [segments, hbytes, split_append_separator]
      rfl
  · refine ⟨a.segments, ?_, Or.inl rfl⟩
    rw [if_neg fun hor => hor.elim hempty hlast, segments, split_append_separator,
      split_of_notMem h, segments]

theorem getLast?_join (a : Path) {segment : List UInt8} (hne : segment ≠ []) :
    (a.join ⟨segment⟩).bytes.getLast? = segment.getLast? := by
  unfold join
  split
  · rfl
  · split
    · rw [List.getLast?_append_of_ne_nil _ hne]
    · have hcons : (separator :: segment).getLast? = segment.getLast? := by
        rw [← List.singleton_append, List.getLast?_append_of_ne_nil _ hne]
      rw [List.getLast?_append_of_ne_nil _ (List.cons_ne_nil _ _), hcons]

theorem isAbsolute_join (a : Path) {segment : List UInt8} (h : separator ∉ segment) :
    (a.join ⟨segment⟩).isAbsolute = a.isAbsolute := by
  have hrelative : (⟨segment⟩ : Path).isAbsolute = false := by
    refine beq_eq_false_iff_ne.mpr fun hhead => ?_
    exact h (List.mem_of_head? hhead)
  unfold join
  rw [if_neg (Bool.eq_false_iff.mp hrelative)]
  cases hbytes : a.bytes with
  | nil =>
    -- Behind the empty path the segment stands alone, and it is relative.
    rw [if_pos (Or.inl rfl)]
    have ha : a.isAbsolute = false := by
      rw [isAbsolute, hbytes]
      rfl
    rw [ha]
    exact hrelative
  | cons b bytes =>
    unfold isAbsolute
    rw [hbytes]
    split <;> rfl

/-- A segment behind a path asks for one more step, and what it leads to need
    not be a directory. -/
theorem route_join (a : Path) {segment : List UInt8} (h : separator ∉ segment)
    (hne : segment ≠ []) : (a.join ⟨segment⟩).route =
      ⟨a.route.fromRoot, a.route.steps ++ (Step.ofSegment? segment).toList, false⟩ := by
  rcases segments_join a h hne with ⟨front, hjoined, hfront⟩
  -- An empty last segment gives no step, so both cases for the front agree.
  have hsteps : a.route.steps = front.filterMap Step.ofSegment? := by
    unfold Path.route
    rcases hfront with heq | heq
    · rw [heq]
    · rw [heq, List.filterMap_append]
      exact List.append_nil _
  have hslash : ((a.join ⟨segment⟩).bytes.getLast? == some separator) = false := by
    refine beq_eq_false_iff_ne.mpr fun hlast => ?_
    rw [getLast?_join a hne] at hlast
    exact h (List.mem_of_getLast? hlast)
  have hlast : [segment].filterMap Step.ofSegment? = (Step.ofSegment? segment).toList := by
    cases hstep : Step.ofSegment? segment with
    | none => rw [List.filterMap_cons_none hstep]; rfl
    | some step => rw [List.filterMap_cons_some hstep]; rfl
  have hmap : (a.join ⟨segment⟩).segments.filterMap Step.ofSegment? =
      a.route.steps ++ (Step.ofSegment? segment).toList := by
    rw [hjoined, List.filterMap_append, ← hsteps, hlast]
  rw [Path.route, isAbsolute_join a h, hmap, hslash]
  rfl

theorem ofSegment?_name (name : Name) : Step.ofSegment? name.bytes = some (.enter name) := by
  rcases name.valid with ⟨hne, hdot, hup, _⟩
  unfold Step.ofSegment?
  rw [if_neg hne, if_neg hdot, if_neg hup, Name.ofBytes?_bytes]
  rfl

theorem isAbsolute_name (name : Name) : (⟨name.bytes⟩ : Path).isAbsolute = false :=
  beq_eq_false_iff_ne.mpr fun hhead => name.valid.2.2.2.1 (List.mem_of_head? hhead)

theorem isIdle_name (name : Name) : isIdle name.bytes = false := by
  rcases name.valid with ⟨hne, hdot, _⟩
  simp only [isIdle, Bool.or_eq_false_iff, beq_eq_false_iff_ne, ne_eq]
  exact ⟨hne, hdot⟩

theorem route_join_name (a : Path) (name : Name) :
    (a.join ⟨name.bytes⟩).route = ⟨a.route.fromRoot, a.route.steps ++ [.enter name], false⟩ := by
  rw [route_join a name.valid.2.2.2.1 name.valid.1, ofSegment?_name]
  rfl

/-- The name of an entry behind a path is one more component. -/
theorem components_join (a : Path) (name : Name) :
    (a.join ⟨name.bytes⟩).components = a.components ++ [.name name.bytes] := by
  rcases segments_join a name.valid.2.2.2.1 name.valid.1 with ⟨front, hjoined, hfront⟩
  have hkept : a.segments.filter (!isIdle ·) = front.filter (!isIdle ·) := by
    rcases hfront with heq | heq
    · rw [heq]
    · rw [heq, List.filter_append]
      exact List.append_nil _
  -- Neither an empty path nor a name says to start from the working directory.
  have hhead : (a.join ⟨name.bytes⟩).segments.head? = some [dot] ↔
      a.segments.head? = some [dot] := by
    rw [hjoined]
    cases front with
    | nil =>
      have hdot := name.valid.2.1
      have hname : ([] ++ [name.bytes]).head? ≠ some [dot] := fun heq => hdot (Option.some.inj heq)
      have ha : a.segments.head? ≠ some [dot] := by
        rcases hfront with heq | heq
        · exact absurd heq (segments_ne_nil a)
        · rw [heq]
          exact fun hsome => absurd (Option.some.inj hsome) nofun
      exact ⟨fun heq => absurd heq hname, fun heq => absurd heq ha⟩
    | cons first front => rcases hfront with heq | heq <;> rw [heq] <;> exact Iff.rfl
  have hname : Component.ofSegment name.bytes = .name name.bytes := if_neg name.valid.2.2.1
  have hfilter : (a.join ⟨name.bytes⟩).segments.filter (!isIdle ·) =
      a.segments.filter (!isIdle ·) ++ [name.bytes] := by
    rw [hjoined, List.filter_append, hkept,
      List.filter_cons_of_pos (by rw [isIdle_name]; rfl), List.filter_nil]
  unfold components
  simp only [isAbsolute_join a name.valid.2.2.2.1, hhead, hfilter, List.map_append, List.map_cons,
    List.map_nil, hname, List.append_assoc]

/-- A name behind a straight path leaves it straight. -/
theorem IsStraight.join {a : Path} (h : a.IsStraight) (name : Name) :
    (a.join ⟨name.bytes⟩).IsStraight := by
  unfold IsStraight
  rw [components_join, List.pairwise_append]
  refine ⟨h, List.pairwise_singleton _ _, ?_⟩
  intro first _ second hsecond _ hup
  rw [List.mem_singleton.mp hsecond] at hup
  exact absurd hup nofun

theorem up_notMem_join {a : Path} (h : Component.up ∉ a.components) (name : Name) :
    Component.up ∉ (a.join ⟨name.bytes⟩).components := by
  rw [components_join]
  intro hmem
  rcases List.mem_append.mp hmem with hin | hlast
  · exact h hin
  · exact absurd (List.mem_singleton.mp hlast) nofun

/-- The steps of a path that says nowhere to climb do not climb. -/
theorem climb_notMem_of_up_notMem {a : Path} (h : Component.up ∉ a.components) :
    Step.climb ∉ a.route.steps := by
  intro hmem
  rcases List.mem_filterMap.mp hmem with ⟨segment, hsegment, hclimb⟩
  -- Only the segment of two dots climbs, and it is the component that climbs.
  have hup := eq_of_ofSegment?_eq_climb hclimb
  refine h (List.mem_append_right _ (List.mem_map.mpr ⟨segment, ?_, if_pos hup⟩))
  refine List.mem_filter.mpr ⟨hsegment, ?_⟩
  rw [hup]
  decide

end Path

end TestWrappers
