import TestWrappers.Proofs.Path.Joining

/-!
# Plain Paths

Paths that consist of names only.

A path is plain if each of its segments says nothing or can be the name of an
entry. Nothing in it climbs, nothing is too long, and no byte in it is one that
no path may have. So it can always be looked up, and the paths on its way are
plain as well.

## Main definitions

* `Path.IsPlain`: A path of names only.

## Theorems

* `Path.IsPlain.join`: A name behind a plain path leaves it plain.
* `Path.exists_join_of_getLast?`: A path that ends in a name is one behind a path.
* `Path.IsPlain.steps`: Its steps stay or go to names.
* `Path.ancestors_join`: The paths on the way to an entry.
-/

namespace TestWrappers

namespace Path

/-- Each segment says nothing or can be the name of an entry. -/
def IsPlain (path : Path) : Prop :=
  ∀ segment ∈ path.segments, isIdle segment = true ∨ Name.Valid segment

instance (path : Path) : Decidable path.IsPlain :=
  inferInstanceAs
    (Decidable (∀ segment ∈ path.segments, isIdle segment = true ∨ Name.Valid segment))

theorem ofSegment?_of_plain {segment : List UInt8} {step : Step}
    (h : isIdle segment = true ∨ Name.Valid segment)
    (hstep : Step.ofSegment? segment = some step) : step = .stay ∨ ∃ name, step = .enter name := by
  rcases h with hidle | hvalid
  · exact Or.inl (ofSegment?_eq_stay_of_isIdle hidle hstep)
  · rw [ofSegment?_name ⟨segment, hvalid⟩] at hstep
    exact Or.inr ⟨_, (Option.some.inj hstep).symm⟩

theorem mem_of_mem_intercalate {segments : List (List UInt8)} {b : UInt8}
    (h : b ∈ [separator].intercalate segments) : b = separator ∨ ∃ s ∈ segments, b ∈ s := by
  induction segments with
  | nil => exact absurd h List.not_mem_nil
  | cons first more ih =>
    cases more with
    | nil =>
      rw [List.intercalate_singleton] at h
      exact Or.inr ⟨first, List.mem_cons_self, h⟩
    | cons next more =>
      rw [List.intercalate_cons_cons] at h
      rcases List.mem_append.mp h with hfront | hrest
      · rcases List.mem_append.mp hfront with hfirst | hsep
        · exact Or.inr ⟨first, List.mem_cons_self, hfirst⟩
        · exact Or.inl (List.mem_singleton.mp hsep)
      · rcases ih hrest with hsep | ⟨s, hs, hb⟩
        · exact Or.inl hsep
        · exact Or.inr ⟨s, List.mem_cons_of_mem first hs, hb⟩

theorem notMem_of_isIdle {segment : List UInt8} {b : UInt8} (h : isIdle segment = true)
    (hb : b ≠ dot) : b ∉ segment := by
  unfold isIdle at h
  rcases (Bool.or_eq_true _ _).mp h with hnil | hdot
  · rw [beq_iff_eq.mp hnil]
    exact List.not_mem_nil
  · rw [beq_iff_eq.mp hdot]
    exact fun hmem => hb (List.mem_singleton.mp hmem)

theorem separator_notMem_of_plain {segment : List UInt8}
    (h : isIdle segment = true ∨ Name.Valid segment) : separator ∉ segment := by
  rcases h with hidle | hvalid
  · exact notMem_of_isIdle hidle (by decide)
  · exact hvalid.2.2.2.1

theorem zero_notMem_of_plain {segments : List (List UInt8)}
    (h : ∀ segment ∈ segments, isIdle segment = true ∨ Name.Valid segment) :
    0 ∉ (ofSegments segments).bytes := by
  intro hzero
  rcases mem_of_mem_intercalate hzero with hsep | ⟨segment, hsegment, hmem⟩
  · exact absurd hsep (by decide)
  · rcases h segment hsegment with hidle | hvalid
    · exact notMem_of_isIdle hidle (by decide) hmem
    · exact hvalid.2.2.2.2.1 hmem

theorem IsPlain.join {a : Path} (h : a.IsPlain) (name : Name) :
    (a.join ⟨name.bytes⟩).IsPlain := by
  intro segment hsegment
  rcases segments_join a name.valid.2.2.2.1 name.valid.1 with ⟨front, hjoined, hfront⟩
  rw [hjoined] at hsegment
  rcases List.mem_append.mp hsegment with hin | hlast
  · refine h segment ?_
    rcases hfront with heq | heq
    · rw [heq]
      exact hin
    · rw [heq]
      exact List.mem_append_left _ hin
  · rw [List.mem_singleton.mp hlast]
    exact Or.inr name.valid

/-- A path whose last segment is a name is that name behind another path, and the other
    path is plain if this one is. -/
theorem exists_join_of_getLast? {path : Path} {name : Name}
    (h : path.segments.getLast? = some name.bytes) :
    ∃ base : Path, path = base.join ⟨name.bytes⟩ ∧ (path.IsPlain → base.IsPlain) := by
  have hrelative := isAbsolute_name name
  have hidle : ∀ segment ∈ [([] : List UInt8)], isIdle segment = true ∨ Name.Valid segment :=
    fun segment hsegment => List.mem_singleton.mp hsegment ▸ Or.inl rfl
  rcases List.getLast?_eq_some_iff.mp h with ⟨front, hsegments⟩
  have hsep : ∀ segment ∈ front, separator ∉ segment := fun segment hmem =>
    separator_notMem_of_mem_segments (hsegments ▸ List.mem_append_left _ hmem)
  by_cases hfront : front = []
  · -- The name stands alone, behind the empty path.
    rw [segments, hfront] at hsegments
    have hbytes := intercalate_split path.bytes
    rw [hsegments, List.nil_append, List.intercalate_singleton] at hbytes
    refine ⟨⟨[]⟩, ?_, fun _ => hidle⟩
    rw [join, hrelative, if_neg Bool.false_ne_true, if_pos (Or.inl rfl), hbytes]
    rfl
  · -- In front of the name stands a separator, and the other path ends in it.
    have hsplit : split ([separator].intercalate front ++ separator :: name.bytes) =
        split path.bytes := by
      rw [split_append_separator, split_intercalate hfront hsep, split_of_notMem name.valid.2.2.2.1]
      exact hsegments.symm
    have hbytes := intercalate_split path.bytes
    rw [← hsplit, intercalate_split] at hbytes
    refine ⟨⟨[separator].intercalate front ++ [separator]⟩, ?_, fun hplain segment hmem => ?_⟩
    · rw [join, hrelative, if_neg Bool.false_ne_true, if_pos (Or.inr List.getLast?_concat),
        List.append_assoc, List.singleton_append, hbytes]
    · rw [segments, split_append_separator, split_intercalate hfront hsep] at hmem
      rcases List.mem_append.mp hmem with hin | hlast
      · exact hplain segment (hsegments ▸ List.mem_append_left _ hin)
      · exact hidle segment hlast

theorem IsPlain.steps {path : Path} (h : path.IsPlain) {step : Step}
    (hstep : step ∈ path.route.steps) : step = .stay ∨ ∃ name, step = .enter name := by
  rcases List.mem_filterMap.mp hstep with ⟨segment, hsegment, hof⟩
  exact ofSegment?_of_plain (h segment hsegment) hof

theorem IsPlain.notMem {path : Path} (h : path.IsPlain) {step : Step} (hstay : step ≠ .stay)
    (henter : ∀ name, step ≠ .enter name) : step ∉ path.route.steps := by
  intro hmem
  rcases h.steps hmem with heq | ⟨name, heq⟩
  · exact hstay heq
  · exact henter name heq

theorem IsPlain.climb_notMem {path : Path} (h : path.IsPlain) : Step.climb ∉ path.route.steps :=
  h.notMem nofun nofun

theorem IsPlain.overlong_notMem {path : Path} (h : path.IsPlain) :
    Step.overlong ∉ path.route.steps :=
  h.notMem nofun nofun

theorem IsPlain.up_notMem {path : Path} (h : path.IsPlain) : Component.up ∉ path.components := by
  unfold components
  intro hmem
  rcases List.mem_append.mp hmem with hfront | hrest
  · -- What stands in front of the names is the root or the directory one is in.
    split at hfront
    · exact absurd (List.mem_singleton.mp hfront) nofun
    · split at hfront
      · exact absurd (List.mem_singleton.mp hfront) nofun
      · exact absurd hfront List.not_mem_nil
  · rcases List.mem_map.mp hrest with ⟨segment, hkept, hup⟩
    rcases List.mem_filter.mp hkept with ⟨hsegment, hidle⟩
    unfold Component.ofSegment at hup
    split at hup
    · -- Two dots are not idle, and they are no name.
      rename_i hdots
      rcases h segment hsegment with hidle' | hvalid
      · rw [hidle'] at hidle
        exact absurd hidle Bool.false_ne_true
      · exact hvalid.2.2.1 hdots
    · exact absurd hup nofun

/-- The paths passed through on the way to an entry are those of the segments. -/
theorem ancestors_join (a : Path) (name : Name) :
    ∃ first segments, (a.join ⟨name.bytes⟩).segments = first :: segments ∧
      (a.join ⟨name.bytes⟩).ancestors = ancestorsFrom first segments.reverse := by
  have hne : (a.join ⟨name.bytes⟩).bytes ≠ [] := by
    intro hnil
    have hlast := getLast?_join a name.valid.1
    rw [hnil] at hlast
    exact name.valid.1 (List.getLast?_eq_none_iff.mp hlast.symm)
  rcases ancestors_of_ne_nil hne with ⟨first, segments, hsegments, hancestors⟩
  refine ⟨first, segments, hsegments, ?_⟩
  rcases segments_join a name.valid.2.2.2.1 name.valid.1 with ⟨front, hjoined, _⟩
  rw [hancestors]
  rw [hsegments] at hjoined
  have hwhole := ofSegments_segments (a.join ⟨name.bytes⟩)
  rw [hsegments] at hwhole
  cases front with
  | nil =>
    rcases List.cons.inj hjoined with ⟨rfl, rfl⟩
    -- The name stands alone and is the only path passed through.
    rw [List.reverse_nil, ancestorsFrom, if_neg name.valid.1, List.tail_cons, ← hwhole, ofSegments,
      List.intercalate_singleton]
  | cons next front =>
    have hrest : segments = front ++ [name.bytes] := (List.cons.inj hjoined).2
    have hidle : ¬ isIdle name.bytes = true := by
      rw [isIdle_name]
      exact Bool.false_ne_true
    rw [hrest] at hwhole
    rw [hrest, List.reverse_append, List.reverse_singleton, List.singleton_append, ancestorsFrom,
      if_neg hidle, List.tail_cons, List.reverse_cons, List.reverse_reverse, hwhole]

end Path

end TestWrappers
