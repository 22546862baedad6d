import TestWrappers.Proofs.Path.Rooting

/-!
# Paths That Say the Same

When two spellings say the same, and what joining does to that.

What a path says has two parts: where it starts, and the segments it goes through
that say anything. Doubled separators, a separator at the end and single dots inside
are in neither part, so they make no difference. A single dot in front is in the first
part, and a double dot is a segment like a name.

Joining works on bytes and leaves all spellings as they are. Still, as long as the
second path does not say where it starts, what it says is put behind what the first
path says, whether that is empty, is the root, or ends in separators or dots. So a
common end can be taken off both sides of a comparison.

## Main definitions

* `Path.opening`: Where a path says that it starts.
* `Path.said`: The segments of a path that say something.

## Theorems

* `Path.sameAs_iff`: What is compared.
* `Path.components_join_said`: What a joined path says.
* `Path.sameAs_join`: A common end makes no difference.
-/

namespace TestWrappers

namespace Path

/-- Where a path says that it starts: at the root, in the working directory, or
    nowhere in particular. -/
def opening (path : Path) : List Component :=
  if path.isAbsolute then [.root]
  else if path.segments.head? = some [dot] then [.here]
  else []

/-- The segments of a path that say something, wherever they stand. -/
def said (path : Path) : List (List UInt8) := path.segments.filter (!isIdle ·)

variable {a b c : Path}

theorem components_eq (path : Path) :
    path.components = path.opening ++ path.said.map Component.ofSegment := rfl

theorem Component.ofSegment_injective : Function.Injective ofSegment := by
  intro segment other h
  unfold ofSegment at h
  split at h <;> split at h
  · rename_i hup hup'
    rw [hup, hup']
  · cases h
  · cases h
  · exact Component.name.inj h

-- A segment never says where to start, so it can be told from the opening.
theorem ofSegment_ne (segment : List UInt8) :
    Component.ofSegment segment ≠ .root ∧ Component.ofSegment segment ≠ .here := by
  unfold Component.ofSegment
  split <;> exact ⟨nofun, nofun⟩

theorem mem_opening {component : Component} (h : component ∈ a.opening) :
    component = .root ∨ component = .here := by
  unfold opening at h
  split at h
  · exact Or.inl (List.mem_singleton.mp h)
  · split at h
    · exact Or.inr (List.mem_singleton.mp h)
    · exact absurd h List.not_mem_nil

/-- The opening is what a path says of the two kinds that no segment says. -/
theorem filter_components (path : Path) :
    path.components.filter (fun c => c = .root ∨ c = .here) = path.opening := by
  have hopening : ∀ c ∈ path.opening, decide (c = .root ∨ c = .here) = true :=
    fun c hc => decide_eq_true (mem_opening hc)
  have hsaid : ∀ c ∈ path.said.map Component.ofSegment,
      ¬ decide (c = .root ∨ c = .here) = true := by
    intro c hc
    rcases List.mem_map.mp hc with ⟨segment, _, rfl⟩
    have hne := ofSegment_ne segment
    simp only [hne.1, hne.2, or_self, decide_false, Bool.false_eq_true, not_false_eq_true]
  rw [components_eq, List.filter_append, List.filter_eq_self.mpr hopening,
    List.filter_eq_nil_iff.mpr hsaid, List.append_nil]

/-- Two paths say the same if they start at the same place and have the same segments
    once those that say nothing are left out. -/
theorem sameAs_iff (a b : Path) :
    a.sameAs b = true ↔ a.opening = b.opening ∧ a.said = b.said := by
  rw [sameAs, beq_iff_eq]
  constructor
  · intro h
    have hopening := congrArg (List.filter fun c => c = .root ∨ c = .here) h
    rw [filter_components, filter_components] at hopening
    rw [components_eq, components_eq, hopening, List.append_cancel_left_eq] at h
    exact ⟨hopening, List.map_injective_iff.mpr Component.ofSegment_injective h⟩
  · rintro ⟨hopening, hsaid⟩
    rw [components_eq, components_eq, hopening, hsaid]

example : (Path.ofString "//a/./b/.").sameAs (.ofString "/a/b") = true ∧
    (Path.ofString "./a").sameAs (.ofString "a") = false ∧
    (Path.ofString "a/../b").sameAs (.ofString "b") = false := by decide

theorem isAbsolute_of_opening (h : a.opening = []) : a.isAbsolute = false := by
  unfold opening at h
  split at h
  · exact absurd h (List.cons_ne_nil _ _)
  · rename_i habsolute
    exact Bool.eq_false_iff.mpr habsolute

/-- What stands in front of a joined path are the segments of the first path, but for an
    empty one at their end. -/
theorem segments_eq_front (a : Path) : a.segments = a.front ∨ a.segments = a.front ++ [[]] := by
  unfold front
  split
  · rename_i hlast
    rcases List.getLast?_eq_some_iff.mp hlast with ⟨bytes, hbytes⟩
    have hsegments : a.segments = split bytes ++ [[]] := by
      rw [segments, hbytes, split_append_separator]
      rfl
    rw [hsegments, List.dropLast_concat]
    exact Or.inr rfl
  · exact Or.inl rfl

/-- Joining keeps where the first path starts. -/
theorem opening_join (a : Path) (h : b.opening = []) : (a.join b).opening = a.opening := by
  have hb := isAbsolute_of_opening h
  by_cases hne : a.bytes = []
  · -- Behind the empty path the other one stands alone.
    have hjoin : a.join b = b := by
      rw [join_of_relative a hb, glue, if_pos (Or.inl hne), hne]
      rfl
    have ha : a.opening = [] := by
      rw [show a = ⟨[]⟩ from congrArg mk hne]
      rfl
    rw [hjoin, h, ha]
  · have habsolute : (a.join b).isAbsolute = a.isAbsolute := by
      rw [join_of_relative a hb, isAbsolute_append hne]
    -- The first segment of a path stays the first one in front of another path.
    have hhead : (a.join b).segments.head? = a.segments.head? := by
      have hfront := (bytes_front hne).1
      rw [segments_join_relative hne hb, List.head?_append_of_ne_nil _ hfront]
      rcases segments_eq_front a with heq | heq
      · rw [heq]
      · rw [heq, List.head?_append_of_ne_nil _ hfront]
    unfold opening
    rw [habsolute, hhead]

/-- Joining puts what the second path says behind what the first one says. -/
theorem said_join (a : Path) (h : b.isAbsolute = false) : (a.join b).said = a.said ++ b.said := by
  unfold said
  by_cases hne : a.bytes = []
  · rw [join_of_relative a h, glue, if_pos (Or.inl hne), segments, segments, segments, hne]
    rfl
  · rw [segments_join_relative hne h, List.filter_append]
    rcases segments_eq_front a with heq | heq
    · rw [heq]
    · -- The segment that was swallowed is empty and says nothing.
      rw [heq, List.filter_append]
      exact congrArg (· ++ _) (List.append_nil _).symm

/-- A path climbs only in a segment of its own. -/
theorem up_mem_components_iff (path : Path) :
    Component.up ∈ path.components ↔ [dot, dot] ∈ path.said := by
  rw [components_eq, List.mem_append, List.mem_map]
  constructor
  · rintro (hopening | ⟨segment, hsegment, hup⟩)
    · rcases mem_opening hopening with hroot | hhere
      · cases hroot
      · cases hhere
    · rw [show [dot, dot] = segment from Component.ofSegment_injective hup.symm]
      exact hsegment
  · exact fun hsaid => Or.inr ⟨_, hsaid, rfl⟩

/-- A joined path climbs only if one of the two does. -/
theorem up_notMem_components_join (ha : Component.up ∉ a.components)
    (hb : Component.up ∉ b.components) : Component.up ∉ (a.join b).components := by
  by_cases habsolute : b.isAbsolute = true
  · rw [join, if_pos habsolute]
    exact hb
  · rw [up_mem_components_iff] at ha hb ⊢
    rw [said_join a (Bool.eq_false_iff.mpr habsolute)]
    exact fun hmem => (List.mem_append.mp hmem).elim ha hb

/-- A joined path says what the first path says and then what the second one says. -/
theorem components_join_said (a : Path) (h : b.opening = []) :
    (a.join b).components = a.components ++ b.components := by
  rw [components_eq, components_eq, components_eq, opening_join a h,
    said_join a (isAbsolute_of_opening h), h, List.nil_append, List.map_append, List.append_assoc]

/-- Two paths say the same exactly if they do so with a common end. -/
theorem sameAs_join (a b : Path) (h : c.opening = []) :
    (a.join c).sameAs (b.join c) = a.sameAs b := by
  unfold sameAs
  rw [components_join_said a h, components_join_said b h, Bool.eq_iff_iff, beq_iff_eq, beq_iff_eq]
  exact List.append_left_inj _

end Path

end TestWrappers
