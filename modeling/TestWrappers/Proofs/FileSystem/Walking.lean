import TestWrappers.FileSystem.Resolve

/-!
# Walks and Changing Trees

How far a walk depends on the tree that it is taken in.

A walk looks at the entries that it passes and at nothing else. If a tree is part
of another one, a walk in the smaller tree therefore goes the same way as in the
larger one, until it asks for an entry that only the larger one has. It finds
nothing there and ends, so the two walks either agree or the first one misses an
entry, and it is always the same entry that is missed (`walk_eq_or_missed`).

A walk over a longer route is a walk over its beginning and then one over what is
left, with fewer links to spare. How many are left does not matter for steps that
meet no link, so it is enough to know that the walk can go on at all.

## Main definitions

* `Tree.PartOf`: One tree has all its entries in another one.

## Theorems

* `Tree.walk_eq_or_missed`: A walk in a part of a tree agrees or misses an entry.
* `Tree.walk_of_partOf`: A walk that succeeds is the same in a larger tree.
* `Tree.walk_append_of_ok`, `Tree.walk_append_of_error`: Walks over longer routes.
* `Tree.exists_get?_of_isWithin`: What is inside an entry is reached through an
  entry in it.
* `Tree.not_link_of_walk`: A walk ends at no link.
-/

namespace TestWrappers

namespace Tree

/-- Every entry of the first tree stands in the second one as it is. -/
def PartOf (small big : Tree) : Prop :=
  ∀ place entry, small.get? place = some entry → big.get? place = some entry

theorem PartOf.refl (tree : Tree) : tree.PartOf tree := fun _ _ h => h

theorem PartOf.trans {a b c : Tree} (hab : a.PartOf b) (hbc : b.PartOf c) : a.PartOf c :=
  fun place entry h => hbc place entry (hab place entry h)

theorem PartOf.isSome {small big : Tree} (h : small.PartOf big) {place : Location}
    (hplace : (small.get? place).isSome = true) : (big.get? place).isSome = true := by
  rcases Option.isSome_iff_exists.mp hplace with ⟨entry, hentry⟩
  rw [h place entry hentry]
  rfl

/-- Putting an entry where none is keeps all others. -/
theorem partOf_put {tree : Tree} {place : Location} (h : tree.get? place = none)
    (entry : Entry) : tree.PartOf (tree.put place entry) := by
  intro other kept hkept
  rw [get?_put_of_ne]
  · exact hkept
  · intro heq
    rw [heq, h] at hkept
    simp only [reduceCtorEq] at hkept

/-- Nothing is inside an entry that is not a directory. -/
theorem get?_cons_eq_none {tree : Tree} {place : Location}
    (h : tree.get? place ≠ some .directory) (name : Name) : tree.get? (name :: place) = none := by
  cases hentry : tree.get? (name :: place) with
  | none => rfl
  | some entry => exact absurd (get?_tail hentry) h

/-- What the first of some steps does in all trees that a tree is part of: it ends
    the walk, or it leads on, or it asks for an entry that the tree has not. -/
theorem advance_cons_cases (small : Tree) (place : Location) (step : Step) (steps : List Step) :
    (∃ reach, ∀ big, small.PartOf big → big.advance place (step :: steps) = reach) ∨
    (∃ next, ∀ big, small.PartOf big →
      big.advance place (step :: steps) = big.advance next steps) ∨
    ∃ missed reach, small.get? missed = none ∧
      (reach = .blocked .noEntry ∨ ∃ directory name rest, reach = .absent directory name rest) ∧
      ∀ big : Tree, big.get? missed = none → small.PartOf big →
        big.advance place (step :: steps) = reach := by
  cases hplace : small.get? place with
  | none =>
    -- Any step asks for the place itself first.
    refine Or.inr (Or.inr ⟨place, _, hplace, Or.inl rfl, fun big hnone _ => ?_⟩)
    simp only [advance, hnone]
  | some entry =>
    have hbig : ∀ big : Tree, small.PartOf big → big.get? place = some entry :=
      fun big h => h place entry hplace
    cases entry with
    | file contents =>
      refine Or.inl ⟨.blocked .notDirectory, fun big h => ?_⟩
      simp only [advance, hbig big h]
    | link target =>
      refine Or.inl ⟨.blocked .notDirectory, fun big h => ?_⟩
      simp only [advance, hbig big h]
    | directory =>
      cases step with
      | stay =>
        refine Or.inr (Or.inl ⟨place, fun big h => ?_⟩)
        simp only [advance, hbig big h]
      | climb =>
        refine Or.inr (Or.inl ⟨place.tail, fun big h => ?_⟩)
        simp only [advance, hbig big h]
      | overlong =>
        refine Or.inl ⟨.blocked .nameTooLong, fun big h => ?_⟩
        simp only [advance, hbig big h]
      | enter name =>
        cases hname : small.get? (name :: place) with
        | none =>
          -- The directory is there, so what is missed is the entry in it.
          refine Or.inr (Or.inr ⟨name :: place, _, hname, Or.inr ⟨place, name, steps, rfl⟩,
            fun big hnone h => ?_⟩)
          simp only [advance, hbig big h, hnone]
        | some inner =>
          have hinner : ∀ big : Tree, small.PartOf big → big.get? (name :: place) = some inner :=
            fun big h => h (name :: place) inner hname
          cases inner with
          | link target =>
            refine Or.inl ⟨.link place name target steps, fun big h => ?_⟩
            simp only [advance, hbig big h, hinner big h]
          | file contents =>
            refine Or.inr (Or.inl ⟨name :: place, fun big h => ?_⟩)
            simp only [advance, hbig big h, hinner big h]
          | directory =>
            refine Or.inr (Or.inl ⟨name :: place, fun big h => ?_⟩)
            simp only [advance, hbig big h, hinner big h]

/-- Steps taken in a part of a tree lead to the same place in any larger tree, or
    there is one location without an entry such that they do so in all larger
    trees without an entry there. -/
theorem advance_eq_or_missed (small : Tree) (place : Location) (steps : List Step) :
    (∀ big, small.PartOf big → big.advance place steps = small.advance place steps) ∨
    ∃ missed reach, small.get? missed = none ∧
      (reach = .blocked .noEntry ∨ ∃ directory name rest, reach = .absent directory name rest) ∧
      ∀ big : Tree, big.get? missed = none → small.PartOf big →
        big.advance place steps = reach := by
  induction steps generalizing place with
  | nil => exact Or.inl fun big _ => rfl
  | cons step steps ih =>
    rcases advance_cons_cases small place step steps with ⟨reach, hreach⟩ | ⟨next, hnext⟩ | hmissed
    · exact Or.inl fun big h => (hreach big h).trans (hreach small (PartOf.refl small)).symm
    · -- The first step is the same in all trees, so what follows it decides.
      rcases ih next with hsame | ⟨missed, reach, hnone, hend, hreach⟩
      · refine Or.inl fun big h => ?_
        rw [hnext big h, hsame big h, hnext small (PartOf.refl small)]
      · exact Or.inr ⟨missed, reach, hnone, hend,
          fun big hbig h => (hnext big h).trans (hreach big hbig h)⟩
    · exact Or.inr hmissed

/-- A walk in a part of a tree ends as in any larger tree, or it finds nothing at
    one location, and finds nothing in any larger tree without an entry there. -/
theorem walk_eq_or_missed (small : Tree) (stretches : Nat) (place : Location)
    (steps : List Step) :
    (∀ big, small.PartOf big →
      big.walk stretches place steps = small.walk stretches place steps) ∨
    ∃ missed, small.get? missed = none ∧ ∀ big : Tree, big.get? missed = none →
      small.PartOf big → big.walk stretches place steps = .error .noEntry := by
  induction stretches generalizing place steps with
  | zero => exact Or.inl fun big _ => rfl
  | succ stretches ih =>
    rcases advance_eq_or_missed small place steps with hsame | ⟨missed, reach, hnone, hend, hreach⟩
    · cases hreach : small.advance place steps with
      | arrived last =>
        refine Or.inl fun big h => ?_
        simp only [walk, hsame big h, hreach]
      | absent directory name rest =>
        refine Or.inl fun big h => ?_
        simp only [walk, hsame big h, hreach]
      | blocked errno =>
        refine Or.inl fun big h => ?_
        simp only [walk, hsame big h, hreach]
      | link directory name target rest =>
        -- Both walks take the same link and go on behind it with one link fewer to spare.
        rcases ih (target.route.start directory) (target.route.toEnd ++ rest) with
          hwalk | ⟨missed, hnone, hwalk⟩
        · refine Or.inl fun big h => ?_
          simp only [walk, hsame big h, hreach]
          exact hwalk big h
        · refine Or.inr ⟨missed, hnone, fun big hbig h => ?_⟩
          simp only [walk, hsame big h, hreach]
          exact hwalk big hbig h
    · refine Or.inr ⟨missed, hnone, fun big hbig h => ?_⟩
      rcases hend with rfl | ⟨directory, name, rest, rfl⟩ <;> simp only [walk, hreach big hbig h]

/-- A walk in a part of a tree ends as in the whole tree or finds nothing. -/
theorem walk_eq_or_noEntry {small big : Tree} (h : small.PartOf big) (stretches : Nat)
    (place : Location) (steps : List Step) :
    small.walk stretches place steps = big.walk stretches place steps ∨
      small.walk stretches place steps = .error .noEntry := by
  rcases walk_eq_or_missed small stretches place steps with hsame | ⟨missed, hnone, hwalk⟩
  · exact Or.inl (hsame big h).symm
  · exact Or.inr (hwalk small hnone (PartOf.refl small))

theorem walk_of_partOf {small big : Tree} (h : small.PartOf big) {stretches : Nat}
    {place last : Location} {steps : List Step}
    (hwalk : small.walk stretches place steps = .ok last) :
    big.walk stretches place steps = .ok last := by
  rcases walk_eq_or_noEntry h stretches place steps with hsame | hnone
  · exact hsame.symm.trans hwalk
  · rw [hwalk] at hnone
    simp only [reduceCtorEq] at hnone

/-- A walk that gets to its end can be continued, over any steps. -/
theorem walk_append_of_ok {tree : Tree} {stretches : Nat} {place last : Location}
    {first : List Step} (h : tree.walk stretches place first = .ok last) :
    ∃ left, ∀ second, tree.walk stretches place (first ++ second) =
      tree.walk (left + 1) last second := by
  induction stretches generalizing place first with
  | zero => simp only [walk, reduceCtorEq] at h
  | succ stretches ih =>
    simp only [walk] at h
    cases hreach : tree.advance place first with
    | arrived reached =>
      simp only [hreach, Except.ok.injEq] at h
      refine ⟨stretches, fun second => ?_⟩
      simp only [walk, advance_append, hreach, Reach.andThen, h]
    | absent directory name rest => simp only [hreach, reduceCtorEq] at h
    | blocked errno => simp only [hreach, reduceCtorEq] at h
    | link directory name target rest =>
      simp only [hreach] at h
      -- The target of the link comes in front of what is left of the steps.
      rcases ih h with ⟨left, hleft⟩
      refine ⟨left, fun second => ?_⟩
      simp only [walk, advance_append, hreach, Reach.andThen]
      rw [← List.append_assoc]
      exact hleft second

/-- A walk that fails on the way fails over any longer route. -/
theorem walk_append_of_error {tree : Tree} {stretches : Nat} {place : Location}
    {first : List Step} {errno : Errno} (second : List Step)
    (h : tree.walk stretches place first = .error errno) :
    tree.walk stretches place (first ++ second) = .error errno := by
  induction stretches generalizing place first with
  | zero =>
    simp only [walk] at h ⊢
    exact h
  | succ stretches ih =>
    simp only [walk] at h
    cases hreach : tree.advance place first with
    | arrived reached => simp only [hreach, reduceCtorEq] at h
    | absent directory name rest =>
      simp only [hreach] at h
      simp only [walk, advance_append, hreach, Reach.andThen, h]
    | blocked reason =>
      simp only [hreach] at h
      simp only [walk, advance_append, hreach, Reach.andThen, h]
    | link directory name target rest =>
      simp only [hreach] at h
      simp only [walk, advance_append, hreach, Reach.andThen]
      rw [← List.append_assoc]
      exact ih h

theorem walk_of_not_directory {tree : Tree} {place : Location}
    (h : tree.get? place ≠ some .directory) (left : Nat) (step : Step) (steps : List Step) :
    ∃ errno, tree.walk (left + 1) place (step :: steps) = .error errno := by
  simp only [walk, advance]
  cases hentry : tree.get? place with
  | none => exact ⟨.noEntry, rfl⟩
  | some entry =>
    cases entry with
    | directory => exact absurd hentry h
    | file contents => exact ⟨.notDirectory, rfl⟩
    | link target => exact ⟨.notDirectory, rfl⟩

/-- Staying is possible in a directory only, and leads nowhere else. -/
theorem walk_concat_stay {tree : Tree} {stretches : Nat} {place last : Location}
    {steps : List Step} :
    tree.walk stretches place (steps ++ [.stay]) = .ok last ↔
      tree.walk stretches place steps = .ok last ∧ tree.get? last = some .directory := by
  cases hwalk : tree.walk stretches place steps with
  | error errno => simp only [walk_append_of_error [.stay] hwalk, reduceCtorEq, false_and]
  | ok reached =>
    -- The walk leaves links to spare, so staying where it ends is one step more.
    rcases walk_append_of_ok hwalk with ⟨left, hleft⟩
    rw [hleft, Except.ok.injEq]
    by_cases hdir : tree.get? reached = some .directory
    · simp only [walk, advance, hdir, Except.ok.injEq]
      constructor
      · intro heq
        exact ⟨heq, heq ▸ hdir⟩
      · exact And.left
    · rcases walk_of_not_directory hdir left .stay [] with ⟨errno, herror⟩
      rw [herror]
      simp only [reduceCtorEq, false_iff, not_and]
      intro heq hlast
      exact hdir (heq ▸ hlast)

/-- Going to an entry of a directory that is there and no link. -/
theorem walk_concat_enter {tree : Tree} {stretches : Nat} {place directory : Location}
    {steps : List Step} {name : Name} {entry : Entry}
    (h : tree.walk stretches place steps = .ok directory)
    (hentry : tree.get? (name :: directory) = some entry)
    (hlink : ∀ target, entry ≠ .link target) :
    tree.walk stretches place (steps ++ [.enter name]) = .ok (name :: directory) := by
  rcases walk_append_of_ok h with ⟨left, hleft⟩
  have hdir := get?_tail hentry
  rw [hleft]
  cases entry with
  | link target => exact absurd rfl (hlink target)
  | file contents => simp only [walk, advance, hdir, hentry]
  | directory => simp only [walk, advance, hdir, hentry]

/-- Going to an entry that a directory has not. -/
theorem walk_append_absent {tree : Tree} {stretches : Nat} {place directory : Location}
    {steps : List Step} {name : Name} (h : tree.walk stretches place steps = .ok directory)
    (hdir : tree.get? directory = some .directory)
    (hnone : tree.get? (name :: directory) = none) (more : List Step) :
    tree.walk stretches place (steps ++ .enter name :: more) = .error .noEntry := by
  rcases walk_append_of_ok h with ⟨left, hleft⟩
  rw [hleft]
  simp only [walk, advance, hdir, hnone]

/-- Staying in a directory leads nowhere else, however often. -/
theorem walk_stays {tree : Tree} {left : Nat} {place : Location} {stays : List Step}
    (hdir : tree.get? place = some .directory) (hstays : ∀ step ∈ stays, step = .stay)
    (more : List Step) :
    tree.walk (left + 1) place (stays ++ more) = tree.walk (left + 1) place more := by
  have hadvance : tree.advance place (stays ++ more) = tree.advance place more := by
    induction stays with
    | nil => rfl
    | cons step stays ih =>
      rw [hstays step List.mem_cons_self, List.cons_append]
      simp only [advance, hdir]
      exact ih fun other hmem => hstays other (List.mem_cons_of_mem step hmem)
  simp only [walk, hadvance]

/-- What is inside an entry, however deep, is there through an entry in it. -/
theorem exists_get?_of_isWithin {tree : Tree} {inner outer : Location}
    (h : (tree.get? inner).isSome = true) (hin : inner.isWithin outer = true)
    (hne : inner ≠ outer) : ∃ name, (tree.get? (name :: outer)).isSome = true := by
  induction inner with
  | nil => exact absurd (List.suffix_nil.mp (Location.isWithin_iff.mp hin)).symm hne
  | cons name inner ih =>
    rcases Location.isWithin_cons_iff.mp hin with heq | hrest
    · exact absurd heq.symm hne
    · by_cases hinner : inner = outer
      · exact ⟨name, hinner ▸ h⟩
      · -- The entry lies deeper. What holds it is inside the outer one, and is there too.
        rcases Option.isSome_iff_exists.mp h with ⟨entry, hentry⟩
        refine ih ?_ hrest hinner
        rw [get?_tail hentry]
        rfl

/-- Nothing is inside of a link. -/
theorem eq_of_isWithin_link {tree : Tree} {inner outer : Location} {target : Path}
    {entry : Entry} (hlink : tree.get? outer = some (.link target))
    (hentry : tree.get? inner = some entry) (hin : inner.isWithin outer = true) :
    inner = outer := by
  by_cases heq : inner = outer
  · exact heq
  · rcases exists_get?_of_isWithin (Option.isSome_of_eq_some hentry) hin heq with ⟨name, hname⟩
    have hnot : tree.get? outer ≠ some .directory := by
      simp only [hlink, ne_eq, Option.some.injEq, reduceCtorEq, not_false_eq_true]
    rw [get?_cons_eq_none hnot name] at hname
    exact absurd hname Bool.false_ne_true

/-- Steps from an entry that is no link arrive at no link. -/
theorem not_link_of_advance {tree : Tree} {place last : Location} {steps : List Step}
    (hplace : ∀ target, tree.get? place ≠ some (.link target))
    (h : tree.advance place steps = .arrived last) (target : Path) :
    tree.get? last ≠ some (.link target) := by
  induction steps generalizing place with
  | nil =>
    simp only [advance, Reach.arrived.injEq] at h
    exact h ▸ hplace target
  | cons step steps ih =>
    simp only [advance] at h
    split at h
    · simp only [reduceCtorEq] at h
    · rename_i hdir
      split at h
      · exact ih hplace h
      · refine ih (fun other => ?_) h
        cases place with
        | nil => exact hplace other
        | cons name directory =>
          simp only [List.tail_cons, get?_tail hdir, ne_eq, Option.some.injEq, reduceCtorEq,
            not_false_eq_true]
      · simp only [reduceCtorEq] at h
      · split at h
        · simp only [reduceCtorEq] at h
        · simp only [reduceCtorEq] at h
        · rename_i entry hlink hentry
          refine ih (fun other hother => ?_) h
          exact hlink other (Option.some.inj (hentry.symm.trans hother))
    · simp only [reduceCtorEq] at h

/-- A walk follows every link that it comes to, so it ends at none. -/
theorem not_link_of_walk {tree : Tree} {stretches : Nat} {place last : Location}
    {steps : List Step} (hplace : ∀ target, tree.get? place ≠ some (.link target))
    (h : tree.walk stretches place steps = .ok last) (target : Path) :
    tree.get? last ≠ some (.link target) := by
  induction stretches generalizing place steps with
  | zero => simp only [walk, reduceCtorEq] at h
  | succ stretches ih =>
    simp only [walk] at h
    split at h
    · rename_i hreach
      exact Except.ok.inj h ▸ not_link_of_advance hplace hreach target
    · simp only [reduceCtorEq] at h
    · simp only [reduceCtorEq] at h
    · rename_i directory _ _ _ hreach
      refine ih (fun other => ?_) h
      unfold Route.start
      split
      · simp only [get?_nil, ne_eq, Option.some.injEq, reduceCtorEq, not_false_eq_true]
      · simp only [(get?_of_advance_link hreach).1, ne_eq, Option.some.injEq, reduceCtorEq,
          not_false_eq_true]

end Tree

end TestWrappers
