import Mathlib.Algebra.GroupWithZero.Nat
import Mathlib.Data.List.Nodup
import TestWrappers.Proofs.CommandLine.Reading
import TestWrappers.Proofs.Text.Bytes

/-!
# Arrangements of Arguments

Arguments in any order and any spelling ask for the same.

What an item does is to name a directory or to raise the verbosity. Different options
name different directories, and raises are counted, so the order of the items does not
show. Naming a directory twice is refused wherever the two items stand.

## Main definitions

* `CommandLine.namings`: The options that items give, with their values.
* `CommandLine.Arranged`: Items that ask for given directories and verbosity.

## Theorems

* `CommandLine.foldlM_take_of_nodup`, `CommandLine.foldlM_take_of_not_nodup`: When a list
  of items is taken, and when it is refused.
* `CommandLine.foldl_apply`: What a list of items asks for.
* `CommandLine.join_ofString`: A place taken from another one.
* `CommandLine.parse_arranged`: What arguments ask for in any order and spelling.
-/

namespace TestWrappers

namespace CommandLine

variable {options : Options} {item : Item} {items : List Item}

/-- The options that items give, each as often as it is given. -/
def namings (items : List Item) : List (DirectoryOption × String) := items.filterMap Item.named?

theorem iterate_raiseVerbosity (options : Options) (n : Nat) :
    (Nat.iterate Options.raiseVerbosity n options).directory? = options.directory? ∧
      (options.verbosity ≤ Options.maxVerbosity →
        (Nat.iterate Options.raiseVerbosity n options).verbosity =
          min (options.verbosity + n) Options.maxVerbosity) := by
  induction n with
  | zero => exact ⟨rfl, fun h => (Nat.min_eq_left h).symm⟩
  | succ n ih =>
    rw [Function.iterate_succ_apply', Options.raiseVerbosity]
    refine ⟨ih.1, fun h => ?_⟩
    dsimp only
    rw [ih.2 h]
    omega

theorem directory?_apply_of_named {option : DirectoryOption} {value : String}
    (h : item.named? = some (option, value)) (options : Options) :
    (item.apply options).directory? =
      fun o => if o = option then some (.ofString value) else options.directory? o := by
  unfold Item.apply
  simp only [h]
  rfl

theorem directory?_apply_of_unnamed (h : item.named? = none) (options : Options) :
    (item.apply options).directory? = options.directory? := by
  unfold Item.apply
  simp only [h]
  exact (iterate_raiseVerbosity options _).1

/-- Items are taken if they give no option twice, nor one that was given before. -/
theorem foldlM_take_of_nodup (hnodup : ((namings items).map Prod.fst).Nodup)
    (hfree : ∀ option ∈ (namings items).map Prod.fst, options.directory? option = none) :
    items.foldlM Item.take options = .ok (items.foldl Item.apply options) := by
  induction items generalizing options with
  | nil => rfl
  | cons item items ih =>
    rw [List.foldlM_cons, List.foldl_cons]
    cases hitem : item.named? with
    | none =>
      have htake : item.take options = .ok (item.apply options) := by
        simp only [Item.take, hitem]
      unfold namings at hnodup hfree
      rw [List.filterMap_cons_none hitem] at hnodup hfree
      rw [htake]
      refine ih hnodup ?_
      rw [directory?_apply_of_unnamed hitem]
      exact hfree
    | some pair =>
      rcases pair with ⟨option, value⟩
      unfold namings at hnodup hfree
      rw [List.filterMap_cons_some hitem, List.map_cons] at hnodup hfree
      rcases List.nodup_cons.mp hnodup with ⟨hnot, hrest⟩
      rcases List.forall_mem_cons.mp hfree with ⟨hnone, hothers⟩
      dsimp only at hnot hnone
      have htake : item.take options = .ok (item.apply options) := by
        simp only [Item.take, hitem, hnone, Option.isSome_none, Bool.false_eq_true, ↓reduceIte]
      rw [htake]
      refine ih hrest fun other hother => ?_
      rw [directory?_apply_of_named hitem]
      dsimp only
      rw [if_neg fun heq : other = option => hnot (heq ▸ hother)]
      exact hothers other hother

/-- Items are refused if they give an option twice, or one that was given before. -/
theorem foldlM_take_of_not_nodup (h : ((namings items).map Prod.fst).Nodup →
      ∃ option ∈ (namings items).map Prod.fst, options.directory? option ≠ none) :
    items.foldlM Item.take options = .error .argumentConflict := by
  induction items generalizing options with
  | nil =>
    rcases h List.nodup_nil with ⟨_, hmem, _⟩
    exact absurd hmem List.not_mem_nil
  | cons item items ih =>
    rw [List.foldlM_cons]
    cases hitem : item.named? with
    | none =>
      have htake : item.take options = .ok (item.apply options) := by
        simp only [Item.take, hitem]
      unfold namings at h
      rw [List.filterMap_cons_none hitem] at h
      rw [htake]
      refine ih ?_
      rw [directory?_apply_of_unnamed hitem]
      exact h
    | some pair =>
      rcases pair with ⟨option, value⟩
      unfold namings at h
      rw [List.filterMap_cons_some hitem, List.map_cons, List.nodup_cons] at h
      by_cases hset : options.directory? option = none
      · have htake : item.take options = .ok (item.apply options) := by
          simp only [Item.take, hitem, hset, Option.isSome_none, Bool.false_eq_true, ↓reduceIte]
        rw [htake]
        refine ih fun hrest => ?_
        rw [directory?_apply_of_named hitem]
        -- The option comes again, or the others clash with what was given before.
        by_cases hagain : option ∈ (namings items).map Prod.fst
        · exact ⟨option, hagain, by simp only [↓reduceIte, ne_eq, reduceCtorEq, not_false_eq_true]⟩
        · rcases h ⟨hagain, hrest⟩ with ⟨other, hother, hbefore⟩
          rcases List.mem_cons.mp hother with rfl | hin
          · exact absurd hset hbefore
          · refine ⟨other, hin, ?_⟩
            exact (if_neg fun heq : other = option => hagain (heq ▸ hin)).trans_ne hbefore
      · have htake : item.take options = .error .argumentConflict := by
          simp only [Item.take, hitem, if_pos (Option.isSome_iff_ne_none.mpr hset)]
        rw [htake]
        rfl

/-- What items ask for that give no option twice. -/
theorem foldl_apply (items : List Item) (options : Options) :
    (∀ option, option ∉ (namings items).map Prod.fst →
      (items.foldl Item.apply options).directory? option = options.directory? option) ∧
    (((namings items).map Prod.fst).Nodup → ∀ pair ∈ namings items,
      (items.foldl Item.apply options).directory? pair.1 = some (.ofString pair.2)) ∧
    (options.verbosity ≤ Options.maxVerbosity → (items.foldl Item.apply options).verbosity =
      min (options.verbosity + (items.map Item.raises).sum) Options.maxVerbosity) := by
  induction items generalizing options with
  | nil => exact ⟨fun _ _ => rfl, fun _ => List.forall_mem_nil _, fun h => (Nat.min_eq_left h).symm⟩
  | cons item items ih =>
    rcases ih (item.apply options) with ⟨hothers, hgiven, hcount⟩
    rw [List.foldl_cons]
    unfold namings at hothers hgiven ⊢
    cases hitem : item.named? with
    | none =>
      rw [List.filterMap_cons_none hitem]
      refine ⟨fun option hnot => ?_, hgiven, fun h => ?_⟩
      · rw [hothers option hnot, directory?_apply_of_unnamed hitem]
      · have happly : item.apply options = Nat.iterate Options.raiseVerbosity item.raises options :=
          by simp only [Item.apply, hitem]
        rw [happly, (iterate_raiseVerbosity options item.raises).2 h] at hcount
        rw [happly, hcount (Nat.min_le_right _ _), List.map_cons, List.sum_cons]
        omega
    | some pair =>
      rcases pair with ⟨option, value⟩
      rw [List.filterMap_cons_some hitem, List.map_cons]
      have happly := directory?_apply_of_named hitem options
      refine ⟨fun other hnot => ?_, fun hnodup => ?_, fun h => ?_⟩
      · rcases not_or.mp (fun hor => hnot (List.mem_cons.mpr hor)) with ⟨hne, hnotin⟩
        rw [hothers other hnotin, happly]
        exact if_neg hne
      · rcases List.nodup_cons.mp hnodup with ⟨hnot, hrest⟩
        refine List.forall_mem_cons.mpr ⟨?_, hgiven hrest⟩
        rw [hothers option hnot, happly]
        exact if_pos rfl
      · have hverbosity : (item.apply options).verbosity = options.verbosity := by
          simp only [Item.apply, hitem, Options.setDirectory]
        have hraises : item.raises = 0 := by
          cases item with
          | joined => rfl
          | separate => rfl
          | verbose => exact absurd hitem nofun
          | cluster => exact absurd hitem nofun
        rw [hverbosity] at hcount
        rw [hcount h, List.map_cons, List.sum_cons, hraises, Nat.zero_add]

/-- Items that ask for given directories and for more output so many times. -/
structure Arranged (values : DirectoryOption → Option String) (raises : Nat)
    (items : List Item) : Prop where
  /-- Each is spelled as it has to be. -/
  valid : ∀ item ∈ items, item.Valid
  /-- Each directory is given once, and nothing else. -/
  named : (namings items).Perm
    (DirectoryOption.all.filterMap fun option => (values option).map (option, ·))
  /-- The flags are as many as the requests for more output. -/
  raises : (items.map Item.raises).sum = raises

/-- The directory that is asked for, or the standard one. -/
def chosen (values : DirectoryOption → Option String) (option : DirectoryOption) : String :=
  (values option).getD option.standard

variable {values : DirectoryOption → Option String} {raises : Nat}

theorem Arranged.mem_namings_iff (h : Arranged values raises items) (option : DirectoryOption)
    (value : String) : (option, value) ∈ namings items ↔ values option = some value := by
  rw [h.named.mem_iff, List.mem_filterMap]
  constructor
  · rintro ⟨other, _, hother⟩
    rcases Option.map_eq_some_iff.mp hother with ⟨text, htext, heq⟩
    rcases Prod.mk.inj heq with ⟨rfl, rfl⟩
    exact htext
  · intro hvalue
    exact ⟨option, by cases option <;> decide, by rw [hvalue, Option.map_some]⟩

theorem Arranged.nodup (h : Arranged values raises items) :
    ((namings items).map Prod.fst).Nodup := by
  rw [(h.named.map Prod.fst).nodup_iff, List.map_filterMap]
  refine List.Nodup.filterMap (fun a b c ha hb => ?_) (by decide)
  -- What is made of an option is that option.
  rw [Option.map_map, Option.mem_def, Option.map_eq_some_iff] at ha hb
  rcases ha with ⟨_, _, rfl⟩
  rcases hb with ⟨_, _, heq⟩
  exact heq.symm

/-- The options that arguments ask for, in whatever order and spelling they stand. -/
theorem Arranged.exists_parse (h : Arranged values raises items) :
    ∃ options, parse (items.flatMap Item.args) = .ok options ∧
      options.verbosity = min raises Options.maxVerbosity ∧
      ∀ option, options.directory? option = (values option).map .ofString := by
  rcases foldl_apply items Options.empty with ⟨hothers, hgiven, hcount⟩
  refine ⟨items.foldl Item.apply Options.empty, ?_, ?_, fun option => ?_⟩
  · rw [parse_flatMap_args h.valid]
    exact foldlM_take_of_nodup h.nodup fun _ _ => rfl
  · rw [hcount (Nat.zero_le _), h.raises]
    exact congrArg (min · Options.maxVerbosity) (Nat.zero_add raises)
  · cases hvalue : values option with
    | some value =>
      exact hgiven h.nodup (option, value) ((h.mem_namings_iff option value).mpr hvalue)
    | none =>
      refine hothers option fun hmem => ?_
      rcases List.mem_map.mp hmem with ⟨⟨_, value⟩, hin, rfl⟩
      exact absurd (((h.mem_namings_iff _ value).mp hin).symm.trans hvalue) nofun

/-- The layout of options is that of the directories that are asked for or standard. -/
theorem layout_eq {options : Options}
    (h : ∀ option, options.directory? option = (values option).map .ofString) :
    options.layout =
      ⟨(Path.ofString (chosen values .root)).join (.ofString (chosen values .testDir)),
        (Path.ofString (chosen values .root)).join (.ofString (chosen values .outputDir))⟩ := by
  have hroot : options.root = Path.ofString (chosen values .root) := by
    rw [Options.root, h, chosen]
    cases values .root <;> rfl
  unfold Options.layout
  rw [h, h, hroot]
  unfold chosen
  cases values .testDir <;> cases values .outputDir <;> rfl

/-- An item that gives once more what is given already is refused, wherever it stands. -/
theorem Arranged.parse_again {before behind : List Item} {again : Item}
    (h : Arranged values raises (before ++ behind)) (hvalid : again.Valid)
    {option : DirectoryOption} {value : String} (hnamed : again.named? = some (option, value))
    (hgiven : values option ≠ none) :
    parse ((before ++ again :: behind).flatMap Item.args) = .error .argumentConflict := by
  have hvalids : ∀ item ∈ before ++ again :: behind, item.Valid := by
    intro item hmem
    rcases List.mem_append.mp hmem with hin | hin
    · exact h.valid item (List.mem_append_left _ hin)
    · rcases List.mem_cons.mp hin with rfl | hin
      · exact hvalid
      · exact h.valid item (List.mem_append_right _ hin)
  rw [parse_flatMap_args hvalids]
  refine foldlM_take_of_not_nodup fun hnodup => ?_
  -- With the other items the option is given twice.
  have hperm : (namings (before ++ again :: behind)).Perm
      ((option, value) :: namings (before ++ behind)) := by
    have hfront : (before ++ again :: behind).Perm (again :: (before ++ behind)) :=
      List.perm_middle
    have hmiddle := hfront.filterMap Item.named?
    rw [List.filterMap_cons_some hnamed] at hmiddle
    exact hmiddle
  rcases Option.ne_none_iff_exists'.mp hgiven with ⟨text, htext⟩
  have hmem := List.mem_map_of_mem (f := Prod.fst) ((h.mem_namings_iff option text).mpr htext)
  rw [(hperm.map Prod.fst).nodup_iff, List.map_cons, List.nodup_cons] at hnodup
  exact absurd hmem hnodup.1

theorem named?_of_valid {option : DirectoryOption} {value : String} (h : item.Valid)
    (hnamed : item.named? = some (option, value)) : value ≠ "" := by
  cases item with
  | joined =>
    rcases Option.some.inj hnamed with ⟨⟩
    exact h
  | separate =>
    rcases Option.some.inj hnamed with ⟨⟩
    exact h.1
  | verbose => exact absurd hnamed nofun
  | cluster => exact absurd hnamed nofun

/-- No directory that is asked for is empty, and no standard one is. -/
theorem Arranged.chosen_ne_empty (h : Arranged values raises items) (option : DirectoryOption) :
    chosen values option ≠ "" := by
  unfold chosen
  cases hvalue : values option with
  | none => cases option <;> decide
  | some value =>
    rcases List.mem_filterMap.mp ((h.mem_namings_iff option value).mpr hvalue) with
      ⟨item, hitem, hnamed⟩
    exact named?_of_valid (h.valid item hitem) hnamed

/-- A place taken from another one: a place that starts at the root is itself, and any other
    stands once behind the one that it is taken from. -/
theorem join_ofString {root : String} (h : root ≠ "") (place : String) :
    ((Path.ofString place).isAbsolute = true →
      (Path.ofString root).join (.ofString place) = .ofString place) ∧
    ((Path.ofString place).isAbsolute = false →
      (Path.ofString root).join (.ofString place) =
        if (Path.ofString root).bytes.getLast? = some Path.separator then
          .ofString (root ++ place)
        else .ofString (root ++ "/" ++ place)) := by
  have hne : (Path.ofString root).bytes ≠ [] := by
    intro hnil
    have hempty : Utf8.encode "" = [] := by decide
    exact h (Utf8.encode_inj (hnil.trans hempty.symm))
  have hslash : Utf8.encode "/" = [Path.separator] := by decide
  unfold Path.join
  constructor
  · intro habsolute
    rw [if_pos habsolute]
  · intro hrelative
    rw [if_neg (Bool.eq_false_iff.mp hrelative)]
    unfold Path.ofString at hne ⊢
    simp only [hne, false_or, Utf8.encode_append, hslash, List.append_assoc, List.singleton_append]

/-- Arguments in whatever order and spelling ask for the directories that they name and for
    as much output as there are flags, as far as that is counted. Arguments are texts here:
    one whose bytes are no text is left out, and so are the paths that only it could name.
    The two directories are taken from the root, once and only if they do not start at the
    root of all files. Naming the standard directory is the same as naming none, and naming
    a directory twice is refused wherever it is done. -/
theorem parse_arranged (h : Arranged values raises items) :
    ∃ options, parse (items.flatMap Item.args) = .ok options ∧
      options.verbosity = min raises 255 ∧
      options.layout =
        ⟨(Path.ofString (chosen values .root)).join (.ofString (chosen values .testDir)),
          (Path.ofString (chosen values .root)).join (.ofString (chosen values .outputDir))⟩ ∧
      (∀ place,
        ((Path.ofString place).isAbsolute = true →
          (Path.ofString (chosen values .root)).join (.ofString place) = .ofString place) ∧
        ((Path.ofString place).isAbsolute = false →
          (Path.ofString (chosen values .root)).join (.ofString place) =
            if (Path.ofString (chosen values .root)).bytes.getLast? = some Path.separator then
              .ofString (chosen values .root ++ place)
            else .ofString (chosen values .root ++ "/" ++ place))) ∧
      (∀ values' raises' items', Arranged values' raises' items' →
        (∀ option, chosen values' option = chosen values option) →
        ∃ options', parse (items'.flatMap Item.args) = .ok options' ∧
          options'.layout = options.layout) ∧
      ∀ before behind again option value, items = before ++ behind → again.Valid →
        again.named? = some (option, value) → values option ≠ none →
        parse ((before ++ again :: behind).flatMap Item.args) = .error .argumentConflict := by
  rcases h.exists_parse with ⟨options, hparse, hverbosity, hdirectories⟩
  have hlayout := layout_eq hdirectories
  refine ⟨options, hparse, hverbosity, hlayout, join_ofString (h.chosen_ne_empty .root), ?_, ?_⟩
  · intro values' raises' items' h' hsame
    rcases h'.exists_parse with ⟨options', hparse', _, hdirectories'⟩
    refine ⟨options', hparse', ?_⟩
    rw [hlayout, layout_eq hdirectories', hsame, hsame, hsame]
  · rintro before behind again option value rfl hvalid hnamed hgiven
    exact h.parse_again hvalid hnamed hgiven

/-- A root with an equals sign in its name and a place for the wrappers that starts at the
    root of all files. -/
def sampleValues : DirectoryOption → Option String
  | .root => some "a=b"
  | .testDir => none
  | .outputDir => some "/o"

/-- Three flags, and two options in two spellings. -/
theorem parse_arranged_sample :
    (∃ options, parse ["-vv", "--output-dir", "/o", "--verbose", "--root=a=b"] = .ok options ∧
      options.verbosity = 3 ∧
      options.layout = ⟨.ofString "a=b/tests/2017-10-04/art", .ofString "/o"⟩) ∧
    parse ["-vv", "--root", "a=b", "--output-dir", "/o", "--verbose", "--root=a=b"] =
      .error .argumentConflict := by
  have harranged : Arranged sampleValues 3
      [.cluster 1, .separate .outputDir "/o", .verbose, .joined .root "a=b"] :=
    ⟨by decide, by decide, rfl⟩
  rcases parse_arranged harranged with ⟨options, hparse, hverbosity, hlayout, hjoin, _, hagain⟩
  refine ⟨⟨options, hparse, hverbosity, hlayout.trans ?_⟩, ?_⟩
  · rw [(hjoin (chosen sampleValues .testDir)).2 (by decide), if_neg (by decide),
      (hjoin (chosen sampleValues .outputDir)).1 (by decide)]
    decide
  · exact hagain [.cluster 1] _ (.separate .root "a=b") .root "a=b" rfl (by decide) rfl nofun

end CommandLine

end TestWrappers
