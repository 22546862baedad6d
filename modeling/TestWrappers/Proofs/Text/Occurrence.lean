import Mathlib.Data.List.Infix

/-!
# Occurrences

Where one text stands in another one.

An occurrence is known by what stands behind it, and a text has its occurrences in
an order, the first one in front. So one list holds all that can be asked about
them: how many there are, and what follows the first or the last of them.

Where two texts are put together, the occurrences in both are those of the whole,
as long as none begins in the first text and ends in the second. Whether that can
happen is mostly seen at the border: an occurrence that goes across it has a
character of the pattern right in front of the border, and one right behind it.

## Main definitions

* `Occurrence.behind`: What stands behind each occurrence of a pattern.
* `Occurrence.count`: How many occurrences there are.
* `Occurrence.Apart`: No occurrence goes across the border of two texts.

## Theorems

* `Occurrence.mem_behind_iff`: What an occurrence is.
* `Occurrence.behind_append`: The occurrences in two texts that are put together.
* `Occurrence.apart_of_head`, `Occurrence.apart_of_last`: What is seen at a border.
* `Occurrence.head?_behind`, `Occurrence.getLast?_behind`: How the first and the last
  occurrence are found.
* `Occurrence.count_map`: Characters that are in no pattern can be exchanged.
-/

namespace TestWrappers

namespace Occurrence

/-- What stands behind each occurrence of a pattern in a text, the first one in
    front. -/
def behind (pattern text : List Char) : List (List Char) :=
  text.tails.filterMap fun rest => rest.dropPrefix? pattern

/-- How many occurrences of a pattern a text has. -/
def count (pattern text : List Char) : Nat := (behind pattern text).length

/-- No occurrence of the pattern begins in the first text and ends in the second
    one, where the two are put together. -/
def Apart (pattern a b : List Char) : Prop :=
  ∀ front back, front ≠ [] → back ≠ [] → pattern = front ++ back → front <:+ a → ¬ back <+: b

variable {pattern text front rest a b : List Char} {c : Char}

theorem dropPrefix?_eq_some_iff :
    text.dropPrefix? pattern = some rest ↔ text = pattern ++ rest := by
  rw [List.dropPrefix?_eq_some_iff]
  constructor
  · rintro ⟨first, htext, hfirst⟩
    rw [htext, eq_of_beq hfirst]
  · intro htext
    exact ⟨pattern, htext, BEq.rfl⟩

theorem mem_behind_iff : rest ∈ behind pattern text ↔ pattern ++ rest <:+ text := by
  unfold behind
  simp only [List.mem_filterMap, List.mem_tails, dropPrefix?_eq_some_iff, exists_eq_right]

theorem behind_eq_nil_iff : behind pattern text = [] ↔ ¬ pattern <:+: text := by
  rw [List.eq_nil_iff_forall_not_mem]
  constructor
  · rintro h ⟨front, rest, htext⟩
    exact h rest (mem_behind_iff.mpr ⟨front, by rw [← htext, List.append_assoc]⟩)
  · intro h rest hmem
    rcases mem_behind_iff.mp hmem with ⟨front, htext⟩
    exact h ⟨front, rest, by rw [← htext, List.append_assoc]⟩

theorem count_eq_zero_iff : count pattern text = 0 ↔ ¬ pattern <:+: text := by
  rw [count, List.length_eq_zero_iff, behind_eq_nil_iff]

theorem count_eq_zero_of_notMem (hc : c ∈ pattern) (h : c ∉ text) : count pattern text = 0 :=
  count_eq_zero_iff.mpr fun hin => h (hin.subset hc)

theorem behind_nil (h : pattern ≠ []) : behind pattern [] = [] :=
  behind_eq_nil_iff.mpr fun hin => h (List.infix_nil.mp hin)

theorem behind_cons (pattern : List Char) (c : Char) (text : List Char) :
    behind pattern (c :: text) =
      ((c :: text).dropPrefix? pattern).toList ++ behind pattern text := by
  unfold behind
  rw [List.tails_cons]
  cases h : (c :: text).dropPrefix? pattern with
  | none => exact List.filterMap_cons_none h
  | some rest => exact List.filterMap_cons_some h

/-- At the front of a text that another one follows the pattern stands only if it is
    in the text. -/
theorem dropPrefix?_append (h : Apart pattern text b) (hne : text ≠ []) :
    (text ++ b).dropPrefix? pattern = (text.dropPrefix? pattern).map (· ++ b) := by
  refine Option.ext fun rest => ?_
  simp only [Option.map_eq_some_iff, dropPrefix?_eq_some_iff]
  constructor
  · intro htext
    rcases List.append_eq_append_iff.mp htext with ⟨back, hpattern, hb⟩ | ⟨left, htext, hrest⟩
    · by_cases hback : back = []
      · rw [hback, List.append_nil] at hpattern
        rw [hback, List.nil_append] at hb
        exact ⟨[], by rw [hpattern, List.append_nil], hb⟩
      · -- The pattern would go on behind the text.
        exact absurd ⟨rest, hb.symm⟩ (h text back hne hback hpattern (List.suffix_refl text))
    · exact ⟨left, htext, hrest.symm⟩
  · rintro ⟨left, rfl, rfl⟩
    exact List.append_assoc _ _ _

/-- The occurrences in two texts that are put together. -/
theorem behind_append (hne : pattern ≠ []) (h : Apart pattern a b) :
    behind pattern (a ++ b) = (behind pattern a).map (· ++ b) ++ behind pattern b := by
  induction a with
  | nil => rw [behind_nil hne, List.nil_append, List.map_nil, List.nil_append]
  | cons c a ih =>
    have hrest : Apart pattern a b := fun front back hfront hback heq hends =>
      h front back hfront hback heq (hends.trans (List.suffix_cons c a))
    have hfirst := dropPrefix?_append h (List.cons_ne_nil c a)
    rw [List.cons_append] at hfirst
    rw [List.cons_append, behind_cons, behind_cons, hfirst, ih hrest, List.map_append,
      Option.toList_map, List.append_assoc]

theorem count_append (hne : pattern ≠ []) (h : Apart pattern a b) :
    count pattern (a ++ b) = count pattern a + count pattern b := by
  rw [count, behind_append hne h, List.length_append, List.length_map, count, count]

/-- An occurrence across the border has a character of the pattern, and not its first
    one, right behind the border. -/
theorem apart_of_head (h : ∀ c ∈ b.head?, c ∉ pattern.tail) : Apart pattern a b := by
  rintro front back hfront hback rfl _ ⟨rest, rfl⟩
  rcases List.exists_cons_of_ne_nil hfront with ⟨first, front, rfl⟩
  rcases List.exists_cons_of_ne_nil hback with ⟨c, back, rfl⟩
  exact h c rfl (List.mem_append_right front List.mem_cons_self)

/-- An occurrence across the border has a character of the pattern, and not its last
    one, right in front of the border. -/
theorem apart_of_last (h : ∀ c ∈ a.getLast?, c ∉ pattern.dropLast) : Apart pattern a b := by
  rintro front back hfront hback rfl ⟨outer, rfl⟩ _
  rcases List.eq_nil_or_concat' front with rfl | ⟨front, c, rfl⟩
  · exact hfront rfl
  · rw [← List.append_assoc] at h
    refine h c List.getLast?_concat ?_
    rw [List.dropLast_append_of_ne_nil hback]
    exact List.mem_append_left _ (List.mem_append_right _ List.mem_cons_self)

/-- An occurrence across the border begins with the first character of the pattern. -/
theorem apart_of_first (hc : pattern.head? = some c) (h : c ∉ a) : Apart pattern a b := by
  rintro front back hfront _ rfl hends _
  rcases List.exists_cons_of_ne_nil hfront with ⟨d, front, rfl⟩
  rw [List.cons_append, List.head?_cons, Option.some.injEq] at hc
  exact h (hends.subset (hc ▸ List.mem_cons_self))

/-- An occurrence across the border ends with the last character of the pattern. -/
theorem apart_of_end (hc : pattern.getLast? = some c) (h : c ∉ b) : Apart pattern a b := by
  rintro front back _ hback rfl _ hstarts
  rw [List.getLast?_append_of_ne_nil _ hback] at hc
  exact h (hstarts.subset (List.mem_of_getLast? hc))

/-- What stands behind the occurrences in a text stands behind the last ones in a text
    that ends so. -/
theorem behind_suffix (pattern a b : List Char) : behind pattern b <:+ behind pattern (a ++ b) := by
  induction a with
  | nil => exact List.suffix_refl _
  | cons c a ih =>
    rw [List.cons_append, behind_cons]
    exact ih.trans (List.suffix_append _ _)

theorem behind_pattern (hne : pattern ≠ []) (rest : List Char) :
    behind pattern (pattern ++ rest) = rest :: behind pattern (pattern.tail ++ rest) := by
  rcases List.exists_cons_of_ne_nil hne with ⟨c, tail, rfl⟩
  have hfirst : (c :: (tail ++ rest)).dropPrefix? (c :: tail) = some rest :=
    dropPrefix?_eq_some_iff.mpr rfl
  rw [List.cons_append, behind_cons, hfirst, List.tail_cons, Option.toList_some,
    List.singleton_append]

/-- An occurrence is the last one if none begins in it or behind it. -/
theorem getLast?_behind (hne : pattern ≠ []) (h : ¬ pattern <:+: pattern.tail ++ rest)
    (front : List Char) : (behind pattern (front ++ (pattern ++ rest))).getLast? = some rest := by
  rcases behind_suffix pattern front (pattern ++ rest) with ⟨others, hothers⟩
  rw [behind_pattern hne, behind_eq_nil_iff.mpr h] at hothers
  rw [← hothers, List.getLast?_concat]

/-- An occurrence is the first one if none ends in front of its own end. -/
theorem head?_behind (hne : pattern ≠ []) (h : ¬ pattern <:+: front ++ pattern.dropLast)
    (rest : List Char) : (behind pattern (front ++ (pattern ++ rest))).head? = some rest := by
  induction front with
  | nil => rw [List.nil_append, behind_pattern hne, List.head?_cons]
  | cons c front ih =>
    have hrest : ¬ pattern <:+: front ++ pattern.dropLast := fun hin =>
      h (hin.trans (List.suffix_cons c _).isInfix)
    have hnone : (c :: (front ++ (pattern ++ rest))).dropPrefix? pattern = none := by
      refine Option.eq_none_iff_forall_ne_some.mpr fun left hleft => h ?_
      have hwhole : pattern <+: c :: (front ++ (pattern ++ rest)) :=
        ⟨left, (dropPrefix?_eq_some_iff.mp hleft).symm⟩
      -- An occurrence at the front would end before the other one does.
      have hshort : c :: (front ++ pattern.dropLast) <+: c :: (front ++ (pattern ++ rest)) := by
        rw [List.cons_prefix_cons, List.prefix_append_right_inj]
        exact ⟨rfl, (List.dropLast_prefix pattern).trans (List.prefix_append pattern rest)⟩
      refine (List.prefix_of_prefix_length_le hwhole hshort ?_).isInfix
      rw [List.length_cons, List.length_append, List.length_dropLast]
      omega
    rw [List.cons_append, behind_cons, hnone, Option.toList_none, List.nil_append, ih hrest]

/-- What stands behind the first occurrence ends in what stands behind any other. -/
theorem suffix_of_head?_behind {first : List Char} (hne : pattern ≠ [])
    (hfirst : (behind pattern text).head? = some first) (h : rest ∈ behind pattern text) :
    rest <:+ first := by
  induction text with
  | nil =>
    rw [behind_nil hne] at h
    exact absurd h List.not_mem_nil
  | cons c text ih =>
    rw [behind_cons] at hfirst h
    cases hdrop : (c :: text).dropPrefix? pattern with
    | none =>
      rw [hdrop, Option.toList_none, List.nil_append] at hfirst h
      exact ih hfirst h
    | some left =>
      rw [hdrop, Option.toList_some, List.singleton_append] at hfirst h
      rw [List.head?_cons, Option.some.injEq] at hfirst
      rw [← hfirst]
      rcases List.mem_cons.mp h with rfl | hin
      · exact List.suffix_refl _
      · -- The other occurrence begins further behind.
        have htext := dropPrefix?_eq_some_iff.mp hdrop
        have hinner := mem_behind_iff.mp hin
        have hlength := hinner.length_le
        have hwhole := congrArg List.length htext
        rw [List.length_cons, List.length_append] at hwhole
        rw [List.length_append] at hlength
        have hrest : rest <:+ pattern ++ left :=
          htext ▸ ((List.suffix_append _ _).trans hinner).trans (List.suffix_cons c text)
        exact List.suffix_of_suffix_length_le hrest (List.suffix_append _ _) (by omega)

/-- Exchanging characters changes no count if those of the pattern keep their places. -/
theorem count_map {exchange : Char → Char}
    (h : ∀ d ∈ pattern, ∀ c, exchange c = d ↔ c = d) (text : List Char) :
    count pattern (text.map exchange) = count pattern text := by
  have hpattern : pattern.map exchange = pattern := by
    rw [List.map_congr_left fun d hd => (h d hd d).mpr rfl, List.map_id']
  have hdrop : ∀ text : List Char, (text.map exchange).dropPrefix? pattern =
      (text.dropPrefix? pattern).map (·.map exchange) := by
    intro text
    refine Option.ext fun rest => ?_
    simp only [Option.map_eq_some_iff, dropPrefix?_eq_some_iff]
    constructor
    · intro htext
      rcases List.map_eq_append_iff.mp htext with ⟨first, left, rfl, hfirst, hleft⟩
      -- What becomes a character of the pattern was that character before.
      have hsame : first.map exchange = first := by
        refine (List.map_congr_left fun c hc => ?_).trans (List.map_id' first)
        exact ((h (exchange c) (hfirst ▸ List.mem_map_of_mem hc) c).mp rfl).symm
      rw [hsame] at hfirst
      exact ⟨left, by rw [hfirst], hleft⟩
    · rintro ⟨left, rfl, rfl⟩
      rw [List.map_append, hpattern]
  have hbehind : behind pattern (text.map exchange) =
      (behind pattern text).map (·.map exchange) := by
    induction text with
    | nil =>
      cases pattern with
      | nil => rfl
      | cons d pattern => rfl
    | cons c text ih =>
      have hfirst := hdrop (c :: text)
      rw [List.map_cons] at hfirst
      rw [List.map_cons, behind_cons, behind_cons, hfirst, ih, List.map_append,
        Option.toList_map]
  rw [count, hbehind, List.length_map, count]

end Occurrence

end TestWrappers
