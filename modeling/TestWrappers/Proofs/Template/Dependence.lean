import Mathlib.Logic.Function.Basic
import TestWrappers.Proofs.Template.Faults

/-!
# What Filling In Depends On

Which of the values that are given can be seen in what a template is filled in with.

Values are put in place of references after the text has been read. So which sign is
at fault depends on the names that have values and not on the values, and where no sign
is at fault the result depends on the values of the names that the text refers to and on
nothing else.

With values for more names a text can be filled in up to wherever it could be filled in
before. A stray sign that is reported is then still the first one at fault. A name that
is reported as missing is missed at the first reference to it, since what is in front of
the sign can be filled in and refers to names with values only. If the name is given a
value, nothing up to and including that reference is at fault any more, and what is
reported then stands behind it.

## Main definitions

* `Template.RefersAt`: The text refers to a name at a dollar sign.

## Theorems

* `Template.substitute_congr`: Values of names that the text does not refer to do not
  show.
* `Template.FirstFault.of_keys`: Values for more names leave the first fault where it is.
* `Template.RefersAt.isSome`: A text that can be filled in refers to names with values.
* `Template.FirstFault.prefix_refersAt`: A missing name is missed where the text first
  refers to it.
* `Template.substitute_depends`: What the outcome depends on.
-/

namespace TestWrappers

namespace Template

variable {values other : Bindings} {text front rest front' rest' : List Char} {fault : Fault}
  {name : String}

/-- The text refers to the name at the dollar sign behind the front, and this sign is
    read as the beginning of a placeholder: in front of it whole pieces are written. -/
def RefersAt (text front : List Char) (name : String) : Prop :=
  ∃ pieces rest chars behind, Piece.Legible pieces ∧ pieces.flatMap Piece.written = front ∧
    text = front ++ '$' :: rest ∧ Placeholder.Refers rest chars behind ∧
    String.ofList chars = name

/-- Pieces stand for the same if their names have the same values. -/
theorem fill_congr {pieces : List Piece}
    (h : ∀ piece ∈ pieces, ∀ name, piece.name? = some name → other name = values name) :
    fill other pieces = fill values pieces := by
  induction pieces with
  | nil => rfl
  | cons piece pieces ih =>
    rcases List.forall_mem_cons.mp h with ⟨hpiece, hpieces⟩
    have hvalue : piece.value? other = piece.value? values := by
      cases piece with
      | literal text => rfl
      | bare name => rw [Piece.value?, Piece.value?, hpiece _ rfl]
      | braced name => rw [Piece.value?, Piece.value?, hpiece _ rfl]
    rw [fill, fill, hvalue, ih hpieces]

/-- The text refers to every name that is read. -/
theorem exists_refersAt {piece : Piece} (hmem : piece ∈ (Scan.ofText text).pieces)
    (hname : piece.name? = some name) : ∃ front, RefersAt text front name := by
  rcases List.append_of_mem hmem with ⟨front, back, hpieces⟩
  have hfront := (Piece.legible_of_append (hpieces ▸ Scan.legible_ofText text)).1
  rcases Scan.exists_refers_of_pieces_eq hpieces hname with ⟨rest, chars, behind, htext, hrefers, h⟩
  exact ⟨_, front, rest, chars, behind, hfront, rfl, htext, hrefers, h⟩

/-- A text comes out the same if the names that it refers to have the same values. -/
theorem substitute_congr {text : String}
    (h : ∀ name, (∃ front, RefersAt text.toList front name) → other name = values name) :
    substitute text other = substitute text values := by
  have hfill : fill other (Scan.ofText text.toList).pieces =
      fill values (Scan.ofText text.toList).pieces :=
    fill_congr fun piece hmem name hname => h name (exists_refersAt hmem hname)
  rw [substitute, substitute, hfill]

/-- What can be filled in can be filled in with values for more names. -/
theorem exists_substitute_eq_ok_of_keys {text : String}
    (hkeys : ∀ name, (values name).isSome = true → (other name).isSome = true)
    (h : ∃ out, substitute text values = .ok out) : ∃ out, substitute text other = .ok out := by
  rcases (exists_substitute_eq_ok_iff text values).mp h with ⟨pieces, hlegible, hbound, hwritten⟩
  exact (exists_substitute_eq_ok_iff text other).mpr ⟨pieces, hlegible,
    fun piece hmem name hname => hkeys name (hbound piece hmem name hname), hwritten⟩

/-- The first fault stays the first one with values for more names, unless it is a
    missing name that is among them. -/
theorem FirstFault.of_keys (h : FirstFault values text front rest fault)
    (hkeys : ∀ name, (values name).isSome = true → (other name).isSome = true)
    (hnone : ∀ name, fault = .unbound name → other name = none) :
    FirstFault other text front rest fault where
  split := h.split
  fillable := exists_substitute_eq_ok_of_keys hkeys h.fillable
  offends := by
    cases h.offends with
    | stray hstray => exact .stray hstray
    | unbound hrefers _ => exact .unbound hrefers (hnone _ rfl)

/-- All names that a text refers to have values if it can be filled in. -/
theorem RefersAt.isSome {text : String} (h : RefersAt text.toList front name)
    (hfill : ∃ out, substitute text values = .ok out) : (values name).isSome = true := by
  rcases h with ⟨pieces, rest, chars, behind, hlegible, rfl, htext, hrefers, rfl⟩
  rcases hfill with ⟨out, hout⟩
  have hbound := ((fill_eq_ok_iff values _ _).mp ((substitute_eq_ok_iff_scan text values out).mp
    hout).2).1
  have hscan := Scan.ofText_append hlegible fun _ c (hc : c ∈ ('$' :: rest).head?) =>
    Identifier.not_isPart_of_mem_head?_cons (by decide) hc
  rcases Scan.exists_pieces_ofText_of_refers hrefers with ⟨piece, hname, hpieces⟩
  rw [htext, hscan, Piece.bound_merge_iff, hpieces] at hbound
  exact hbound piece (List.mem_append_right _ List.mem_cons_self) _ hname

/-- Where a sign that announces a name is at fault, the name has no value. -/
theorem Offends.eq_none {chars behind : List Char} (h : Offends values front rest fault)
    (hrefers : Placeholder.Refers rest chars behind) : values (String.ofList chars) = none := by
  rcases (Placeholder.refers_iff _ _ _).mp hrefers with ⟨p, hp, hread⟩
  cases h with
  | stray hstray =>
    rw [(Placeholder.read?_eq_none_iff rest).mpr hstray] at hread
    cases hread
  | unbound hother hnone =>
    -- Only one name can be read.
    rcases (Placeholder.refers_iff _ _ _).mp hother with ⟨q, hq, hread'⟩
    rw [hread] at hread'
    cases hread'
    rcases hp with rfl | rfl <;> rcases hq with hq | hq <;> cases hq <;> exact hnone

/-- At the sign at which a name is missed the text refers to it. -/
theorem FirstFault.refersAt (h : FirstFault values text front rest (.unbound name)) :
    RefersAt text front name ∧ values name = none := by
  rcases (exists_substitute_eq_ok_iff _ values).mp h.fillable with ⟨pieces, hlegible, _, hwritten⟩
  rw [String.toList_ofList] at hwritten
  cases h.offends with
  | unbound hrefers hnone =>
    exact ⟨⟨pieces, rest, _, _, hlegible, hwritten, h.split, hrefers, rfl⟩, hnone⟩

/-- A missing name is missed where the text first refers to it. -/
theorem FirstFault.prefix_refersAt (h : FirstFault values text front rest (.unbound name))
    (hother : RefersAt text front' name) : front <+: front' := by
  rcases hother with ⟨pieces, rest', chars, behind, hlegible, hwritten, htext, hrefers, hname⟩
  rcases List.append_eq_append_iff.mp (h.split.symm.trans htext) with
    ⟨middle, hfront, _⟩ | ⟨middle, hfront, hrest⟩
  · exact ⟨middle, hfront.symm⟩
  · cases middle with
    | nil => exact ⟨[], by rw [hfront, List.append_nil, List.append_nil]⟩
    | cons c more =>
      -- What is in front of the sign would refer to the name, which has no value.
      rw [List.cons_append, List.cons.injEq] at hrest
      rw [hrest.2] at hrefers
      rcases hrefers.of_append (by decide) (by decide) (by decide) with ⟨middle, hshort, _⟩
      have hearly : RefersAt (String.ofList front).toList front' name :=
        ⟨pieces, more, chars, middle, hlegible, hwritten,
          by rw [String.toList_ofList, hfront, hrest.1], hshort, hname⟩
      have hsome := hearly.isSome h.fillable
      rw [h.refersAt.2] at hsome
      exact absurd hsome nofun

/-- If a missing name is given a value, what is at fault then stands behind the first
    reference to it. -/
theorem FirstFault.prefix_of_update (h : FirstFault values text front rest (.unbound name))
    {value : String}
    (h' : FirstFault (Function.update values name (some value)) text front' rest' fault) :
    front ++ ['$'] <+: front' := by
  have hkeys : ∀ known, (values known).isSome = true →
      (Function.update values name (some value) known).isSome = true := by
    intro known hknown
    by_cases hname : known = name
    · rw [hname, Function.update_self]
      rfl
    · rwa [Function.update_of_ne hname]
  rcases h'.front_prefix h.split (exists_substitute_eq_ok_of_keys hkeys h.fillable) with
    ⟨middle, rfl⟩
  have hsplit := h.split.symm.trans h'.split
  rw [List.append_assoc, List.append_cancel_left_eq] at hsplit
  cases middle with
  | nil =>
    -- The sign announces the name, and the name has a value.
    rcases h.refersAt.1 with ⟨_, behind, chars, _, _, _, htext, hrefers, rfl⟩
    have hrest := h.split.symm.trans htext
    rw [List.append_cancel_left_eq, List.cons.injEq] at hrest
    rw [List.nil_append, List.cons.injEq, hrest.2] at hsplit
    have hnone := h'.offends.eq_none (hsplit.2 ▸ hrefers)
    rw [Function.update_self] at hnone
    cases hnone
  | cons c more =>
    rw [List.cons_append, List.cons.injEq] at hsplit
    exact ⟨more, by rw [← hsplit.1, List.append_assoc, List.singleton_append]⟩

/-- What the outcome depends on.

    The values do not decide whether a text can be filled in, nor what is reported. If it
    can be filled in, the result depends on the values of the names that it refers to. A
    stray sign that is reported is reported with values for more names as well. A name
    that is reported as missing has no value, and if it is given one, it is not reported
    again, and the sign that is at fault then, if there is one, stands behind the first
    at which the text refers to the name. -/
theorem substitute_depends (text : String) :
    (∀ values other : Bindings, (∀ name, (values name).isSome = (other name).isSome) →
      (∃ fault, substitute text values = .error fault ∧ substitute text other = .error fault) ∨
      ∃ out out', substitute text values = .ok out ∧ substitute text other = .ok out') ∧
    (∀ values other out, substitute text values = .ok out →
      (∀ name, (∃ front, RefersAt text.toList front name) → other name = values name) →
      substitute text other = .ok out) ∧
    (∀ values other position, substitute text values = .error (.stray position) →
      (∀ name, (values name).isSome = true → (other name).isSome = true) →
      substitute text other = .error (.stray position)) ∧
    ∀ values name, substitute text values = .error (.unbound name) → values name = none ∧
      ∃ front, RefersAt text.toList front name ∧
        (∀ front', RefersAt text.toList front' name → front <+: front') ∧
        ∀ value fault, substitute text (Function.update values name (some value)) = .error fault →
          fault ≠ .unbound name ∧
          ∃ front' rest', FirstFault (Function.update values name (some value)) text.toList
            front' rest' fault ∧ front ++ ['$'] <+: front' := by
  refine ⟨fun values other hkeys => ?_, fun values other out hout hsame => ?_,
    fun values other position hstray hkeys => ?_, fun values name hunbound => ?_⟩
  · cases hvalues : substitute text values with
    | ok out =>
      rcases exists_substitute_eq_ok_of_keys (fun name h => hkeys name ▸ h) ⟨out, hvalues⟩ with
        ⟨out', hother⟩
      exact Or.inr ⟨out, out', rfl, hother⟩
    | error fault =>
      rcases exists_firstFault hvalues with ⟨front, rest, hfirst⟩
      refine Or.inl ⟨fault, rfl, (hfirst.of_keys (fun name h => hkeys name ▸ h) ?_).substitute_eq⟩
      rintro name rfl
      have hnone := hkeys name
      rw [hfirst.refersAt.2] at hnone
      exact Option.isNone_iff_eq_none.mp (Option.isSome_eq_false_iff.mp hnone.symm)
  · rw [substitute_congr hsame, hout]
  · rcases exists_firstFault hstray with ⟨front, rest, hfirst⟩
    exact (hfirst.of_keys hkeys fun _ => nofun).substitute_eq
  · rcases exists_firstFault hunbound with ⟨front, rest, hfirst⟩
    refine ⟨hfirst.refersAt.2, front, hfirst.refersAt.1, fun _ => hfirst.prefix_refersAt,
      fun value fault hfault => ?_⟩
    rcases exists_firstFault hfault with ⟨front', rest', hlater⟩
    refine ⟨?_, front', rest', hlater, hfirst.prefix_of_update hlater⟩
    rintro rfl
    have hnone := hlater.refersAt.2
    rw [Function.update_self] at hnone
    cases hnone

/-- A missing name with a stray sign in the next line, which is found once the name has a
    value and stays at fault with values for more names; and a text that refers to one
    name, with no other value, with more values and with an empty one. -/
theorem substitute_depends_sample :
    (substitute "a$x\n$" fun _ => none) = .error (.unbound "x") ∧
    substitute "a$x\n$" (Function.update (fun _ => none) "x" (some "$\n")) =
      .error (.stray ⟨2, 1⟩) ∧
    (∃ front front' rest', RefersAt "a$x\n$".toList front "x" ∧
      FirstFault (Function.update (fun _ => none) "x" (some "$\n")) "a$x\n$".toList front' rest'
        (.stray ⟨2, 1⟩) ∧ front ++ ['$'] <+: front') ∧
    (substitute "a$x\n$" fun _ => some "") = .error (.stray ⟨2, 1⟩) ∧
    substitute "$x$$" (Function.update (fun _ => none) "x" (some "é")) = .ok "é$" ∧
    (substitute "$x$$" fun _ => some "é") = .ok "é$" ∧
    ∃ out, (substitute "$x$$" fun _ => some "") = .ok out := by
  rcases substitute_depends "a$x\n$" with ⟨_, _, hstray, hunbound⟩
  rcases substitute_depends "$x$$" with ⟨hvalues, hnames, _, _⟩
  have hbreak : ∀ c ∈ ['\n', '$'].head?, Identifier.isPart c = false :=
    fun _ => Identifier.not_isPart_of_mem_head?_cons (by decide)
  have hdollar : ∀ c ∈ ['$', '$'].head?, Identifier.isPart c = false :=
    fun _ => Identifier.not_isPart_of_mem_head?_cons (by decide)
  have hmissing : (substitute "a$x\n$" fun _ => none) = .error (.unbound "x") :=
    @substitute_of_offends _ ['x', '\n', '$'] _ [.literal ['a']] "a$x\n$" trivial
      ((fill_eq_ok_iff _ _ ['a']).mp rfl).1 rfl
      (@Offends.unbound _ _ _ ['x'] ['\n', '$'] ⟨⟨rfl, nofun⟩, Or.inl ⟨rfl, hbreak⟩⟩ rfl)
  have hfound : substitute "a$x\n$" (Function.update (fun _ => none) "x" (some "$\n")) =
      .error (.stray ⟨2, 1⟩) :=
    @substitute_of_offends _ [] _ [.literal ['a'], .bare ['x'], .literal ['\n']] "a$x\n$"
      ⟨⟨rfl, nofun⟩, hbreak, trivial⟩ ((fill_eq_ok_iff _ _ ['a', '$', '\n', '\n']).mp rfl).1 rfl
      (.stray ((Placeholder.read?_eq_none_iff _).mp rfl))
  have hone : substitute "$x$$" (Function.update (fun _ => none) "x" (some "é")) =
      .ok "é$" :=
    @substitute_of_written _ [.bare ['x'], .literal ['$']] _ ['é', '$']
      ⟨⟨rfl, nofun⟩, hdollar, trivial⟩ rfl rfl
  have hmore : (substitute "$x$$" fun _ => some "é") = .ok "é$" := by
    refine hnames _ _ _ hone fun name hrefers => ?_
    rcases hrefers with ⟨front, hrefers⟩
    have hsome := hrefers.isSome ⟨_, hone⟩
    by_cases hname : name = "x"
    · rw [hname, Function.update_self]
    · rw [Function.update_of_ne hname] at hsome
      cases hsome
  refine ⟨hmissing, hfound, ?_, hstray _ _ _ hfound fun _ _ => rfl, hone, hmore, ?_⟩
  · rcases (hunbound _ _ hmissing).2 with ⟨front, hrefers, _, hlater⟩
    rcases (hlater _ _ hfound).2 with ⟨front', rest', hfirst, hprefix⟩
    exact ⟨front, front', rest', hrefers, hfirst, hprefix⟩
  · rcases hvalues (fun _ => some "é") (fun _ => some "") fun _ => rfl with
      ⟨fault, hfault, _⟩ | ⟨_, out, _, hout⟩
    · rw [hmore] at hfault
      cases hfault
    · exact ⟨out, hout⟩

end Template

end TestWrappers
