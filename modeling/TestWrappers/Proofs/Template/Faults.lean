import TestWrappers.Proofs.Template.Grammar
import TestWrappers.Proofs.Text.Lines

/-!
# Faults of Templates

Which fault of a template is reported, and where it is.

A template that cannot be filled in has a first dollar sign at which this shows:
what stands in front of it can be filled in by itself, and the sign announces
nothing, or a name without a value. So the fault is known from what stands in front
of the sign and from the placeholder, which is as much of what follows as decides
how it is read (`Placeholder.reach`).

The scan of the text finds the sign. It reads what is in front in the same way
whether or not anything follows, since a dollar sign cannot make the name in front
of it longer. That there is only one such sign follows: in front of a second one
the first would already have stopped the filling in.

## Main definitions

* `Placeholder.Stray`: A dollar sign in front of the text announces nothing.
* `Placeholder.Refers`: The text begins with a reference to a name.
* `Placeholder.reach`: The characters that decide what is announced.
* `Template.Offends`: What is wrong at a dollar sign.
* `Template.FirstFault`: The first dollar sign at which something is wrong.

## Theorems

* `Placeholder.read?_eq_none_iff`: When a dollar sign announces nothing.
* `Placeholder.exists_read?_of_reach_eq`: The reach of a placeholder decides what is read.
* `Template.fill_eq_error_iff`: The first name without a value is reported.
* `Template.substitute_eq_error_iff`: The fault that is reported, and its place.
-/

namespace TestWrappers

namespace Identifier

theorem IsName.all_isPart {name : List Char} (h : IsName name) : ∀ c ∈ name, isPart c = true := by
  cases name with
  | nil => exact absurd h not_false
  | cons c cs =>
    refine List.forall_mem_cons.mpr ⟨?_, h.2⟩
    rw [Identifier.isPart, h.1, Bool.true_or]

/-- A name has no character that cannot be part of one. -/
theorem IsName.notMem {name : List Char} (h : IsName name) {c : Char} (hc : isPart c = false) :
    c ∉ name :=
  fun hmem => absurd ((h.all_isPart c hmem).symm.trans hc) nofun

theorem IsName.append {name more : List Char} (h : IsName name)
    (hmore : ∀ c ∈ more, isPart c = true) : IsName (name ++ more) := by
  cases name with
  | nil => exact absurd h not_false
  | cons c cs =>
    refine ⟨h.1, fun d hd => ?_⟩
    rcases List.mem_append.mp hd with hin | hin
    · exact h.2 d hin
    · exact hmore d hin

theorem not_isPart_of_mem_head?_dropWhile {cs : List Char} {c : Char}
    (h : c ∈ (cs.dropWhile isPart).head?) : isPart c = false := by
  have hnot := List.head?_dropWhile_not isPart cs
  rw [Option.mem_def.mp h] at hnot
  exact hnot

end Identifier

namespace Placeholder

/-- A dollar sign in front of the text announces nothing: the text begins with no
    other dollar sign, with no name, and with no name in braces. -/
def Stray (cs : List Char) : Prop :=
  (∀ rest, cs ≠ '$' :: rest) ∧
    ∀ name rest, Identifier.IsName name →
      cs ≠ name ++ rest ∧ cs ≠ '\x7b' :: (name ++ '\x7d' :: rest)

/-- The text begins with a name, up to the end of the name, or with a name in
    braces, and the rest is behind it. -/
def Refers (cs name rest : List Char) : Prop :=
  Identifier.IsName name ∧
    ((cs = name ++ rest ∧ ∀ c ∈ rest.head?, Identifier.isPart c = false) ∨
      cs = '\x7b' :: (name ++ '\x7d' :: rest))

/-- The characters behind a dollar sign that decide what it announces. A brace that
    is not closed takes the character that stands in place of the other brace. -/
def reach : List Char → List Char
  | '$' :: _ => ['$']
  | '\x7b' :: cs =>
    '\x7b' :: (cs.takeWhile Identifier.isPart ++ (cs.dropWhile Identifier.isPart).head?.toList)
  | cs => cs.takeWhile Identifier.isPart

/-- A text begins with a reference exactly if it is read as one. -/
theorem refers_iff (cs name rest : List Char) :
    Refers cs name rest ↔
      ∃ p, (p = bare name ∨ p = braced name) ∧ read? cs = some (p, rest) := by
  constructor
  · rintro ⟨hname, ⟨rfl, hend⟩ | rfl⟩
    · exact ⟨bare name, Or.inl rfl, read?_bare hname hend⟩
    · exact ⟨braced name, Or.inr rfl, read?_braced hname⟩
  · rintro ⟨p, hp, hread⟩
    rcases read?_cases hread with ⟨rfl, _⟩ | ⟨other, hother, ⟨rfl, hcs⟩ | ⟨rfl, hcs⟩⟩
    · rcases hp with heq | heq <;> cases heq
    · rcases hp with heq | heq
      · cases heq
        exact ⟨hother, Or.inl hcs⟩
      · cases heq
    · rcases hp with heq | heq
      · cases heq
      · cases heq
        exact ⟨hother, Or.inr hcs⟩

/-- Nothing is read exactly where a dollar sign announces nothing. -/
theorem read?_eq_none_iff (cs : List Char) : read? cs = none ↔ Stray cs := by
  constructor
  · intro hnone
    refine ⟨?_, fun name rest hname => ⟨?_, ?_⟩⟩
    · rintro rest rfl
      exact absurd hnone nofun
    · -- A name can be read together with all that makes it longer.
      rintro rfl
      have hlong := hname.append (List.all_eq_true.mp (List.all_takeWhile (l := rest)))
      have hend : ∀ c ∈ (rest.dropWhile Identifier.isPart).head?, Identifier.isPart c = false :=
        fun _ => Identifier.not_isPart_of_mem_head?_dropWhile
      have hread := read?_bare hlong hend
      rw [List.append_assoc, List.takeWhile_append_dropWhile, hnone] at hread
      exact absurd hread nofun
    · rintro rfl
      rw [read?_braced hname] at hnone
      exact absurd hnone nofun
  · intro hstray
    cases hread : read? cs with
    | none => rfl
    | some found =>
      rcases read?_cases hread with ⟨_, hcs⟩ | ⟨name, hname, ⟨_, hcs, _⟩ | ⟨_, hcs⟩⟩
      · exact absurd hcs (hstray.1 _)
      · exact absurd hcs (hstray.2 name _ hname).1
      · exact absurd hcs (hstray.2 name _ hname).2

theorem reach_cases (cs : List Char) :
    (∃ rest, cs = '$' :: rest ∧ reach cs = ['$']) ∨
    (∃ rest, cs = '\x7b' :: rest ∧ reach cs = '\x7b' ::
      (rest.takeWhile Identifier.isPart ++ (rest.dropWhile Identifier.isPart).head?.toList)) ∨
    reach cs = cs.takeWhile Identifier.isPart := by
  unfold reach
  split
  · exact Or.inl ⟨_, rfl, rfl⟩
  · exact Or.inr (Or.inl ⟨_, rfl, rfl⟩)
  · exact Or.inr (Or.inr rfl)

theorem takeWhile_name_append {name rest : List Char} (hname : Identifier.IsName name)
    (hend : ∀ c ∈ rest.head?, Identifier.isPart c = false) :
    (name ++ rest).takeWhile Identifier.isPart = name := by
  rw [List.takeWhile_append_of_pos hname.all_isPart]
  cases rest with
  | nil => exact List.append_nil name
  | cons c rest =>
    have hc : ¬ Identifier.isPart c = true := Bool.eq_false_iff.mp (hend c rfl)
    rw [List.takeWhile_cons_of_neg hc, List.append_nil]

/-- The reach of a name is the name. -/
theorem reach_bare {name rest : List Char} (hname : Identifier.IsName name)
    (hend : ∀ c ∈ rest.head?, Identifier.isPart c = false) : reach (name ++ rest) = name := by
  have hcases := reach_cases (name ++ rest)
  rw [takeWhile_name_append hname hend] at hcases
  cases name with
  | nil => exact absurd hname not_false
  | cons c cs =>
    rcases hcases with ⟨_, hcs, _⟩ | ⟨_, hcs, _⟩ | hreach
    · exact absurd (List.cons.inj hcs).1 (Identifier.ne_dollar_of_isStart hname.1)
    · exact absurd (List.cons.inj hcs).1 (Identifier.ne_brace_of_isStart hname.1)
    · exact hreach

/-- The reach of a name in braces ends with the brace. -/
theorem reach_braced {name : List Char} (rest : List Char) (hname : Identifier.IsName name) :
    reach ('\x7b' :: (name ++ '\x7d' :: rest)) = '\x7b' :: (name ++ ['\x7d']) := by
  have hbrace : ∀ c ∈ ('\x7d' :: rest).head?, Identifier.isPart c = false :=
    fun _ => Identifier.not_isPart_of_mem_head?_cons (by decide)
  have htake := takeWhile_name_append hname hbrace
  -- So the brace is what stops the name.
  have hdrop := List.takeWhile_append_dropWhile (p := Identifier.isPart)
    (l := name ++ '\x7d' :: rest)
  rw [htake, List.append_cancel_left_eq] at hdrop
  rw [reach, htake, hdrop]
  rfl

theorem exists_eq_dollar_of_reach {cs : List Char} (h : reach cs = ['$']) :
    ∃ rest, cs = '$' :: rest := by
  rcases reach_cases cs with ⟨rest, rfl, _⟩ | ⟨_, _, hreach⟩ | hreach
  · exact ⟨rest, rfl⟩
  · rw [hreach] at h
    exact absurd (List.cons.inj h).1 (by decide)
  · have hparts := List.all_eq_true.mp (List.all_takeWhile (p := Identifier.isPart) (l := cs))
    rw [← hreach, h] at hparts
    exact absurd (hparts '$' List.mem_cons_self) (by decide)

/-- What has the reach of a name begins with the name, and goes on with nothing that
    would make it longer. -/
theorem exists_eq_append_of_reach {cs name : List Char} (hname : Identifier.IsName name)
    (h : reach cs = name) :
    ∃ rest, cs = name ++ rest ∧ ∀ c ∈ rest.head?, Identifier.isPart c = false := by
  rcases reach_cases cs with ⟨_, _, hreach⟩ | ⟨_, _, hreach⟩ | hreach
  · rw [← h, hreach] at hname
    exact absurd hname.1 (by decide)
  · rw [← h, hreach] at hname
    exact absurd hname.1 (by decide)
  · refine ⟨cs.dropWhile Identifier.isPart, ?_, fun _ =>
      Identifier.not_isPart_of_mem_head?_dropWhile⟩
    rw [← h, hreach, List.takeWhile_append_dropWhile]

/-- What has the reach of a name in braces begins with it. -/
theorem exists_eq_braced_of_reach {cs name : List Char}
    (h : reach cs = '\x7b' :: (name ++ ['\x7d'])) :
    ∃ rest, cs = '\x7b' :: (name ++ '\x7d' :: rest) := by
  have hparts : ∀ text : List Char, ∀ c ∈ text.takeWhile Identifier.isPart,
      Identifier.isPart c = true :=
    fun _ => List.all_eq_true.mp List.all_takeWhile
  rcases reach_cases cs with ⟨_, _, hreach⟩ | ⟨inner, rfl, hreach⟩ | hreach
  · rw [hreach] at h
    exact absurd (List.cons.inj h).1 (by decide)
  · rw [hreach] at h
    have hclosed := (List.cons.inj h).2
    have hsplit := List.takeWhile_append_dropWhile (p := Identifier.isPart) (l := inner)
    cases hdrop : inner.dropWhile Identifier.isPart with
    | nil =>
      -- The brace would be a part of the name.
      rw [hdrop, List.head?_nil, Option.toList_none, List.append_nil] at hclosed
      have hbrace := hparts inner '\x7d' (hclosed ▸ List.mem_append_right _ List.mem_cons_self)
      exact absurd hbrace (by decide)
    | cons c rest =>
      rw [hdrop, List.head?_cons, Option.toList_some] at hclosed
      rcases List.append_inj' hclosed rfl with ⟨htake, hc⟩
      rw [htake, hdrop, (List.cons.inj hc).1] at hsplit
      exact ⟨rest, congrArg _ hsplit.symm⟩
  · have hbrace := hparts cs '\x7b' (by rw [← hreach, h]; exact List.mem_cons_self)
    exact absurd hbrace (by decide)

/-- A stretch at the front of a text ends in front of the first character that it does
    not have. -/
theorem exists_append_of_notMem {c : Char} {front more stretch behind : List Char}
    (h : front ++ c :: more = stretch ++ behind) (hnot : c ∉ stretch) :
    ∃ middle, front = stretch ++ middle ∧ behind = middle ++ c :: more := by
  rcases List.append_eq_append_iff.mp h with ⟨middle, rfl, hmore⟩ | ⟨middle, hfront, hbehind⟩
  · cases middle with
    | nil => exact ⟨[], (List.append_nil _).symm.trans (List.append_nil _).symm, hmore.symm⟩
    | cons d middle =>
      rw [(List.cons.inj hmore).1] at hnot
      exact absurd (List.mem_append_right _ List.mem_cons_self) hnot
  · exact ⟨middle, hfront, hbehind⟩

theorem braced_append (name behind : List Char) :
    '\x7b' :: (name ++ '\x7d' :: behind) = '\x7b' :: (name ++ ['\x7d']) ++ behind := by
  rw [List.cons_append, List.append_assoc, List.singleton_append]

/-- A name in braces has no characters but those of the name and the braces. -/
theorem notMem_braced {name : List Char} (hname : Identifier.IsName name) {c : Char}
    (hc : Identifier.isPart c = false) (hopen : c ≠ '\x7b') (hclose : c ≠ '\x7d') :
    c ∉ '\x7b' :: (name ++ ['\x7d']) := by
  intro hmem
  rcases List.mem_append.mp ((List.mem_cons.mp hmem).resolve_left hopen) with hin | hin
  · exact hname.notMem hc hin
  · exact hclose (List.mem_singleton.mp hin)

/-- What announces nothing announces nothing if the text ends earlier. -/
theorem Stray.of_append {cs more : List Char} (h : Stray (cs ++ more)) : Stray cs := by
  refine ⟨fun behind heq => ?_, fun name behind hname => ⟨fun heq => ?_, fun heq => ?_⟩⟩
  · rw [heq] at h
    exact h.1 _ rfl
  · rw [heq, List.append_assoc] at h
    exact (h.2 name _ hname).1 rfl
  · rw [heq, List.cons_append, List.append_assoc] at h
    exact (h.2 name _ hname).2 rfl

/-- A reference is one also if the text ends at a later character that no reference
    has. -/
theorem Refers.of_append {cs name behind more : List Char} {c : Char}
    (h : Refers (cs ++ c :: more) name behind) (hc : Identifier.isPart c = false)
    (hopen : c ≠ '\x7b') (hclose : c ≠ '\x7d') :
    ∃ middle, Refers cs name middle ∧ behind = middle ++ c :: more := by
  rcases h with ⟨hname, ⟨hcs, hend⟩ | hcs⟩
  · rcases exists_append_of_notMem hcs (hname.notMem hc) with ⟨middle, rfl, rfl⟩
    refine ⟨middle, ⟨hname, Or.inl ⟨rfl, fun d hd => hend d ?_⟩⟩, rfl⟩
    rw [List.head?_append, Option.mem_def.mp hd]
    rfl
  · rw [braced_append] at hcs
    rcases exists_append_of_notMem hcs (notMem_braced hname hc hopen hclose) with ⟨middle, rfl, rfl⟩
    exact ⟨middle, ⟨hname, Or.inr (braced_append name middle).symm⟩, rfl⟩

/-- Texts with the same reach announce the same. -/
theorem exists_read?_of_reach_eq {cs other rest : List Char} {p : Placeholder}
    (hreach : reach other = reach cs) (hread : read? cs = some (p, rest)) :
    ∃ behind, read? other = some (p, behind) := by
  rcases read?_cases hread with ⟨rfl, rfl⟩ | ⟨name, hname, ⟨rfl, rfl, hend⟩ | ⟨rfl, rfl⟩⟩
  · rcases exists_eq_dollar_of_reach hreach with ⟨behind, rfl⟩
    exact ⟨behind, rfl⟩
  · rw [reach_bare hname hend] at hreach
    rcases exists_eq_append_of_reach hname hreach with ⟨behind, rfl, hbehind⟩
    exact ⟨behind, read?_bare hname hbehind⟩
  · rw [reach_braced rest hname] at hreach
    rcases exists_eq_braced_of_reach hreach with ⟨behind, rfl⟩
    exact ⟨behind, read?_braced hname⟩

end Placeholder

namespace Scan

/-- A dollar sign that announces nothing ends the reading. -/
theorem ofText_stray {cs : List Char} (h : Placeholder.read? cs = none) :
    ofText ('$' :: cs) = ⟨[], '$' :: cs⟩ := by
  rw [ofText, if_pos rfl]
  split
  · rename_i hread
    rw [h] at hread
    cases hread
  · rfl

/-- What is left of a text begins with a dollar sign that announces nothing. -/
theorem rest_ofText (cs : List Char) :
    (ofText cs).rest = [] ∨
      ∃ rest, (ofText cs).rest = '$' :: rest ∧ Placeholder.read? rest = none := by
  fun_induction ofText cs with
  | case1 => exact Or.inl rfl
  | case2 cs p rest h ih =>
    rw [rest_cons]
    exact ih
  | case3 cs h => exact Or.inr ⟨cs, rfl, h⟩
  | case4 c cs hc ih =>
    rw [rest_consChar]
    exact ih

/-- A reference is read as the first piece behind its dollar sign. -/
theorem exists_pieces_ofText_of_refers {cs name behind : List Char}
    (h : Placeholder.Refers cs name behind) :
    ∃ piece, piece.name? = some (String.ofList name) ∧
      (ofText ('$' :: cs)).pieces = piece :: (ofText behind).pieces := by
  rcases (Placeholder.refers_iff _ _ _).mp h with ⟨p, rfl | rfl, hread⟩
  · rw [ofText_dollar hread]
    exact ⟨.bare name, rfl, rfl⟩
  · rw [ofText_dollar hread]
    exact ⟨.braced name, rfl, rfl⟩

end Scan

/-- The parts of a list that can be read back can be read back. -/
theorem Piece.legible_of_append {front back : List Piece} (h : Legible (front ++ back)) :
    Legible front ∧ Legible back := by
  induction front with
  | nil => exact ⟨trivial, h⟩
  | cons piece front ih =>
    cases piece with
    | literal text => exact ih h
    | bare name =>
      rcases h with ⟨hname, hend, hrest⟩
      rcases ih hrest with ⟨hfront, hback⟩
      -- What follows the name is at the front of a longer text.
      have hafter : ∀ c ∈ ((front ++ back).flatMap written).head?, Identifier.isPart c = false :=
        hend
      refine ⟨⟨hname, fun c hc => hafter c ?_, hfront⟩, hback⟩
      rw [List.flatMap_append, List.head?_append, Option.mem_def.mp hc]
      rfl
    | braced name => exact ⟨⟨h.1, (ih h.2).1⟩, (ih h.2).2⟩

/-- Where a piece with a name was read, the text refers to the name. -/
theorem Scan.exists_refers_of_pieces_eq {text : List Char} {front back : List Piece}
    {piece : Piece} {name : String} (h : (ofText text).pieces = front ++ piece :: back)
    (hname : piece.name? = some name) :
    ∃ rest chars behind, text = front.flatMap Piece.written ++ '$' :: rest ∧
      Placeholder.Refers rest chars behind ∧ String.ofList chars = name := by
  have hlegible := legible_ofText text
  have htext := written_append_rest text
  unfold written at htext
  rw [h] at hlegible htext
  rw [List.flatMap_append, List.flatMap_cons, List.append_assoc, List.append_assoc] at htext
  have hpiece := (Piece.legible_of_append hlegible).2
  cases piece with
  | literal text => cases hname
  | bare own =>
    refine ⟨_, own, _, htext.symm, ⟨hpiece.1, Or.inl ⟨rfl, fun c hc => ?_⟩⟩, Option.some.inj hname⟩
    -- What follows the name are pieces, or the sign at which reading has ended.
    rw [List.head?_append, Option.mem_def, Option.or_eq_some_iff] at hc
    rcases hc with hin | ⟨_, hin⟩
    · exact hpiece.2.1 c hin
    · rcases rest_ofText text with hnil | ⟨rest, hrest, _⟩
      · rw [hnil] at hin
        cases hin
      · rw [hrest] at hin
        exact Identifier.not_isPart_of_mem_head?_cons (by decide) hin
  | braced own =>
    rw [Piece.written, List.cons_append, List.cons_append, List.append_assoc,
      List.singleton_append] at htext
    exact ⟨_, own, _, htext.symm, ⟨hpiece.1, Or.inr rfl⟩, Option.some.inj hname⟩

namespace Template

/-- What is wrong at a dollar sign that stands between the two texts. -/
inductive Offends (values : Bindings) (front rest : List Char) : Fault → Prop where
  /-- The sign announces nothing. -/
  | stray (h : Placeholder.Stray rest) : Offends values front rest (.stray (Position.after front))
  /-- The sign announces a name without a value. -/
  | unbound {name behind : List Char} (h : Placeholder.Refers rest name behind)
    (hnone : values (String.ofList name) = none) :
    Offends values front rest (.unbound (String.ofList name))

variable {values : Bindings} {front rest : List Char} {fault : Fault}

/-- Nothing behind the placeholder is what is wrong. -/
theorem Offends.of_reach_eq {other : List Char} (h : Offends values front rest fault)
    (hreach : Placeholder.reach other = Placeholder.reach rest) :
    Offends values front other fault := by
  cases h with
  | stray hstray =>
    refine .stray ((Placeholder.read?_eq_none_iff other).mp ?_)
    cases hread : Placeholder.read? other with
    | none => rfl
    | some found =>
      rcases Placeholder.exists_read?_of_reach_eq hreach.symm hread with ⟨behind, hrest⟩
      rw [(Placeholder.read?_eq_none_iff rest).mpr hstray] at hrest
      exact absurd hrest nofun
  | unbound hrefers hnone =>
    rcases (Placeholder.refers_iff _ _ _).mp hrefers with ⟨p, hp, hread⟩
    rcases Placeholder.exists_read?_of_reach_eq hreach hread with ⟨behind, hother⟩
    exact .unbound ((Placeholder.refers_iff _ _ _).mpr ⟨p, hp, hother⟩) hnone

/-- What is wrong at a dollar sign is also wrong if the text ends at a later one. -/
theorem Offends.of_append {more : List Char}
    (h : Offends values front (rest ++ '$' :: more) fault) :
    Offends values front rest fault := by
  cases h with
  | stray hstray => exact .stray hstray.of_append
  | unbound hrefers hnone =>
    rcases hrefers.of_append (by decide) (by decide) (by decide) with ⟨middle, hshort, _⟩
    exact .unbound hshort hnone

/-- The pieces in front of the first one whose name has no value all have values. -/
theorem fill_eq_error_iff (values : Bindings) (pieces : List Piece) (name : String) :
    fill values pieces = .error name ↔
      ∃ front piece back, pieces = front ++ piece :: back ∧ Piece.Bound values front ∧
        piece.name? = some name ∧ values name = none := by
  constructor
  · intro h
    induction pieces with
    | nil => cases h
    | cons piece pieces ih =>
      unfold fill at h
      cases hvalue : piece.value? values with
      | none =>
        rcases (Piece.value?_eq_none_iff values piece).mp hvalue with ⟨missed, hname, hnone⟩
        simp only [hvalue, hname, Option.getD_some, Except.error.injEq] at h
        exact ⟨[], piece, pieces, rfl, fun _ hmem => absurd hmem List.not_mem_nil, h ▸ hname,
          h ▸ hnone⟩
      | some text =>
        simp only [hvalue] at h
        cases hfill : fill values pieces with
        | ok out =>
          rw [hfill] at h
          cases h
        | error missed =>
          rw [hfill] at h
          rcases ih (hfill.trans h) with ⟨front, other, back, rfl, hbound, hname, hnone⟩
          refine ⟨piece :: front, other, back, rfl, (Piece.bound_cons_iff values piece front).mpr
            ⟨fun known hknown => ?_, hbound⟩, hname, hnone⟩
          -- A piece that stands for something has no name, or one with a value.
          refine Option.ne_none_iff_isSome.mp fun hunbound => ?_
          rw [(Piece.value?_eq_none_iff values piece).mpr ⟨known, hknown, hunbound⟩] at hvalue
          cases hvalue
  · rintro ⟨front, piece, back, rfl, hbound, hname, hnone⟩
    have hfront := (fill_eq_ok_iff values front _).mpr ⟨hbound, rfl⟩
    have hvalue := (Piece.value?_eq_none_iff values piece).mpr ⟨name, hname, hnone⟩
    rw [fill_append, hfront, fill, hvalue, hname]
    rfl

theorem fill_consLiteral (values : Bindings) (text : List Char) (pieces : List Piece) :
    fill values (Piece.consLiteral text pieces) = (fill values pieces).map (text ++ ·) := by
  by_cases htext : text = []
  · simp only [Piece.consLiteral, htext, ↓reduceIte]
    cases fill values pieces <;> rfl
  · rcases Piece.consLiteral_of_ne_nil htext pieces with ⟨more, rest, rfl, hcons⟩ | ⟨_, hcons⟩
    · rw [hcons]
      simp only [fill, Piece.value?]
      cases fill values rest with
      | error name => rfl
      | ok out => simp only [Except.map, List.append_assoc]
    · rw [hcons]
      rfl

/-- Putting literal stretches together changes neither the text that pieces stand
    for nor the name that is missed. -/
theorem fill_merge (values : Bindings) (pieces : List Piece) :
    fill values (Piece.merge pieces) = fill values pieces := by
  induction pieces with
  | nil => rfl
  | cons piece pieces ih =>
    cases piece with
    | literal text =>
      rw [Piece.merge, fill_consLiteral, ih]
      rfl
    | bare name => rw [Piece.merge, fill, fill, ih]
    | braced name => rw [Piece.merge, fill, fill, ih]

/-- A text can be filled in if it is written from legible pieces that have values. -/
theorem exists_substitute_eq_ok_iff (text : String) (values : Bindings) :
    (∃ out, substitute text values = .ok out) ↔
      ∃ pieces, Piece.Legible pieces ∧ Piece.Bound values pieces ∧
        pieces.flatMap Piece.written = text.toList := by
  constructor
  · rintro ⟨out, hout⟩
    rcases (substitute_eq_ok_iff_scan text values out).mp hout with ⟨hrest, hfill⟩
    have htext := Scan.written_append_rest text.toList
    rw [hrest, List.append_nil] at htext
    exact ⟨_, Scan.legible_ofText _, ((fill_eq_ok_iff values _ _).mp hfill).1, htext⟩
  · rintro ⟨pieces, hlegible, hbound, hwritten⟩
    refine ⟨String.ofList (Piece.values values (Piece.merge pieces)), ?_⟩
    rw [substitute_eq_ok_iff_scan, ← hwritten, Scan.ofText_written hlegible, String.toList_ofList]
    exact ⟨rfl, (fill_eq_ok_iff values _ _).mpr
      ⟨(Piece.bound_merge_iff values pieces).mpr hbound, rfl⟩⟩

/-- What is written from legible pieces is filled in as they are. -/
theorem substitute_of_written {pieces : List Piece} {text : String} {filled : List Char}
    (hlegible : Piece.Legible pieces) (htext : text.toList = pieces.flatMap Piece.written)
    (hfill : fill values pieces = .ok filled) :
    substitute text values = .ok (String.ofList filled) := by
  rw [substitute_eq_ok_iff_scan, htext, Scan.ofText_written hlegible, fill_merge,
    String.toList_ofList]
  exact ⟨rfl, hfill⟩

/-- Where legible pieces that have values end at a dollar sign at which something is
    wrong, that is reported. -/
theorem substitute_of_offends {pieces : List Piece} {text : String}
    (hlegible : Piece.Legible pieces) (hbound : Piece.Bound values pieces)
    (htext : text.toList = pieces.flatMap Piece.written ++ '$' :: rest)
    (h : Offends values (pieces.flatMap Piece.written) rest fault) :
    substitute text values = .error fault := by
  have hdollar : ∀ c ∈ ('$' :: rest).head?, Identifier.isPart c = false :=
    fun _ => Identifier.not_isPart_of_mem_head?_cons (by decide)
  have hscan := Scan.ofText_append hlegible fun _ => hdollar
  rw [← htext] at hscan
  cases h with
  | stray hstray =>
    have hread := (Placeholder.read?_eq_none_iff rest).mpr hstray
    rw [Scan.ofText_stray hread, List.append_nil] at hscan
    have hfill := (fill_eq_ok_iff values _ _).mpr ⟨hbound, rfl⟩
    unfold substitute
    simp only [hscan, fill_merge, hfill, Scan.written, Piece.written_merge, List.isEmpty_cons,
      Bool.false_eq_true, ↓reduceIte]
  | @unbound name behind hrefers hnone =>
    -- Among the pieces that are read, the reference is the first without a value.
    rcases Scan.exists_pieces_ofText_of_refers hrefers with ⟨piece, hname, hpieces⟩
    have hfill := (fill_eq_error_iff values _ _).mpr
      ⟨pieces, piece, (Scan.ofText behind).pieces, rfl, hbound, hname, hnone⟩
    unfold substitute
    simp only [hscan, hpieces, fill_merge, hfill]

/-- The first dollar sign of a text at which something is wrong: what is in front of
    it can be filled in. -/
structure FirstFault (values : Bindings) (text front rest : List Char) (fault : Fault) : Prop where
  /-- The sign stands between the two parts of the text. -/
  split : text = front ++ '$' :: rest
  /-- The part in front of it can be filled in. -/
  fillable : ∃ out, substitute (String.ofList front) values = .ok out
  /-- The fault is at the sign. -/
  offends : Offends values front rest fault

/-- The fault at the first dollar sign at which something is wrong is reported. -/
theorem FirstFault.substitute_eq {text : String}
    (h : FirstFault values text.toList front rest fault) :
    substitute text values = .error fault := by
  rcases (exists_substitute_eq_ok_iff _ values).mp h.fillable with
    ⟨pieces, hlegible, hbound, hwritten⟩
  rw [String.toList_ofList] at hwritten
  exact substitute_of_offends hlegible hbound (hwritten ▸ h.split) (hwritten ▸ h.offends)

/-- In front of a dollar sign up to which a text can be filled in, nothing is wrong. -/
theorem FirstFault.front_prefix {text front' rest' : List Char}
    (h : FirstFault values text front' rest' fault) (htext : text = front ++ '$' :: rest)
    (hfill : ∃ out, substitute (String.ofList front) values = .ok out) : front <+: front' := by
  rcases List.append_eq_append_iff.mp (h.split.symm.trans htext) with
    ⟨middle, hfront, hrest⟩ | ⟨middle, hfront, _⟩
  · cases middle with
    | nil => exact ⟨[], by rw [hfront, List.append_nil, List.append_nil]⟩
    | cons c more =>
      -- The part in front of the later sign would have the fault of the first one.
      rw [List.cons_append, List.cons.injEq] at hrest
      have hearly : FirstFault values (String.ofList front).toList front' more fault :=
        ⟨by rw [String.toList_ofList, hfront, hrest.1], h.fillable,
          Offends.of_append (hrest.2 ▸ h.offends)⟩
      rcases hfill with ⟨out, hout⟩
      rw [hearly.substitute_eq] at hout
      exact absurd hout nofun
  · exact ⟨middle, hfront.symm⟩

/-- A later dollar sign is not the first one at which something is wrong. -/
theorem FirstFault.eq_nil {text front' rest' middle : List Char} {fault' : Fault}
    (h : FirstFault values text front rest fault)
    (h' : FirstFault values text front' rest' fault') (hfront : front' = front ++ middle) :
    middle = [] := by
  rcases hfront ▸ h.front_prefix h'.split h'.fillable with ⟨more, hmore⟩
  rw [List.append_assoc, List.append_right_eq_self] at hmore
  exact (List.append_eq_nil_iff.mp hmore).1

/-- Where all that was read has values, the sign at which reading has ended is the
    first one at fault. -/
theorem firstFault_of_fill_eq_ok {text filled : List Char}
    (hfill : fill values (Scan.ofText text).pieces = .ok filled)
    (hrest : (Scan.ofText text).rest = '$' :: rest) (hread : Placeholder.read? rest = none) :
    FirstFault values text (Scan.ofText text).written rest
      (.stray (Position.after (Scan.ofText text).written)) where
  split := by
    have htext := Scan.written_append_rest text
    rw [hrest] at htext
    exact htext.symm
  fillable := (exists_substitute_eq_ok_iff _ values).mpr ⟨_, Scan.legible_ofText text,
    ((fill_eq_ok_iff values _ _).mp hfill).1, String.toList_ofList.symm⟩
  offends := .stray ((Placeholder.read?_eq_none_iff rest).mp hread)

/-- The sign in front of the first name without a value is the first one at fault. -/
theorem exists_firstFault_of_fill_eq_error {text : List Char} {name : String}
    (hfill : fill values (Scan.ofText text).pieces = .error name) :
    ∃ front rest, FirstFault values text front rest (.unbound name) := by
  rcases (fill_eq_error_iff values _ _).mp hfill with
    ⟨front, piece, back, hpieces, hbound, hname, hnone⟩
  have hfront := (Piece.legible_of_append (hpieces ▸ Scan.legible_ofText text)).1
  have hfillable : ∃ out, substitute (String.ofList (front.flatMap Piece.written)) values =
      .ok out :=
    (exists_substitute_eq_ok_iff _ values).mpr ⟨front, hfront, hbound, String.toList_ofList.symm⟩
  rcases Scan.exists_refers_of_pieces_eq hpieces hname with
    ⟨rest, chars, behind, htext, hrefers, rfl⟩
  exact ⟨_, rest, htext, hfillable, .unbound hrefers hnone⟩

/-- A text that cannot be filled in has a first dollar sign at which something is
    wrong. -/
theorem exists_firstFault {text : String} (h : substitute text values = .error fault) :
    ∃ front rest, FirstFault values text.toList front rest fault := by
  simp only [substitute] at h
  cases hfill : fill values (Scan.ofText text.toList).pieces with
  | error name =>
    rw [hfill, Except.error.injEq] at h
    rw [← h]
    exact exists_firstFault_of_fill_eq_error hfill
  | ok filled =>
    -- Everything that was read has a value, so something was left.
    rw [hfill] at h
    rcases Scan.rest_ofText text.toList with hnil | ⟨rest, hrest, hread⟩
    · simp only [hnil, List.isEmpty_nil, ↓reduceIte, reduceCtorEq] at h
    · simp only [hrest, List.isEmpty_cons, Bool.false_eq_true, ↓reduceIte, Except.error.injEq] at h
      rw [← h]
      exact ⟨_, rest, firstFault_of_fill_eq_ok hfill hrest hread⟩

/-- A template cannot be filled in exactly if it has a dollar sign at which
    something is wrong, behind a part that can be filled in by itself. It has only
    one, and the fault there is the one that is reported. The sign is the character
    of the line and the column that stand in a fault, and nothing behind the reach of
    its placeholder changes what is reported. -/
theorem substitute_eq_error_iff (text : String) (values : Bindings) :
    (∀ fault, substitute text values = .error fault ↔
      ∃ front rest, FirstFault values text.toList front rest fault) ∧
    (∀ front rest fault front' rest' fault', FirstFault values text.toList front rest fault →
      FirstFault values text.toList front' rest' fault' →
      front = front' ∧ rest = rest' ∧ fault = fault') ∧
    (∀ front rest, text.toList = front ++ '$' :: rest → ∃ earlier more later,
      Position.lines front = earlier ++ [Position.lastLine front] ∧
      Position.lines text.toList = earlier ++ (Position.lastLine front ++ '$' :: more) :: later ∧
      Position.after front = ⟨earlier.length + 1, (Position.lastLine front).length + 1⟩ ∧
      earlier.length = front.count '\n') ∧
    ∀ front rest fault, FirstFault values text.toList front rest fault →
      ∀ other, Placeholder.reach other = Placeholder.reach rest →
        substitute (String.ofList (front ++ '$' :: other)) values = .error fault := by
  refine ⟨fun fault => ⟨exists_firstFault, fun h => ?_⟩, ?_, fun front rest htext => ?_, ?_⟩
  · rcases h with ⟨front, rest, hfirst⟩
    exact hfirst.substitute_eq
  · intro front rest fault front' rest' fault' h h'
    have hsame : front = front' := by
      rcases List.append_eq_append_iff.mp (h.split.symm.trans h'.split) with
        ⟨middle, hfront, _⟩ | ⟨middle, hfront, _⟩
      · rw [hfront, h.eq_nil h' hfront, List.append_nil]
      · rw [hfront, h'.eq_nil h hfront, List.append_nil]
    have hrest := h.split.symm.trans h'.split
    rw [hsame, List.append_cancel_left_eq] at hrest
    exact ⟨hsame, (List.cons.inj hrest).2,
      Except.error.inj (h.substitute_eq.symm.trans h'.substitute_eq)⟩
  · rcases Position.exists_lines_append_cons front rest (show '$' ≠ '\n' by decide) with
      ⟨earlier, more, later, hfront, hwhole, hafter⟩
    refine ⟨earlier, more, later, hfront, htext ▸ hwhole, hafter, ?_⟩
    have hlength := Position.length_lines front
    rw [hfront, List.length_append, List.length_singleton] at hlength
    exact Nat.add_right_cancel hlength
  · intro front rest fault h other hreach
    have hother :
        FirstFault values (String.ofList (front ++ '$' :: other)).toList front other fault :=
      ⟨String.toList_ofList, h.fillable, h.offends.of_reach_eq hreach⟩
    exact hother.substitute_eq

end Template

end TestWrappers
