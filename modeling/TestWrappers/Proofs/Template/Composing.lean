import Mathlib.Data.List.Forall2
import TestWrappers.Proofs.Template.Faults

/-!
# Templates Put Together

What a template is filled in with when it consists of two parts.

A text can be read in two parts wherever no placeholder stands across the
boundary. A placeholder that was read in front of the boundary could only go on behind
it if it is a bare name at the very end. So if the front part can be filled in, the
whole is filled in with what the two parts are filled in with, and what is wrong with
the back part is what is wrong with the whole: a missing name is the same one, and a
stray sign stands as many lines further down as the front part has line breaks, and
further to the right only if it stands in the first line of its part.

A line break is no part of any placeholder. Behind a text that cannot be filled in it
therefore mends nothing, and a text can be filled in line by line.

## Main definitions

* `Template.EndsInName`: The last thing that a text is written with is a bare name.

## Theorems

* `Template.substitute_append`: A text behind one that can be filled in.
* `Template.substitute_newline_eq_ok_iff`: Two texts with a line break between them.
* `Template.substitute_composes`: Filling in at boundaries, and line by line.
-/

namespace TestWrappers

namespace Placeholder

/-- What announces nothing announces nothing either if the text goes on in the next
    line. -/
theorem Stray.append_newline {cs : List Char} (h : Stray cs) (more : List Char) :
    Stray (cs ++ '\n' :: more) := by
  refine ⟨fun behind heq => ?_, fun name behind hname => ⟨fun heq => ?_, fun heq => ?_⟩⟩
  · have hcut : cs ++ '\n' :: more = ['$'] ++ behind := heq
    rcases exists_append_of_notMem hcut (by decide) with ⟨middle, hcs, _⟩
    exact h.1 middle hcs
  · rcases exists_append_of_notMem heq (hname.notMem (by decide)) with ⟨middle, hcs, _⟩
    exact (h.2 name middle hname).1 hcs
  · rw [braced_append] at heq
    have hnot := notMem_braced hname (show Identifier.isPart '\n' = false by decide) (by decide)
      (by decide)
    rcases exists_append_of_notMem heq hnot with ⟨middle, rfl, _⟩
    exact (h.2 name middle hname).2 (braced_append name middle).symm

/-- A reference is the same one if the text goes on in the next line. -/
theorem Refers.append_newline {cs name behind : List Char} (h : Refers cs name behind)
    (more : List Char) : Refers (cs ++ '\n' :: more) name (behind ++ '\n' :: more) := by
  rcases h with ⟨hname, ⟨rfl, hend⟩ | rfl⟩
  · refine ⟨hname, Or.inl ⟨List.append_assoc .., fun c hc => ?_⟩⟩
    rw [List.head?_append, Option.mem_def, Option.or_eq_some_iff] at hc
    rcases hc with hin | ⟨_, hin⟩
    · exact hend c hin
    · exact Identifier.not_isPart_of_mem_head?_cons (by decide) hin
  · refine ⟨hname, Or.inr ?_⟩
    rw [List.cons_append, List.append_assoc, List.cons_append]

end Placeholder

/-- A bare name at the end stays there when literal stretches are put together. -/
theorem Piece.merge_concat_bare (pieces : List Piece) (name : List Char) :
    merge (pieces ++ [bare name]) = merge pieces ++ [bare name] := by
  induction pieces with
  | nil => rfl
  | cons piece pieces ih =>
    cases piece with
    | literal text =>
      rw [List.cons_append, merge, merge, ih]
      unfold consLiteral
      cases merge pieces with
      | nil => split <;> rfl
      | cons next rest => cases next <;> split <;> rfl
    | bare other => rw [List.cons_append, merge, merge, ih, List.cons_append]
    | braced other => rw [List.cons_append, merge, merge, ih, List.cons_append]

namespace Template

variable {values : Bindings} {front rest : List Char} {fault : Fault}

/-- The last thing that the text is written with is a bare name. -/
def EndsInName (text : List Char) : Prop :=
  ∃ front name, Piece.Legible (front ++ [.bare name]) ∧
    (front ++ [Piece.bare name]).flatMap Piece.written = text

/-- Legible pieces whose last name could be made longer are a text that ends in a
    name. -/
theorem endsInName_of_endsBare {pieces : List Piece} (h : Piece.Legible pieces)
    (hend : Piece.EndsBare pieces) : EndsInName (pieces.flatMap Piece.written) := by
  rcases hend with ⟨front, name, back, rfl, hback⟩
  rw [← List.singleton_append, ← List.append_assoc] at h
  refine ⟨front, name, (Piece.legible_of_append h).1, ?_⟩
  simp only [List.flatMap_append, List.flatMap_cons, hback, List.flatMap_nil]

/-- A text ends in a name exactly if the last piece that is read of it is one, and
    nothing is left. -/
theorem endsInName_iff (text : List Char) :
    EndsInName text ↔ (Scan.ofText text).rest = [] ∧
      ∃ name, (Scan.ofText text).pieces.getLast? = some (.bare name) := by
  constructor
  · rintro ⟨front, name, hlegible, rfl⟩
    rw [Scan.ofText_written hlegible, Piece.merge_concat_bare]
    exact ⟨rfl, name, List.getLast?_concat⟩
  · rintro ⟨hrest, name, hlast⟩
    rcases List.getLast?_eq_some_iff.mp hlast with ⟨front, hpieces⟩
    have hlegible := Scan.legible_ofText text
    have hwritten := Scan.written_append_rest text
    rw [Scan.written, hrest, List.append_nil, hpieces] at hwritten
    exact ⟨front, name, hpieces ▸ hlegible, hwritten⟩

/-- A text that ends in a name has a dollar sign. -/
theorem EndsInName.dollar_mem {text : List Char} (h : EndsInName text) : '$' ∈ text := by
  rcases h with ⟨front, name, _, rfl⟩
  rw [List.flatMap_append, List.flatMap_singleton]
  exact List.mem_append_right _ List.mem_cons_self

/-- A fault of a text, seen from the beginning of a longer text that ends in it. -/
def Fault.behind (front : List Char) : Fault → Fault
  | .unbound name => .unbound name
  | .stray position =>
    .stray ⟨position.line + front.count '\n',
      if position.line = 1 then position.column + (Position.lastLine front).length
      else position.column⟩

/-- Behind a text that can be filled in, and whose end no placeholder stands across,
    another text is filled in as it is by itself, and its fault is reported as the fault
    of the whole. -/
theorem substitute_append {front back out : String} (hfront : substitute front values = .ok out)
    (hend : EndsInName front.toList → ∀ c ∈ back.toList.head?, Identifier.isPart c = false) :
    substitute (front ++ back) values =
      match substitute back values with
      | .ok more => .ok (out ++ more)
      | .error fault => .error (fault.behind front.toList) := by
  rcases (substitute_eq_ok_iff_scan front values out).mp hfront with ⟨hrest, hfill⟩
  have hwritten : (Scan.ofText front.toList).pieces.flatMap Piece.written = front.toList := by
    have hall := Scan.written_append_rest front.toList
    rwa [hrest, List.append_nil] at hall
  have hlegible := Scan.legible_ofText front.toList
  have hboundary : Piece.EndsBare (Scan.ofText front.toList).pieces →
      ∀ c ∈ back.toList.head?, Identifier.isPart c = false :=
    fun hbare => hend (hwritten ▸ endsInName_of_endsBare hlegible hbare)
  have hscan := Scan.ofText_append hlegible hboundary
  rw [hwritten] at hscan
  simp only [substitute, String.toList_append, hscan, fill_merge, fill_append, hfill, Except.bind]
  cases fill values (Scan.ofText back.toList).pieces with
  | error name => rfl
  | ok filled =>
    simp only [Except.map]
    by_cases hback : (Scan.ofText back.toList).rest = []
    · simp only [hback, List.isEmpty_nil, ↓reduceIte, String.ofList_append, String.ofList_toList]
    · have hplace : Position.after (Scan.written ⟨Piece.merge ((Scan.ofText front.toList).pieces ++
          (Scan.ofText back.toList).pieces), (Scan.ofText back.toList).rest⟩) =
          Position.after (front.toList ++ (Scan.ofText back.toList).written) := by
        rw [Scan.written, Piece.written_merge, List.flatMap_append, hwritten, Scan.written]
      simp only [List.isEmpty_iff, hback, ↓reduceIte, hplace, Position.after_append, Fault.behind]

/-- What is wrong at a dollar sign is also wrong if the text goes on in the next
    line. -/
theorem Offends.append_newline (h : Offends values front rest fault) (more : List Char) :
    Offends values front (rest ++ '\n' :: more) fault := by
  cases h with
  | stray hstray => exact .stray (hstray.append_newline more)
  | unbound hrefers hnone => exact .unbound (hrefers.append_newline more) hnone

/-- A line break behind a text does not change what is wrong with it. -/
theorem substitute_newline_eq_error {text : String} (h : substitute text values = .error fault)
    (more : String) : substitute (text ++ ("\n" ++ more)) values = .error fault := by
  rcases exists_firstFault h with ⟨front, rest, hfirst⟩
  have hlong : FirstFault values (text ++ ("\n" ++ more)).toList front
      (rest ++ '\n' :: more.toList) fault := by
    refine ⟨?_, hfirst.fillable, hfirst.offends.append_newline _⟩
    rw [String.toList_append, hfirst.split, List.append_assoc, List.cons_append,
      String.toList_append]
    rfl
  exact hlong.substitute_eq

theorem substitute_newline (values : Bindings) : substitute "\n" values = .ok "\n" :=
  @substitute_of_written values [.literal ['\n']] "\n" ['\n'] trivial rfl rfl

/-- Two texts with a line break between them can be filled in together exactly if each
    of them can be filled in by itself. -/
theorem substitute_newline_eq_ok_iff (text more out : String) (values : Bindings) :
    substitute (text ++ "\n" ++ more) values = .ok out ↔
      ∃ first second, substitute text values = .ok first ∧ substitute more values = .ok second ∧
        out = first ++ "\n" ++ second := by
  have hbreak := @substitute_append values "\n" more "\n" (substitute_newline values) fun hend =>
    absurd hend.dollar_mem (by decide)
  rw [String.append_assoc]
  cases htext : substitute text values with
  | error fault =>
    simp only [substitute_newline_eq_error htext more, reduceCtorEq, false_and, exists_false]
  | ok first =>
    rw [substitute_append htext fun _ c hc => ?_, hbreak]
    · cases substitute more values with
      | error fault => simp only [reduceCtorEq, false_and, and_false, exists_false]
      | ok second =>
        simp only [Except.ok.injEq, ← String.append_assoc, exists_and_left, exists_eq_left']
        exact eq_comm
    · rw [String.toList_append] at hc
      exact Identifier.not_isPart_of_mem_head?_cons (by decide) hc

/-- Texts with line breaks between them can be filled in together exactly if each of
    them can be filled in by itself. -/
theorem substitute_intercalate_eq_ok_iff {lines : List (List Char)} (h : lines ≠ [])
    (values : Bindings) (out : String) :
    substitute (String.ofList (['\n'].intercalate lines)) values = .ok out ↔
      ∃ outs, List.Forall₂ (fun line filled => substitute (String.ofList line) values = .ok filled)
        lines outs ∧ out = "\n".intercalate outs := by
  induction lines generalizing out with
  | nil => exact absurd rfl h
  | cons line lines ih =>
    simp only [List.forall₂_cons_left_iff]
    cases lines with
    | nil =>
      rw [List.intercalate_singleton]
      constructor
      · intro hline
        exact ⟨[out], ⟨out, [], hline, .nil, rfl⟩, String.intercalate_singleton.symm⟩
      · rintro ⟨_, ⟨filled, _, hline, ⟨⟩, rfl⟩, rfl⟩
        exact hline
    | cons next lines =>
      have hwhole : String.ofList (['\n'].intercalate (line :: next :: lines)) =
          String.ofList line ++ "\n" ++ String.ofList (['\n'].intercalate (next :: lines)) := by
        rw [List.intercalate_cons_cons, String.ofList_append, String.ofList_append]
      have hjoin : ∀ filled outs, List.Forall₂ (fun line filled =>
          substitute (String.ofList line) values = .ok filled) (next :: lines) outs →
          "\n".intercalate (filled :: outs) = filled ++ "\n" ++ "\n".intercalate outs := by
        rintro filled outs ⟨⟩
        exact String.intercalate_cons_cons
      rw [hwhole, substitute_newline_eq_ok_iff]
      constructor
      · rintro ⟨first, second, hfirst, hsecond, rfl⟩
        rcases (ih (List.cons_ne_nil _ _) second).mp hsecond with ⟨outs, houts, rfl⟩
        exact ⟨first :: outs, ⟨first, outs, hfirst, houts, rfl⟩, (hjoin first outs houts).symm⟩
      · rintro ⟨_, ⟨first, outs, hfirst, houts, rfl⟩, rfl⟩
        exact ⟨first, _, hfirst, (ih (List.cons_ne_nil _ _) _).mpr ⟨outs, houts, rfl⟩,
          hjoin first outs houts⟩

/-- Filling in goes part by part.

    Behind a text that can be filled in, another one is filled in as it is by itself, if
    the first does not end in a name or the other does not go on with a character of a
    name. A missing name is the same one. A stray sign is found as many lines further
    down as the first text has line breaks, and in its first line as much further to the
    right as the first text is long behind the last of them.

    So a text can be filled in exactly if each of its lines can, and the results are its
    lines then. -/
theorem substitute_composes (values : Bindings) :
    (∀ front back out, substitute front values = .ok out →
      (¬ EndsInName front.toList ∨ ∀ c ∈ back.toList.head?, Identifier.isPart c = false) →
      (∀ more, substitute back values = .ok more →
        substitute (front ++ back) values = .ok (out ++ more)) ∧
      (∀ name, substitute back values = .error (.unbound name) →
        substitute (front ++ back) values = .error (.unbound name)) ∧
      ∀ line column, substitute back values = .error (.stray ⟨line, column⟩) →
        substitute (front ++ back) values = .error (.stray ⟨line + front.toList.count '\n',
          if line = 1 then column + (Position.lastLine front.toList).length else column⟩)) ∧
    ∀ text out, substitute text values = .ok out ↔
      ∃ outs, List.Forall₂ (fun line filled => substitute (String.ofList line) values = .ok filled)
        (Position.lines text.toList) outs ∧ out = "\n".intercalate outs := by
  refine ⟨fun front back out hfront hboundary => ?_, fun text out => ?_⟩
  · have happend := substitute_append hfront fun hend =>
      hboundary.resolve_left (not_not_intro hend)
    refine ⟨fun more hback => ?_, fun name hback => ?_, fun line column hback => ?_⟩
    · simp only [happend, hback]
    · simp only [happend, hback, Fault.behind]
    · simp only [happend, hback, Fault.behind]
  · have hlines := substitute_intercalate_eq_ok_iff (List.splitOn_ne_nil '\n' text.toList) values
      out
    rw [List.intercalate_splitOn, String.ofList_toList] at hlines
    exact hlines

/-- A stray sign in the first line of the second text, behind a name that ends at it; a
    text that goes on behind a name in braces; and three lines, the second of which is
    empty. -/
theorem substitute_composes_sample :
    (substitute "é\n$x" fun _ => some "$") = .ok "é\n$" ∧
    (∀ c ∈ "-$ ".toList.head?, Identifier.isPart c = false) ∧
    (substitute "-$ " fun _ => some "$") = .error (.stray ⟨1, 2⟩) ∧
    (substitute ("é\n$x" ++ "-$ ") fun _ => some "$") = .error (.stray ⟨2, 4⟩) ∧
    (substitute "$\x7bx\x7d" fun _ => some "$") = .ok "$" ∧ ¬ EndsInName "$\x7bx\x7d".toList ∧
    (substitute "y$$" fun _ => some "$") = .ok "y$" ∧
    (substitute ("$\x7bx\x7d" ++ "y$$") fun _ => some "$") = .ok "$y$" ∧
    (substitute "$x\n\ny" fun _ => some "$") = .ok "$\n\ny" := by
  rcases substitute_composes fun _ => some "$" with ⟨happend, hlines⟩
  have hname : (substitute "é\n$x" fun _ => some "$") = .ok "é\n$" :=
    @substitute_of_written _ [.literal ['é', '\n'], .bare ['x']] _ ['é', '\n', '$']
      ⟨⟨rfl, nofun⟩, nofun, trivial⟩ rfl rfl
  have hstray : (substitute "-$ " fun _ => some "$") = .error (.stray ⟨1, 2⟩) :=
    @substitute_of_offends _ [' '] _ [.literal ['-']] "-$ " trivial
      ((fill_eq_ok_iff _ _ ['-']).mp rfl).1 rfl (.stray ((Placeholder.read?_eq_none_iff _).mp rfl))
  have hend : ∀ c ∈ "-$ ".toList.head?, Identifier.isPart c = false := by
    have hchars : "-$ ".toList = '-' :: ['$', ' '] := rfl
    rw [hchars]
    exact fun _ => Identifier.not_isPart_of_mem_head?_cons (by decide)
  have hbraced : (substitute "$\x7bx\x7d" fun _ => some "$") = .ok "$" :=
    @substitute_of_written _ [.braced ['x']] _ ['$'] ⟨⟨rfl, nofun⟩, trivial⟩ rfl rfl
  have hmore : (substitute "y$$" fun _ => some "$") = .ok "y$" :=
    @substitute_of_written _ [.literal ['y', '$']] _ ['y', '$'] trivial rfl rfl
  have hclosed : ¬ EndsInName "$\x7bx\x7d".toList := by
    have hscan : Scan.ofText "$\x7bx\x7d".toList = ⟨[.braced ['x']], []⟩ :=
      @Scan.ofText_written [.braced ['x']] ⟨⟨rfl, nofun⟩, trivial⟩
    rw [endsInName_iff, hscan]
    rintro ⟨_, name, hlast⟩
    cases hlast
  have hfirst : (substitute "$x" fun _ => some "$") = .ok "$" :=
    @substitute_of_written _ [.bare ['x']] _ ['$'] ⟨⟨rfl, nofun⟩, nofun, trivial⟩ rfl rfl
  have hempty : (substitute "" fun _ => some "$") = .ok "" :=
    @substitute_of_written _ [] _ [] trivial rfl rfl
  have hlast : (substitute "y" fun _ => some "$") = .ok "y" :=
    @substitute_of_written _ [.literal ['y']] _ ['y'] trivial rfl rfl
  exact ⟨hname, hend, hstray, (happend _ _ _ hname (Or.inr hend)).2.2 1 2 hstray, hbraced, hclosed,
    hmore, (happend _ _ _ hbraced (Or.inl hclosed)).1 _ hmore, (hlines _ _).mpr
      ⟨["$", "", "y"], .cons hfirst (.cons hempty (.cons hlast .nil)), rfl⟩⟩

end Template

end TestWrappers
