import TestWrappers.Proofs.Template.Announcing
import TestWrappers.Proofs.Template.Cutting

/-!
# Filling in Without Slips

Filling in by offsets makes no slip, and comes to what the pieces of the text come to.

What carries the proof is that what is left of the text is its end. An offset in what is
left is then an offset in the text, once the size of what has been read is added. A turn
that goes on reads at least a dollar sign and one character more, so what is left stays the
end of the text and gets shorter by two bytes or more.

What the result will be is said at each turn by `finish`, from what has been read, what it
came to and what is left. A turn that is not the last one does not change it, and the last
one gives it.

That a turn makes no slip says something of the offsets that it cuts at. `SignInRange` and
`StrayInRange` list all that are computed at one dollar sign, and `InRange` those of what
turns lead to.

## Main definitions

* `Cursor.finish`: What is to be done from some state on.
* `Cursor.FirstSign`: A dollar sign and the text around it.
* `Cursor.Ends`: What a turn can come to.
* `Cursor.Reached`: The states that turns lead to.
* `Cursor.StrayInRange`: The offsets at a dollar sign that announces nothing.
* `Cursor.SignInRange`: The offsets at a dollar sign.
* `Cursor.InRange`: The offsets in a turn.

## Theorems

* `Cursor.turn_stray`, `Cursor.turn_unbound`, `Cursor.turn_filled`: What a turn comes to.
* `Cursor.exists_turn`: A turn makes no slip.
* `Cursor.Ends.exists_append`: A turn reads on, and the result stays the same.
* `Cursor.Reached.exists_append`: What is left is the end of the text.
* `Cursor.run_eq`: All turns come to what the pieces come to.
* `Cursor.run_in_range`: All offsets are in range in every turn.
-/

namespace TestWrappers

namespace Template

namespace Cursor

variable {text : String} {values : Bindings} {cs name more : List Char}

/-- What filling in comes to where a text has been read, another one stands for it, and the
    rest is still to be done. -/
def finish (values : Bindings) (read : List Char) (out : String) (rest : List Char) :
    Except Fault String :=
  match fill values (Scan.ofText rest).pieces with
  | .error name => .error (.unbound name)
  | .ok filled =>
    if (Scan.ofText rest).rest.isEmpty then
      .ok (out ++ String.ofList filled)
    else
      .error (.stray (Position.after (read ++ (Scan.ofText rest).written)))

theorem finish_start (text : String) (values : Bindings) :
    finish values [] "" text.toList = substitute text values := by
  unfold finish substitute
  dsimp only
  cases fill values (Scan.ofText text.toList).pieces with
  | error name => rfl
  | ok filled =>
    dsimp only
    rw [String.empty_append, List.nil_append]

/-- Text without dollar signs is copied. -/
theorem finish_append {before : List Char} (h : '$' ∉ before) (values : Bindings)
    (read : List Char) (out : String) (rest : List Char) :
    finish values read out (before ++ rest) =
      finish values (read ++ before) (out ++ String.ofList before) rest := by
  have hscan := Scan.ofText_literal before rest
  have hwritten : before.flatMap Piece.writtenChar = before := Cut.written_of_dollar_notMem h
  rw [hwritten] at hscan
  unfold finish
  rw [hscan, fill_consLiteral]
  cases fill values (Scan.ofText rest).pieces with
  | error name => rfl
  | ok filled =>
    simp only [Except.map, Scan.written, Piece.written_consLiteral, hwritten,
      String.ofList_append, String.append_assoc, List.append_assoc]

theorem finish_nil (values : Bindings) (read : List Char) (out : String) :
    finish values read out [] = .ok out := by
  have hscan : Scan.ofText [] = ⟨[], []⟩ := by rw [Scan.ofText]
  unfold finish
  rw [hscan]
  exact congrArg Except.ok String.append_empty

theorem finish_stray (h : Placeholder.read? cs = none) (values : Bindings) (read : List Char)
    (out : String) :
    finish values read out ('$' :: cs) = .error (.stray (Position.after read)) := by
  unfold finish
  rw [Scan.ofText_stray h]
  exact congrArg (fun front => Except.error (Fault.stray (Position.after front)))
    (List.append_nil read)

theorem fill_reference (values : Bindings) {piece : Piece}
    (h : piece = .bare name ∨ piece = .braced name) (pieces : List Piece) :
    fill values (piece :: pieces) =
      match values (String.ofList name) with
      | some value => (fill values pieces).map (value.toList ++ ·)
      | none => .error (String.ofList name) := by
  have hvalue : piece.value? values = (values (String.ofList name)).map String.toList := by
    rcases h with rfl | rfl <;> rfl
  have hname : piece.name? = some (String.ofList name) := by
    rcases h with rfl | rfl <;> rfl
  rw [fill, hvalue, hname]
  cases values (String.ofList name) <;> rfl

/-- Behind its first placeholder a text is filled in as it would be alone. -/
theorem fill_cons (values : Bindings) (p : Placeholder) (scan : Scan) :
    fill values (scan.cons p).pieces =
      match placeholderValue values p with
      | .error name => .error name
      | .ok value => (fill values scan.pieces).map (value.toList ++ ·) := by
  unfold Scan.cons placeholderValue
  cases p with
  | dollar =>
    dsimp only
    rw [Scan.consChar_eq, fill_consLiteral]
    rfl
  | bare name =>
    dsimp only
    rw [fill_reference values (Or.inl rfl)]
    cases values (String.ofList name) <;> rfl
  | braced name =>
    dsimp only
    rw [fill_reference values (Or.inr rfl)]
    cases values (String.ofList name) <;> rfl

theorem finish_placeholder {p : Placeholder} (h : Placeholder.read? cs = some (p, more))
    (values : Bindings) (read : List Char) (out : String) :
    finish values read out ('$' :: cs) =
      match placeholderValue values p with
      | .error name => .error (.unbound name)
      | .ok value => finish values (read ++ '$' :: p.written) (out ++ value) more := by
  unfold finish
  rw [Scan.ofText_dollar h, fill_cons, Scan.rest_cons, Scan.written_cons]
  cases placeholderValue values p with
  | error name => rfl
  | ok value =>
    cases fill values (Scan.ofText more).pieces with
    | error name => rfl
    | ok filled =>
      simp only [Except.map, String.ofList_append, String.ofList_toList, String.append_assoc,
        List.append_assoc]

theorem toList_append_sign (before after : String) :
    (before ++ (String.singleton '$' ++ after)).toList =
      before.toList ++ '$' :: after.toList := by
  rw [String.toList_append, String.toList_append, String.toList_singleton, List.singleton_append]

theorem size_append_sign (before after : String) :
    (before ++ (String.singleton '$' ++ after)).utf8ByteSize =
      before.utf8ByteSize + 1 + after.utf8ByteSize := by
  have hsign : (String.singleton '$').utf8ByteSize = 1 := rfl
  rw [String.utf8ByteSize_append, String.utf8ByteSize_append, hsign, Nat.add_assoc]

/-- The first dollar sign of a text, by what is in front of it and behind it. -/
structure FirstSign (rest before after : String) : Prop where
  /-- The text is put together from the two, with the sign between them. -/
  whole : rest = before ++ (String.singleton '$' ++ after)
  /-- There is none in front of it. -/
  first : '$' ∉ before.toList

/-- All that a turn can come to where some of the text has been read. -/
inductive Ends (read : String) (values : Bindings) (cursor : Cursor) : Turn → Prop where
  /-- There is no dollar sign left. -/
  | copied (hnot : '$' ∉ cursor.rest.toList) :
    Ends read values cursor (.done (.ok (cursor.out ++ cursor.rest)))
  /-- The next dollar sign announces nothing. -/
  | stray {before after : String} (hsign : FirstSign cursor.rest before after)
    (hread : Placeholder.read? after.toList = none) :
    Ends read values cursor (.done (.error (.stray (Position.after (read ++ before).toList))))
  /-- The next dollar sign announces a name without a value. -/
  | unbound {before after name : String} {p : Placeholder} {more : List Char}
    (hsign : FirstSign cursor.rest before after)
    (hread : Placeholder.read? after.toList = some (p, more))
    (hvalue : placeholderValue values p = .error name) :
    Ends read values cursor (.done (.error (.unbound name)))
  /-- The next dollar sign announces something that stands for a text. -/
  | filled {before after value : String} {p : Placeholder} {more : List Char}
    (hsign : FirstSign cursor.rest before after)
    (hread : Placeholder.read? after.toList = some (p, more))
    (hvalue : placeholderValue values p = .ok value) :
    Ends read values cursor (.again ⟨String.ofList more, cursor.out ++ before ++ value⟩)

section

variable {read before after : String} {cursor : Cursor} {p : Placeholder}

/-- The text is cut in front of its first dollar sign and behind it. -/
theorem FirstSign.cut {rest : String} (h : FirstSign rest before after) :
    Offset.find? '$' rest = some before.utf8ByteSize ∧
      Offset.front rest before.utf8ByteSize = .ok before ∧
      Offset.back rest (before.utf8ByteSize + 1) = .ok after := by
  rw [h.whole]
  exact ⟨Offset.find?_append h.first after, Offset.front_append _ _,
    (Offset.back_append_singleton rfl before after).2⟩

theorem turn_stray (values : Bindings) (htext : text = read ++ cursor.rest)
    (hsign : FirstSign cursor.rest before after)
    (hread : Placeholder.read? after.toList = none) :
    turn text values cursor =
      .ok (.done (.error (.stray (Position.after (read ++ before).toList)))) := by
  rcases hsign.cut with ⟨hfind, hfront, hback⟩
  -- What has been read and what is in front of the sign are in front of the offset.
  have hless : Offset.less text.utf8ByteSize cursor.rest.utf8ByteSize =
      .ok read.utf8ByteSize := by
    rw [htext, String.utf8ByteSize_append, Offset.less_of_le (Nat.le_add_left _ _),
      Nat.add_sub_cancel]
  have hposition := position_append (read ++ before) (String.singleton '$' ++ after)
  rw [String.append_assoc, ← hsign.whole, ← htext, String.utf8ByteSize_append] at hposition
  unfold turn
  simp only [bind, Except.bind, pure, Except.pure, hfind, hfront, hback, announced_eq, hread,
    Option.map_none, hless, hposition]

theorem turn_unbound (text : String) (hsign : FirstSign cursor.rest before after)
    (hread : Placeholder.read? after.toList = some (p, more)) {name : String}
    (hvalue : placeholderValue values p = .error name) :
    turn text values cursor = .ok (.done (.error (.unbound name))) := by
  rcases hsign.cut with ⟨hfind, hfront, hback⟩
  unfold turn
  simp only [bind, Except.bind, pure, Except.pure, hfind, hfront, hback, announced_eq, hread,
    Option.map_some, measured, hvalue]

theorem turn_filled (text : String) (hsign : FirstSign cursor.rest before after)
    (hread : Placeholder.read? after.toList = some (p, more)) {value : String}
    (hvalue : placeholderValue values p = .ok value) :
    turn text values cursor =
      .ok (.again ⟨String.ofList more, cursor.out ++ before ++ value⟩) := by
  rcases hsign.cut with ⟨hfind, hfront, hback⟩
  have hnext := Offset.back_append (String.ofList p.written) (String.ofList more)
  rw [← Placeholder.eq_append_of_read? hread] at hnext
  unfold turn
  simp only [bind, Except.bind, pure, Except.pure, hfind, hfront, hback, announced_eq, hread,
    Option.map_some, measured, hvalue, hnext]

end

/-- A turn makes no slip. -/
theorem exists_turn {read : String} {cursor : Cursor} (values : Bindings)
    (htext : text = read ++ cursor.rest) :
    ∃ ending, turn text values cursor = .ok ending ∧ Ends read values cursor ending := by
  by_cases hmem : '$' ∈ cursor.rest.toList
  · rcases Offset.exists_append_of_mem hmem with ⟨before, after, hrest, hnot⟩
    have hsign : FirstSign cursor.rest before after := ⟨hrest, hnot⟩
    cases hread : Placeholder.read? after.toList with
    | none => exact ⟨_, turn_stray values htext hsign hread, .stray hsign hread⟩
    | some found =>
      rcases found with ⟨p, more⟩
      cases hvalue : placeholderValue values p with
      | error name =>
        exact ⟨_, turn_unbound text hsign hread hvalue, .unbound hsign hread hvalue⟩
      | ok value => exact ⟨_, turn_filled text hsign hread hvalue, .filled hsign hread hvalue⟩
  · rw [turn, Offset.find?_of_notMem hmem]
    exact ⟨_, rfl, .copied hmem⟩

theorem ends_of_turn {read : String} {cursor : Cursor} {ending : Turn}
    (htext : text = read ++ cursor.rest) (h : turn text values cursor = .ok ending) :
    Ends read values cursor ending := by
  rcases exists_turn values htext with ⟨other, hother, hends⟩
  rw [h, Except.ok.injEq] at hother
  rw [hother]
  exact hends

/-- A last turn comes to what was to be done. -/
theorem Ends.finish_eq {read : String} {cursor : Cursor} {result : Except Fault String}
    (h : Ends read values cursor (.done result)) :
    finish values read.toList cursor.out cursor.rest.toList = result := by
  cases h with
  | copied hnot =>
    have hfinish := finish_append hnot values read.toList cursor.out []
    rwa [List.append_nil, finish_nil, String.ofList_toList] at hfinish
  | stray hsign hread =>
    rw [hsign.whole, toList_append_sign, finish_append hsign.first, finish_stray hread,
      String.toList_append]
  | unbound hsign hread hvalue =>
    rw [hsign.whole, toList_append_sign, finish_append hsign.first, finish_placeholder hread,
      hvalue]

/-- A turn that is not the last one reads at least two bytes, a dollar sign and a character
    behind it, and what is to be done from there comes to what was to be done. -/
theorem Ends.exists_append {read : String} {cursor next : Cursor}
    (h : Ends read values cursor (.again next)) :
    ∃ more, cursor.rest = more ++ next.rest ∧ 2 ≤ more.utf8ByteSize ∧
      finish values (read ++ more).toList next.out next.rest.toList =
        finish values read.toList cursor.out cursor.rest.toList := by
  cases h with
  | @filled before after value p more hsign hread hvalue =>
    refine ⟨before ++ (String.singleton '$' ++ String.ofList p.written), ?_, ?_, ?_⟩
    · rw [hsign.whole, String.append_assoc, String.append_assoc,
        ← Placeholder.eq_append_of_read? hread]
    · -- The sign is one byte, and so is what it announces, or that is more.
      have hpos := Offset.size_ofList_pos (Placeholder.written_ne_nil hread)
      rw [size_append_sign]
      omega
    · rw [hsign.whole, toList_append_sign, finish_append hsign.first, finish_placeholder hread,
        hvalue, String.toList_append, toList_append_sign, String.toList_ofList,
        String.toList_ofList, String.ofList_toList, List.append_assoc]

/-- The states that turns lead to, with the number of turns taken. -/
inductive Reached (text : String) (values : Bindings) : Nat → Cursor → Prop where
  /-- Before the first turn all of the text is left. -/
  | start : Reached text values 0 ⟨text, ""⟩
  /-- A turn that is not the last one leads to the next state. -/
  | again {turns : Nat} {cursor next : Cursor} (h : Reached text values turns cursor)
    (hturn : turn text values cursor = .ok (.again next)) : Reached text values (turns + 1) next

/-- What is left before a turn is the end of the text, and each turn has read at least two
    bytes. -/
theorem Reached.exists_append {turns : Nat} {cursor : Cursor}
    (h : Reached text values turns cursor) :
    ∃ read, text = read ++ cursor.rest ∧
      cursor.rest.utf8ByteSize + 2 * turns ≤ text.utf8ByteSize := by
  induction h with
  | start => exact ⟨"", String.empty_append.symm, Nat.le_refl _⟩
  | @again turns cursor next _ hturn ih =>
    rcases ih with ⟨read, htext, hsize⟩
    rcases (ends_of_turn htext hturn).exists_append with ⟨more, hrest, hmore, _⟩
    refine ⟨read ++ more, ?_, ?_⟩
    · rw [String.append_assoc, ← hrest, htext]
    · rw [hrest, String.utf8ByteSize_append] at hsize
      omega

/-- From any state on, the turns make no slip and come to what is to be done there. -/
theorem resume_eq (values : Bindings) (cursor : Cursor) {read : String}
    (htext : text = read ++ cursor.rest) :
    resume text values cursor =
      .ok (finish values read.toList cursor.out cursor.rest.toList) := by
  fun_induction resume text values cursor generalizing read with
  | case1 cursor slip h =>
    rcases exists_turn values htext with ⟨ending, hturn, _⟩
    rw [h] at hturn
    cases hturn
  | case2 cursor result h => rw [(ends_of_turn htext h).finish_eq]
  | case3 cursor next h ih =>
    -- What is to be done is carried through the turn.
    rcases (ends_of_turn htext h).exists_append with ⟨more, hrest, _, hfinish⟩
    have hnext : text = read ++ more ++ next.rest := by
      rw [String.append_assoc, ← hrest, htext]
    rw [ih hnext, hfinish]

/-- Filling in by offsets makes no slip, and it comes to what filling in the pieces of the
    text comes to. -/
theorem run_eq (text : String) (values : Bindings) :
    run text values = .ok (substitute text values) := by
  have hresume := resume_eq values ⟨text, ""⟩ (String.empty_append (s := text)).symm
  exact hresume.trans (congrArg Except.ok (finish_start text values))

/-- What is computed with the offset of a dollar sign in a text to find its position. -/
structure StrayInRange (text : String) (offset : Nat) (after : String) : Prop where
  /-- The text can be cut in front of the sign. -/
  boundary : Offset.IsBoundary text offset
  /-- At the offset stands the byte of a dollar sign. -/
  sign : (Utf8.encode text)[offset]? = some 0x24
  /-- That is the sign in question, and the part in front of it can be cut where its last
      line begins. -/
  line : ∃ before, text = before ++ (String.singleton '$' ++ after) ∧
    Offset.front text offset = .ok before ∧ Offset.IsBoundary before (lineStart before)
  /-- No number in the position is larger than the text. -/
  place : ∃ place, position text offset = .ok place ∧
    place.line ≤ text.utf8ByteSize ∧ place.column ≤ text.utf8ByteSize

/-- What is computed with offsets where a dollar sign stands in what is left of a text. -/
structure SignInRange (text rest : String) (offset : Nat) (after : String) : Prop where
  /-- What is left can be cut in front of the sign. -/
  sign : Offset.IsBoundary rest offset
  /-- It can be cut behind the sign. -/
  behind : Offset.IsBoundary rest (offset + 1) ∧ Offset.back rest (offset + 1) = .ok after
  /-- Behind the sign, the text can be cut behind the name that it begins with. -/
  bare : Offset.IsBoundary after (nameSize after)
  /-- So it can behind a brace. -/
  braced : ∀ braced, Offset.behind? '\x7b' after = some braced →
    Offset.IsBoundary braced (nameSize braced)
  /-- No slip is made in telling what the sign announces. -/
  announces : ∃ found, announced after = .ok found
  /-- A placeholder has a size, the text can be cut behind it, and what is left then is
      shorter by two bytes. -/
  consumed : ∀ placeholder size, announced after = .ok (some (placeholder, size)) →
    1 ≤ size ∧ size ≤ after.utf8ByteSize ∧ Offset.IsBoundary after size ∧
      ∃ next, Offset.back after size = .ok next ∧ next.utf8ByteSize + 2 ≤ rest.utf8ByteSize
  /-- Where nothing is announced, the offset of the sign in the whole text is that in what is
      left and the size of what is in front of that. -/
  stray : announced after = .ok none → rest.utf8ByteSize ≤ text.utf8ByteSize ∧
    StrayInRange text (text.utf8ByteSize - rest.utf8ByteSize + offset) after

/-- A dollar sign stands at the size of the text in front of it. -/
theorem strayInRange {before after : String}
    (htext : text = before ++ (String.singleton '$' ++ after)) :
    StrayInRange text before.utf8ByteSize after where
  boundary := htext ▸ Offset.isBoundary_append _ _
  sign := htext ▸ Offset.getElem?_encode before after (c := '$') (by decide)
  line := by
    rcases exists_lineStart before with ⟨earlier, hbefore, hstart⟩
    exact ⟨before, htext, htext ▸ Offset.front_append _ _,
      (Offset.isBoundary_iff _ _).mpr ⟨_, _, hbefore, hstart⟩⟩
  place := by
    -- The sign itself is behind the part whose lines and characters are counted.
    have hlonger : before.utf8ByteSize + 1 ≤ text.utf8ByteSize := by
      rw [htext, size_append_sign]
      omega
    have hplace := position_le before
    exact ⟨_, htext ▸ position_append _ _, Nat.le_trans hplace.1 hlonger,
      Nat.le_trans hplace.2 hlonger⟩

/-- Where a dollar sign stands in what is left of a text, all offsets are in range. -/
theorem signInRange {rest read before after : String} (htext : text = read ++ rest)
    (hrest : rest = before ++ (String.singleton '$' ++ after)) :
    SignInRange text rest before.utf8ByteSize after where
  sign := hrest ▸ Offset.isBoundary_append _ _
  behind := hrest ▸ Offset.back_append_singleton rfl before after
  bare := isBoundary_nameSize after
  braced braced _ := isBoundary_nameSize braced
  announces := ⟨_, announced_eq after⟩
  consumed := by
    intro placeholder size h
    rw [announced_eq, Except.ok.injEq] at h
    rcases Option.map_eq_some_iff.mp h with ⟨⟨p, more⟩, hread, hmeasured⟩
    rcases Prod.mk.inj hmeasured with ⟨rfl, rfl⟩
    have hpos := Offset.size_ofList_pos (Placeholder.written_ne_nil hread)
    have hnext := Offset.back_append (String.ofList p.written) (String.ofList more)
    rw [← Placeholder.eq_append_of_read? hread] at hnext
    have hboundary := Offset.isBoundary_of_back hnext
    refine ⟨hpos, hboundary.le_size, hboundary, _, hnext, ?_⟩
    -- The placeholder and the sign in front of it are what has been taken.
    have hsize := Offset.back_size hnext
    rw [hrest, size_append_sign]
    omega
  stray := by
    intro _
    have hsize : text.utf8ByteSize = read.utf8ByteSize + rest.utf8ByteSize := by
      rw [htext, String.utf8ByteSize_append]
    have hoffset : text.utf8ByteSize - rest.utf8ByteSize + before.utf8ByteSize =
        (read ++ before).utf8ByteSize := by
      rw [hsize, String.utf8ByteSize_append, Nat.add_sub_cancel]
    have hwhole : text = read ++ before ++ (String.singleton '$' ++ after) := by
      rw [htext, hrest, String.append_assoc]
    rw [hoffset]
    exact ⟨hsize ▸ Nat.le_add_left _ _, strayInRange hwhole⟩

/-- What holds where turns have led to: what is left is the end of the text and can be cut
    off there, each turn has made it shorter by at least two bytes, and at the next dollar
    sign all offsets are in range. -/
structure InRange (text : String) (turns : Nat) (cursor : Cursor) : Prop where
  /-- What is left is the end of the text. -/
  left : ∃ read, text = read ++ cursor.rest
  /-- It begins between two characters. -/
  start : Offset.IsBoundary text (text.utf8ByteSize - cursor.rest.utf8ByteSize)
  /-- Each turn has read at least two bytes. -/
  size : cursor.rest.utf8ByteSize + 2 * turns ≤ text.utf8ByteSize
  /-- Wherever the next dollar sign is, it is in range. -/
  sign : ∀ offset, Offset.find? '$' cursor.rest = some offset →
    ∃ after, SignInRange text cursor.rest offset after

/-- Filling in a text by offsets makes no slip and ends with what the pieces of the text come
    to. Wherever turns have led to, the next turn makes no slip either, and all offsets that
    are computed there are in range and between two characters. -/
theorem run_in_range (text : String) (values : Bindings) :
    run text values = .ok (substitute text values) ∧
      ∀ turns cursor, Reached text values turns cursor →
        InRange text turns cursor ∧ ∃ ending, turn text values cursor = .ok ending := by
  refine ⟨run_eq text values, fun turns cursor h => ?_⟩
  rcases h.exists_append with ⟨read, htext, hsize⟩
  refine ⟨⟨⟨read, htext⟩, ?_, hsize, fun offset hfind => ?_⟩, ?_⟩
  · have hstart := Offset.isBoundary_append read cursor.rest
    rw [htext, String.utf8ByteSize_append, Nat.add_sub_cancel]
    exact hstart
  · rcases (Offset.find?_eq_some_iff _ _ _).mp hfind with ⟨before, after, hrest, _, rfl⟩
    exact ⟨after, signInRange htext hrest⟩
  · rcases exists_turn values htext with ⟨ending, hturn, _⟩
    exact ⟨ending, hturn⟩

/-- A text in which characters of two and of three bytes stand behind a name, in front of a
    dollar sign and on the line of one. -/
def sampleText : String := "ü$aé\n✓$ b"

/-- The only value is a dollar sign itself. -/
def sampleValues : Bindings := fun name => if name = "a" then some "$" else none

/-- One turn leads behind the name, and six bytes further on is the sign that announces
    nothing. -/
theorem run_in_range_sample :
    Reached sampleText sampleValues 1 ⟨"é\n✓$ b", "ü$"⟩ ∧
      InRange sampleText 1 ⟨"é\n✓$ b", "ü$"⟩ ∧
      ∃ after, SignInRange sampleText "é\n✓$ b" 6 after := by
  have hsign : FirstSign (Cursor.mk sampleText "").rest "ü" "aé\n✓$ b" :=
    ⟨by decide, by decide⟩
  have hread : Placeholder.read? "aé\n✓$ b".toList = some (.bare ['a'], "é\n✓$ b".toList) := by
    decide
  have hvalue : placeholderValue sampleValues (.bare ['a']) = .ok "$" := rfl
  have hturn : turn sampleText sampleValues ⟨sampleText, ""⟩ = .ok (.again ⟨"é\n✓$ b", "ü$"⟩) :=
    turn_filled sampleText hsign hread hvalue
  have hnext : FirstSign "é\n✓$ b" "é\n✓" " b" := ⟨by decide, by decide⟩
  have hreached : Reached sampleText sampleValues 1 ⟨"é\n✓$ b", "ü$"⟩ := .again .start hturn
  have hrange := ((run_in_range sampleText sampleValues).2 1 _ hreached).1
  exact ⟨hreached, hrange, hrange.sign 6 hnext.cut.1⟩

end Cursor

end Template

end TestWrappers
