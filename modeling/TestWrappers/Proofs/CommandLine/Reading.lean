import Mathlib.Logic.Function.Iterate
import TestWrappers.CommandLine

/-!
# Reading Arguments Item by Item

An option with its value and a flag are items, and arguments that are in order are a list
of items.

An item takes one or two arguments. It ends before the next one begins, so the arguments
can be read item by item. An option that was kept aside is settled by then: it makes no
difference whether it is looked at right away or when the next item is met.

## Main definitions

* `CommandLine.Item`: An option with its value, or a flag, as it is spelled.
* `CommandLine.Item.args`: The arguments of an item.
* `CommandLine.Item.take`: What an item does to the options.

## Theorems

* `Argument.ofChars_long`, `Argument.ofChars_plain`: How the arguments of items are spelled.
* `CommandLine.read_args`: The arguments of one item.
* `CommandLine.parse_flatMap_args`: Arguments are read item by item.
-/

namespace TestWrappers

theorem DirectoryOption.ofName?_name (option : DirectoryOption) :
    ofName? option.name = some option := by
  cases option <;> decide

theorem DirectoryOption.equals_notMem_name (option : DirectoryOption) :
    '=' ∉ option.name.toList ∧ option.name.toList ≠ [] := by
  cases option <;> decide

/-- A name behind two hyphens, with or without a value. -/
theorem Argument.ofChars_long {name : List Char} (h : '=' ∉ name) (hne : name ≠ []) :
    ofChars ('-' :: '-' :: name) = .long (String.ofList name) none ∧
      ∀ value, ofChars ('-' :: '-' :: (name ++ '=' :: value)) =
        .long (String.ofList name) (some (String.ofList value)) := by
  have hall : ∀ c ∈ name, (c != '=') = true := fun c hc => bne_iff_ne.mpr fun heq => h (heq ▸ hc)
  have htake : ∀ rest, (name ++ rest).takeWhile (· != '=') = name ++ rest.takeWhile (· != '=') :=
    fun _ => List.takeWhile_append_of_pos hall
  have hdrop : ∀ rest, (name ++ rest).dropWhile (· != '=') = rest.dropWhile (· != '=') :=
    fun _ => List.dropWhile_append_of_pos hall
  have hstop : ('=' != '=') = false := by decide
  rcases List.exists_cons_of_ne_nil hne with ⟨c, cs, rfl⟩
  refine ⟨?_, fun value => ?_⟩
  · have htake' := htake []
    have hdrop' := hdrop []
    rw [List.append_nil, List.takeWhile_nil, List.append_nil] at htake'
    rw [List.append_nil, List.dropWhile_nil] at hdrop'
    simp only [ofChars, htake', hdrop']
  · have htake' := htake ('=' :: value)
    have hdrop' := hdrop ('=' :: value)
    rw [List.takeWhile_cons, hstop, if_neg Bool.false_ne_true, List.append_nil] at htake'
    rw [List.dropWhile_cons, hstop, if_neg Bool.false_ne_true] at hdrop'
    rw [List.cons_append] at htake' hdrop' ⊢
    simp only [ofChars, htake', hdrop']

/-- What does not begin with a hyphen is no option and no flag. -/
theorem Argument.ofChars_plain {text : String} (h : text.toList.head? ≠ some '-') :
    ofChars text.toList = .plain text := by
  cases hchars : text.toList with
  | nil =>
    have htext : text = "" := String.toList_inj.mp hchars
    rw [htext]
    rfl
  | cons c cs =>
    rw [hchars, List.head?_cons, ne_eq, Option.some.injEq] at h
    have htext : String.ofList (c :: cs) = text := by rw [← hchars, String.ofList_toList]
    rw [ofChars, htext]
    · rintro heq
      exact h (List.cons.inj heq).1
    · rintro _ heq
      exact h (List.cons.inj heq).1
    · rintro _ _ heq
      exact h (List.cons.inj heq).1

namespace CommandLine

/-- An option with its value, or a flag, as it is spelled. -/
inductive Item where
  /-- An option and its value in one argument, with an equals sign in between. -/
  | joined (option : DirectoryOption) (value : String)
  /-- An option and its value in two arguments. -/
  | separate (option : DirectoryOption) (value : String)
  /-- The flag for more output, written out. -/
  | verbose
  /-- The letter of the flag behind a hyphen, once and perhaps more often. -/
  | cluster (more : Nat)
deriving DecidableEq, Repr

namespace Item

/-- The arguments of an item. -/
def args : Item → List String
  | joined option value => ["--" ++ option.name ++ "=" ++ value]
  | separate option value => ["--" ++ option.name, value]
  | verbose => ["--verbose"]
  | cluster more => [String.ofList ('-' :: List.replicate (more + 1) 'v')]

/-- A value says something, and behind its option as an argument of its own it does not
    begin like an option. -/
def Valid : Item → Prop
  | joined _ value => value ≠ ""
  | separate _ value => value ≠ "" ∧ value.toList.head? ≠ some '-'
  | verbose | cluster _ => True

instance : DecidablePred Valid
  | joined _ value => inferInstanceAs (Decidable (value ≠ ""))
  | separate _ value =>
    inferInstanceAs (Decidable (value ≠ "" ∧ value.toList.head? ≠ some '-'))
  | verbose | cluster _ => inferInstanceAs (Decidable True)

/-- The option and the value of an item. -/
def named? : Item → Option (DirectoryOption × String)
  | joined option value | separate option value => some (option, value)
  | verbose | cluster _ => none

/-- How often an item asks for more output. -/
def raises : Item → Nat
  | joined _ _ | separate _ _ => 0
  | verbose => 1
  | cluster more => more + 1

/-- What an item adds to the options, if nothing is in the way. -/
def apply (options : Options) (item : Item) : Options :=
  match item.named? with
  | some (option, value) => options.setDirectory option (.ofString value)
  | none => Nat.iterate Options.raiseVerbosity item.raises options

/-- Take an item: no directory is named twice. -/
def take (options : Options) (item : Item) : Except Ending Options :=
  match item.named? with
  | some (option, _) =>
    if (options.directory? option).isSome then .error .argumentConflict
    else .ok (item.apply options)
  | none => .ok (item.apply options)

/-- What an item makes of options, before what it has kept aside is settled. -/
def step (options : Options) : Item → Except Ending Progress
  | joined option value =>
    (Progress.assign options option (some value)).map fun options => ⟨options, none⟩
  | separate option value => .ok ⟨options, some (option, some value)⟩
  | verbose => .ok ⟨options.raiseVerbosity, none⟩
  | cluster more => .ok ⟨Nat.iterate Options.raiseVerbosity (more + 1) options, none⟩

end Item

variable {item : Item} {items : List Item}

theorem assign_eq_take {option : DirectoryOption} {value : String} (h : value ≠ "")
    (item : Item) (hitem : item.named? = some (option, value)) (options : Options) :
    Progress.assign options option (some value) = item.take options := by
  unfold Progress.assign Item.take Item.apply
  simp only [hitem, if_neg h]

/-- A letter for more output repeated behind a hyphen raises the verbosity as often. -/
theorem letters_replicate (options : Options) (n : Nat) :
    Progress.letters ⟨options, none⟩ (List.replicate n 'v') =
      .ok ⟨Nat.iterate Options.raiseVerbosity n options, none⟩ := by
  induction n generalizing options with
  | zero => rfl
  | succ n ih =>
    have hletter : Progress.letter ⟨options, none⟩ 'v' = .ok ⟨options.raiseVerbosity, none⟩ := rfl
    rw [List.replicate_succ, Progress.letters, hletter]
    exact ih options.raiseVerbosity

/-- When what an item has kept aside is settled, the item has been taken. -/
theorem settle_step (h : item.Valid) (options : Options) :
    (item.step options).bind Progress.settle = item.take options := by
  cases item with
  | joined option value =>
    rw [Item.step, assign_eq_take h (.joined option value) rfl]
    cases Item.take options (.joined option value) <;> rfl
  | separate option value => exact assign_eq_take h.1 (.separate option value) rfl options
  | verbose => rfl
  | cluster more => rfl

/-- The arguments of an item are taken in for themselves, once the option that was kept
    aside in front of them is settled. -/
theorem read_args (h : item.Valid) (progress : Progress) (rest : List String) :
    read progress (item.args ++ rest) =
      (progress.settle.bind item.step).bind fun next => read next rest := by
  cases item with
  | joined option value =>
    have harg : Argument.ofChars ("--" ++ option.name ++ "=" ++ value).toList =
        .long option.name (some value) := by
      rcases option.equals_notMem_name with ⟨hnot, hne⟩
      have hlong := (Argument.ofChars_long hnot hne).2 value.toList
      simp only [String.ofList_toList] at hlong
      simp only [String.toList_append, List.append_assoc]
      exact hlong
    simp only [Item.args, List.singleton_append, read, harg, Progress.take, Progress.long,
      DirectoryOption.ofName?_name]
    rfl
  | separate option value =>
    have harg : Argument.ofChars ("--" ++ option.name).toList = .long option.name none := by
      rcases option.equals_notMem_name with ⟨hnot, hne⟩
      have hlong := (Argument.ofChars_long hnot hne).1
      simp only [String.ofList_toList] at hlong
      rw [String.toList_append]
      exact hlong
    simp only [Item.args, List.cons_append, List.nil_append, read, harg,
      Argument.ofChars_plain h.2, Progress.take, Progress.long, DirectoryOption.ofName?_name]
    cases progress.settle <;> rfl
  | verbose =>
    have harg : Argument.ofChars "--verbose".toList = .long "verbose" none := by decide
    have hname : DirectoryOption.ofName? "verbose" = none := by decide
    have hflag : Progress.flagLetter? "verbose" = some 'v' := by decide
    simp only [Item.args, List.singleton_append, read, harg, Progress.take, Progress.long, hname,
      hflag]
    cases hsettle : progress.settle <;> simp only [Progress.letter, hsettle, ↓reduceIte] <;> rfl
  | cluster more =>
    have harg : Argument.ofChars (String.ofList ('-' :: List.replicate (more + 1) 'v')).toList =
        .short (List.replicate (more + 1) 'v') := by
      rw [String.toList_ofList, List.replicate_succ]
      rfl
    have hletters : progress.letters (List.replicate (more + 1) 'v') =
        progress.settle.map fun options =>
          ⟨Nat.iterate Options.raiseVerbosity (more + 1) options, none⟩ := by
      rw [List.replicate_succ, Progress.letters]
      cases hsettle : progress.settle with
      | error ending => simp only [Progress.letter, hsettle, ↓reduceIte]; rfl
      | ok options =>
        simp only [Progress.letter, hsettle, ↓reduceIte]
        exact letters_replicate options.raiseVerbosity more
    simp only [Item.args, List.singleton_append, read, harg, Progress.take, hletters]
    cases progress.settle <;> rfl

/-- Arguments are read item by item. -/
theorem settle_read (h : ∀ item ∈ items, item.Valid) (progress : Progress) :
    (read progress (items.flatMap Item.args)).bind Progress.settle =
      progress.settle.bind fun options => items.foldlM Item.take options := by
  induction items generalizing progress with
  | nil => cases hsettle : progress.settle <;> exact hsettle
  | cons item items ih =>
    rcases List.forall_mem_cons.mp h with ⟨hitem, hrest⟩
    rw [List.flatMap_cons, read_args hitem]
    cases progress.settle with
    | error ending => rfl
    | ok options =>
      have hstep := settle_step hitem options
      simp only [Except.bind, List.foldlM_cons]
      rw [← hstep]
      cases item.step options with
      | error ending => rfl
      | ok next => exact ih hrest next

theorem parse_flatMap_args (h : ∀ item ∈ items, item.Valid) :
    parse (items.flatMap Item.args) = items.foldlM Item.take Options.empty :=
  settle_read h Progress.start

end CommandLine

end TestWrappers
