import LoxTokens.Proofs.CommandLine.Choices

/-!
# Arguments in groups

The arguments of a scan fall into groups, an option with its value or a file, and perhaps
the end of the options with a file behind it.  Arguments that are arranged like this make
the choices of their groups one after the other (`readArguments_texts`), and every list of
arguments that asks for a scan is arranged like this (`exists_texts_eq`).
-/

namespace LoxTokens

/-- A text is what stands before the separator, and behind it whatever is left. -/
theorem Text.eq_of_cut_eq {separator : Char} {text front : List Char} {back : Option (List Char)}
    (hcut : cut separator text = (front, back)) :
    text = front ++ (back.map (separator :: ·)).getD [] := by
  obtain ⟨hfront, hback⟩ := Prod.mk.inj hcut
  have htext : text = front ++ text.dropWhile (· ≠ separator) := by
    rw [← hfront, List.takeWhile_append_dropWhile]
  cases hrest : text.dropWhile (· ≠ separator) with
  | nil =>
      rw [hrest] at hback htext
      rw [htext, ← hback]
      rfl
  | cons c rest =>
      have hc := List.head?_dropWhile_not (fun c => decide (c ≠ separator)) text
      rw [hrest] at hback htext hc
      obtain rfl : c = separator := by simpa using hc
      rw [htext, ← hback]
      rfl

namespace CommandLine

/-- An option as it begins an argument. -/
def Setting.flag (setting : Setting) : List Char := '-' :: '-' :: setting.name.toList

/-! ## Single arguments -/

namespace Argument

theorem ofText_flag (setting : Setting) : ofText setting.flag = .option setting none := by
  cases setting <;> rfl

theorem ofText_flag_value (setting : Setting) (value : List Char) :
    ofText (setting.flag ++ '=' :: value) = .option setting (some value) := by
  cases setting <;> rfl

theorem ofText_endOfOptions : ofText ['-', '-'] = .endOfOptions := rfl

/-- What does not begin with a hyphen is an operand, and so is a hyphen alone. -/
theorem ofText_operand {text : List Char} (hhyphen : text.head? = some '-' → text = ['-']) :
    ofText text = .operand text := by
  cases text with
  | nil => rfl
  | cons c text =>
      by_cases hc : c = '-'
      · rw [hhyphen (congrArg some hc)]
        rfl
      · unfold ofText
        split
        · next heq => exact absurd (List.cons.inj heq).1 hc
        · next heq => exact absurd (List.cons.inj heq).1 hc
        · next heq => exact absurd (List.cons.inj heq).1 hc
        · next heq => exact absurd (List.cons.inj heq).1 hc
        · rfl

/-- Nothing else is an operand. -/
theorem eq_of_ofText_eq_operand {text name : List Char} (hoperand : ofText text = .operand name) :
    name = text ∧ (text.head? = some '-' → text = ['-']) := by
  unfold ofText at hoperand
  split at hoperand
  · cases hoperand
  · split at hoperand
    split at hoperand
    · cases hoperand
    · split at hoperand <;> cases hoperand
  · cases hoperand
  · cases hoperand
  · next hlong =>
      cases hoperand
      refine ⟨rfl, ?_⟩
      intro hhyphen
      cases text with
      | nil => cases hhyphen
      | cons c rest =>
          cases hhyphen
          cases rest with
          | nil => rfl
          | cons c rest => exact absurd rfl (hlong c rest)

/-- What an option is written like. -/
theorem eq_of_ofText_eq_option {text : List Char} {setting : Setting} {value : Option (List Char)}
    (hoption : ofText text = .option setting value) :
    text = setting.flag ++ (value.map ('=' :: ·)).getD [] := by
  unfold ofText at hoption
  split at hoption
  · cases hoption
  · next body _ =>
      split at hoption
      next name value' hcut =>
        split at hoption
        · next setting' hsetting =>
            cases hoption
            have hname : setting.name.toList = name := by
              simpa using List.find?_some hsetting
            rw [Text.eq_of_cut_eq hcut, ← hname]
            rfl
        · split at hoption <;> cases hoption
  all_goals cases hoption

/-- What an option can have as its value is not taken for an option. -/
theorem ofText_of_accepts {setting : Setting} {value : List Char}
    (haccepts : setting.Accepts value) : ofText value = .operand value := by
  cases setting with
  | format =>
      obtain ⟨format, hformat⟩ := Option.isSome_iff_exists.mp haccepts
      unfold Format.ofName? at hformat
      split at hformat
      · next heq => exact heq ▸ rfl
      · split at hformat
        · next heq => exact heq ▸ rfl
        · cases hformat
  | logLevel =>
      obtain ⟨level, hlevel⟩ := Option.isSome_iff_exists.mp haccepts
      exact ofText_level hlevel

end Argument

/-! ## Arrangements -/

/-- The two ways to write an option and its value. -/
inductive Spelling where
  /-- The value is an argument of its own. -/
  | apart
  /-- The value stands behind an equals sign. -/
  | joined

/-- Arguments that belong together. -/
inductive Group where
  | option (spelling : Spelling) (setting : Setting) (value : List Char)
  | file (name : List Char)

namespace Group

def choice : Group → Choice
  | .option _ setting value => .option setting value
  | .file name => .file name

/-- The arguments of a group. -/
def texts : Group → List (List Char)
  | .option .apart setting value => [setting.flag, value]
  | .option .joined setting value => [setting.flag ++ '=' :: value]
  | .file name => [name]

/-- Whether a group is read as what it is: the value is one for its option, and the file
does not look like an option. -/
def IsReadable : Group → Prop
  | .option _ setting value => setting.Accepts value
  | .file name => name.head? = some '-' → name = ['-']

end Group

/-- A list of arguments: some groups, and what stands behind the end of the options, if
that is marked. -/
structure Arrangement where
  groups : List Group
  operands : Option (List (List Char)) := none

namespace Arrangement

def choices (arrangement : Arrangement) : List Choice :=
  arrangement.groups.map Group.choice ++ (arrangement.operands.getD []).map Choice.file

def texts (arrangement : Arrangement) : List (List Char) :=
  arrangement.groups.flatMap Group.texts ++
    (arrangement.operands.map (['-', '-'] :: ·)).getD []

/-- The list of arguments. -/
def arguments (arrangement : Arrangement) : List String := arrangement.texts.map String.ofList

def IsReadable (arrangement : Arrangement) : Prop := ∀ group ∈ arrangement.groups, group.IsReadable

/-- Each option is given at most once, with a value that it can have, and there is at most
one file, with a name.  A file whose name looks like an option stands behind the end of the
options. -/
structure IsAccepted (arrangement : Arrangement) : Prop where
  isReadable : arrangement.IsReadable
  isValid : ∀ choice ∈ arrangement.choices, choice.IsValid
  nodup : (arrangement.choices.map Choice.slot).Nodup

/-- An arrangement with one more group in front. -/
def prepend (group : Group) (arrangement : Arrangement) : Arrangement :=
  { arrangement with groups := group :: arrangement.groups }

theorem texts_prepend (group : Group) (arrangement : Arrangement) :
    (arrangement.prepend group).texts = group.texts ++ arrangement.texts := by
  rw [texts, prepend, List.flatMap_cons, List.append_assoc, texts]

theorem IsReadable.prepend {group : Group} {arrangement : Arrangement} (hgroup : group.IsReadable)
    (hreadable : arrangement.IsReadable) : (arrangement.prepend group).IsReadable :=
  List.forall_mem_cons.mpr ⟨hgroup, hreadable⟩

theorem isAccepted_iff (arrangement : Arrangement) :
    arrangement.IsAccepted ↔
      arrangement.IsReadable ∧ (Draft.settleAll? {} arrangement.choices).isSome = true := by
  rw [Draft.isSome_settleAll?_iff]
  have hfree (slot : Option Setting) : Draft.has {} slot = false := by
    rcases slot with _ | _ | _ <;> rfl
  constructor
  · intro haccepted
    exact ⟨haccepted.isReadable, fun choice hmem => ⟨haccepted.isValid choice hmem, hfree _⟩,
      haccepted.nodup⟩
  · rintro ⟨hreadable, hvalid, hnodup⟩
    exact ⟨hreadable, fun choice hmem => (hvalid choice hmem).1, hnodup⟩

end Arrangement

/-! ## Reading an arrangement -/

namespace Draft

theorem readArguments_group (draft : Draft) {group : Group} (hreadable : group.IsReadable)
    (rest : List (List Char)) :
    draft.readArguments (group.texts ++ rest) =
      (draft.settle group.choice).bind (·.readArguments rest) := by
  cases group with
  | file name =>
      rw [Group.texts, List.singleton_append, readArguments_cons, Argument.ofText_operand hreadable]
      rfl
  | option spelling setting value =>
      cases spelling with
      | joined =>
          rw [Group.texts, List.singleton_append, readArguments_cons, Argument.ofText_flag_value]
          rfl
      | apart =>
          have hvalue : Argument.ofText value = .operand value :=
            Argument.ofText_of_accepts hreadable
          rw [Group.texts, List.cons_append, List.singleton_append, readArguments_cons,
            Argument.ofText_flag]
          dsimp only
          rw [hvalue]
          rfl

/-- The choices are made one after the other. -/
theorem readArguments_texts (draft : Draft) {arrangement : Arrangement}
    (hreadable : arrangement.IsReadable) :
    draft.readArguments arrangement.texts =
      (arrangement.choices.foldlM settle draft).map fun settled => .scan settled.options := by
  obtain ⟨groups, operands⟩ := arrangement
  induction groups generalizing draft with
  | nil =>
      cases operands with
      | none => rfl
      | some operands =>
          show draft.readArguments (['-', '-'] :: operands) =
            ((operands.map Choice.file).foldlM settle draft).map _
          rw [readArguments_cons, Argument.ofText_endOfOptions, List.foldlM_map]
          rfl
  | cons group groups ih =>
      obtain ⟨hgroup, hgroups⟩ := List.forall_mem_cons.mp hreadable
      show draft.readArguments ((Arrangement.prepend group ⟨groups, operands⟩).texts) =
        ((group.choice :: (⟨groups, operands⟩ : Arrangement).choices).foldlM settle draft).map _
      rw [Arrangement.texts_prepend, readArguments_group draft hgroup, List.foldlM_cons]
      cases draft.settle group.choice with
      | error fault => rfl
      | ok settled => exact ih settled hgroups

/-- The settled draft behind a choice, which therefore is valid. -/
theorem exists_of_bind_eq_ok {draft : Draft} (choice : Choice) {rest : List (List Char)}
    {request : Request}
    (hread : (draft.settle choice).bind (·.readArguments rest) = .ok request) :
    choice.IsValid ∧ ∃ settled : Draft, settled.readArguments rest = .ok request := by
  cases hsettle : draft.settle choice with
  | error fault =>
      rw [hsettle] at hread
      cases hread
  | ok settled =>
      rw [hsettle] at hread
      have hsome : (draft.settle? choice).isSome = true := by
        rw [settle?, hsettle]
        rfl
      exact ⟨((isSome_settle?_iff draft choice).mp hsome).1, settled, hread⟩

/-- Arguments that ask for a scan are arranged in groups. -/
theorem exists_texts_eq {draft : Draft} {arguments : List (List Char)} {options : Options}
    (hread : draft.readArguments arguments = .ok (.scan options)) :
    ∃ arrangement : Arrangement, arrangement.IsReadable ∧ arrangement.texts = arguments := by
  cases arguments with
  | nil => exact ⟨⟨[], none⟩, List.forall_mem_nil _, rfl⟩
  | cons argument rest =>
      rw [readArguments_cons] at hread
      cases hargument : Argument.ofText argument with
      | help detail =>
          rw [hargument] at hread
          cases hread
      | unknown text =>
          rw [hargument] at hread
          cases hread
      | endOfOptions =>
          exact ⟨⟨[], some rest⟩, List.forall_mem_nil _,
            congrArg (· :: rest) (Argument.ofText_eq_endOfOptions hargument).symm⟩
      | operand name =>
          rw [hargument] at hread
          obtain ⟨rfl, hhyphen⟩ := Argument.eq_of_ofText_eq_operand hargument
          obtain ⟨-, settled, hrest⟩ := exists_of_bind_eq_ok (.file name) hread
          obtain ⟨arrangement, hreadable, rfl⟩ := exists_texts_eq hrest
          exact ⟨arrangement.prepend (.file name), hreadable.prepend hhyphen,
            Arrangement.texts_prepend _ _⟩
      | option setting value =>
          have hwritten := Argument.eq_of_ofText_eq_option hargument
          rw [hargument] at hread
          cases value with
          | some value =>
              obtain ⟨haccepts, settled, hrest⟩ :=
                exists_of_bind_eq_ok (.option setting value) hread
              obtain ⟨arrangement, hreadable, rfl⟩ := exists_texts_eq hrest
              refine ⟨arrangement.prepend (.option .joined setting value),
                hreadable.prepend haccepts, ?_⟩
              rw [Arrangement.texts_prepend, hwritten]
              rfl
          | none =>
              -- the value is the argument that follows
              cases rest with
              | nil => cases hread
              | cons next rest =>
                  dsimp only at hread
                  cases hnext : Argument.ofText next with
                  | operand value =>
                      rw [hnext] at hread
                      obtain ⟨rfl, -⟩ := Argument.eq_of_ofText_eq_operand hnext
                      obtain ⟨haccepts, settled, hrest⟩ :=
                        exists_of_bind_eq_ok (.option setting value) hread
                      obtain ⟨arrangement, hreadable, rfl⟩ := exists_texts_eq hrest
                      refine ⟨arrangement.prepend (.option .apart setting value),
                        hreadable.prepend haccepts, ?_⟩
                      rw [Arrangement.texts_prepend, hwritten, Option.map_none, Option.getD_none,
                        List.append_nil]
                      rfl
                  | endOfOptions => rw [hnext] at hread; cases hread
                  | option setting value => rw [hnext] at hread; cases hread
                  | help detail => rw [hnext] at hread; cases hread
                  | unknown text => rw [hnext] at hread; cases hread
termination_by arguments.length

end Draft

end CommandLine

end LoxTokens
