import LoxTokens.Proofs.CommandLine.Settings

/-!
# What arguments choose

Each option with its value, and each file, is a choice.  A choice fills a slot of the
draft, one of three: the format, the level, or the file.  It can be made if it is valid
and its slot is free, and it leaves the other slots alone.  So two choices can be made in
either order, with the same result or with none, and what a list of choices comes to does
not depend on their order (`settleAll?_perm`).

What goes wrong is told by the first choice that cannot be made, and so it does depend on
the order.  That is why it is left out here.
-/

namespace LoxTokens.CommandLine

/-! ## Choices -/

/-- Something that arguments settle. -/
inductive Choice where
  | option (setting : Setting) (value : List Char)
  | file (name : List Char)

/-- Whether an option can have this value. -/
def Setting.Accepts : Setting → List Char → Prop
  | .format, value => (Format.ofName? value).isSome = true
  | .logLevel, value => (Log.Level.ofText? value).isSome = true

namespace Choice

/-- What a choice fills, where there is none for the file. -/
def slot : Choice → Option Setting
  | .option setting _ => some setting
  | .file _ => none

def IsValid : Choice → Prop
  | .option setting value => setting.Accepts value
  | .file name => name ≠ []

end Choice

namespace Draft

/-- Whether a slot is filled. -/
def has (draft : Draft) : Option Setting → Bool
  | some .format => draft.format.isSome
  | some .logLevel => draft.level.isSome
  | none => draft.file.isSome

def settle (draft : Draft) : Choice → Except UsageFault Draft
  | .option setting value => draft.assign setting value
  | .file name => draft.chooseFile name

/-- A draft with one more choice, if that can be made. -/
def settle? (draft : Draft) (choice : Choice) : Option Draft := (draft.settle choice).toOption

/-- A draft with a list of choices. -/
def settleAll? (draft : Draft) (choices : List Choice) : Option Draft :=
  choices.foldlM settle? draft

theorem toOption_foldlM_settle (draft : Draft) (choices : List Choice) :
    (choices.foldlM settle draft).toOption = draft.settleAll? choices := by
  induction choices generalizing draft with
  | nil => rfl
  | cons choice choices ih =>
      rw [List.foldlM_cons, settleAll?, List.foldlM_cons, settle?]
      cases draft.settle choice with
      | error fault => rfl
      | ok settled => exact ih settled

theorem settleAll?_cons (draft : Draft) (choice : Choice) (choices : List Choice) :
    draft.settleAll? (choice :: choices) =
      (draft.settle? choice).bind (·.settleAll? choices) :=
  List.foldlM_cons

/-! ### One choice -/

theorem settle?_format (draft : Draft) (value : List Char) :
    draft.settle? (.option .format value) =
      if draft.format.isSome then none
      else (Format.ofName? value).map fun format => { draft with format := some format } := by
  rw [settle?, settle, assign]
  cases Format.ofName? value with
  | none => cases draft.format <;> rfl
  | some format => cases draft.format <;> rfl

theorem settle?_logLevel (draft : Draft) (value : List Char) :
    draft.settle? (.option .logLevel value) =
      if draft.level.isSome then none
      else (Log.Level.ofText? value).map fun level => { draft with level := some level } := by
  rw [settle?, settle, assign]
  cases Log.Level.ofText? value with
  | none => cases draft.level <;> rfl
  | some level => cases draft.level <;> rfl

theorem settle?_file (draft : Draft) (name : List Char) :
    draft.settle? (.file name) =
      if draft.file.isSome then none
      else if name.isEmpty then none else some { draft with file := some name } := by
  rw [settle?, settle, chooseFile]
  split
  · rfl
  · split <;> rfl

/-- A choice can be made if it is valid and its slot is free. -/
theorem isSome_settle?_iff (draft : Draft) (choice : Choice) :
    (draft.settle? choice).isSome = true ↔ choice.IsValid ∧ draft.has choice.slot = false := by
  cases choice with
  | file name =>
      rw [settle?_file, Choice.IsValid, Choice.slot, has]
      cases draft.file with
      | none => cases name <;> simp
      | some file => simp
  | option setting value =>
      cases setting with
      | format =>
          rw [settle?_format, Choice.IsValid, Setting.Accepts, Choice.slot, has]
          cases draft.format with
          | none => simp
          | some format => simp
      | logLevel =>
          rw [settle?_logLevel, Choice.IsValid, Setting.Accepts, Choice.slot, has]
          cases draft.level with
          | none => simp
          | some level => simp

/-- A choice fills its slot and no other. -/
theorem has_of_settle? {draft settled : Draft} {choice : Choice}
    (hsettle : draft.settle? choice = some settled) (slot : Option Setting) :
    settled.has slot = (draft.has slot || decide (slot = choice.slot)) := by
  cases choice with
  | file name =>
      rw [settle?_file] at hsettle
      split at hsettle
      · cases hsettle
      · split at hsettle
        · cases hsettle
        · cases hsettle
          rcases slot with _ | _ | _ <;> simp [has, Choice.slot]
  | option setting value =>
      cases setting with
      | format =>
          rw [settle?_format] at hsettle
          split at hsettle
          · cases hsettle
          · obtain ⟨format, -, rfl⟩ := Option.map_eq_some_iff.mp hsettle
            rcases slot with _ | _ | _ <;> simp [has, Choice.slot]
      | logLevel =>
          rw [settle?_logLevel] at hsettle
          split at hsettle
          · cases hsettle
          · obtain ⟨level, -, rfl⟩ := Option.map_eq_some_iff.mp hsettle
            rcases slot with _ | _ | _ <;> simp [has, Choice.slot]

/-- Nothing can be chosen twice. -/
theorem settle?_of_has {draft : Draft} {choice : Choice} (hhas : draft.has choice.slot = true) :
    draft.settle? choice = none := by
  rw [← Option.not_isSome_iff_eq_none, isSome_settle?_iff, hhas]
  simp

/-! ### Any number of choices -/

/-- Choices can be made if all of them are valid and their slots are free, each for one of
them. -/
theorem isSome_settleAll?_iff (draft : Draft) (choices : List Choice) :
    (draft.settleAll? choices).isSome = true ↔
      (∀ choice ∈ choices, choice.IsValid ∧ draft.has choice.slot = false) ∧
        (choices.map Choice.slot).Nodup := by
  induction choices generalizing draft with
  | nil => simp [settleAll?]
  | cons choice choices ih =>
      rw [settleAll?_cons, List.forall_mem_cons, ← isSome_settle?_iff, List.map_cons,
        List.nodup_cons]
      cases hsettle : draft.settle? choice with
      | none => simp
      | some settled =>
          rw [Option.bind_some, ih]
          simp only [has_of_settle? hsettle, Bool.or_eq_false_iff, decide_eq_false_iff_not,
            Option.isSome_some, true_and, List.mem_map, not_exists, not_and]
          constructor
          · rintro ⟨hall, hnodup⟩
            exact ⟨fun other hother => ⟨(hall other hother).1, (hall other hother).2.1⟩,
              fun other hother => (hall other hother).2.2, hnodup⟩
          · rintro ⟨hall, hother, hnodup⟩
            exact ⟨fun other hmem => ⟨(hall other hmem).1, (hall other hmem).2, hother other hmem⟩,
              hnodup⟩

theorem bind_settle?_of_slot_eq {first second : Choice} (hslot : first.slot = second.slot)
    (draft : Draft) : (draft.settle? first).bind (·.settle? second) = none := by
  rw [Option.bind_eq_none_iff]
  intro settled hsettle
  apply settle?_of_has
  rw [has_of_settle? hsettle, hslot, decide_eq_true rfl, Bool.or_true]

theorem bind_settle?_file_option (draft : Draft) (name : List Char) (setting : Setting)
    (value : List Char) :
    (draft.settle? (.file name)).bind (·.settle? (.option setting value)) =
      (draft.settle? (.option setting value)).bind (·.settle? (.file name)) := by
  cases setting with
  | format =>
      simp only [settle?_file, settle?_format]
      cases draft.file <;> cases draft.format <;> cases name <;>
        cases Format.ofName? value <;> rfl
  | logLevel =>
      simp only [settle?_file, settle?_logLevel]
      cases draft.file <;> cases draft.level <;> cases name <;>
        cases Log.Level.ofText? value <;> rfl

theorem bind_settle?_format_logLevel (draft : Draft) (value value' : List Char) :
    (draft.settle? (.option .format value)).bind (·.settle? (.option .logLevel value')) =
      (draft.settle? (.option .logLevel value')).bind (·.settle? (.option .format value)) := by
  simp only [settle?_format, settle?_logLevel]
  cases draft.format <;> cases draft.level <;> cases Format.ofName? value <;>
    cases Log.Level.ofText? value' <;> rfl

/-- Two choices can be made in either order. -/
theorem settle?_comm (draft : Draft) (first second : Choice) :
    (draft.settle? first).bind (·.settle? second) =
      (draft.settle? second).bind (·.settle? first) := by
  by_cases hslot : first.slot = second.slot
  · -- whichever is made first, the other one then finds the slot filled
    rw [bind_settle?_of_slot_eq hslot, bind_settle?_of_slot_eq hslot.symm]
  · cases first with
    | file name =>
        cases second with
        | file name' => exact absurd rfl hslot
        | option setting value => exact bind_settle?_file_option draft name setting value
    | option setting value =>
        cases second with
        | file name => exact (bind_settle?_file_option draft name setting value).symm
        | option setting' value' =>
            cases setting <;> cases setting'
            · exact absurd rfl hslot
            · exact bind_settle?_format_logLevel draft value value'
            · exact (bind_settle?_format_logLevel draft value' value).symm
            · exact absurd rfl hslot

/-- What a list of choices comes to does not depend on their order. -/
theorem settleAll?_perm {choices choices' : List Choice} (hperm : choices.Perm choices')
    (draft : Draft) : draft.settleAll? choices = draft.settleAll? choices' := by
  induction hperm generalizing draft with
  | nil => rfl
  | cons choice _ ih =>
      rw [settleAll?_cons, settleAll?_cons]
      congr 1
      funext settled
      exact ih settled
  | swap first second choices =>
      simp only [settleAll?_cons, ← Option.bind_assoc]
      rw [settle?_comm]
  | trans _ _ ih ih' => rw [ih, ih']

end Draft

end LoxTokens.CommandLine
