import LoxTokens.CommandLine.Arguments
import LoxTokens.Proofs.Log.Directives

/-!
# Arguments that differ in a level

Two lists of arguments that differ only in what level of the log they ask for
are read alike: both are at fault in the same way, or both ask for the same help,
or both ask for the same scan but for that level.

The value of an option stands in its own argument or in the next one, so the
reading goes on by one argument or by two.  `Draft.AgreeButForLevel` is what it
keeps: the drafts agree in all but the level, and it is settled in both or in
neither, for otherwise a repetition would be told from only one of them.
-/

namespace LoxTokens.CommandLine

/-! ## Agreement -/

/-- Two readings that fail for the same reason, or both succeed with results that
agree. -/
inductive Alike {α : Type} (agree : α → α → Prop) :
    Except UsageFault α → Except UsageFault α → Prop where
  | error (fault : UsageFault) : Alike agree (.error fault) (.error fault)
  | ok {first second : α} (hagree : agree first second) : Alike agree (.ok first) (.ok second)

theorem Alike.bind {α β : Type} {agree : α → α → Prop} {agreeThen : β → β → Prop}
    {first second : Except UsageFault α} {next next' : α → Except UsageFault β}
    (halike : Alike agree first second)
    (hnext : ∀ a a', agree a a' → Alike agreeThen (next a) (next' a')) :
    Alike agreeThen (first.bind next) (second.bind next') := by
  cases halike with
  | error fault => exact .error fault
  | ok hagree => exact hnext _ _ hagree

/-- The same request, but for the level of the log. -/
inductive Request.AgreeButForLevel : Request → Request → Prop where
  | help (detail : HelpDetail) : AgreeButForLevel (.help detail) (.help detail)
  | scan (options : Options) (level : Log.Level) :
    AgreeButForLevel (.scan options) (.scan { options with level })

namespace Draft

structure AgreeButForLevel (first second : Draft) : Prop where
  format_eq : first.format = second.format
  file_eq : first.file = second.file
  isSome_eq : first.level.isSome = second.level.isSome

theorem AgreeButForLevel.refl (draft : Draft) : draft.AgreeButForLevel draft := ⟨rfl, rfl, rfl⟩

variable {first second : Draft}

theorem AgreeButForLevel.options (hagree : first.AgreeButForLevel second) :
    Request.AgreeButForLevel (.scan first.options) (.scan second.options) := by
  have hoptions : second.options = { first.options with level := second.options.level } := by
    rw [Draft.options, Draft.options, hagree.format_eq, hagree.file_eq]
  rw [hoptions]
  exact .scan _ _

theorem AgreeButForLevel.chooseFile (hagree : first.AgreeButForLevel second) (file : List Char) :
    Alike AgreeButForLevel (first.chooseFile file) (second.chooseFile file) := by
  unfold Draft.chooseFile
  rw [hagree.file_eq]
  split
  · exact .error _
  · split
    · exact .error _
    · exact .ok ⟨hagree.format_eq, rfl, hagree.isSome_eq⟩

/-- Both take the same value, or values for the level that are both one. -/
theorem AgreeButForLevel.assign_logLevel (hagree : first.AgreeButForLevel second)
    {value value' : List Char} {level level' : Log.Level}
    (hlevel : Log.Level.ofText? value = some level)
    (hlevel' : Log.Level.ofText? value' = some level') :
    Alike AgreeButForLevel (first.assign .logLevel value) (second.assign .logLevel value') := by
  simp only [Draft.assign, hlevel, hlevel', hagree.isSome_eq]
  split
  · exact .error _
  · exact .ok ⟨hagree.format_eq, hagree.file_eq, rfl⟩

theorem AgreeButForLevel.assign (hagree : first.AgreeButForLevel second) (setting : Setting)
    (value : List Char) :
    Alike AgreeButForLevel (first.assign setting value) (second.assign setting value) := by
  cases setting with
  | format =>
      simp only [Draft.assign, hagree.format_eq]
      split
      · exact .error _
      · split
        · exact .error _
        · exact .ok ⟨rfl, hagree.file_eq, hagree.isSome_eq⟩
  | logLevel =>
      cases hlevel : Log.Level.ofText? value with
      | none =>
          simp only [Draft.assign, hlevel]
          exact .error _
      | some level => exact hagree.assign_logLevel hlevel hlevel

theorem AgreeButForLevel.readOperands (hagree : first.AgreeButForLevel second)
    (files : List (List Char)) :
    Alike Request.AgreeButForLevel (first.readOperands files) (second.readOperands files) := by
  have hfold : Alike AgreeButForLevel (files.foldlM Draft.chooseFile first)
      (files.foldlM Draft.chooseFile second) := by
    induction files generalizing first second with
    | nil => exact .ok hagree
    | cons file files ih =>
        rw [List.foldlM_cons, List.foldlM_cons]
        exact (hagree.chooseFile file).bind fun _ _ hagree => ih hagree
  exact hfold.bind fun _ _ hagree => .ok hagree.options

end Draft

/-! ## Difference in a level -/

/-- Lists of arguments that differ at most in which level stands behind the name of
that option, in the same argument or in the next one. -/
inductive DifferInLevel : List (List Char) → List (List Char) → Prop where
  | nil : DifferInLevel [] []
  | next {argument : List Char} {rest rest' : List (List Char)} (hne : argument ≠ "--".toList)
      (hrest : DifferInLevel rest rest') : DifferInLevel (argument :: rest) (argument :: rest')
  | ended (files : List (List Char)) : DifferInLevel ("--".toList :: files) ("--".toList :: files)
  | joined {value value' : List Char} {level level' : Log.Level} {rest rest' : List (List Char)}
      (hlevel : Log.Level.ofText? value = some level)
      (hlevel' : Log.Level.ofText? value' = some level') (hrest : DifferInLevel rest rest') :
      DifferInLevel (("--log-level=".toList ++ value) :: rest)
        (("--log-level=".toList ++ value') :: rest')
  | apart {value value' : List Char} {level level' : Log.Level} {rest rest' : List (List Char)}
      (hlevel : Log.Level.ofText? value = some level)
      (hlevel' : Log.Level.ofText? value' = some level') (hrest : DifferInLevel rest rest') :
      DifferInLevel ("--log-level".toList :: value :: rest)
        ("--log-level".toList :: value' :: rest')

namespace Argument

theorem ofText_joined (value : List Char) :
    ofText ("--log-level=".toList ++ value) = .option .logLevel (some value) := rfl

theorem ofText_logLevel : ofText "--log-level".toList = .option .logLevel none := rfl

theorem ofText_eq_endOfOptions {text : List Char} (hend : ofText text = .endOfOptions) :
    text = "--".toList := by
  unfold ofText at hend
  split at hend
  · rfl
  · split at hend
    split at hend
    · cases hend
    · split at hend <;> cases hend
  all_goals cases hend

/-- What stands for a level is not taken for an option. -/
theorem ofText_level {value : List Char} {level : Log.Level}
    (hlevel : Log.Level.ofText? value = some level) : ofText value = .operand value := by
  have hhyphen : '-' ∉ value := by
    intro hmem
    rcases Log.Level.number_or_name hlevel with ⟨number, hnumber⟩ | hname
    · rcases Log.Level.mem_number? hnumber hmem with hplus | hdigit
      · cases hplus
      · cases hdigit
    · have hin : Char.toUpper '-' ∈ level.name.toList := hname ▸ List.mem_map_of_mem hmem
      revert hin
      cases level <;> decide
  unfold ofText
  split
  · exact absurd (by simp) hhyphen
  · exact absurd (by simp) hhyphen
  · exact absurd (by simp) hhyphen
  · exact absurd (by simp) hhyphen
  · rfl

end Argument

namespace Draft

/-- How the first argument is read, and what is left to the others. -/
theorem readArguments_cons (draft : Draft) (argument : List Char) (rest : List (List Char)) :
    draft.readArguments (argument :: rest) =
      match Argument.ofText argument with
      | .operand file => (draft.chooseFile file).bind (·.readArguments rest)
      | .endOfOptions => draft.readOperands rest
      | .option setting (some value) => (draft.assign setting value).bind (·.readArguments rest)
      | .option setting none =>
        match rest with
        | [] => .error (.missingValue setting)
        | next :: rest =>
          match Argument.ofText next with
          | .operand value => (draft.assign setting value).bind (·.readArguments rest)
          | _ => .error (.missingValue setting)
      | .help detail => .ok (.help detail)
      | .unknown text => .error (.unknownOption text) := by
  rw [readArguments.eq_def]
  dsimp only
  cases Argument.ofText argument with
  | operand file =>
      dsimp only
      cases draft.chooseFile file <;> rfl
  | option setting value =>
      cases value with
      | some value =>
          dsimp only
          cases draft.assign setting value <;> rfl
      | none =>
          cases rest with
          | nil => rfl
          | cons next rest =>
              dsimp only
              cases Argument.ofText next with
              | operand value =>
                  dsimp only
                  cases draft.assign setting value <;> rfl
              | _ => rfl
  | _ => rfl

/-- Reading keeps the agreement of two drafts. -/
theorem AgreeButForLevel.readArguments {first second : Draft}
    (hagree : first.AgreeButForLevel second) {arguments arguments' : List (List Char)}
    (hdiffer : DifferInLevel arguments arguments') :
    Alike Request.AgreeButForLevel (first.readArguments arguments)
      (second.readArguments arguments') := by
  cases hdiffer with
  | nil => exact .ok hagree.options
  | ended files => exact hagree.readOperands files
  | joined hlevel hlevel' hrest =>
      rw [readArguments_cons, readArguments_cons, Argument.ofText_joined, Argument.ofText_joined]
      exact (hagree.assign_logLevel hlevel hlevel').bind fun _ _ hagree =>
        hagree.readArguments hrest
  | apart hlevel hlevel' hrest =>
      rw [readArguments_cons, readArguments_cons, Argument.ofText_logLevel]
      dsimp only
      rw [Argument.ofText_level hlevel, Argument.ofText_level hlevel']
      exact (hagree.assign_logLevel hlevel hlevel').bind fun _ _ hagree =>
        hagree.readArguments hrest
  | @next argument rest rest' hne hrest =>
      rw [readArguments_cons, readArguments_cons]
      cases hargument : Argument.ofText argument with
      | operand file =>
          exact (hagree.chooseFile file).bind fun _ _ hagree => hagree.readArguments hrest
      | endOfOptions => exact absurd (Argument.ofText_eq_endOfOptions hargument) hne
      | help detail => exact .ok (.help detail)
      | unknown text => exact .error _
      | option setting value =>
          cases value with
          | some value =>
              exact (hagree.assign setting value).bind fun _ _ hagree => hagree.readArguments hrest
          | none =>
              -- the value, if there is one, is the argument that follows
              cases hrest with
              | nil => exact .error _
              | ended files => exact .error _
              | joined => exact .error _
              | apart => exact .error _
              | @next value rest rest' hne hrest =>
                  dsimp only
                  cases Argument.ofText value with
                  | operand value =>
                      exact (hagree.assign setting value).bind fun _ _ hagree =>
                        hagree.readArguments hrest
                  | _ => exact .error _
termination_by arguments.length

end Draft

/-- Arguments that differ in a level come to requests that do. -/
theorem Request.alike_ofArguments {arguments arguments' : List String}
    (hdiffer : DifferInLevel (arguments.map String.toList) (arguments'.map String.toList)) :
    Alike Request.AgreeButForLevel (ofArguments arguments) (ofArguments arguments') :=
  (Draft.AgreeButForLevel.refl {}).readArguments hdiffer

end LoxTokens.CommandLine
