import LoxTokens.Proofs.CommandLine.Arrangements
import LoxTokens.Proofs.CommandLine.Interference
import LoxTokens.Proofs.Log.Spellings
import Mathlib.Logic.Relation

/-!
# Arguments in another order

Since choices can be settled in any order, neither the order of the groups nor the way in
which an option is written matters, nor on which side of the end of the options the file
stands.  A run comes to the very same outcome.

A choice more for a slot that is filled cannot be made in any order, wherever it stands, and
so nothing is scanned or printed.
-/

namespace LoxTokens.CommandLine

/-! ## Requests -/

namespace Arrangement

/-- What the arguments ask for, if anything. -/
theorem toOption_ofArguments {arrangement : Arrangement} (hreadable : arrangement.IsReadable) :
    (Request.ofArguments arrangement.arguments).toOption =
      (Draft.settleAll? {} arrangement.choices).map fun settled => .scan settled.options := by
  have htexts : arrangement.arguments.map String.toList = arrangement.texts := by
    rw [arguments, List.map_map]
    exact (List.map_congr_left fun text _ => String.toList_ofList).trans (List.map_id _)
  rw [Request.ofArguments, htexts, Draft.readArguments_texts {} hreadable,
    ← Draft.toOption_foldlM_settle]
  cases arrangement.choices.foldlM Draft.settle {} with
  | error fault => rfl
  | ok settled => rfl

/-- The arguments that ask for a scan are those that are arranged as they should be. -/
theorem exists_scan_iff (arguments : List String) :
    (∃ options, Request.ofArguments arguments = .ok (.scan options)) ↔
      ∃ arrangement : Arrangement, arrangement.IsAccepted ∧ arrangement.arguments = arguments := by
  constructor
  · rintro ⟨options, hrequest⟩
    obtain ⟨arrangement, hreadable, htexts⟩ := Draft.exists_texts_eq hrequest
    have harguments : arrangement.arguments = arguments := by
      rw [Arrangement.arguments, htexts, List.map_map]
      exact (List.map_congr_left fun text _ => String.ofList_toList).trans (List.map_id _)
    refine ⟨arrangement, (isAccepted_iff arrangement).mpr ⟨hreadable, ?_⟩, harguments⟩
    have hsettled := toOption_ofArguments hreadable
    rw [harguments, hrequest] at hsettled
    cases hchoices : Draft.settleAll? {} arrangement.choices with
    | none =>
        rw [hchoices] at hsettled
        cases hsettled
    | some settled => rfl
  · rintro ⟨arrangement, haccepted, rfl⟩
    obtain ⟨hreadable, hsome⟩ := (isAccepted_iff arrangement).mp haccepted
    obtain ⟨settled, hsettled⟩ := Option.isSome_iff_exists.mp hsome
    have hrequest := toOption_ofArguments hreadable
    rw [hsettled] at hrequest
    refine ⟨settled.options, ?_⟩
    cases hread : Request.ofArguments arrangement.arguments with
    | error fault =>
        rw [hread] at hrequest
        cases hrequest
    | ok request =>
        rw [hread] at hrequest
        exact congrArg Except.ok (Option.some.inj hrequest)

end Arrangement

/-! ## Other arrangements of the same choices -/

namespace Arrangement

/-- One change to an arrangement that keeps what it asks for. -/
inductive Step : Arrangement → Arrangement → Prop where
  /-- The groups are put in another order. -/
  | permute {groups groups' : List Group} (operands : Option (List (List Char)))
      (hperm : groups.Perm groups') : Step ⟨groups, operands⟩ ⟨groups', operands⟩
  /-- An option is joined with its value, or parted from it. -/
  | respell (front back : List Group) (spelling spelling' : Spelling) (setting : Setting)
      (value : List Char) (operands : Option (List (List Char))) :
      Step ⟨front ++ .option spelling setting value :: back, operands⟩
        ⟨front ++ .option spelling' setting value :: back, operands⟩
  /-- The level is named in letters of other case. -/
  | recase (front back : List Group) (spelling : Spelling) {value value' : List Char}
      (operands : Option (List (List Char)))
      (hcase : value.map Char.toUpper = value'.map Char.toUpper) :
      Step ⟨front ++ .option spelling .logLevel value :: back, operands⟩
        ⟨front ++ .option spelling .logLevel value' :: back, operands⟩
  /-- The level is given by its number. -/
  | number (front back : List Group) (spelling : Spelling) {value : List Char} {level : Log.Level}
      (operands : Option (List (List Char))) (hlevel : Log.Level.ofText? value = some level) :
      Step ⟨front ++ .option spelling .logLevel value :: back, operands⟩
        ⟨front ++ .option spelling .logLevel (Nat.toDigits 10 level.rank) :: back, operands⟩
  /-- A file goes behind the end of the options, which need not have been marked so far. -/
  | move (front back : List Group) {name : List Char} (operands : Option (List (List Char)))
      (hname : name.head? = some '-' → name = ['-']) :
      Step ⟨front ++ .file name :: back, operands⟩
        ⟨front ++ back, some (name :: operands.getD [])⟩

/-- Whether two arrangements are read alike. -/
structure IsEquivalent (first second : Arrangement) : Prop where
  isReadable_iff : first.IsReadable ↔ second.IsReadable
  settleAll?_eq : Draft.settleAll? {} first.choices = Draft.settleAll? {} second.choices

variable {first second : Arrangement}

theorem isReadable_append_cons_iff (front back : List Group) (group : Group)
    (operands : Option (List (List Char))) :
    IsReadable ⟨front ++ group :: back, operands⟩ ↔
      group.IsReadable ∧ IsReadable ⟨front ++ back, operands⟩ := by
  rw [IsReadable, List.forall_mem_append, List.forall_mem_cons, IsReadable,
    List.forall_mem_append]
  tauto

theorem choices_perm (front back : List Group) (group : Group)
    (operands : Option (List (List Char))) :
    (choices ⟨front ++ group :: back, operands⟩).Perm
      (group.choice :: choices ⟨front ++ back, operands⟩) := by
  rw [choices, List.map_append, List.map_cons, List.append_assoc, choices, List.map_append,
    List.append_assoc]
  exact List.perm_middle

theorem choices_operand_perm (groups : List Group) (front back : List (List Char))
    (name : List Char) :
    (choices ⟨groups, some (front ++ name :: back)⟩).Perm
      (.file name :: choices ⟨groups, some (front ++ back)⟩) := by
  simp only [choices, Option.getD_some, List.map_append, List.map_cons, ← List.append_assoc]
  exact List.perm_middle

/-- A group stands for another one that is as readable and makes a choice to the same end. -/
theorem IsEquivalent.of_replace (front back : List Group) {group group' : Group}
    (operands : Option (List (List Char)))
    (hreadable : group.IsReadable ↔ group'.IsReadable)
    (hsettle : ∀ draft : Draft, draft.settle? group.choice = draft.settle? group'.choice) :
    IsEquivalent ⟨front ++ group :: back, operands⟩ ⟨front ++ group' :: back, operands⟩ where
  isReadable_iff := by
    rw [isReadable_append_cons_iff, isReadable_append_cons_iff, hreadable]
  settleAll?_eq := by
    rw [Draft.settleAll?_perm (choices_perm front back group operands),
      Draft.settleAll?_perm (choices_perm front back group' operands), Draft.settleAll?_cons,
      Draft.settleAll?_cons, hsettle]

/-- Two texts that stand for the same level stand for one another. -/
theorem IsEquivalent.of_level (front back : List Group) (spelling : Spelling)
    {value value' : List Char} (operands : Option (List (List Char)))
    (hlevel : Log.Level.ofText? value = Log.Level.ofText? value') :
    IsEquivalent ⟨front ++ .option spelling .logLevel value :: back, operands⟩
      ⟨front ++ .option spelling .logLevel value' :: back, operands⟩ := by
  apply IsEquivalent.of_replace
  · rw [Group.IsReadable, Group.IsReadable, Setting.Accepts, Setting.Accepts, hlevel]
  · intro draft
    rw [Group.choice, Group.choice, Draft.settle?_logLevel, Draft.settle?_logLevel, hlevel]

theorem Step.isEquivalent (hstep : Step first second) : first.IsEquivalent second := by
  cases hstep with
  | permute operands hperm =>
      constructor
      · exact ⟨fun h group hmem => h group (hperm.mem_iff.mpr hmem),
          fun h group hmem => h group (hperm.mem_iff.mp hmem)⟩
      · apply Draft.settleAll?_perm
        exact (hperm.map Group.choice).append_right _
  | respell front back spelling spelling' setting value operands =>
      exact .of_replace front back operands Iff.rfl fun draft => rfl
  | recase front back spelling operands hcase =>
      exact .of_level front back spelling operands (Log.Level.ofText?_eq_of_map_toUpper_eq hcase)
  | number front back spelling operands hlevel =>
      exact .of_level front back spelling operands
        (hlevel.trans (Log.Level.ofText?_toDigits_rank _).symm)
  | move front back operands hname =>
      constructor
      · rw [isReadable_append_cons_iff]
        exact and_iff_right hname
      · apply Draft.settleAll?_perm
        exact (choices_perm front back (.file _) operands).trans
          (choices_operand_perm _ [] (operands.getD []) _).symm

theorem isEquivalent_of_eqvGen (hsteps : Relation.EqvGen Step first second) :
    first.IsEquivalent second := by
  induction hsteps with
  | rel _ _ hstep => exact hstep.isEquivalent
  | refl _ => exact ⟨Iff.rfl, rfl⟩
  | symm _ _ _ ih => exact ⟨ih.isReadable_iff.symm, ih.settleAll?_eq.symm⟩
  | trans _ _ _ _ _ ih ih' =>
      exact ⟨ih.isReadable_iff.trans ih'.isReadable_iff,
        ih.settleAll?_eq.trans ih'.settleAll?_eq⟩

theorem IsEquivalent.isAccepted (hequivalent : first.IsEquivalent second)
    (haccepted : first.IsAccepted) : second.IsAccepted := by
  obtain ⟨hreadable, hsome⟩ := (isAccepted_iff first).mp haccepted
  refine (isAccepted_iff second).mpr ⟨hequivalent.isReadable_iff.mp hreadable, ?_⟩
  rw [← hequivalent.settleAll?_eq]
  exact hsome

/-- Arguments that are accepted and read alike ask for the same scan. -/
theorem IsEquivalent.ofArguments_eq (hequivalent : first.IsEquivalent second)
    (haccepted : first.IsAccepted) :
    Request.ofArguments second.arguments = Request.ofArguments first.arguments := by
  obtain ⟨options, hfirst⟩ := (exists_scan_iff first.arguments).mpr ⟨first, haccepted, rfl⟩
  obtain ⟨options', hsecond⟩ := (exists_scan_iff second.arguments).mpr
    ⟨second, hequivalent.isAccepted haccepted, rfl⟩
  have hsame : (Request.ofArguments first.arguments).toOption =
      (Request.ofArguments second.arguments).toOption := by
    rw [toOption_ofArguments haccepted.isReadable,
      toOption_ofArguments (hequivalent.isAccepted haccepted).isReadable,
      hequivalent.settleAll?_eq]
  rw [hfirst, hsecond] at hsame
  rw [hfirst, hsecond]
  exact congrArg Except.ok (Option.some.inj hsame).symm

end Arrangement

theorem run_eq_of_ofArguments_eq {arguments arguments' : List String}
    (hrequest : Request.ofArguments arguments = Request.ofArguments arguments')
    (surroundings : Surroundings) : run arguments surroundings = run arguments' surroundings := by
  rw [run, Plan.ofArguments, hrequest, run, Plan.ofArguments]

/-! ## A choice too many -/

namespace Arrangement

/-- Whether an option is given, or the file, where no option is named. -/
def Gives (arrangement : Arrangement) (slot : Option Setting) : Prop :=
  slot ∈ arrangement.choices.map Choice.slot

instance (arrangement : Arrangement) (slot : Option Setting) :
    Decidable (arrangement.Gives slot) :=
  inferInstanceAs (Decidable (slot ∈ _))

/-- If something is given twice, the arguments are refused. -/
theorem run_of_gives_twice {arrangement accepted : Arrangement} {choice : Choice}
    (hreadable : arrangement.IsReadable)
    (hperm : arrangement.choices.Perm (choice :: accepted.choices))
    (hgives : accepted.Gives choice.slot) (surroundings : Surroundings) :
    (run arrangement.arguments surroundings).status.code = 2 ∧
      (run arrangement.arguments surroundings).output = [] := by
  have hnone : Draft.settleAll? {} arrangement.choices = none := by
    rw [← Option.not_isSome_iff_eq_none, Draft.settleAll?_perm hperm, Draft.isSome_settleAll?_iff]
    rintro ⟨-, hnodup⟩
    rw [List.map_cons, List.nodup_cons] at hnodup
    exact hnodup.1 hgives
  have hrequest := toOption_ofArguments hreadable
  rw [hnone] at hrequest
  cases hread : Request.ofArguments arrangement.arguments with
  | error fault =>
      rw [run_of_error hread]
      exact ⟨rfl, rfl⟩
  | ok request =>
      rw [hread] at hrequest
      cases hrequest

end Arrangement

/-! ## Every arrangement -/

/-- **The order of the arguments and the way they are written do not matter.**  The
arguments that ask for a scan are those that give each option at most once, with a value that
it can have, and at most one file.  A run with these arguments comes to the same outcome if
they are put in another order, if options are joined with their values or parted from them, if
the level is written in other letters or as a number, and if the file goes behind the end of
the options.  With one more occurrence of an option or of a file that is given, wherever
it stands, the arguments are refused and nothing is printed. -/
theorem run_arranged :
    (∀ arguments : List String,
      (∃ options, Request.ofArguments arguments = .ok (.scan options)) ↔
        ∃ arrangement : Arrangement,
          arrangement.IsAccepted ∧ arrangement.arguments = arguments) ∧
    (∀ first second : Arrangement, first.IsAccepted →
      Relation.EqvGen Arrangement.Step first second →
      second.IsAccepted ∧
        ∀ surroundings, run second.arguments surroundings = run first.arguments surroundings) ∧
    (∀ (front back : List Group) (group : Group) (operands : Option (List (List Char))),
      let accepted : Arrangement := ⟨front ++ back, operands⟩
      let refused : Arrangement := ⟨front ++ group :: back, operands⟩
      accepted.IsAccepted → group.IsReadable → accepted.Gives group.choice.slot →
        ∀ surroundings,
          (run refused.arguments surroundings).status.code = 2 ∧
            (run refused.arguments surroundings).output = []) ∧
    ∀ (groups : List Group) (front back : List (List Char)) (name : List Char),
      let accepted : Arrangement := ⟨groups, some (front ++ back)⟩
      let refused : Arrangement := ⟨groups, some (front ++ name :: back)⟩
      accepted.IsAccepted → accepted.Gives none →
        ∀ surroundings,
          (run refused.arguments surroundings).status.code = 2 ∧
            (run refused.arguments surroundings).output = [] := by
  refine ⟨Arrangement.exists_scan_iff, ?_, ?_, ?_⟩
  · intro first second haccepted hsteps
    have hequivalent := Arrangement.isEquivalent_of_eqvGen hsteps
    exact ⟨hequivalent.isAccepted haccepted,
      run_eq_of_ofArguments_eq (hequivalent.ofArguments_eq haccepted)⟩
  · intro front back group operands accepted refused haccepted hgroup hgives
    apply Arrangement.run_of_gives_twice _ (Arrangement.choices_perm front back group operands)
      hgives
    exact (Arrangement.isReadable_append_cons_iff front back group operands).mpr
      ⟨hgroup, haccepted.isReadable⟩
  · intro groups front back name accepted refused haccepted hgives
    exact Arrangement.run_of_gives_twice haccepted.isReadable
      (Arrangement.choices_operand_perm groups front back name) hgives

/-- A file and a level, arranged in two ways, and with a second level or a second file. -/
theorem run_arranged_file_and_level :
    (∀ surroundings, run ["--log-level=4", "--", "a.lox"] surroundings =
      run ["a.lox", "--log-level", "Debug"] surroundings) ∧
    (run ["a.lox", "--log-level=1", "--log-level", "Debug"] {}).status.code = 2 ∧
    (run ["--log-level=4", "--", "-b", "a.lox"] {}).output = [] := by
  obtain ⟨-, hsteps, hgroup, hoperand⟩ := run_arranged
  have haccepted : Arrangement.IsAccepted
      ⟨[.file "a.lox".toList, .option .apart .logLevel "Debug".toList], none⟩ := by
    constructor
    · exact List.forall_mem_cons.mpr
        ⟨fun hhyphen => absurd hhyphen (by decide), List.forall_mem_singleton.mpr rfl⟩
    · exact List.forall_mem_cons.mpr
        ⟨List.cons_ne_nil _ _, List.forall_mem_singleton.mpr rfl⟩
    · decide
  have harranged : Relation.EqvGen Arrangement.Step
      ⟨[.file "a.lox".toList, .option .apart .logLevel "Debug".toList], none⟩
      ⟨[.option .joined .logLevel "4".toList], some ["a.lox".toList]⟩ := by
    refine .trans _ _ _ (.rel _ _ (.move [] _ none fun hhyphen => absurd hhyphen (by decide))) ?_
    refine .trans _ _ _ (.rel _ _ (.respell [] [] .apart .joined .logLevel _ _)) ?_
    exact .rel _ _ (@Arrangement.Step.number [] [] .joined _ .debug _ rfl)
  obtain ⟨haccepted', hsame⟩ := hsteps _ _ haccepted harranged
  refine ⟨hsame, ?_, ?_⟩
  · exact (hgroup [.file "a.lox".toList] _ (.option .joined .logLevel "1".toList) none haccepted rfl
      (by decide) {}).1
  · exact (hoperand _ [] ["a.lox".toList] "-b".toList haccepted' (by decide) {}).2

end LoxTokens.CommandLine
