import LoxTokens.Json.Printer
import LoxTokens.Proofs.Json.Grammar
import LoxTokens.Proofs.Numbers.Writing

/-!
# What the printer writes

The text of a value writes this value, in every layout that puts nothing but
blanks between the parts.  So it is JSON, whatever numbers and strings the value
holds, and layouts differ in nothing that a reader sees.
-/

namespace LoxTokens

/-! ## Numbers -/

namespace Numeral

theorem isRun_toDigits (n : Nat) : IsRun (Nat.toDigits 10 n) :=
  ⟨Nat.toDigits_ne_nil, fun _ hmem => Nat.isDigit_of_mem_toDigits (by decide) (by decide) hmem⟩

theorem writesExponent_exponentChars (exponent : Option Int) :
    WritesExponent ((exponent.map exponentChars).getD []) exponent := by
  cases exponent with
  | none => exact .absent
  | some exponent =>
      refine .present List.mem_cons_self ?_
      have hrun := isRun_toDigits exponent.natAbs
      have hvalue : Nat.ofDigitChars 10 (Nat.toDigits 10 exponent.natAbs) 0 = exponent.natAbs :=
        Nat.ofDigitChars_ten_toDigits
      split
      · have hwrites := WritesPower.minus hrun
        rw [hvalue, show -(exponent.natAbs : Int) = exponent by omega] at hwrites
        exact hwrites
      · have hwrites := WritesPower.plus hrun
        rw [hvalue, show (exponent.natAbs : Int) = exponent by omega] at hwrites
        exact hwrites

/-- The text of a numeral writes it, digit by digit. -/
theorem writes_chars (x : Numeral) : Writes x.chars x := by
  have hsign : WritesSign (if x.negative then ['-'] else []) x.negative := by
    cases x.negative with
    | true => exact .minus
    | false => exact .plus
  have hwhole : IsWhole x.wholeDigits := ⟨isRun_toDigits _, wholeDigits_eq_zero⟩
  have hfraction : WritesFraction (if x.places = 0 then [] else '.' :: x.fractionDigits)
      x.fractionDigits := by
    have hlength := x.length_fractionDigits
    split
    · rename_i hplaces
      rw [hplaces] at hlength
      rw [List.eq_nil_of_length_eq_zero hlength]
      exact .absent
    · rename_i hplaces
      have hne : x.fractionDigits ≠ [] := by
        intro hnil
        rw [hnil] at hlength
        exact hplaces hlength.symm
      exact .present ⟨hne, fun _ => isDigit_of_mem_fractionDigits⟩
  have hwrites := Writes.parts hsign hwhole hfraction (writesExponent_exponentChars x.exponent)
  have hvalue : { ofDigits x.wholeDigits x.fractionDigits with
      negative := x.negative, exponent := x.exponent } = x := by
    unfold ofDigits
    rw [ofDigitChars_digits, length_fractionDigits]
  rw [hvalue] at hwrites
  exact hwrites

end Numeral

namespace Json

/-! ## Strings -/

theorem hexDigit?_digitChar : ∀ n < 16, hexDigit? (Nat.digitChar n) = some n := by
  decide

/-- Two digits write the unit of a control character. -/
theorem unit?_digitChar {n : Nat} (hsmall : n < 32) :
    unit? '0' '0' (Nat.digitChar (n / 16)) (Nat.digitChar (n % 16)) = some n := by
  have hzero : hexDigit? '0' = some 0 := rfl
  have hhigh := hexDigit?_digitChar (n / 16) (by omega)
  have hlow := hexDigit?_digitChar (n % 16) (by omega)
  simp only [unit?, hzero, hhigh, hlow, Option.bind_eq_bind, Option.bind_some]
  congr 1
  omega

theorem writesChar_escape (c : Char) : WritesChar (escape c) c := by
  unfold escape
  split
  any_goals exact .short (by decide)
  rename_i hquote hbackslash _ _ _ _ _
  split
  · rename_i hsmall
    exact .unit (unit?_digitChar hsmall)
  · rename_i hlarge
    exact .plain (Nat.le_of_not_lt hlarge) hquote hbackslash

theorem writesString_quote (text : String) : WritesString (quote text.toList) text := by
  have hquoted : WritesString
      ('"' :: ((text.toList.map fun c => (escape c, c)).flatMap Prod.fst ++ ['"']))
      (.ofList ((text.toList.map fun c => (escape c, c)).map Prod.snd)) := by
    apply WritesString.quoted
    intro char hmem
    obtain ⟨c, _, rfl⟩ := List.mem_map.mp hmem
    exact writesChar_escape c
  simpa [quote, List.flatMap_map, List.map_map, Function.comp_def] using hquoted

/-! ## Blanks -/

/-- A layout that writes nothing but blanks. -/
structure Layout.IsBlank (layout : Layout) : Prop where
  lineBreak : ∀ depth, ∀ c ∈ layout.lineBreak depth, isBlank c
  afterColon : ∀ c ∈ layout.afterColon, isBlank c

theorem Layout.isBlank_compact : Layout.compact.IsBlank := ⟨nofun, nofun⟩

theorem Layout.isBlank_pretty : Layout.pretty.IsBlank where
  lineBreak depth c hmem := by
    rcases List.mem_cons.mp hmem with rfl | hmem
    · rfl
    · rw [List.eq_of_mem_replicate hmem]
      rfl
  afterColon c hmem := by
    rw [List.mem_singleton.mp hmem]
    rfl

theorem Writes.blanksBefore {blanks text : List Char} {part : Part}
    (hblanks : ∀ c ∈ blanks, isBlank c) (hwrites : Writes text part) :
    Writes (blanks ++ text) part := by
  induction blanks with
  | nil => exact hwrites
  | cons c blanks ih =>
      obtain ⟨hblank, hblanks⟩ := List.forall_mem_cons.mp hblanks
      exact .blankBefore hblank (ih hblanks)

theorem Writes.blanksBehind {blanks text : List Char} {part : Part}
    (hblanks : ∀ c ∈ blanks, isBlank c) (hwrites : Writes text part) :
    Writes (text ++ blanks) part := by
  induction blanks generalizing text with
  | nil => simpa using hwrites
  | cons c blanks ih =>
      obtain ⟨hblank, hblanks⟩ := List.forall_mem_cons.mp hblanks
      simpa using ih hblanks (.blankBehind hblank hwrites)

/-! ## Sequences -/

section Sequence

variable {α : Type} {layout : Layout}

/-- Blanks behind the last item of a sequence belong to this item. -/
theorem exists_items (toPart : α → Part) (toText : α → List Char)
    {blanks : List Char} (hblanks : ∀ c ∈ blanks, isBlank c) {text : List Char} {first : α}
    {others : List α} (hfirst : Writes text (toPart first))
    (hothers : ∀ item ∈ others, Writes (toText item) (toPart item)) :
    ∃ (head : List Char × α) (tail : List (List Char × α)),
      (∀ item ∈ head :: tail, Writes item.1 (toPart item.2)) ∧
      head.2 = first ∧ tail.map Prod.snd = others ∧
      text ++ behindCommas (others.map toText) ++ blanks =
        head.1 ++ behindCommas (tail.map Prod.fst) := by
  induction others generalizing text first with
  | nil =>
      refine ⟨(text ++ blanks, first), [], ?_, rfl, rfl, by simp [behindCommas]⟩
      intro item hmem
      rw [List.mem_singleton.mp hmem]
      exact hfirst.blanksBehind hblanks
  | cons second others ih =>
      obtain ⟨hsecond, hothers⟩ := List.forall_mem_cons.mp hothers
      obtain ⟨head, tail, hitems, hhead, htail, htext⟩ := ih hsecond hothers
      refine ⟨(text, first), head :: tail, List.forall_mem_cons.mpr ⟨hfirst, hitems⟩, rfl, ?_, ?_⟩
      · rw [List.map_cons, hhead, htail]
      · simp only [behindCommas, List.map_cons, List.flatMap_cons, List.cons_append,
          List.append_assoc] at htext ⊢
        rw [htext]

end Sequence

/-! ## Values -/

/-- The text of a field on its own. -/
def fieldText (layout : Layout) (depth : Nat) (field : String × Json) : List Char :=
  quote field.1.toList ++ ':' :: (layout.afterColon ++ field.2.chars layout depth)

theorem itemChars_eq (layout : Layout) (depth : Nat) (items : List Json) :
    itemChars layout depth items =
      behindCommas (items.map fun item => layout.lineBreak depth ++ item.chars layout depth) := by
  induction items with
  | nil => simp [itemChars, behindCommas]
  | cons item items ih => simp [itemChars, behindCommas, ih]

theorem fieldChars_eq (layout : Layout) (depth : Nat) (fields : List (String × Json)) :
    fieldChars layout depth fields =
      behindCommas (fields.map fun field =>
        layout.lineBreak depth ++ fieldText layout depth field) := by
  induction fields with
  | nil => simp [fieldChars, behindCommas]
  | cons field fields ih =>
      obtain ⟨key, value⟩ := field
      simp [fieldChars, behindCommas, fieldText, ih]

variable {layout : Layout}

theorem writes_array (hlayout : layout.IsBlank) (depth : Nat) {items : List Json}
    (hitems : ∀ item ∈ items, Writes (item.chars layout (depth + 1)) (.value item)) :
    Writes ((Json.array items).chars layout depth) (.value (.array items)) := by
  cases items with
  | nil =>
      rw [chars]
      show Writes ('[' :: ([] ++ [']'])) _
      exact .emptyArray nofun
  | cons item items =>
      obtain ⟨hitem, hitems⟩ := List.forall_mem_cons.mp hitems
      have hbreak := hlayout.lineBreak (depth + 1)
      obtain ⟨head, tail, hparts, rfl, rfl, htext⟩ := exists_items Part.value
        (fun item => layout.lineBreak (depth + 1) ++ item.chars layout (depth + 1))
        (hlayout.lineBreak depth) (hitem.blanksBefore hbreak)
        fun item hmem => (hitems item hmem).blanksBefore hbreak
      have hwrites := Writes.array hparts
      rw [← htext, ← itemChars_eq] at hwrites
      simpa [chars] using hwrites

theorem writes_field (hlayout : layout.IsBlank) (depth : Nat) {field : String × Json}
    (hvalue : Writes (field.2.chars layout depth) (.value field.2)) :
    Writes (fieldText layout depth field) (.field field.1 field.2) :=
  .field (.string (writesString_quote field.1)) (hvalue.blanksBefore hlayout.afterColon)

theorem writes_object (hlayout : layout.IsBlank) (depth : Nat) {fields : List (String × Json)}
    (hfields : ∀ field ∈ fields, Writes (field.2.chars layout (depth + 1)) (.value field.2)) :
    Writes ((Json.object fields).chars layout depth) (.value (.object fields)) := by
  cases fields with
  | nil =>
      rw [chars]
      show Writes ('{' :: ([] ++ ['}'])) _
      exact .emptyObject nofun
  | cons field fields =>
      obtain ⟨hfield, hfields⟩ := List.forall_mem_cons.mp hfields
      have hbreak := hlayout.lineBreak (depth + 1)
      obtain ⟨head, tail, hparts, rfl, rfl, htext⟩ :=
        exists_items (fun field : String × Json => Part.field field.1 field.2)
          (fun field => layout.lineBreak (depth + 1) ++ fieldText layout (depth + 1) field)
          (hlayout.lineBreak depth) ((writes_field hlayout (depth + 1) hfield).blanksBefore hbreak)
          fun field hmem =>
            (writes_field hlayout (depth + 1) (hfields field hmem)).blanksBefore hbreak
      have hwrites := Writes.object hparts
      rw [← htext, ← fieldChars_eq] at hwrites
      simpa [chars, fieldText] using hwrites

/-- **The text of a value writes this value.** -/
theorem writes_chars (hlayout : layout.IsBlank) (depth : Nat) (value : Json) :
    Writes (value.chars layout depth) (.value value) := by
  match value with
  | .null => exact .nullWord
  | .bool true => exact .trueWord
  | .bool false => exact .falseWord
  | .number numeral => exact .number numeral.writes_chars
  | .string text => exact .string (writesString_quote text)
  | .array items =>
      apply writes_array hlayout depth
      intro item hmem
      have hless := List.sizeOf_lt_of_mem hmem
      exact writes_chars hlayout (depth + 1) item
  | .object fields =>
      apply writes_object hlayout depth
      intro field hmem
      have hless := List.sizeOf_lt_of_mem hmem
      obtain ⟨key, value⟩ := field
      exact writes_chars hlayout (depth + 1) value
termination_by sizeOf value
decreasing_by
  all_goals simp_wf
  · omega
  · simp at hless
    omega

end Json

end LoxTokens
