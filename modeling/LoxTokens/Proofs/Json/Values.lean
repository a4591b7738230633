import LoxTokens.Proofs.Json.Scalars

/-!
# Values are read

The reader finds every value that the grammar gives a text, blanks around it
included, whatever follows that can follow a value.  The proof goes along the
grammar: an array or an object is read since its items are, with one level of
depth less.  Hence no text writes two values.
-/

namespace LoxTokens.Json

variable {rest : List Char}

/-! ## What follows a value -/

/-- The rest of a text behind a value. -/
def Follows (rest : List Char) : Prop :=
  ∀ c ∈ rest.head?, isBlank c ∨ c ∈ [',', ':', ']', '}']

theorem Follows.ends (hfollows : Follows rest) : Numeral.Ends rest := by
  intro c hc
  rcases hfollows c hc with hblank | hmem
  · simp only [isBlank, Bool.or_eq_true, decide_eq_true_eq] at hblank
    rcases hblank with ((rfl | rfl) | rfl) | rfl <;> exact ⟨rfl, by decide⟩
  · simp only [List.mem_cons, List.not_mem_nil, or_false] at hmem
    rcases hmem with rfl | rfl | rfl | rfl <;> exact ⟨rfl, by decide⟩

theorem skipBlanks_cons {c : Char} (hblank : isBlank c = true) (text : List Char) :
    skipBlanks (c :: text) = skipBlanks text := by
  simp [skipBlanks, hblank]

theorem skipBlanks_cons_of_not {c : Char} (hblank : isBlank c = false) (text : List Char) :
    skipBlanks (c :: text) = c :: text := by
  simp [skipBlanks, hblank]

theorem skipBlanks_append {blanks : List Char} (hblanks : ∀ c ∈ blanks, isBlank c)
    (rest : List Char) : skipBlanks (blanks ++ rest) = skipBlanks rest :=
  List.dropWhile_append_of_pos hblanks

/-- The characters that stand behind a value are no blanks. -/
theorem isBlank_eq_false_of_mem {c : Char} (hmem : c ∈ [',', ':', ']', '}']) :
    isBlank c = false := by
  simp only [List.mem_cons, List.not_mem_nil, or_false] at hmem
  rcases hmem with rfl | rfl | rfl | rfl <;> rfl

theorem mem_follows_of_close {close : Char} (hclose : close ∈ [']', '}']) :
    close ∈ [',', ':', ']', '}'] :=
  List.mem_cons_of_mem _ (List.mem_cons_of_mem _ hclose)

theorem follows_cons {c : Char} (hmem : c ∈ [',', ':', ']', '}']) (rest : List Char) :
    Follows (c :: rest) := by
  intro d hd
  obtain rfl := Option.some.inj hd
  exact Or.inr hmem

theorem follows_blank {c : Char} (hblank : isBlank c = true) (rest : List Char) :
    Follows (c :: rest) := by
  intro d hd
  obtain rfl := Option.some.inj hd
  exact Or.inl hblank

theorem readPadded?_blank {read? : List Char → Option (Json × List Char)} {c : Char}
    (hblank : isBlank c = true) (text : List Char) :
    readPadded? read? (c :: text) = readPadded? read? text := by
  unfold readPadded?
  rw [skipBlanks_cons hblank]

theorem readField?_blank {read? : List Char → Option (Json × List Char)} {c : Char}
    (hblank : isBlank c = true) (text : List Char) :
    readField? read? (c :: text) = readField? read? text := by
  unfold readField?
  rw [readPadded?_blank hblank]

/-! ## Sequences -/

section Sequence

variable {α : Type} {read? : List Char → Option (α × List Char)} {close : Char}

/-- A reader reads a text as this item, whatever follows. -/
def ReadsItem (read? : List Char → Option (α × List Char)) (item : List Char × α) : Prop :=
  ∀ rest, Follows rest → read? (item.1 ++ rest) = some (item.2, skipBlanks rest)

/-- A blank in front of an item is one that the reader passes over. -/
theorem ReadsItem.blankBefore {text : List Char} {item : α} {c : Char}
    (hitem : ReadsItem read? (text, item)) (hskip : ∀ text, read? (c :: text) = read? text) :
    ReadsItem read? (c :: text, item) := by
  intro rest hfollows
  exact (hskip (text ++ rest)).trans (hitem rest hfollows)

theorem ReadsItem.blankBehind {text : List Char} {item : α} {c : Char}
    (hitem : ReadsItem read? (text, item)) (hblank : isBlank c = true) :
    ReadsItem read? (text ++ [c], item) := by
  intro rest _
  rw [List.append_assoc, ← skipBlanks_cons hblank rest]
  exact hitem (c :: rest) (follows_blank hblank rest)

/-- An item of a sequence is read up to the next comma or the closing bracket. -/
theorem ReadsItem.read?_append {item : List Char × α} (hitem : ReadsItem read? item)
    (hclose : close ∈ [']', '}']) (others : List (List Char)) (rest : List Char) :
    read? (item.1 ++ (behindCommas others ++ close :: rest)) =
      some (item.2, behindCommas others ++ close :: rest) := by
  have hnext : ∃ c text, c ∈ [',', ':', ']', '}'] ∧
      behindCommas others ++ close :: rest = c :: text := by
    cases others with
    | nil => exact ⟨close, rest, mem_follows_of_close hclose, rfl⟩
    | cons text others => exact ⟨',', _, List.mem_cons_self, rfl⟩
  obtain ⟨c, text, hmem, htext⟩ := hnext
  rw [htext, hitem _ (follows_cons hmem text),
    skipBlanks_cons_of_not (isBlank_eq_false_of_mem hmem)]

theorem readOthers?_append (hclose : close ∈ [']', '}']) {others : List (List Char × α)}
    (hothers : ∀ item ∈ others, ReadsItem read? item) (rest : List Char) {fuel : Nat}
    (hfuel : others.length < fuel) :
    readOthers? read? close fuel (behindCommas (others.map Prod.fst) ++ close :: rest) =
      some (others.map Prod.snd, rest) := by
  induction others generalizing fuel with
  | nil =>
      obtain ⟨fuel, rfl⟩ := Nat.exists_eq_add_one.mpr hfuel
      simp [readOthers?, behindCommas]
  | cons item others ih =>
      obtain ⟨fuel, rfl⟩ := Nat.exists_eq_add_one.mpr (Nat.zero_lt_of_lt hfuel)
      obtain ⟨hitem, hothers⟩ := List.forall_mem_cons.mp hothers
      have hne : (',' : Char) ≠ close := by
        rintro rfl
        exact absurd hclose (by decide)
      have hread := hitem.read?_append hclose (others.map Prod.fst) rest
      have hrest := ih hothers (Nat.lt_of_succ_lt_succ hfuel)
      show readOthers? read? close (fuel + 1)
        (',' :: (item.1 ++ behindCommas (others.map Prod.fst)) ++ close :: rest) = _
      rw [List.cons_append, List.append_assoc, readOthers?, if_neg hne, if_pos rfl]
      simp [hread, hrest]

theorem length_le_behindCommas (texts : List (List Char)) :
    texts.length ≤ (behindCommas texts).length := by
  induction texts with
  | nil => exact Nat.le_refl 0
  | cons text texts ih =>
      simp only [behindCommas, List.flatMap_cons, List.cons_append, List.length_cons,
        List.length_append] at ih ⊢
      omega

/-- A sequence is read to its closing bracket if its items are read. -/
theorem readSequence?_append (hclose : close ∈ [']', '}']) {first : List Char × α}
    {others : List (List Char × α)} (hitems : ∀ item ∈ first :: others, ReadsItem read? item)
    (rest : List Char) :
    readSequence? read? close
        (first.1 ++ behindCommas (others.map Prod.fst) ++ [close] ++ rest) =
      some (first.2 :: others.map Prod.snd, rest) := by
  obtain ⟨hfirst, hothers⟩ := List.forall_mem_cons.mp hitems
  have hread := hfirst.read?_append hclose (others.map Prod.fst) rest
  have hfuel : others.length < (behindCommas (others.map Prod.fst) ++ close :: rest).length := by
    have hlength := length_le_behindCommas (others.map Prod.fst)
    rw [List.length_map] at hlength
    rw [List.length_append, List.length_cons]
    omega
  have hrest := readOthers?_append hclose hothers rest hfuel
  rw [List.append_assoc, List.append_assoc]
  unfold readSequence?
  rw [List.singleton_append, hread]
  simp only [Option.bind_eq_bind, hrest, Option.bind_some]

/-- A sequence without items is read if no item is read from its bracket. -/
theorem readSequence?_blanks {blanks : List Char} (hblanks : ∀ c ∈ blanks, isBlank c)
    (hclose : isBlank close = false) (rest : List Char)
    (hnone : read? (blanks ++ [close] ++ rest) = none) :
    readSequence? read? close (blanks ++ [close] ++ rest) = some ([], rest) := by
  unfold readSequence?
  rw [hnone, List.append_assoc, skipBlanks_append hblanks, List.singleton_append,
    skipBlanks_cons_of_not hclose]
  exact if_pos rfl

end Sequence

/-- A field is read if its name and its value are. -/
theorem ReadsItem.field {read? : List Char → Option (Json × List Char)} {key text : List Char}
    {name : String} {value : Json} (hkey : ReadsItem (readPadded? read?) (key, .string name))
    (hvalue : ReadsItem (readPadded? read?) (text, value)) :
    ReadsItem (readField? read?) (key ++ ':' :: text, name, value) := by
  have hcolon : ':' ∈ [',', ':', ']', '}'] := List.mem_cons_of_mem _ List.mem_cons_self
  intro rest hfollows
  have hname := hkey (':' :: (text ++ rest)) (follows_cons hcolon _)
  rw [skipBlanks_cons_of_not rfl] at hname
  show readField? read? (key ++ ':' :: text ++ rest) = _
  unfold readField?
  rw [List.append_assoc, List.cons_append, hname]
  simp only [hvalue rest hfollows]
  rfl

/-! ## Values -/

/-- No value begins with a closing bracket. -/
theorem readPadded?_blanks {blanks : List Char} (hblanks : ∀ c ∈ blanks, isBlank c) {close : Char}
    (hclose : close ∈ [']', '}']) (rest : List Char) (depth : Nat) :
    readPadded? (readValue? depth) (blanks ++ [close] ++ rest) = none := by
  have hnone : readValue? depth (close :: rest) = none := by
    simp only [List.mem_cons, List.not_mem_nil, or_false] at hclose
    rcases hclose with rfl | rfl <;> cases depth <;> rfl
  have hblank : isBlank close = false := isBlank_eq_false_of_mem (mem_follows_of_close hclose)
  unfold readPadded?
  rw [List.append_assoc, skipBlanks_append hblanks, List.singleton_append,
    skipBlanks_cons_of_not hblank, hnone]
  rfl

/-- A part of a JSON text is read as what it stands for. -/
def IsRead (depth : Nat) (text : List Char) : Part → Prop
  | .value value => ReadsItem (readPadded? (readValue? depth)) (text, value)
  | .field name value => ReadsItem (readField? (readValue? depth)) (text, name, value)

/-- A value that does not begin with a blank is read behind no blanks. -/
theorem readsItem_of_readValue? {depth : Nat} {c : Char} {text : List Char} {value : Json}
    (hc : isBlank c = false) (hdepth : (c :: text).length ≤ depth)
    (hread : ∀ inner, text.length ≤ inner → ∀ rest, Follows rest →
      readValue? (inner + 1) (c :: (text ++ rest)) = some (value, rest)) :
    ReadsItem (readPadded? (readValue? depth)) (c :: text, value) := by
  obtain ⟨inner, rfl⟩ := Nat.exists_eq_add_one.mpr (Nat.zero_lt_of_lt hdepth)
  intro rest hfollows
  show readPadded? _ (c :: (text ++ rest)) = _
  unfold readPadded?
  rw [skipBlanks_cons_of_not hc, hread inner (Nat.le_of_succ_le_succ hdepth) rest hfollows]
  rfl

theorem isBlank_eq_false_of_number {c : Char} (hc : c = '-' ∨ c.isDigit = true) :
    isBlank c = false := by
  apply Bool.eq_false_iff.mpr
  intro hblank
  simp only [isBlank, Bool.or_eq_true, decide_eq_true_eq] at hblank
  rcases hblank with ((rfl | rfl) | rfl) | rfl <;> exact absurd hc (by decide)

/-- What begins with a digit or a sign is read as a number. -/
theorem readValue?_number {c : Char} (hc : c = '-' ∨ c.isDigit = true) (inner : Nat)
    (text : List Char) :
    readValue? (inner + 1) (c :: text) =
      (Numeral.read? (c :: text)).map fun (numeral, text) => (.number numeral, text) := by
  have hne : ∀ d : Char, d ≠ '-' → d.isDigit = false → c ≠ d := by
    rintro d hsign hdigit rfl
    rcases hc with rfl | hc
    · exact hsign rfl
    · rw [hc] at hdigit
      cases hdigit
  unfold readValue?
  split
  all_goals first
    | rfl
    | rename_i htext
      exact absurd (List.cons.inj htext).1 (hne _ (by decide) (by decide))

theorem length_le_of_mem_texts {text : List Char} {texts : List (List Char)} (hmem : text ∈ texts) :
    text.length ≤ (behindCommas texts).length := by
  induction texts with
  | nil => cases hmem
  | cons first texts ih =>
      simp only [behindCommas, List.flatMap_cons, List.cons_append, List.length_cons,
        List.length_append] at ih ⊢
      rcases List.mem_cons.mp hmem with rfl | hmem
      · omega
      · have hle := ih hmem
        omega

/-- An item is no longer than its sequence with the closing bracket. -/
theorem length_item_le {α : Type} {first : List Char × α} {others : List (List Char × α)}
    {item : List Char × α} (hmem : item ∈ first :: others) (close : Char) :
    item.1.length ≤ (first.1 ++ behindCommas (others.map Prod.fst) ++ [close]).length := by
  rw [List.length_append, List.length_append]
  rcases List.mem_cons.mp hmem with rfl | hmem
  · omega
  · have hle := length_le_of_mem_texts (List.mem_map_of_mem (f := Prod.fst) hmem)
    omega

theorem WritesChar.length_pos {text : List Char} {c : Char} (hwrites : WritesChar text c) :
    0 < text.length := by
  cases hwrites <;> exact Nat.zero_lt_succ _

theorem length_le_flatMap {chars : List (List Char × Char)}
    (hchars : ∀ char ∈ chars, WritesChar char.1 char.2) :
    chars.length ≤ (chars.flatMap Prod.fst).length := by
  induction chars with
  | nil => exact Nat.le_refl 0
  | cons char chars ih =>
      obtain ⟨hchar, hchars⟩ := List.forall_mem_cons.mp hchars
      have hpos := hchar.length_pos
      have hle := ih hchars
      simp only [List.flatMap_cons, List.length_append, List.length_cons]
      omega

/-- The text of a string holds at least one character for each of its own. -/
theorem readValue?_quoted {chars : List (List Char × Char)}
    (hchars : ∀ char ∈ chars, WritesChar char.1 char.2) (inner : Nat) (rest : List Char) :
    readValue? (inner + 1) ('"' :: (chars.flatMap Prod.fst ++ ['"'] ++ rest)) =
      some (.string (.ofList (chars.map Prod.snd)), rest) := by
  rw [readValue?, List.append_assoc, List.singleton_append]
  have hfuel : chars.length < (chars.flatMap Prod.fst ++ '"' :: rest).length := by
    have hle := length_le_flatMap hchars
    rw [List.length_append, List.length_cons]
    omega
  rw [readChars?_append hchars rest hfuel]
  rfl

/-- Whatever the grammar gives a text is what the reader reads. -/
theorem Writes.isRead {text : List Char} {part : Part} (hwrites : Writes text part) {depth : Nat}
    (hdepth : text.length ≤ depth) : IsRead depth text part := by
  induction hwrites generalizing depth with
  | @blankBefore c text part hblank _ ih =>
      have hread := ih (Nat.le_of_succ_le hdepth)
      cases part with
      | value value => exact hread.blankBefore fun _ => readPadded?_blank hblank _
      | field name value => exact hread.blankBefore fun _ => readField?_blank hblank _
  | @blankBehind c text part hblank _ ih =>
      rw [List.length_append] at hdepth
      have hread := ih (Nat.le_of_add_right_le hdepth)
      cases part with
      | value value => exact hread.blankBehind hblank
      | field name value => exact hread.blankBehind hblank
  | nullWord => exact readsItem_of_readValue? rfl hdepth fun inner _ rest _ => rfl
  | trueWord => exact readsItem_of_readValue? rfl hdepth fun inner _ rest _ => rfl
  | falseWord => exact readsItem_of_readValue? rfl hdepth fun inner _ rest _ => rfl
  | @number text numeral hnumber =>
      obtain ⟨c, others, rfl, hc⟩ := hnumber.exists_cons
      refine readsItem_of_readValue? (isBlank_eq_false_of_number hc) hdepth ?_
      intro inner _ rest hfollows
      rw [readValue?_number hc, ← List.cons_append, Numeral.read?_append hnumber hfollows.ends]
      rfl
  | @string text value hstring =>
      cases hstring with
      | @quoted chars hchars =>
          exact readsItem_of_readValue? rfl hdepth fun inner _ rest _ =>
            readValue?_quoted hchars inner rest
  | @emptyArray blanks hblanks =>
      refine readsItem_of_readValue? rfl hdepth fun inner _ rest _ => ?_
      have hnone := readPadded?_blanks hblanks List.mem_cons_self rest inner
      rw [readValue?, readSequence?_blanks hblanks rfl rest hnone]
      rfl
  | @array first others hitems ih =>
      refine readsItem_of_readValue? rfl hdepth fun inner hinner rest _ => ?_
      have hread : ∀ item ∈ first :: others, ReadsItem (readPadded? (readValue? inner)) item :=
        fun item hmem => ih item hmem (Nat.le_trans (length_item_le hmem _) hinner)
      rw [readValue?, readSequence?_append List.mem_cons_self hread rest]
      rfl
  | @field key text name value hkey hvalue ihkey ihvalue =>
      rw [List.length_append, List.length_cons] at hdepth
      exact ReadsItem.field (ihkey (by omega)) (ihvalue (by omega))
  | @emptyObject blanks hblanks =>
      refine readsItem_of_readValue? rfl hdepth fun inner _ rest _ => ?_
      have hnone : readField? (readValue? inner) (blanks ++ ['}'] ++ rest) = none := by
        unfold readField?
        rw [readPadded?_blanks hblanks (List.mem_cons_of_mem _ List.mem_cons_self) rest inner]
      rw [readValue?, readSequence?_blanks hblanks rfl rest hnone]
      rfl
  | @object first others hfields ih =>
      refine readsItem_of_readValue? rfl hdepth fun inner hinner rest _ => ?_
      have hread : ∀ field ∈ first :: others, ReadsItem (readField? (readValue? inner)) field :=
        fun field hmem => ih field hmem (Nat.le_trans (length_item_le hmem _) hinner)
      rw [readValue?, readSequence?_append (List.mem_cons_of_mem _ List.mem_cons_self) hread rest]
      rfl

/-- **The reader finds what the grammar says.** -/
theorem Writes.read?_eq_some {text : List Char} {value : Json}
    (hwrites : Writes text (.value value)) : read? text = some value := by
  have hread : readPadded? (readValue? text.length) (text ++ []) = some (value, []) :=
    hwrites.isRead (Nat.le_refl _) [] (fun _ hc => nomatch hc)
  rw [List.append_nil] at hread
  unfold read?
  rw [hread]

/-- No text writes two values. -/
theorem Writes.value_eq {text : List Char} {value other : Json}
    (hvalue : Writes text (.value value)) (hother : Writes text (.value other)) :
    value = other :=
  Option.some.inj (hvalue.read?_eq_some.symm.trans hother.read?_eq_some)

end LoxTokens.Json
