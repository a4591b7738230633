import LoxTokens.Lexeme

/-!
# Runs of characters

A run of characters of one set goes on until a character that is not in the
set, or until the end.  `Stops` says that a rest of text does not go on with a
run; then the run is what `takeWhile` takes, and no other run from the same
place is longer.
-/

namespace LoxTokens.Text

/-- A rest of text does not go on with characters of a set. -/
def Stops (belongs : Char → Bool) (rest : List Char) : Prop :=
  ∀ c ∈ rest.head?, belongs c = false

variable {belongs : Char → Bool}

@[simp] theorem stops_nil : Stops belongs [] := by simp [Stops]

@[simp] theorem stops_cons {c : Char} {rest : List Char} :
    Stops belongs (c :: rest) ↔ belongs c = false := by
  simp [Stops]

theorem forall_mem_takeWhile (text : List Char) : ∀ c ∈ text.takeWhile belongs, belongs c = true :=
  List.all_eq_true.mp List.all_takeWhile

theorem stops_dropWhile (text : List Char) : Stops belongs (text.dropWhile belongs) := by
  intro c hc
  have hhead := List.head?_dropWhile_not belongs text
  rw [Option.mem_def.mp hc] at hhead
  exact hhead

theorem takeWhile_append_of_stops {run rest : List Char} (hrun : ∀ c ∈ run, belongs c)
    (hstop : Stops belongs rest) : (run ++ rest).takeWhile belongs = run := by
  rw [List.takeWhile_append_of_pos hrun]
  cases rest with
  | nil => simp
  | cons c rest => simp [stops_cons.mp hstop]

theorem dropWhile_append_of_stops {run rest : List Char} (hrun : ∀ c ∈ run, belongs c)
    (hstop : Stops belongs rest) : (run ++ rest).dropWhile belongs = rest := by
  rw [List.dropWhile_append_of_pos hrun]
  cases rest with
  | nil => rfl
  | cons c rest => simp [stops_cons.mp hstop]

/-- No run is longer than one behind which the text stops. -/
theorem length_le_of_stops {run rest other behind : List Char} (hother : ∀ c ∈ other, belongs c)
    (hstop : Stops belongs rest) (hsame : other ++ behind = run ++ rest) :
    other.length ≤ run.length := by
  rcases List.append_eq_append_iff.mp hsame with ⟨more, rfl, _⟩ | ⟨more, rfl, hrest⟩
  · simp
  · cases more with
    | nil => simp
    | cons c more =>
        rw [hrest] at hstop
        have hin : belongs c = true := hother c (by simp)
        rw [stops_cons.mp hstop] at hin
        cases hin

/-- Two runs from the same place behind which the text stops are the same. -/
theorem eq_of_stops {run rest other behind : List Char} (hrun : ∀ c ∈ run, belongs c)
    (hstop : Stops belongs rest) (hother : ∀ c ∈ other, belongs c) (hbehind : Stops belongs behind)
    (hsame : other ++ behind = run ++ rest) : other = run ∧ behind = rest := by
  have hle := length_le_of_stops hother hstop hsame
  have hge := length_le_of_stops hrun hbehind hsame.symm
  exact List.append_inj hsame (Nat.le_antisymm hle hge)

/-- A text without a character is a run of the others. -/
theorem forall_ne_of_notMem {c : Char} {text : List Char} (habsent : c ∉ text) :
    ∀ d ∈ text, decide (d ≠ c) = true := by
  intro d hd
  simp only [decide_eq_true_eq]
  rintro rfl
  exact habsent hd

theorem notMem_takeWhile_ne (c : Char) (text : List Char) : c ∉ text.takeWhile (· ≠ c) := by
  intro hmem
  simpa using forall_mem_takeWhile text c hmem

end LoxTokens.Text
