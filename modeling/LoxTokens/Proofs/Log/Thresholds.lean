import LoxTokens.Log.Filter
import LoxTokens.Text.Pieces

/-!
# Filters that go by the level alone

All events of a scan have one target.  So rules that ask for neither a span nor a
field are about all of its events or about none, and a filter of such rules has
one threshold for the whole scan.  Every line of a log says its level first, so
what such a filter chooses can be told from the lines themselves.
-/

namespace LoxTokens.Log

/-! ## One threshold for a whole scan -/

namespace Rule

/-- A rule that asks for nothing but a scope. -/
structure IsPlain (rule : Rule) : Prop where
  span_eq : rule.span = none
  field_eq : rule.field = none

theorem IsPlain.isAbout_eq {rule : Rule} (hplain : rule.IsPlain) (event : Event) :
    rule.isAbout event = rule.scope.isPrefixOf target.toList := by
  simp [isAbout, hplain.span_eq, hplain.field_eq]

end Rule

namespace Filter

/-- The threshold for whatever has the target of a scan, if there are only plain
rules. -/
def threshold (filter : Filter) : Threshold :=
  (mostSpecial? (filter.filter (·.scope.isPrefixOf target.toList))).bind Rule.threshold

theorem admits_of_isPlain {filter : Filter} (hplain : ∀ rule ∈ filter, rule.IsPlain)
    (event : Event) : filter.admits event = filter.threshold.admits event.level := by
  have habout : filter.filter (·.isAbout event) =
      filter.filter (·.scope.isPrefixOf target.toList) :=
    List.filter_congr fun rule hrule => (hplain rule hrule).isAbout_eq event
  rw [admits, deciding?, habout, threshold]
  cases mostSpecial? (filter.filter (·.scope.isPrefixOf target.toList)) <;> rfl

theorem isPlain_of_mem_ofLevel {level : Level} {rule : Rule} (hmem : rule ∈ ofLevel level) :
    rule.IsPlain := by
  rw [List.mem_singleton.mp hmem]
  exact ⟨rfl, rfl⟩

/-- The filter that shows the full log. -/
theorem admits_trace (event : Event) : (ofLevel .trace).admits event = true := by
  rw [admits_ofLevel]
  cases event <;> rfl

end Filter

/-! ## The lines of a log -/

/-- The level of a line of the log: its first word. -/
def Level.ofLine? (line : List Char) : Option Level := ofName? (line.takeWhile (· ≠ ' '))

/-- Whether a line of the log is shown under a threshold. -/
def Threshold.shows (threshold : Threshold) (line : List Char) : Bool :=
  (Level.ofLine? line).any threshold.admits

/-- What is shown under one threshold is shown under the other. -/
def Threshold.IsWithin (threshold finer : Threshold) : Prop :=
  ∀ level, threshold.admits level = true → finer.admits level = true

theorem Level.ofLine?_firstLine_entry (event : Event) :
    ofLine? (Text.firstLine event.entry) = some event.level := by
  unfold Event.entry
  cases event.level <;> rfl

theorem Threshold.shows_firstLine_entry (threshold : Threshold) (event : Event) :
    threshold.shows (Text.firstLine event.entry) = threshold.admits event.level := by
  rw [shows, Level.ofLine?_firstLine_entry]
  rfl

theorem Threshold.IsWithin.shows {threshold finer : Threshold} (hwithin : threshold.IsWithin finer)
    {line : List Char} (hshows : threshold.shows line = true) : finer.shows line = true := by
  unfold Threshold.shows at hshows ⊢
  cases hlevel : Level.ofLine? line with
  | none => simp [hlevel] at hshows
  | some level =>
      rw [hlevel] at hshows
      exact hwithin level hshows

theorem Threshold.filter_shows_none (lines : List (List Char)) :
    lines.filter (shows none) = [] := by
  rw [List.filter_eq_nil_iff]
  intro line _
  unfold shows
  cases Level.ofLine? line <;> simp [admits]

end LoxTokens.Log
