/-!
# Measures of a text

Places in a source text are offsets in bytes of UTF-8 and lines that end with
a line feed.  Both are sums over the characters, so they add up when texts are
joined.
-/

namespace LoxTokens.Text

/-- The number of bytes that a text takes in UTF-8. -/
def bytes : List Char → Nat
  | [] => 0
  | c :: text => c.utf8Size + bytes text

def lineFeeds (text : List Char) : Nat := text.count '\n'

@[simp] theorem bytes_nil : bytes [] = 0 := rfl

@[simp] theorem bytes_cons (c : Char) (text : List Char) :
    bytes (c :: text) = c.utf8Size + bytes text := rfl

@[simp] theorem bytes_append (before after : List Char) :
    bytes (before ++ after) = bytes before + bytes after := by
  induction before with
  | nil => simp
  | cons c before ih => simp [ih, Nat.add_assoc]

@[simp] theorem bytes_reverse (text : List Char) : bytes text.reverse = bytes text := by
  induction text with
  | nil => rfl
  | cons c text ih => simp [ih, Nat.add_comm]

theorem bytes_pos {text : List Char} (hne : text ≠ []) : 0 < bytes text := by
  cases text with
  | nil => exact absurd rfl hne
  | cons c text => exact Nat.add_pos_left c.utf8Size_pos _

/-- The measure is that of the encoded text. -/
theorem bytes_eq_utf8ByteSize (text : List Char) :
    bytes text = (String.ofList text).utf8ByteSize := by
  induction text with
  | nil => simp
  | cons c text ih => simp [ih, String.ofList_cons]

theorem bytes_toList (source : String) : bytes source.toList = source.utf8ByteSize := by
  rw [bytes_eq_utf8ByteSize, String.ofList_toList]

@[simp] theorem lineFeeds_nil : lineFeeds [] = 0 := rfl

@[simp] theorem lineFeeds_append (before after : List Char) :
    lineFeeds (before ++ after) = lineFeeds before + lineFeeds after :=
  List.count_append

end LoxTokens.Text
