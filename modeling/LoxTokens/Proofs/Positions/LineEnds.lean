import LoxTokens.Text.Position

/-!
# Lines as a report counts them

A report ends a line at a line feed, at a carriage return, and once at the pair of
both.  So it counts every line feed, and of the carriage returns those that are
alone,

```text
line = 1 + line feeds + carriage returns with no line feed right behind them
```

This holds for a text that is cut off anywhere but within a pair.  The column
counts the bytes of the last line.

A position moves on with every character but one, the line feed of a pair that has
been cut.  Behind every other character it lies strictly later.
-/

namespace LoxTokens.Text

/-! ## Line ends -/

def isLineEnd (c : Char) : Bool := c = '\n' || c = '\r'

/-- How many of the carriage returns before an offset have no line feed right behind
them. -/
def loneReturnsBefore : List Char → Nat → Nat
  | [], _ => 0
  | c :: text, offset =>
    if c.utf8Size ≤ offset then
      (if c = '\r' ∧ text.head? ≠ some '\n' then 1 else 0) +
        loneReturnsBefore text (offset - c.utf8Size)
    else 0

/-- What stands behind the last line end of a text. -/
def lastLine (text : List Char) : List Char :=
  (text.reverse.takeWhile fun c => !isLineEnd c).reverse

variable {front back text : List Char}

theorem loneReturnsBefore_zero (text : List Char) : loneReturnsBefore text 0 = 0 := by
  cases text with
  | nil => rfl
  | cons c text => exact if_neg (Nat.not_le.mpr c.utf8Size_pos)

theorem loneReturnsBefore_cons (c : Char) (text front : List Char) :
    loneReturnsBefore (c :: text) (bytes (c :: front)) =
      (if c = '\r' ∧ text.head? ≠ some '\n' then 1 else 0) +
        loneReturnsBefore text (bytes front) := by
  rw [loneReturnsBefore, bytes_cons, if_pos (Nat.le_add_right _ _), Nat.add_sub_cancel_left]

theorem loneReturnsBefore_cons_of_ne {c : Char} (hc : c ≠ '\r') (text front : List Char) :
    loneReturnsBefore (c :: text) (bytes (c :: front)) = loneReturnsBefore text (bytes front) := by
  rw [loneReturnsBefore_cons, if_neg (fun hlone => hc hlone.1), Nat.zero_add]

theorem loneReturnsBefore_return (hhead : text.head? ≠ some '\n') (front : List Char) :
    loneReturnsBefore ('\r' :: text) (bytes ('\r' :: front)) =
      1 + loneReturnsBefore text (bytes front) := by
  rw [loneReturnsBefore_cons, if_pos ⟨rfl, hhead⟩]

theorem loneReturnsBefore_pair (text front : List Char) :
    loneReturnsBefore ('\r' :: '\n' :: text) (bytes ('\r' :: '\n' :: front)) =
      loneReturnsBefore text (bytes front) := by
  rw [loneReturnsBefore_cons, if_neg (fun hlone => hlone.2 rfl), Nat.zero_add,
    loneReturnsBefore_cons_of_ne (by decide)]

theorem lineFeeds_lineFeed (text : List Char) : lineFeeds ('\n' :: text) = lineFeeds text + 1 :=
  List.count_cons_self

theorem lineFeeds_cons_of_ne {c : Char} (hc : c ≠ '\n') (text : List Char) :
    lineFeeds (c :: text) = lineFeeds text :=
  List.count_cons_of_ne hc

/-- A text is its last line behind all that is in front of it, and that ends with a line
end if it is anything. -/
theorem exists_eq_append_lastLine (text : List Char) :
    ∃ front, text = front ++ lastLine text ∧
      (front = [] ∨ ∃ lines c, front = lines ++ [c] ∧ isLineEnd c = true) := by
  refine ⟨(text.reverse.dropWhile fun c => !isLineEnd c).reverse, ?_, ?_⟩
  · rw [lastLine, ← List.reverse_append, List.takeWhile_append_dropWhile, List.reverse_reverse]
  · cases hrest : text.reverse.dropWhile fun c => !isLineEnd c with
    | nil => exact .inl rfl
    | cons c lines =>
        have hend := List.head?_dropWhile_not (fun c => !isLineEnd c) text.reverse
        rw [hrest] at hend
        exact .inr ⟨lines.reverse, c, List.reverse_cons, by simpa using hend⟩

theorem isLineEnd_of_mem_lastLine {c : Char} (hmem : c ∈ lastLine text) : isLineEnd c = false := by
  have hall := List.all_takeWhile (p := fun c => !isLineEnd c) (l := text.reverse)
  have hc := List.all_eq_true.mp hall c (List.mem_reverse.mp hmem)
  simpa using hc

namespace Position

/-! ## Lines and columns -/

/-- A position behind a text is on the line that its line ends lead to, unless the text
is cut off within a pair. -/
theorem line_behind (p : Position) (front : List Char) (hback : back.head? ≠ some '\n') :
    (p.behind front).line =
      p.line + lineFeeds front + loneReturnsBefore (front ++ back) (bytes front) := by
  fun_induction behind p front with
  | case1 p => rw [List.nil_append, bytes_nil, loneReturnsBefore_zero, lineFeeds_nil]; rfl
  | case2 p front ih =>
      -- the pair is one line end, and its carriage return is not alone
      rw [ih, List.cons_append, List.cons_append, loneReturnsBefore_pair,
        lineFeeds_cons_of_ne (by decide), lineFeeds_lineFeed]
      dsimp only
      omega
  | case3 p c front hpair hend ih =>
      rw [ih, List.cons_append]
      rcases hend with rfl | rfl
      · rw [loneReturnsBefore_cons_of_ne (by decide), lineFeeds_lineFeed]
        dsimp only
        omega
      · have hhead : (front ++ back).head? ≠ some '\n' := by
          cases front with
          | nil => exact hback
          | cons d front =>
              intro hfeed
              obtain rfl := Option.some.inj hfeed
              exact hpair front rfl rfl
        rw [loneReturnsBefore_return hhead, lineFeeds_cons_of_ne (by decide)]
        dsimp only
        omega
  | case4 p c front hpair hend ih =>
      rw [not_or] at hend
      rw [ih, List.cons_append, loneReturnsBefore_cons_of_ne hend.2, lineFeeds_cons_of_ne hend.1]

/-- A text that does not begin with the second half of a pair may be counted by
itself. -/
theorem behind_append (p : Position) (front : List Char) (hback : back.head? ≠ some '\n') :
    p.behind (front ++ back) = (p.behind front).behind back := by
  fun_induction behind p front with
  | case1 p => rfl
  | case2 p front ih => rw [List.cons_append, List.cons_append, behind, ih]
  | case3 p c front hpair hend ih =>
      rw [← ih, List.cons_append, behind, if_pos hend]
      rintro text rfl hsame
      cases front with
      | nil => exact hback (by rw [show back = _ from hsame]; rfl)
      | cons d front =>
          obtain ⟨rfl, -⟩ := List.cons.inj hsame
          exact hpair front rfl rfl
  | case4 p c front hpair hend ih =>
      rw [← ih, List.cons_append, behind, if_neg hend]
      rintro text rfl
      exact absurd (Or.inr rfl) hend

/-- Along one line only the column moves. -/
theorem behind_of_no_lineEnd (p : Position) (hline : ∀ c ∈ text, isLineEnd c = false) :
    p.behind text = ⟨p.line, p.column + bytes text⟩ := by
  induction text generalizing p with
  | nil => rfl
  | cons c text ih =>
      obtain ⟨hc, htext⟩ := List.forall_mem_cons.mp hline
      have hend : ¬(c = '\n' ∨ c = '\r') := by simpa [isLineEnd] using hc
      rw [behind, if_neg hend, ih _ htext, bytes_cons, Nat.add_assoc]
      rintro _ rfl
      exact absurd (Or.inr rfl) hend

/-- Behind a line end a new line begins. -/
theorem column_behind_lineEnd (p : Position) (lines : List Char) {c : Char}
    (hend : isLineEnd c = true) : (p.behind (lines ++ [c])).column = 1 := by
  have hc : c = '\n' ∨ c = '\r' := by simpa [isLineEnd] using hend
  fun_induction behind p lines with
  | case1 p =>
      rw [List.nil_append, behind, if_pos hc, behind]
      rintro _ _ hsame
      cases hsame
  | case2 p lines ih => rw [List.cons_append, List.cons_append, behind, ih]
  | case3 p d lines hpair hd ih =>
      by_cases hsame : d = '\r' ∧ lines = [] ∧ c = '\n'
      · -- the pair itself
        obtain ⟨rfl, rfl, rfl⟩ := hsame
        rfl
      · rw [List.cons_append, behind, if_pos hd, ih]
        rintro text rfl hlines
        cases lines with
        | nil => exact hsame ⟨rfl, rfl, (List.cons.inj hlines).1⟩
        | cons e lines =>
            obtain ⟨rfl, -⟩ := List.cons.inj hlines
            exact hpair lines rfl rfl
  | case4 p d lines hpair hd ih =>
      rw [List.cons_append, behind, if_neg hd, ih]
      rintro _ rfl
      exact absurd (Or.inr rfl) hd

/-- From the first column on the column counts the bytes of the last line. -/
theorem column_behind {p : Position} (hp : p.column = 1) (text : List Char) :
    (p.behind text).column = 1 + bytes (lastLine text) := by
  obtain ⟨front, htext, hfront⟩ := exists_eq_append_lastLine text
  have hlast : ∀ c ∈ lastLine text, isLineEnd c = false := fun c => isLineEnd_of_mem_lastLine
  have hhead : (lastLine text).head? ≠ some '\n' := by
    intro hhead
    have hc := hlast '\n' (List.mem_of_head? hhead)
    cases hc
  have hcolumn : (p.behind front).column = 1 := by
    rcases hfront with rfl | ⟨lines, c, rfl, hend⟩
    · exact hp
    · exact column_behind_lineEnd p lines hend
  calc (p.behind text).column
      = ((p.behind front).behind (lastLine text)).column := by
        rw [← behind_append p front hhead, ← htext]
    _ = 1 + bytes (lastLine text) := by rw [behind_of_no_lineEnd _ hlast, hcolumn]

/-! ## Earlier and later -/

/-- The order of positions in a text: by lines, and by columns on one line. -/
def IsBefore (p q : Position) : Prop := p.line < q.line ∨ p.line = q.line ∧ p.column < q.column

theorem IsBefore.trans {p q r : Position} (hpq : p.IsBefore q) (hqr : q.IsBefore r) :
    p.IsBefore r := by
  unfold IsBefore at *
  omega

theorem IsBefore.ne {p q : Position} (hpq : p.IsBefore q) : p ≠ q := by
  rintro rfl
  unfold IsBefore at hpq
  omega

/-- A position behind any text at all is later. -/
theorem isBefore_behind (p : Position) {text : List Char} (hne : text ≠ []) :
    p.IsBefore (p.behind text) := by
  fun_induction behind p text with
  | case1 p => exact absurd rfl hne
  | case2 p text ih =>
      have hnext : p.IsBefore ⟨p.line + 1, 1⟩ := .inl (Nat.lt_succ_self _)
      cases text with
      | nil => exact hnext
      | cons c text => exact hnext.trans (ih (List.cons_ne_nil _ _))
  | case3 p c text hpair hend ih =>
      have hnext : p.IsBefore ⟨p.line + 1, 1⟩ := .inl (Nat.lt_succ_self _)
      cases text with
      | nil => exact hnext
      | cons d text => exact hnext.trans (ih (List.cons_ne_nil _ _))
  | case4 p c text hpair hend ih =>
      have hnext : p.IsBefore ⟨p.line, p.column + c.utf8Size⟩ :=
        .inr ⟨rfl, Nat.lt_add_of_pos_right c.utf8Size_pos⟩
      cases text with
      | nil => exact hnext
      | cons d text => exact hnext.trans (ih (List.cons_ne_nil _ _))

end Position

/-- A position is before every later one, but for the two ends of a line feed that
closes a pair. -/
theorem positionAt_isBefore {front part back : List Char} {offset : Nat} (hpart : part ≠ [])
    (hhead : part.head? ≠ some '\n') (hoffset : bytes (front ++ part) ≤ offset) :
    (positionAt (front ++ part ++ back) (bytes front)).IsBefore
      (positionAt (front ++ part ++ back) offset) := by
  have hprefix := before_isPrefix_before (front ++ part ++ back) hoffset
  rw [before_append] at hprefix
  obtain ⟨rest, hrest⟩ := hprefix
  have hbefore : before (front ++ part ++ back) (bytes front) = front := by
    rw [List.append_assoc, before_append]
  have hhead : (part ++ rest).head? ≠ some '\n' := by
    obtain ⟨c, others, rfl⟩ := List.exists_cons_of_ne_nil hpart
    exact hhead
  rw [positionAt, positionAt, hbefore, ← hrest, List.append_assoc,
    Position.behind_append _ front hhead]
  exact Position.isBefore_behind _ (List.append_ne_nil_of_left_ne_nil hpart _)

end LoxTokens.Text
