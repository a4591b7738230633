import LoxTokens.Proofs.Splicing.Continuation
import LoxTokens.Text.Slice

/-!
# Strings that stay open

A string without a closing quote takes the rest of the text.  So it is the last
piece of the text, at most one string stays open, and all tokens and all other
faults lie in front of it.

A quote at the end of the text closes the string and does nothing else.  The
pieces in front of it are decided, since at least the opening quote is left
behind them, and the open string becomes a token in the same place:

```text
front … "body      one fault
front … "body"     one token, and what is in front as before
```
-/

namespace LoxTokens

open Lexicon Piece Text

/-- The piece of a string that stays open. -/
def Piece.openString (body : List Char) : Piece := ⟨'"' :: body, .fault .openString⟩

/-- The piece of the same string with a quote behind it. -/
def Piece.closedString (body : List Char) : Piece :=
  ⟨'"' :: (body ++ ['"']), .token .string (some (.string (.ofList body)))⟩

/-! ## The open string among the pieces -/

namespace Lexicon

variable {text : List Char} {front back : List Piece} {piece : Piece}

theorem Reads.eq_openString {rest : List Char} (hread : Reads piece rest)
    (hsense : piece.sense = .fault .openString) :
    ∃ body, '"' ∉ body ∧ piece = Piece.openString body := by
  cases hread with
  | openString hbody => exact ⟨_, hbody, rfl⟩
  | _ => cases hsense

/-- An open string is the last piece. -/
theorem MaximalMunch.exists_openString (hcut : MaximalMunch text (front ++ piece :: back))
    (hsense : piece.sense = .fault .openString) :
    back = [] ∧ ∃ body, '"' ∉ body ∧ piece = Piece.openString body := by
  obtain ⟨rest, _, hlongest, hback⟩ := hcut.of_append.exists_rest
  have hread := isLongest_iff_reads.mp hlongest
  rw [hread.rest_eq_nil hsense] at hback
  exact ⟨MaximalMunch.nil.unique hback, hread.eq_openString hsense⟩

/-- A quote at the end of the text closes the string. -/
theorem MaximalMunch.close {body : List Char}
    (hcut : MaximalMunch text (front ++ [Piece.openString body])) (hbody : '"' ∉ body) :
    MaximalMunch (text ++ ['"']) (front ++ [closedString body]) := by
  have hclosed : MaximalMunch ('"' :: (body ++ ['"']) ++ []) [closedString body] :=
    .cons_of_reads (.string hbody) .nil
  have hquoted : flatten [Piece.openString body] ++ ['"'] = '"' :: (body ++ ['"']) ++ [] := by
    simp [Piece.openString]
  rw [← hquoted] at hclosed
  exact hcut.lengthen hclosed (by simp [Piece.openString]) (by simp [Piece.openString])

end Lexicon

/-! ## The open string among what a scan finds -/

section

variable {source : String} {front : List Piece} {body : List Char} {fault : Fault}

theorem exists_openString_of_mem_faults (hmem : fault ∈ (scan source).faults)
    (hopen : fault.cause = .openString) :
    ∃ front body, MaximalMunch source.toList (front ++ [Piece.openString body]) ∧ '"' ∉ body := by
  obtain ⟨pieces, hcut⟩ := exists_maximalMunch source.toList
  rw [scan_of_cut hcut] at hmem
  obtain ⟨front, piece, back, rfl, hsense, _⟩ := exists_piece_of_mem_faultsFrom hmem
  obtain ⟨rfl, body, hbody, rfl⟩ := hcut.exists_openString (hopen ▸ hsense)
  exact ⟨front, body, hcut, hbody⟩

/-- The fault that an open string behind some text is. -/
theorem faults_of_openString
    (hcut : MaximalMunch source.toList (front ++ [Piece.openString body])) :
    (scan source).faults =
      faultsFrom 0 1 front ++
        [⟨.openString, 1 + lineFeeds source.toList,
          ⟨bytes (flatten front), bytes ('"' :: body)⟩, .unknown⟩] := by
  have hlines : lineFeeds source.toList =
      lineFeeds (flatten front) + lineFeeds ('"' :: body) := by
    rw [← hcut.flatten_eq, flatten_append, lineFeeds_append]
    simp [Piece.openString]
  rw [scan_of_cut hcut, faultsFrom_append, hlines, ← Nat.add_assoc, Nat.zero_add]
  rfl

theorem foreign_of_openString
    (hcut : MaximalMunch source.toList (front ++ [Piece.openString body])) :
    (scan source).foreign = faultsFrom 0 1 front := by
  have hclosed : ∀ piece ∈ front, piece.sense ≠ .fault .openString :=
    hcut.sense_ne_openString (by simp [Piece.openString])
  rw [Scan.foreign, faults_of_openString hcut, List.filter_append,
    filter_faultsFrom_of_closed hclosed]
  exact List.append_nil _

theorem inner_of_openString (hcut : MaximalMunch source.toList (front ++ [Piece.openString body])) :
    (scan source).inner = tokensFrom 0 1 front := by
  rw [inner_of_cut hcut, tokensFrom_append]
  exact List.append_nil _

/-- An open string is told as the last fault. -/
theorem faults_eq_foreign_append (hmem : fault ∈ (scan source).faults)
    (hopen : fault.cause = .openString) :
    (scan source).faults = (scan source).foreign ++ [fault] := by
  obtain ⟨front, body, hcut, hbody⟩ := exists_openString_of_mem_faults hmem hopen
  have hforeign := foreign_of_openString hcut
  have hfaults := faults_of_openString hcut
  rw [← hforeign] at hfaults
  rw [hfaults] at hmem
  rcases List.mem_append.mp hmem with hmem | hlast
  · -- the faults that are kept are no open strings
    have hkept := (List.mem_filter.mp hmem).2
    exact absurd hopen (of_decide_eq_true hkept)
  · rw [List.mem_singleton.mp hlast]
    exact hfaults

theorem length_filter_openString_le (source : String) :
    ((scan source).faults.filter fun fault => fault.cause = .openString).length ≤ 1 := by
  by_cases hsome : ∃ fault ∈ (scan source).faults, fault.cause = .openString
  · obtain ⟨fault, hmem, hopen⟩ := hsome
    have hnone : (scan source).foreign.filter (fun fault => fault.cause = .openString) = [] := by
      refine List.filter_eq_nil_iff.mpr fun other hother => ?_
      simpa using (List.mem_filter.mp hother).2
    rw [faults_eq_foreign_append hmem hopen, List.filter_append, hnone, List.nil_append]
    exact List.length_filter_le _ _
  · have hnone : (scan source).faults.filter (fun fault => fault.cause = .openString) = [] := by
      refine List.filter_eq_nil_iff.mpr fun fault hmem => ?_
      intro hopen
      exact hsome ⟨fault, hmem, of_decide_eq_true hopen⟩
    rw [hnone]
    exact Nat.zero_le 1

/-- With a quote behind it the open string is a token in its place. -/
theorem scan_append_quote (hcut : MaximalMunch source.toList (front ++ [Piece.openString body]))
    (hbody : '"' ∉ body) :
    scan (source ++ "\"") =
      ⟨(scan source).inner ++
          [⟨.string, .ofList ('"' :: (body ++ ['"'])), some (.string (.ofList body)),
              1 + lineFeeds (flatten front), ⟨bytes (flatten front), bytes ('"' :: body) + 1⟩⟩,
            .eof (1 + lineFeeds source.toList) (bytes source.toList + 1)],
        (scan source).foreign⟩ := by
  have hquoted : (source ++ "\"").toList = source.toList ++ ['"'] := String.toList_append
  have hclosed := hcut.close hbody
  rw [← hquoted] at hclosed
  have hlines : lineFeeds (source ++ "\"").toList = lineFeeds source.toList := by
    rw [hquoted, lineFeeds_append]
    rfl
  have hbytes : bytes (source ++ "\"").toList = bytes source.toList + 1 := by
    rw [hquoted, bytes_append]
    rfl
  have hlength : bytes ('"' :: (body ++ ['"'])) = bytes ('"' :: body) + 1 := by
    rw [← List.cons_append, bytes_append]
    rfl
  have htoken : tokensFrom (0 + bytes (flatten front)) (1 + lineFeeds (flatten front))
      [closedString body] =
      [⟨.string, .ofList ('"' :: (body ++ ['"'])), some (.string (.ofList body)),
        1 + lineFeeds (flatten front), ⟨bytes (flatten front), bytes ('"' :: body) + 1⟩⟩] := by
    rw [← hlength, Nat.zero_add]
    rfl
  have hnone : faultsFrom (0 + bytes (flatten front)) (1 + lineFeeds (flatten front))
      [closedString body] = [] := rfl
  rw [scan_of_cut hclosed, inner_of_openString hcut, foreign_of_openString hcut, hlines, hbytes,
    tokensFrom_append, faultsFrom_append, htoken, hnone, List.append_nil, List.append_assoc,
    List.singleton_append]

end

/-- **At most one string stays open, and a quote at the end closes it.**  The
open string takes the text from its quote to the end, is told as the last fault
and on the last line, and all tokens end in front of it.  With a quote behind
it, a scan finds the same tokens, then the string, and the other faults. -/
theorem scan_close (source : String) :
    ((scan source).faults.filter fun fault => fault.cause = .openString).length ≤ 1 ∧
    ∀ fault ∈ (scan source).faults, fault.cause = .openString →
      ∃ before body,
        firstBytes? source.toList fault.span.offset = some before ∧
        behindBytes? source.toList fault.span.offset = some ('"' :: body) ∧ '"' ∉ body ∧
        fault.span.stop = bytes source.toList ∧
        (scan source).faults = (scan source).foreign ++ [fault] ∧
        (scan source).tokens = (scan source).inner ++ [.eof fault.line (bytes source.toList)] ∧
        (∀ token ∈ (scan source).inner, token.span.stop ≤ fault.span.offset) ∧
        scan (source ++ "\"") =
          ⟨(scan source).inner ++
              [⟨.string, .ofList ('"' :: (body ++ ['"'])), some (.string (.ofList body)),
                  1 + lineFeeds before, ⟨fault.span.offset, fault.span.length + 1⟩⟩,
                .eof fault.line (bytes source.toList + 1)],
            (scan source).foreign⟩ := by
  refine ⟨length_filter_openString_le source, ?_⟩
  intro fault hmem hopen
  obtain ⟨front, body, hcut, hbody⟩ := exists_openString_of_mem_faults hmem hopen
  have hlast := faults_eq_foreign_append hmem hopen
  -- the last fault is the one of the open string
  have hfault : fault = ⟨.openString, 1 + lineFeeds source.toList,
      ⟨bytes (flatten front), bytes ('"' :: body)⟩, .unknown⟩ := by
    have hsame := hlast.symm.trans (faults_of_openString hcut)
    rw [foreign_of_openString hcut] at hsame
    exact List.singleton_inj.mp (List.append_cancel_left hsame)
  have hsource : source.toList = flatten front ++ '"' :: body := by
    rw [← hcut.flatten_eq]
    simp [Piece.openString]
  refine ⟨flatten front, body, ?_, ?_, hbody, ?_, hlast, ?_, ?_, ?_⟩
  · rw [hfault, hsource, firstBytes?_append]
  · rw [hfault, hsource, behindBytes?_append]
  · rw [hfault, hsource, bytes_append]
    rfl
  · rw [hfault, inner_of_cut hcut, scan_of_cut hcut]
  · intro token htoken
    rw [inner_of_openString hcut] at htoken
    have hstop := (bounds_of_mem_tokensFrom htoken).2
    rw [Nat.zero_add] at hstop
    rw [hfault]
    exact hstop
  · rw [hfault]
    exact scan_append_quote hcut hbody

/-- A string that stays open behind a character at fault. -/
theorem scan_close_behind_fault :
    scan ("@ \"a" ++ "\"") =
      ⟨(scan "@ \"a").inner ++
          [⟨.string, "\"a\"", some (.string "a"), 1, ⟨2, 3⟩⟩, .eof 1 5],
        (scan "@ \"a").foreign⟩ := by
  have hmem : (⟨.openString, 1, ⟨2, 2⟩, .unknown⟩ : Fault) ∈ (scan "@ \"a").faults :=
    List.mem_of_getElem? (i := 1) (by with_unfolding_all rfl)
  obtain ⟨before, body, hbefore, hbehind, _, _, _, _, _, hscan⟩ :=
    (scan_close "@ \"a").2 _ hmem rfl
  cases hbefore
  cases hbehind
  exact hscan

end LoxTokens
