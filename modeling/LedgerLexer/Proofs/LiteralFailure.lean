/-
Literals that do not end. The search for the end of such a literal reads on through
whatever stands in its way: blanks, comments and the tokens behind them. It fails over
one text for the same reason as over another when the two differ only in stretches that
hold no quote, no backslash and no line end, or in what stands last in a line.
-/

import LedgerLexer.Shape
import LedgerLexer.Literal

namespace LedgerLexer

namespace LiteralEnd

def Fails (found : LiteralEnd) : Prop :=
  found = .overlong ∨ found = .unterminated

variable {found : LiteralEnd}

private theorem not_fails_closed (body rest : Text) : ¬ (closed body rest).Fails := by
  intro fails
  rcases fails with same | same <;> cases same

private theorem Fails.of_cons {char : Char} (fails : (found.cons char).Fails) : found.Fails := by
  cases found with
  | closed body rest => exact absurd fails (not_fails_closed _ _)
  | overlong => exact Or.inl rfl
  | unterminated => exact Or.inr rfl

private theorem Fails.cons_eq (fails : found.Fails) (char : Char) : found.cons char = found := by
  rcases fails with rfl | rfl <;> rfl

private theorem Fails.of_foldr {run : Text} (fails : (run.foldr cons found).Fails) :
    found.Fails := by
  induction run with
  | nil => exact fails
  | cons char later ih => exact ih fails.of_cons

theorem Fails.foldr_eq (fails : found.Fails) (run : Text) : run.foldr cons found = found := by
  induction run with
  | nil => rfl
  | cons char later ih => rw [List.foldr_cons, ih, fails.cons_eq]

end LiteralEnd

/-- The characters over which a literal goes on, in the same line, without an escape. -/
def isQuietPart (char : Char) : Bool :=
  isCommentPart char && char != '"' && char != '\\'

theorem isQuietPart_iff (char : Char) :
    isQuietPart char = true ↔ isLineEnd char = false ∧ char ≠ '"' ∧ char ≠ '\\' := by
  simp only [isQuietPart, isCommentPart, Bool.and_eq_true, Bool.not_eq_true', bne_iff_ne,
    and_assoc, ne_eq]

theorem isCommentPart_of_isQuietPart (char : Char) (quiet : isQuietPart char = true) :
    isCommentPart char = true := by
  rw [isCommentPart, ((isQuietPart_iff char).1 quiet).1]
  rfl

theorem isQuietPart_of_isBlank (char : Char) (blank : isBlank char = true) :
    isQuietPart char = true := by
  simp only [isBlank, Bool.or_eq_true, beq_iff_eq] at blank
  rcases blank with rfl | rfl <;> rfl

private theorem ne_lineFeed_of_isCommentPart (char : Char) (part : isCommentPart char = true) :
    char ≠ '\n' := by
  rintro rfl
  cases part

private theorem findLiteralEnd_quiet (lines : Nat) (escaped : Bool) (run rest : Text)
    (quiet : run.all isQuietPart = true) (nonempty : run ≠ []) :
    findLiteralEnd lines escaped (run ++ rest) =
      run.foldr LiteralEnd.cons (findLiteralEnd lines false rest) := by
  induction run generalizing escaped with
  | nil => exact absurd rfl nonempty
  | cons char later ih =>
      rw [List.all_cons, Bool.and_eq_true] at quiet
      obtain ⟨sameLine, notQuote, notBackslash⟩ := (isQuietPart_iff char).1 quiet.1
      have noFeed : char ≠ '\n' :=
        ne_lineFeed_of_isCommentPart char (isCommentPart_of_isQuietPart char quiet.1)
      have step : findLiteralEnd lines escaped (char :: later ++ rest) =
          (findLiteralEnd lines false (later ++ rest)).cons char := by
        rw [List.cons_append, findLiteralEnd, if_neg noFeed, if_neg notQuote,
          decide_eq_false notBackslash, ite_self]
      rw [step, List.foldr_cons]
      cases later with
      | nil => rfl
      | cons next others => rw [ih false quiet.2 (List.cons_ne_nil _ _)]

/-- At the end of a line it makes no difference whether the next character is escaped. -/
theorem findLiteralEnd_before_lineEnd (lines : Nat) (escaped : Bool) (rest : Text)
    (ends : rest.head?.all isLineEnd = true) :
    findLiteralEnd lines escaped rest = findLiteralEnd lines false rest := by
  cases rest with
  | nil => rfl
  | cons char later =>
      change isLineEnd char = true at ends
      simp only [isLineEnd, Bool.or_eq_true, beq_iff_eq] at ends
      rcases ends with rfl | rfl
      · rfl
      · cases escaped <;> rfl

private theorem findLiteralEnd_fails_over (lines : Nat) (escaped : Bool) (run rest : Text)
    (sameLine : run.all isCommentPart = true)
    (fails : (findLiteralEnd lines escaped (run ++ rest)).Fails) :
    ∃ behind, findLiteralEnd lines escaped (run ++ rest) = findLiteralEnd lines behind rest := by
  induction run generalizing escaped with
  | nil => exact ⟨escaped, rfl⟩
  | cons char later ih =>
      rw [List.all_cons, Bool.and_eq_true] at sameLine
      have step (flag : Bool) (goesOn : findLiteralEnd lines escaped (char :: later ++ rest) =
          (findLiteralEnd lines flag (later ++ rest)).cons char) :
          ∃ behind, findLiteralEnd lines escaped (char :: later ++ rest) =
            findLiteralEnd lines behind rest := by
        rw [goesOn] at fails ⊢
        rw [fails.of_cons.cons_eq]
        exact ih flag sameLine.2 fails.of_cons
      have unfolded : findLiteralEnd lines escaped (char :: later ++ rest) =
          if escaped then (findLiteralEnd lines false (later ++ rest)).cons char
          else if char = '"' then .closed [char] (later ++ rest)
          else (findLiteralEnd lines (char = '\\') (later ++ rest)).cons char := by
        rw [List.cons_append, findLiteralEnd,
          if_neg (ne_lineFeed_of_isCommentPart char sameLine.1)]
      cases escaped with
      | true => exact step false unfolded
      | false =>
          rw [if_neg Bool.false_ne_true] at unfolded
          by_cases closing : char = '"'
          · rw [unfolded, if_pos closing] at fails
            exact absurd fails (LiteralEnd.not_fails_closed _ _)
          · rw [if_neg closing] at unfolded
            exact step _ unfolded

/-- A literal that does not end over the one text does not end over the other, and for
the same reason. -/
def FailsAlike (text other : Text) : Prop :=
  ∀ lines escaped, (findLiteralEnd lines escaped text).Fails →
    findLiteralEnd lines escaped other = findLiteralEnd lines escaped text

namespace FailsAlike

variable {text other : Text}

theorem cons (alike : FailsAlike text other) (char : Char) :
    FailsAlike (char :: text) (char :: other) := by
  intro lines escaped fails
  have step (lines : Nat) (escaped : Bool)
      (longer : ((findLiteralEnd lines escaped text).cons char).Fails) :
      (findLiteralEnd lines escaped other).cons char =
        (findLiteralEnd lines escaped text).cons char :=
    congrArg (LiteralEnd.cons char) (alike lines escaped longer.of_cons)
  rw [findLiteralEnd] at fails
  rw [findLiteralEnd, findLiteralEnd]
  split at fails
  · rename_i feed
    rw [if_pos feed, if_pos feed]
    split at fails
    · rename_i spent
      rw [if_pos spent, if_pos spent]
    · rename_i more
      rw [if_neg more, if_neg more]
      exact step _ _ fails
  · rename_i noFeed
    rw [if_neg noFeed, if_neg noFeed]
    split at fails
    · rename_i isEscaped
      rw [if_pos isEscaped, if_pos isEscaped]
      exact step _ _ fails
    · rename_i notEscaped
      rw [if_neg notEscaped, if_neg notEscaped]
      split at fails
      · exact absurd fails (LiteralEnd.not_fails_closed _ _)
      · rename_i notClosing
        rw [if_neg notClosing, if_neg notClosing]
        exact step _ _ fails

theorem append (alike : FailsAlike text other) (front : Text) :
    FailsAlike (front ++ text) (front ++ other) := by
  induction front with
  | nil => exact alike
  | cons char later ih => exact ih.cons char

theorem quiet (alike : FailsAlike text other) (run otherRun : Text)
    (runQuiet : run.all isQuietPart = true) (otherQuiet : otherRun.all isQuietPart = true)
    (runNonempty : run ≠ []) (otherNonempty : otherRun ≠ []) :
    FailsAlike (run ++ text) (otherRun ++ other) := by
  intro lines escaped fails
  rw [findLiteralEnd_quiet lines escaped run text runQuiet runNonempty] at fails ⊢
  have inner : (findLiteralEnd lines false text).Fails := fails.of_foldr
  have same := alike lines false inner
  rw [findLiteralEnd_quiet lines escaped otherRun other otherQuiet otherNonempty, same,
    inner.foldr_eq, inner.foldr_eq]

theorem lineEnd (alike : FailsAlike text other) (run otherRun : Text)
    (sameLine : run.all isCommentPart = true) (otherQuiet : otherRun.all isQuietPart = true)
    (ends : text.head?.all isLineEnd = true) (otherEnds : other.head?.all isLineEnd = true) :
    FailsAlike (run ++ text) (otherRun ++ other) := by
  intro lines escaped fails
  obtain ⟨behind, passed⟩ := findLiteralEnd_fails_over lines escaped run text sameLine fails
  rw [findLiteralEnd_before_lineEnd lines behind text ends] at passed
  rw [passed] at fails ⊢
  have same := alike lines false fails
  by_cases empty : otherRun = []
  · rw [empty, List.nil_append, findLiteralEnd_before_lineEnd lines escaped other otherEnds, same]
  · rw [findLiteralEnd_quiet lines escaped otherRun other otherQuiet empty, same, fails.foldr_eq]

end FailsAlike

end LedgerLexer
