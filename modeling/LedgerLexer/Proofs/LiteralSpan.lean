/-
How many lines a literal spans. Which quotes close a literal is said by the text before
each of them, without a search: a backslash that is not itself escaped escapes the next
character. Over the text before the closing quote the search only counts line feeds, and it
gives a literal up as too long exactly when the text that belongs to it, up to its closing
quote or the end of the input, holds too many of them.
-/

import LedgerLexer.Proofs.LiteralEnd
import LedgerLexer.Proofs.LiteralFailure

namespace LedgerLexer

/-- Whether the character behind this text is escaped; the flag says it of the first
character of the text. -/
def escapesNext (escaped : Bool) : Text → Bool
  | [] => escaped
  | char :: rest => escapesNext (!escaped && char == '\\') rest

/-- A backslash escapes what is behind it unless it is itself escaped. -/
theorem escapesNext_concat (escaped : Bool) (text : Text) (char : Char) :
    escapesNext escaped (text ++ [char]) = (!escapesNext escaped text && char == '\\') := by
  induction text generalizing escaped with
  | nil => rfl
  | cons first rest ih => exact ih _

/-- Every quote of the text is escaped, so a literal goes on over all of it. -/
def StaysOpen (escaped : Bool) (text : Text) : Prop :=
  ∀ front back, text = front ++ '"' :: back → escapesNext escaped front = true

theorem staysOpen_nil (escaped : Bool) : StaysOpen escaped [] := by
  intro front back whole
  cases front <;> cases whole

theorem staysOpen_cons_iff (escaped : Bool) (char : Char) (rest : Text) :
    StaysOpen escaped (char :: rest) ↔
      (char = '"' → escaped = true) ∧ StaysOpen (!escaped && char == '\\') rest := by
  constructor
  · intro open_
    constructor
    · intro quote
      subst quote
      exact open_ [] rest rfl
    · intro front back whole
      exact open_ (char :: front) back (by rw [whole]; rfl)
  · intro both front back whole
    cases front with
    | nil => exact both.1 (List.cons.inj whole).1
    | cons first others =>
        obtain ⟨rfl, restWhole⟩ := List.cons.inj whole
        exact both.2 others back restWhole

/-- The first quote that is not escaped stands between these two parts of the text. -/
structure FirstClosing (escaped : Bool) (text before behind : Text) : Prop where
  whole : text = before ++ '"' :: behind
  notEscaped : escapesNext escaped before = false
  goesOn : StaysOpen escaped before

theorem exists_firstClosing_or_staysOpen (escaped : Bool) (text : Text) :
    (∃ before behind, FirstClosing escaped text before behind) ∨ StaysOpen escaped text := by
  induction text generalizing escaped with
  | nil => exact Or.inr (staysOpen_nil escaped)
  | cons char rest ih =>
      by_cases closing : char = '"' ∧ escaped = false
      · obtain ⟨rfl, rfl⟩ := closing
        exact Or.inl ⟨[], rest, rfl, rfl, staysOpen_nil false⟩
      · have inside : char = '"' → escaped = true := by
          intro quote
          simpa [quote] using closing
        rcases ih (!escaped && char == '\\') with ⟨before, behind, first⟩ | open_
        · exact Or.inl ⟨char :: before, behind, by rw [first.whole]; rfl, first.notEscaped,
            (staysOpen_cons_iff _ _ _).2 ⟨inside, first.goesOn⟩⟩
        · exact Or.inr ((staysOpen_cons_iff _ _ _).2 ⟨inside, open_⟩)

/-- Over text that leaves the literal open the search only counts line feeds. -/
theorem findLiteralEnd_over (lines : Nat) (escaped : Bool) (front rest : Text)
    (positive : 1 ≤ lines) (goesOn : StaysOpen escaped front) :
    findLiteralEnd lines escaped (front ++ rest) =
      if lines ≤ lineFeeds front then .overlong
      else front.foldr LiteralEnd.cons
        (findLiteralEnd (lines - lineFeeds front) (escapesNext escaped front) rest) := by
  induction front generalizing lines escaped with
  | nil => rw [lineFeeds_nil, if_neg (by omega)]; rfl
  | cons char later ih =>
      obtain ⟨inside, laterOpen⟩ := (staysOpen_cons_iff _ _ _).1 goesOn
      by_cases feed : char = '\n'
      · subst feed
        have unescaped : (!escaped && '\n' == '\\') = false := Bool.and_false _
        rw [List.cons_append, findLiteralEnd, if_pos rfl, lineFeeds_cons, if_pos rfl]
        rw [unescaped] at laterOpen
        by_cases last : lines ≤ 1
        · rw [if_pos last, if_pos (by omega)]
        · rw [if_neg last, ih (lines - 1) false (by omega) laterOpen]
          by_cases tooMany : lines - 1 ≤ lineFeeds later
          · rw [if_pos tooMany, if_pos (by omega)]
            rfl
          · rw [if_neg tooMany, if_neg (by omega), Nat.sub_sub, escapesNext, unescaped]
            rfl
      · rw [List.cons_append, findLiteralEnd_inside lines escaped char _ feed inside,
          ih lines _ positive laterOpen, lineFeeds_cons, if_neg feed, Nat.zero_add]
        split <;> rfl

private theorem foldr_cons_closed (front body rest : Text) :
    front.foldr LiteralEnd.cons (.closed body rest) = .closed (front ++ body) rest := by
  induction front with
  | nil => rfl
  | cons char later ih =>
      rw [List.foldr_cons, ih]
      rfl

theorem literalEnd_of_firstClosing (lines : Nat) (text before behind : Text) (positive : 1 ≤ lines)
    (first : FirstClosing false text before behind) :
    literalEnd lines text =
      if lines ≤ lineFeeds before then .overlong else .closed (before ++ ['"']) behind := by
  have quote (left : Nat) : findLiteralEnd left false ('"' :: behind) = .closed ['"'] behind := rfl
  rw [literalEnd, first.whole, findLiteralEnd_over lines false before _ positive first.goesOn,
    first.notEscaped, quote, foldr_cons_closed]

theorem literalEnd_of_staysOpen (lines : Nat) (text : Text) (positive : 1 ≤ lines)
    (open_ : StaysOpen false text) :
    literalEnd lines text = if lines ≤ lineFeeds text then .overlong else .unterminated := by
  have walk := findLiteralEnd_over lines false text [] positive open_
  have unended : LiteralEnd.unterminated.Fails := Or.inr rfl
  rw [List.append_nil] at walk
  rw [literalEnd, walk, findLiteralEnd, unended.foldr_eq]

theorem literalEnd_overlong_iff_feeds (lines : Nat) (text : Text) (positive : 1 ≤ lines) :
    literalEnd lines text = .overlong ↔
      (∃ before rest, FirstClosing false text before rest ∧ lines ≤ lineFeeds before) ∨
        StaysOpen false text ∧ lines ≤ lineFeeds text := by
  constructor
  · intro tooLong
    rcases exists_firstClosing_or_staysOpen false text with ⟨before, behind, first⟩ | open_
    · rw [literalEnd_of_firstClosing lines text before behind positive first] at tooLong
      split at tooLong
      · rename_i enough
        exact Or.inl ⟨before, behind, first, enough⟩
      · cases tooLong
    · rw [literalEnd_of_staysOpen lines text positive open_] at tooLong
      split at tooLong
      · rename_i enough
        exact Or.inr ⟨open_, enough⟩
      · cases tooLong
  · rintro (⟨before, rest, first, enough⟩ | ⟨open_, enough⟩)
    · rw [literalEnd_of_firstClosing lines text before rest positive first, if_pos enough]
    · rw [literalEnd_of_staysOpen lines text positive open_, if_pos enough]

/-- A literal that is open before this text holds at least so many of its line feeds, and
so spans more lines than that. -/
def SpansMoreThan (lines : Nat) (escaped : Bool) (text : Text) : Prop :=
  ∃ body rest, text = body ++ rest ∧ StaysOpen escaped body ∧ lines ≤ lineFeeds body

theorem literalEnd_overlong_iff (lines : Nat) (text : Text) (positive : 1 ≤ lines) :
    literalEnd lines text = .overlong ↔ SpansMoreThan lines false text := by
  constructor
  · intro tooLong
    rcases (literalEnd_overlong_iff_feeds lines text positive).1 tooLong with
      ⟨before, behind, first, enough⟩ | ⟨open_, enough⟩
    · exact ⟨before, '"' :: behind, first.whole, first.goesOn, enough⟩
    · exact ⟨text, [], (List.append_nil text).symm, open_, enough⟩
  · rintro ⟨body, rest, rfl, open_, enough⟩
    rw [literalEnd, findLiteralEnd_over lines false body rest positive open_, if_pos enough]

end LedgerLexer
