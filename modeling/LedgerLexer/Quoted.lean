/-
Quoted content: what stands between the quotes of a literal, and how any content
can be written as one. In a literal a backslash makes a quote or another backslash
plain; before any other character it stands for itself. Where a literal ends in a
longer text is decided by its own module.
-/

import LedgerLexer.Text

namespace LedgerLexer

def escapeContent : Text → Text
  | [] => []
  | char :: rest =>
      if char = '"' ∨ char = '\\' then '\\' :: char :: escapeContent rest
      else char :: escapeContent rest

def quoteContent (content : Text) : Text :=
  '"' :: escapeContent content ++ ['"']

def unescapeContent : Text → Text
  | '\\' :: '"' :: rest => '"' :: unescapeContent rest
  | '\\' :: '\\' :: rest => '\\' :: unescapeContent rest
  | '\\' :: char :: rest => '\\' :: char :: unescapeContent rest
  | char :: rest => char :: unescapeContent rest
  | [] => []

/-- What is left when one quote is taken off each end; all of the text if it does
not have both. -/
def betweenQuotes (text : Text) : Text :=
  match text with
  | '"' :: rest => if rest.getLast? = some '"' then rest.dropLast else text
  | _ => text

def unquote (text : Text) : Text :=
  unescapeContent (betweenQuotes text)

theorem unescapeContent_plain (char : Char) (rest : Text) (plain : char ≠ '\\') :
    unescapeContent (char :: rest) = char :: unescapeContent rest := by
  rw [unescapeContent]
  all_goals
    intros
    simp_all

/-- A backslash goes away before a quote and before a backslash only. -/
theorem unescapeContent_escape (char : Char) (rest : Text) :
    unescapeContent ('\\' :: char :: rest) =
      (if char = '"' ∨ char = '\\' then [char] else ['\\', char]) ++ unescapeContent rest := by
  by_cases quote : char = '"'
  · subst quote
    rfl
  by_cases backslash : char = '\\'
  · subst backslash
    rfl
  · rw [unescapeContent, if_neg (by simp [quote, backslash])]
    · rfl
    all_goals simp_all

/-- A literal is read by single characters and by backslashes with what each of them
escapes; at the very end a backslash escapes nothing. -/
theorem content_induction {motive : Text → Prop} (nil : motive []) (last : motive ['\\'])
    (escape : ∀ char rest, motive rest → motive ('\\' :: char :: rest))
    (plain : ∀ char rest, char ≠ '\\' → motive rest → motive (char :: rest)) (text : Text) :
    motive text := by
  induction bound : text.length using Nat.strongRecOn generalizing text with
  | ind length ih =>
      cases text with
      | nil => exact nil
      | cons char rest =>
          rw [List.length_cons] at bound
          by_cases backslash : char = '\\'
          · subst backslash
            cases rest with
            | nil => exact last
            | cons next later =>
                rw [List.length_cons] at bound
                exact escape next later (ih later.length (by omega) later rfl)
          · exact plain char rest backslash (ih rest.length (by omega) rest rfl)

private theorem unescapeContent_escapeContent (content : Text) :
    unescapeContent (escapeContent content) = content := by
  induction content with
  | nil => rfl
  | cons char rest ih =>
      unfold escapeContent
      by_cases special : char = '"' ∨ char = '\\'
      · rw [if_pos special]
        rcases special with rfl | rfl
        · rw [unescapeContent, ih]
        · rw [unescapeContent, ih]
      · have notBackslash : char ≠ '\\' := fun backslash => special (Or.inr backslash)
        rw [if_neg special]
        cases written : escapeContent rest with
        | nil =>
            rw [written] at ih
            rw [unescapeContent]
            · exact congrArg (char :: ·) ih
            all_goals intros; simp_all
        | cons next later =>
            rw [written] at ih
            rw [unescapeContent]
            · exact congrArg (char :: ·) ih
            all_goals intros; simp_all

private theorem betweenQuotes_quoted (body : Text) :
    betweenQuotes ('"' :: body ++ ['"']) = body := by
  change (if (body ++ ['"']).getLast? = some '"' then (body ++ ['"']).dropLast else _) = body
  rw [List.getLast?_concat, if_pos rfl, List.dropLast_concat]

theorem unquote_quoted (body : Text) : unquote ('"' :: (body ++ ['"'])) = unescapeContent body := by
  rw [unquote, ← List.cons_append, betweenQuotes_quoted]

theorem unquote_quoteContent (content : Text) : unquote (quoteContent content) = content := by
  unfold unquote quoteContent
  rw [betweenQuotes_quoted, unescapeContent_escapeContent]

end LedgerLexer
