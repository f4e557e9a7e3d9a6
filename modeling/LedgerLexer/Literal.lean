/-
Where a string literal ends. The search starts behind the opening quote and stops
at the first quote that is not escaped; a backslash that is not itself escaped
escapes the next character, whatever it is. A literal may span a limited number of
lines: the line feed that would begin one line too many ends the search, escaped or
not, so the search never runs past the limit.
-/

import LedgerLexer.Text

namespace LedgerLexer

inductive LiteralEnd where
  /-- The text up to and including the closing quote, and the text after it. -/
  | closed (body rest : Text)
  | overlong
  | unterminated
  deriving DecidableEq

def LiteralEnd.cons (char : Char) : LiteralEnd → LiteralEnd
  | closed body rest => closed (char :: body) rest
  | overlong => overlong
  | unterminated => unterminated

/-- Searches with `lines` lines left, the current one counted. -/
def findLiteralEnd (lines : Nat) (escaped : Bool) : Text → LiteralEnd
  | [] => .unterminated
  | char :: rest =>
      if char = '\n' then
        if lines ≤ 1 then .overlong
        else (findLiteralEnd (lines - 1) false rest).cons char
      else if escaped then (findLiteralEnd lines false rest).cons char
      else if char = '"' then .closed [char] rest
      else (findLiteralEnd lines (char = '\\') rest).cons char

def literalEnd (lines : Nat) (text : Text) : LiteralEnd :=
  findLiteralEnd lines false text

theorem findLiteralEnd_closed (lines : Nat) (escaped : Bool) (text body rest : Text)
    (closes : findLiteralEnd lines escaped text = .closed body rest) :
    body ++ rest = text := by
  induction text generalizing lines escaped body with
  | nil => cases closes
  | cons char others ih =>
      have step (after : LiteralEnd) (found : after.cons char = .closed body rest)
          (later : ∀ tail, after = .closed tail rest → tail ++ rest = others) :
          body ++ rest = char :: others := by
        cases after with
        | closed tail remaining =>
            cases found
            exact congrArg (char :: ·) (later tail rfl)
        | overlong => cases found
        | unterminated => cases found
      unfold findLiteralEnd at closes
      split at closes
      · split at closes
        · cases closes
        · exact step _ closes (fun tail => ih _ _ tail)
      · split at closes
        · exact step _ closes (fun tail => ih _ _ tail)
        · split at closes
          · cases closes
            rfl
          · exact step _ closes (fun tail => ih _ _ tail)

end LedgerLexer
