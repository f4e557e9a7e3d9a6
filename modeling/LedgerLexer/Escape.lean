/-
The shown form of a text: between quotes, on one line, and readable back. Quotes,
backslashes, tabs, line ends and the null character have short escapes. A character
without a visible form of its own, or one that would join the character before it,
is shown by its code in hexadecimal.
-/

import LedgerLexer.Text
import LedgerLexer.Unicode.Unprintable
import LedgerLexer.Unicode.DefaultIgnorable
import LedgerLexer.Unicode.GraphemeExtend

namespace LedgerLexer

/-- The voiced and the semi-voiced sound mark of halfwidth katakana. -/
def isHalfwidthSoundMark (char : Char) : Bool :=
  char == '\uff9e' || char == '\uff9f'

/-- The halfwidth sound marks extend too, but from a cell of their own. -/
def joinsPrevious (char : Char) : Bool :=
  graphemeExtendRanges.contains char.toNat && !isHalfwidthSoundMark char

/-- A filler is a letter by category, and still draws nothing. -/
def hasVisibleForm (char : Char) : Bool :=
  !unprintableRanges.contains char.toNat && !defaultIgnorableRanges.contains char.toNat

/-- The character is shown as it stands, unless it has a short escape. -/
def isVisible (char : Char) : Bool :=
  if isBeyondAscii char then hasVisibleForm char && !joinsPrevious char
  else decide (32 ≤ char.toNat) && decide (char.toNat ≤ 126)

def codeEscape (char : Char) : Text :=
  '\\' :: 'u' :: '{' :: Nat.toDigits 16 char.toNat ++ ['}']

def escapeChar (char : Char) : Text :=
  if char = '\x00' then ['\\', '0']
  else if char = '\t' then ['\\', 't']
  else if char = '\n' then ['\\', 'n']
  else if char = '\r' then ['\\', 'r']
  else if char = '"' then ['\\', '"']
  else if char = '\\' then ['\\', '\\']
  else if isVisible char then [char]
  else codeEscape char

def shownText (text : Text) : Text :=
  '"' :: text.flatMap escapeChar ++ ['"']

end LedgerLexer
