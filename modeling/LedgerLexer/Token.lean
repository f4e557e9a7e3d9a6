/-
Tokens: the kind, the line it begins on, the source text it covers, and the value
read from that text. Contents of string literals are kept apart from plain text,
since the two are shown differently.
-/

import LedgerLexer.Kind
import LedgerLexer.Date
import LedgerLexer.Decimal

namespace LedgerLexer

inductive Value where
  | date (date : Date)
  | number (number : Decimal)
  /-- The content of a string literal, without its quotes. -/
  | content (content : Text)
  /-- An account, a currency, or the identifier of a tag, a link or a key. -/
  | text (text : Text)
  | truth (value : Bool)
  deriving DecidableEq

structure Token where
  kind : Kind
  line : Nat
  lexeme : Text
  value : Option Value
  deriving DecidableEq

end LedgerLexer
