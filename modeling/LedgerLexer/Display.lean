/-
How tokens and errors are shown. A token takes one line: the number of its line, the
name of its kind, its lexeme in shown form, and its value, if it has one. Only the
content of a string literal is shown between quotes; other values are plain. An error
is its line and message, and a report puts the file before both.
-/

import LedgerLexer.Escape
import LedgerLexer.Token
import LedgerLexer.Fault

namespace LedgerLexer

def shownTruth (value : Bool) : Text :=
  if value then "TRUE".toList else "FALSE".toList

def Value.shown : Value → Text
  | .date day => day.text
  | .number amount => amount.text
  | .content inner => shownText inner
  | .text plain => plain
  | .truth value => shownTruth value

def Token.shownValue (token : Token) : Text :=
  match token.value with
  | some value => ' ' :: value.shown
  | none => []

def Token.shown (token : Token) : Text :=
  numeral token.line ++ ' ' :: token.kind.label ++ ' ' :: shownText token.lexeme ++
    token.shownValue

def LexError.shown (error : LexError) : Text :=
  numeral error.line ++ ": ".toList ++ error.message

def LexError.report (error : LexError) (file : Text) : Text :=
  file ++ ':' :: error.shown

end LedgerLexer
