/-
The lexical shapes and the pattern of each. Several shapes are broader than the
token kinds read from them, so that a malformed date, number or account is reported
as a whole: every text that begins with four digits and a date separator has the
date shape, and every word with an uppercase first letter has the word shape. A
string literal has the shape of its opening quote only.
-/

import LedgerLexer.Pattern

namespace LedgerLexer

inductive Mark where
  | comma
  | pipe
  | atSign
  | doubleAt
  | openBrace
  | doubleOpenBrace
  | closeBrace
  | doubleCloseBrace
  | tilde
  deriving DecidableEq

def Mark.all : List Mark :=
  [comma, pipe, atSign, doubleAt, openBrace, doubleOpenBrace, closeBrace, doubleCloseBrace, tilde]

def Mark.text : Mark → Text
  | comma => [',']
  | pipe => ['|']
  | atSign => ['@']
  | doubleAt => ['@', '@']
  | openBrace => ['{']
  | doubleOpenBrace => ['{', '{']
  | closeBrace => ['}']
  | doubleCloseBrace => ['}', '}']
  | tilde => ['~']

def Mark.ofText? (text : Text) : Option Mark :=
  Mark.all.find? (fun mark => mark.text == text)

def isLabelPart (char : Char) : Bool :=
  char.isAlphanum || char == '-' || char == '_' || char == '/' || char == '.'

def isFlagMark (char : Char) : Bool :=
  char == '!' || char == '&' || char == '?' || char == '%' || char == '*' || char == '#'

def isWordPart (char : Char) : Bool :=
  char.isAlphanum || char == '\'' || char == '.' || char == '_' || char == ':' || char == '-' ||
    isBeyondAscii char

def isNamePart (char : Char) : Bool :=
  char.isAlphanum || char == '_' || char == '-'

def isCommentPart (char : Char) : Bool :=
  !isLineEnd char

inductive Shape where
  | blank
  | lineBreak
  | comment
  | date
  | number
  | fraction
  | quote
  | tag
  | link
  | flag
  | word
  | name
  | punctuation (mark : Mark)
  deriving DecidableEq

def Shape.all : List Shape :=
  [blank, lineBreak, comment, date, number, fraction, quote, tag, link, flag, word, name] ++
    Mark.all.map punctuation

namespace Shape

open Pattern

def digit : Pattern := oneOf Char.isDigit

def dateSeparator : Pattern := oneOf isDateSeparator

def sign : Pattern := optional (oneOf isSign)

/-- A separator after four digits, and behind it at most a month, a second
separator and a day, each of any number of digits. -/
def datePattern : Pattern :=
  sequence digit (sequence digit (sequence digit (sequence digit (sequence dateSeparator
    (optional (sequence (some digit)
      (optional (sequence dateSeparator (many digit)))))))))

def numberPattern : Pattern :=
  sequence sign (sequence (some digit) (sequence (many (sequence (char ',') (some digit)))
    (many (sequence (char '.') (many digit)))))

def fractionPattern : Pattern :=
  sequence sign (sequence (char '.') (some digit))

def pattern : Shape → Pattern
  | blank => some (oneOf isBlank)
  | lineBreak => sequence (optional (char '\r')) (char '\n')
  | comment => sequence (char ';') (many (oneOf isCommentPart))
  | date => datePattern
  | number => numberPattern
  | fraction => fractionPattern
  | quote => char '"'
  | tag => sequence (char '#') (some (oneOf isLabelPart))
  | link => sequence (char '^') (some (oneOf isLabelPart))
  | flag => oneOf isFlagMark
  | word => sequence (oneOf Char.isUpper) (many (oneOf isWordPart))
  | name => sequence (oneOf Char.isLower)
      (sequence (many (oneOf isNamePart)) (optional (char ':')))
  | punctuation mark => exactly mark.text

end Shape

end LedgerLexer
