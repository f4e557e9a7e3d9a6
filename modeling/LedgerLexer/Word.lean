/-
What a word stands for. Words begin with an uppercase letter and share one broad
shape: a word with a colon is an account or a malformed account, and any other word
is a truth value, the null value, a one-letter flag, a currency, or unknown. Names
begin with a lowercase letter: a name that ends with a colon is a metadata key, and
any other name is a directive's keyword or unknown.
-/

import LedgerLexer.Kind

namespace LedgerLexer

def isComponentStart (char : Char) : Bool :=
  char.isUpper || char.isDigit || isBeyondAscii char

def isComponentPart (char : Char) : Bool :=
  char.isAlphanum || char == '-' || isBeyondAscii char

/-- A component has at least two characters. -/
def isComponent : Text → Bool
  | first :: second :: rest =>
      isComponentStart first && (second :: rest).all isComponentPart
  | _ => false

def components (word : Text) : List Text :=
  word.splitOn ':'

def badComponent? (word : Text) : Option Text :=
  (components word).find? (fun component => !isComponent component)

/-- An empty component is shown as the colon before it. -/
def shownComponent (component : Text) : Text :=
  if component.isEmpty then [':'] else component

def isCurrencyPart (char : Char) : Bool :=
  char.isUpper || char.isDigit || char == '\'' || char == '.' || char == '_' || char == '-'

def isCurrencyEnd (char : Char) : Bool :=
  char.isUpper || char.isDigit

def isCurrency (word : Text) : Bool :=
  decide (2 ≤ word.length) && word.all isCurrencyPart && word.head?.any Char.isUpper &&
    word.getLast?.any isCurrencyEnd

def letterFlags : Text :=
  "PSTCURM".toList

def isLetterFlag : Text → Bool
  | [letter] => letterFlags.contains letter
  | _ => false

inductive WordReading where
  | account
  | malformedAccount (component : Text)
  | truth (value : Bool)
  | null
  | flag
  | currency
  | unknown
  deriving DecidableEq

def readAccount (word : Text) : WordReading :=
  match badComponent? word with
  | none => .account
  | some component => .malformedAccount (shownComponent component)

def readWord (word : Text) : WordReading :=
  if word.contains ':' then readAccount word
  else if word = "TRUE".toList then .truth true
  else if word = "FALSE".toList then .truth false
  else if word = "NULL".toList then .null
  else if isLetterFlag word then .flag
  else if isCurrency word then .currency
  else .unknown

inductive NameReading where
  | key (identifier : Text)
  | keyword (directive : Directive)
  | unknown
  deriving DecidableEq

def readName (name : Text) : NameReading :=
  if name.getLast? = some ':' then .key name.dropLast
  else
    match Directive.ofKeyword? name with
    | some directive => .keyword directive
    | none => .unknown

end LedgerLexer
