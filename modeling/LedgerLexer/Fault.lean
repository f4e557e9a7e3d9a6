/-
What can be wrong with a piece of source text, and the error that reports it. A
fault carries what its message names; the kind of error follows from the fault
alone. Errors never end a session.
-/

import LedgerLexer.Date.Reader
import LedgerLexer.Decimal.Reader

namespace LedgerLexer

inductive ErrorKind where
  | lexical
  | conversion
  | resourceLimit
  deriving DecidableEq

namespace ErrorKind

def all : List ErrorKind :=
  [lexical, conversion, resourceLimit]

def name : ErrorKind → Text
  | lexical => "Lexical".toList
  | conversion => "Conversion".toList
  | resourceLimit => "ResourceLimit".toList

def ofName? (name : Text) : Option ErrorKind :=
  all.find? (fun kind => kind.name == name)

end ErrorKind

inductive Fault where
  | unknownRun (run : Text)
  | malformedAccount (account component : Text)
  | badDate (text : Text) (reason : DateFault)
  | badNumber (text : Text) (reason : NumberFault)
  | overlongString (lines : Nat)
  | unterminatedString
  deriving DecidableEq

namespace Fault

def kind : Fault → ErrorKind
  | unknownRun _ => .lexical
  | malformedAccount _ _ => .lexical
  | badDate _ _ => .conversion
  | badNumber _ _ => .conversion
  | overlongString _ => .resourceLimit
  | unterminatedString => .lexical

def message : Fault → Text
  | unknownRun run => "Erroneous token '".toList ++ run ++ "'".toList
  | malformedAccount account component =>
      "Invalid account '".toList ++ account ++ "': erroneous token '".toList ++ component ++
        "'".toList
  | badDate text reason =>
      "Invalid date '".toList ++ text ++ "': ".toList ++ reason.message
  | badNumber text reason =>
      "Invalid number '".toList ++ text ++ "': ".toList ++ reason.message
  | overlongString lines =>
      "Overly long string: spans more than ".toList ++ numeral lines ++ " lines".toList
  | unterminatedString => "Unterminated string".toList

end Fault

structure LexError where
  message : Text
  line : Nat
  kind : ErrorKind
  deriving DecidableEq

def Fault.toError (fault : Fault) (line : Nat) : LexError :=
  ⟨fault.message, line, fault.kind⟩

end LedgerLexer
