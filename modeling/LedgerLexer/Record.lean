/-
Tokens, errors and options as records. Writing names every field. Reading asks for
every field and ignores the ones it does not know; a record may also be the list of
its fields in their order, without names, and of exactly their number. A name out of
a fixed choice may also stand as the only field of a record that holds nothing.
-/

import LedgerLexer.Datum
import LedgerLexer.Token
import LedgerLexer.Fault
import LedgerLexer.Options

namespace LedgerLexer

def Value.toDatum : Value → Datum
  | .date day => .record [("Date", .text day.text)]
  | .number amount => .record [("Number", .text amount.text)]
  | .content inner => .record [("Str", .text inner)]
  | .text plain => .record [("Text", .text plain)]
  | .truth value => .record [("Bool", .truth value)]

def Token.toDatum (token : Token) : Datum :=
  .record
    [("kind", .text token.kind.recordName),
      ("line", .integer token.line),
      ("lexeme", .text token.lexeme),
      ("value", (token.value.map Value.toDatum).getD .null)]

def LexError.toDatum (error : LexError) : Datum :=
  .record
    [("msg", .text error.message),
      ("line", .integer error.line),
      ("type", .text error.kind.name)]

def ErrorKind.ofDatum? : Datum → Option ErrorKind
  | .text name => ErrorKind.ofName? name
  | .fields [(name, .null)] => ErrorKind.ofName? name
  | _ => none

def LexError.ofParts? (message line kind : Datum) : Option LexError := do
  let message ← message.text?
  let line ← line.size?
  let kind ← ErrorKind.ofDatum? kind
  pure ⟨message, line, kind⟩

def LexError.ofDatum? : Datum → Option LexError
  | .fields fields => do
      let message ← Datum.fieldOf? fields "msg"
      let line ← Datum.fieldOf? fields "line"
      let kind ← Datum.fieldOf? fields "type"
      LexError.ofParts? message line kind
  | .list [message, line, kind] => LexError.ofParts? message line kind
  | _ => none

/-- Options are taken as they are given; a session raises their limit itself. -/
def Options.ofDatum? : Datum → Option Options
  | .fields fields => do
      let limit ← Datum.fieldOf? fields "long_string_maxlines"
      limit.size?.map Options.mk
  | .list [limit] => limit.size?.map Options.mk
  | _ => none

end LedgerLexer
