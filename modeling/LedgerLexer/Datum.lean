/-
Plain data as records are exchanged: nothing, truth values, numbers, texts, lists and
named fields. A number that is not written as an integer is kept as its text, since
no record of the lexer holds one. A field that is given twice has its last value.
-/

import LedgerLexer.Numeral

namespace LedgerLexer

inductive Datum where
  | null
  | truth (value : Bool)
  | integer (value : Int)
  | otherNumber (written : Text)
  | text (text : Text)
  | list (items : List Datum)
  | fields (fields : List (Text × Datum))

namespace Datum

def record (named : List (String × Datum)) : Datum :=
  fields (named.map (fun field => (field.1.toList, field.2)))

def fieldOf? (fields : List (Text × Datum)) (name : String) : Option Datum :=
  (fields.reverse.find? (fun field => field.1 == name.toList)).map Prod.snd

def text? : Datum → Option Text
  | text plain => some plain
  | _ => none

/-- A whole number from zero up that fits into 64 bits. -/
def size? : Datum → Option Nat
  | integer (.ofNat value) => if value < sizeBound then some value else none
  | _ => none

end Datum

end LedgerLexer
