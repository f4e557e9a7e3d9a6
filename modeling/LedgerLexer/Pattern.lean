/-
Regular patterns over characters, and the relation that says which texts one
matches. The relation only describes: it does not search, and it prefers no match
over another.
-/

import LedgerLexer.Text

namespace LedgerLexer

inductive Pattern where
  | empty
  | oneOf (accepts : Char → Bool)
  | sequence (first second : Pattern)
  | either (first second : Pattern)
  | many (item : Pattern)

namespace Pattern

def char (expected : Char) : Pattern :=
  oneOf (· == expected)

def optional (item : Pattern) : Pattern :=
  either item empty

def some (item : Pattern) : Pattern :=
  sequence item (many item)

def exactly : Text → Pattern
  | [] => empty
  | first :: rest => sequence (char first) (exactly rest)

inductive Matches : Pattern → Text → Prop where
  | empty : Matches empty []
  | oneOf {accepts : Char → Bool} {character : Char} :
      accepts character = true → Matches (oneOf accepts) [character]
  | sequence {first second : Pattern} {front back : Text} :
      Matches first front → Matches second back →
        Matches (sequence first second) (front ++ back)
  | inFirst {first second : Pattern} {text : Text} :
      Matches first text → Matches (either first second) text
  | inSecond {first second : Pattern} {text : Text} :
      Matches second text → Matches (either first second) text
  | none {item : Pattern} : Matches (many item) []
  | more {item : Pattern} {front back : Text} :
      Matches item front → Matches (many item) back → Matches (many item) (front ++ back)

end Pattern

end LedgerLexer
