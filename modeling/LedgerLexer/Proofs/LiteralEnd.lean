/-
The end of a literal does not depend on the text behind it. A closed literal ends with
its closing quote and ends there before any other text; a literal that is too long
stays so when more text follows.
-/

import LedgerLexer.Literal

namespace LedgerLexer

theorem LiteralEnd.cons_eq_closed_iff (char : Char) (found : LiteralEnd) (body rest : Text) :
    found.cons char = .closed body rest ↔
      ∃ tail, found = .closed tail rest ∧ body = char :: tail := by
  cases found with
  | closed tail behind =>
      constructor
      · intro same
        cases same
        exact ⟨tail, rfl, rfl⟩
      · intro parts
        obtain ⟨other, same, whole⟩ := parts
        cases same
        rw [whole]
        rfl
  | overlong => exact ⟨nofun, nofun⟩
  | unterminated => exact ⟨nofun, nofun⟩

theorem LiteralEnd.cons_eq_overlong_iff (char : Char) (found : LiteralEnd) :
    found.cons char = .overlong ↔ found = .overlong := by
  cases found with
  | closed tail behind => exact ⟨nofun, nofun⟩
  | overlong => exact ⟨fun _ => rfl, fun _ => rfl⟩
  | unterminated => exact ⟨nofun, nofun⟩

theorem findLiteralEnd_inside (lines : Nat) (escaped : Bool) (char : Char) (rest : Text)
    (noFeed : char ≠ '\n') (inside : char = '"' → escaped = true) :
    findLiteralEnd lines escaped (char :: rest) =
      (findLiteralEnd lines (!escaped && char == '\\') rest).cons char := by
  rw [findLiteralEnd, if_neg noFeed]
  cases escaped with
  | true => rfl
  | false =>
      have notClosing : char ≠ '"' := fun quote => nomatch inside quote
      rw [if_neg Bool.false_ne_true, if_neg notClosing]
      rfl

/-- A body up to and including the closing quote, with so many lines left and the first
character escaped or not. -/
inductive Closes : Nat → Bool → Text → Prop where
  | quote {lines : Nat} : Closes lines false ['"']
  | lineFeed {lines : Nat} {escaped : Bool} {body : Text} (more : 1 < lines)
      (later : Closes (lines - 1) false body) : Closes lines escaped ('\n' :: body)
  | inside {lines : Nat} {escaped : Bool} {char : Char} {body : Text} (noFeed : char ≠ '\n')
      (goesOn : char = '"' → escaped = true)
      (later : Closes lines (!escaped && char == '\\') body) :
      Closes lines escaped (char :: body)

/-- The search finds nothing but such a body, and finds it before any text. -/
theorem findLiteralEnd_eq_closed_iff (lines : Nat) (escaped : Bool) (text body rest : Text) :
    findLiteralEnd lines escaped text = .closed body rest ↔
      Closes lines escaped body ∧ body ++ rest = text := by
  constructor
  · intro closes
    refine ⟨?_, findLiteralEnd_closed lines escaped text body rest closes⟩
    induction text generalizing lines escaped body with
    | nil => cases closes
    | cons char later ih =>
        rw [findLiteralEnd] at closes
        split at closes
        · rename_i feed
          subst feed
          split at closes
          · cases closes
          · rename_i more
            obtain ⟨tail, found, rfl⟩ := (LiteralEnd.cons_eq_closed_iff _ _ _ _).1 closes
            exact .lineFeed (by omega) (ih _ _ _ found)
        · rename_i noFeed
          split at closes
          · rename_i isEscaped
            subst isEscaped
            obtain ⟨tail, found, rfl⟩ := (LiteralEnd.cons_eq_closed_iff _ _ _ _).1 closes
            exact .inside noFeed (fun _ => rfl) (ih _ _ _ found)
          · rename_i notEscaped
            obtain rfl : escaped = false := Bool.eq_false_iff.2 notEscaped
            split at closes
            · rename_i closing
              subst closing
              cases closes
              exact .quote
            · rename_i notClosing
              obtain ⟨tail, found, rfl⟩ := (LiteralEnd.cons_eq_closed_iff _ _ _ _).1 closes
              exact .inside noFeed (fun quote => absurd quote notClosing) (ih _ _ _ found)
  · rintro ⟨closes, rfl⟩
    induction closes with
    | quote => rfl
    | lineFeed more _ ih =>
        rw [List.cons_append, findLiteralEnd, if_pos rfl, if_neg (by omega), ih]
        rfl
    | @inside lines escaped char body noFeed goesOn _ ih =>
        rw [List.cons_append, findLiteralEnd_inside lines escaped char _ noFeed goesOn, ih]
        rfl

theorem findLiteralEnd_body (lines : Nat) (escaped : Bool) (text body rest : Text)
    (closes : findLiteralEnd lines escaped text = .closed body rest) (other : Text) :
    findLiteralEnd lines escaped (body ++ other) = .closed body other :=
  (findLiteralEnd_eq_closed_iff _ _ _ _ _).2
    ⟨((findLiteralEnd_eq_closed_iff _ _ _ _ _).1 closes).1, rfl⟩

theorem findLiteralEnd_overlong_append (lines : Nat) (escaped : Bool) (text : Text)
    (tooLong : findLiteralEnd lines escaped text = .overlong) (back : Text) :
    findLiteralEnd lines escaped (text ++ back) = .overlong := by
  induction text generalizing lines escaped with
  | nil => cases tooLong
  | cons char later ih =>
      rw [findLiteralEnd] at tooLong
      rw [List.cons_append, findLiteralEnd]
      split at tooLong
      · rename_i feed
        rw [if_pos feed]
        split at tooLong
        · rename_i spent
          rw [if_pos spent]
        · rename_i enough
          rw [if_neg enough, ih _ _ ((LiteralEnd.cons_eq_overlong_iff _ _).1 tooLong)]
          rfl
      · rename_i noFeed
        rw [if_neg noFeed]
        split at tooLong
        · rename_i isEscaped
          rw [if_pos isEscaped, ih _ _ ((LiteralEnd.cons_eq_overlong_iff _ _).1 tooLong)]
          rfl
        · rename_i notEscaped
          rw [if_neg notEscaped]
          split at tooLong
          · cases tooLong
          · rename_i notClosing
            rw [if_neg notClosing, ih _ _ ((LiteralEnd.cons_eq_overlong_iff _ _).1 tooLong)]
            rfl

theorem Closes.getLast {lines : Nat} {escaped : Bool} {body : Text}
    (closes : Closes lines escaped body) : body.getLast? = some '"' := by
  induction closes with
  | quote => rfl
  | lineFeed _ _ ih => simp [List.getLast?_cons, ih]
  | inside _ _ _ ih => simp [List.getLast?_cons, ih]

theorem findLiteralEnd_closed_getLast (lines : Nat) (escaped : Bool) (text body rest : Text)
    (closes : findLiteralEnd lines escaped text = .closed body rest) :
    body.getLast? = some '"' :=
  ((findLiteralEnd_eq_closed_iff _ _ _ _ _).1 closes).1.getLast

end LedgerLexer
