/-
One piece of the source: the text a single match consumes and what that text stands
for. A piece is blank space, a comment, a token, or a fault with the part of the
piece that an error token shows. Which piece comes next depends on the text ahead
and the limit on string lines, and on nothing that came before.
-/

import LedgerLexer.Shape.Longest
import LedgerLexer.Literal
import LedgerLexer.Quoted
import LedgerLexer.Word
import LedgerLexer.Token
import LedgerLexer.Fault

namespace LedgerLexer

inductive Finding where
  | blank
  | comment
  | token (kind : Kind) (value : Option Value)
  | fault (lexeme : Text) (fault : Fault)
  deriving DecidableEq

structure Piece where
  text : Text
  finding : Finding
  deriving DecidableEq

/-- A piece and the text behind it. -/
structure Cut where
  piece : Piece
  rest : Text
  deriving DecidableEq

/-- The piece takes at least one character off the front of a text. -/
def Cut.Splits (cut : Cut) (text : Text) : Prop :=
  cut.piece.text ≠ [] ∧ cut.piece.text ++ cut.rest = text

namespace Cut

def token (kind : Kind) (value : Option Value) (text rest : Text) : Cut :=
  ⟨⟨text, .token kind value⟩, rest⟩

def fault (fault : Fault) (lexeme text rest : Text) : Cut :=
  ⟨⟨text, .fault lexeme fault⟩, rest⟩

def unknownRun (first : Char) (others : Text) : Cut :=
  fault (.unknownRun (runFrom first others)) [first] (runFrom first others)
    (afterRun first others)

def ofDate (text rest : Text) : Cut :=
  match Date.read text with
  | .ok date => token .date (some (.date date)) text rest
  | .error reason => fault (.badDate text reason) text text rest

def ofNumber (text rest : Text) : Cut :=
  match Decimal.read text with
  | .ok number => token .number (some (.number number)) text rest
  | .error reason => fault (.badNumber text reason) text text rest

/-- A literal that does not end costs its opening quote only. -/
def ofLiteral (lines : Nat) (opening rest : Text) : Cut :=
  match literalEnd lines rest with
  | .closed body behind =>
      token .string (some (.content (unquote (opening ++ body)))) (opening ++ body) behind
  | .overlong => fault (.overlongString lines) opening opening rest
  | .unterminated => fault .unterminatedString opening opening rest

def ofWord (first : Char) (others word rest : Text) : Cut :=
  match readWord word with
  | .account => token .account (some (.text word)) word rest
  | .malformedAccount component =>
      fault (.malformedAccount word component) component (runFrom first others)
        (afterRun first others)
  | .truth value => token .bool (some (.truth value)) word rest
  | .null => token .null none word rest
  | .flag => token .flag none word rest
  | .currency => token .currency (some (.text word)) word rest
  | .unknown => unknownRun first others

def ofName (first : Char) (others name rest : Text) : Cut :=
  match readName name with
  | .key identifier => token .key (some (.text identifier)) name rest
  | .keyword directive => token (.keyword directive) none name rest
  | .unknown => unknownRun first others

def ofMatch (lines : Nat) (first : Char) (others : Text) (found : Match) : Cut :=
  match found.shape with
  | .blank => ⟨⟨found.text, .blank⟩, found.rest⟩
  | .comment => ⟨⟨found.text, .comment⟩, found.rest⟩
  | .lineBreak => token .lineBreak none found.text found.rest
  | .date => ofDate found.text found.rest
  | .number | .fraction => ofNumber found.text found.rest
  | .quote => ofLiteral lines found.text found.rest
  | .tag => token .tag (some (.text (found.text.drop 1))) found.text found.rest
  | .link => token .link (some (.text (found.text.drop 1))) found.text found.rest
  | .flag => token .flag none found.text found.rest
  | .word => ofWord first others found.text found.rest
  | .name => ofName first others found.text found.rest
  | .punctuation mark => token (.punctuation mark) none found.text found.rest

/-- The piece at the front of a text; nothing when the text is empty. -/
def next? (lines : Nat) : Text → Option Cut
  | [] => none
  | first :: others =>
      some (match Shape.longest? (first :: others) with
        | some found => ofMatch lines first others found
        | none => unknownRun first others)

/-! ### A piece and what is behind it make up the text -/

private theorem unknownRun_splits (first : Char) (others : Text) :
    (unknownRun first others).Splits (first :: others) := by
  refine ⟨?_, runFrom_append_afterRun first others⟩
  change runFrom first others ≠ []
  unfold runFrom
  split <;> exact List.cons_ne_nil _ _

private theorem ofDate_splits (text rest : Text) (nonempty : text ≠ []) :
    (ofDate text rest).Splits (text ++ rest) := by
  unfold ofDate
  split <;> exact ⟨nonempty, rfl⟩

private theorem ofNumber_splits (text rest : Text) (nonempty : text ≠ []) :
    (ofNumber text rest).Splits (text ++ rest) := by
  unfold ofNumber
  split <;> exact ⟨nonempty, rfl⟩

private theorem ofLiteral_splits (lines : Nat) (opening rest : Text) (nonempty : opening ≠ []) :
    (ofLiteral lines opening rest).Splits (opening ++ rest) := by
  unfold ofLiteral
  split
  · rename_i body behind closes
    refine ⟨List.append_ne_nil_of_left_ne_nil nonempty body, ?_⟩
    change opening ++ body ++ behind = opening ++ rest
    rw [List.append_assoc, findLiteralEnd_closed lines false rest body behind closes]
  · exact ⟨nonempty, rfl⟩
  · exact ⟨nonempty, rfl⟩

private theorem ofWord_splits (first : Char) (others word rest : Text) (nonempty : word ≠ [])
    (whole : word ++ rest = first :: others) :
    (ofWord first others word rest).Splits (first :: others) := by
  unfold ofWord
  split
  case h_2 => exact unknownRun_splits first others
  case h_7 => exact unknownRun_splits first others
  all_goals exact ⟨nonempty, whole⟩

private theorem ofName_splits (first : Char) (others name rest : Text) (nonempty : name ≠ [])
    (whole : name ++ rest = first :: others) :
    (ofName first others name rest).Splits (first :: others) := by
  unfold ofName
  split
  case h_3 => exact unknownRun_splits first others
  all_goals exact ⟨nonempty, whole⟩

private theorem ofMatch_splits (lines : Nat) (first : Char) (others : Text) (found : Match)
    (splits : found.Splits (first :: others)) :
    (ofMatch lines first others found).Splits (first :: others) := by
  obtain ⟨nonempty, whole⟩ := splits
  unfold ofMatch
  split
  case h_4 => rw [← whole]; exact ofDate_splits _ _ nonempty
  case h_5 => rw [← whole]; exact ofNumber_splits _ _ nonempty
  case h_6 => rw [← whole]; exact ofNumber_splits _ _ nonempty
  case h_7 => rw [← whole]; exact ofLiteral_splits lines _ _ nonempty
  case h_11 => exact ofWord_splits first others _ _ nonempty whole
  case h_12 => exact ofName_splits first others _ _ nonempty whole
  all_goals exact ⟨nonempty, whole⟩

theorem next?_splits (lines : Nat) (text : Text) (cut : Cut)
    (here : next? lines text = some cut) : cut.Splits text := by
  cases text with
  | nil => cases here
  | cons first others =>
      rw [next?] at here
      cases here
      split
      · rename_i found longest
        exact ofMatch_splits lines first others found (Shape.longest?_splits _ _ longest)
      · exact unknownRun_splits first others

theorem next?_rest_lt (lines : Nat) (text : Text) (cut : Cut)
    (here : next? lines text = some cut) : cut.rest.length < text.length := by
  obtain ⟨nonempty, whole⟩ := next?_splits lines text cut here
  have positive := List.length_pos_iff.2 nonempty
  have lengths := congrArg List.length whole
  rw [List.length_append] at lengths
  omega

end Cut

def pieces (lines : Nat) (text : Text) : List Piece :=
  match _here : Cut.next? lines text with
  | none => []
  | some cut => cut.piece :: pieces lines cut.rest
termination_by text.length
decreasing_by exact Cut.next?_rest_lt lines text cut _here

def sourceOf (pieces : List Piece) : Text :=
  pieces.flatMap Piece.text

theorem pieces_nil (lines : Nat) : pieces lines [] = [] := by
  rw [pieces]
  rfl

theorem pieces_of_next (lines : Nat) (text : Text) (cut : Cut)
    (here : Cut.next? lines text = some cut) :
    pieces lines text = cut.piece :: pieces lines cut.rest := by
  rw [pieces]
  split
  · rename_i missing
    rw [here] at missing
    cases missing
  · rename_i found foundHere
    rw [here] at foundHere
    cases foundHere
    rfl

theorem Cut.next?_eq_none_iff (lines : Nat) (text : Text) :
    Cut.next? lines text = none ↔ text = [] := by
  cases text with
  | nil => exact ⟨fun _ => rfl, fun _ => rfl⟩
  | cons first others =>
      constructor
      · intro missing
        cases missing
      · intro empty
        cases empty

/-- Nothing of the source is lost and nothing is used twice. -/
theorem sourceOf_pieces (lines : Nat) (text : Text) : sourceOf (pieces lines text) = text := by
  fun_induction pieces lines text with
  | case1 text missing => exact ((Cut.next?_eq_none_iff lines text).1 missing).symm
  | case2 text cut here ih =>
      unfold sourceOf at ih ⊢
      rw [List.flatMap_cons, ih]
      exact (Cut.next?_splits lines text cut here).2

end LedgerLexer
