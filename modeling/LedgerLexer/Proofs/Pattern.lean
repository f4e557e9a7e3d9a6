/-
Reading a match of a pattern back from the text: for every way to build a pattern,
what a text that matches it looks like. Texts over one character class and texts
with a fixed first class come out as plain conditions on their characters, and the
characters that a pattern can use at all bound what any match of it holds.
-/

import LedgerLexer.Pattern

namespace LedgerLexer

namespace Pattern

theorem matches_empty_iff (text : Text) : Matches empty text ↔ text = [] := by
  constructor
  · intro matched
    cases matched
    rfl
  · rintro rfl
    exact .empty

theorem matches_oneOf_iff (accepts : Char → Bool) (text : Text) :
    Matches (oneOf accepts) text ↔ ∃ char, text = [char] ∧ accepts char = true := by
  constructor
  · intro matched
    cases matched with
    | oneOf accepted => exact ⟨_, rfl, accepted⟩
  · rintro ⟨char, rfl, accepted⟩
    exact .oneOf accepted

theorem matches_char_iff (expected : Char) (text : Text) :
    Matches (char expected) text ↔ text = [expected] := by
  unfold char
  rw [matches_oneOf_iff]
  constructor
  · rintro ⟨found, rfl, same⟩
    rw [eq_of_beq same]
  · rintro rfl
    exact ⟨expected, rfl, beq_self_eq_true expected⟩

theorem matches_sequence_iff (first second : Pattern) (text : Text) :
    Matches (sequence first second) text ↔
      ∃ front back, text = front ++ back ∧ Matches first front ∧ Matches second back := by
  constructor
  · intro matched
    cases matched with
    | sequence firstMatched secondMatched => exact ⟨_, _, rfl, firstMatched, secondMatched⟩
  · rintro ⟨front, back, rfl, firstMatched, secondMatched⟩
    exact .sequence firstMatched secondMatched

theorem matches_optional_iff (item : Pattern) (text : Text) :
    Matches (optional item) text ↔ text = [] ∨ Matches item text := by
  constructor
  · intro matched
    cases matched with
    | inFirst present => exact Or.inr present
    | inSecond absent => exact Or.inl ((matches_empty_iff text).1 absent)
  · rintro (rfl | present)
    · exact .inSecond .empty
    · exact .inFirst present

theorem matches_exactly_iff (expected text : Text) :
    Matches (exactly expected) text ↔ text = expected := by
  induction expected generalizing text with
  | nil => exact matches_empty_iff text
  | cons first rest ih =>
      unfold exactly
      rw [matches_sequence_iff]
      constructor
      · rintro ⟨front, back, rfl, firstMatched, restMatched⟩
        rw [(matches_char_iff first front).1 firstMatched, (ih back).1 restMatched]
        rfl
      · rintro rfl
        exact ⟨[first], rest, rfl, (matches_char_iff first [first]).2 rfl, (ih rest).2 rfl⟩

theorem matches_oneOf_sequence_iff (accepts : Char → Bool) (later : Pattern) (text : Text) :
    Matches (sequence (oneOf accepts) later) text ↔
      ∃ char rest, text = char :: rest ∧ accepts char = true ∧ Matches later rest := by
  rw [matches_sequence_iff]
  constructor
  · rintro ⟨front, back, rfl, firstMatched, laterMatched⟩
    obtain ⟨char, rfl, accepted⟩ := (matches_oneOf_iff accepts front).1 firstMatched
    exact ⟨char, back, rfl, accepted, laterMatched⟩
  · rintro ⟨char, rest, rfl, accepted, laterMatched⟩
    exact ⟨[char], rest, rfl, .oneOf accepted, laterMatched⟩

theorem matches_char_sequence_iff (expected : Char) (later : Pattern) (text : Text) :
    Matches (sequence (char expected) later) text ↔
      ∃ rest, text = expected :: rest ∧ Matches later rest := by
  unfold char
  rw [matches_oneOf_sequence_iff]
  constructor
  · rintro ⟨found, rest, rfl, same, laterMatched⟩
    exact ⟨rest, by rw [eq_of_beq same], laterMatched⟩
  · rintro ⟨rest, rfl, laterMatched⟩
    exact ⟨expected, rest, rfl, beq_self_eq_true expected, laterMatched⟩

/-- What holds of the empty text, and of an item put before any text that has it,
holds of every repetition. -/
theorem many_induction {item : Pattern} {motive : Text → Prop} (nil : motive [])
    (more : ∀ front back, Matches item front → Matches (many item) back → motive back →
      motive (front ++ back))
    {text : Text} (matched : Matches (many item) text) : motive text := by
  generalize shaped : many item = pattern at matched
  induction matched with
  | none => exact nil
  | more itemMatched restMatched _ ih =>
      cases shaped
      exact more _ _ itemMatched restMatched (ih rfl)
  | _ => cases shaped

theorem matches_many_oneOf_iff (accepts : Char → Bool) (text : Text) :
    Matches (many (oneOf accepts)) text ↔ text.all accepts = true := by
  constructor
  · refine many_induction (motive := fun text => text.all accepts = true) rfl ?_
    intro front back itemMatched _ backAccepted
    obtain ⟨char, rfl, accepted⟩ := (matches_oneOf_iff accepts front).1 itemMatched
    rw [List.singleton_append, List.all_cons, accepted, backAccepted, Bool.and_self]
  · intro accepted
    induction text with
    | nil => exact .none
    | cons char rest ih =>
        rw [List.all_cons, Bool.and_eq_true] at accepted
        exact .more (.oneOf accepted.1) (ih accepted.2)

theorem matches_some_oneOf_iff (accepts : Char → Bool) (text : Text) :
    Matches (some (oneOf accepts)) text ↔ text ≠ [] ∧ text.all accepts = true := by
  unfold some
  rw [matches_oneOf_sequence_iff]
  constructor
  · rintro ⟨char, rest, rfl, accepted, restMatched⟩
    rw [matches_many_oneOf_iff] at restMatched
    rw [List.all_cons, accepted, restMatched]
    exact ⟨List.cons_ne_nil _ _, rfl⟩
  · rintro ⟨nonempty, accepted⟩
    cases text with
    | nil => exact absurd rfl nonempty
    | cons char rest =>
        rw [List.all_cons, Bool.and_eq_true] at accepted
        exact ⟨char, rest, rfl, accepted.1, (matches_many_oneOf_iff accepts rest).2 accepted.2⟩

/-- The characters that a match of the pattern can hold. -/
def alphabet : Pattern → Char → Bool
  | empty, _ => false
  | oneOf accepts, char => accepts char
  | sequence first second, char => first.alphabet char || second.alphabet char
  | either first second, char => first.alphabet char || second.alphabet char
  | many item, char => item.alphabet char

theorem alphabet_of_mem {pattern : Pattern} {text : Text} (matched : Matches pattern text)
    {char : Char} (member : char ∈ text) : pattern.alphabet char = true := by
  induction matched with
  | empty => cases member
  | oneOf accepted =>
      cases List.mem_singleton.1 member
      exact accepted
  | sequence _ _ ihFirst ihSecond =>
      unfold alphabet
      rcases List.mem_append.1 member with inFront | inBack
      · rw [ihFirst inFront, Bool.true_or]
      · rw [ihSecond inBack, Bool.or_true]
  | inFirst _ ih =>
      unfold alphabet
      rw [ih member, Bool.true_or]
  | inSecond _ ih =>
      unfold alphabet
      rw [ih member, Bool.or_true]
  | none => cases member
  | more _ _ ihItem ihRest =>
      rcases List.mem_append.1 member with inFront | inBack
      · exact ihItem inFront
      · exact ihRest inBack

end Pattern

end LedgerLexer
