/-
What stands behind a match. Only a line break matches a line end, and only blank text
and comments hold blanks, so no other match reaches past the end of its run: a match is
found again before any text that meets it with a blank or a line end, and more text
behind a final line feed changes no match before it.
-/

import LedgerLexer.Proofs.LongestMatch

namespace LedgerLexer

/-- The run before this text ends here: nothing follows, or a blank or a line end. -/
def meetsRunEnd (rest : Text) : Bool :=
  rest.head?.all endsRun

def EndsLine (text : Text) : Prop :=
  text.getLast? = some '\n'

theorem EndsLine.exists_append {text : Text} (ends : EndsLine text) :
    ∃ before, text = before ++ ['\n'] :=
  List.getLast?_eq_some_iff.1 ends

theorem EndsLine.lineFeeds_pos {text : Text} (ends : EndsLine text) : 0 < lineFeeds text :=
  List.count_pos_iff.2 (List.mem_of_getLast? ends)

theorem EndsLine.of_append {front back : Text} (ends : EndsLine (front ++ back)) :
    back = [] ∨ EndsLine back := by
  cases back with
  | nil => exact Or.inl rfl
  | cons char rest =>
      unfold EndsLine at ends ⊢
      rw [List.getLast?_append, List.getLast?_cons, Option.some_or, ← List.getLast?_cons] at ends
      exact Or.inr ends

theorem not_endsLine_nil : ¬ EndsLine [] :=
  fun ends => nomatch ends

def Match.extend (found : Match) (back : Text) : Match :=
  { found with rest := found.rest ++ back }

namespace Shape

open Pattern

theorem lineBreak_of_lineEnd (shape : Shape) (text : Text) (matched : shape.pattern.Matches text)
    (char : Char) (member : char ∈ text) (lineEnd : isLineEnd char = true) :
    shape = .lineBreak := by
  have allowed := alphabet_of_mem matched member
  simp only [isLineEnd, Bool.or_eq_true, beq_iff_eq] at lineEnd
  rcases lineEnd with rfl | rfl
  all_goals
    cases shape with
    | lineBreak => rfl
    | punctuation mark => cases mark <;> cases allowed
    | _ => cases allowed

theorem layout_of_blank (shape : Shape) (text : Text) (matched : shape.pattern.Matches text)
    (char : Char) (member : char ∈ text) (isBlankChar : isBlank char = true) :
    shape = .blank ∨ shape = .comment := by
  have allowed := alphabet_of_mem matched member
  simp only [isBlank, Bool.or_eq_true, beq_iff_eq] at isBlankChar
  rcases isBlankChar with rfl | rfl
  all_goals
    cases shape with
    | blank => exact Or.inl rfl
    | comment => exact Or.inr rfl
    | punctuation mark => cases mark <;> cases allowed
    | _ => cases allowed

theorem matches_lineBreak_iff (text : Text) :
    Shape.lineBreak.pattern.Matches text ↔ text = ['\n'] ∨ text = ['\r', '\n'] := by
  change Matches (sequence (optional (char '\r')) (char '\n')) text ↔ _
  rw [matches_sequence_iff]
  constructor
  · intro parts
    obtain ⟨carriage, feed, rfl, carriageMatched, feedMatched⟩ := parts
    rw [matches_char_iff] at feedMatched
    subst feedMatched
    rcases (matches_optional_iff _ _).1 carriageMatched with rfl | present
    · exact Or.inl rfl
    · rw [matches_char_iff] at present
      subst present
      exact Or.inr rfl
  · intro either
    have feed : Matches (char '\n') ['\n'] := (matches_char_iff _ _).2 rfl
    rcases either with rfl | rfl
    · exact ⟨[], ['\n'], rfl, (matches_optional_iff _ _).2 (Or.inl rfl), feed⟩
    · exact ⟨['\r'], ['\n'], rfl,
        (matches_optional_iff _ _).2 (Or.inr ((matches_char_iff _ _).2 rfl)), feed⟩

private theorem nothing_behind_lineFeed (shape : Shape) (front back : Text)
    (matched : shape.pattern.Matches (front ++ '\n' :: back)) : back = [] := by
  have member : '\n' ∈ front ++ '\n' :: back :=
    List.mem_append_right _ (List.mem_cons_self ..)
  have breaks := lineBreak_of_lineEnd shape _ matched '\n' member rfl
  subst breaks
  rcases (matches_lineBreak_iff _).1 matched with feed | both
  · cases front with
    | nil => exact (List.cons.inj feed).2
    | cons char rest => cases rest <;> cases feed
  · cases front with
    | nil => cases both
    | cons char rest =>
        cases rest with
        | nil => exact (List.cons.inj (List.cons.inj both).2).2
        | cons next later => cases later <;> cases both

private theorem layout_of_runEnd (shape : Shape) (run later : Text) (char : Char)
    (ends : endsRun char = true) (nonempty : run ≠ []) (notReturn : run ≠ ['\r'])
    (matched : shape.pattern.Matches (run ++ char :: later)) :
    shape = .blank ∨ shape = .comment := by
  have member : char ∈ run ++ char :: later := List.mem_append_right _ (List.mem_cons_self ..)
  rw [endsRun, Bool.or_eq_true] at ends
  rcases ends with blank | lineEnd
  · exact layout_of_blank shape _ matched char member blank
  · have breaks := lineBreak_of_lineEnd shape _ matched char member lineEnd
    subst breaks
    cases run with
    | nil => exact absurd rfl nonempty
    | cons first rest =>
        rcases (matches_lineBreak_iff _).1 matched with feed | both
        · cases rest <;> cases feed
        · cases rest with
          | nil =>
              rw [(List.cons.inj both).1] at notReturn
              exact absurd rfl notReturn
          | cons next more => cases more <;> cases both

private theorem not_matches_return (shape : Shape) : ¬ shape.pattern.Matches ['\r'] := by
  intro matched
  have breaks := lineBreak_of_lineEnd shape _ matched '\r' (List.mem_singleton_self _) rfl
  subst breaks
  rcases (matches_lineBreak_iff _).1 matched with feed | both
  · cases feed
  · cases both

theorem longest?_lineBreak (run rest : Text) (matched : Shape.lineBreak.pattern.Matches run) :
    longest? (run ++ rest) = Option.some ⟨.lineBreak, run, rest⟩ := by
  rcases (matches_lineBreak_iff _).1 matched with rfl | rfl <;> rfl

private theorem blank_of_longer_blank (shape : Shape) (run later : Text) (nonempty : run ≠ [])
    (matched : shape.pattern.Matches run) (longer : Shape.blank.pattern.Matches (run ++ later)) :
    shape = .blank := by
  obtain ⟨_, accepted⟩ := (matches_some_oneOf_iff _ _).1 longer
  rw [List.all_append, Bool.and_eq_true] at accepted
  exact shape_unique shape .blank run matched
    ((matches_some_oneOf_iff _ _).2 ⟨nonempty, accepted.1⟩)

private theorem comment_of_longer_comment (shape : Shape) (run later : Text) (nonempty : run ≠ [])
    (matched : shape.pattern.Matches run) (longer : Shape.comment.pattern.Matches (run ++ later)) :
    shape = .comment := by
  obtain ⟨body, whole, bodyMatched⟩ := (matches_char_sequence_iff _ _ _).1 longer
  cases run with
  | nil => exact absurd rfl nonempty
  | cons first rest =>
      rw [List.cons_append] at whole
      obtain ⟨sameFirst, sameRest⟩ := List.cons.inj whole
      rw [matches_many_oneOf_iff, ← sameRest, List.all_append, Bool.and_eq_true] at bodyMatched
      refine shape_unique shape .comment (first :: rest) matched ?_
      rw [sameFirst]
      exact (matches_char_sequence_iff _ _ _).2
        ⟨rest, rfl, (matches_many_oneOf_iff _ _).2 bodyMatched.1⟩

/-- Before a blank, a line end or the end of the input, every match but blank text and
a comment is the longest one. -/
theorem longest?_before_runEnd (shape : Shape) (run rest : Text)
    (matched : shape.pattern.Matches run)
    (notBlank : shape ≠ .blank) (notComment : shape ≠ .comment) (meets : meetsRunEnd rest = true) :
    longest? (run ++ rest) = Option.some ⟨shape, run, rest⟩ := by
  have nonempty := matches_ne_nil shape run matched
  have notReturn : run ≠ ['\r'] := by
    intro same
    rw [same] at matched
    exact not_matches_return shape matched
  refine (longest?_eq_some_iff _ _).2 ⟨rfl, matched, ?_⟩
  intro other front back whole otherMatched
  apply Nat.le_of_not_lt
  intro longer
  -- A longer front takes the run and the character that ends it.
  rcases List.append_eq_append_iff.1 whole with ⟨more, runWhole, _⟩ | ⟨more, rfl, restWhole⟩
  · rw [runWhole, List.length_append] at longer
    omega
  · cases more with
    | nil =>
        rw [List.append_nil] at longer
        exact absurd longer (Nat.lt_irrefl _)
    | cons char later =>
        have ends : endsRun char = true := by
          rw [restWhole] at meets
          exact meets
        rcases layout_of_runEnd other run later char ends nonempty notReturn otherMatched with
          rfl | rfl
        · exact notBlank (blank_of_longer_blank shape run _ nonempty matched otherMatched)
        · exact notComment (comment_of_longer_comment shape run _ nonempty matched otherMatched)

private theorem front_within_line (shape : Shape) (text back front after : Text)
    (ends : EndsLine text)
    (whole : front ++ after = text ++ back) (matched : shape.pattern.Matches front) :
    ∃ rest, text = front ++ rest := by
  rcases List.append_eq_append_iff.1 whole with ⟨more, textWhole, _⟩ | ⟨more, rfl, _⟩
  · exact ⟨more, textWhole⟩
  · obtain ⟨before, rfl⟩ := ends.exists_append
    rw [List.append_assoc] at matched
    have empty := nothing_behind_lineFeed shape before more matched
    rw [empty, List.append_nil]
    exact ⟨[], (List.append_nil _).symm⟩

theorem longest?_append (text back : Text) (ends : EndsLine text) :
    longest? (text ++ back) = (longest? text).map (Match.extend · back) := by
  cases here : longest? text with
  | none =>
      refine (longest?_eq_none_iff _).2 ?_
      intro shape front after whole matched
      obtain ⟨rest, textWhole⟩ := front_within_line shape text back front after ends whole matched
      exact (longest?_eq_none_iff text).1 here shape front rest textWhole.symm matched
  | some found =>
      have longest := longest?_isLongest text found here
      refine (longest?_eq_some_iff _ _).2 ⟨?_, longest.matched, ?_⟩
      · change found.text ++ (found.rest ++ back) = text ++ back
        rw [← List.append_assoc, longest.whole]
      · intro shape front after whole matched
        obtain ⟨rest, textWhole⟩ := front_within_line shape text back front after ends whole matched
        exact longest.maximal shape front rest textWhole.symm matched

end Shape

end LedgerLexer
