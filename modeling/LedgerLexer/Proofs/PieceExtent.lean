/-
How far a piece reaches and what it holds. A line feed stands only in a line break and
in a closed string literal; what an error token shows is a part of its piece; blank
text and comments go on as far as they can, and no other piece ends with a blank.
-/

import LedgerLexer.Session
import LedgerLexer.Proofs.PieceForms

namespace LedgerLexer

namespace Cut

private theorem lineFeeds_eq_zero_of_not_mem (text : Text) (absent : '\n' ∉ text) :
    lineFeeds text = 0 :=
  List.count_eq_zero.2 absent

/-- Only a line break holds a line feed among the matches of shapes. -/
theorem lineFeeds_of_matches (shape : Shape) (text : Text) (matched : shape.pattern.Matches text)
    (notBreak : shape ≠ .lineBreak) : lineFeeds text = 0 := by
  apply lineFeeds_eq_zero_of_not_mem
  intro member
  exact notBreak (Shape.lineBreak_of_lineEnd shape text matched '\n' member rfl)

private theorem lineFeeds_lineBreak (text : Text) (matched : Shape.lineBreak.pattern.Matches text) :
    lineFeeds text = 1 := by
  rcases (Shape.matches_lineBreak_iff text).1 matched with rfl | rfl <;> rfl

theorem lineFeeds_runFrom (first : Char) (others : Text) (notFeed : first ≠ '\n') :
    lineFeeds (runFrom first others) = 0 := by
  apply lineFeeds_eq_zero_of_not_mem
  intro member
  unfold runFrom at member
  split at member
  · exact notFeed (List.mem_singleton.1 member).symm
  · rcases List.mem_cons.1 member with same | later
    · exact notFeed same.symm
    · have continues := List.all_eq_true.1 (List.all_takeWhile (p := continuesRun)) _ later
      cases continues

private theorem not_feed_of_unread (first : Char) (others : Text)
    (unread : ∀ found, Shape.longest? (first :: others) = some found →
      found.shape = .word ∨ found.shape = .name) : first ≠ '\n' := by
  rintro rfl
  rcases unread ⟨.lineBreak, ['\n'], others⟩ rfl with word | name
  · cases word
  · cases name

theorem linesEnded_eq_zero (kind : Kind) (lexeme : Text) (notBreak : kind ≠ .lineBreak)
    (notString : kind ≠ .string) : Session.linesEnded kind lexeme = 0 := by
  unfold Session.linesEnded
  split
  · exact absurd rfl notBreak
  · exact absurd rfl notString
  · rfl

/-- A piece holds the line feeds that its token ends, and no others: one in a line
break, any number in a closed literal, and none anywhere else. -/
theorem Form.lineFeeds_piece {lines : Nat} {text : Text} {cut : Cut} (form : Form lines text cut) :
    lineFeeds cut.piece.text =
      match cut.piece.finding with
      | .token kind _ => Session.linesEnded kind cut.piece.text
      | _ => 0 := by
  cases form with
  | blank longest =>
      exact lineFeeds_of_matches .blank _ (Shape.longest?_matches _ _ longest) (by decide)
  | comment longest =>
      exact lineFeeds_of_matches .comment _ (Shape.longest?_matches _ _ longest) (by decide)
  | @token shape run rest kind value longest reads =>
      have matched : shape.pattern.Matches run := Shape.longest?_matches _ _ longest
      change lineFeeds run = Session.linesEnded kind run
      by_cases breaks : kind = .lineBreak
      · rw [reads.breaks.1 breaks] at matched
        rw [lineFeeds_lineBreak run matched, breaks]
        rfl
      · have notBreak : shape ≠ .lineBreak := fun same => breaks (reads.breaks.2 same)
        rw [lineFeeds_of_matches shape run matched notBreak,
          linesEnded_eq_zero kind run breaks reads.plain.2.2]
  | @badValue shape run rest _ longest converts _ =>
      have matched : shape.pattern.Matches run := Shape.longest?_matches _ _ longest
      have notBreak : shape ≠ .lineBreak := by
        rcases converts with rfl | rfl | rfl <;> decide
      exact lineFeeds_of_matches shape run matched notBreak
  | literal whole closes => rfl
  | openQuote whole abandoned => rfl
  | @unknown first others whole unread =>
      refine lineFeeds_runFrom first others (not_feed_of_unread first others ?_)
      intro found here
      exact unread found (by rw [whole]; exact here)
  | @account first others word rest component whole longest _ _ =>
      refine lineFeeds_runFrom first others (not_feed_of_unread first others ?_)
      intro found here
      rw [← whole, longest] at here
      cases here
      exact Or.inl rfl

private theorem components_infix (word : Text) :
    ∃ first others, components word = first :: others ∧ first <+: word ∧
      ∀ component ∈ others, component <:+: word := by
  induction word with
  | nil => exact ⟨[], [], rfl, List.prefix_refl _, nofun⟩
  | cons char rest ih =>
      obtain ⟨first, others, parts, firstPrefix, inside⟩ := ih
      unfold components List.splitOn at parts ⊢
      rw [List.splitOnP_cons_eq_if_modifyHead, parts]
      split
      · refine ⟨[], first :: others, rfl, List.nil_prefix, ?_⟩
        intro component member
        rcases List.mem_cons.1 member with rfl | later
        · exact List.infix_cons firstPrefix.isInfix
        · exact List.infix_cons (inside component later)
      · refine ⟨char :: first, others, rfl, (List.prefix_cons_inj char).2 firstPrefix, ?_⟩
        intro component member
        exact List.infix_cons (inside component member)

theorem shownComponent_infix (word bad : Text) (colon : ':' ∈ word)
    (found : badComponent? word = some bad) :
    shownComponent bad ≠ [] ∧ shownComponent bad <:+: word := by
  unfold shownComponent
  split
  · obtain ⟨before, behind, whole⟩ := List.append_of_mem colon
    exact ⟨List.cons_ne_nil _ _, before, behind, by rw [whole, List.append_assoc]; rfl⟩
  · rename_i visible
    refine ⟨fun empty => visible (List.isEmpty_iff.2 empty), ?_⟩
    obtain ⟨first, others, parts, firstPrefix, inside⟩ := components_infix word
    have member : bad ∈ components word := List.mem_of_find?_eq_some found
    rw [parts] at member
    rcases List.mem_cons.1 member with rfl | later
    · exact firstPrefix.isInfix
    · exact inside bad later

private theorem takeWhile_prefix_of_imp (narrow wide : Char → Bool)
    (imp : ∀ char, narrow char = true → wide char = true) (text : Text) :
    text.takeWhile narrow <+: text.takeWhile wide := by
  induction text with
  | nil => exact List.prefix_refl _
  | cons char rest ih =>
      by_cases accepted : narrow char = true
      · rw [List.takeWhile_cons_of_pos accepted, List.takeWhile_cons_of_pos (imp char accepted)]
        exact (List.prefix_cons_inj char).2 ih
      · rw [List.takeWhile_cons_of_neg accepted]
        exact List.nil_prefix

private theorem continuesRun_of_isWordPart (char : Char) (part : isWordPart char = true) :
    continuesRun char = true := by
  cases stops : endsRun char with
  | false =>
      unfold continuesRun
      rw [stops]
      rfl
  | true =>
      simp only [endsRun, isBlank, isLineEnd, Bool.or_eq_true, beq_iff_eq] at stops
      rcases stops with (rfl | rfl) | (rfl | rfl) <;> cases part

theorem word_prefix_runFrom (first : Char) (others word rest : Text)
    (longest : Shape.longest? (first :: others) = some ⟨.word, word, rest⟩) :
    word <+: runFrom first others := by
  have found := Shape.longest?_isLongest _ _ longest
  obtain ⟨letter, parts, wordForm, upper, partsMatched⟩ :=
    (Pattern.matches_oneOf_sequence_iff _ _ _).1 found.matched
  have accepted : parts.all isWordPart = true := (Pattern.matches_many_oneOf_iff _ _).1 partsMatched
  have wordText : word = letter :: parts := wordForm
  have whole : word ++ rest = first :: others := found.whole
  rw [wordText, List.cons_append] at whole
  obtain ⟨rfl, rfl⟩ := List.cons.inj whole
  have goesOn : endsRun letter = false := by
    have alphanumeric := Shape.isAlphanum_of_isUpper letter upper
    rw [endsRun, Shape.isBlank_of_isAlphanum letter alphanumeric,
      Shape.isLineEnd_of_isAlphanum letter alphanumeric]
    rfl
  have within := takeWhile_prefix_of_imp isWordPart continuesRun continuesRun_of_isWordPart
    (parts ++ rest)
  rw [Shape.takeWhile_append_of_all _ _ _ accepted] at within
  rw [wordText, runFrom, goesOn, if_neg Bool.false_ne_true]
  exact (List.prefix_cons_inj letter).2 ((List.prefix_append parts _).trans within)

theorem runFrom_eq_cons (first : Char) (others : Text) :
    ∃ later, runFrom first others = first :: later := by
  unfold runFrom
  split
  · exact ⟨[], rfl⟩
  · exact ⟨others.takeWhile continuesRun, rfl⟩

theorem Form.fault_infix {lines : Nat} {text : Text} {cut : Cut} (form : Form lines text cut)
    {lexeme : Text} {reason : Fault} (found : cut.piece.finding = .fault lexeme reason) :
    lexeme ≠ [] ∧ lexeme <:+: cut.piece.text := by
  cases form with
  | blank longest => cases found
  | comment longest => cases found
  | token longest reads => cases found
  | @badValue shape run rest _ longest _ _ =>
      cases found
      exact ⟨Shape.matches_ne_nil shape _ (Shape.longest?_matches _ _ longest),
        List.infix_refl _⟩
  | literal whole closes => cases found
  | openQuote whole abandoned =>
      cases found
      exact ⟨List.cons_ne_nil _ _, List.infix_refl _⟩
  | @unknown first others whole unread =>
      cases found
      obtain ⟨later, run⟩ := runFrom_eq_cons first others
      refine ⟨List.cons_ne_nil _ _, ?_⟩
      change [first] <:+: runFrom first others
      rw [run]
      exact ⟨[], later, rfl⟩
  | @account first others word rest component whole longest colon bad =>
      cases found
      obtain ⟨nonempty, inside⟩ := shownComponent_infix word component colon bad
      subst whole
      exact ⟨nonempty, inside.trans (word_prefix_runFrom first others word rest longest).isInfix⟩

theorem Form.token_kind {lines : Nat} {text : Text} {cut : Cut} (form : Form lines text cut)
    {kind : Kind} {value : Option Value} (found : cut.piece.finding = .token kind value) :
    kind ≠ .error ∧ kind ≠ .indent := by
  cases form with
  | token longest reads =>
      cases found
      exact ⟨reads.plain.1, reads.plain.2.1⟩
  | literal whole closes =>
      cases found
      exact ⟨nofun, nofun⟩
  | _ => cases found

theorem Form.lineBreak_text {lines : Nat} {text : Text} {cut : Cut} (form : Form lines text cut)
    {value : Option Value} (found : cut.piece.finding = .token .lineBreak value) :
    cut.piece.text = ['\n'] ∨ cut.piece.text = ['\r', '\n'] := by
  cases form with
  | token longest reads =>
      cases found
      have matched := Shape.longest?_matches _ _ longest
      rw [reads.breaks.1 rfl] at matched
      exact (Shape.matches_lineBreak_iff _).1 matched
  | _ => cases found

theorem Form.string_getLast {lines : Nat} {text : Text} {cut : Cut} (form : Form lines text cut)
    {value : Option Value} (found : cut.piece.finding = .token .string value) :
    cut.piece.text.getLast? = some '"' := by
  cases form with
  | token longest reads =>
      cases found
      exact absurd rfl reads.plain.2.2
  | literal whole closes =>
      have quoteLast := findLiteralEnd_closed_getLast lines false _ _ _ closes
      change List.getLast? ('"' :: _) = _
      rw [List.getLast?_cons, quoteLast]
      rfl
  | _ => cases found

/-! ### Blanks at the ends of a piece -/

private theorem not_matches_longer (text : Text) (found : Match)
    (longest : Shape.IsLongest found text)
    (next : Char) (later : Text) (behind : found.rest = next :: later) (shape : Shape) :
    ¬ shape.pattern.Matches (found.text ++ [next]) := by
  intro matched
  have whole : (found.text ++ [next]) ++ later = text := by
    rw [← longest.whole, behind, List.append_assoc]
    rfl
  have noLonger := longest.maximal shape _ _ whole matched
  rw [List.length_append, List.length_singleton] at noLonger
  omega

theorem Form.no_blank_behind_layout {lines : Nat} {text : Text} {cut : Cut}
    (form : Form lines text cut)
    (layout : cut.piece.finding = .blank ∨ cut.piece.finding = .comment)
    (next : Char) (later : Text) (behind : cut.rest = next :: later) : isBlank next = false := by
  apply Bool.eq_false_iff.2
  intro blankNext
  cases form with
  | @blank run rest longest =>
      have found := Shape.longest?_isLongest _ _ longest
      obtain ⟨_, accepted⟩ := (Pattern.matches_some_oneOf_iff _ _).1 found.matched
      refine not_matches_longer text _ found next later behind .blank
        ((Pattern.matches_some_oneOf_iff _ _).2 ⟨?_, ?_⟩)
      · exact List.append_ne_nil_of_right_ne_nil _ (List.cons_ne_nil _ _)
      · rw [List.all_append, accepted, List.all_cons, blankNext]
        rfl
  | @comment run rest longest =>
      have found := Shape.longest?_isLongest _ _ longest
      obtain ⟨body, bodyForm, bodyMatched⟩ :=
        (Pattern.matches_char_sequence_iff _ _ _).1 found.matched
      have accepted := (Pattern.matches_many_oneOf_iff _ _).1 bodyMatched
      have runForm : run = ';' :: body := bodyForm
      have commentNext : isCommentPart next = true := by
        simp only [isBlank, Bool.or_eq_true, beq_iff_eq] at blankNext
        rcases blankNext with rfl | rfl <;> rfl
      refine not_matches_longer text _ found next later behind .comment
        ((Pattern.matches_char_sequence_iff _ _ _).2 ⟨body ++ [next], ?_,
          (Pattern.matches_many_oneOf_iff _ _).2 ?_⟩)
      · change run ++ [next] = _
        rw [runForm]
        rfl
      · rw [List.all_append, accepted, List.all_cons, commentNext]
        rfl
  | _ => rcases layout with same | same <;> cases same

private theorem not_blank_of_mem_runFrom (first : Char) (others : Text)
    (unread : ∀ found, Shape.longest? (first :: others) = some found →
      found.shape = .word ∨ found.shape = .name)
    (char : Char) (member : char ∈ runFrom first others) : isBlank char = false := by
  have notFirst : isBlank first = false := by
    apply Bool.eq_false_iff.2
    intro blankFirst
    rcases unread _ (Shape.longest?_blank first others blankFirst) with word | name
    · cases word
    · cases name
  unfold runFrom at member
  split at member
  · rw [List.mem_singleton.1 member]
    exact notFirst
  · rcases List.mem_cons.1 member with rfl | later
    · exact notFirst
    · have goesOn := List.all_eq_true.1 (List.all_takeWhile (p := continuesRun)) _ later
      rw [continuesRun, endsRun, Bool.not_eq_true', Bool.or_eq_false_iff] at goesOn
      exact goesOn.1

theorem Form.layout_of_last_blank {lines : Nat} {text : Text} {cut : Cut}
    (form : Form lines text cut) (last : Char) (ends : cut.piece.text.getLast? = some last)
    (blankLast : isBlank last = true) :
    cut.piece.finding = .blank ∨ cut.piece.finding = .comment := by
  have member := List.mem_of_getLast? ends
  cases form with
  | blank longest => exact Or.inl rfl
  | comment longest => exact Or.inr rfl
  | @token shape run rest kind value longest reads =>
      rcases Shape.layout_of_blank shape run (Shape.longest?_matches _ _ longest) last member
        blankLast with blank | comment
      · exact absurd blank reads.notBlank
      · exact absurd comment reads.notComment
  | @badValue shape run rest _ longest converts _ =>
      rcases Shape.layout_of_blank shape run (Shape.longest?_matches _ _ longest) last member
        blankLast with rfl | rfl
      · rcases converts with same | same | same <;> cases same
      · rcases converts with same | same | same <;> cases same
  | @literal body rest whole closes =>
      have quoteLast := findLiteralEnd_closed_getLast lines false _ body rest closes
      change ('"' :: body).getLast? = some last at ends
      rw [List.getLast?_cons, quoteLast] at ends
      cases ends
      cases blankLast
  | openQuote whole abandoned =>
      cases List.mem_singleton.1 member
      cases blankLast
  | @unknown first others whole unread =>
      have refused := not_blank_of_mem_runFrom first others
        (fun found here => unread found (whole ▸ here)) last member
      rw [blankLast] at refused
      cases refused
  | @account first others word rest component whole longest _ _ =>
      have refused := not_blank_of_mem_runFrom first others (fun found here => by
        rw [← whole, longest] at here
        cases here
        exact Or.inl rfl) last member
      rw [blankLast] at refused
      cases refused

theorem Form.all_blank {lines : Nat} {text : Text} {cut : Cut} (form : Form lines text cut)
    (found : cut.piece.finding = .blank) : cut.piece.text.all isBlank = true := by
  cases form with
  | blank longest =>
      exact ((Pattern.matches_some_oneOf_iff _ _).1 (Shape.longest?_matches _ _ longest)).2
  | _ => cases found

theorem Form.comment_text {lines : Nat} {text : Text} {cut : Cut} (form : Form lines text cut)
    (found : cut.piece.finding = .comment) :
    ∃ body, cut.piece.text = ';' :: body ∧ body.all isCommentPart = true ∧
      cut.rest.head?.all isLineEnd = true := by
  cases form with
  | @comment run rest longest =>
      have longestFound := Shape.longest?_isLongest _ _ longest
      obtain ⟨body, bodyForm, bodyMatched⟩ :=
        (Pattern.matches_char_sequence_iff _ _ _).1 longestFound.matched
      have accepted := (Pattern.matches_many_oneOf_iff _ _).1 bodyMatched
      have runForm : run = ';' :: body := bodyForm
      refine ⟨body, runForm, accepted, ?_⟩
      cases restForm : rest with
      | nil => rfl
      | cons next later =>
          cases lineEnd : isLineEnd next with
          | true => exact lineEnd
          | false =>
              refine absurd ?_ (not_matches_longer text _ longestFound next later restForm .comment)
              refine (Pattern.matches_char_sequence_iff _ _ _).2 ⟨body ++ [next], ?_,
                (Pattern.matches_many_oneOf_iff _ _).2 ?_⟩
              · change run ++ [next] = _
                rw [runForm]
                rfl
              · rw [List.all_append, accepted, List.all_cons, isCommentPart, lineEnd]
                rfl
  | _ => cases found

end Cut

end LedgerLexer
