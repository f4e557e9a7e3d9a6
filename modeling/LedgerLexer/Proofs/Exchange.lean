/-
What may stand behind a piece. A piece sees three things of the text behind it: how that
text opens, the content that stands against the piece, and, when a literal does not end,
why the search for its end fails. Two texts that agree on these are exchangeable, and any
piece but blank text and a comment is read before the one as it is before the other.
-/

import LedgerLexer.Proofs.LiteralFailure
import LedgerLexer.Proofs.Runs

namespace LedgerLexer

/-- A character that is no layout and begins none. -/
def isContentPart (char : Char) : Bool :=
  continuesRun char && char != ';'

def contentRun (text : Text) : Text :=
  text.takeWhile isContentPart

private theorem contentRun_append_congr (front text other : Text)
    (same : contentRun text = contentRun other) :
    contentRun (front ++ text) = contentRun (front ++ other) := by
  unfold contentRun at same ⊢
  rw [List.takeWhile_append, List.takeWhile_append, same]

private theorem contentRun_of_endsRun (first : Char) (others : Text) (ends : endsRun first = true) :
    contentRun (first :: others) = [] := by
  apply List.takeWhile_cons_of_neg
  rw [isContentPart, continuesRun, ends]
  exact Bool.false_ne_true

theorem isContentPart_iff (char : Char) :
    isContentPart char = true ↔
      isBlank char = false ∧ isLineEnd char = false ∧ char ≠ ';' := by
  simp only [isContentPart, continuesRun, endsRun, Bool.and_eq_true, Bool.not_eq_true',
    Bool.or_eq_false_iff, bne_iff_ne, and_assoc, ne_eq]

namespace Shape

private theorem comment_of_semicolon (shape : Shape) (text : Text)
    (matched : shape.pattern.Matches text) (member : ';' ∈ text) : shape = .comment := by
  have allowed := Pattern.alphabet_of_mem matched member
  cases shape with
  | comment => rfl
  | punctuation mark => cases mark <;> cases allowed
  | _ => cases allowed

private theorem all_content_of_first (shape : Shape) (first : Char) (later : Text)
    (matched : shape.pattern.Matches (first :: later)) (content : isContentPart first = true) :
    (first :: later).all isContentPart = true := by
  obtain ⟨notBlank, notLineEnd, notSemicolon⟩ := (isContentPart_iff first).1 content
  have noBlank : shape ≠ .blank := by
    rintro rfl
    have accepted := ((Pattern.matches_some_oneOf_iff _ _).1 matched).2
    rw [List.all_cons, notBlank] at accepted
    cases accepted
  have noComment : shape ≠ .comment := by
    rintro rfl
    obtain ⟨body, whole, _⟩ := (Pattern.matches_char_sequence_iff _ _ _).1 matched
    exact notSemicolon (List.cons.inj whole).1
  have noLineBreak : shape ≠ .lineBreak := by
    rintro rfl
    rcases (matches_lineBreak_iff _).1 matched with feed | both
    · rw [(List.cons.inj feed).1] at notLineEnd
      cases notLineEnd
    · rw [(List.cons.inj both).1] at notLineEnd
      cases notLineEnd
  refine List.all_eq_true.2 fun char member => (isContentPart_iff char).2 ⟨?_, ?_, ?_⟩
  · apply Bool.eq_false_iff.2
    intro blank
    rcases layout_of_blank shape _ matched char member blank with same | same
    · exact noBlank same
    · exact noComment same
  · apply Bool.eq_false_iff.2
    intro lineEnd
    exact noLineBreak (lineBreak_of_lineEnd shape _ matched char member lineEnd)
  · rintro rfl
    exact noComment (comment_of_semicolon shape _ matched member)

variable (first : Char) (others otherOthers : Text)

private theorem prefix_of_contentRun (content : isContentPart first = true)
    (same : contentRun others = contentRun otherOthers) (shape : Shape) (front : Text)
    (matched : shape.pattern.Matches front) (isFront : front <+: first :: others) :
    front <+: first :: otherOthers := by
  obtain ⟨char, later, rfl⟩ := List.exists_cons_of_ne_nil (matches_ne_nil shape front matched)
  obtain ⟨rfl, restPrefix⟩ := List.cons_prefix_cons.1 isFront
  have accepted := all_content_of_first shape char later matched content
  rw [List.all_cons, Bool.and_eq_true] at accepted
  obtain ⟨behind, rfl⟩ := restPrefix
  have within : later <+: contentRun (later ++ behind) := by
    unfold contentRun
    rw [takeWhile_append_of_all _ _ _ accepted.2]
    exact List.prefix_append _ _
  rw [same] at within
  exact (List.prefix_cons_inj char).2 (within.trans (List.takeWhile_prefix _))

private theorem longest?_of_contentRun (content : isContentPart first = true)
    (same : contentRun others = contentRun otherOthers) (found : Match)
    (longest : longest? (first :: others) = Option.some found) :
    ∃ rest, longest? (first :: otherOthers) =
      Option.some ⟨found.shape, found.text, rest⟩ := by
  have isLongest := longest?_isLongest _ found longest
  obtain ⟨rest, whole⟩ := prefix_of_contentRun first others otherOthers content same found.shape
    found.text isLongest.matched ⟨found.rest, isLongest.whole⟩
  refine ⟨rest, (longest?_eq_some_iff _ _).2 ⟨whole, isLongest.matched, ?_⟩⟩
  intro shape front back frontWhole matched
  obtain ⟨after, afterWhole⟩ := prefix_of_contentRun first otherOthers others content same.symm
    shape front matched ⟨back, frontWhole⟩
  exact isLongest.maximal shape front after afterWhole matched

private theorem longest?_none_of_contentRun (content : isContentPart first = true)
    (same : contentRun others = contentRun otherOthers)
    (missing : longest? (first :: others) = none) : longest? (first :: otherOthers) = none := by
  cases here : longest? (first :: otherOthers) with
  | none => rfl
  | some found =>
      obtain ⟨rest, longest⟩ :=
        longest?_of_contentRun first otherOthers others content same.symm found here
      rw [missing] at longest
      cases longest

end Shape

theorem isLineEnd_of_isBlank (char : Char) (blank : isBlank char = true) :
    isLineEnd char = false := by
  simp only [isBlank, Bool.or_eq_true, beq_iff_eq] at blank
  rcases blank with rfl | rfl <;> rfl

private theorem startsContent_eq (text : Text) :
    Session.startsContent text =
      text.head?.any (fun char => !isLineEnd char && char != ';') := by
  cases text <;> rfl

/-- The first characters of two texts, where this text stands before them: the same one,
or blanks, or a comment in the one where the other line ends. A comment that parts a
carriage return from a line feed stays. -/
inductive OpensAlike (before : Text) : Option Char → Option Char → Prop where
  | same (head : Option Char) : OpensAlike before head head
  | blanks {first otherFirst : Char} (blank : isBlank first = true)
      (otherBlank : isBlank otherFirst = true) : OpensAlike before (some first) (some otherFirst)
  | dropped {otherHead : Option Char} (notReturn : before.getLast? ≠ some '\r')
      (ends : otherHead.all isLineEnd = true) : OpensAlike before (some ';') otherHead

namespace OpensAlike

variable {before : Text} {head otherHead : Option Char}

theorem lineEnd (alike : OpensAlike before head otherHead) (ends : head.all isLineEnd = true) :
    otherHead.all isLineEnd = true := by
  cases alike with
  | same => exact ends
  | @blanks first _ blank _ =>
      change isLineEnd first = true at ends
      rw [isLineEnd_of_isBlank first blank] at ends
      cases ends
  | dropped _ otherEnds => exact otherEnds

private theorem runEnd (alike : OpensAlike before head otherHead) (ends : head.all endsRun = true) :
    otherHead.all endsRun = true := by
  cases alike with
  | same => exact ends
  | @blanks _ otherFirst _ otherBlank =>
      change endsRun otherFirst = true
      rw [endsRun, otherBlank, Bool.true_or]
  | dropped => cases ends

theorem noBlank (alike : OpensAlike before head otherHead) (notBlank : head.any isBlank = false) :
    otherHead.any isBlank = false := by
  cases alike with
  | same => exact notBlank
  | blanks blank _ =>
      rw [Option.any_some, blank] at notBlank
      cases notBlank
  | dropped _ ends =>
      cases otherHead with
      | none => rfl
      | some char =>
          apply Bool.eq_false_iff.2
          intro blank
          change isLineEnd char = true at ends
          rw [isLineEnd_of_isBlank char blank] at ends
          cases ends

theorem noFeed (alike : OpensAlike before head otherHead)
    (behindReturn : before.getLast? = some '\r') (notFeed : head ≠ some '\n') :
    otherHead ≠ some '\n' := by
  cases alike with
  | same => exact notFeed
  | blanks _ otherBlank =>
      intro feed
      cases feed
      cases otherBlank
  | dropped notReturn _ => exact absurd behindReturn notReturn

theorem startsContent {text other : Text} (alike : OpensAlike before text.head? other.head?) :
    Session.startsContent other = Session.startsContent text := by
  rw [startsContent_eq, startsContent_eq]
  have blankStarts (char : Char) (blank : isBlank char = true) :
      (!isLineEnd char && char != ';') = true := by
    simp only [isBlank, Bool.or_eq_true, beq_iff_eq] at blank
    rcases blank with rfl | rfl <;> rfl
  generalize text.head? = head at alike
  generalize other.head? = otherHead at alike
  cases alike with
  | same => rfl
  | blanks blank otherBlank =>
      rw [Option.any_some, Option.any_some, blankStarts _ blank, blankStarts _ otherBlank]
  | dropped _ ends =>
      cases otherHead with
      | none => rfl
      | some char =>
          change (!isLineEnd char && char != ';') = false
          rw [show isLineEnd char = true from ends]
          rfl

end OpensAlike

/-! ### Exchangeable texts -/

/-- Where this text stands before them, a piece cannot tell the two texts apart. -/
structure Exchangeable (before text other : Text) : Prop where
  opens : OpensAlike before text.head? other.head?
  content : contentRun text = contentRun other
  fails : FailsAlike text other

namespace Exchangeable

variable {before text other : Text}

theorem nil (before : Text) : Exchangeable before [] [] where
  opens := .same none
  content := rfl
  fails := fun _ _ _ => rfl

theorem append {front : Text} (exchange : Exchangeable (before ++ front) text other)
    (nonempty : front ≠ []) : Exchangeable before (front ++ text) (front ++ other) where
  opens := by
    obtain ⟨first, later, rfl⟩ := List.exists_cons_of_ne_nil nonempty
    exact .same (some first)
  content := contentRun_append_congr front text other exchange.content
  fails := exchange.fails.append front

theorem blanks {run otherRun : Text} (exchange : Exchangeable (before ++ run) text other)
    (runNonempty : run ≠ []) (runBlank : run.all isBlank = true)
    (otherNonempty : otherRun ≠ []) (otherBlank : otherRun.all isBlank = true) :
    Exchangeable before (run ++ text) (otherRun ++ other) := by
  have quiet (blanks : Text) (blank : blanks.all isBlank = true) :
      blanks.all isQuietPart = true :=
    List.all_eq_true.2 fun char member =>
      isQuietPart_of_isBlank char (List.all_eq_true.1 blank char member)
  have fails := exchange.fails.quiet run otherRun (quiet run runBlank)
    (quiet otherRun otherBlank) runNonempty otherNonempty
  obtain ⟨first, later, rfl⟩ := List.exists_cons_of_ne_nil runNonempty
  obtain ⟨otherFirst, otherLater, rfl⟩ := List.exists_cons_of_ne_nil otherNonempty
  rw [List.all_cons, Bool.and_eq_true] at runBlank otherBlank
  refine ⟨.blanks runBlank.1 otherBlank.1, ?_, fails⟩
  rw [List.cons_append, List.cons_append, contentRun_of_endsRun, contentRun_of_endsRun]
  · rw [endsRun, otherBlank.1, Bool.true_or]
  · rw [endsRun, runBlank.1, Bool.true_or]

theorem comments {body otherBody : Text}
    (exchange : Exchangeable (before ++ ';' :: body) text other)
    (ends : text.head?.all isLineEnd = true) (sameLine : body.all isCommentPart = true)
    (quiet : otherBody.all isQuietPart = true) :
    Exchangeable before (';' :: body ++ text) (';' :: otherBody ++ other) where
  opens := .same (some ';')
  content := rfl
  fails := exchange.fails.lineEnd (';' :: body) (';' :: otherBody) sameLine quiet ends
    (exchange.opens.lineEnd ends)

theorem dropped {body : Text} (exchange : Exchangeable (before ++ ';' :: body) text other)
    (ends : text.head?.all isLineEnd = true) (sameLine : body.all isCommentPart = true)
    (notReturn : before.getLast? ≠ some '\r') :
    Exchangeable before (';' :: body ++ text) other where
  opens := .dropped notReturn (exchange.opens.lineEnd ends)
  content := by
    have otherEnds := exchange.opens.lineEnd ends
    cases other with
    | nil => rfl
    | cons char later =>
        refine (contentRun_of_endsRun char later ?_).symm
        rw [endsRun, show isLineEnd char = true from otherEnds, Bool.or_true]
  fails := exchange.fails.lineEnd (';' :: body) [] sameLine rfl ends (exchange.opens.lineEnd ends)

end Exchangeable

/-! ### The same piece before another text -/

namespace Cut

private theorem ofDate_piece (text rest other : Text) :
    (ofDate text other).piece = (ofDate text rest).piece := by
  unfold ofDate
  split <;> rfl

private theorem ofNumber_piece (text rest other : Text) :
    (ofNumber text other).piece = (ofNumber text rest).piece := by
  unfold ofNumber
  split <;> rfl

private theorem ofLiteral_piece (lines : Nat) (opening rest behind other : Text)
    (whole : opening ++ behind = (ofLiteral lines opening rest).piece.text ++ other)
    (alike : FailsAlike (ofLiteral lines opening rest).rest other) :
    (ofLiteral lines opening behind).piece = (ofLiteral lines opening rest).piece := by
  unfold ofLiteral at whole alike ⊢
  cases found : literalEnd lines rest with
  | closed body after =>
      rw [found] at whole
      have sameBehind : behind = body ++ other := by
        change opening ++ behind = opening ++ body ++ other at whole
        rw [List.append_assoc] at whole
        exact List.append_cancel_left whole
      have again : literalEnd lines behind = .closed body other := by
        rw [sameBehind]
        exact findLiteralEnd_body lines false rest body after found other
      rw [again]
      rfl
  | overlong =>
      rw [found] at whole alike
      obtain rfl : behind = other := List.append_cancel_left whole
      have again : literalEnd lines behind = .overlong :=
        (alike lines false (Or.inl found)).trans found
      rw [again]
      rfl
  | unterminated =>
      rw [found] at whole alike
      obtain rfl : behind = other := List.append_cancel_left whole
      have again : literalEnd lines behind = .unterminated :=
        (alike lines false (Or.inr found)).trans found
      rw [again]
      rfl

theorem meetsRunEnd_afterRun (first : Char) (others : Text) (goesOn : endsRun first = false) :
    meetsRunEnd (afterRun first others) = true := by
  unfold afterRun meetsRunEnd
  rw [goesOn, if_neg Bool.false_ne_true]
  cases behind : others.dropWhile continuesRun with
  | nil => rfl
  | cons next later =>
      have refused : continuesRun next = false := by
        have stops := List.head?_dropWhile_not continuesRun others
        rw [behind] at stops
        exact stops
      rw [continuesRun, Bool.not_eq_false'] at refused
      exact refused

private theorem runFrom_of_append (first : Char) (others otherOthers other : Text)
    (goesOn : endsRun first = false) (whole : first :: otherOthers = runFrom first others ++ other)
    (meets : meetsRunEnd other = true) : runFrom first otherOthers = runFrom first others := by
  unfold runFrom at whole ⊢
  rw [goesOn, if_neg Bool.false_ne_true] at whole ⊢
  rw [if_neg Bool.false_ne_true]
  have later : otherOthers = others.takeWhile continuesRun ++ other := (List.cons.inj whole).2
  have stops : other.head?.any continuesRun = false := by
    cases other with
    | nil => rfl
    | cons next more =>
        change (!endsRun next) = false
        rw [show endsRun next = true from meets]
        rfl
  rw [later, Shape.takeWhile_append_of_all _ _ _ List.all_takeWhile,
    Shape.takeWhile_of_stop _ _ stops, List.append_nil]

private theorem unknownRun_piece (first : Char) (others otherOthers other : Text)
    (goesOn : endsRun first = false)
    (whole : (unknownRun first others).piece.text ++ other = first :: otherOthers)
    (meets : meetsRunEnd other = true) :
    (unknownRun first otherOthers).piece = (unknownRun first others).piece := by
  unfold unknownRun
  rw [runFrom_of_append first others otherOthers other goesOn whole.symm meets]
  rfl

variable (first : Char) (others otherOthers behind other : Text)

private theorem ofWord_piece (word rest : Text) (goesOn : endsRun first = false)
    (whole : (ofWord first others word rest).piece.text ++ other = first :: otherOthers)
    (meets : meetsRunEnd (ofWord first others word rest).rest = true →
      meetsRunEnd other = true) :
    (ofWord first otherOthers word behind).piece = (ofWord first others word rest).piece := by
  unfold ofWord at whole meets ⊢
  have ends := meetsRunEnd_afterRun first others goesOn
  cases read : readWord word with
  | malformedAccount component =>
      rw [read] at whole meets
      have same := runFrom_of_append first others otherOthers other goesOn whole.symm (meets ends)
      change (fault _ component (runFrom first otherOthers) _).piece = _
      rw [same]
      rfl
  | unknown =>
      rw [read] at whole meets
      exact unknownRun_piece first others otherOthers other goesOn whole (meets ends)
  | _ => rfl

private theorem ofName_piece (name rest : Text) (goesOn : endsRun first = false)
    (whole : (ofName first others name rest).piece.text ++ other = first :: otherOthers)
    (meets : meetsRunEnd (ofName first others name rest).rest = true →
      meetsRunEnd other = true) :
    (ofName first otherOthers name behind).piece = (ofName first others name rest).piece := by
  unfold ofName at whole meets ⊢
  cases read : readName name with
  | unknown =>
      rw [read] at whole meets
      exact unknownRun_piece first others otherOthers other goesOn whole
        (meets (meetsRunEnd_afterRun first others goesOn))
  | _ => rfl

private theorem ofMatch_piece (lines : Nat) (found : Match) (before : Text)
    (goesOn : endsRun first = false) (behindWhole : found.text ++ behind = first :: otherOthers)
    (whole : (ofMatch lines first others found).piece.text ++ other = first :: otherOthers)
    (exchange : Exchangeable before (ofMatch lines first others found).rest other) :
    (ofMatch lines first otherOthers ⟨found.shape, found.text, behind⟩).piece =
      (ofMatch lines first others found).piece := by
  obtain ⟨shape, run, rest⟩ := found
  cases shape with
  | date => exact ofDate_piece run rest behind
  | number => exact ofNumber_piece run rest behind
  | fraction => exact ofNumber_piece run rest behind
  | quote =>
      exact ofLiteral_piece lines run rest behind other (behindWhole.trans whole.symm)
        exchange.fails
  | word =>
      exact ofWord_piece first others otherOthers behind other run rest goesOn whole
        exchange.opens.runEnd
  | name =>
      exact ofName_piece first others otherOthers behind other run rest goesOn whole
        exchange.opens.runEnd
  | _ => rfl

private theorem eq_of_piece (cut : Cut) (piece : Piece) (text : Text) (splits : cut.Splits text)
    (whole : piece.text ++ other = text) (same : cut.piece = piece) : cut = ⟨piece, other⟩ := by
  subst same
  have sameRest := List.append_cancel_left (splits.2.trans whole.symm)
  rw [← sameRest]

variable (lines : Nat) (cut : Cut) (before : Text)

private theorem next?_exchange_content (content : isContentPart first = true)
    (here : next? lines (first :: others) = some cut)
    (exchange : Exchangeable before cut.rest other) :
    next? lines (cut.piece.text ++ other) = some ⟨cut.piece, other⟩ := by
  have goesOn : endsRun first = false := by
    obtain ⟨notBlank, notLineEnd, _⟩ := (isContentPart_iff first).1 content
    rw [endsRun, notBlank, notLineEnd]
    rfl
  obtain ⟨otherOthers, whole, same⟩ : ∃ otherOthers,
      cut.piece.text ++ other = first :: otherOthers ∧
        contentRun others = contentRun otherOthers := by
    obtain ⟨nonempty, splits⟩ := next?_splits lines _ cut here
    obtain ⟨char, later, pieceText⟩ := List.exists_cons_of_ne_nil nonempty
    rw [pieceText, List.cons_append] at splits ⊢
    obtain ⟨rfl, rfl⟩ := List.cons.inj splits
    exact ⟨_, rfl, contentRun_append_congr later _ _ exchange.content⟩
  have otherSplits := next?_splits lines (first :: otherOthers)
  rw [whole]
  rw [next?] at here otherSplits ⊢
  cases longest : Shape.longest? (first :: others) with
  | none =>
      rw [longest] at here
      cases here
      rw [Shape.longest?_none_of_contentRun first others otherOthers content same longest]
        at otherSplits ⊢
      refine congrArg some (eq_of_piece other _ _ _ (otherSplits _ rfl) whole ?_)
      exact unknownRun_piece first others otherOthers other goesOn whole
        (exchange.opens.runEnd (meetsRunEnd_afterRun first others goesOn))
  | some found =>
      rw [longest] at here
      cases here
      obtain ⟨behind, otherLongest⟩ :=
        Shape.longest?_of_contentRun first others otherOthers content same found longest
      have behindWhole := (Shape.longest?_splits _ _ otherLongest).2
      rw [otherLongest] at otherSplits ⊢
      refine congrArg some (eq_of_piece other _ _ _ (otherSplits _ rfl) whole ?_)
      exact ofMatch_piece first others otherOthers behind other lines found before goesOn
        behindWhole whole exchange

private theorem next?_return (rest : Text) (notFeed : rest.head? ≠ some '\n') :
    next? lines ('\r' :: rest) = some (unknownRun '\r' rest) := by
  have missing : Shape.longest? ('\r' :: rest) = none := by
    change Shape.lineBreakAt ('\r' :: rest) = none
    unfold Shape.lineBreakAt
    split
    · rename_i feed
      cases feed
    · rename_i both
      cases both
      exact absurd rfl notFeed
    · rfl
  rw [next?, missing]

private theorem next?_exchange_lineEnd (lineEnd : isLineEnd first = true)
    (here : next? lines (first :: others) = some cut)
    (exchange : Exchangeable (before ++ cut.piece.text) cut.rest other) :
    next? lines (cut.piece.text ++ other) = some ⟨cut.piece, other⟩ := by
  simp only [isLineEnd, Bool.or_eq_true, beq_iff_eq] at lineEnd
  rcases lineEnd with rfl | rfl
  · rw [next?_lineFeed] at here
    cases here
    rfl
  · by_cases feed : others.head? = some '\n'
    · obtain ⟨later, rfl⟩ := List.head?_eq_some_iff.1 feed
      cases here
      rfl
    · rw [next?_return lines others feed] at here
      cases here
      exact next?_return lines other (exchange.opens.noFeed List.getLast?_concat feed)

/-- Any piece but blank text and a comment is found again before an exchangeable text. -/
theorem next?_exchange (text : Text) (here : next? lines text = some cut)
    (noBlank : cut.piece.finding ≠ .blank) (noComment : cut.piece.finding ≠ .comment)
    (exchange : Exchangeable (before ++ cut.piece.text) cut.rest other) :
    next? lines (cut.piece.text ++ other) = some ⟨cut.piece, other⟩ := by
  cases text with
  | nil => cases here
  | cons first others =>
      by_cases content : isContentPart first = true
      · exact next?_exchange_content first others other lines cut _ content here exchange
      · by_cases lineEnd : isLineEnd first = true
        · exact next?_exchange_lineEnd first others other lines cut before lineEnd here exchange
        · -- What is left begins blank text or a comment.
          by_cases blank : isBlank first = true
          · rw [next?, Shape.longest?_blank first others blank] at here
            cases here
            exact absurd rfl noBlank
          · have semicolon : first = ';' := Decidable.byContradiction fun different =>
              content ((isContentPart_iff first).2
                ⟨Bool.eq_false_iff.2 blank, Bool.eq_false_iff.2 lineEnd, different⟩)
            rw [semicolon, next?_semicolon] at here
            cases here
            exact absurd rfl noComment

end Cut

end LedgerLexer
