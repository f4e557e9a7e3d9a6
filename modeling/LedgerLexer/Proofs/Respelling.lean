/-
Tokens written out and lexed again. The text of a token is read as the same token
wherever a blank, a line end or the end of the input follows it, so tokens from any
sources, written one behind another with a blank between them, are found again.
-/

import LedgerLexer.Proofs.Runs

namespace LedgerLexer

/-- A token apart from its line. -/
def Token.reading (token : Token) : Kind × Text × Option Value :=
  (token.kind, token.lexeme, token.value)

/-- A line break ends its lexeme itself; a blank ends every other one. -/
def Token.spelling (token : Token) : Text :=
  if token.kind = .lineBreak then token.lexeme else token.lexeme ++ [' ']

def respell (tokens : List Token) : Text :=
  tokens.flatMap Token.spelling

/-- The token was read as a whole piece of some text, under this limit on string lines. -/
def Token.IsReadUnder (lines : Nat) (token : Token) : Prop :=
  ∃ text cut, Cut.next? lines text = some cut ∧ cut.piece.finding = .token token.kind token.value ∧
    token.lexeme = cut.piece.text

theorem Session.isReadUnder_of_mem (session : Session) (token : Token)
    (member : token ∈ session.finish.tokens) (noError : token.kind ≠ .error)
    (noIndent : token.kind ≠ .indent) : token.IsReadUnder session.options.maxStringLines := by
  rw [finish_eq_trail] at member
  obtain ⟨stage, inTrail, present⟩ := List.mem_filterMap.1 member
  obtain ⟨_, middle, cut, run, here, rfl⟩ := session.exists_cut_of_mem stage inTrail
  rw [nextCut?, run.options_eq] at here
  refine ⟨middle.rest, cut, here, ?_⟩
  cases handsOut_of_take present with
  | indent _ _ => exact absurd rfl noIndent
  | token found => exact ⟨found, rfl⟩
  | fault _ => exact absurd rfl noError

namespace Cut

/-- A token is read again before any text, if that text ends its run or the token is a
line break. -/
theorem Form.next?_again {lines : Nat} {text : Text} {cut : Cut} (form : Form lines text cut)
    {kind : Kind} {value : Option Value} (found : cut.piece.finding = .token kind value)
    (rest : Text)
    (meets : kind = .lineBreak ∨ meetsRunEnd rest = true) :
    next? lines (cut.piece.text ++ rest) = some (Cut.token kind value cut.piece.text rest) := by
  cases form with
  | @token shape run behind _ _ longest reads =>
      cases found
      have matched : shape.pattern.Matches run := Shape.longest?_matches _ _ longest
      refine next?_of_reads lines shape run rest kind value (Shape.matches_ne_nil shape run matched)
        ?_ reads
      by_cases breaks : shape = .lineBreak
      · subst breaks
        exact Shape.longest?_lineBreak run rest matched
      · have endsRun : meetsRunEnd rest = true :=
          meets.resolve_left (fun same => breaks (reads.breaks.1 same))
        exact Shape.longest?_before_runEnd shape run rest matched reads.notBlank reads.notComment
          endsRun
  | @literal body behind whole closes =>
      cases found
      have again : literalEnd lines (body ++ rest) = .closed body rest :=
        findLiteralEnd_body lines false _ body behind closes rest
      change some (ofLiteral lines ['"'] (body ++ rest)) = _
      rw [ofLiteral, again]
      rfl
  | _ => cases found

private theorem Form.no_blank_first {lines : Nat} {text : Text} {cut : Cut}
    (form : Form lines text cut)
    {kind : Kind} {value : Option Value} (found : cut.piece.finding = .token kind value)
    (first : Char) (begins : cut.piece.text.head? = some first) : isBlank first = false := by
  apply Bool.eq_false_iff.2
  intro blankFirst
  have member := List.mem_of_mem_head? begins
  cases form with
  | @token shape run behind _ _ longest reads =>
      rcases Shape.layout_of_blank shape run (Shape.longest?_matches _ _ longest) first member
        blankFirst with blank | comment
      · exact reads.notBlank blank
      · exact reads.notComment comment
  | literal whole closes =>
      cases begins
      cases blankFirst
  | _ => cases found

end Cut

private theorem respell_cons (token : Token) (later : List Token) :
    respell (token :: later) = token.spelling ++ respell later := rfl

private theorem no_blank_first_of_respell (lines : Nat) (tokens : List Token)
    (isRead : ∀ token ∈ tokens, token.IsReadUnder lines) (first : Char)
    (begins : (respell tokens).head? = some first) : isBlank first = false := by
  cases tokens with
  | nil => cases begins
  | cons token later =>
      obtain ⟨text, cut, here, found, lexeme⟩ := isRead token (List.mem_cons_self ..)
      refine (Cut.next?_form lines text cut here).no_blank_first found first ?_
      obtain ⟨char, others, pieceText⟩ :=
        List.exists_cons_of_ne_nil (Cut.next?_splits lines text cut here).1
      rw [respell_cons, Token.spelling, lexeme, pieceText] at begins
      rw [pieceText]
      by_cases breaks : token.kind = .lineBreak
      · rw [if_pos breaks] at begins
        exact begins
      · rw [if_neg breaks] at begins
        exact begins

namespace Session

def behindToken (session : Session) (token : Token) (rest : Text) : Session :=
  (session.takeToken (Cut.token token.kind token.value token.lexeme rest) token.kind
    token.value).session

private theorem nextCut?_again (session : Session) (token : Token) (rest : Text)
    (isRead : token.IsReadUnder session.options.maxStringLines)
    (ahead : session.rest = token.lexeme ++ rest)
    (meets : token.kind = .lineBreak ∨ meetsRunEnd rest = true) :
    session.nextCut? = some (Cut.token token.kind token.value token.lexeme rest) := by
  obtain ⟨text, cut, here, found, lexeme⟩ := isRead
  have again := (Cut.next?_form _ text cut here).next?_again found rest meets
  rw [← lexeme] at again
  rw [nextCut?, ahead, again]

private theorem reaches_spelling (session : Session) (token : Token) (later : Text)
    (isRead : token.IsReadUnder session.options.maxStringLines)
    (ahead : session.rest = token.spelling ++ later)
    (noBlank : ∀ first, later.head? = some first → isBlank first = false) :
    ∃ taken next, Reaches session taken next ∧ next.rest = later ∧
      (tokensOf taken).map Token.reading = [token.reading] ∧ errorsOf taken = [] := by
  by_cases breaks : token.kind = .lineBreak
  · rw [Token.spelling, if_pos breaks] at ahead
    have here := session.nextCut?_again token later isRead ahead (Or.inl breaks)
    exact ⟨_, _, .step here (.here _), rfl, rfl, rfl⟩
  · rw [Token.spelling, if_neg breaks, List.append_assoc] at ahead
    have here := session.nextCut?_again token (' ' :: later) isRead ahead (Or.inr rfl)
    -- The blank stands within a line, so it is no indent.
    have within : (session.behindToken token (' ' :: later)).atLineStart = false :=
      decide_eq_false breaks
    have blankHere : (session.behindToken token (' ' :: later)).nextCut? =
        some ⟨⟨[' '], .blank⟩, later⟩ :=
      Cut.next?_blankRun _ [' '] later (List.cons_ne_nil _ _) rfl
        ((Option.any_eq_false _ _).2 noBlank)
    have silent : (session.behindToken token (' ' :: later)).take ⟨⟨[' '], .blank⟩, later⟩ =
        ⟨none, (session.behindToken token (' ' :: later)).pass ⟨⟨[' '], .blank⟩, later⟩⟩ := by
      have noIndent : (session.behindToken token (' ' :: later)).indents ⟨⟨[' '], .blank⟩, later⟩ =
          false := by
        rw [indents, within, Bool.false_and, Bool.false_and]
      simp only [take, takeBlank, noIndent, Bool.false_eq_true, if_false]
    have run : Reaches session
        [session.stageOf (Cut.token token.kind token.value token.lexeme (' ' :: later)),
          (session.behindToken token (' ' :: later)).stageOf ⟨⟨[' '], .blank⟩, later⟩]
        ((session.behindToken token (' ' :: later)).take ⟨⟨[' '], .blank⟩, later⟩).session :=
      .step here (.step blankHere (.here _))
    refine ⟨_, _, run, take_rest _ _, ?_, ?_⟩
    · rw [tokensOf_cons, tokensOf_cons]
      simp only [stageOf, silent]
      rfl
    · rfl

private theorem reaches_respell (session : Session) (tokens : List Token)
    (isRead : ∀ token ∈ tokens, token.IsReadUnder session.options.maxStringLines)
    (ahead : session.rest = respell tokens) :
    ∃ taken last, Reaches session taken last ∧ last.rest = [] ∧
      (tokensOf taken).map Token.reading = tokens.map Token.reading ∧ errorsOf taken = [] := by
  induction tokens generalizing session with
  | nil => exact ⟨[], session, .here session, ahead, rfl, rfl⟩
  | cons token later ih =>
      have laterRead (other : Token) (member : other ∈ later) :=
        isRead other (List.mem_cons_of_mem _ member)
      obtain ⟨first, next, firstRun, nextRest, firstTokens, firstErrors⟩ :=
        session.reaches_spelling token (respell later) (isRead token (List.mem_cons_self ..)) ahead
          (no_blank_first_of_respell _ later laterRead)
      obtain ⟨others, last, run, atEnd, tokens, errors⟩ := ih next (by
        rw [firstRun.options_eq]
        exact laterRead) nextRest
      refine ⟨first ++ others, last, firstRun.trans run, atEnd, ?_, ?_⟩
      · rw [tokensOf_append, List.map_append, firstTokens, tokens]
        rfl
      · rw [errorsOf_append, firstErrors, errors]
        rfl

/-- Tokens of any sources, written one behind another, are lexed as the same tokens
again, without an error and without an indent. -/
theorem finish_respell (options : Options) (firstLine : Nat) (tokens : List Token)
    (readBefore : ∀ token ∈ tokens, token.kind ≠ .error ∧ token.kind ≠ .indent ∧
      ∃ source line, token ∈ (start source options line).finish.tokens) :
    let again := (start (respell tokens) options firstLine).finish
    again.tokens.map Token.reading = tokens.map Token.reading ∧
    again.session.errors = #[] ∧
    ∀ token ∈ again.tokens, token.kind ≠ .error ∧ token.kind ≠ .indent := by
  have isRead : ∀ token ∈ tokens, token.IsReadUnder options.usable.maxStringLines := by
    intro token member
    obtain ⟨noError, noIndent, source, line, inSource⟩ := readBefore token member
    exact (start source options line).isReadUnder_of_mem token inSource noError noIndent
  obtain ⟨taken, last, run, atEnd, sameTokens, noErrors⟩ :=
    (start (respell tokens) options firstLine).reaches_respell tokens isRead rfl
  intro again
  have finished : again = ⟨tokensOf taken, last⟩ := run.finish_of_end atEnd
  rw [finished]
  refine ⟨sameTokens, ?_, ?_⟩
  · have errors := run.errors_eq
    rw [noErrors, List.append_nil] at errors
    exact Array.toList_inj.1 errors
  · intro token member
    have reading : token.reading ∈ tokens.map Token.reading := by
      rw [← sameTokens]
      exact List.mem_map_of_mem member
    obtain ⟨written, inTokens, same⟩ := List.mem_map.1 reading
    have sameKind : written.kind = token.kind := congrArg Prod.fst same
    rw [← sameKind]
    exact ⟨(readBefore written inTokens).1, (readBefore written inTokens).2.1⟩

/-- A currency of one source and a literal over two lines of another. -/
theorem finish_respell_two_sources :
    let currency : Token := ⟨.currency, 1, ['U', 'S', 'D'], some (.text ['U', 'S', 'D'])⟩
    let literal : Token := ⟨.string, 2, ['"', 'a', '\n', '"'], some (.content ['a', '\n'])⟩
    (∀ token ∈ [currency, literal], token.kind ≠ .error ∧ token.kind ≠ .indent ∧
      ∃ source line, token ∈ (start source Options.standard line).finish.tokens) ∧
    (start (respell [currency, literal]) Options.standard 1).finish.tokens.map Token.reading =
      [currency.reading, literal.reading] := by
  intro currency literal
  have first : currency ∈ (start ['U', 'S', 'D'] Options.standard 1).finish.tokens := by
    have run : Reaches (start ['U', 'S', 'D'] Options.standard 1) _ _ := .step rfl (.here _)
    rw [run.finish_of_end rfl]
    exact List.mem_cons_self ..
  have second : literal ∈
      (start ['\n', '"', 'a', '\n', '"'] Options.standard 1).finish.tokens := by
    have run : Reaches (start ['\n', '"', 'a', '\n', '"'] Options.standard 1) _ _ :=
      .step rfl (.step rfl (.here _))
    rw [run.finish_of_end rfl]
    exact List.mem_cons_of_mem _ (List.mem_cons_self ..)
  have readBefore : ∀ token ∈ [currency, literal], token.kind ≠ .error ∧ token.kind ≠ .indent ∧
      ∃ source line, token ∈ (start source Options.standard line).finish.tokens := by
    intro token member
    rcases List.mem_cons.1 member with rfl | later
    · exact ⟨nofun, nofun, _, _, first⟩
    · cases List.mem_singleton.1 later
      exact ⟨nofun, nofun, _, _, second⟩
  exact ⟨readBefore, (finish_respell Options.standard 1 [currency, literal] readBefore).1⟩

end Session

end LedgerLexer
