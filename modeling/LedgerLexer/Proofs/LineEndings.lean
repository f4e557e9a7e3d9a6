/-
Two ways to end a line. A source without carriage returns is lexed as the same source with
one before each line feed: piece answers piece, a line break takes its carriage return up,
and the only other place where one can stand is inside a literal, where it is content.
-/

import LedgerLexer.Proofs.Exchange

namespace LedgerLexer

def addReturns (text : Text) : Text :=
  text.flatMap (fun char => if char = '\n' then ['\r', '\n'] else [char])

@[simp]
theorem addReturns_nil : addReturns [] = [] := rfl

@[simp]
theorem addReturns_append (front back : Text) :
    addReturns (front ++ back) = addReturns front ++ addReturns back :=
  List.flatMap_append

@[simp]
theorem addReturns_feed (rest : Text) :
    addReturns ('\n' :: rest) = '\r' :: '\n' :: addReturns rest := rfl

private theorem addReturns_cons (char : Char) (rest : Text) (noFeed : char ≠ '\n') :
    addReturns (char :: rest) = char :: addReturns rest := by
  simp [addReturns, noFeed]

private theorem addReturns_of_no_feed (text : Text) (noFeed : '\n' ∉ text) :
    addReturns text = text := by
  induction text with
  | nil => rfl
  | cons char rest ih =>
      rw [List.mem_cons, not_or] at noFeed
      rw [addReturns_cons char rest (Ne.symm noFeed.1), ih noFeed.2]

@[simp]
theorem lineFeeds_addReturns (text : Text) : lineFeeds (addReturns text) = lineFeeds text := by
  induction text with
  | nil => rfl
  | cons char rest ih =>
      by_cases feed : char = '\n'
      · subst feed
        simp [lineFeeds_cons, ih]
      · rw [addReturns_cons char rest feed, lineFeeds_cons, lineFeeds_cons, ih]

private theorem startsContent_addReturns (text : Text) :
    Session.startsContent (addReturns text) = Session.startsContent text := by
  cases text with
  | nil => rfl
  | cons char rest =>
      by_cases feed : char = '\n'
      · subst feed
        rfl
      · rw [addReturns_cons char rest feed]
        rfl

private theorem takeWhile_addReturns (accepts : Char → Bool) (text : Text)
    (stops : accepts '\n' = false ∧ accepts '\r' = false) :
    (addReturns text).takeWhile accepts = text.takeWhile accepts := by
  induction text with
  | nil => rfl
  | cons char rest ih =>
      by_cases feed : char = '\n'
      · subst feed
        simp [stops.1, stops.2]
      · simp [addReturns_cons char rest feed, List.takeWhile_cons, ih]

private theorem dropWhile_addReturns (accepts : Char → Bool) (text : Text)
    (stops : accepts '\n' = false ∧ accepts '\r' = false) :
    (addReturns text).dropWhile accepts = addReturns (text.dropWhile accepts) := by
  induction text with
  | nil => rfl
  | cons char rest ih =>
      by_cases feed : char = '\n'
      · subst feed
        simp [stops.1, stops.2]
      · rw [addReturns_cons char rest feed, List.dropWhile_cons, List.dropWhile_cons, ih]
        split
        · rfl
        · exact (addReturns_cons char rest feed).symm

private theorem runFrom_addReturns (first : Char) (others : Text) :
    runFrom first (addReturns others) = runFrom first others := by
  unfold runFrom
  rw [takeWhile_addReturns continuesRun others ⟨rfl, rfl⟩]

private theorem addReturns_runFrom (first : Char) (others : Text) (noFeed : first ≠ '\n') :
    addReturns (runFrom first others) = runFrom first others :=
  addReturns_of_no_feed _ (List.count_eq_zero.1 (Cut.lineFeeds_runFrom first others noFeed))

private theorem afterRun_addReturns (first : Char) (others : Text) :
    afterRun first (addReturns others) = addReturns (afterRun first others) := by
  unfold afterRun
  rw [dropWhile_addReturns continuesRun others ⟨rfl, rfl⟩]
  split <;> rfl

/-! ### Literals -/

def LiteralEnd.withReturns : LiteralEnd → LiteralEnd
  | closed body rest => closed (addReturns body) (addReturns rest)
  | overlong => overlong
  | unterminated => unterminated

private theorem LiteralEnd.cons_withReturns (char : Char) (found : LiteralEnd)
    (noFeed : char ≠ '\n') : (found.cons char).withReturns = found.withReturns.cons char := by
  cases found with
  | closed body rest =>
      simp [LiteralEnd.cons, LiteralEnd.withReturns, addReturns_cons char body noFeed]
  | overlong => rfl
  | unterminated => rfl

/-- An escape before a line end takes the carriage return instead of the line feed, and
nothing is escaped behind either. -/
theorem findLiteralEnd_addReturns (lines : Nat) (escaped : Bool) (text : Text) :
    findLiteralEnd lines escaped (addReturns text) =
      (findLiteralEnd lines escaped text).withReturns := by
  induction text generalizing lines escaped with
  | nil => rfl
  | cons char rest ih =>
      by_cases feed : char = '\n'
      · subst feed
        have passed : findLiteralEnd lines escaped ('\r' :: '\n' :: addReturns rest) =
            (findLiteralEnd lines false ('\n' :: addReturns rest)).cons '\r' := by
          cases escaped <;> rfl
        rw [addReturns_feed, passed, findLiteralEnd, findLiteralEnd, if_pos rfl, if_pos rfl]
        split
        · rfl
        · rw [ih]
          cases findLiteralEnd (lines - 1) false rest <;> rfl
      · rw [addReturns_cons char rest feed, findLiteralEnd, findLiteralEnd, if_neg feed,
          if_neg feed]
        split
        · rw [ih, LiteralEnd.cons_withReturns char _ feed]
        · split
          · simp [LiteralEnd.withReturns, addReturns_cons char [] feed]
          · rw [ih, LiteralEnd.cons_withReturns char _ feed]

private theorem unescapeContent_addReturns (text : Text) :
    unescapeContent (addReturns text) = addReturns (unescapeContent text) := by
  induction text using content_induction with
  | nil => rfl
  | last => rfl
  | escape char rest ih =>
      rw [addReturns_cons '\\' _ (by decide), unescapeContent_escape]
      by_cases feed : char = '\n'
      · -- The backslash stays, whether it stands before the one or the other.
        subst feed
        rw [addReturns_feed, unescapeContent_escape, unescapeContent_plain '\n' _ (by decide), ih]
        rfl
      · rw [addReturns_cons char rest feed, unescapeContent_escape, ih, addReturns_append]
        congr 1
        split
        · exact (addReturns_cons char [] feed).symm
        · rw [addReturns_cons '\\' _ (by decide), addReturns_cons char [] feed]
          rfl
  | plain char rest notBackslash ih =>
      rw [unescapeContent_plain char rest notBackslash]
      by_cases feed : char = '\n'
      · subst feed
        rw [addReturns_feed, addReturns_feed, unescapeContent_plain '\r' _ (by decide),
          unescapeContent_plain '\n' _ (by decide), ih]
      · rw [addReturns_cons char rest feed, addReturns_cons char _ feed,
          unescapeContent_plain char _ notBackslash, ih]

private theorem unquote_addReturns (body : Text) (closed : body.getLast? = some '"') :
    unquote ('"' :: addReturns body) = addReturns (unquote ('"' :: body)) := by
  obtain ⟨inner, rfl⟩ := List.getLast?_eq_some_iff.1 closed
  rw [addReturns_append, addReturns_of_no_feed ['"'] (by decide), unquote_quoted, unquote_quoted,
    unescapeContent_addReturns]

def Match.withReturns (found : Match) : Match :=
  ⟨found.shape, addReturns found.text, addReturns found.rest⟩

namespace Shape

theorem prefix_addReturns_iff (front text : Text)
    (noEnds : ∀ char ∈ front, isLineEnd char = false) :
    front <+: addReturns text ↔ front <+: text := by
  induction front generalizing text with
  | nil => simp
  | cons char later ih =>
      obtain ⟨notEnd, laterNoEnds⟩ := List.forall_mem_cons.1 noEnds
      have different : char ≠ '\n' ∧ char ≠ '\r' := by
        simpa [isLineEnd] using notEnd
      cases text with
      | nil => rfl
      | cons first rest =>
          by_cases feed : first = '\n'
          · subst feed
            simp [List.cons_prefix_cons, different.1, different.2]
          · rw [addReturns_cons first rest feed, List.cons_prefix_cons, List.cons_prefix_cons,
              ih rest laterNoEnds]

private theorem no_lineEnd_of_matches (shape : Shape) (front text : Text)
    (matched : shape.pattern.Matches front) (isFront : front <+: text)
    (begins : ∀ first, text.head? = some first → isLineEnd first = false) (char : Char)
    (member : char ∈ front) : isLineEnd char = false := by
  apply Bool.eq_false_iff.2
  intro lineEnd
  obtain rfl := lineBreak_of_lineEnd shape front matched char member lineEnd
  obtain ⟨back, rfl⟩ := isFront
  rcases (matches_lineBreak_iff front).1 matched with rfl | rfl
  · cases begins '\n' rfl
  · cases begins '\r' rfl

private theorem longest?_addReturns (first : Char) (rest : Text)
    (notEnd : isLineEnd first = false) :
    longest? (addReturns (first :: rest)) = (longest? (first :: rest)).map Match.withReturns := by
  have noFeed : first ≠ '\n' := by
    rintro rfl
    cases notEnd
  have begins (text : Text) :
      ∀ char, (first :: text).head? = some char → isLineEnd char = false := by
    rintro char ⟨⟩
    exact notEnd
  -- What matches a front of the one text matches the same front of the other.
  have shared (shape : Shape) (front back : Text)
      (whole : front ++ back = addReturns (first :: rest))
      (matched : shape.pattern.Matches front) : ∃ other, front ++ other = first :: rest := by
    have isFront : front <+: addReturns (first :: rest) := ⟨back, whole⟩
    have noEnds := no_lineEnd_of_matches shape front _ matched isFront (by
      rw [addReturns_cons first rest noFeed]
      exact begins _)
    exact (prefix_addReturns_iff front _ noEnds).1 isFront
  cases here : longest? (first :: rest) with
  | none =>
      refine (longest?_eq_none_iff _).2 ?_
      intro shape front back whole matched
      obtain ⟨other, otherWhole⟩ := shared shape front back whole matched
      exact (longest?_eq_none_iff _).1 here shape front other otherWhole matched
  | some found =>
      have longest := longest?_isLongest _ found here
      have noEnds := no_lineEnd_of_matches found.shape found.text _ longest.matched
        ⟨found.rest, longest.whole⟩ (begins rest)
      have same : addReturns found.text = found.text := addReturns_of_no_feed _ (by
        intro member
        cases noEnds '\n' member)
      refine (longest?_eq_some_iff _ _).2 ⟨?_, ?_, ?_⟩
      · rw [← longest.whole, addReturns_append]
        rfl
      · change found.shape.pattern.Matches (addReturns found.text)
        rw [same]
        exact longest.matched
      · intro shape front back whole matched
        change front.length ≤ (addReturns found.text).length
        obtain ⟨other, otherWhole⟩ := shared shape front back whole matched
        rw [same]
        exact longest.maximal shape front other otherWhole matched

end Shape

def Value.withReturns : Value → Value
  | .content inner => .content (addReturns inner)
  | value => value

/-- A fault shows text of one line, so it is the same in both sources. -/
def Finding.withReturns : Finding → Finding
  | .token kind value => .token kind (value.map Value.withReturns)
  | finding => finding

def Piece.withReturns (piece : Piece) : Piece :=
  ⟨addReturns piece.text, piece.finding.withReturns⟩

def Cut.withReturns (cut : Cut) : Cut :=
  ⟨cut.piece.withReturns, addReturns cut.rest⟩

namespace Cut

@[simp]
theorem token_withReturns (kind : Kind) (value : Option Value) (text rest : Text) :
    (token kind value text rest).withReturns =
      token kind (value.map Value.withReturns) (addReturns text) (addReturns rest) := rfl

@[simp]
theorem fault_withReturns (reason : Fault) (lexeme text rest : Text) :
    (fault reason lexeme text rest).withReturns =
      fault reason lexeme (addReturns text) (addReturns rest) := rfl

private theorem unknownRun_withReturns (first : Char) (others : Text) (noFeed : first ≠ '\n') :
    unknownRun first (addReturns others) = (unknownRun first others).withReturns := by
  unfold unknownRun
  rw [runFrom_addReturns, afterRun_addReturns]
  simp [addReturns_runFrom first others noFeed]

private theorem ofLiteral_withReturns (lines : Nat) (rest : Text) :
    ofLiteral lines ['"'] (addReturns rest) =
      (ofLiteral lines ['"'] rest).withReturns := by
  have found : literalEnd lines (addReturns rest) =
      (literalEnd lines rest).withReturns := findLiteralEnd_addReturns lines false rest
  unfold ofLiteral
  rw [found]
  cases closes : literalEnd lines rest with
  | closed body behind =>
      have quoteLast := findLiteralEnd_closed_getLast lines false _ _ _ closes
      have content := unquote_addReturns body quoteLast
      have whole : addReturns ('"' :: body) = '"' :: addReturns body :=
        addReturns_cons '"' body (by decide)
      simp [LiteralEnd.withReturns, Value.withReturns, content, whole]
  | overlong => rfl
  | unterminated => rfl

variable (first : Char) (others run rest : Text)

private theorem ofDate_withReturns (flat : addReturns run = run) :
    ofDate run (addReturns rest) = (ofDate run rest).withReturns := by
  unfold ofDate
  split <;> simp [Value.withReturns, flat]

private theorem ofNumber_withReturns (flat : addReturns run = run) :
    ofNumber run (addReturns rest) = (ofNumber run rest).withReturns := by
  unfold ofNumber
  split <;> simp [Value.withReturns, flat]

private theorem ofWord_withReturns (flat : addReturns run = run) (noFeed : first ≠ '\n') :
    ofWord first (addReturns others) run (addReturns rest) =
      (ofWord first others run rest).withReturns := by
  have runFlat := addReturns_runFrom first others noFeed
  unfold ofWord
  rw [runFrom_addReturns, afterRun_addReturns, unknownRun_withReturns first others noFeed]
  split <;> simp [Value.withReturns, flat, runFlat]

private theorem ofName_withReturns (flat : addReturns run = run) (noFeed : first ≠ '\n') :
    ofName first (addReturns others) run (addReturns rest) =
      (ofName first others run rest).withReturns := by
  unfold ofName
  rw [unknownRun_withReturns first others noFeed]
  split <;> simp [Value.withReturns, flat]

private theorem ofMatch_withReturns (lines : Nat) (found : Match) (noFeed : first ≠ '\n')
    (matched : found.shape.pattern.Matches found.text) (flat : addReturns found.text = found.text) :
    ofMatch lines first (addReturns others) found.withReturns =
      (ofMatch lines first others found).withReturns := by
  obtain ⟨shape, run, rest⟩ := found
  change addReturns run = run at flat
  rw [Match.withReturns, flat]
  cases shape with
  | blank | comment => simp [ofMatch, Cut.withReturns, Piece.withReturns, Finding.withReturns, flat]
  | date => exact ofDate_withReturns run rest flat
  | number => exact ofNumber_withReturns run rest flat
  | fraction => exact ofNumber_withReturns run rest flat
  | word => exact ofWord_withReturns first others run rest flat noFeed
  | name => exact ofName_withReturns first others run rest flat noFeed
  | quote =>
      obtain rfl : run = ['"'] := (Pattern.matches_char_iff _ _).1 matched
      exact ofLiteral_withReturns lines rest
  | _ => simp [ofMatch, Value.withReturns, flat]

/-- Without carriage returns in the source, piece answers piece. -/
theorem next?_withReturns (lines : Nat) (text : Text) (noReturn : '\r' ∉ text) :
    next? lines (addReturns text) = (next? lines text).map Cut.withReturns := by
  cases text with
  | nil => rfl
  | cons first others =>
      by_cases feed : first = '\n'
      · subst feed
        rfl
      have notEnd : isLineEnd first = false := by
        have notReturn : first ≠ '\r' := by
          rintro rfl
          exact noReturn (List.mem_cons_self ..)
        simp [isLineEnd, feed, notReturn]
      have sameMatch := Shape.longest?_addReturns first others notEnd
      rw [addReturns_cons first others feed] at sameMatch ⊢
      rw [next?, next?, sameMatch, Option.map_some]
      congr 1
      cases longest : Shape.longest? (first :: others) with
      | none => exact unknownRun_withReturns first others feed
      | some found =>
          have isLongest := Shape.longest?_isLongest _ found longest
          have noEnds := Shape.no_lineEnd_of_matches found.shape found.text (first :: others)
            isLongest.matched ⟨found.rest, isLongest.whole⟩ (by
              rintro char ⟨⟩
              exact notEnd)
          have flat : addReturns found.text = found.text :=
            addReturns_of_no_feed _ (fun member => by cases noEnds '\n' member)
          exact ofMatch_withReturns first others lines found feed isLongest.matched flat

end Cut

/-! ### Sessions -/

def Token.withReturns (token : Token) : Token :=
  { token with
    lexeme := addReturns token.lexeme
    value := token.value.map Value.withReturns }

def Stage.withReturns (stage : Stage) : Stage :=
  ⟨stage.piece.withReturns, stage.token.map Token.withReturns⟩

private theorem tokensOf_withReturns (stages : List Stage) :
    tokensOf (stages.map Stage.withReturns) = (tokensOf stages).map Token.withReturns := by
  induction stages with
  | nil => rfl
  | cons stage later ih =>
      rw [List.map_cons, tokensOf_cons, tokensOf_cons, List.map_append, ih]
      congr 1
      cases shown : stage.token <;> simp [Stage.withReturns, shown]

namespace Session

def withReturns (session : Session) : Session :=
  { session with rest := addReturns session.rest }

variable {session last : Session} {cut : Cut} {taken : List Stage}

private theorem linesEnded_withReturns (kind : Kind) (lexeme : Text) :
    linesEnded kind (addReturns lexeme) = linesEnded kind lexeme := by
  unfold linesEnded
  split <;> simp

private theorem addReturns_of_fault (here : session.nextCut? = some cut) {lexeme : Text}
    {reason : Fault}
    (found : cut.piece.finding = .fault lexeme reason) : addReturns lexeme = lexeme := by
  have form := session.nextCut?_form cut here
  have noFeeds := form.lineFeeds_piece
  rw [found] at noFeeds
  apply addReturns_of_no_feed
  intro member
  exact List.count_eq_zero.1 noFeeds ((form.fault_infix found).2.subset member)

private theorem take_withReturns (here : session.nextCut? = some cut) :
    session.withReturns.take cut.withReturns =
      ⟨(session.take cut).token.map Token.withReturns, (session.take cut).session.withReturns⟩ := by
  have sameFinding : cut.withReturns.piece.finding = cut.piece.finding.withReturns := rfl
  unfold take
  rw [sameFinding]
  cases found : cut.piece.finding with
  | blank =>
      have sameIndents : session.withReturns.indents cut.withReturns = session.indents cut := by
        unfold indents
        rw [← startsContent_addReturns cut.rest]
        rfl
      simp only [Finding.withReturns, takeBlank, sameIndents]
      split <;> rfl
  | comment => rfl
  | token kind value =>
      simp [Finding.withReturns, takeToken, pass, withReturns, Cut.withReturns,
        Piece.withReturns, Token.withReturns, linesEnded_withReturns]
  | fault lexeme reason =>
      have flat := addReturns_of_fault here found
      simp [Finding.withReturns, takeFault, pass, withReturns, Cut.withReturns,
        Piece.withReturns, Token.withReturns, flat]

private theorem nextCut?_withReturns (noReturn : '\r' ∉ session.rest)
    (here : session.nextCut? = some cut) : session.withReturns.nextCut? = some cut.withReturns := by
  have same := Cut.next?_withReturns session.options.maxStringLines session.rest noReturn
  have found : Cut.next? session.options.maxStringLines session.rest = some cut := here
  rw [found] at same
  exact same

private theorem Reaches.withReturns (run : Reaches session taken last)
    (noReturn : '\r' ∉ session.rest) :
    Reaches session.withReturns (taken.map Stage.withReturns) last.withReturns := by
  induction run with
  | here session => exact .here _
  | @step session last cut later next _ ih =>
      have takes := take_withReturns next
      have noReturnLater : '\r' ∉ (session.take cut).session.rest := by
        rw [take_rest]
        intro member
        apply noReturn
        rw [← (Cut.next?_splits _ _ _ next).2]
        exact List.mem_append_right _ member
      have goesOn := ih noReturnLater
      have sameStage : session.withReturns.stageOf cut.withReturns =
          (session.stageOf cut).withReturns := by
        rw [stageOf, takes]
        rfl
      rw [List.map_cons, ← sameStage]
      refine .step (nextCut?_withReturns noReturn next) ?_
      rw [takes]
      exact goesOn

/-- A source without carriage returns, and the same source with one before each line feed:
token answers token, with the same kind, line and value, and they differ only by the
carriage returns in a line break and in a literal and its content. The errors and the last
line are the same. -/
theorem finish_addReturns (source : Text) (options : Options) (firstLine : Nat)
    (noReturn : '\r' ∉ source) :
    let first := (start source options firstLine).finish
    let again := (start (addReturns source) options firstLine).finish
    again.tokens.length = first.tokens.length ∧
    again.tokens = first.tokens.map Token.withReturns ∧
    again.session.errors = first.session.errors ∧
    again.session.line = first.session.line := by
  intro first again
  obtain ⟨run, atEnd⟩ := (start source options firstLine).reaches_trail
  have finished : first = _ := run.finish_of_end atEnd
  have againRun := run.withReturns noReturn
  have againFinished : again = _ := againRun.finish_of_end (by
    change addReturns _ = []
    rw [atEnd]
    rfl)
  have tokens : again.tokens = first.tokens.map Token.withReturns := by
    rw [againFinished, finished]
    exact tokensOf_withReturns _
  refine ⟨by rw [tokens, List.length_map], tokens, ?_, ?_⟩
  · rw [againFinished, finished]
    rfl
  · rw [againFinished, finished]
    rfl

/-- A literal with an escaped line end, and a quote that opens none. -/
theorem finish_addReturns_escaped :
    let source : Text := ['"', 'a', '\\', '\n', '"', '\n', '"', '\n']
    let first := (start source Options.standard 1).finish
    let again := (start (addReturns source) Options.standard 1).finish
    '\r' ∉ source ∧
    again.tokens =
      [⟨.string, 1, ['"', 'a', '\\', '\r', '\n', '"'], some (.content ['a', '\\', '\r', '\n'])⟩,
        ⟨.lineBreak, 2, ['\r', '\n'], none⟩, ⟨.error, 3, ['"'], none⟩,
        ⟨.lineBreak, 3, ['\r', '\n'], none⟩] ∧
    again.session.errors = first.session.errors := by
  intro source first again
  have noReturn : '\r' ∉ source := by decide
  have run : Reaches (start source Options.standard 1) _ _ :=
    .step rfl (.step rfl (.step rfl (.step rfl (.here _))))
  have finished : first = _ := run.finish_of_end rfl
  obtain ⟨_, tokens, errors, _⟩ := finish_addReturns source Options.standard 1 noReturn
  refine ⟨noReturn, ?_, errors⟩
  rw [tokens]
  change first.tokens.map Token.withReturns = _
  rw [finished]
  rfl

end Session

end LedgerLexer
