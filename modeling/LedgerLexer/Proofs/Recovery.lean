/-
What malformed text costs. Four things can be wrong where a match begins: the text is not
read at all, an account has a bad component, a date or a number has no value, or a literal
does not end. Each settles what the error token shows and where lexing resumes, and none
takes more than its own run: a line feed always stays for its line break.
-/

import LedgerLexer.Proofs.AccountParts
import LedgerLexer.Proofs.Exchange
import LedgerLexer.Proofs.Reports

namespace LedgerLexer

def IsRunEnd (char : Char) : Prop :=
  char ∈ [' ', '\t', '\n', '\r']

/-- The run ends before this rest of the text: at a blank, a line end or the end of the
input. A carriage return that begins no line break is a run on its own. -/
inductive IsWholeRun : Text → Text → Prop where
  | content {run rest : Text} (nonempty : run ≠ []) (goesOn : ∀ char ∈ run, ¬ IsRunEnd char)
      (meets : ∀ char ∈ rest.head?, IsRunEnd char) : IsWholeRun run rest
  | carriageReturn {rest : Text} (noFeed : rest.head? ≠ some '\n') : IsWholeRun ['\r'] rest

theorem endsRun_iff (char : Char) : endsRun char = true ↔ IsRunEnd char := by
  simp [endsRun, isBlank, isLineEnd, IsRunEnd, or_assoc]

theorem not_isRunEnd_iff (char : Char) : ¬ IsRunEnd char ↔ endsRun char = false := by
  rw [← endsRun_iff, Bool.not_eq_true]

theorem endsRun_of_isAlphanum (char : Char) (letterOrDigit : char.isAlphanum = true) :
    endsRun char = false := by
  rw [endsRun, Shape.isBlank_of_isAlphanum char letterOrDigit,
    Shape.isLineEnd_of_isAlphanum char letterOrDigit]
  rfl

theorem not_isRunEnd_of_runFrom (first : Char) (others : Text) (goesOn : endsRun first = false) :
    ∀ char ∈ runFrom first others, ¬ IsRunEnd char := by
  intro char member
  rw [not_isRunEnd_iff]
  rw [runFrom, goesOn, if_neg Bool.false_ne_true] at member
  rcases List.mem_cons.1 member with rfl | later
  · exact goesOn
  · have continues := List.all_eq_true.1 (List.all_takeWhile (p := continuesRun)) char later
    simpa [continuesRun] using continues

private theorem isWholeRun_runFrom (first : Char) (others : Text) (goesOn : endsRun first = false) :
    IsWholeRun (runFrom first others) (afterRun first others) := by
  refine .content ?_ (not_isRunEnd_of_runFrom first others goesOn) ?_
  · obtain ⟨later, run⟩ := Cut.runFrom_eq_cons first others
    simp [run]
  · have meets := Cut.meetsRunEnd_afterRun first others goesOn
    intro char behind
    rw [meetsRunEnd, behind] at meets
    exact (endsRun_iff char).1 meets

/-- A word without a colon that is no truth value, null value, flag or currency. -/
structure IsUnknownWord (word : Text) : Prop where
  noColon : ':' ∉ word
  notTruth : word ≠ "TRUE".toList ∧ word ≠ "FALSE".toList
  notNull : word ≠ "NULL".toList
  notFlag : ¬ IsFlagLetter word
  notCurrency : ¬ IsCurrencyCode word

structure IsUnknownName (name : Text) : Prop where
  notKey : name.getLast? ≠ some ':'
  notKeyword : ∀ directive : Directive, directive.keyword ≠ name

theorem readWord_eq_unknown_iff (word : Text) : readWord word = .unknown ↔ IsUnknownWord word := by
  rw [readWord_eq_iff]
  constructor
  · rintro ⟨noColon, free, noCode⟩
    refine ⟨noColon, ⟨?_, ?_⟩, ?_, ?_, ?_⟩
    · exact fun spelled => free (Or.inl ⟨true, spelled⟩)
    · exact fun spelled => free (Or.inl ⟨false, spelled⟩)
    · exact fun spelled => free (Or.inr (Or.inl spelled))
    · exact fun letter => free (Or.inr (Or.inr letter))
    · exact noCode
  · intro unknown
    refine ⟨unknown.noColon, ?_, unknown.notCurrency⟩
    rintro (⟨value, spelled⟩ | null | letter)
    · cases value
      · exact unknown.notTruth.2 spelled
      · exact unknown.notTruth.1 spelled
    · exact unknown.notNull null
    · exact unknown.notFlag letter

theorem readName_eq_unknown_iff (name : Text) : readName name = .unknown ↔ IsUnknownName name := by
  have noKeyword : Directive.ofKeyword? name = none ↔
      ∀ directive : Directive, directive.keyword ≠ name := by
    unfold Directive.ofKeyword?
    rw [List.find?_eq_none]
    constructor
    · intro absent directive
      have listed : directive ∈ Directive.all := by cases directive <;> decide
      simpa using absent directive listed
    · intro absent directive _
      simpa using absent directive
  constructor
  · intro unknown
    unfold readName at unknown
    split at unknown
    · cases unknown
    · split at unknown
      · cases unknown
      · rename_i notKey _ missing
        exact ⟨notKey, noKeyword.1 missing⟩
  · intro unknown
    rw [readName, if_neg unknown.notKey, noKeyword.2 unknown.notKeyword]

/-! ### Mishaps -/

/-- What is wrong where a match begins. -/
inductive Mishap where
  | unread
  /-- The lead is all of the word before its first bad component. -/
  | badAccount (lead component : Text)
  | refusedValue (run : Text)
  | openLiteral

namespace Mishap

def Occurs (lines : Nat) (ahead : Text) : Mishap → Prop
  | unread =>
      (∀ (shape : Shape) (front back : Text), front ++ back = ahead →
        ¬ shape.pattern.Matches front) ∨
      (∃ word rest, Shape.IsLongest ⟨.word, word, rest⟩ ahead ∧ IsUnknownWord word) ∨
      ∃ name rest, Shape.IsLongest ⟨.name, name, rest⟩ ahead ∧ IsUnknownName name
  | badAccount lead component =>
      ∃ word rest, Shape.IsLongest ⟨.word, word, rest⟩ ahead ∧ ':' ∈ word ∧
        IsFirstBad word lead component
  | refusedValue run =>
      ∃ shape rest, Shape.IsLongest ⟨shape, run, rest⟩ ahead ∧
        (shape = .date ∧ (∃ reason, Date.read run = .error reason) ∨
          (shape = .number ∨ shape = .fraction) ∧ ∃ reason, Decimal.read run = .error reason)
  | openLiteral => ∃ rest, ahead = '"' :: rest ∧ (literalEnd lines rest).Fails

/-- The part of the text that the error token shows. For an empty component it is the
colon before it. -/
def shown (ahead : Text) : Mishap → Text
  | unread => ahead.take 1
  | badAccount lead component =>
      if component = [] then lead.drop (lead.length - 1) else component
  | refusedValue run => run
  | openLiteral => ['"']

/-- The text is what this costs, when that rest is left. -/
def Costs (mishap : Mishap) (text rest : Text) : Prop :=
  match mishap with
  | unread | badAccount _ _ => IsWholeRun text rest
  | refusedValue run => text = run
  | openLiteral => text = ['"']

end Mishap

private theorem shownComponent_eq_shown {word lead component : Text} (ahead : Text)
    (first : IsFirstBad word lead component) (colon : ':' ∈ word) (begins : word.head? ≠ some ':') :
    shownComponent component = (Mishap.badAccount lead component).shown ahead := by
  change (if component.isEmpty then [':'] else component) =
    if component = [] then lead.drop (lead.length - 1) else component
  by_cases empty : component = []
  · obtain ⟨tail, whole, stops⟩ := first.placed
    obtain ⟨parts, leadForm, _⟩ := first.validBefore
    rw [if_pos (List.isEmpty_iff.2 empty), if_pos empty]
    rcases List.eq_nil_or_concat parts with rfl | ⟨front, last, rfl⟩
    · -- Without a component before it, the word itself would begin with a colon.
      rw [leadForm, empty] at whole
      obtain rfl : word = tail := whole
      cases word with
      | nil => cases colon
      | cons char rest =>
          obtain rfl : char = ':' := eq_of_beq stops
          exact absurd rfl begins
    · simp [leadForm, List.flatMap_append, List.drop_append]
  · rw [if_neg (fun isEmpty => empty (List.isEmpty_iff.1 isEmpty)), if_neg empty]

namespace Cut

variable {lines : Nat} {ahead : Text}

private theorem longest?_of_isLongest {found : Match} (longest : Shape.IsLongest found ahead) :
    Shape.longest? ahead = some found :=
  (Shape.longest?_eq_some_iff ahead found).2 longest

theorem head_of_letters {shape : Shape} {run rest : Text}
    (longest : Shape.IsLongest ⟨shape, run, rest⟩ ahead) (letters : shape = .word ∨ shape = .name) :
    ∃ first others later, ahead = first :: others ∧ run = first :: later ∧
      first.isAlphanum = true := by
  have whole : run ++ rest = ahead := longest.whole
  have matched : shape.pattern.Matches run := longest.matched
  rcases letters with rfl | rfl
  · obtain ⟨first, later, rfl, upper, _⟩ := (Pattern.matches_oneOf_sequence_iff _ _ _).1 matched
    exact ⟨first, later ++ rest, later, whole.symm, rfl, Shape.isAlphanum_of_isUpper first upper⟩
  · obtain ⟨first, later, rfl, lower, _⟩ := (Pattern.matches_oneOf_sequence_iff _ _ _).1 matched
    exact ⟨first, later ++ rest, later, whole.symm, rfl, Shape.isAlphanum_of_isLower first lower⟩

private theorem isWholeRun_of_unmatched (first : Char) (others : Text)
    (unmatched : Shape.longest? (first :: others) = none) :
    IsWholeRun (runFrom first others) (afterRun first others) := by
  by_cases goesOn : endsRun first = false
  · exact isWholeRun_runFrom first others goesOn
  · -- Blanks and line breaks are matched, so only a lone carriage return is left.
    have ends : endsRun first = true := by simpa using goesOn
    have notBlank : isBlank first = false := by
      apply Bool.eq_false_iff.2
      intro blank
      rw [Shape.longest?_blank first others blank] at unmatched
      cases unmatched
    have lineEnd : first = '\n' ∨ first = '\r' := by
      simpa [endsRun, notBlank, isLineEnd] using ends
    rcases lineEnd with rfl | rfl
    · cases unmatched
    · refine .carriageReturn ?_
      intro feed
      obtain ⟨later, rfl⟩ := List.head?_eq_some_iff.1 feed
      cases unmatched

private theorem next?_of_unread (nonempty : ahead ≠ [])
    (unread : Mishap.unread.Occurs lines ahead) :
    ∃ reason text rest, next? lines ahead = some (fault reason (ahead.take 1) text rest) ∧
      IsWholeRun text rest := by
  rcases unread with unmatched | ⟨word, rest, longest, unknown⟩ | ⟨name, rest, longest, unknown⟩
  · obtain ⟨first, others, rfl⟩ := List.exists_cons_of_ne_nil nonempty
    have missing := (Shape.longest?_eq_none_iff (first :: others)).2 unmatched
    refine ⟨.unknownRun (runFrom first others), _, _, ?_,
      isWholeRun_of_unmatched first others missing⟩
    rw [next?, missing]
    rfl
  · obtain ⟨first, others, _, rfl, _, letter⟩ := head_of_letters longest (Or.inl rfl)
    refine ⟨.unknownRun (runFrom first others), _, _, ?_,
      isWholeRun_runFrom first others (endsRun_of_isAlphanum first letter)⟩
    have reads : ofWord first others word rest = unknownRun first others := by
      rw [ofWord, (readWord_eq_unknown_iff word).2 unknown]
    rw [next?, longest?_of_isLongest longest]
    exact congrArg some reads
  · obtain ⟨first, others, _, rfl, _, letter⟩ := head_of_letters longest (Or.inr rfl)
    refine ⟨.unknownRun (runFrom first others), _, _, ?_,
      isWholeRun_runFrom first others (endsRun_of_isAlphanum first letter)⟩
    have reads : ofName first others name rest = unknownRun first others := by
      rw [ofName, (readName_eq_unknown_iff name).2 unknown]
    rw [next?, longest?_of_isLongest longest]
    exact congrArg some reads

private theorem next?_of_badAccount {lead component : Text}
    (bad : (Mishap.badAccount lead component).Occurs lines ahead) :
    ∃ reason text rest,
      next? lines ahead =
        some (fault reason ((Mishap.badAccount lead component).shown ahead) text rest) ∧
      IsWholeRun text rest := by
  obtain ⟨word, rest, longest, colon, first⟩ := bad
  obtain ⟨letter, others, later, rfl, wordForm, isLetter⟩ := head_of_letters longest (Or.inl rfl)
  have begins : word.head? ≠ some ':' := by
    rw [wordForm]
    rintro colonFirst
    cases colonFirst
    cases isLetter
  have reads : readWord word = .malformedAccount (shownComponent component) := by
    rw [readWord_of_colon word colon, readAccount, badComponent?_of_isFirstBad first]
  have read : ofWord letter others word rest =
      fault (.malformedAccount word (shownComponent component)) (shownComponent component)
        (runFrom letter others) (afterRun letter others) := by
    rw [ofWord, reads]
  rw [← shownComponent_eq_shown _ first colon begins]
  refine ⟨.malformedAccount word (shownComponent component), _, _, ?_,
    isWholeRun_runFrom letter others (endsRun_of_isAlphanum letter isLetter)⟩
  rw [next?, longest?_of_isLongest longest]
  exact congrArg some read

private theorem next?_of_refusedValue {run : Text}
    (refused : (Mishap.refusedValue run).Occurs lines ahead) :
    ∃ reason rest, next? lines ahead = some (fault reason run run rest) := by
  obtain ⟨shape, rest, longest, converts⟩ := refused
  obtain ⟨first, others, rfl, here⟩ :=
    next?_of_longest lines ahead _ (longest?_of_isLongest longest)
  rw [here]
  rcases converts with ⟨rfl, reason, failed⟩ | ⟨rfl | rfl, reason, failed⟩
  · exact ⟨.badDate run reason, rest, by simp [ofMatch, ofDate, failed]⟩
  · exact ⟨.badNumber run reason, rest, by simp [ofMatch, ofNumber, failed]⟩
  · exact ⟨.badNumber run reason, rest, by simp [ofMatch, ofNumber, failed]⟩

private theorem next?_of_openLiteral (open_ : Mishap.openLiteral.Occurs lines ahead) :
    ∃ reason rest, next? lines ahead = some (fault reason ['"'] ['"'] rest) := by
  obtain ⟨rest, rfl, fails⟩ := open_
  have read : next? lines ('"' :: rest) = some (ofLiteral lines ['"'] rest) := rfl
  rw [read]
  rcases fails with tooLong | unended
  · exact ⟨_, rest, by rw [ofLiteral, tooLong]⟩
  · exact ⟨_, rest, by rw [ofLiteral, unended]⟩

/-- Whatever is wrong is read as a fault that shows what it should and costs what it may. -/
theorem next?_of_occurs (mishap : Mishap) (nonempty : ahead ≠ [])
    (occurs : mishap.Occurs lines ahead) :
    ∃ reason text rest, next? lines ahead = some (fault reason (mishap.shown ahead) text rest) ∧
      mishap.Costs text rest := by
  cases mishap with
  | unread => exact next?_of_unread nonempty occurs
  | badAccount lead component => exact next?_of_badAccount occurs
  | refusedValue run =>
      obtain ⟨reason, rest, here⟩ := next?_of_refusedValue occurs
      exact ⟨reason, run, rest, here, rfl⟩
  | openLiteral =>
      obtain ⟨reason, rest, here⟩ := next?_of_openLiteral occurs
      exact ⟨reason, ['"'], rest, here, rfl⟩

/-! ### From a fault to its mishap -/

private theorem exists_mishap {cut : Cut} {lexeme : Text} {reason : Fault}
    (here : next? lines ahead = some cut) (found : cut.piece.finding = .fault lexeme reason) :
    ∃ mishap : Mishap, mishap.Occurs lines ahead := by
  have form := next?_form lines ahead cut here
  cases form with
  | @badValue shape run rest _ longest converts _ =>
      exact ⟨.refusedValue run, shape, rest, Shape.longest?_isLongest _ _ longest,
        refused_of_badValue shape run rest longest converts here⟩
  | @openQuote rest _ whole abandoned =>
      refine ⟨.openLiteral, rest, whole, ?_⟩
      rcases abandoned with ⟨tooLong, _⟩ | ⟨unended, _⟩
      · exact Or.inl tooLong
      · exact Or.inr unended
  | @account first others word rest component whole longest colon bad =>
      obtain ⟨lead, isFirst⟩ := exists_isFirstBad word component bad
      exact ⟨.badAccount lead component, word, rest, Shape.longest?_isLongest _ _ longest, colon,
        isFirst⟩
  | @unknown first others whole unread =>
      refine ⟨.unread, ?_⟩
      subst whole
      cases longest : Shape.longest? (first :: others) with
      | none => exact Or.inl ((Shape.longest?_eq_none_iff _).1 longest)
      | some match_ =>
          obtain ⟨shape, run, rest⟩ := match_
          have isLongest := Shape.longest?_isLongest _ _ longest
          rw [next?, longest] at here
          have same := Option.some.inj here
          rcases unread _ longest with word | name
          · obtain rfl : shape = .word := word
            refine Or.inr (Or.inl ⟨run, rest, isLongest, (readWord_eq_unknown_iff run).1 ?_⟩)
            change ofWord first others run rest = _ at same
            unfold ofWord at same
            split at same
            case h_7 unknown => exact unknown
            all_goals cases same
          · obtain rfl : shape = .name := name
            refine Or.inr (Or.inr ⟨run, rest, isLongest, (readName_eq_unknown_iff run).1 ?_⟩)
            change ofName first others run rest = _ at same
            unfold ofName at same
            split at same
            case h_3 unknown => exact unknown
            all_goals cases same
  | _ => cases found

private theorem not_isRunEnd_of_matches {shape : Shape} {run : Text}
    (matched : shape.pattern.Matches run)
    (noLayout : shape ≠ .blank ∧ shape ≠ .comment ∧ shape ≠ .lineBreak) (char : Char)
    (member : char ∈ run) : ¬ IsRunEnd char := by
  intro ends
  rw [← endsRun_iff, endsRun, Bool.or_eq_true] at ends
  rcases ends with blank | lineEnd
  · rcases Shape.layout_of_blank shape run matched char member blank with same | same
    · exact noLayout.1 same
    · exact noLayout.2.1 same
  · exact noLayout.2.2 (Shape.lineBreak_of_lineEnd shape run matched char member lineEnd)

/-- What a mishap costs holds no blank and no line end, a lone carriage return apart. -/
theorem within_run_of_costs {mishap : Mishap} {text rest : Text}
    (occurs : mishap.Occurs lines ahead) (costs : mishap.Costs text rest) :
    (∀ char ∈ text, ¬ IsRunEnd char) ∨ text = ['\r'] ∧ rest.head? ≠ some '\n' := by
  have ofRun (isRun : IsWholeRun text rest) :
      (∀ char ∈ text, ¬ IsRunEnd char) ∨ text = ['\r'] ∧ rest.head? ≠ some '\n' := by
    cases isRun with
    | content _ goesOn _ => exact Or.inl goesOn
    | carriageReturn noFeed => exact Or.inr ⟨rfl, noFeed⟩
  cases mishap with
  | unread => exact ofRun costs
  | badAccount lead component => exact ofRun costs
  | refusedValue run =>
      obtain ⟨shape, _, longest, converts⟩ := occurs
      obtain rfl : text = run := costs
      have matched : shape.pattern.Matches text := longest.matched
      refine Or.inl (not_isRunEnd_of_matches matched ?_)
      rcases converts with ⟨rfl, _⟩ | ⟨rfl | rfl, _⟩ <;> decide
  | openLiteral =>
      obtain rfl : text = ['"'] := costs
      exact Or.inl (by simp [IsRunEnd])

end Cut

namespace Session

variable {session : Session} {cut : Cut}

theorem stageOf_of_occurs (mishap : Mishap) (here : session.nextCut? = some cut)
    (occurs : mishap.Occurs session.options.maxStringLines session.rest) :
    (session.stageOf cut).token =
        some ⟨.error, session.line, mishap.shown session.rest, none⟩ ∧
      mishap.Costs cut.piece.text cut.rest := by
  have nonempty : session.rest ≠ [] := by
    intro empty
    rw [nextCut?, empty] at here
    cases here
  obtain ⟨reason, text, rest, faulty, costs⟩ := Cut.next?_of_occurs mishap nonempty occurs
  obtain rfl := Option.some.inj (here.symm.trans faulty)
  exact ⟨rfl, costs⟩

/-- An error token comes only of a mishap. -/
theorem exists_mishap_of_stageOf (here : session.nextCut? = some cut) (token : Token)
    (present : (session.stageOf cut).token = some token) (isError : token.kind = .error) :
    ∃ mishap : Mishap, mishap.Occurs session.options.maxStringLines session.rest := by
  cases handsOut_of_take present with
  | indent _ _ => cases isError
  | token found => exact absurd isError ((session.nextCut?_form cut here).token_kind found).1
  | fault found => exact Cut.exists_mishap here found

/-- An error token costs its own run and no more. Wherever a match begins and something is
wrong, the stage hands out an error token that shows what belongs to the mishap, takes up
the text that it costs, and leaves the session at the end of this text; and every error
token comes of such a mishap. -/
theorem errors_are_confined (source : Text) (options : Options) (firstLine : Nat) :
    let session := Session.start source options firstLine
    let lines := max options.maxStringLines 1
    textOf session.trail.stages = source ∧
    tokensOf session.trail.stages = session.finish.tokens ∧
    ∀ before stage behind, session.trail.stages = before ++ stage :: behind →
      let text := stage.piece.text
      let rest := textOf behind
      (∃ next, Reaches session (before ++ [stage]) next ∧ next.rest = rest) ∧
      (∀ mishap : Mishap, mishap.Occurs lines (text ++ rest) →
        (∃ token, stage.token = some token ∧ token.kind = .error ∧
          token.lexeme = mishap.shown (text ++ rest)) ∧ mishap.Costs text rest) ∧
      ∀ token, stage.token = some token → token.kind = .error →
        (∃ mishap : Mishap, mishap.Occurs lines (text ++ rest)) ∧ '\n' ∉ text ∧
        ((∀ char ∈ text, ¬ IsRunEnd char) ∨ text = ['\r'] ∧ rest.head? ≠ some '\n') := by
  intro session lines
  refine ⟨session.textOf_trail, session.tokensOf_trail, ?_⟩
  intro before stage behind split text rest
  obtain ⟨middle, cut, run, here, rfl, cutRest⟩ :=
    session.exists_cut_of_split before behind stage split
  have limit : middle.options.maxStringLines = lines :=
    congrArg Options.maxStringLines run.options_eq
  have ahead : text ++ rest = middle.rest := by
    have splits := (Cut.next?_splits _ _ _ here).2
    rw [cutRest] at splits
    exact splits
  have resumes : Reaches session (before ++ [middle.stageOf cut]) (middle.take cut).session :=
    run.trans (.step here (.here _))
  rw [ahead, ← limit]
  refine ⟨⟨_, resumes, by rw [take_rest, cutRest]⟩, ?_, ?_⟩
  · intro mishap occurs
    obtain ⟨token, costs⟩ := stageOf_of_occurs mishap here occurs
    rw [cutRest] at costs
    exact ⟨⟨_, token, rfl, rfl⟩, costs⟩
  · intro token present isError
    obtain ⟨mishap, occurs⟩ := exists_mishap_of_stageOf here token present isError
    have costs := (stageOf_of_occurs mishap here occurs).2
    rw [cutRest] at costs
    have within := Cut.within_run_of_costs occurs costs
    refine ⟨⟨mishap, occurs⟩, ?_, within⟩
    intro (feed : '\n' ∈ cut.piece.text)
    rcases within with noEnds | ⟨lone, _⟩
    · exact noEnds '\n' feed (by simp [IsRunEnd])
    · rw [lone] at feed
      cases List.mem_singleton.1 feed

end Session

end LedgerLexer
