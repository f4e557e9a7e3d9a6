/-
What the message of an error tells of the text that its token cost. A message holds every text
that its fault names, and this is all that the token cost, but for two faults: of a literal
that does not end only the opening quote is taken up, which the token shows; and a malformed
account is named up to the end of its word, though the whole run is taken up.
-/

import LedgerLexer.Proofs.Lines
import LedgerLexer.Proofs.WordTokens

namespace LedgerLexer

private theorem Fault.named_infix_message (reason : Fault) (part : Text)
    (member : part ∈ reason.named) : part <:+: reason.message := by
  have before {text : Text} (more : Text) (inside : part <:+: text) : part <:+: text ++ more :=
    inside.trans (List.prefix_append text more).isInfix
  cases reason with
  | unknownRun run =>
      obtain rfl := List.mem_singleton.1 member
      exact List.infix_append _ part _
  | malformedAccount account component =>
      rcases List.mem_cons.1 member with rfl | later
      · exact before _ (before _ (List.infix_append _ part _))
      · obtain rfl := List.mem_singleton.1 later
        exact List.infix_append _ part _
  | badDate text failure =>
      obtain rfl := List.mem_singleton.1 member
      exact before _ (List.infix_append _ part _)
  | badNumber text failure =>
      obtain rfl := List.mem_singleton.1 member
      exact before _ (List.infix_append _ part _)
  | overlongString limit => cases member
  | unterminatedString => cases member

private theorem Fault.message_of_malformedAccount (word component : Text)
    (wordChars : ∀ char ∈ word, IsWordChar char) (inside : component <:+: word) :
    ∀ char ∈ (malformedAccount word component).message, IsWordChar char ∨ char = ' ' := by
  have fixed {text : Text} (plain : text.all (fun char => IsWordChar char ∨ char = ' ') = true) :
      ∀ char ∈ text, IsWordChar char ∨ char = ' ' := by
    simpa only [List.all_eq_true, decide_eq_true_eq] using plain
  have told {text : Text} (within : text <:+: word) :
      ∀ char ∈ text, IsWordChar char ∨ char = ' ' :=
    fun char member => Or.inl (wordChars char (within.subset member))
  unfold message
  simp only [List.forall_mem_append]
  exact ⟨⟨⟨⟨fixed (by decide), told (List.infix_refl word)⟩, fixed (by decide)⟩, told inside⟩,
    fixed (by decide)⟩

/-- The word is malformed as an account, and its run goes on behind it with this text before
the rest. -/
structure IsOverrun (word lost rest : Text) : Prop where
  isWord : IsWholeWord word (lost ++ rest)
  colon : ':' ∈ word
  noPath : ¬ IsAccountPath word
  goesOn : lost ≠ []

private theorem IsOverrun.not_openLiteral {word lost rest : Text}
    (overrun : IsOverrun word lost rest)
    (lines : Nat) : ¬ Mishap.openLiteral.Occurs lines (word ++ lost ++ rest) := by
  rintro ⟨behind, begins, _⟩
  have starts := overrun.isWord.starts
  cases word with
  | nil => cases starts
  | cons first later =>
      obtain rfl : first = '"' := (List.cons.inj begins).1
      cases starts

namespace Cut

variable {lines : Nat} {ahead lexeme : Text} {cut : Cut} {reason : Fault}

/-- Where no literal is open, a fault names all of its piece or is an account with an overrun. -/
theorem named_or_isOverrun (here : next? lines ahead = some cut)
    (found : cut.piece.finding = .fault lexeme reason)
    (noLiteral : ¬ Mishap.openLiteral.Occurs lines ahead) :
    cut.piece.text ∈ reason.named ∨
      ∃ word lost, cut.piece.text = word ++ lost ∧ IsOverrun word lost cut.rest := by
  have form := next?_form lines ahead cut here
  cases form with
  | @badValue shape _ rest _ longest converts _ =>
      cases found
      refine Or.inl ?_
      rcases reason_of_badValue shape _ rest longest converts here with
        ⟨_, failure, _, rfl⟩ | ⟨_, failure, _, rfl⟩
      · exact List.mem_singleton_self _
      · exact List.mem_singleton_self _
  | openQuote whole abandoned =>
      refine absurd ⟨_, whole, ?_⟩ noLiteral
      rcases abandoned with ⟨tooLong, _⟩ | ⟨unended, _⟩
      · exact Or.inl tooLong
      · exact Or.inr unended
  | unknown whole unread =>
      cases found
      exact Or.inl (List.mem_singleton_self _)
  | @account first others word rest component whole longest colon bad =>
      cases found
      subst whole
      obtain ⟨lost, run⟩ := word_prefix_runFrom first others word rest longest
      by_cases ends : lost = []
      · rw [ends, List.append_nil] at run
        refine Or.inl ?_
        rw [← run]
        exact List.mem_cons_self ..
      · have isWord := isWholeWord_of_longest longest
        have split : word ++ rest = first :: others :=
          (Shape.longest?_isLongest _ _ longest).whole
        rw [← runFrom_append_afterRun first others, ← run, List.append_assoc] at split
        rw [List.append_cancel_left split] at isWord
        have noPath : ¬ IsAccountPath word := by
          intro path
          have read := (readWord_eq_iff word .account).2 path
          rw [readWord_of_colon word colon, readAccount, bad] at read
          cases read
        exact Or.inr ⟨word, lost, run.symm, isWord, colon, noPath, ends⟩
  | _ => cases found

private theorem fault_of_isOverrun {word lost : Text} (here : next? lines ahead = some cut)
    (whole : cut.piece.text = word ++ lost) (overrun : IsOverrun word lost cut.rest) :
    (∀ char ∈ cut.piece.text, ¬ IsRunEnd char) ∧ ∃ component, component <:+: word ∧
      cut.piece.finding = .fault component (.malformedAccount word component) := by
  have splits := (next?_splits lines ahead cut here).2
  rw [whole, List.append_assoc] at splits
  have longest := longest?_of_isWholeWord word _ overrun.isWord
  rw [splits] at longest
  obtain ⟨first, others, _, begins, _, letter⟩ :=
    head_of_letters (Shape.longest?_isLongest _ _ longest) (Or.inl rfl)
  rw [begins] at here longest
  have same : ofWord first others word (lost ++ cut.rest) = cut := by
    rw [next?, longest] at here
    exact Option.some.inj here
  have reads := readWord_of_colon word overrun.colon
  rw [readAccount] at reads
  cases bad : badComponent? word with
  | none =>
      rw [bad] at reads
      exact absurd ((readWord_eq_iff word .account).1 reads) overrun.noPath
  | some component =>
      rw [bad] at reads
      rw [ofWord, reads] at same
      rw [← same]
      obtain ⟨_, inside⟩ := shownComponent_infix word component overrun.colon bad
      exact ⟨not_isRunEnd_of_runFrom first others (endsRun_of_isAlphanum first letter),
        shownComponent component, inside, rfl⟩

private theorem not_mem_message_of_isOverrun {word lost : Text}
    (here : next? lines ahead = some cut)
    (found : cut.piece.finding = .fault lexeme reason) (whole : cut.piece.text = word ++ lost)
    (overrun : IsOverrun word lost cut.rest) (char : Char) (behind : lost.head? = some char) :
    char ∉ reason.message := by
  obtain ⟨run, component, inside, shown⟩ := fault_of_isOverrun here whole overrun
  obtain ⟨_, rfl⟩ := Finding.fault.inj (found.symm.trans shown)
  obtain ⟨later, rfl⟩ := List.head?_eq_some_iff.1 behind
  have member : char ∈ cut.piece.text := by simp [whole]
  intro inMessage
  rcases Fault.message_of_malformedAccount word component overrun.isWord.all_isWordChar inside char
    inMessage with wordChar | rfl
  · exact overrun.isWord.ends char rfl wordChar
  · exact run ' ' member (by simp [IsRunEnd])

end Cut

/-! ### Errors and the text that their tokens cost -/

/-- The error tells of the text that its token cost. A literal that does not end costs its
opening quote, and the token shows it; of any other text the message has all. -/
structure IsReported (lines : Nat) (token : Token) (error : LexError) (text rest : Text) :
    Prop where
  literal : Mishap.openLiteral.Occurs lines (text ++ rest) → text = ['"'] ∧ token.lexeme = text
  message : ¬ Mishap.openLiteral.Occurs lines (text ++ rest) → text <:+: error.message

namespace Session

variable {session : Session} {cut : Cut}

private theorem fault_of_stageOf (here : session.nextCut? = some cut) (token : Token)
    (present : (session.stageOf cut).token = some token) (isError : token.kind = .error) :
    ∃ reason, cut.piece.finding = .fault token.lexeme reason ∧
      (session.stageOf cut).error? = some (reason.toError token.line) := by
  cases handsOut_of_take present with
  | indent _ _ => cases isError
  | token found => exact absurd isError ((session.nextCut?_form cut here).token_kind found).1
  | @fault lexeme reason found =>
      have taken : (session.take cut).token = some ⟨.error, session.line, lexeme, none⟩ := present
      refine ⟨reason, found, ?_⟩
      unfold stageOf Stage.error?
      simp only [found, taken, Option.map_some]

/-- Everything is told of the text that a token cost, but for an overrun. -/
theorem isReported_iff (here : session.nextCut? = some cut) (token : Token)
    (present : (session.stageOf cut).token = some token) {reason : Fault}
    (found : cut.piece.finding = .fault token.lexeme reason) :
    IsReported session.options.maxStringLines token (reason.toError token.line) cut.piece.text
        cut.rest ↔
      ¬ ∃ word lost, cut.piece.text = word ++ lost ∧ IsOverrun word lost cut.rest := by
  have ahead : cut.piece.text ++ cut.rest = session.rest := (Cut.next?_splits _ _ _ here).2
  constructor
  · rintro reported ⟨word, lost, whole, overrun⟩
    obtain ⟨char, later, lostForm⟩ := List.exists_cons_of_ne_nil overrun.goesOn
    have noLiteral := overrun.not_openLiteral session.options.maxStringLines
    rw [← whole] at noLiteral
    have member : char ∈ cut.piece.text := by simp [whole, lostForm]
    have behind : lost.head? = some char := by rw [lostForm]; rfl
    exact Cut.not_mem_message_of_isOverrun here found whole overrun char behind
      ((reported.message noLiteral).subset member)
  · intro noOverrun
    constructor
    · intro occurs
      rw [ahead] at occurs
      obtain ⟨shown, costs⟩ := stageOf_of_occurs .openLiteral here occurs
      rw [present] at shown
      cases shown
      exact ⟨costs, costs.symm⟩
    · intro noLiteral
      rw [ahead] at noLiteral
      rcases Cut.named_or_isOverrun here found noLiteral with named | overrun
      · exact reason.named_infix_message _ named
      · exact absurd overrun noOverrun

/-- The errors tell of all text that their tokens cost, but for overruns. To each error token
belongs the error that has its place among the errors and stands on its line. It tells of the
whole text from the beginning of the match to where lexing resumes exactly when the token is no
malformed account whose run goes on behind the word; such an account is named up to the end of
its word, and the character behind it is found nowhere in the message. -/
theorem errors_tell_all_but_overruns (source : Text) (options : Options) (firstLine : Nat) :
    let session := Session.start source options firstLine
    let stages := session.trail.stages
    textOf stages = source ∧
    tokensOf stages = session.finish.tokens ∧
    ∀ before stage behind, stages = before ++ stage :: behind →
      let text := stage.piece.text
      let rest := textOf behind
      (∃ next, Reaches session (before ++ [stage]) next ∧ next.rest = rest) ∧
      ∀ token, stage.token = some token → token.kind = .error → ∃ error,
        session.finish.session.errors.toList[
          ((tokensOf before).filter (fun token => token.kind == .error)).length]? = some error ∧
        error.line = token.line ∧
        (IsReported (max options.maxStringLines 1) token error text rest ↔
          ¬ ∃ word lost, text = word ++ lost ∧ IsOverrun word lost rest) ∧
        ∀ word lost, text = word ++ lost → IsOverrun word lost rest →
          word <:+: error.message ∧ ∀ char, lost.head? = some char → char ∉ error.message := by
  intro session stages
  refine ⟨session.textOf_trail, session.tokensOf_trail, ?_⟩
  intro before stage behind split text rest
  obtain ⟨middle, cut, run, here, rfl, cutRest⟩ :=
    session.exists_cut_of_split before behind stage split
  have limit : middle.options.maxStringLines = max options.maxStringLines 1 :=
    congrArg Options.maxStringLines run.options_eq
  have resumes : Reaches session (before ++ [middle.stageOf cut]) (middle.take cut).session :=
    run.trans (.step here (.here _))
  refine ⟨⟨_, resumes, by rw [take_rest, cutRest]⟩, ?_⟩
  intro token present isError
  obtain ⟨reason, found, recorded⟩ := fault_of_stageOf here token present isError
  refine ⟨reason.toError token.line, ?_, rfl, ?_, ?_⟩
  · have noErrors : session.errors.toList = [] := rfl
    have errors := session.reaches_finish.errors_eq
    rw [noErrors, List.nil_append, show session.trail.stages = _ from split, errorsOf_append,
      errorsOf_cons, recorded] at errors
    rw [errors, ← run.errorsOf_length, List.getElem?_append_right (Nat.le_refl _), Nat.sub_self]
    rfl
  · have reported := isReported_iff here token present found
    rw [limit, cutRest] at reported
    exact reported
  · intro word lost whole overrun
    rw [show rest = cut.rest from cutRest.symm] at overrun
    obtain ⟨_, component, _, shown⟩ := Cut.fault_of_isOverrun here whole overrun
    have same := (Finding.fault.inj (found.symm.trans shown)).2
    refine ⟨?_, Cut.not_mem_message_of_isOverrun here found whole overrun⟩
    apply reason.named_infix_message
    rw [same]
    exact List.mem_cons_self ..

/-- A comma and a currency right behind a malformed account are taken up with it, and its
message has nothing of them. -/
theorem errors_leave_out_overrun_currency :
    let source : Text := ['A', 's', 's', 'e', 't', 's', ':', 'A', ',', 'U', 'S', 'D']
    let session := start source Options.standard 1
    ∃ stage token error, session.trail.stages = [stage] ∧ stage.piece.text = source ∧
      stage.token = some token ∧ token.kind = .error ∧ session.finish.tokens = [token] ∧
      session.finish.session.errors.toList = [error] ∧
      error.message = "Invalid account 'Assets:A': erroneous token 'A'".toList ∧
      ¬ IsReported 64 token error source [] := by
  intro source session
  have run : Reaches session _ _ := .step rfl (.here _)
  let account : Text := ['A', 's', 's', 'e', 't', 's', ':', 'A']
  refine ⟨_, _, (Fault.malformedAccount account ['A']).toError 1,
    congrArg Trail.stages (run.trail_of_end rfl), rfl, rfl, rfl,
    congrArg Finished.tokens (run.finish_of_end rfl), ?_, rfl, ?_⟩
  · rw [run.finish_of_end rfl]
    rfl
  · intro reported
    have noLiteral : ¬ Mishap.openLiteral.Occurs 64 (source ++ []) := by
      rintro ⟨behind, begins, _⟩
      cases begins
    have noComma : ',' ∉ ((Fault.malformedAccount account ['A']).toError 1).message := by decide
    have inSource : ',' ∈ source := by decide
    exact noComma ((reported.message noLiteral).subset inSource)

end Session

end LedgerLexer
