/-
A higher limit on string lines. The search for the end of a literal that is not given up as
too long comes to the same end under any higher limit. A session that reports no literal as
too long therefore stays the same when its limit is raised, and one that does stays the same
up to the first of these reports.
-/

import LedgerLexer.Proofs.Runs

namespace LedgerLexer

private theorem findLiteralEnd_of_more_lines (lines more : Nat) (escaped : Bool) (text : Text)
    (atLeast : lines ≤ more) (short : findLiteralEnd lines escaped text ≠ .overlong) :
    findLiteralEnd more escaped text = findLiteralEnd lines escaped text := by
  induction text generalizing lines more escaped with
  | nil => rfl
  | cons char rest ih =>
      have step (fewer further : Nat) (flag : Bool) (enough : fewer ≤ further)
          (goesOn : (findLiteralEnd fewer flag rest).cons char ≠ .overlong) :
          (findLiteralEnd further flag rest).cons char =
            (findLiteralEnd fewer flag rest).cons char := by
        have restShort : findLiteralEnd fewer flag rest ≠ .overlong :=
          fun tooLong => goesOn ((LiteralEnd.cons_eq_overlong_iff _ _).2 tooLong)
        rw [ih fewer further flag enough restShort]
      rw [findLiteralEnd] at short
      rw [findLiteralEnd, findLiteralEnd]
      split at short
      · rename_i feed
        rw [if_pos feed, if_pos feed]
        split at short
        · exact absurd rfl short
        · rename_i linesLeft
          rw [if_neg linesLeft, if_neg (fun last => linesLeft (Nat.le_trans atLeast last))]
          exact step _ _ _ (Nat.sub_le_sub_right atLeast 1) short
      · rename_i noFeed
        rw [if_neg noFeed, if_neg noFeed]
        split at short
        · rename_i isEscaped
          rw [if_pos isEscaped, if_pos isEscaped]
          exact step _ _ _ atLeast short
        · rename_i notEscaped
          rw [if_neg notEscaped, if_neg notEscaped]
          split at short
          · rename_i closing
            rw [if_pos closing, if_pos closing]
          · rename_i notClosing
            rw [if_neg notClosing, if_neg notClosing]
            exact step _ _ _ atLeast short

/-- The finding is no literal that was given up as too long. -/
def Finding.IsWithinLimit (finding : Finding) : Prop :=
  ∀ lexeme reason, finding = .fault lexeme reason → reason.kind ≠ .resourceLimit

namespace Cut

variable {lines more : Nat}

private theorem ofLiteral_of_more_lines (atLeast : lines ≤ more) (opening rest : Text)
    (within : (ofLiteral lines opening rest).piece.finding.IsWithinLimit) :
    ofLiteral more opening rest = ofLiteral lines opening rest := by
  have short : literalEnd lines rest ≠ .overlong := by
    intro tooLong
    rw [ofLiteral, tooLong] at within
    exact within _ _ rfl rfl
  have same : literalEnd more rest = literalEnd lines rest :=
    findLiteralEnd_of_more_lines lines more false rest atLeast short
  rw [ofLiteral, ofLiteral, same]
  cases found : literalEnd lines rest with
  | overlong => exact absurd found short
  | closed body behind => rfl
  | unterminated => rfl

private theorem ofMatch_of_more_lines (atLeast : lines ≤ more) (first : Char) (others : Text)
    (found : Match) (within : (ofMatch lines first others found).piece.finding.IsWithinLimit) :
    ofMatch more first others found = ofMatch lines first others found := by
  unfold ofMatch at within ⊢
  split at within
  case h_7 => exact ofLiteral_of_more_lines atLeast _ _ within
  all_goals rfl

private theorem next?_of_more_lines (atLeast : lines ≤ more) (text : Text) (cut : Cut)
    (here : next? lines text = some cut) (within : cut.piece.finding.IsWithinLimit) :
    next? more text = some cut := by
  cases text with
  | nil => cases here
  | cons first others =>
      rw [next?] at here ⊢
      cases here
      cases longest : Shape.longest? (first :: others) with
      | none => rfl
      | some found =>
          rw [longest] at within
          exact congrArg some (ofMatch_of_more_lines atLeast first others found within)

end Cut

namespace Session

/-- No error so far reports a literal as too long. -/
def IsWithinLimit (session : Session) : Prop :=
  ∀ error ∈ session.errors.toList, error.kind ≠ .resourceLimit

def withOptions (options : Options) (session : Session) : Session :=
  { session with options := options }

end Session

def Pulled.withOptions (options : Options) (pulled : Pulled) : Pulled :=
  ⟨pulled.token, pulled.session.withOptions options⟩

namespace Session

variable {session : Session} {options : Options}

private theorem Reaches.isWithinLimit_of_last {last : Session} {taken : List Stage}
    (run : Reaches session taken last) (within : last.IsWithinLimit) : session.IsWithinLimit := by
  intro error member
  apply within
  rw [run.errors_eq]
  exact List.mem_append_left _ member

private theorem isWithinLimit_of_take (cut : Cut)
    (within : (session.take cut).session.IsWithinLimit) : cut.piece.finding.IsWithinLimit := by
  intro lexeme reason found
  refine within (reason.toError session.line) ?_
  rw [take, found]
  simp [takeFault]

private theorem take_withOptions (session : Session) (options : Options) (cut : Cut) :
    (session.withOptions options).take cut = (session.take cut).withOptions options := by
  unfold take
  split
  · unfold takeBlank
    have sameIndents : (session.withOptions options).indents cut = session.indents cut := rfl
    rw [sameIndents]
    split <;> rfl
  · rfl
  · rfl
  · rfl

private theorem step?_withOptions
    (atLeast : session.options.maxStringLines ≤ options.maxStringLines)
    (pulled : Pulled) (stepped : session.step? = some pulled)
    (within : pulled.session.IsWithinLimit) :
    (session.withOptions options).step? = some (pulled.withOptions options) := by
  obtain ⟨cut, here, rfl⟩ := Option.map_eq_some_iff.1 stepped
  have same : (session.withOptions options).nextCut? = some cut :=
    Cut.next?_of_more_lines atLeast _ cut here (isWithinLimit_of_take cut within)
  rw [step?, same]
  exact congrArg some (take_withOptions session options cut)

/-- A pull that reports no literal as too long is the same pull under a higher limit. -/
theorem pull_withOptions (atLeast : session.options.maxStringLines ≤ options.maxStringLines)
    (within : session.pull.session.IsWithinLimit) :
    (session.withOptions options).pull = session.pull.withOptions options := by
  fun_induction pull session with
  | case1 session stepped =>
      have atEnd := (Cut.next?_eq_none_iff _ _).1 (Option.map_eq_none_iff.1 stepped)
      exact pull_of_rest_nil (session.withOptions options) atEnd
  | case2 session token next stepped =>
      exact pull_of_step_token _ _ _ (step?_withOptions atLeast _ stepped within)
  | case3 session next stepped ih =>
      obtain ⟨taken, run, _⟩ := next.reaches_pull
      have nextWithin := run.isWithinLimit_of_last within
      have sameLimit : next.options = session.options := by
        obtain ⟨cut, _, taken⟩ := Option.map_eq_some_iff.1 stepped
        rw [← take_options session cut, taken]
      rw [← ih (sameLimit ▸ atLeast) within]
      exact pull_of_step_silent _ _ (step?_withOptions atLeast _ stepped nextWithin)

private theorem after_withOptions
    (atLeast : session.options.maxStringLines ≤ options.maxStringLines)
    (count : Nat) (within : (session.after count).IsWithinLimit) :
    (session.withOptions options).handedOut count = session.handedOut count ∧
      (session.withOptions options).after count = (session.after count).withOptions options := by
  induction count generalizing session with
  | zero => exact ⟨rfl, rfl⟩
  | succ count ih =>
      obtain ⟨first, firstRun, _⟩ := session.reaches_pull
      obtain ⟨later, laterRun, _⟩ := session.pull.session.reaches_after count
      have pulled := pull_withOptions atLeast (laterRun.isWithinLimit_of_last within)
      have sameLimit := firstRun.options_eq
      obtain ⟨tokens, last⟩ := ih (sameLimit ▸ atLeast) within
      rw [handedOut, handedOut, after, pulled]
      exact ⟨congrArg (session.pull.token.toList ++ ·) tokens, last⟩

private theorem finish_withOptions
    (atLeast : session.options.maxStringLines ≤ options.maxStringLines)
    (within : session.finish.session.IsWithinLimit) :
    (session.withOptions options).finish =
      ⟨session.finish.tokens, session.finish.session.withOptions options⟩ := by
  -- So many pulls that both sessions have come to their end.
  let count := session.finish.tokens.length + (session.withOptions options).finish.tokens.length + 1
  have last : session.after count = session.finish.session :=
    session.after_of_finished count (by omega)
  have otherLast : (session.withOptions options).after count =
      (session.withOptions options).finish.session :=
    (session.withOptions options).after_of_finished count (by omega)
  obtain ⟨tokens, same⟩ := after_withOptions atLeast count (last ▸ within)
  rw [handedOut_eq_take, handedOut_eq_take, List.take_of_length_le (by omega),
    List.take_of_length_le (by omega)] at tokens
  rw [otherLast, last] at same
  rw [← tokens, ← same]

/-- A higher limit on string lines changes nothing for a session that reports no literal as
too long under the lower one: tokens, errors and the last line are the same. A session that
does report one is not changed before this report, at whatever pull it is made. -/
theorem limit_matters_to_overlong (source : Text) (firstLine : Nat) (lower higher : Options)
    (atLeast : lower.maxStringLines ≤ higher.maxStringLines) :
    let strict := start source lower firstLine
    let lenient := start source higher firstLine
    (strict.finish.session.IsWithinLimit →
      lenient.finish.tokens = strict.finish.tokens ∧
      lenient.finish.session.errors = strict.finish.session.errors ∧
      lenient.finish.session.line = strict.finish.session.line) ∧
    ∀ count, (strict.after count).IsWithinLimit →
      lenient.handedOut count = strict.handedOut count ∧
      lenient.after count = (strict.after count).withOptions lenient.options := by
  intro strict lenient
  have usable : strict.options.maxStringLines ≤ lenient.options.maxStringLines := by
    change max lower.maxStringLines 1 ≤ max higher.maxStringLines 1
    omega
  have raised : lenient = strict.withOptions lenient.options := rfl
  refine ⟨?_, ?_⟩
  · intro within
    have finished := finish_withOptions usable within
    rw [← raised] at finished
    rw [finished]
    exact ⟨rfl, rfl, rfl⟩
  · intro count within
    have later := after_withOptions usable count within
    rw [← raised] at later
    exact later

/-- A literal of two lines and an open one, under a limit of two lines and under one of
three. -/
theorem limit_matters_to_overlong_two_lines :
    let source : Text := ['"', '\n', '"', ' ', '"', '\\', '"']
    let strict := start source ⟨2⟩ 1
    let lenient := start source ⟨3⟩ 1
    2 ≤ 3 ∧ strict.finish.session.IsWithinLimit ∧
    lenient.finish.tokens = [⟨.string, 1, ['"', '\n', '"'], some (.content ['\n'])⟩,
      ⟨.error, 2, ['"'], none⟩, ⟨.error, 2, ['\\'], none⟩] ∧
    lenient.finish.session.line = 2 := by
  intro source strict lenient
  have finished : strict.finish = _ :=
    Reaches.finish_of_end
      (.step rfl (.step rfl (.step rfl (.step rfl (.here _))))) rfl
  have within : strict.finish.session.IsWithinLimit := by
    rw [finished]
    unfold IsWithinLimit
    decide
  obtain ⟨same, _⟩ := limit_matters_to_overlong source 1 ⟨2⟩ ⟨3⟩ (by decide)
  obtain ⟨tokens, _, line⟩ := same within
  rw [finished] at tokens line
  exact ⟨by decide, within, tokens, line⟩

end Session

end LedgerLexer
