/-
The errors of a session and its error tokens. They are the same in number and order and
stand on the same lines, at any point of a run, and no error is changed once it is
recorded. The kind of an error is settled by what the token was read from: a match whose
value is refused, a literal over too many lines, or anything else. Which tokens have a
value is settled by their kinds.
-/

import Mathlib.Data.List.Forall2
import LedgerLexer.Proofs.LiteralSpan
import LedgerLexer.Proofs.PieceValues

namespace LedgerLexer

def Kind.carriesValue : Kind → Bool
  | date | number | string | account | currency | tag | link | key | bool => true
  | lineBreak | indent | flag | error | null | punctuation _ | keyword _ => false

private theorem Kind.carriesValue_eq (kind : Kind) : kind.carriesValue = kind.valueSort.isSome := by
  cases kind <;> rfl

private theorem Session.take_carriesDuly (session : Session) (cut : Cut)
    (here : session.nextCut? = some cut) (token : Token)
    (taken : (session.take cut).token = some token) :
    token.value.isSome = token.kind.carriesValue := by
  rw [Kind.carriesValue_eq, ← (take_isPlain here token taken).sorted, Option.isSome_map]

/-- A token, and the text that was left when its match began. -/
structure Sighting where
  token : Token
  ahead : Text

namespace Sighting

/-- The token shows a whole date, number or fraction, and there is no value for it. -/
def IsRefusedValue (sighting : Sighting) : Prop :=
  ∃ found, Shape.longest? sighting.ahead = some found ∧ found.text = sighting.token.lexeme ∧
    (found.shape = .date ∧ (∃ reason, Date.read found.text = .error reason) ∨
      (found.shape = .number ∨ found.shape = .fraction) ∧
        ∃ reason, Decimal.read found.text = .error reason)

/-- The token shows the opening quote of a literal that spans more lines than these. -/
def IsOverlongOpening (lines : Nat) (sighting : Sighting) : Prop :=
  sighting.token.lexeme = ['"'] ∧
    ∃ rest, sighting.ahead = '"' :: rest ∧ SpansMoreThan lines false rest

end Sighting

/-- The error is the one that reports this token. -/
structure Reports (lines : Nat) (sighting : Sighting) (error : LexError) : Prop where
  line : error.line = sighting.token.line
  conversion : error.kind = .conversion ↔ sighting.IsRefusedValue
  resourceLimit : error.kind = .resourceLimit ↔ sighting.IsOverlongOpening lines
  lexical : error.kind = .lexical ↔
    ¬ sighting.IsRefusedValue ∧ ¬ sighting.IsOverlongOpening lines

private theorem Reports.of_causes {lines : Nat} {sighting : Sighting} {error : LexError}
    (line : error.line = sighting.token.line)
    (conversion : error.kind = .conversion ↔ sighting.IsRefusedValue)
    (resourceLimit : error.kind = .resourceLimit ↔ sighting.IsOverlongOpening lines) :
    Reports lines sighting error where
  line := line
  conversion := conversion
  resourceLimit := resourceLimit
  lexical := by
    rw [← conversion, ← resourceLimit]
    cases error.kind <;> decide

namespace Cut

variable {lines : Nat} {text : Text} {cut : Cut} {lexeme : Text} {reason : Fault}

private theorem conversion_of_refused (lines : Nat) (sighting : Sighting)
    (refused : sighting.IsRefusedValue) :
    ∃ run rest reason, next? lines sighting.ahead = some (fault reason run run rest) ∧
      reason.kind = .conversion := by
  obtain ⟨⟨shape, run, rest⟩, longest, _, converts⟩ := refused
  obtain ⟨first, others, _, here⟩ := next?_of_longest lines sighting.ahead _ longest
  rcases converts with ⟨isDate, reason, failed⟩ | ⟨numeric, reason, failed⟩
  · change shape = .date at isDate
    change Date.read run = .error reason at failed
    subst isDate
    refine ⟨run, rest, .badDate run reason, here.trans ?_, rfl⟩
    change some (ofDate run rest) = _
    rw [ofDate, failed]
  · change shape = .number ∨ shape = .fraction at numeric
    change Decimal.read run = .error reason at failed
    refine ⟨run, rest, .badNumber run reason, here.trans ?_, rfl⟩
    rcases numeric with rfl | rfl
    all_goals
      change some (ofNumber run rest) = _
      rw [ofNumber, failed]

theorem reason_of_badValue (shape : Shape) (run rest : Text)
    (longest : Shape.longest? text = some ⟨shape, run, rest⟩)
    (converts : shape = .date ∨ shape = .number ∨ shape = .fraction)
    (here : next? lines text = some (fault reason run run rest)) :
    (shape = .date ∧ ∃ failure, Date.read run = .error failure ∧ reason = .badDate run failure) ∨
      (shape = .number ∨ shape = .fraction) ∧
        ∃ failure, Decimal.read run = .error failure ∧ reason = .badNumber run failure := by
  obtain ⟨first, others, _, matched⟩ := next?_of_longest lines text _ longest
  have same := Option.some.inj (matched.symm.trans here)
  rcases converts with rfl | numeric
  · refine Or.inl ⟨rfl, ?_⟩
    change ofDate run rest = _ at same
    unfold ofDate at same
    split at same
    · cases same
    · rename_i failure failed
      cases same
      exact ⟨failure, failed, rfl⟩
  · refine Or.inr ⟨numeric, ?_⟩
    have number : ofNumber run rest = fault reason run run rest := by
      rcases numeric with rfl | rfl <;> exact same
    unfold ofNumber at number
    split at number
    · cases number
    · rename_i failure failed
      cases number
      exact ⟨failure, failed, rfl⟩

theorem refused_of_badValue (shape : Shape) (run rest : Text)
    (longest : Shape.longest? text = some ⟨shape, run, rest⟩)
    (converts : shape = .date ∨ shape = .number ∨ shape = .fraction)
    (here : next? lines text = some (fault reason run run rest)) :
    shape = .date ∧ (∃ failure, Date.read run = .error failure) ∨
      (shape = .number ∨ shape = .fraction) ∧ ∃ failure, Decimal.read run = .error failure := by
  rcases reason_of_badValue shape run rest longest converts here with
    ⟨isDate, failure, failed, _⟩ | ⟨numeric, failure, failed, _⟩
  · exact Or.inl ⟨isDate, failure, failed⟩
  · exact Or.inr ⟨numeric, failure, failed⟩

private theorem conversion_iff_refused (sighting : Sighting)
    (here : next? lines sighting.ahead = some cut)
    (found : cut.piece.finding = .fault sighting.token.lexeme reason) :
    reason.kind = .conversion ↔ sighting.IsRefusedValue := by
  constructor
  · intro conversion
    have form := next?_form lines sighting.ahead cut here
    cases form with
    | @badValue shape run rest _ longest converts _ =>
        exact ⟨_, longest, (Finding.fault.inj found).1,
          refused_of_badValue shape run rest longest converts here⟩
    | openQuote whole abandoned =>
        cases (Finding.fault.inj found).2
        rcases abandoned with ⟨_, rfl⟩ | ⟨_, rfl⟩ <;> cases conversion
    | unknown whole unread =>
        cases (Finding.fault.inj found).2
        cases conversion
    | account whole longest colon bad =>
        cases (Finding.fault.inj found).2
        cases conversion
    | _ => cases found
  · intro refused
    obtain ⟨run, rest, other, otherHere, conversion⟩ := conversion_of_refused lines sighting refused
    rw [here] at otherHere
    cases otherHere
    cases (Finding.fault.inj found).2
    exact conversion

private theorem resourceLimit_iff_overlong (positive : 1 ≤ lines) (sighting : Sighting)
    (here : next? lines sighting.ahead = some cut)
    (found : cut.piece.finding = .fault sighting.token.lexeme reason) :
    reason.kind = .resourceLimit ↔ sighting.IsOverlongOpening lines := by
  constructor
  · intro limit
    have form := next?_form lines sighting.ahead cut here
    unfold Sighting.IsOverlongOpening
    cases form with
    | @openQuote rest _ whole abandoned =>
        rcases abandoned with ⟨tooLong, rfl⟩ | ⟨_, rfl⟩
        · rw [← (Finding.fault.inj found).1]
          exact ⟨rfl, rest, whole, (literalEnd_overlong_iff lines rest positive).1 tooLong⟩
        · cases (Finding.fault.inj found).2
          cases limit
    | badValue longest converts conversion =>
        rw [(Finding.fault.inj found).2, limit] at conversion
        cases conversion
    | unknown whole unread =>
        cases (Finding.fault.inj found).2
        cases limit
    | account whole longest colon bad =>
        cases (Finding.fault.inj found).2
        cases limit
    | _ => cases found
  · rintro ⟨_, rest, whole, spans⟩
    have tooLong := (literalEnd_overlong_iff lines rest positive).2 spans
    rw [whole] at here
    change some (ofLiteral lines ['"'] rest) = some cut at here
    rw [ofLiteral, tooLong] at here
    cases here
    cases (Finding.fault.inj found).2
    rfl

end Cut

/-! ### One error for each error token -/

/-- The tokens of some stages, each with the text at which its match began, when this text
is left behind the stages. -/
def sightings (left : Text) : List Stage → List Sighting
  | [] => []
  | stage :: later =>
      (stage.token.map (Sighting.mk · (textOf (stage :: later) ++ left))).toList ++
        sightings left later

private theorem sightings_tokens (left : Text) (stages : List Stage) :
    (sightings left stages).map Sighting.token = tokensOf stages := by
  induction stages with
  | nil => rfl
  | cons stage later ih =>
      rw [sightings, List.map_append, ih, tokensOf_cons]
      cases stage.token <;> rfl

private theorem sightings_append (left : Text) (before after : List Stage) :
    sightings left (before ++ after) =
      sightings (textOf after ++ left) before ++ sightings left after := by
  induction before with
  | nil => rfl
  | cons stage later ih =>
      rw [List.cons_append, sightings, sightings, ih, List.append_assoc, textOf_cons, textOf_cons,
        textOf_append]
      simp only [List.append_assoc]

def faultySightings (sightings : List Sighting) : List Sighting :=
  sightings.filter (fun sighting => sighting.token.kind == .error)

namespace Session

/-- A stage records the error that reports its error token, and no error for any other
token. -/
theorem stageOf_reports (session : Session) (cut : Cut) (here : session.nextCut? = some cut)
    (positive : 1 ≤ session.options.maxStringLines) :
    List.Forall₂ (Reports session.options.maxStringLines)
      (faultySightings
        ((session.stageOf cut).token.map (Sighting.mk · session.rest)).toList)
      (session.stageOf cut).error?.toList := by
  have form := session.nextCut?_form cut here
  unfold stageOf Stage.error?
  have taking := session.take_taking cut
  generalize session.take cut = pulled at taking
  cases taking with
  | indent found _ =>
      simp only [found]
      exact .nil
  | silent found =>
      rcases found with ⟨found, _⟩ | found
      all_goals
        simp only [found]
        exact .nil
  | @token kind value found =>
      have noError : (kind == Kind.error) = false := by
        simpa only [beq_eq_false_iff_ne] using (form.token_kind found).1
      simp only [found, takeToken, Option.map_some, Option.toList_some, faultySightings,
        List.filter_cons, noError, Bool.false_eq_true, if_false, List.filter_nil]
      exact .nil
  | @fault lexeme reason found =>
      simp only [found]
      refine .cons (Reports.of_causes rfl ?_ ?_) .nil
      · exact Cut.conversion_iff_refused ⟨⟨.error, session.line, lexeme, none⟩, session.rest⟩
          here found
      · exact Cut.resourceLimit_iff_overlong positive
          ⟨⟨.error, session.line, lexeme, none⟩, session.rest⟩ here found

theorem Reaches.reports {session last : Session} {taken : List Stage}
    (run : Reaches session taken last) (positive : 1 ≤ session.options.maxStringLines) :
    List.Forall₂ (Reports session.options.maxStringLines)
      (faultySightings (sightings last.rest taken)) (errorsOf taken) := by
  induction run with
  | here session => exact .nil
  | @step session last cut later next goesOn ih =>
      rw [take_options] at ih
      have text := (Reaches.step next goesOn).text_append
      rw [sightings, text, errorsOf_cons, faultySightings, List.filter_append]
      exact List.rel_append (session.stageOf_reports cut next positive) (ih positive)

private theorem Reaches.sightings_take {session last : Session} {taken : List Stage}
    (run : Reaches session taken last) (count : Nat)
    (tokens : tokensOf taken = session.finish.tokens.take count) :
    sightings last.rest taken = (sightings [] session.trail.stages).take count := by
  have stages := congrArg Trail.stages run.trail_eq
  have whole : sightings [] session.trail.stages =
      sightings last.rest taken ++ sightings [] last.trail.stages := by
    rw [stages, sightings_append, List.append_nil, last.textOf_trail]
  have taking : (sightings last.rest taken).length = min count session.finish.tokens.length := by
    rw [← List.length_take, ← tokens, ← sightings_tokens last.rest, List.length_map]
  have all : (sightings [] session.trail.stages).length = session.finish.tokens.length := by
    rw [← session.tokensOf_trail, ← sightings_tokens [], List.length_map]
  rw [whole, List.length_append] at all
  rw [whole]
  by_cases enough : count ≤ session.finish.tokens.length
  · rw [Nat.min_eq_left enough] at taking
    rw [List.take_left' taking]
  · -- All tokens were handed out, so nothing is sighted behind the run.
    have none : sightings [] last.trail.stages = [] := List.length_eq_zero_iff.1 (by omega)
    rw [none, List.append_nil, List.take_of_length_le (by omega)]

/-- The errors of a session are its error tokens, reported one by one: after any number
of pulls there is an error for each error token pulled so far, in their order and on
their lines, its kind tells what the token was read from, and later pulls only add to
the list. Values belong to kinds. -/
theorem errors_report_tokens (source : Text) (options : Options) (firstLine : Nat) :
    let session := Session.start source options firstLine
    let tokens := session.finish.tokens
    let sighted := sightings [] session.trail.stages
    textOf session.trail.stages = source ∧
    sighted.map Sighting.token = tokens ∧
    (∀ count, (session.after count).pull.token = tokens[count]?) ∧
    (∀ count, List.Forall₂ (Reports (max options.maxStringLines 1))
      (faultySightings (sighted.take count)) (session.after count).errors.toList) ∧
    (∀ count, (session.after count).errors.size =
      ((tokens.take count).filter (fun token => token.kind == .error)).length) ∧
    (∀ count more, (session.after count).errors.toList <+:
      (session.after (count + more)).errors.toList) ∧
    ∀ token ∈ tokens, token.value.isSome = token.kind.carriesValue := by
  intro session tokens sighted
  have positive : 1 ≤ session.options.maxStringLines := options.usable_limit_pos
  have sightedTokens : sighted.map Sighting.token = tokens := by
    rw [sightings_tokens, session.tokensOf_trail]
  have paired : ∀ count, List.Forall₂ (Reports (max options.maxStringLines 1))
      (faultySightings (sighted.take count)) (session.after count).errors.toList := by
    intro count
    obtain ⟨taken, run, taking⟩ := session.reaches_after count
    rw [session.handedOut_eq_take] at taking
    rw [run.errors_eq, ← run.sightings_take count taking]
    exact run.reports positive
  refine ⟨session.textOf_trail, sightedTokens, session.pull_after_token, paired, ?_, ?_, ?_⟩
  · intro count
    have sameLength := (paired count).length_eq
    rw [← Array.length_toList, ← sameLength, ← sightedTokens, ← List.map_take,
      List.filter_map, List.length_map]
    rfl
  · intro count more
    have later (start : Session) : start.errors.toList <+: (start.after more).errors.toList := by
      obtain ⟨taken, run, _⟩ := start.reaches_after more
      rw [run.errors_eq]
      exact List.prefix_append _ _
    rw [after_add]
    exact later _
  · intro token member
    rw [show tokens = _ from (session.tokensOf_trail).symm] at member
    obtain ⟨stage, inTrail, present⟩ := List.mem_filterMap.1 member
    obtain ⟨_, middle, cut, _, here, rfl⟩ := session.exists_cut_of_mem stage inTrail
    exact middle.take_carriesDuly cut here token present

end Session

end LedgerLexer
