/-
The lines of tokens and errors. A session counts the line feeds of the text that it has
taken up: line breaks and string literals hold them, and no other piece does. Starting
further down moves every line by the same amount and changes nothing else.
-/

import LedgerLexer.Proofs.Coverage

namespace LedgerLexer

def feedsFrom (place : Nat) (text : Text) : List Nat :=
  ((text.zipIdx place).filter (fun entry => entry.1 == '\n')).map Prod.snd

private theorem feedsFrom_append (place : Nat) (front back : Text) :
    feedsFrom place (front ++ back) =
      feedsFrom place front ++ feedsFrom (place + front.length) back := by
  unfold feedsFrom
  rw [List.zipIdx_append, List.filter_append, List.map_append]

private theorem feedsFrom_bounds (place : Nat) (text : Text) (feed : Nat)
    (member : feed ∈ feedsFrom place text) :
    place ≤ feed ∧ feed < place + text.length := by
  obtain ⟨entry, inText, rfl⟩ := List.mem_map.1 member
  have found := (List.mem_filter.1 inText).1
  exact ⟨List.le_snd_of_mem_zipIdx found, List.snd_lt_add_of_mem_zipIdx found⟩

private theorem feedsFrom_eq_nil (place : Nat) (text : Text) (absent : lineFeeds text = 0) :
    feedsFrom place text = [] := by
  unfold feedsFrom
  rw [List.map_eq_nil_iff, List.filter_eq_nil_iff]
  intro entry inText feed
  apply List.count_eq_zero.1 absent
  have char := List.fst_mem_of_mem_zipIdx inText
  rw [beq_iff_eq.1 feed] at char
  exact char

/-- What a stage does with the line feeds of its piece: it has none, they are part of a
string literal, or there is one at the end of a line break. -/
inductive Stage.KeepsFeeds (stage : Stage) : Prop where
  | absent (none : lineFeeds stage.piece.text = 0)
      (noBreak : ∀ token, stage.token = some token → token.kind ≠ .lineBreak)
  | literal {token : Token} (present : stage.token = some token) (string : token.kind = .string)
      (whole : token.lexeme = stage.piece.text)
  | lineBreak {token : Token} {front : Text} (present : stage.token = some token)
      (breaks : token.kind = .lineBreak) (whole : token.lexeme = stage.piece.text)
      (ends : stage.piece.text = front ++ ['\n']) (first : lineFeeds front = 0)

private theorem Session.stageOf_keepsFeeds (session : Session) (cut : Cut)
    (here : session.nextCut? = some cut) : (session.stageOf cut).KeepsFeeds := by
  have form := session.nextCut?_form cut here
  have feeds := form.lineFeeds_piece
  unfold stageOf
  have taking := session.take_taking cut
  generalize session.take cut = pulled at taking
  cases taking with
  | indent found _ =>
      rw [found] at feeds
      refine .absent feeds ?_
      intro token present
      cases present
      exact nofun
  | silent found =>
      refine .absent ?_ nofun
      rcases found with ⟨found, _⟩ | found
      all_goals
        rw [found] at feeds
        exact feeds
  | @token kind value found =>
      by_cases breaks : kind = .lineBreak
      · subst breaks
        rcases form.lineBreak_text found with text | text
        · exact .lineBreak rfl rfl rfl (show cut.piece.text = [] ++ ['\n'] from text) rfl
        · exact .lineBreak rfl rfl rfl (show cut.piece.text = ['\r'] ++ ['\n'] from text) rfl
      · by_cases string : kind = .string
        · exact .literal rfl string rfl
        · refine .absent ?_ ?_
          · rw [found] at feeds
            exact feeds.trans (Cut.linesEnded_eq_zero kind _ breaks string)
          · intro token present
            cases present
            exact breaks
  | fault found =>
      rw [found] at feeds
      refine .absent feeds ?_
      intro token present
      cases present
      exact nofun

/-! ### Line breaks and line feeds -/

instance (span : Span) (place : Nat) : Decidable (span.Holds place) :=
  inferInstanceAs (Decidable (_ ∧ _))

def inLiteral (entries : List (Token × Span)) (place : Nat) : Bool :=
  entries.any (fun entry => entry.1.kind == .string && decide (entry.2.Holds place))

/-- The last places of the line breaks among some tokens. -/
def breakPlaces (entries : List (Token × Span)) : List Nat :=
  (entries.filter (fun entry => entry.1.kind == .lineBreak)).map (fun entry => entry.2.stop - 1)

private theorem inLiteral_eq_false (entries : List (Token × Span)) (place : Nat)
    (outside : ∀ entry ∈ entries, ¬ entry.2.Holds place) : inLiteral entries place = false := by
  rw [inLiteral, List.any_eq_false]
  intro entry member holds
  rw [Bool.and_eq_true, decide_eq_true_eq] at holds
  exact outside entry member holds.2

private theorem inLiteral_cons (token : Token) (span : Span) (entries : List (Token × Span))
    (place : Nat) :
    inLiteral ((token, span) :: entries) place =
      (token.kind == .string && decide (span.Holds place) || inLiteral entries place) :=
  rfl

private theorem breakPlaces_cons_of_ne (token : Token) (span : Span) (entries : List (Token × Span))
    (noBreak : token.kind ≠ .lineBreak) :
    breakPlaces ((token, span) :: entries) = breakPlaces entries := by
  unfold breakPlaces
  rw [List.filter_cons_of_neg]
  simpa only [beq_iff_eq] using noBreak

private theorem breakPlaces_cons_of_eq (token : Token) (span : Span) (entries : List (Token × Span))
    (breaks : token.kind = .lineBreak) :
    breakPlaces ((token, span) :: entries) = (span.stop - 1) :: breakPlaces entries := by
  unfold breakPlaces
  rw [List.filter_cons_of_pos (by simpa only [beq_iff_eq] using breaks), List.map_cons]

private theorem inLiteral_cons_of_stop_le (token : Token) (span : Span)
    (entries : List (Token × Span)) (place : Nat) (beyond : span.stop ≤ place) :
    inLiteral ((token, span) :: entries) place = inLiteral entries place := by
  have outside : ¬ span.Holds place := fun holds => Nat.not_lt.2 beyond holds.2
  rw [inLiteral_cons, decide_eq_false outside, Bool.and_false, Bool.false_or]

namespace Stage.KeepsFeeds

variable {stage : Stage}

private theorem feedsFrom_of_silent (keeps : stage.KeepsFeeds) (missing : stage.token = none)
    (place : Nat) : feedsFrom place stage.piece.text = [] := by
  cases keeps with
  | absent none _ => exact feedsFrom_eq_nil place _ none
  | literal present _ _ =>
      rw [missing] at present
      cases present
  | lineBreak present _ _ _ _ =>
      rw [missing] at present
      cases present

private theorem breakPlaces_token (keeps : stage.KeepsFeeds) {token : Token} {left right : Text}
    (present : stage.token = some token)
    (insidePiece : left ++ token.lexeme ++ right = stage.piece.text) (place : Nat)
    (inside : Nat → Bool) (entries : List (Token × Span))
    (agrees : ∀ feed ∈ feedsFrom place stage.piece.text,
      inside feed = (token.kind == .string &&
        decide (Span.Holds
          ⟨place + left.length, place + left.length + token.lexeme.length⟩ feed))) :
    breakPlaces ((token, ⟨place + left.length, place + left.length + token.lexeme.length⟩) ::
        entries) =
      (feedsFrom place stage.piece.text).filter (fun feed => !inside feed) ++
        breakPlaces entries := by
  have lengths := congrArg List.length insidePiece
  simp only [List.length_append] at lengths
  have sameToken (other : Token) (otherPresent : stage.token = some other) : other = token := by
    rw [present] at otherPresent
    exact (Option.some.inj otherPresent).symm
  cases keeps with
  | absent none noBreak =>
      rw [feedsFrom_eq_nil place _ none, breakPlaces_cons_of_ne _ _ _ (noBreak token present)]
      rfl
  | @literal other otherPresent string whole =>
      obtain rfl := sameToken other otherPresent
      have noBreak : other.kind ≠ .lineBreak := by
        rw [string]
        exact nofun
      have noneLeft :
          (feedsFrom place stage.piece.text).filter (fun feed => !inside feed) = [] := by
        rw [List.filter_eq_nil_iff]
        intro feed member
        obtain ⟨atLeast, below⟩ := feedsFrom_bounds _ _ _ member
        have holds : Span.Holds
            ⟨place + left.length, place + left.length + other.lexeme.length⟩ feed := by
          rw [whole] at lengths ⊢
          constructor
          all_goals
            simp only
            omega
        rw [agrees feed member, string, decide_eq_true holds]
        exact nofun
      rw [breakPlaces_cons_of_ne _ _ _ noBreak, noneLeft, List.nil_append]
  | @lineBreak other front otherPresent breaks whole ends noFeed =>
      obtain rfl := sameToken other otherPresent
      have oneFeed : feedsFrom place stage.piece.text =
          [place + left.length + other.lexeme.length - 1] := by
        have last : place + left.length + other.lexeme.length - 1 = place + front.length := by
          rw [whole, ends, List.length_append, List.length_singleton] at lengths ⊢
          omega
        rw [ends, feedsFrom_append, feedsFrom_eq_nil place front noFeed, last]
        rfl
      have outside : inside (place + left.length + other.lexeme.length - 1) = false := by
        rw [agrees _ (by rw [oneFeed]; exact List.mem_singleton_self _), breaks]
        rfl
      rw [breakPlaces_cons_of_eq _ _ _ breaks, oneFeed]
      simp only [List.filter_cons, outside, Bool.not_false, if_true, List.filter_nil,
        List.singleton_append]

end Stage.KeepsFeeds

namespace LaysOut

variable {place : Nat} {stages : List Stage} {spans : List Span}

private theorem not_inLiteral_before (out : LaysOut place stages spans) (tokens : List Token)
    (ahead : Nat) (before : ahead < place) : inLiteral (tokens.zip spans) ahead = false := by
  apply inLiteral_eq_false
  intro entry member holds
  have starts := (out.bounds entry.2 (List.of_mem_zip member).2).1
  have starting := holds.1
  omega

/-- The line breaks end at the line feeds outside string literals. The predicate need
agree with the literals only on the text of these stages. -/
theorem breakPlaces_eq (out : LaysOut place stages spans)
    (keeps : ∀ stage ∈ stages, stage.KeepsFeeds) (inside : Nat → Bool)
    (agrees : ∀ feed, place ≤ feed → feed < place + (textOf stages).length →
      inside feed = inLiteral ((tokensOf stages).zip spans) feed) :
    breakPlaces ((tokensOf stages).zip spans) =
      (feedsFrom place (textOf stages)).filter (fun feed => !inside feed) := by
  induction out with
  | nil place => rfl
  | @silent place stage later spans missing laterOut ih =>
      have sameTokens : tokensOf (stage :: later) = tokensOf later := by
        rw [tokensOf_cons, missing]
        rfl
      rw [sameTokens] at agrees ⊢
      rw [textOf_cons, List.length_append] at agrees
      have laterEq := ih (fun other member => keeps other (List.mem_cons_of_mem _ member))
        (fun feed atLeast below => agrees feed (by omega) (by omega))
      have noFeed := (keeps stage (List.mem_cons_self ..)).feedsFrom_of_silent missing place
      rw [textOf_cons, feedsFrom_append, noFeed, List.nil_append, laterEq]
  | @token place stage later spans token left right present nonempty insidePiece laterOut ih =>
      have sameTokens : tokensOf (stage :: later) = token :: tokensOf later := by
        rw [tokensOf_cons, present]
        rfl
      have lengths := congrArg List.length insidePiece
      simp only [List.length_append] at lengths
      rw [sameTokens, List.zip_cons_cons, textOf_cons, List.length_append] at agrees
      have laterEq := ih (fun other member => keeps other (List.mem_cons_of_mem _ member))
        (fun feed atLeast below => by
          rw [agrees feed (by omega) (by omega)]
          exact inLiteral_cons_of_stop_le _ _ _ _ (by simp only; omega))
      have first := (keeps stage (List.mem_cons_self ..)).breakPlaces_token present insidePiece
        place inside ((tokensOf later).zip spans) (fun feed member => by
          obtain ⟨atLeast, below⟩ := feedsFrom_bounds _ _ _ member
          rw [agrees feed atLeast (by omega), inLiteral_cons,
            laterOut.not_inLiteral_before _ feed below, Bool.or_false])
      rw [sameTokens, List.zip_cons_cons, textOf_cons, feedsFrom_append, List.filter_append,
        ← laterEq]
      exact first

end LaysOut

namespace Session

theorem stageOf_keepsFeeds_of_mem (session : Session) (stage : Stage)
    (member : stage ∈ session.trail.stages) : stage.KeepsFeeds := by
  obtain ⟨_, middle, cut, _, here, rfl⟩ := session.exists_cut_of_mem stage member
  exact middle.stageOf_keepsFeeds cut here

private theorem stageOf_error_line (session : Session) (cut : Cut)
    (here : session.nextCut? = some cut) :
    (session.stageOf cut).error?.map LexError.line =
      ((session.stageOf cut).token.filter (fun token => token.kind == .error)).map Token.line := by
  have form := session.nextCut?_form cut here
  unfold stageOf Stage.error?
  have taking := session.take_taking cut
  generalize session.take cut = pulled at taking
  cases taking with
  | indent found _ =>
      simp only [found]
      rfl
  | silent found =>
      rcases found with ⟨found, _⟩ | found
      all_goals
        simp only [found]
        rfl
  | @token kind value found =>
      have noError : (kind == Kind.error) = false := by
        simpa only [beq_eq_false_iff_ne] using (form.token_kind found).1
      simp only [found, takeToken, Option.filter, noError]
      rfl
  | fault found =>
      simp only [found]
      rfl

/-- A run records one error for each error token, on its line. -/
theorem Reaches.lines_of_errorsOf {session last : Session} {taken : List Stage}
    (run : Reaches session taken last) :
    (errorsOf taken).map LexError.line =
      ((tokensOf taken).filter (fun token => token.kind == .error)).map Token.line := by
  induction run with
  | here session => rfl
  | @step session last cut later next _ ih =>
      have stageLine := session.stageOf_error_line cut next
      rw [errorsOf_cons, tokensOf_cons, List.map_append, List.filter_append, List.map_append, ih]
      congr 1
      cases token : (session.stageOf cut).token with
      | none =>
          rw [token] at stageLine
          rw [Option.map_eq_none_iff.1 stageLine]
          rfl
      | some found =>
          rw [token] at stageLine
          rw [← Option.toList_map, stageLine]
          cases isError : (found.kind == Kind.error) with
          | true => simp [Option.filter, isError]
          | false => simp [Option.filter, isError]

private theorem Reaches.error_lines {session last : Session} {taken : List Stage}
    (run : Reaches session taken last) :
    last.errors.toList.map LexError.line = session.errors.toList.map LexError.line ++
      ((tokensOf taken).filter (fun token => token.kind == .error)).map Token.line := by
  rw [run.errors_eq, List.map_append, run.lines_of_errorsOf]

theorem Reaches.errorsOf_length {session last : Session} {taken : List Stage}
    (run : Reaches session taken last) :
    (errorsOf taken).length =
      ((tokensOf taken).filter (fun token => token.kind == .error)).length := by
  have lengths := congrArg List.length run.lines_of_errorsOf
  rw [List.length_map, List.length_map] at lengths
  exact lengths

end Session

/-! ### Starting further down -/

def Token.shift (extra : Nat) (token : Token) : Token :=
  { token with line := token.line + extra }

def LexError.shift (extra : Nat) (error : LexError) : LexError :=
  { error with line := error.line + extra }

namespace Session

def shift (extra : Nat) (session : Session) : Session :=
  { session with
    line := session.line + extra
    errors := session.errors.map (LexError.shift extra) }

end Session

def Pulled.shift (extra : Nat) (pulled : Pulled) : Pulled :=
  ⟨pulled.token.map (Token.shift extra), pulled.session.shift extra⟩

namespace Session

variable (extra : Nat)

private theorem take_shift (session : Session) (cut : Cut) :
    (session.shift extra).take cut = (session.take cut).shift extra := by
  unfold take
  split
  · unfold takeBlank
    have sameIndents : (session.shift extra).indents cut = session.indents cut := rfl
    rw [sameIndents]
    split <;> rfl
  · rfl
  · rename_i kind value _
    unfold takeToken Pulled.shift shift pass
    simp only [Option.map_some, Token.shift]
    rw [Nat.add_right_comm]
  · rename_i lexeme reason _
    unfold takeFault Pulled.shift shift pass
    simp only [Option.map_some, Token.shift, Array.map_push]
    rfl

private theorem step?_shift (session : Session) :
    (session.shift extra).step? = session.step?.map (Pulled.shift extra) := by
  unfold step?
  rw [Option.map_map]
  have sameCut : (session.shift extra).nextCut? = session.nextCut? := rfl
  rw [sameCut]
  congr 1
  funext cut
  exact session.take_shift extra cut

private theorem pull_shift (session : Session) :
    (session.shift extra).pull = session.pull.shift extra := by
  fun_induction pull session with
  | case1 session stepped =>
      refine pull_of_step_none _ ?_
      rw [step?_shift, stepped]
      rfl
  | case2 session token next stepped =>
      refine pull_of_step_token _ (next.shift extra) (token.shift extra) ?_
      rw [step?_shift, stepped]
      rfl
  | case3 session next stepped ih =>
      rw [← ih]
      refine pull_of_step_silent _ (next.shift extra) ?_
      rw [step?_shift, stepped]
      rfl

private theorem after_shift (session : Session) (count : Nat) :
    (session.shift extra).after count = (session.after count).shift extra := by
  induction count generalizing session with
  | zero => rfl
  | succ count ih =>
      rw [after, after, pull_shift]
      exact ih session.pull.session

private theorem start_shift (source : Text) (options : Options) (firstLine : Nat) :
    start source options (firstLine + extra) = (start source options firstLine).shift extra := by
  simp only [start, shift, List.map_toArray, List.map_nil]

/-- At every point of a run, lines count the line feeds taken up before: a token has the
line on which its match begins, an error that of its token, and the line breaks end at
the line feeds outside string literals. The first line moves all lines and nothing else. -/
theorem lines_count_feeds (source : Text) (options : Options) (firstLine : Nat) :
    let session := Session.start source options firstLine
    let stages := session.trail.stages
    let tokens := session.finish.tokens
    Reaches session stages session.finish.session ∧
    tokensOf stages = tokens ∧
    (∀ before stage behind token, stages = before ++ stage :: behind → stage.token = some token →
      token.line = firstLine + lineFeeds (textOf before)) ∧
    (∀ count, (session.after count).errors.toList.map LexError.line =
      ((tokens.take count).filter (fun token => token.kind == .error)).map Token.line) ∧
    (∀ count, ∃ consumed, consumed ++ (session.after count).rest = source ∧
      (session.after count).line = firstLine + lineFeeds consumed) ∧
    (∀ count, tokens.length < count →
      (session.after count).line = firstLine + lineFeeds source) ∧
    (∃ spans, LaysOut 0 stages spans ∧
      breakPlaces (tokens.zip spans) =
        (feedsFrom 0 source).filter (fun feed => !inLiteral (tokens.zip spans) feed)) ∧
    ∀ extra count,
      let lower := Session.start source options (firstLine + extra)
      (lower.after count).pull.token = (session.after count).pull.token.map (Token.shift extra) ∧
      lower.after count = (session.after count).shift extra := by
  intro session stages tokens
  have sameTokens : tokensOf stages = tokens := session.tokensOf_trail
  have text : textOf stages = source := session.textOf_trail
  have run : Reaches session stages session.finish.session := session.reaches_finish
  refine ⟨run, sameTokens, ?_, ?_, ?_, ?_, ?_, ?_⟩
  · intro before stage behind token split present
    obtain ⟨middle, cut, front, _, rfl, _⟩ := session.exists_cut_of_split before behind stage split
    rw [middle.take_token_line cut token present]
    exact front.line_eq
  · intro count
    obtain ⟨taken, front, taking⟩ := session.reaches_after count
    rw [front.error_lines, taking, session.handedOut_eq_take]
    rfl
  · intro count
    obtain ⟨taken, front, _⟩ := session.reaches_after count
    exact ⟨textOf taken, front.text_append, front.line_eq⟩
  · intro count finishedBefore
    rw [session.after_of_finished count finishedBefore, run.line_eq, text]
    rfl
  · obtain ⟨spans, out, _⟩ := session.exists_layout
    have breaks := out.breakPlaces_eq session.stageOf_keepsFeeds_of_mem
      (inLiteral ((tokensOf stages).zip spans)) (fun _ _ _ => rfl)
    rw [text, sameTokens] at breaks
    exact ⟨spans, out, breaks⟩
  · intro extra count lower
    have shifted : lower.after count = (session.after count).shift extra := by
      have begins : lower = session.shift extra := start_shift extra source options firstLine
      rw [begins, after_shift]
    refine ⟨?_, shifted⟩
    rw [shifted, pull_shift]
    rfl

end Session

end LedgerLexer
