/-
Where indents stand. When every carriage return belongs to a line end, a line that begins
outside string literals has an indent exactly when it begins with blanks, holds content, and
content came before it; the indent is all the blanks at its front. No line has two, and in
the stream an indent stands between a line break and the first content of its line.
-/

import LedgerLexer.Proofs.Joining
import LedgerLexer.Proofs.Lines

namespace LedgerLexer

/-! ### Lines of a source -/

/-- Every carriage return has a line feed behind it. -/
def ReturnsPaired (text : Text) : Prop :=
  ∀ front back, text = front ++ '\r' :: back → back.head? = some '\n'

theorem ReturnsPaired.of_append {front back : Text} (paired : ReturnsPaired (front ++ back)) :
    ReturnsPaired back := by
  intro before behind same
  exact paired (front ++ before) behind (by rw [same, List.append_assoc])

private theorem returnsPaired_nil : ReturnsPaired [] := by
  intro front back whole
  cases front <;> cases whole

theorem returnsPaired_cons_iff (char : Char) (rest : Text) :
    ReturnsPaired (char :: rest) ↔ (char = '\r' → rest.head? = some '\n') ∧ ReturnsPaired rest := by
  constructor
  · intro paired
    refine ⟨?_, @ReturnsPaired.of_append [char] rest paired⟩
    rintro rfl
    exact paired [] rest rfl
  · rintro ⟨first, later⟩ front back whole
    cases front with
    | nil =>
        obtain ⟨rfl, rfl⟩ := List.cons.inj whole
        exact first rfl
    | cons _ others => exact later others back (List.cons.inj whole).2

def EndsInString (stages : List Stage) (before : Text) : Prop :=
  ∃ front stage behind token opened left, stages = front ++ stage :: behind ∧
    stage.token = some token ∧ token.kind = .string ∧ token.lexeme = opened ++ left ∧
    opened ≠ [] ∧ left ≠ [] ∧ before = textOf front ++ opened

/-- A line that begins outside string literals, given by the text before it and the text from
its start on. -/
structure LineBegins (stages : List Stage) (before ahead : Text) : Prop where
  whole : before ++ ahead = textOf stages
  start : before = [] ∨ EndsLine before
  outside : ¬ EndsInString stages before

private theorem line_unique {before ahead other behind : Text}
    (whole : before ++ ahead = other ++ behind)
    (start : before = [] ∨ EndsLine before) (otherStart : other = [] ∨ EndsLine other)
    (feeds : lineFeeds before = lineFeeds other) : before = other := by
  have within (front more : Text) (start : front ++ more = [] ∨ EndsLine (front ++ more))
      (same : lineFeeds (front ++ more) = lineFeeds front) : more = [] := by
    have moreStart : more = [] ∨ EndsLine more := by
      rcases start with empty | ends
      · exact Or.inl (List.append_eq_nil_iff.1 empty).2
      · exact ends.of_append
    rcases moreStart with empty | ends
    · exact empty
    · have positive := ends.lineFeeds_pos
      rw [lineFeeds_append] at same
      omega
  rcases List.append_eq_append_iff.1 whole with ⟨more, rfl, _⟩ | ⟨more, rfl, _⟩
  · rw [within before more otherStart feeds.symm, List.append_nil]
  · rw [within other more start feeds, List.append_nil]

private theorem exists_stage_cut (stages : List Stage) (before ahead : Text)
    (whole : before ++ ahead = textOf stages) :
    (∃ front behind, stages = front ++ behind ∧ textOf front = before ∧ textOf behind = ahead) ∨
    ∃ front stage behind opened left, stages = front ++ stage :: behind ∧
      stage.piece.text = opened ++ left ∧ opened ≠ [] ∧ left ≠ [] ∧
      before = textOf front ++ opened := by
  induction stages generalizing before with
  | nil =>
      obtain ⟨rfl, rfl⟩ := List.append_eq_nil_iff.1 whole
      exact Or.inl ⟨[], [], rfl, rfl, rfl⟩
  | cons stage later ih =>
      rw [textOf_cons] at whole
      rcases List.append_eq_append_iff.1 whole with ⟨left, text, rfl⟩ | ⟨more, rfl, laterText⟩
      · by_cases noFront : before = []
        · subst noFront
          exact Or.inl ⟨[], stage :: later, rfl, rfl, by rw [textOf_cons, text]; rfl⟩
        · by_cases noBack : left = []
          · subst noBack
            refine Or.inl ⟨[stage], later, rfl, ?_, rfl⟩
            rw [textOf_cons, text, textOf_nil, List.append_nil, List.append_nil]
          · exact Or.inr ⟨[], stage, later, before, left, rfl, text, noFront, noBack, rfl⟩
      · rcases ih more laterText.symm with
          ⟨front, behind, rfl, frontText, behindText⟩ |
          ⟨front, found, behind, opened, left, rfl, text, noFront, noBack, moreText⟩
        · exact Or.inl ⟨stage :: front, behind, rfl, by rw [textOf_cons, frontText], behindText⟩
        · exact Or.inr ⟨stage :: front, found, behind, opened, left, rfl, text, noFront, noBack,
            by rw [textOf_cons, moreText, List.append_assoc]⟩

namespace Session

variable {session middle last : Session} {cut : Cut} {before ahead : Text}

/-- Only a string literal can hold the end of a line before its own end. -/
theorem boundary_of_lineBegins (line : LineBegins session.trail.stages before ahead) :
    ∃ front middle, Reaches session front middle ∧ textOf front = before ∧ middle.rest = ahead ∧
      session.trail.stages = front ++ middle.trail.stages := by
  rcases exists_stage_cut _ before ahead line.whole with
    ⟨front, behind, split, frontText, behindText⟩ |
    ⟨front, stage, behind, opened, left, split, text, noFront, noBack, beforeText⟩
  · obtain ⟨middle, run, stages⟩ := session.reaches_of_trail front behind split
    refine ⟨front, middle, run, frontText, ?_, by rw [stages, split]⟩
    rw [← middle.textOf_trail, stages, behindText]
  · exfalso
    have member : stage ∈ session.trail.stages := by rw [split]; simp
    have openedEnds : EndsLine opened := by
      rcases line.start with empty | ends
      · rw [beforeText] at empty
        exact absurd (List.append_eq_nil_iff.1 empty).2 noFront
      · rw [beforeText] at ends
        exact ends.of_append.resolve_left noFront
    have feeds := openedEnds.lineFeeds_pos
    cases session.stageOf_keepsFeeds_of_mem stage member with
    | absent none _ =>
        rw [text, lineFeeds_append] at none
        omega
    | literal present string whole =>
        exact line.outside ⟨front, stage, behind, _, opened, left, split, present, string,
          whole.trans text, noFront, noBack, beforeText⟩
    | @lineBreak _ head _ _ _ ends first =>
        -- The one line feed of a line break is its last character.
        obtain ⟨most, final, rfl⟩ := (List.eq_nil_or_concat left).resolve_left noBack
        rw [text, List.concat_eq_append, ← List.append_assoc] at ends
        have sameHead := (List.append_inj' ends rfl).1
        rw [← sameHead, lineFeeds_append] at first
        omega

private theorem Reaches.token_line {front behind : List Stage} {stage : Stage} {token : Token}
    (run : Reaches session (front ++ stage :: behind) last) (present : stage.token = some token) :
    token.line = session.line + lineFeeds (textOf front) := by
  obtain ⟨middle, first, second⟩ := run.split
  cases second with
  | @step _ _ cut _ _ _ => rw [middle.take_token_line cut token present, first.line_eq]

private theorem exists_stage_of_token {stages : List Stage} {token : Token}
    (member : token ∈ tokensOf stages) :
    ∃ front stage behind, stages = front ++ stage :: behind ∧ stage.token = some token := by
  obtain ⟨stage, inStages, present⟩ := List.mem_filterMap.1 member
  obtain ⟨front, behind, split⟩ := List.append_of_mem inStages
  exact ⟨front, stage, behind, split, present⟩

private theorem Reaches.line_le_of_token {taken : List Stage} {token : Token}
    (run : Reaches session taken last) (member : token ∈ tokensOf taken) :
    session.line ≤ token.line := by
  obtain ⟨front, stage, behind, rfl, present⟩ := exists_stage_of_token member
  rw [run.token_line present]
  exact Nat.le_add_right _ _

private theorem Reaches.line_lt_of_token {taken : List Stage} {token : Token}
    (run : Reaches session taken last) (starts : textOf taken = [] ∨ EndsLine (textOf taken))
    (member : token ∈ tokensOf taken) : token.line < last.line := by
  have ends : EndsLine (textOf taken) := by
    refine starts.resolve_left ?_
    intro empty
    rw [run.eq_nil_of_textOf empty] at member
    cases member
  obtain ⟨front, stage, behind, rfl, present⟩ := exists_stage_of_token member
  have nonempty : textOf (stage :: behind) ≠ [] := by
    obtain ⟨middle, _, second⟩ := run.split
    intro empty
    cases second.eq_nil_of_textOf empty
  rw [textOf_append] at ends
  have positive := (ends.of_append.resolve_left nonempty).lineFeeds_pos
  rw [run.token_line present, run.line_eq, textOf_append, lineFeeds_append]
  omega

/-- Content has been seen at the start of a line when an earlier line has a token other than
a line break. -/
theorem Reaches.seenContent_iff {taken : List Stage} (run : Reaches session taken middle)
    (fresh : session.seenContent = false)
    (starts : textOf taken = [] ∨ EndsLine (textOf taken)) :
    middle.seenContent = true ↔ ∃ token ∈ tokensOf (taken ++ middle.trail.stages),
      token.kind ≠ .lineBreak ∧ token.line < middle.line := by
  rw [run.seenContent_eq, fresh, Bool.false_or, List.any_eq_true]
  constructor
  · rintro ⟨token, member, content⟩
    refine ⟨token, ?_, bne_iff_ne.1 content, run.line_lt_of_token starts member⟩
    rw [tokensOf_append]
    exact List.mem_append_left _ member
  · rintro ⟨token, member, content, earlier⟩
    refine ⟨token, ?_, bne_iff_ne.2 content⟩
    rw [tokensOf_append, List.mem_append] at member
    refine member.resolve_right ?_
    intro later
    have notEarlier := middle.reaches_trail.1.line_le_of_token later
    omega

/-! ### Indents and the content behind them -/

private theorem indent_of_stageOf {token : Token} (here : session.nextCut? = some cut)
    (present : (session.stageOf cut).token = some token) (isIndent : token.kind = .indent) :
    session.BeginsContent cut ∧ session.seenContent = true ∧
      token = ⟨.indent, session.line, cut.piece.text, none⟩ := by
  cases handsOut_of_take present with
  | indent found indented =>
      simp only [indents, Bool.and_eq_true] at indented
      exact ⟨⟨found, indented.1.1, indented.2⟩, indented.1.2, rfl⟩
  | token found => exact absurd isIndent ((session.nextCut?_form cut here).token_kind found).2
  | fault _ => cases isIndent

private theorem line_of_layout (here : session.nextCut? = some cut)
    (layout : cut.piece.finding = .blank ∨ cut.piece.finding = .comment) :
    (session.take cut).session.line = session.line := by
  have feeds := (session.nextCut?_form cut here).lineFeeds_piece
  rw [session.take_line cut here, feeds]
  rcases layout with found | found
  all_goals
    rw [found]
    rfl

private theorem BeginsContent.next_token (begins : session.BeginsContent cut)
    (here : session.nextCut? = some cut) :
    ∃ next later, tokensOf (session.take cut).session.trail.stages = next :: later ∧
      ¬ next.kind.IsLayout ∧ next.line = session.line := by
  obtain ⟨content, later, ahead, notBlank, _, next, present, notBreak⟩ := begins.next_stage here
  obtain ⟨following, nextHere, rfl, _, _⟩ := cut_of_trail _ content later ahead
  refine ⟨next, tokensOf later, by rw [ahead, tokensOf_cons, present]; rfl, ?_, ?_⟩
  · rintro (breaks | isIndent)
    · exact notBreak breaks
    · exact notBlank (indent_of_stageOf nextHere present isIndent).1.isBlank
  · rw [take_token_line _ following next present, line_of_layout here (Or.inl begins.isBlank)]

private theorem next?_of_lineEnd (lines : Nat) (text : Text) (paired : ReturnsPaired text)
    (present : text ≠ []) (meets : text.head?.all isLineEnd = true) :
    ∃ run rest, Cut.next? lines text = some (Cut.token .lineBreak none run rest) := by
  match text with
  | first :: others =>
      have lineEnd : first = '\n' ∨ first = '\r' := by simpa [isLineEnd] using meets
      rcases lineEnd with rfl | rfl
      · exact ⟨['\n'], others, rfl⟩
      · obtain ⟨rest, rfl⟩ := List.head?_eq_some_iff.1 (paired [] others rfl)
        exact ⟨['\r', '\n'], rest, rfl⟩

private theorem layout_of_lineEnd (paired : ReturnsPaired session.rest)
    (meets : session.rest.head?.all isLineEnd = true) {token : Token}
    (member : token ∈ tokensOf session.trail.stages) (sameLine : token.line = session.line) :
    token.kind.IsLayout := by
  have present : session.rest ≠ [] := by
    intro empty
    rw [session.trail_of_none ((Cut.next?_eq_none_iff _ _).2 empty)] at member
    cases member
  obtain ⟨run, rest, here⟩ :=
    next?_of_lineEnd session.options.maxStringLines session.rest paired present meets
  rw [session.trail_of_cut _ here, tokensOf_cons, List.mem_append] at member
  rcases member with first | later
  · obtain rfl := List.mem_singleton.1 first
    exact Or.inl rfl
  · -- The line break ends the line, and every later token stands below it.
    have below := (reaches_trail _).1.line_le_of_token later
    change session.line + 1 ≤ token.line at below
    omega

private theorem lineEnd_or_comment (text : Text) (quiet : startsContent text = false) :
    text.head?.all isLineEnd = true ∨ ∃ others, text = ';' :: others := by
  match text with
  | [] => exact Or.inl rfl
  | first :: others =>
      by_cases comment : first = ';'
      · exact Or.inr ⟨others, by rw [comment]⟩
      · refine Or.inl ?_
        simpa [startsContent, comment] using quiet

private theorem layout_of_no_content (paired : ReturnsPaired session.rest)
    (quiet : startsContent session.rest = false) {token : Token}
    (member : token ∈ tokensOf session.trail.stages) (sameLine : token.line = session.line) :
    token.kind.IsLayout := by
  rcases lineEnd_or_comment session.rest quiet with meets | ⟨others, comment⟩
  · exact layout_of_lineEnd paired meets member sameLine
  · have here := Cut.next?_semicolon session.options.maxStringLines others
    rw [← comment] at here
    change session.nextCut? = some _ at here
    obtain ⟨_, _, _, meets⟩ := (session.nextCut?_form _ here).comment_text rfl
    rw [session.trail_of_cut _ here] at member
    rw [← line_of_layout here (Or.inr rfl)] at sameLine
    refine layout_of_lineEnd ?_ ?_ member sameLine
    · rw [← (Cut.next?_splits _ _ _ here).2] at paired
      rw [take_rest]
      exact paired.of_append
    · rw [take_rest]
      exact meets

private theorem nextCut?_of_blank (blank : session.rest.head?.any isBlank = true) :
    session.nextCut? =
      some ⟨⟨session.rest.takeWhile isBlank, .blank⟩, session.rest.dropWhile isBlank⟩ := by
  match ahead : session.rest with
  | first :: others =>
      rw [ahead] at blank
      have isBlankFirst : isBlank first = true := blank
      rw [nextCut?, ahead, Cut.next?, Shape.longest?_blank first others isBlankFirst,
        List.takeWhile_cons_of_pos isBlankFirst, List.dropWhile_cons_of_pos isBlankFirst]
      rfl
  | [] =>
      rw [ahead] at blank
      cases blank

private theorem blanks_of_finding (here : session.nextCut? = some cut)
    (found : cut.piece.finding = .blank) :
    session.rest.head?.any isBlank = true ∧ cut.piece.text = session.rest.takeWhile isBlank := by
  have allBlank := (session.nextCut?_form cut here).all_blank found
  obtain ⟨first, others, pieceText, restForm⟩ := session.rest_of_nextCut? cut here
  have blank : session.rest.head?.any isBlank = true := by
    rw [pieceText, List.all_cons, Bool.and_eq_true] at allBlank
    rw [restForm]
    exact allBlank.1
  rw [nextCut?_of_blank blank] at here
  exact ⟨blank, by rw [← Option.some.inj here]⟩

private theorem token_of_blank {token : Token} (found : cut.piece.finding = .blank)
    (present : (session.stageOf cut).token = some token) : token.kind = .indent := by
  cases handsOut_of_take present with
  | indent _ _ => rfl
  | token other =>
      rw [found] at other
      cases other
  | fault other =>
      rw [found] at other
      cases other

/-! ### Where indents stand -/

private theorem lexeme_of_stageOf {token : Token}
    (present : (session.stageOf cut).token = some token)
    (noError : token.kind ≠ .error) : token.lexeme = cut.piece.text := by
  cases handsOut_of_take present with
  | fault _ => exact absurd rfl noError
  | _ => rfl

private theorem not_endsInString_of_split {front behind : List Stage}
    (split : session.trail.stages = front ++ behind) :
    ¬ EndsInString session.trail.stages (textOf front) := by
  rintro ⟨start, stage, rest, token, opened, left, stages, present, string, lexeme, noFront,
    noBack, text⟩
  obtain ⟨middle, cut, _, _, rfl, _⟩ := session.exists_cut_of_split start rest stage stages
  have pieceText : cut.piece.text = opened ++ left := by
    rw [← lexeme, lexeme_of_stageOf present (by rw [string]; exact nofun)]
  rw [split] at stages
  rcases List.append_eq_append_iff.1 stages with ⟨more, rfl, tail⟩ | ⟨more, rfl, tail⟩
  · rw [textOf_append, List.append_assoc, List.self_eq_append_right] at text
    exact noFront (List.append_eq_nil_iff.1 text).2
  · rw [textOf_append, List.append_cancel_left_eq] at text
    match more with
    | [] => exact noFront text.symm
    | first :: others =>
        obtain ⟨rfl, _⟩ := List.cons.inj tail
        have lengths := congrArg List.length text
        have positive := List.length_pos_iff.2 noBack
        rw [textOf_cons] at lengths
        change (cut.piece.text ++ textOf others).length = opened.length at lengths
        rw [pieceText, List.length_append, List.length_append] at lengths
        omega

private theorem exists_beginsContent_of_indent {front behind : List Stage} {stage : Stage}
    {token : Token} (split : session.trail.stages = front ++ stage :: behind)
    (present : stage.token = some token) (isIndent : token.kind = .indent) :
    ∃ middle cut, Reaches session front middle ∧ middle.nextCut? = some cut ∧
      middle.BeginsContent cut ∧ middle.seenContent = true ∧
      token = ⟨.indent, middle.line, cut.piece.text, none⟩ ∧
      middle.trail.stages = stage :: behind ∧ (middle.take cut).session.trail.stages = behind := by
  obtain ⟨middle, run, ahead⟩ := session.reaches_of_trail front (stage :: behind) split
  obtain ⟨cut, here, rfl, _, later⟩ := middle.cut_of_trail stage behind ahead
  obtain ⟨begins, seen, form⟩ := indent_of_stageOf here present isIndent
  exact ⟨middle, cut, run, here, begins, seen, form, ahead, later⟩

private theorem lineBegins_of_indent {front behind : List Stage} {stage : Stage} {token : Token}
    (split : session.trail.stages = front ++ stage :: behind)
    (present : stage.token = some token) (isIndent : token.kind = .indent) :
    LineBegins session.trail.stages (textOf front) (textOf (stage :: behind)) := by
  obtain ⟨middle, cut, run, _, begins, _⟩ := exists_beginsContent_of_indent split present isIndent
  refine ⟨?_, run.lineStart_of_atLineStart begins.lineStart, not_endsInString_of_split split⟩
  rw [split, textOf_append]

private theorem exists_split_of_indent {token : Token}
    (line : LineBegins session.trail.stages before ahead)
    (member : token ∈ tokensOf session.trail.stages) (isIndent : token.kind = .indent)
    (sameLine : token.line = session.line + lineFeeds before) :
    ∃ front stage behind, session.trail.stages = front ++ stage :: behind ∧
      stage.token = some token ∧ textOf front = before ∧ textOf (stage :: behind) = ahead := by
  obtain ⟨front, stage, behind, split, present⟩ := exists_stage_of_token member
  have opens := lineBegins_of_indent split present isIndent
  have run := session.reaches_trail.1
  rw [split] at run
  have feeds : lineFeeds (textOf front) = lineFeeds before := by
    have number := run.token_line present
    omega
  have same := line_unique (opens.whole.trans line.whole.symm) opens.start line.start feeds
  refine ⟨front, stage, behind, split, present, same, ?_⟩
  have whole := opens.whole.trans line.whole.symm
  rw [same] at whole
  exact List.append_cancel_left whole

private theorem line_of_indent (fresh : session.seenContent = false) {token : Token}
    (line : LineBegins session.trail.stages before ahead)
    (member : token ∈ tokensOf session.trail.stages) (isIndent : token.kind = .indent)
    (sameLine : token.line = session.line + lineFeeds before) :
    ahead.head?.any isBlank = true ∧ token.lexeme = ahead.takeWhile isBlank ∧
      (∃ content ∈ tokensOf session.trail.stages, ¬ content.kind.IsLayout ∧
        content.line = session.line + lineFeeds before) ∧
      ∃ earlier ∈ tokensOf session.trail.stages, earlier.kind ≠ .lineBreak ∧
        earlier.line < session.line + lineFeeds before := by
  obtain ⟨front, stage, behind, split, present, rfl, rfl⟩ :=
    exists_split_of_indent line member isIndent sameLine
  obtain ⟨middle, cut, run, here, begins, seen, rfl, stages, later⟩ :=
    exists_beginsContent_of_indent split present isIndent
  have rest : middle.rest = textOf (stage :: behind) := by
    rw [← stages, middle.textOf_trail]
  obtain ⟨blank, blanks⟩ := blanks_of_finding here begins.isBlank
  obtain ⟨next, others, following, content, nextLine⟩ := begins.next_token here
  rw [rest] at blank blanks
  rw [← run.line_eq]
  refine ⟨blank, blanks, ⟨next, ?_, content, nextLine⟩, ?_⟩
  · rw [split, tokensOf_append, tokensOf_cons, ← later, following]
    simp
  · have contentBefore := (run.seenContent_iff fresh line.start).1 seen
    rw [stages, ← split] at contentBefore
    exact contentBefore

/-- A line that begins with blanks, holds content and has content before it gets an indent. -/
theorem exists_indent_of_line (paired : ReturnsPaired session.rest)
    (begins : session.atLineStart = true) (fresh : session.seenContent = false)
    (line : LineBegins session.trail.stages before ahead)
    (blank : ahead.head?.any isBlank = true) {content : Token}
    (member : content ∈ tokensOf session.trail.stages) (isContent : ¬ content.kind.IsLayout)
    (contentLine : content.line = session.line + lineFeeds before)
    (contentBefore : ∃ earlier ∈ tokensOf session.trail.stages, earlier.kind ≠ .lineBreak ∧
      earlier.line < session.line + lineFeeds before) :
    ∃ token ∈ tokensOf session.trail.stages, token.kind = .indent ∧
      token.line = session.line + lineFeeds before := by
  obtain ⟨front, middle, run, rfl, rfl, split⟩ := boundary_of_lineBegins line
  obtain ⟨cut, here, found⟩ : ∃ cut, middle.nextCut? = some cut ∧ cut.piece.finding = .blank :=
    ⟨_, nextCut?_of_blank blank, rfl⟩
  have seen : middle.seenContent = true := by
    rw [run.seenContent_iff fresh line.start, run.line_eq, ← split]
    exact contentBefore
  rw [← run.line_eq] at contentLine ⊢
  rw [split, tokensOf_append, middle.trail_of_cut cut here, tokensOf_cons, List.mem_append,
    List.mem_append] at member
  have laterMember : content ∈ tokensOf (middle.take cut).session.trail.stages := by
    rcases member with earlier | first | later
    · have below := run.line_lt_of_token line.start earlier
      omega
    · exact absurd (Or.inr (token_of_blank found (Option.mem_toList.1 first))) isContent
    · exact later
  have contentAhead : startsContent cut.rest = true := by
    apply Classical.byContradiction
    intro noContent
    have sameLine := line_of_layout here (Or.inl found)
    refine isContent (layout_of_no_content ?_ ?_ laterMember (contentLine.trans sameLine.symm))
    · rw [← run.text_append, ← (Cut.next?_splits _ _ _ here).2] at paired
      rw [take_rest]
      exact paired.of_append.of_append
    · rw [take_rest]
      exact Bool.eq_false_iff.2 noContent
  have opens : middle.BeginsContent cut :=
    ⟨found, run.atLineStart_of_lineStart begins line.start, contentAhead⟩
  refine ⟨⟨.indent, middle.line, cut.piece.text, none⟩, ?_, rfl, rfl⟩
  rw [split, tokensOf_append, middle.trail_of_cut cut here, tokensOf_cons,
    take_of_beginsContent opens seen]
  simp

private theorem Reaches.line_lt_of_indent {taken : List Stage} (run : Reaches session taken last)
    (within : session.atLineStart = false) {token : Token} (member : token ∈ tokensOf taken)
    (isIndent : token.kind = .indent) : session.line < token.line := by
  obtain ⟨front, stage, behind, rfl, present⟩ := exists_stage_of_token member
  obtain ⟨middle, first, second⟩ := run.split
  cases second with
  | @step _ _ cut _ here _ =>
      have start := (indent_of_stageOf here present isIndent).1.lineStart
      rw [run.token_line present]
      rcases first.lineStart_of_atLineStart start with empty | ends
      · obtain rfl := first.eq_nil_of_textOf empty
        cases first
        rw [start] at within
        cases within
      · have positive := ends.lineFeeds_pos
        omega

/-- Each indent is on a later line than the one before it. -/
theorem Reaches.indents_ascend {taken : List Stage} (run : Reaches session taken last) :
    (tokensOf taken).Pairwise (fun earlier later =>
      earlier.kind = .indent → later.kind = .indent → earlier.line < later.line) := by
  induction run with
  | here session => exact .nil
  | @step session last cut later here goesOn ih =>
      rw [tokensOf_cons]
      cases present : (session.stageOf cut).token with
      | none => exact ih
      | some token =>
          refine .cons ?_ ih
          intro other member isIndent otherIndent
          have opens := (indent_of_stageOf here present isIndent).1
          have within : (session.take cut).session.atLineStart = false := by
            rw [take_atLineStart, opens.isBlank]
            rfl
          have below := goesOn.line_lt_of_indent within member otherIndent
          rw [line_of_layout here (Or.inl opens.isBlank)] at below
          rw [session.take_token_line cut token present]
          exact below

private theorem break_of_atLineStart (starts : (session.take cut).session.atLineStart = true) :
    ∃ eol, (session.stageOf cut).token = some eol ∧ eol.kind = .lineBreak := by
  unfold stageOf
  have taking := session.take_taking cut
  generalize session.take cut = pulled at taking starts
  cases taking with
  | token found => exact ⟨_, rfl, of_decide_eq_true starts⟩
  | _ => cases starts

private theorem Reaches.ends_with_break {taken : List Stage} (run : Reaches session taken last)
    (starts : last.atLineStart = true) (moved : taken ≠ []) :
    ∃ earlier eol, tokensOf taken = earlier ++ [eol] ∧ eol.kind = .lineBreak := by
  induction run with
  | here session => exact absurd rfl moved
  | @step session last cut later here goesOn ih =>
      cases goesOn with
      | here _ =>
          obtain ⟨eol, present, breaks⟩ := break_of_atLineStart starts
          exact ⟨[], eol, by rw [tokensOf_cons, present]; rfl, breaks⟩
      | step following onward =>
          obtain ⟨earlier, eol, tokens, breaks⟩ := ih starts (List.cons_ne_nil _ _)
          refine ⟨(session.stageOf cut).token.toList ++ earlier, eol, ?_, breaks⟩
          rw [tokensOf_cons, tokens, List.append_assoc]

private theorem exists_split_of_tokens {stages : List Stage} {left right : List Token}
    {token : Token} (split : tokensOf stages = left ++ token :: right) :
    ∃ front stage behind, stages = front ++ stage :: behind ∧ stage.token = some token ∧
      tokensOf front = left ∧ tokensOf behind = right := by
  obtain ⟨front, tail, rfl, frontTokens, tailTokens⟩ := List.filterMap_eq_append_iff.1 split
  obtain ⟨silent, stage, behind, rfl, noTokens, present, behindTokens⟩ :=
    List.filterMap_eq_cons_iff.1 tailTokens
  refine ⟨front ++ silent, stage, behind, by rw [List.append_assoc], present, ?_, behindTokens⟩
  rw [tokensOf_append, tokensOf, frontTokens, tokensOf, List.filterMap_eq_nil_iff.2 noTokens,
    List.append_nil]

private theorem around_indent (fresh : session.seenContent = false) {left right : List Token}
    {indent : Token} (split : tokensOf session.trail.stages = left ++ indent :: right)
    (isIndent : indent.kind = .indent) :
    (∃ earlier eol, left = earlier ++ [eol] ∧ eol.kind = .lineBreak) ∧
      ∃ next later, right = next :: later ∧ ¬ next.kind.IsLayout ∧ next.line = indent.line := by
  obtain ⟨front, stage, behind, stages, present, rfl, rfl⟩ := exists_split_of_tokens split
  obtain ⟨middle, cut, run, here, begins, seen, rfl, _, later⟩ :=
    exists_beginsContent_of_indent stages present isIndent
  constructor
  · refine run.ends_with_break begins.lineStart ?_
    -- At the start of the source nothing has been seen.
    rintro rfl
    cases run
    rw [fresh] at seen
    cases seen
  · rw [← later]
    exact begins.next_token here

/-- Indents mark lines that hold content behind blanks. On a line that begins outside string
literals an indent stands exactly when the line begins with a blank, a token that is no
layout begins on it, and a token other than a line break stands on an earlier line; the
indent is all the blanks at the front of the line. Every indent stands at the front of such
a line, no line has two of them, and an indent has a line break before it and content of its
own line behind it. -/
theorem indents_mark_content (source : Text) (options : Options) (firstLine : Nat)
    (paired : ReturnsPaired source) :
    let session := Session.start source options firstLine
    let stages := session.trail.stages
    let tokens := session.finish.tokens
    textOf stages = source ∧
    tokensOf stages = tokens ∧
    (∀ front stage behind token, stages = front ++ stage :: behind → stage.token = some token →
      token.line = firstLine + lineFeeds (textOf front)) ∧
    (∀ before ahead, LineBegins stages before ahead →
      let line := firstLine + lineFeeds before
      ((∃ token ∈ tokens, token.kind = .indent ∧ token.line = line) ↔
        ahead.head?.any isBlank = true ∧
          (∃ token ∈ tokens, ¬ token.kind.IsLayout ∧ token.line = line) ∧
          ∃ token ∈ tokens, token.kind ≠ .lineBreak ∧ token.line < line) ∧
      ∀ token ∈ tokens, token.kind = .indent → token.line = line →
        token.lexeme = ahead.takeWhile isBlank) ∧
    (∀ front stage behind token, stages = front ++ stage :: behind → stage.token = some token →
      token.kind = .indent → LineBegins stages (textOf front) (textOf (stage :: behind))) ∧
    tokens.Pairwise (fun earlier later =>
      earlier.kind = .indent → later.kind = .indent → earlier.line < later.line) ∧
    ∀ left indent right, tokens = left ++ indent :: right → indent.kind = .indent →
      (∃ earlier eol, left = earlier ++ [eol] ∧ eol.kind = .lineBreak) ∧
      ∃ next later, right = next :: later ∧ ¬ next.kind.IsLayout ∧ next.line = indent.line := by
  intro session stages tokens
  have sameTokens : tokensOf stages = tokens := session.tokensOf_trail
  rw [← sameTokens]
  refine ⟨session.textOf_trail, rfl, ?_, ?_, ?_, session.reaches_trail.1.indents_ascend, ?_⟩
  · intro front stage behind token split present
    have run := session.reaches_trail.1
    change Reaches session stages _ at run
    rw [split] at run
    exact run.token_line present
  · intro before ahead line number
    refine ⟨⟨?_, ?_⟩, ?_⟩
    · rintro ⟨token, member, isIndent, sameLine⟩
      obtain ⟨blank, _, content, earlier⟩ := line_of_indent rfl line member isIndent sameLine
      exact ⟨blank, content, earlier⟩
    · rintro ⟨blank, ⟨content, member, isContent, contentLine⟩, earlier⟩
      exact exists_indent_of_line paired rfl rfl line blank member isContent contentLine earlier
    · intro token member isIndent sameLine
      exact (line_of_indent rfl line member isIndent sameLine).2.1
  · intro front stage behind token split present isIndent
    exact lineBegins_of_indent split present isIndent
  · intro left indent right split isIndent
    exact around_indent rfl split isIndent

/-- The second line begins with a space and a tab, and both are its indent. -/
theorem indents_mark_content_behind_return :
    let source : Text := ['!', '\r', '\n', ' ', '\t', '!']
    ReturnsPaired source ∧
      ∃ token ∈ (start source Options.standard 1).finish.tokens,
        token.kind = .indent ∧ token.line = 2 ∧ token.lexeme = [' ', '\t'] := by
  intro source
  have paired : ReturnsPaired source := by
    simp only [source, returnsPaired_cons_iff]
    exact ⟨nofun, fun _ => rfl, nofun, nofun, nofun, nofun, returnsPaired_nil⟩
  have run : Reaches (start source Options.standard 1) _ _ :=
    .step rfl (.step rfl (.step rfl (.step rfl (.here _))))
  have stages := congrArg Trail.stages (run.trail_of_end rfl)
  have tokens := congrArg Finished.tokens (run.finish_of_end rfl)
  obtain ⟨_, _, _, lines, opens, _⟩ :=
    indents_mark_content source Options.standard 1 paired
  have line := opens [_, _] _ [_] _ stages rfl rfl
  obtain ⟨indented, blanks⟩ := lines _ _ line
  have content : ∃ token ∈ (start source Options.standard 1).finish.tokens,
      ¬ token.kind.IsLayout ∧ token.line = 2 :=
    ⟨⟨.flag, 2, ['!'], none⟩, by rw [tokens]; decide, by decide, rfl⟩
  have earlier : ∃ token ∈ (start source Options.standard 1).finish.tokens,
      token.kind ≠ .lineBreak ∧ token.line < 2 :=
    ⟨⟨.flag, 1, ['!'], none⟩, by rw [tokens]; decide, by decide, by decide⟩
  obtain ⟨token, member, isIndent, number⟩ := indented.2 ⟨rfl, content, earlier⟩
  exact ⟨paired, token, member, isIndent, number, blanks token member isIndent number⟩

end Session

end LedgerLexer
