/-
How the tokens of a session cover its source. Every match takes up a piece of text that
is a whole token, blank text or a comment without a token, or a fault that shows a part
of it; the pieces make up the source, so the lexemes lie in it in order and apart.
-/

import Mathlib.Logic.ExistsUnique
import LedgerLexer.Proofs.Runs

namespace LedgerLexer

inductive PieceSort where
  | whole
  | silent
  | faulty
  deriving DecidableEq

/-- No blank stands at the end of the text before a run of blanks, and none behind it. -/
def BlankRun (before run behind : Text) : Prop :=
  run.all isBlank = true ∧ (∀ char, before.getLast? = some char → isBlank char = false) ∧
    ∀ char, behind.head? = some char → isBlank char = false

def CommentRun (run behind : Text) : Prop :=
  ∃ body, run = ';' :: body ∧ body.all isCommentPart = true ∧ behind.head?.all isLineEnd = true

/-- What a stage between these texts makes of its piece. -/
def Stage.HasSort (before : Text) (stage : Stage) (behind : Text) : PieceSort → Prop
  | .whole => ∃ token, stage.token = some token ∧ token.kind ≠ .error ∧
      token.lexeme = stage.piece.text
  | .silent => stage.token = none ∧
      (BlankRun before stage.piece.text behind ∨ CommentRun stage.piece.text behind)
  | .faulty => ∃ token, stage.token = some token ∧ token.kind = .error ∧ token.lexeme ≠ [] ∧
      token.lexeme <:+: stage.piece.text

private theorem Stage.sort_unique (before : Text) (stage : Stage) (behind : Text)
    (first second : PieceSort)
    (isFirst : stage.HasSort before behind first) (isSecond : stage.HasSort before behind second) :
    first = second := by
  have token_or_none (token : Token) (present : stage.token = some token)
      (missing : stage.token = none) : False := by
    rw [present] at missing
    cases missing
  have one_kind (found other : Token) (foundHere : stage.token = some found)
      (otherHere : stage.token = some other) : found.kind = other.kind := by
    rw [foundHere] at otherHere
    cases otherHere
    rfl
  cases first with
  | whole =>
      obtain ⟨token, present, noError, _⟩ := isFirst
      cases second with
      | whole => rfl
      | silent => exact (token_or_none token present isSecond.1).elim
      | faulty =>
          obtain ⟨other, otherPresent, isError, _⟩ := isSecond
          exact absurd ((one_kind token other present otherPresent).trans isError) noError
  | silent =>
      cases second with
      | silent => rfl
      | whole =>
          obtain ⟨token, present, _⟩ := isSecond
          exact (token_or_none token present isFirst.1).elim
      | faulty =>
          obtain ⟨token, present, _⟩ := isSecond
          exact (token_or_none token present isFirst.1).elim
  | faulty =>
      obtain ⟨token, present, isError, _⟩ := isFirst
      cases second with
      | faulty => rfl
      | silent => exact (token_or_none token present isSecond.1).elim
      | whole =>
          obtain ⟨other, otherPresent, noError, _⟩ := isSecond
          exact absurd ((one_kind token other present otherPresent).symm.trans isError) noError

namespace Session

private theorem Reaches.no_blank_before {session middle : Session} {before : List Stage} {cut : Cut}
    (run : Reaches session before middle) (here : middle.nextCut? = some cut)
    (found : cut.piece.finding = .blank) (char : Char)
    (ends : (textOf before).getLast? = some char) : isBlank char = false := by
  cases shown : isBlank char with
  | false => rfl
  | true =>
      exfalso
      have form := middle.nextCut?_form cut here
      obtain ⟨nonempty, whole⟩ := Cut.next?_splits _ _ _ here
      rcases List.eq_nil_or_concat before with rfl | ⟨front, last, rfl⟩
      · cases ends
      · rw [List.concat_eq_append] at run ends
        obtain ⟨earlier, _, lastRun⟩ := run.split
        cases lastRun with
        | @step _ _ previous _ next goesOn =>
            cases goesOn
            have previousForm := earlier.nextCut?_form previous next
            have text : (textOf (front ++ [earlier.stageOf previous])).getLast? =
                previous.piece.text.getLast? := by
              have nonempty : previous.piece.text ≠ [] := (Cut.next?_splits _ _ _ next).1
              rw [textOf_append, textOf_cons, textOf_nil, List.append_nil, List.getLast?_append]
              change previous.piece.text.getLast?.or _ = _
              rw [List.getLast?_eq_some_getLast nonempty]
              rfl
            rw [text] at ends
            have layout := previousForm.layout_of_last_blank char ends shown
            rw [take_rest] at whole
            cases pieceText : cut.piece.text with
            | nil => exact nonempty pieceText
            | cons first others =>
                have notBlank := previousForm.no_blank_behind_layout layout first
                  (others ++ cut.rest) (by rw [← whole, pieceText]; rfl)
                have blank := List.all_eq_true.1 (form.all_blank found) first
                  (by rw [pieceText]; exact List.mem_cons_self ..)
                rw [notBlank] at blank
                cases blank

private theorem hasSort_of_next (session middle : Session) (before : List Stage) (cut : Cut)
    (run : Reaches session before middle) (here : middle.nextCut? = some cut) :
    ∃ sort, (middle.stageOf cut).HasSort (textOf before) cut.rest sort := by
  have form := middle.nextCut?_form cut here
  unfold stageOf Stage.HasSort
  have taking := middle.take_taking cut
  generalize middle.take cut = pulled at taking
  cases taking with
  | indent found _ =>
      refine ⟨.whole, ?_⟩
      exact ⟨_, rfl, nofun, rfl⟩
  | silent found =>
      refine ⟨.silent, rfl, ?_⟩
      rcases found with ⟨blank, _⟩ | comment
      · refine Or.inl ⟨form.all_blank blank, run.no_blank_before here blank, ?_⟩
        intro char ahead
        obtain ⟨later, restForm⟩ := List.head?_eq_some_iff.1 ahead
        exact form.no_blank_behind_layout (Or.inl blank) char later restForm
      · exact Or.inr (form.comment_text comment)
  | token found =>
      refine ⟨.whole, ?_⟩
      exact ⟨_, rfl, (form.token_kind found).1, rfl⟩
  | fault found =>
      refine ⟨.faulty, ?_⟩
      exact ⟨_, rfl, rfl, form.fault_infix found⟩

/-- Each stage of a trail takes up some text, in exactly one of the three ways. -/
theorem sort_of_stage (session : Session) (before behind : List Stage) (stage : Stage)
    (whole : session.trail.stages = before ++ stage :: behind) :
    stage.piece.text ≠ [] ∧ ∃! sort, stage.HasSort (textOf before) (textOf behind) sort := by
  obtain ⟨middle, cut, run, here, rfl, rest⟩ :=
    session.exists_cut_of_split before behind stage whole
  refine ⟨(Cut.next?_splits _ _ _ here).1, ?_⟩
  obtain ⟨sort, hasSort⟩ := session.hasSort_of_next middle before cut run here
  rw [rest] at hasSort
  exact ⟨sort, hasSort, fun other hasOther => Stage.sort_unique _ _ _ other sort hasOther hasSort⟩

end Session

/-! ### Where the lexemes lie -/

/-- A part of a text, from one place up to but not including another. -/
structure Span where
  start : Nat
  stop : Nat
  deriving DecidableEq

namespace Span

def Holds (span : Span) (place : Nat) : Prop :=
  span.start ≤ place ∧ place < span.stop

def textIn (span : Span) (source : Text) : Text :=
  (source.drop span.start).take (span.stop - span.start)

def ofStage (before : Text) (stage : Stage) : Span :=
  ⟨before.length, before.length + stage.piece.text.length⟩

private theorem textIn_between (before middle behind : Text) :
    (⟨before.length, before.length + middle.length⟩ : Span).textIn (before ++ middle ++ behind) =
      middle := by
  change ((before ++ middle ++ behind).drop before.length).take
    (before.length + middle.length - before.length) = middle
  rw [List.append_assoc, List.drop_left, Nat.add_sub_cancel_left, List.take_left]

private theorem holds_at_most_once (spans : List Span)
    (apart : spans.Pairwise (fun earlier later => earlier.stop ≤ later.start))
    (first second : Span) (firstIn : first ∈ spans) (secondIn : second ∈ spans) (place : Nat)
    (firstHolds : first.Holds place) (secondHolds : second.Holds place) : first = second := by
  induction spans with
  | nil => cases firstIn
  | cons span later ih =>
      obtain ⟨ahead, laterApart⟩ := List.pairwise_cons.1 apart
      obtain ⟨firstStart, firstStop⟩ := firstHolds
      obtain ⟨secondStart, secondStop⟩ := secondHolds
      rcases List.mem_cons.1 firstIn with rfl | firstLater
      · rcases List.mem_cons.1 secondIn with rfl | secondLater
        · rfl
        · have order := ahead second secondLater
          omega
      · rcases List.mem_cons.1 secondIn with rfl | secondLater
        · have order := ahead first firstLater
          omega
        · exact ih laterApart firstLater secondLater

end Span

/-- The spans of the lexemes of some stages, where the first stage begins at this place:
each lies in the piece that its token was read from. -/
inductive LaysOut : Nat → List Stage → List Span → Prop where
  | nil (place : Nat) : LaysOut place [] []
  | silent {place : Nat} {stage : Stage} {later : List Stage} {spans : List Span}
      (missing : stage.token = none)
      (laterOut : LaysOut (place + stage.piece.text.length) later spans) :
      LaysOut place (stage :: later) spans
  | token {place : Nat} {stage : Stage} {later : List Stage} {spans : List Span} {token : Token}
      {left right : Text} (present : stage.token = some token) (nonempty : token.lexeme ≠ [])
      (inside : left ++ token.lexeme ++ right = stage.piece.text)
      (laterOut : LaysOut (place + stage.piece.text.length) later spans) :
      LaysOut place (stage :: later)
        (⟨place + left.length, place + left.length + token.lexeme.length⟩ :: spans)

namespace LaysOut

variable {place : Nat} {stages : List Stage} {spans : List Span}

private theorem exists_spans (place : Nat) (stages : List Stage)
    (inPieces : ∀ stage ∈ stages, ∀ token, stage.token = some token →
      token.lexeme ≠ [] ∧ token.lexeme <:+: stage.piece.text) :
    ∃ spans, LaysOut place stages spans := by
  induction stages generalizing place with
  | nil => exact ⟨[], .nil place⟩
  | cons stage later ih =>
      obtain ⟨spans, laterOut⟩ := ih (place + stage.piece.text.length)
        (fun other member => inPieces other (List.mem_cons_of_mem _ member))
      cases present : stage.token with
      | none => exact ⟨spans, .silent present laterOut⟩
      | some token =>
          obtain ⟨nonempty, left, right, inside⟩ :=
            inPieces stage (List.mem_cons_self ..) token present
          exact ⟨_, .token present nonempty inside laterOut⟩

theorem bounds (out : LaysOut place stages spans) (span : Span) (member : span ∈ spans) :
    place ≤ span.start ∧ span.start < span.stop ∧ span.stop ≤ place + (textOf stages).length := by
  induction out with
  | nil place => cases member
  | @silent place stage later spans _ _ ih =>
      obtain ⟨atLeast, proper, atMost⟩ := ih member
      rw [textOf_cons, List.length_append]
      omega
  | @token place stage later spans token left right _ nonempty inside _ ih =>
      have lengths := congrArg List.length inside
      simp only [List.length_append] at lengths
      rw [textOf_cons, List.length_append]
      rcases List.mem_cons.1 member with rfl | laterMember
      · have positive := List.length_pos_iff.2 nonempty
        refine ⟨?_, ?_, ?_⟩
        all_goals
          simp only
          omega
      · obtain ⟨atLeast, proper, atMost⟩ := ih laterMember
        omega

private theorem apart (out : LaysOut place stages spans) :
    spans.Pairwise (fun earlier later => earlier.stop ≤ later.start) := by
  induction out with
  | nil place => exact List.Pairwise.nil
  | silent _ _ ih => exact ih
  | @token place stage later spans token left right _ _ inside laterOut ih =>
      refine List.pairwise_cons.2 ⟨?_, ih⟩
      intro span member
      have beyond := (laterOut.bounds span member).1
      have lengths := congrArg List.length inside
      simp only [List.length_append] at lengths
      change place + left.length + token.lexeme.length ≤ span.start
      omega

private theorem texts (out : LaysOut place stages spans) (before : Text)
    (reached : before.length = place) :
    spans.map (Span.textIn · (before ++ textOf stages)) = (tokensOf stages).map Token.lexeme := by
  induction out generalizing before with
  | nil place => rfl
  | @silent place stage later spans missing _ ih =>
      have next := ih (before ++ stage.piece.text) (by rw [List.length_append, reached])
      rw [tokensOf_cons, missing, textOf_cons, ← List.append_assoc]
      exact next
  | @token place stage later spans token left right present _ inside _ ih =>
      have next := ih (before ++ stage.piece.text) (by rw [List.length_append, reached])
      rw [tokensOf_cons, present, textOf_cons, ← List.append_assoc, List.map_cons, next]
      have here := Span.textIn_between (before ++ left) token.lexeme (right ++ textOf later)
      have source : before ++ left ++ token.lexeme ++ (right ++ textOf later) =
          before ++ stage.piece.text ++ textOf later := by
        rw [← inside]
        simp only [List.append_assoc]
      rw [List.length_append, reached, source] at here
      rw [here]
      rfl

private theorem whole_mem (out : LaysOut place stages spans) (lead : Text)
    (reached : lead.length = place)
    (before behind : List Stage) (stage : Stage) (split : stages = before ++ stage :: behind)
    (token : Token) (present : stage.token = some token)
    (covers : token.lexeme = stage.piece.text) :
    Span.ofStage (lead ++ textOf before) stage ∈ spans := by
  induction out generalizing lead before with
  | nil place => cases before <;> cases split
  | @silent place other later spans missing _ ih =>
      cases before with
      | nil =>
          cases split
          rw [missing] at present
          cases present
      | cons first front =>
          obtain ⟨rfl, rfl⟩ := List.cons.inj split
          have next := ih (lead ++ other.piece.text) (by rw [List.length_append, reached]) front rfl
          rw [List.append_assoc] at next
          exact next
  | @token place other later spans found left right foundHere _ inside _ ih =>
      cases before with
      | nil =>
          obtain ⟨rfl, _⟩ := List.cons.inj split
          rw [foundHere] at present
          obtain rfl := Option.some.inj present
          have lengths := congrArg List.length inside
          rw [List.length_append, List.length_append, covers] at lengths
          have noLeft : left.length = 0 := by omega
          have here : Span.ofStage (lead ++ textOf []) other =
              ⟨place + left.length, place + left.length + found.lexeme.length⟩ := by
            rw [textOf_nil, List.append_nil, Span.ofStage, reached, noLeft, covers]
            rfl
          rw [here]
          exact List.mem_cons_self ..
      | cons first front =>
          obtain ⟨rfl, rfl⟩ := List.cons.inj split
          have next := ih (lead ++ other.piece.text) (by rw [List.length_append, reached]) front rfl
          rw [List.append_assoc] at next
          exact List.mem_cons_of_mem _ next

end LaysOut

private theorem exists_stage_holding (stages : List Stage) (place : Nat)
    (within : place < (textOf stages).length) :
    ∃ before stage behind, stages = before ++ stage :: behind ∧
      (Span.ofStage (textOf before) stage).Holds place := by
  induction stages generalizing place with
  | nil => cases within
  | cons stage later ih =>
      rw [textOf_cons, List.length_append] at within
      by_cases inFirst : place < stage.piece.text.length
      · refine ⟨[], stage, later, rfl, Nat.zero_le _, ?_⟩
        simpa only [Span.ofStage, textOf_nil, List.length_nil, Nat.zero_add] using inFirst
      · have beyond : place - stage.piece.text.length < (textOf later).length := by omega
        obtain ⟨before, found, behind, split, atLeast, below⟩ := ih _ beyond
        refine ⟨stage :: before, found, behind, by rw [split]; rfl, ?_⟩
        change (textOf before).length ≤ _ at atLeast
        change _ < (textOf before).length + found.piece.text.length at below
        unfold Span.ofStage Span.Holds
        simp only [textOf_cons, List.length_append]
        omega

namespace Session

theorem exists_layout (session : Session) :
    ∃ spans, LaysOut 0 session.trail.stages spans ∧
      ∀ place, place < session.rest.length →
        (∃! span, span ∈ spans ∧ span.Holds place) ∨
          ∃ before stage behind, session.trail.stages = before ++ stage :: behind ∧
            (Span.ofStage (textOf before) stage).Holds place ∧
            (stage.HasSort (textOf before) (textOf behind) .silent ∨
              stage.HasSort (textOf before) (textOf behind) .faulty) := by
  have inPieces : ∀ stage ∈ session.trail.stages, ∀ token, stage.token = some token →
      token.lexeme ≠ [] ∧ token.lexeme <:+: stage.piece.text := by
    intro stage member token present
    obtain ⟨before, behind, split⟩ := List.append_of_mem member
    obtain ⟨nonempty, sort, hasSort, _⟩ := session.sort_of_stage before behind stage split
    cases sort with
    | whole =>
        obtain ⟨found, foundHere, _, covers⟩ := hasSort
        rw [foundHere] at present
        cases present
        rw [covers]
        exact ⟨nonempty, List.infix_refl _⟩
    | silent =>
        rw [hasSort.1] at present
        cases present
    | faulty =>
        obtain ⟨found, foundHere, _, inside⟩ := hasSort
        rw [foundHere] at present
        cases present
        exact inside
  obtain ⟨spans, out⟩ := LaysOut.exists_spans 0 session.trail.stages inPieces
  refine ⟨spans, out, ?_⟩
  intro place within
  rw [← session.textOf_trail] at within
  obtain ⟨before, stage, behind, split, holds⟩ := exists_stage_holding _ place within
  obtain ⟨_, sort, hasSort, _⟩ := session.sort_of_stage before behind stage split
  cases sort with
  | whole =>
      obtain ⟨token, present, _, covers⟩ := hasSort
      have member := out.whole_mem [] rfl before behind stage split token present covers
      refine Or.inl ⟨_, ⟨member, holds⟩, ?_⟩
      intro other otherHolds
      exact Span.holds_at_most_once spans out.apart other _ otherHolds.1 member place
        otherHolds.2 holds
  | silent => exact Or.inr ⟨before, stage, behind, split, holds, Or.inl hasSort⟩
  | faulty => exact Or.inr ⟨before, stage, behind, split, holds, Or.inr hasSort⟩

/-- Pulling a session over any source to its end takes up the whole source, match by
match: the pulls hand out the tokens in order and then nothing, each piece is of one
sort, and the lexemes lie in the source in order and apart. -/
theorem pulls_cover_source (source : Text) (options : Options) (firstLine : Nat) :
    let session := Session.start source options firstLine
    let stages := session.trail.stages
    let tokens := session.finish.tokens
    (∀ count, (session.after count).pull.token = tokens[count]?) ∧
    (∀ count, tokens.length < count → session.after count = session.finish.session) ∧
    (∀ count, ∃ taken, Reaches session taken (session.after count) ∧ taken <+: stages ∧
      tokensOf taken = tokens.take count) ∧
    Reaches session stages session.finish.session ∧
    tokensOf stages = tokens ∧
    textOf stages = source ∧
    (∀ before stage behind, stages = before ++ stage :: behind →
      stage.piece.text ≠ [] ∧ ∃! sort, stage.HasSort (textOf before) (textOf behind) sort) ∧
    ∃ spans, LaysOut 0 stages spans ∧
      spans.map (Span.textIn · source) = tokens.map Token.lexeme ∧
      (∀ span ∈ spans, span.start < span.stop ∧ span.stop ≤ source.length) ∧
      spans.Pairwise (fun earlier later => earlier.stop ≤ later.start) ∧
      ∀ place, place < source.length →
        (∃! span, span ∈ spans ∧ span.Holds place) ∨
          ∃ before stage behind, stages = before ++ stage :: behind ∧
            (Span.ofStage (textOf before) stage).Holds place ∧
            (stage.HasSort (textOf before) (textOf behind) .silent ∨
              stage.HasSort (textOf before) (textOf behind) .faulty) := by
  intro session stages tokens
  have sameTokens : tokensOf stages = tokens := session.tokensOf_trail
  have text : textOf stages = source := session.textOf_trail
  refine ⟨session.pull_after_token, session.after_of_finished, ?_, session.reaches_finish,
    sameTokens, text, fun before stage behind => session.sort_of_stage before behind stage, ?_⟩
  · intro count
    obtain ⟨taken, run, taking⟩ := session.reaches_after count
    refine ⟨taken, run, ⟨_, (congrArg Trail.stages run.trail_eq).symm⟩, ?_⟩
    rw [taking, session.handedOut_eq_take]
  · obtain ⟨spans, out, covered⟩ := session.exists_layout
    have texts := out.texts [] rfl
    rw [List.nil_append, text, sameTokens] at texts
    refine ⟨spans, out, texts, ?_, out.apart, covered⟩
    intro span member
    obtain ⟨_, proper, within⟩ := out.bounds span member
    rw [Nat.zero_add, text] at within
    exact ⟨proper, within⟩

end Session

end LedgerLexer
