/-
What the finding of a piece carries. The kind of a token settles of which sort its value is,
or that it has none. A value that is plain text is a part of the lexeme, and whatever text a
fault names is a part of its piece.
-/

import LedgerLexer.Proofs.PieceExtent
import LedgerLexer.Proofs.Runs

namespace LedgerLexer

inductive ValueSort where
  | date
  | number
  | content
  | text
  | truth
  deriving DecidableEq

def Value.sort : Value → ValueSort
  | date _ => .date
  | number _ => .number
  | content _ => .content
  | text _ => .text
  | truth _ => .truth

def Kind.valueSort : Kind → Option ValueSort
  | date => some .date
  | number => some .number
  | string => some .content
  | account | currency | tag | link | key => some .text
  | bool => some .truth
  | lineBreak | indent | flag | error | null | punctuation _ | keyword _ => none

/-- The texts that the message of a fault names. -/
def Fault.named : Fault → List Text
  | unknownRun run => [run]
  | malformedAccount account component => [account, component]
  | badDate text _ => [text]
  | badNumber text _ => [text]
  | overlongString _ => []
  | unterminatedString => []

/-- The finding carries what belongs to it, and takes its texts from the piece. -/
def Piece.CarriesDuly (piece : Piece) : Prop :=
  match piece.finding with
  | .token kind value =>
      value.map Value.sort = kind.valueSort ∧
        ∀ plain, value = some (.text plain) → plain <:+: piece.text
  | .fault _ reason => ∀ part ∈ reason.named, part <:+: piece.text
  | .blank => True
  | .comment => True

namespace Cut

private theorem carriesDuly_of_token {kind : Kind} {value : Option Value} (text rest : Text)
    (sorted : value.map Value.sort = kind.valueSort) (noText : kind.valueSort ≠ some .text) :
    (token kind value text rest).piece.CarriesDuly := by
  refine ⟨sorted, ?_⟩
  rintro plain rfl
  exact absurd sorted.symm noText

private theorem carriesDuly_of_text {kind : Kind} (text rest plain : Text)
    (sorted : kind.valueSort = some .text) (part : plain <:+: text) :
    (token kind (some (.text plain)) text rest).piece.CarriesDuly := by
  refine ⟨sorted.symm, ?_⟩
  intro other same
  cases same
  exact part

private theorem unknownRun_carriesDuly (first : Char) (others : Text) :
    (unknownRun first others).piece.CarriesDuly := by
  intro part member
  rw [List.mem_singleton.1 member]
  exact List.infix_refl _

private theorem ofDate_carriesDuly (text rest : Text) : (ofDate text rest).piece.CarriesDuly := by
  unfold ofDate
  split
  · exact carriesDuly_of_token text rest rfl (by decide)
  · intro part member
    rw [List.mem_singleton.1 member]
    exact List.infix_refl _

private theorem ofNumber_carriesDuly (text rest : Text) :
    (ofNumber text rest).piece.CarriesDuly := by
  unfold ofNumber
  split
  · exact carriesDuly_of_token text rest rfl (by decide)
  · intro part member
    rw [List.mem_singleton.1 member]
    exact List.infix_refl _

private theorem ofLiteral_carriesDuly (lines : Nat) (opening rest : Text) :
    (ofLiteral lines opening rest).piece.CarriesDuly := by
  unfold ofLiteral
  split
  · exact carriesDuly_of_token _ _ rfl (by decide)
  · exact nofun
  · exact nofun

private theorem ofWord_carriesDuly (first : Char) (others word rest : Text)
    (longest : Shape.longest? (first :: others) = some ⟨.word, word, rest⟩) :
    (ofWord first others word rest).piece.CarriesDuly := by
  unfold ofWord
  split
  · exact carriesDuly_of_text word rest word rfl (List.infix_refl _)
  · rename_i component read
    obtain ⟨colon, bad, found, rfl⟩ := readWord_malformed word component read
    have wordInside := (word_prefix_runFrom first others word rest longest).isInfix
    obtain ⟨_, componentInside⟩ := shownComponent_infix word bad colon found
    intro part member
    rcases List.mem_cons.1 member with rfl | later
    · exact wordInside
    · rw [List.mem_singleton.1 later]
      exact componentInside.trans wordInside
  · exact carriesDuly_of_token word rest rfl (by decide)
  · exact carriesDuly_of_token word rest rfl (by decide)
  · exact carriesDuly_of_token word rest rfl (by decide)
  · exact carriesDuly_of_text word rest word rfl (List.infix_refl _)
  · exact unknownRun_carriesDuly first others

private theorem readName_key (name identifier : Text) (read : readName name = .key identifier) :
    identifier = name.dropLast := by
  unfold readName at read
  split at read
  · cases read
    rfl
  · split at read
    · cases read
    · cases read

private theorem ofName_carriesDuly (first : Char) (others name rest : Text) :
    (ofName first others name rest).piece.CarriesDuly := by
  unfold ofName
  split
  · rename_i identifier read
    rw [readName_key name identifier read]
    exact carriesDuly_of_text name rest _ rfl (List.dropLast_prefix name).isInfix
  · exact carriesDuly_of_token name rest rfl nofun
  · exact unknownRun_carriesDuly first others

private theorem ofMatch_carriesDuly (lines : Nat) (first : Char) (others : Text) (found : Match)
    (longest : Shape.longest? (first :: others) = some found) :
    (ofMatch lines first others found).piece.CarriesDuly := by
  obtain ⟨shape, run, rest⟩ := found
  cases shape with
  | blank => trivial
  | comment => trivial
  | lineBreak => exact carriesDuly_of_token run rest rfl (by decide)
  | date => exact ofDate_carriesDuly run rest
  | number => exact ofNumber_carriesDuly run rest
  | fraction => exact ofNumber_carriesDuly run rest
  | quote => exact ofLiteral_carriesDuly lines run rest
  | tag => exact carriesDuly_of_text run rest _ rfl (List.drop_suffix 1 run).isInfix
  | link => exact carriesDuly_of_text run rest _ rfl (List.drop_suffix 1 run).isInfix
  | flag => exact carriesDuly_of_token run rest rfl (by decide)
  | word => exact ofWord_carriesDuly first others run rest longest
  | name => exact ofName_carriesDuly first others run rest
  | punctuation mark => exact carriesDuly_of_token run rest rfl nofun

private theorem next?_carriesDuly (lines : Nat) (text : Text) (cut : Cut)
    (here : next? lines text = some cut) : cut.piece.CarriesDuly := by
  cases text with
  | nil => cases here
  | cons first others =>
      rw [next?] at here
      cases here
      split
      · rename_i found longest
        exact ofMatch_carriesDuly lines first others found longest
      · exact unknownRun_carriesDuly first others

end Cut

/-- Of a token: its value is of the sort of its kind, and plain text in one line. -/
structure Token.IsPlain (token : Token) : Prop where
  sorted : token.value.map Value.sort = token.kind.valueSort
  oneLine : ∀ plain, token.value = some (.text plain) → '\n' ∉ plain

/-- Of a fault: the texts that it names are in one line. -/
def Fault.IsPlain (reason : Fault) : Prop :=
  ∀ part ∈ reason.named, '\n' ∉ part

private theorem no_feed_of_infix (part text : Text) (inside : part <:+: text)
    (absent : lineFeeds text = 0) : '\n' ∉ part :=
  fun feed => List.count_eq_zero.1 absent (inside.subset feed)

namespace Session

variable {session : Session} {cut : Cut}

theorem take_isPlain (here : session.nextCut? = some cut) (token : Token)
    (taken : (session.take cut).token = some token) : token.IsPlain := by
  have duly := Cut.next?_carriesDuly _ _ cut here
  have feeds := (session.nextCut?_form cut here).lineFeeds_piece
  cases handsOut_of_take taken with
  | @token kind value found =>
      unfold Piece.CarriesDuly at duly
      rw [found] at duly feeds
      refine ⟨duly.1, ?_⟩
      rintro plain rfl
      -- Plain text is the value of no line break and of no literal.
      have noBreak : kind ≠ .lineBreak := by
        rintro rfl
        cases duly.1
      have noString : kind ≠ .string := by
        rintro rfl
        cases duly.1
      exact no_feed_of_infix plain _ (duly.2 plain rfl)
        (feeds.trans (Cut.linesEnded_eq_zero kind _ noBreak noString))
  | _ => exact ⟨rfl, nofun⟩

private theorem fault_isPlain (here : session.nextCut? = some cut) {lexeme : Text} {reason : Fault}
    (found : cut.piece.finding = .fault lexeme reason) : reason.IsPlain := by
  have duly := Cut.next?_carriesDuly _ _ cut here
  have feeds := (session.nextCut?_form cut here).lineFeeds_piece
  unfold Piece.CarriesDuly at duly
  rw [found] at duly feeds
  intro part member
  exact no_feed_of_infix part _ (duly part member) feeds

theorem isPlain_of_finish (session : Session) (token : Token)
    (member : token ∈ session.finish.tokens) : token.IsPlain := by
  rw [← session.tokensOf_trail] at member
  obtain ⟨stage, inTrail, present⟩ := List.mem_filterMap.1 member
  obtain ⟨_, middle, cut, _, here, rfl⟩ := session.exists_cut_of_mem stage inTrail
  exact take_isPlain here token present

theorem exists_fault_of_errorsOf (session : Session) (error : LexError)
    (member : error ∈ errorsOf session.trail.stages) :
    ∃ reason line, error = Fault.toError reason line ∧ reason.IsPlain := by
  obtain ⟨stage, inTrail, present⟩ := List.mem_filterMap.1 member
  obtain ⟨_, middle, cut, _, here, rfl⟩ := session.exists_cut_of_mem stage inTrail
  unfold Stage.error? at present
  split at present
  · rename_i lexeme reason found
    obtain ⟨token, _, rfl⟩ := Option.map_eq_some_iff.1 present
    exact ⟨reason, token.line, rfl, fault_isPlain here found⟩
  · cases present

end Session

end LedgerLexer
