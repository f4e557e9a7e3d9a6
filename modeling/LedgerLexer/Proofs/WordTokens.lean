/-
Words among the tokens. Every longest word is one token, and the grammars settle of which kind
it is; a word that none of them takes is an error at its first bad component or its first
character.
-/

import LedgerLexer.Proofs.Recovery
import LedgerLexer.Proofs.WordReading

namespace LedgerLexer

private theorem IsAccountPath.colon_mem {word : Text} (path : IsAccountPath word) : ':' ∈ word := by
  obtain ⟨parts, split, enough, _⟩ := path
  exact split.colon_mem_iff.2 enough

/-- The token says of the word what the grammars do. -/
structure Token.ReadsWord (token : Token) (word : Text) : Prop where
  account : token.kind = .account ↔ IsAccountPath word
  bool : token.kind = .bool ↔ ∃ value, word = truthWord value
  null : token.kind = .null ↔ word = "NULL".toList
  flag : token.kind = .flag ↔ IsFlagLetter word
  currency : token.kind = .currency ↔
    ¬ IsAccountPath word ∧ ¬ IsReservedWord word ∧ ':' ∉ word ∧ IsCurrencyCode word
  error : token.kind = .error ↔
    ¬ IsAccountPath word ∧ ¬ IsReservedWord word ∧ (':' ∈ word ∨ ¬ IsCurrencyCode word)
  whole : token.kind ≠ .error → token.lexeme = word
  /-- Accounts and currencies have the word as their value. -/
  text : token.kind = .account ∨ token.kind = .currency → token.value = some (.text word)
  truth : ∀ value, word = truthWord value → token.value = some (.truth value)
  /-- For an empty component the colon before it is shown. -/
  badPart : token.kind = .error → ':' ∈ word → ∃ part, IsFirstBadPart word part ∧
    token.lexeme = if part = [] then [':'] else part
  firstCharacter : token.kind = .error → ':' ∉ word → token.lexeme = word.take 1

namespace WordReading

def kind : WordReading → Kind
  | .account => .account
  | .truth _ => .bool
  | .null => .null
  | .flag => .flag
  | .currency => .currency
  | .malformedAccount _ | .unknown => .error

def lexeme (word : Text) : WordReading → Text
  | .malformedAccount component => component
  | .unknown => word.take 1
  | _ => word

def value? (word : Text) : WordReading → Option Value
  | .account | .currency => some (.text word)
  | .truth value => some (.truth value)
  | _ => none

def token (line : Nat) (word : Text) (reading : WordReading) : Token :=
  ⟨reading.kind, line, reading.lexeme word, reading.value? word⟩

variable {word : Text}

theorem kind_eq_account_iff : (readWord word).kind = .account ↔ IsAccountPath word :=
  Iff.trans (by cases readWord word <;> simp [kind]) (readWord_eq_iff word .account)

theorem kind_eq_bool_iff : (readWord word).kind = .bool ↔ ∃ value, word = truthWord value := by
  have truth : (readWord word).kind = .bool ↔ ∃ value, readWord word = .truth value := by
    cases readWord word <;> simp [kind]
  exact truth.trans (exists_congr fun value => readWord_eq_iff word (.truth value))

theorem kind_eq_null_iff : (readWord word).kind = .null ↔ word = "NULL".toList :=
  Iff.trans (by cases readWord word <;> simp [kind]) (readWord_eq_iff word .null)

theorem kind_eq_flag_iff : (readWord word).kind = .flag ↔ IsFlagLetter word :=
  Iff.trans (by cases readWord word <;> simp [kind]) (readWord_eq_iff word .flag)

theorem kind_eq_currency_iff : (readWord word).kind = .currency ↔
    ¬ IsAccountPath word ∧ ¬ IsReservedWord word ∧ ':' ∉ word ∧ IsCurrencyCode word := by
  have reads : (readWord word).kind = .currency ↔ readWord word = .currency := by
    cases readWord word <;> simp [kind]
  rw [reads, readWord_eq_iff]
  constructor
  · rintro ⟨noColon, free, code⟩
    exact ⟨fun path => noColon path.colon_mem, free, noColon, code⟩
  · rintro ⟨_, free, noColon, code⟩
    exact ⟨noColon, free, code⟩

theorem kind_eq_error_iff : (readWord word).kind = .error ↔
    ¬ IsAccountPath word ∧ ¬ IsReservedWord word ∧ (':' ∈ word ∨ ¬ IsCurrencyCode word) := by
  have others : (readWord word).kind = .error ↔ ¬ (readWord word).kind = .account ∧
      ¬ ((readWord word).kind = .bool ∨ (readWord word).kind = .null ∨
        (readWord word).kind = .flag) ∧ ¬ (readWord word).kind = .currency := by
    cases readWord word <;> simp [kind]
  rw [others, kind_eq_account_iff, kind_eq_bool_iff, kind_eq_null_iff, kind_eq_flag_iff,
    kind_eq_currency_iff]
  constructor
  · rintro ⟨noPath, free, noCurrency⟩
    refine ⟨noPath, free, ?_⟩
    by_cases colon : ':' ∈ word
    · exact Or.inl colon
    · exact Or.inr (fun code => noCurrency ⟨noPath, free, colon, code⟩)
  · rintro ⟨noPath, free, colon | noCode⟩
    · exact ⟨noPath, free, fun currency => currency.2.2.1 colon⟩
    · exact ⟨noPath, free, fun currency => noCode currency.2.2.2⟩

private theorem lexeme_of_kind_ne_error (reading : WordReading) (word : Text)
    (noError : reading.kind ≠ .error) : reading.lexeme word = word := by
  cases reading with
  | malformedAccount _ => exact absurd rfl noError
  | unknown => exact absurd rfl noError
  | _ => rfl

private theorem value?_of_text (reading : WordReading) (word : Text)
    (isText : reading.kind = .account ∨ reading.kind = .currency) :
    reading.value? word = some (.text word) := by
  cases reading with
  | account => rfl
  | currency => rfl
  | _ => rcases isText with isAccount | isCurrency <;> contradiction

private theorem value?_of_error (reading : WordReading) (word : Text)
    (isError : reading.kind = .error) : reading.value? word = none := by
  cases reading with
  | malformedAccount _ => rfl
  | unknown => rfl
  | _ => cases isError

private theorem lexeme_of_error (isError : (readWord word).kind = .error) :
    (':' ∈ word ∧ ∃ part, IsFirstBadPart word part ∧
        (readWord word).lexeme word = if part = [] then [':'] else part) ∨
      ':' ∉ word ∧ (readWord word).lexeme word = word.take 1 := by
  have has := hasReading_readWord word
  cases reads : readWord word with
  | malformedAccount shown =>
      rw [reads] at has
      obtain ⟨colon, part, bad, rfl⟩ := has
      refine Or.inl ⟨colon, part, bad, ?_⟩
      simp [lexeme, shownComponent]
  | unknown =>
      rw [reads] at has
      exact Or.inr ⟨has.1, rfl⟩
  | _ =>
      rw [reads] at isError
      cases isError

end WordReading

private theorem readsWord_token (line : Nat) (word : Text) :
    ((readWord word).token line word).ReadsWord word where
  account := WordReading.kind_eq_account_iff
  bool := WordReading.kind_eq_bool_iff
  null := WordReading.kind_eq_null_iff
  flag := WordReading.kind_eq_flag_iff
  currency := WordReading.kind_eq_currency_iff
  error := WordReading.kind_eq_error_iff
  whole := WordReading.lexeme_of_kind_ne_error (readWord word) word
  text := WordReading.value?_of_text (readWord word) word
  truth := by
    intro value spelled
    change (readWord word).value? word = some (.truth value)
    rw [(readWord_eq_iff word (.truth value)).2 spelled]
    rfl
  badPart := by
    intro isError colon
    rcases WordReading.lexeme_of_error isError with ⟨_, shown⟩ | ⟨noColon, _⟩
    · exact shown
    · exact absurd colon noColon
  firstCharacter := by
    intro isError noColon
    rcases WordReading.lexeme_of_error isError with ⟨colon, _⟩ | ⟨_, shown⟩
    · exact absurd colon noColon
    · exact shown

/-! ### One token for each word -/

def IsWordChar (char : Char) : Prop :=
  char.isAlphanum ∨ char ∈ ['\'', '.', '_', ':', '-'] ∨ 128 ≤ char.toNat

instance (char : Char) : Decidable (IsWordChar char) :=
  inferInstanceAs (Decidable (_ ∨ _ ∨ _))

/-- The word stands at the front of a text at its full length: none of its characters are
behind it. -/
structure IsWholeWord (word rest : Text) : Prop where
  starts : word.head?.any Char.isUpper = true
  goesOn : ∀ char ∈ word.drop 1, IsWordChar char
  ends : ∀ char ∈ rest.head?, ¬ IsWordChar char

theorem isWordPart_iff (char : Char) : isWordPart char = true ↔ IsWordChar char := by
  simp [isWordPart, IsWordChar, isBeyondAscii, or_assoc]

private theorem all_isWordPart_iff (text : Text) :
    text.all isWordPart = true ↔ ∀ char ∈ text, IsWordChar char := by
  simp only [List.all_eq_true, isWordPart_iff]

private theorem head_isWordPart_iff (rest : Text) :
    rest.head?.any isWordPart = false ↔ ∀ char ∈ rest.head?, ¬ IsWordChar char := by
  simp only [Option.any_eq_false, Bool.not_eq_true, ← isWordPart_iff, Option.mem_def]

theorem longest?_of_isWholeWord (word rest : Text) (isWord : IsWholeWord word rest) :
    Shape.longest? (word ++ rest) = some ⟨.word, word, rest⟩ := by
  have starts := isWord.starts
  have ends := (head_isWordPart_iff rest).2 isWord.ends
  match word with
  | first :: later =>
      have accepted : later.all isWordPart = true := (all_isWordPart_iff later).2 isWord.goesOn
      rw [List.cons_append, Shape.longest?_upper first _ starts, Shape.stretch,
        Shape.takeWhile_append_of_all _ _ _ accepted, Shape.takeWhile_of_stop _ _ ends,
        Shape.dropWhile_append_of_all _ _ _ accepted, Shape.dropWhile_of_stop _ _ ends,
        List.append_nil]

theorem isWholeWord_of_longest {text word rest : Text}
    (longest : Shape.longest? text = some ⟨.word, word, rest⟩) : IsWholeWord word rest := by
  have found := Shape.longest?_isLongest _ _ longest
  have whole : word ++ rest = text := found.whole
  obtain ⟨first, later, rfl, upper, parts⟩ := (Pattern.matches_oneOf_sequence_iff _ _ _).1
    (show Shape.word.pattern.Matches word from found.matched)
  rw [← whole, List.cons_append, Shape.longest?_upper first _ upper] at longest
  have left : (later ++ rest).dropWhile isWordPart = rest :=
    congrArg Match.rest (Option.some.inj longest)
  have goesOn : later.all isWordPart = true := (Pattern.matches_many_oneOf_iff _ _).1 parts
  refine ⟨upper, (all_isWordPart_iff later).1 goesOn, (head_isWordPart_iff rest).1 ?_⟩
  have stops := List.head?_dropWhile_not isWordPart (later ++ rest)
  rw [left] at stops
  cases rest with
  | nil => rfl
  | cons char behind => exact Bool.eq_false_iff.2 (by simpa using stops)

theorem IsWholeWord.all_isWordChar {word rest : Text} (isWord : IsWholeWord word rest) :
    ∀ char ∈ word, IsWordChar char := by
  obtain ⟨starts, goesOn, _⟩ := isWord
  match word with
  | first :: later =>
      have upper : first.isUpper = true := starts
      rw [List.forall_mem_cons]
      exact ⟨Or.inl (Shape.isAlphanum_of_isUpper first upper), goesOn⟩

private theorem Cut.ofWord_cases (first : Char) (others word rest : Text)
    (begins : word.take 1 = [first]) :
    ((readWord word).kind ≠ .error ∧ ofWord first others word rest =
      token (readWord word).kind ((readWord word).value? word) word rest) ∨
    ((readWord word).kind = .error ∧ ∃ reason, ofWord first others word rest =
      fault reason ((readWord word).lexeme word) (runFrom first others) (afterRun first others)) := by
  unfold ofWord
  generalize readWord word = reading
  cases reading with
  | malformedAccount shown => exact Or.inr ⟨rfl, .malformedAccount word shown, rfl⟩
  | unknown =>
      refine Or.inr ⟨rfl, .unknownRun (runFrom first others), ?_⟩
      rw [WordReading.lexeme, begins]
      rfl
  | _ => exact Or.inl ⟨nofun, rfl⟩

namespace Session

variable {session : Session} {cut : Cut} {word rest : Text}

/-- A word has one token, read from the word, and is taken up with it. -/
theorem stageOf_word (here : session.nextCut? = some cut)
    (longest : Shape.longest? session.rest = some ⟨.word, word, rest⟩) :
    word <+: cut.piece.text ∧
      (session.stageOf cut).token = some ((readWord word).token session.line word) := by
  have isLongest := Shape.longest?_isLongest _ _ longest
  obtain ⟨first, others, later, ahead, wordForm, _⟩ := Cut.head_of_letters isLongest (Or.inl rfl)
  have within : word <+: runFrom first others := by
    rw [ahead] at longest
    exact Cut.word_prefix_runFrom first others word rest longest
  have found : cut = Cut.ofWord first others word rest := by
    rw [nextCut?, ahead, Cut.next?, ← ahead, longest] at here
    exact (Option.some.inj here).symm
  have begins : word.take 1 = [first] := by rw [wordForm]; rfl
  rw [found]
  rcases Cut.ofWord_cases first others word rest begins with ⟨noError, taken⟩ | ⟨isError, _, failed⟩
  · have whole := WordReading.lexeme_of_kind_ne_error (readWord word) word noError
    rw [taken, WordReading.token, whole]
    exact ⟨List.prefix_refl word, rfl⟩
  · have noValue := WordReading.value?_of_error (readWord word) word isError
    rw [failed, WordReading.token, isError, noValue]
    exact ⟨within, rfl⟩

/-- A word is one token. Wherever a match begins with a word, the stage takes it up whole and
hands out one token for it, and the token says of the word what the grammars do. -/
theorem word_is_one_token (source : Text) (options : Options) (firstLine : Nat) :
    let session := Session.start source options firstLine
    let stages := session.trail.stages
    textOf stages = source ∧
    tokensOf stages = session.finish.tokens ∧
    ∀ before stage behind, stages = before ++ stage :: behind →
      let text := stage.piece.text
      ∀ word rest, word ++ rest = text ++ textOf behind → IsWholeWord word rest →
      word <+: text ∧ ∃ token, stage.token = some token ∧ token.ReadsWord word := by
  intro session stages
  refine ⟨session.textOf_trail, session.tokensOf_trail, ?_⟩
  intro before stage behind split text word rest whole isWord
  obtain ⟨middle, cut, _, here, rfl, cutRest⟩ := session.exists_cut_of_split before behind stage split
  have ahead : text ++ textOf behind = middle.rest := by
    rw [← cutRest]
    exact (Cut.next?_splits _ _ _ here).2
  have longest := longest?_of_isWholeWord word rest isWord
  rw [whole, ahead] at longest
  obtain ⟨taken, token⟩ := stageOf_word here longest
  exact ⟨taken, _, token, readsWord_token middle.line word⟩

/-- An account with a digit at the front of its second component, and a truth value. -/
theorem word_is_one_token_account :
    let account : Text := ['A', 'b', ':', '1', 'C']
    let session := start (account ++ ' ' :: "TRUE".toList) Options.standard 1
    ∃ first second, session.finish.tokens = [first, second] ∧
      first.kind = .account ∧ first.value = some (.text account) ∧
      second.kind = .bool ∧ second.value = some (.truth true) := by
  intro account session
  have path : IsAccountPath account :=
    ⟨[['A', 'b'], ['1', 'C']], ⟨by decide, rfl, by decide⟩, by decide, by
      simp only [List.forall_mem_cons]
      exact ⟨⟨by simp, by simp, by simp⟩, ⟨by simp, by simp, by simp⟩, nofun⟩⟩
  have run : Reaches session _ _ := .step rfl (.step rfl (.step rfl (.here _)))
  have stages := congrArg Trail.stages (run.trail_of_end rfl)
  obtain ⟨_, tokens, each⟩ :=
    word_is_one_token (account ++ ' ' :: "TRUE".toList) Options.standard 1
  obtain ⟨_, first, firstPresent, firstReads⟩ :=
    each [] _ _ stages account (' ' :: "TRUE".toList) rfl
      ⟨rfl, by simp [IsWordChar, account], by simp [IsWordChar]⟩
  obtain ⟨_, second, secondPresent, secondReads⟩ :=
    each [_, _] _ [] stages "TRUE".toList [] rfl
      ⟨rfl, by simp [IsWordChar], by simp [IsWordChar]⟩
  have isAccount := firstReads.account.2 path
  refine ⟨first, second, ?_, isAccount, firstReads.text (Or.inl isAccount),
    secondReads.bool.2 ⟨true, rfl⟩, secondReads.truth true rfl⟩
  rw [← tokens, stages, tokensOf_cons, firstPresent, tokensOf_cons, tokensOf_cons, secondPresent]
  rfl

end Session

end LedgerLexer
