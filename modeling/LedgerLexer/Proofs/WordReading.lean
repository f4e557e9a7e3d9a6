/-
Words by their grammars. An account has at least two components between colons, a currency is
a code that ends with a letter or a digit, and a few words have a meaning of their own. The
reader of words goes by these grammars, and they leave each word one reading.
-/

import LedgerLexer.Word

namespace LedgerLexer

/-- The parts are what stands between the colons of the word. -/
structure IsParts (word : Text) (parts : List Text) : Prop where
  present : parts ≠ []
  joined : [':'].intercalate parts = word
  noColon : ∀ part ∈ parts, ':' ∉ part

/-- A component of an account: at least two characters, the first an uppercase letter, a
digit or beyond ASCII, and the others letters, digits, hyphens or beyond ASCII. -/
structure IsAccountPart (part : Text) : Prop where
  enough : 2 ≤ part.length
  starts : ∀ char ∈ part.head?, char.isUpper ∨ char.isDigit ∨ 128 ≤ char.toNat
  goesOn : ∀ char ∈ part.drop 1, char.isAlphanum ∨ char = '-' ∨ 128 ≤ char.toNat

def IsAccountPath (word : Text) : Prop :=
  ∃ parts, IsParts word parts ∧ 2 ≤ parts.length ∧ ∀ part ∈ parts, IsAccountPart part

/-- The leftmost part of the word that is no component of an account. -/
def IsFirstBadPart (word part : Text) : Prop :=
  ∃ valid later, IsParts word (valid ++ part :: later) ∧
    (∀ other ∈ valid, IsAccountPart other) ∧ ¬ IsAccountPart part

/-- An uppercase letter, then uppercase letters, digits and four marks, and an uppercase letter
or a digit at the end. -/
def IsCurrencyCode (word : Text) : Prop :=
  ∃ first middle last, word = first :: (middle ++ [last]) ∧ first.isUpper ∧
    (∀ char ∈ middle, char.isUpper ∨ char.isDigit ∨ char ∈ ['\'', '.', '_', '-']) ∧
    (last.isUpper ∨ last.isDigit)

def truthWord (value : Bool) : Text :=
  if value then "TRUE".toList else "FALSE".toList

def IsFlagLetter (word : Text) : Prop :=
  ∃ letter ∈ "PSTCURM".toList, word = [letter]

def IsReservedWord (word : Text) : Prop :=
  (∃ value, word = truthWord value) ∨ word = "NULL".toList ∨ IsFlagLetter word

theorem isParts_iff (word : Text) (parts : List Text) :
    IsParts word parts ↔ components word = parts := by
  constructor
  · rintro ⟨present, rfl, noColon⟩
    exact List.splitOn_intercalate ':' noColon present
  · rintro rfl
    exact ⟨List.splitOn_ne_nil ':' word, List.intercalate_splitOn ':',
      not_mem_of_mem_splitOn ':' word⟩

private theorem isComponentStart_iff (char : Char) :
    isComponentStart char = true ↔ char.isUpper ∨ char.isDigit ∨ 128 ≤ char.toNat := by
  simp [isComponentStart, isBeyondAscii, or_assoc]

private theorem isComponentPart_iff (char : Char) :
    isComponentPart char = true ↔ char.isAlphanum ∨ char = '-' ∨ 128 ≤ char.toNat := by
  simp [isComponentPart, isBeyondAscii, or_assoc]

private theorem isCurrencyPart_iff (char : Char) : isCurrencyPart char = true ↔
    char.isUpper ∨ char.isDigit ∨ char ∈ ['\'', '.', '_', '-'] := by
  simp [isCurrencyPart, or_assoc]

private theorem isCurrencyEnd_iff (char : Char) :
    isCurrencyEnd char = true ↔ char.isUpper ∨ char.isDigit := by
  simp [isCurrencyEnd]

theorem isComponent_iff (part : Text) : isComponent part = true ↔ IsAccountPart part := by
  match part with
  | [] => exact ⟨nofun, fun isPart => absurd isPart.enough (by simp)⟩
  | [_] => exact ⟨nofun, fun isPart => absurd isPart.enough (by simp)⟩
  | first :: second :: rest =>
      simp only [isComponent, Bool.and_eq_true, List.all_eq_true, isComponentStart_iff,
        isComponentPart_iff]
      constructor
      · rintro ⟨starts, goesOn⟩
        refine ⟨by simp, ?_, goesOn⟩
        rintro char begins
        obtain rfl := Option.some.inj begins
        exact starts
      · intro isPart
        exact ⟨isPart.starts first rfl, isPart.goesOn⟩

theorem isCurrency_iff (word : Text) : isCurrency word = true ↔ IsCurrencyCode word := by
  simp only [isCurrency, Bool.and_eq_true, decide_eq_true_eq, List.all_eq_true, isCurrencyPart_iff]
  constructor
  · rintro ⟨⟨⟨enough, parts⟩, starts⟩, ends⟩
    match word with
    | first :: others =>
        rcases List.eq_nil_or_concat others with rfl | ⟨middle, last, rfl⟩
        · simp at enough
        · rw [List.concat_eq_append] at parts ends ⊢
          rw [← List.cons_append, List.getLast?_concat] at ends
          refine ⟨first, middle, last, rfl, starts, ?_, (isCurrencyEnd_iff last).1 ends⟩
          intro char member
          exact parts char (List.mem_cons_of_mem _ (List.mem_append_left _ member))
  · rintro ⟨first, middle, last, rfl, upper, parts, ends⟩
    refine ⟨⟨⟨by simp, ?_⟩, upper⟩, ?_⟩
    · intro char member
      simp only [List.mem_cons, List.mem_append, List.not_mem_nil, or_false] at member
      rcases member with rfl | inMiddle | rfl
      · exact Or.inl upper
      · exact parts char inMiddle
      · exact ends.imp_right Or.inl
    · rw [← List.cons_append, List.getLast?_concat]
      exact (isCurrencyEnd_iff last).2 ends

theorem isLetterFlag_iff (word : Text) : isLetterFlag word = true ↔ IsFlagLetter word := by
  constructor
  · intro isFlag
    match word with
    | [letter] => exact ⟨letter, List.contains_iff_mem.1 isFlag, rfl⟩
  · rintro ⟨letter, member, rfl⟩
    exact List.contains_iff_mem.2 member

theorem badComponent?_eq_none_iff (word : Text) :
    badComponent? word = none ↔ ∀ part ∈ components word, IsAccountPart part := by
  rw [badComponent?, List.find?_eq_none]
  simp only [Bool.not_eq_true', Bool.not_eq_false, isComponent_iff]

theorem badComponent?_eq_some_iff (word part : Text) :
    badComponent? word = some part ↔ IsFirstBadPart word part := by
  simp only [badComponent?, List.find?_eq_some_iff_append, Bool.not_eq_true', IsFirstBadPart,
    isParts_iff, ← isComponent_iff]
  constructor
  · rintro ⟨bad, valid, later, split, before⟩
    exact ⟨valid, later, split, by simpa using before, by simp [bad]⟩
  · rintro ⟨valid, later, split, before, bad⟩
    exact ⟨by simpa using bad, valid, later, split, by simpa using before⟩

theorem IsParts.colon_mem_iff {word : Text} {parts : List Text} (split : IsParts word parts) :
    ':' ∈ word ↔ 2 ≤ parts.length := by
  obtain ⟨present, rfl, noColon⟩ := split
  match parts with
  | [only] => simpa using noColon only
  | first :: second :: later => simp [List.intercalate_cons_cons]

/-- The reading that a word has by the grammars. -/
def HasReading (word : Text) : WordReading → Prop
  | .account => IsAccountPath word
  | .malformedAccount shown => ':' ∈ word ∧ ∃ part, IsFirstBadPart word part ∧
      shown = shownComponent part
  | .truth value => word = truthWord value
  | .null => word = "NULL".toList
  | .flag => IsFlagLetter word
  | .currency => ':' ∉ word ∧ ¬ IsReservedWord word ∧ IsCurrencyCode word
  | .unknown => ':' ∉ word ∧ ¬ IsReservedWord word ∧ ¬ IsCurrencyCode word

/-- A word with a colon is an account or has a first bad component. -/
theorem hasReading_of_colon (word : Text) (colon : ':' ∈ word) :
    HasReading word (readAccount word) := by
  unfold readAccount
  split
  · rename_i good
    have split := (isParts_iff word _).2 rfl
    exact ⟨components word, split, split.colon_mem_iff.1 colon,
      (badComponent?_eq_none_iff word).1 good⟩
  · rename_i part bad
    exact ⟨colon, part, (badComponent?_eq_some_iff word part).1 bad, rfl⟩

theorem hasReading_readWord (word : Text) : HasReading word (readWord word) := by
  unfold readWord
  split
  · rename_i colon
    exact hasReading_of_colon word (by simpa using colon)
  rename_i colon
  have noColon : ':' ∉ word := by simpa using colon
  split
  · rename_i spelled
    exact spelled
  rename_i notTrue
  split
  · rename_i spelled
    exact spelled
  rename_i notFalse
  split
  · rename_i spelled
    exact spelled
  rename_i notNull
  split
  · rename_i letter
    exact (isLetterFlag_iff word).1 letter
  rename_i notLetter
  have free : ¬ IsReservedWord word := by
    rintro (⟨value, spelled⟩ | null | letter)
    · cases value
      · exact notFalse spelled
      · exact notTrue spelled
    · exact notNull null
    · exact notLetter ((isLetterFlag_iff word).2 letter)
  split
  · rename_i code
    exact ⟨noColon, free, (isCurrency_iff word).1 code⟩
  · rename_i noCode
    exact ⟨noColon, free, fun code => noCode ((isCurrency_iff word).2 code)⟩

theorem readWord_of_colon (word : Text) (colon : ':' ∈ word) : readWord word = readAccount word := by
  have contains : word.contains ':' = true := by simpa using colon
  rw [readWord, contains, if_pos rfl]

private theorem readWord_of_free (word : Text) (noColon : ':' ∉ word)
    (free : ¬ IsReservedWord word) :
    readWord word = if isCurrency word then .currency else .unknown := by
  have contains : word.contains ':' = false := by simpa using noColon
  have notTrue : word ≠ "TRUE".toList := fun spelled => free (Or.inl ⟨true, spelled⟩)
  have notFalse : word ≠ "FALSE".toList := fun spelled => free (Or.inl ⟨false, spelled⟩)
  have notNull : word ≠ "NULL".toList := fun spelled => free (Or.inr (Or.inl spelled))
  have notLetter : ¬ isLetterFlag word = true := fun letter =>
    free (Or.inr (Or.inr ((isLetterFlag_iff word).1 letter)))
  rw [readWord, contains, if_neg Bool.false_ne_true, if_neg notTrue, if_neg notFalse,
    if_neg notNull, if_neg notLetter]

private theorem readWord_of_hasReading (word : Text) (reading : WordReading)
    (has : HasReading word reading) : readWord word = reading := by
  cases reading with
  | account =>
      obtain ⟨parts, split, enough, valid⟩ := has
      have good : badComponent? word = none := by
        rw [badComponent?_eq_none_iff, (isParts_iff word parts).1 split]
        exact valid
      rw [readWord_of_colon word (split.colon_mem_iff.2 enough), readAccount, good]
  | malformedAccount shown =>
      obtain ⟨colon, part, bad, rfl⟩ := has
      rw [readWord_of_colon word colon, readAccount, (badComponent?_eq_some_iff _ _).2 bad]
  | truth value =>
      obtain rfl : word = truthWord value := has
      cases value <;> rfl
  | null =>
      obtain rfl : word = "NULL".toList := has
      rfl
  | flag =>
      obtain ⟨letter, member, rfl⟩ := has
      change letter ∈ ['P', 'S', 'T', 'C', 'U', 'R', 'M'] at member
      simp only [List.mem_cons, List.not_mem_nil, or_false] at member
      rcases member with rfl | rfl | rfl | rfl | rfl | rfl | rfl
      all_goals rfl
  | currency =>
      obtain ⟨noColon, free, code⟩ := has
      rw [readWord_of_free word noColon free, if_pos ((isCurrency_iff word).2 code)]
  | unknown =>
      obtain ⟨noColon, free, noCode⟩ := has
      rw [readWord_of_free word noColon free,
        if_neg (fun code => noCode ((isCurrency_iff word).1 code))]

/-- The reader of words goes by the grammars, and they leave each word one reading. -/
theorem readWord_eq_iff (word : Text) (reading : WordReading) :
    readWord word = reading ↔ HasReading word reading := by
  constructor
  · rintro rfl
    exact hasReading_readWord word
  · exact readWord_of_hasReading word reading

end LedgerLexer
