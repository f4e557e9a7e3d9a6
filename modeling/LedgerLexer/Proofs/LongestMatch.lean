/-
The reader of shapes against their patterns. What it finds matches the pattern of the
shape it names, and no shape matches a longer front of the text; when it finds
nothing, no shape matches any front. Together these determine its answer, so any
change behind a match can be judged by the patterns alone.
-/

import LedgerLexer.Proofs.NumericShapes

namespace LedgerLexer

/-- The match takes at least the given front, and exactly that front only as the given
shape. -/
def Match.Covers (found : Match) (shape : Shape) (front : Text) : Prop :=
  front <+: found.text ∧ (found.text = front → found.shape = shape)

private theorem Match.covers_of_shape (found : Match) (front : Text)
    (taken : front <+: found.text) : found.Covers found.shape front :=
  ⟨taken, fun _ => rfl⟩

theorem Match.Covers.cons {found : Match} {shape : Shape} {front : Text}
    (covers : found.Covers shape front) (first : Char) :
    (Match.cons first found).Covers shape (first :: front) :=
  ⟨(List.prefix_cons_inj first).2 covers.1, fun same => covers.2 (List.cons.inj same).2⟩

private theorem Mark.ofText?_eq_some (text : Text) (mark : Mark)
    (found : Mark.ofText? text = some mark) : mark.text = text :=
  eq_of_beq (List.find?_some (p := fun mark : Mark => mark.text == text) found)

private theorem Mark.ofText?_text (mark : Mark) : Mark.ofText? mark.text = some mark := by
  cases mark <;> rfl

theorem Mark.text_injective (left right : Mark) (same : left.text = right.text) :
    left = right := by
  have found := Mark.ofText?_text left
  rw [same, Mark.ofText?_text] at found
  exact (Option.some.inj found).symm

private theorem Mark.text_length (mark : Mark) : mark.text.length = 1 ∨ mark.text.length = 2 := by
  cases mark
  case doubleAt | doubleOpenBrace | doubleCloseBrace => exact Or.inr rfl
  all_goals exact Or.inl rfl

namespace Shape

open Pattern

theorem isAlphanum_of_isUpper (char : Char) (upper : char.isUpper = true) :
    char.isAlphanum = true := by
  change (char.isUpper || char.isLower || char.isDigit) = true
  rw [upper]
  rfl

theorem isAlphanum_of_isLower (char : Char) (lower : char.isLower = true) :
    char.isAlphanum = true := by
  change (char.isUpper || char.isLower || char.isDigit) = true
  rw [lower, Bool.or_true]
  rfl

private theorem isAlphanum_of_isDigit (char : Char) (digit : char.isDigit = true) :
    char.isAlphanum = true := by
  change (char.isUpper || char.isLower || char.isDigit) = true
  rw [digit, Bool.or_true]

private theorem isUpper_bounds (char : Char) (upper : char.isUpper = true) :
    'A'.val ≤ char.val ∧ char.val ≤ 'Z'.val :=
  of_decide_eq_true upper

private theorem isLower_bounds (char : Char) (lower : char.isLower = true) :
    'a'.val ≤ char.val ∧ char.val ≤ 'z'.val := by
  change (decide ('a'.val ≤ char.val) && decide (char.val ≤ 'z'.val)) = true at lower
  rwa [Bool.and_eq_true, decide_eq_true_eq, decide_eq_true_eq] at lower

theorem isDigit_bounds (char : Char) (digit : char.isDigit = true) :
    '0'.val ≤ char.val ∧ char.val ≤ '9'.val := by
  change (decide ('0'.val ≤ char.val) && decide (char.val ≤ '9'.val)) = true at digit
  rwa [Bool.and_eq_true, decide_eq_true_eq, decide_eq_true_eq] at digit

private theorem isUpper_false_of_isLower (char : Char) (lower : char.isLower = true) :
    char.isUpper = false := by
  apply Bool.eq_false_iff.2
  intro upper
  have crossed : 'a'.val ≤ 'Z'.val :=
    UInt32.le_trans (isLower_bounds char lower).1 (isUpper_bounds char upper).2
  exact absurd crossed (by decide)

private theorem isUpper_false_of_isDigit (char : Char) (digit : char.isDigit = true) :
    char.isUpper = false := by
  apply Bool.eq_false_iff.2
  intro upper
  have crossed : 'A'.val ≤ '9'.val :=
    UInt32.le_trans (isUpper_bounds char upper).1 (isDigit_bounds char digit).2
  exact absurd crossed (by decide)

private theorem isLower_false_of_isDigit (char : Char) (digit : char.isDigit = true) :
    char.isLower = false := by
  apply Bool.eq_false_iff.2
  intro lower
  have crossed : 'a'.val ≤ '9'.val :=
    UInt32.le_trans (isLower_bounds char lower).1 (isDigit_bounds char digit).2
  exact absurd crossed (by decide)

theorem isBlank_of_isAlphanum (char : Char) (letterOrDigit : char.isAlphanum = true) :
    isBlank char = false := by
  cases blank : isBlank char with
  | false => rfl
  | true =>
      simp only [isBlank, Bool.or_eq_true, beq_iff_eq] at blank
      rcases blank with rfl | rfl <;> cases letterOrDigit

theorem isLineEnd_of_isAlphanum (char : Char) (letterOrDigit : char.isAlphanum = true) :
    isLineEnd char = false := by
  cases lineEnd : isLineEnd char with
  | false => rfl
  | true =>
      simp only [isLineEnd, Bool.or_eq_true, beq_iff_eq] at lineEnd
      rcases lineEnd with rfl | rfl <;> cases letterOrDigit

theorem longest?_blank (first : Char) (rest : Text) (blankFirst : isBlank first = true) :
    longest? (first :: rest) = Option.some (stretch blank first isBlank rest) := by
  rw [longest?, if_pos blankFirst]

theorem longest?_upper (first : Char) (rest : Text) (upper : first.isUpper = true) :
    longest? (first :: rest) = Option.some (stretch word first isWordPart rest) := by
  have letter := isAlphanum_of_isUpper first upper
  rw [longest?, isBlank_of_isAlphanum first letter, isLineEnd_of_isAlphanum first letter, upper]
  rfl

private theorem longest?_lower (first : Char) (rest : Text) (lower : first.isLower = true) :
    longest? (first :: rest) = Option.some (nameAt first rest) := by
  have letter := isAlphanum_of_isLower first lower
  rw [longest?, isBlank_of_isAlphanum first letter, isLineEnd_of_isAlphanum first letter,
    isUpper_false_of_isLower first lower, lower]
  rfl

theorem longest?_digit (first : Char) (rest : Text) (isDigit : first.isDigit = true) :
    longest? (first :: rest) = Option.some (dateOrNumberAt (first :: rest)) := by
  have alphanumeric := isAlphanum_of_isDigit first isDigit
  rw [longest?, isBlank_of_isAlphanum first alphanumeric, isLineEnd_of_isAlphanum first alphanumeric,
    isUpper_false_of_isDigit first isDigit, isLower_false_of_isDigit first isDigit, isDigit]
  rfl

private theorem longest?_sign (first : Char) (rest : Text) (signed : isSign first = true) :
    longest? (first :: rest) = (unsignedAt rest).map (Match.cons first) := by
  simp only [isSign, Bool.or_eq_true, beq_iff_eq] at signed
  rcases signed with rfl | rfl <;> rfl

/-! ### Every match of a pattern is covered -/

private theorem stretch_covers (shape : Shape) (first : Char) (accepts : Char → Bool)
    (front back : Text) (accepted : front.all accepts = true) :
    (stretch shape first accepts (front ++ back)).Covers shape (first :: front) := by
  apply Match.covers_of_shape
  change first :: front <+: first :: (front ++ back).takeWhile accepts
  rw [takeWhile_append_of_all accepts front back accepted]
  exact ⟨back.takeWhile accepts, rfl⟩

private theorem nameAt_covers (first : Char) (parts colon back : Text)
    (accepted : parts.all isNamePart = true) (colonForm : colon = [] ∨ colon = [':']) :
    (nameAt first (parts ++ colon ++ back)).Covers name (first :: (parts ++ colon)) := by
  rw [List.append_assoc]
  unfold nameAt
  rw [takeWhile_append_of_all isNamePart parts (colon ++ back) accepted,
    dropWhile_append_of_all isNamePart parts (colon ++ back) accepted]
  rcases colonForm with rfl | rfl
  · rw [List.append_nil, List.nil_append]
    split
    · apply Match.covers_of_shape
      exact ⟨back.takeWhile isNamePart ++ [':'], by
        simp only [List.cons_append, List.append_assoc]⟩
    · apply Match.covers_of_shape
      exact ⟨back.takeWhile isNamePart, rfl⟩
  · apply Match.covers_of_shape
    exact ⟨[], by
      simp only [List.append_nil, List.cons_append, List.append_assoc]
      rfl⟩

/-- A number that begins where a date does ends before the separator of the date. -/
theorem unsignedNumber_before_date (front back : Text) (matched : Matches unsignedNumber front)
    (starts : startsWithDate (front ++ back) = true) : front.length ≤ 4 := by
  obtain ⟨first, second, third, fourth, separator, rest, whole, _, _, _, _, separates⟩ :=
    startsWithDate_cases _ starts
  apply Nat.le_of_not_lt
  intro longer
  have inFront : separator ∈ front := by
    have placed : (front ++ back)[4]? = Option.some separator := by
      rw [whole]
      rfl
    rw [List.getElem?_append_left longer] at placed
    exact List.mem_of_getElem? placed
  have inAlphabet := alphabet_of_mem matched inFront
  simp only [isDateSeparator, Bool.or_eq_true, beq_iff_eq] at separates
  rcases separates with rfl | rfl <;> cases inAlphabet

private theorem dateOrNumberAt_covers_number (front back : Text)
    (matched : Matches unsignedNumber front) :
    (dateOrNumberAt (front ++ back)).Covers number front := by
  unfold dateOrNumberAt
  split
  · rename_i starts
    have short := unsignedNumber_before_date front back matched starts
    have dateMatched := dateAt_matches (front ++ back) starts
    obtain ⟨first, second, third, fourth, separator, rest, dateText, _⟩ :=
      (matches_datePattern_iff _).1 dateMatched
    have long : front.length < (dateAt (front ++ back)).text.length := by
      rw [dateText]
      simp only [List.length_cons]
      omega
    have datePrefix : (dateAt (front ++ back)).text <+: front ++ back := List.take_prefix _ _
    refine ⟨List.prefix_of_prefix_length_le (List.prefix_append front back) datePrefix
      (Nat.le_of_lt long), ?_⟩
    intro same
    rw [same] at long
    exact absurd long (Nat.lt_irrefl _)
  · obtain ⟨more, taken⟩ := numberAt_covers front back matched
    exact ⟨⟨more, taken.symm⟩, fun _ => rfl⟩

private theorem covers_number (front back : Text) (matched : Matches numberPattern front) :
    ∃ found, longest? (front ++ back) = Option.some found ∧ found.Covers number front := by
  obtain ⟨signText, unsigned, rfl, signMatched, unsignedMatched⟩ :=
    (matches_sequence_iff sign unsignedNumber front).1 matched
  have starts := unsignedNumber_starts unsigned unsignedMatched
  cases unsigned with
  | nil => cases starts
  | cons digitChar rest =>
      have isDigit : digitChar.isDigit = true := starts
      rcases (matches_optional_iff _ _).1 signMatched with rfl | signPresent
      · exact ⟨_, longest?_digit digitChar (rest ++ back) isDigit,
          dateOrNumberAt_covers_number (digitChar :: rest) back unsignedMatched⟩
      · obtain ⟨signChar, rfl, signed⟩ := (matches_oneOf_iff _ _).1 signPresent
        obtain ⟨more, taken⟩ := numberAt_covers (digitChar :: rest) back unsignedMatched
        have unsignedFound : unsignedAt (digitChar :: (rest ++ back)) =
            Option.some (numberAt (digitChar :: (rest ++ back))) := by
          rw [unsignedAt, if_pos isDigit]
        refine ⟨Match.cons signChar (numberAt (digitChar :: (rest ++ back))), ?_, ?_⟩
        · change longest? (signChar :: digitChar :: (rest ++ back)) = _
          rw [longest?_sign _ _ signed, unsignedFound]
          rfl
        · have covers : (numberAt (digitChar :: (rest ++ back))).Covers number (digitChar :: rest) :=
            ⟨⟨more, taken.symm⟩, fun _ => rfl⟩
          exact covers.cons signChar

private theorem covers_fraction (front back : Text) (matched : Matches fractionPattern front) :
    ∃ found, longest? (front ++ back) = Option.some found ∧ found.Covers fraction front := by
  obtain ⟨signText, unsigned, rfl, signMatched, unsignedMatched⟩ :=
    (matches_sequence_iff _ _ _).1 matched
  obtain ⟨digits, rfl, digitsMatched⟩ := (matches_char_sequence_iff _ _ _).1 unsignedMatched
  have fractionFound := fractionAt_covers digits back digitsMatched
  have covers : (⟨fraction, '.' :: digits ++ back.takeWhile Char.isDigit,
      back.dropWhile Char.isDigit⟩ : Match).Covers fraction ('.' :: digits) :=
    Match.covers_of_shape _ _ (List.prefix_append _ _)
  rcases (matches_optional_iff _ _).1 signMatched with rfl | signPresent
  · exact ⟨_, fractionFound, covers⟩
  · obtain ⟨signChar, rfl, signed⟩ := (matches_oneOf_iff _ _).1 signPresent
    refine ⟨_, ?_, covers.cons signChar⟩
    change longest? (signChar :: '.' :: (digits ++ back)) = _
    rw [longest?_sign _ _ signed]
    exact congrArg (Option.map (Match.cons signChar)) fractionFound

private theorem covers_date (front back : Text) (matched : Matches datePattern front) :
    ∃ found, longest? (front ++ back) = Option.some found ∧ found.Covers date front := by
  obtain ⟨starts, more, taken⟩ := dateAt_covers front back matched
  obtain ⟨first, second, third, fourth, separator, rest, rfl, firstDigit, _⟩ :=
    (matches_datePattern_iff front).1 matched
  refine ⟨_, longest?_digit first _ firstDigit, ?_⟩
  change (if startsWithDate (first :: second :: third :: fourth :: separator :: rest ++ back) then
    dateAt _ else numberAt _).Covers date _
  rw [if_pos starts]
  exact ⟨⟨more, taken.symm⟩, fun _ => rfl⟩

private theorem labelAt_covers (shape : Shape) (marker : Char) (label back : Text)
    (matched : Matches (some (oneOf isLabelPart)) label) :
    ∃ found, labelAt shape marker (label ++ back) = Option.some found ∧
      found.Covers shape (marker :: label) := by
  obtain ⟨nonempty, accepted⟩ := (matches_some_oneOf_iff _ _).1 matched
  refine ⟨_, ?_, stretch_covers shape marker isLabelPart label back accepted⟩
  unfold labelAt
  rw [startsWith_append _ _ _ nonempty, startsWith_of_all _ _ nonempty accepted, if_pos rfl]

private theorem covers_flag (front back : Text) (matched : Matches (oneOf isFlagMark) front) :
    ∃ found, longest? (front ++ back) = Option.some found ∧ found.Covers flag front := by
  obtain ⟨mark, rfl, isMark⟩ := (matches_oneOf_iff _ _).1 matched
  have alone : (⟨flag, [mark], back⟩ : Match).Covers flag [mark] :=
    Match.covers_of_shape _ _ (List.prefix_refl _)
  simp only [isFlagMark, Bool.or_eq_true, beq_iff_eq] at isMark
  obtain ((((rfl | rfl) | rfl) | rfl) | rfl) | rfl := isMark
  case inr =>
    -- A hash mark is a flag only without a label behind it.
    have either : longest? ('#' :: back) =
        (labelAt tag '#' back).or (Option.some ⟨flag, ['#'], back⟩) := rfl
    cases back with
    | nil => exact ⟨_, either, alone⟩
    | cons next later =>
        by_cases labels : isLabelPart next = true
        · refine ⟨stretch tag '#' isLabelPart (next :: later), ?_, ⟨⟨_, rfl⟩, ?_⟩⟩
          · rw [List.singleton_append, either, labelAt, startsWith, if_pos labels]
            rfl
          · intro same
            have longer := congrArg List.length same
            simp only [stretch, List.takeWhile_cons_of_pos labels, List.length_cons,
              List.length_nil] at longer
            omega
        · refine ⟨_, ?_, alone⟩
          rw [List.singleton_append, either, labelAt, startsWith, if_neg labels]
          rfl
  all_goals exact ⟨_, rfl, alone⟩

private theorem covers_mark (mark : Mark) (back : Text) :
    ∃ found, longest? (mark.text ++ back) = Option.some found ∧
      found.Covers (punctuation mark) mark.text := by
  have reads : longest? (mark.text ++ back) = markAt (mark.text ++ back) := by
    cases mark <;> rfl
  rw [reads, markAt]
  split
  · rename_i wide wideFound
    have wideText := Mark.ofText?_eq_some _ wide wideFound
    have short : mark.text.length ≤ 2 := by
      rcases Mark.text_length mark with one | two <;> omega
    refine ⟨_, rfl, ?_, ?_⟩
    · exact List.prefix_take_iff.2 ⟨List.prefix_append _ _, short⟩
    · intro same
      rw [← wideText] at same
      exact congrArg punctuation (Mark.text_injective wide mark same)
  · rename_i notWide
    rcases Mark.text_length mark with one | two
    · have taken : (mark.text ++ back).take 1 = mark.text := List.take_left' one
      refine ⟨⟨punctuation mark, mark.text, (mark.text ++ back).drop 1⟩, ?_,
        Match.covers_of_shape _ _ (List.prefix_refl _)⟩
      rw [taken, Mark.ofText?_text]
      rfl
    · have taken : (mark.text ++ back).take 2 = mark.text := List.take_left' two
      rw [taken, Mark.ofText?_text] at notWide
      cases notWide

/-- Wherever a shape matches the front of a text, the reader finds a match that takes at
least that front. -/
theorem longest?_covers (shape : Shape) (front back : Text) (matched : shape.pattern.Matches front) :
    ∃ found, longest? (front ++ back) = Option.some found ∧ found.Covers shape front := by
  cases shape with
  | blank =>
      obtain ⟨first, rest, rfl, isFirst, restMatched⟩ := (matches_oneOf_sequence_iff _ _ _).1 matched
      exact ⟨_, longest?_blank first _ isFirst,
        stretch_covers _ first _ rest back ((matches_many_oneOf_iff _ _).1 restMatched)⟩
  | lineBreak =>
      obtain ⟨carriage, feed, rfl, carriageMatched, feedMatched⟩ :=
        (matches_sequence_iff _ _ _).1 matched
      rw [matches_char_iff] at feedMatched
      subst feedMatched
      rcases (matches_optional_iff _ _).1 carriageMatched with rfl | present
      · exact ⟨⟨lineBreak, ['\n'], back⟩, rfl, Match.covers_of_shape _ _ (List.prefix_refl _)⟩
      · rw [matches_char_iff] at present
        subst present
        exact ⟨⟨lineBreak, ['\r', '\n'], back⟩, rfl,
          Match.covers_of_shape _ _ (List.prefix_refl _)⟩
  | comment =>
      obtain ⟨body, rfl, bodyMatched⟩ := (matches_char_sequence_iff _ _ _).1 matched
      exact ⟨_, rfl, stretch_covers _ ';' _ body back ((matches_many_oneOf_iff _ _).1 bodyMatched)⟩
  | date => exact covers_date front back matched
  | number => exact covers_number front back matched
  | fraction => exact covers_fraction front back matched
  | quote =>
      have same := (matches_char_iff _ _).1 matched
      subst same
      exact ⟨⟨quote, ['"'], back⟩, rfl, Match.covers_of_shape _ _ (List.prefix_refl _)⟩
  | tag =>
      obtain ⟨label, rfl, labelMatched⟩ := (matches_char_sequence_iff _ _ _).1 matched
      obtain ⟨found, labelFound, covers⟩ := labelAt_covers tag '#' label back labelMatched
      refine ⟨found, ?_, covers⟩
      change (labelAt tag '#' (label ++ back)).or _ = _
      rw [labelFound, Option.some_or]
  | link =>
      obtain ⟨label, rfl, labelMatched⟩ := (matches_char_sequence_iff _ _ _).1 matched
      exact labelAt_covers link '^' label back labelMatched
  | flag => exact covers_flag front back matched
  | word =>
      obtain ⟨first, rest, rfl, upper, restMatched⟩ := (matches_oneOf_sequence_iff _ _ _).1 matched
      exact ⟨_, longest?_upper first _ upper,
        stretch_covers _ first _ rest back ((matches_many_oneOf_iff _ _).1 restMatched)⟩
  | name =>
      obtain ⟨first, rest, rfl, lower, restMatched⟩ := (matches_oneOf_sequence_iff _ _ _).1 matched
      obtain ⟨parts, colon, rfl, partsMatched, colonMatched⟩ :=
        (matches_sequence_iff _ _ _).1 restMatched
      have colonForm : colon = [] ∨ colon = [':'] := by
        rcases (matches_optional_iff _ _).1 colonMatched with absent | present
        · exact Or.inl absent
        · exact Or.inr ((matches_char_iff _ _).1 present)
      exact ⟨_, longest?_lower first _ lower,
        nameAt_covers first parts colon back ((matches_many_oneOf_iff _ _).1 partsMatched) colonForm⟩
  | punctuation mark =>
      have same := (matches_exactly_iff _ _).1 matched
      subst same
      exact covers_mark mark back

/-! ### What is found matches -/

private theorem matches_takeWhile (accepts : Char → Bool) (rest : Text) :
    Matches (many (oneOf accepts)) (rest.takeWhile accepts) :=
  (matches_many_oneOf_iff _ _).2 List.all_takeWhile

private theorem nameAt_matches (first : Char) (rest : Text) (lower : first.isLower = true) :
    (nameAt first rest).shape = name ∧ Matches name.pattern (nameAt first rest).text := by
  have parts := matches_takeWhile isNamePart rest
  unfold nameAt
  split
  · exact ⟨rfl, (matches_oneOf_sequence_iff _ _ _).2 ⟨first, _, rfl, lower,
      .sequence parts ((matches_optional_iff _ _).2 (Or.inr ((matches_char_iff _ _).2 rfl)))⟩⟩
  · refine ⟨rfl, (matches_oneOf_sequence_iff _ _ _).2 ⟨first, _, rfl, lower, ?_⟩⟩
    exact (matches_sequence_iff _ _ _).2
      ⟨_, [], (List.append_nil _).symm, parts, (matches_optional_iff _ _).2 (Or.inl rfl)⟩

private theorem lineBreakAt_matches (text : Text) (found : Match)
    (here : lineBreakAt text = Option.some found) : found.shape.pattern.Matches found.text := by
  unfold lineBreakAt at here
  have feed : Matches (char '\n') ['\n'] := (matches_char_iff _ _).2 rfl
  split at here
  · cases here
    exact (matches_sequence_iff _ _ _).2
      ⟨[], ['\n'], rfl, (matches_optional_iff _ _).2 (Or.inl rfl), feed⟩
  · cases here
    exact (matches_sequence_iff _ _ _).2 ⟨['\r'], ['\n'], rfl,
      (matches_optional_iff _ _).2 (Or.inr ((matches_char_iff _ _).2 rfl)), feed⟩
  · cases here

private theorem matches_number_of_unsigned (text : Text) (matched : Matches unsignedNumber text) :
    Matches numberPattern text :=
  (matches_sequence_iff _ _ _).2 ⟨[], text, rfl, (matches_optional_iff _ _).2 (Or.inl rfl), matched⟩

private theorem dateOrNumberAt_matches (text : Text)
    (starts : startsWith Char.isDigit text = true) :
    (dateOrNumberAt text).shape.pattern.Matches (dateOrNumberAt text).text := by
  unfold dateOrNumberAt
  split
  · rename_i dateStarts
    exact dateAt_matches text dateStarts
  · exact matches_number_of_unsigned _ (numberAt_matches text starts)

private theorem signed_matches (first : Char) (text : Text) (found : Match)
    (signed : isSign first = true) (here : unsignedAt text = Option.some found) :
    (Match.cons first found).shape.pattern.Matches (Match.cons first found).text := by
  have signMatched : Matches sign [first] :=
    (matches_optional_iff _ _).2 (Or.inr (.oneOf signed))
  unfold unsignedAt at here
  split at here
  · rename_i char rest
    split at here
    · rename_i isDigit
      cases here
      change Matches numberPattern ([first] ++ (numberAt (char :: rest)).text)
      exact .sequence signMatched (numberAt_matches (char :: rest) isDigit)
    · split at here
      · obtain ⟨shape, matched⟩ := fractionAt_matches rest found here
        change found.shape.pattern.Matches ([first] ++ found.text)
        rw [shape]
        exact .sequence signMatched matched
      · cases here
  · cases here

private theorem labelAt_matches (shape : Shape) (marker : Char) (rest : Text) (found : Match)
    (labels : shape.pattern = sequence (char marker) (some (oneOf isLabelPart)))
    (here : labelAt shape marker rest = Option.some found) :
    found.shape.pattern.Matches found.text := by
  unfold labelAt at here
  split at here
  · rename_i starts
    cases here
    change shape.pattern.Matches (marker :: rest.takeWhile isLabelPart)
    rw [labels]
    refine (matches_char_sequence_iff _ _ _).2 ⟨_, rfl, (matches_some_oneOf_iff _ _).2
      ⟨?_, List.all_takeWhile⟩⟩
    cases rest with
    | nil => cases starts
    | cons next later =>
        have labelStarts : isLabelPart next = true := starts
        rw [List.takeWhile_cons_of_pos labelStarts]
        exact List.cons_ne_nil _ _
  · cases here

private theorem markAt_matches (text : Text) (found : Match)
    (here : markAt text = Option.some found) : found.shape.pattern.Matches found.text := by
  unfold markAt at here
  split at here
  · rename_i mark markFound
    cases here
    exact (matches_exactly_iff _ _).2 (Mark.ofText?_eq_some _ mark markFound).symm
  · obtain ⟨mark, markFound, rfl⟩ := Option.map_eq_some_iff.1 here
    exact (matches_exactly_iff _ _).2 (Mark.ofText?_eq_some _ mark markFound).symm

private theorem symbolAt_matches (first : Char) (rest : Text) (found : Match)
    (here : symbolAt first rest = Option.some found) : found.shape.pattern.Matches found.text := by
  unfold symbolAt at here
  split at here
  · rename_i semicolon
    cases here
    subst semicolon
    exact (matches_char_sequence_iff _ _ _).2 ⟨_, rfl, matches_takeWhile _ _⟩
  split at here
  · obtain ⟨shape, matched⟩ := fractionAt_matches rest found here
    rw [shape]
    exact (matches_sequence_iff _ _ _).2
      ⟨[], _, rfl, (matches_optional_iff _ _).2 (Or.inl rfl), matched⟩
  split at here
  · rename_i opening
    cases here
    exact (matches_char_iff _ _).2 (congrArg (fun char => [char]) opening)
  split at here
  · rename_i caret
    subst caret
    exact labelAt_matches link '^' rest found rfl here
  split at here
  · rename_i hash
    subst hash
    rcases Option.or_eq_some_iff.1 here with label | ⟨_, flagHere⟩
    · exact labelAt_matches tag '#' rest found rfl label
    · cases flagHere
      exact .oneOf rfl
  split at here
  · rename_i isMark
    cases here
    exact .oneOf isMark
  · exact markAt_matches _ found here

theorem longest?_matches (text : Text) (found : Match) (here : longest? text = Option.some found) :
    found.shape.pattern.Matches found.text := by
  cases text with
  | nil => cases here
  | cons first rest =>
      rw [longest?] at here
      split at here
      · rename_i blankFirst
        cases here
        exact (matches_oneOf_sequence_iff _ _ _).2 ⟨first, _, rfl, blankFirst, matches_takeWhile _ _⟩
      split at here
      · exact lineBreakAt_matches _ found here
      split at here
      · rename_i upper
        cases here
        exact (matches_oneOf_sequence_iff _ _ _).2 ⟨first, _, rfl, upper, matches_takeWhile _ _⟩
      split at here
      · rename_i lower
        cases here
        obtain ⟨shape, matched⟩ := nameAt_matches first rest lower
        rw [shape]
        exact matched
      split at here
      · rename_i isDigit
        cases here
        exact dateOrNumberAt_matches (first :: rest) isDigit
      split at here
      · rename_i signed
        obtain ⟨unsigned, unsignedHere, rfl⟩ := Option.map_eq_some_iff.1 here
        exact signed_matches first rest unsigned signed unsignedHere
      · exact symbolAt_matches first rest found here

/-- The match stands at the front of the text, and no shape matches a longer front. -/
structure IsLongest (found : Match) (text : Text) : Prop where
  whole : found.text ++ found.rest = text
  matched : found.shape.pattern.Matches found.text
  maximal : ∀ (shape : Shape) (front back : Text), front ++ back = text →
    shape.pattern.Matches front → front.length ≤ found.text.length

theorem longest?_isLongest (text : Text) (found : Match) (here : longest? text = Option.some found) :
    IsLongest found text where
  whole := (longest?_splits text found here).2
  matched := longest?_matches text found here
  maximal := by
    intro shape front back whole matched
    obtain ⟨other, otherHere, covers⟩ := longest?_covers shape front back matched
    rw [whole, here] at otherHere
    cases otherHere
    exact covers.1.length_le

theorem longest?_eq_some_iff (text : Text) (found : Match) :
    longest? text = Option.some found ↔ IsLongest found text := by
  constructor
  · exact longest?_isLongest text found
  · intro longest
    obtain ⟨other, otherHere, covers⟩ := longest?_covers _ _ found.rest longest.matched
    rw [longest.whole] at otherHere
    have otherLongest := longest?_isLongest text other otherHere
    have noLonger := longest.maximal _ _ _ otherLongest.whole otherLongest.matched
    have sameText : found.text = other.text := covers.1.eq_of_length_le noLonger
    have sameShape := covers.2 sameText.symm
    have sameWhole : found.text ++ found.rest = found.text ++ other.rest := by
      rw [longest.whole, sameText, otherLongest.whole]
    have sameRest : found.rest = other.rest := List.append_cancel_left sameWhole
    rw [otherHere]
    cases found
    cases other
    cases sameText
    cases sameShape
    cases sameRest
    rfl

theorem longest?_eq_none_iff (text : Text) :
    longest? text = none ↔
      ∀ (shape : Shape) (front back : Text), front ++ back = text → ¬ shape.pattern.Matches front := by
  constructor
  · intro missing shape front back whole matched
    obtain ⟨found, here, _⟩ := longest?_covers shape front back matched
    rw [whole, missing] at here
    cases here
  · intro unmatched
    cases here : longest? text with
    | none => rfl
    | some found =>
        have longest := longest?_isLongest text found here
        exact absurd longest.matched (unmatched _ _ _ longest.whole)

theorem matches_ne_nil (shape : Shape) (text : Text) (matched : shape.pattern.Matches text) :
    text ≠ [] := by
  rintro rfl
  obtain ⟨found, here, _⟩ := longest?_covers shape [] [] matched
  cases here

theorem shape_unique (left right : Shape) (text : Text) (leftMatched : left.pattern.Matches text)
    (rightMatched : right.pattern.Matches text) : left = right := by
  have alone (shape : Shape) (matched : shape.pattern.Matches text) :
      longest? text = Option.some ⟨shape, text, []⟩ := by
    refine (longest?_eq_some_iff text _).2 ⟨List.append_nil text, matched, ?_⟩
    intro other front back whole _
    rw [← whole, List.length_append]
    exact Nat.le_add_right _ _
  have same := (alone left leftMatched).symm.trans (alone right rightMatched)
  cases same
  rfl

end Shape

end LedgerLexer
