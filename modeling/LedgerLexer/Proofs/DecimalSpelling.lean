/-
Decimals written out and read back. An integer part is a first group of digits and, each
behind a comma, groups of three; a number written with or without the commas is one match
and is read as the decimal that was written, with its sign, its coefficient and its scale.
-/

import LedgerLexer.Proofs.Numerals
import LedgerLexer.Proofs.PieceForms
import LedgerLexer.Proofs.Runs

namespace LedgerLexer

def IsSignText (sign : Text) : Prop :=
  sign = [] ∨ ∃ char, sign = [char] ∧ isSign char = true

/-- What may stand behind an integer part: nothing, or one point and digits. -/
def IsFractionText (fraction : Text) : Prop :=
  fraction = [] ∨ ∃ digits, fraction = '.' :: digits ∧ digits.all Char.isDigit = true

theorem IsSignText.read_sign {sign : Text} (signed : IsSignText sign) (digit : Char)
    (rest : Text) (isDigit : digit.isDigit = true) :
    ((sign ++ digit :: rest).head? == some '-') = (sign == ['-']) ∧
      withoutSign (sign ++ digit :: rest) = digit :: rest := by
  have notSign : isSign digit = false := by
    apply Bool.eq_false_iff.2
    intro signFirst
    rw [isSign, Bool.or_eq_true, beq_iff_eq, beq_iff_eq] at signFirst
    rcases signFirst with rfl | rfl <;> cases isDigit
  rcases signed with rfl | ⟨char, rfl, isSignChar⟩
  · have notMinus : digit ≠ '-' := by
      rintro rfl
      cases isDigit
    simp [withoutSign, notSign, notMinus]
  · simp [withoutSign, isSignChar]

private theorem IsFractionText.digits_behind {fraction : Text} (pointed : IsFractionText fraction) :
    (fraction.drop 1).all Char.isDigit = true := by
  rcases pointed with rfl | ⟨digits, rfl, accepted⟩
  · rfl
  · exact accepted

private theorem IsFractionText.split_at_point {fraction : Text} (pointed : IsFractionText fraction)
    (whole : Text) (noPoint : whole.all (· != '.') = true) :
    beforePoint (whole ++ fraction) = whole ∧ afterPoint (whole ++ fraction) = fraction.drop 1 := by
  rw [beforePoint, afterPoint, Shape.takeWhile_append_of_all _ _ _ noPoint,
    Shape.dropWhile_append_of_all _ _ _ noPoint]
  rcases pointed with rfl | ⟨digits, rfl, _⟩
  · simp
  · simp

/-- The digits of an integer part, in groups. There is one group alone, or all groups
have three digits and only the first may have fewer. -/
structure IsGrouping (first : Text) (others : List Text) : Prop where
  nonempty : first ≠ []
  digits : (first ++ others.flatten).all Char.isDigit = true
  threes : others ≠ [] → first.length ≤ 3 ∧ ∀ group ∈ others, group.length = 3

def withCommas (first : Text) (others : List Text) : Text :=
  [','].intercalate (first :: others)

theorem withCommas_eq_append (first : Text) (others : List Text) :
    withCommas first others = first ++ others.flatMap (',' :: ·) :=
  intercalate_cons ',' first others

theorem withCommas_cons_digit (digit : Char) (first : Text) (others : List Text) :
    withCommas (digit :: first) others = digit :: withCommas first others := by
  simp [withCommas_eq_append]

private theorem withCommas_cons_group (digit : Char) (first : Text) (others : List Text) :
    withCommas [digit] (first :: others) = digit :: ',' :: withCommas first others := by
  simp [withCommas, List.intercalate_cons_cons]

private theorem matches_commaGroups (groups : List Text)
    (digits : ∀ group ∈ groups, group ≠ [] ∧ group.all Char.isDigit = true) :
    (Pattern.many Shape.commaGroup).Matches (groups.flatMap (',' :: ·)) := by
  induction groups with
  | nil => exact .none
  | cons group later ih =>
      rw [List.forall_mem_cons] at digits
      have groupMatched : Shape.commaGroup.Matches (',' :: group) :=
        (Pattern.matches_char_sequence_iff _ _ _).2
          ⟨group, rfl, (Pattern.matches_some_oneOf_iff _ _).2 digits.1⟩
      exact .more groupMatched (ih digits.2)

namespace IsGrouping

variable {first : Text} {others : List Text}

theorem first_isDigit (grouping : IsGrouping first others) : first.all Char.isDigit = true := by
  have digits := grouping.digits
  rw [List.all_append, Bool.and_eq_true] at digits
  exact digits.1

private theorem group_isDigit (grouping : IsGrouping first others) (group : Text)
    (member : group ∈ first :: others) : group.all Char.isDigit = true := by
  rw [List.all_eq_true]
  intro char inGroup
  refine List.all_eq_true.1 grouping.digits char ?_
  rw [← List.flatten_cons]
  exact List.mem_flatten_of_mem member inGroup

private theorem length_of_mem (grouping : IsGrouping first others) (group : Text)
    (member : group ∈ others) : group.length = 3 :=
  (grouping.threes (List.ne_nil_of_mem member)).2 group member

private theorem char_of_withCommas (grouping : IsGrouping first others) (char : Char)
    (member : char ∈ withCommas first others) : char.isDigit = true ∨ char = ',' := by
  rw [withCommas_eq_append, List.mem_append, List.mem_flatMap] at member
  rcases member with inFirst | ⟨group, inOthers, inGroup⟩
  · exact Or.inl (List.all_eq_true.1 grouping.first_isDigit char inFirst)
  · rcases List.mem_cons.1 inGroup with comma | digit
    · exact Or.inr comma
    · have accepted := grouping.group_isDigit group (List.mem_cons_of_mem _ inOthers)
      exact Or.inl (List.all_eq_true.1 accepted char digit)

private theorem no_point (grouping : IsGrouping first others) :
    (withCommas first others).all (· != '.') = true := by
  refine List.all_eq_true.2 fun char member => bne_iff_ne.2 ?_
  rintro rfl
  rcases grouping.char_of_withCommas '.' member with isDigit | isComma
  · cases isDigit
  · cases isComma

private theorem splitOn_withCommas (grouping : IsGrouping first others) :
    (withCommas first others).splitOn ',' = first :: others := by
  refine List.splitOn_intercalate ',' ?_ (List.cons_ne_nil _ _)
  intro group member comma
  cases List.all_eq_true.1 (grouping.group_isDigit group member) ',' comma

private theorem groupedByThrees_withCommas (grouping : IsGrouping first others)
    (many : others ≠ []) : groupedByThrees (withCommas first others) = true := by
  have atMostThree := (grouping.threes many).1
  have positive := List.length_pos_iff.2 grouping.nonempty
  have firstBytes := byteLength_of_digits first grouping.first_isDigit
  rw [groupedByThrees, grouping.splitOn_withCommas, Bool.and_eq_true, decide_eq_true_iff,
    List.all_eq_true, firstBytes]
  refine ⟨⟨positive, atMostThree⟩, ?_⟩
  intro group member
  have bytes := byteLength_of_digits group
    (grouping.group_isDigit group (List.mem_cons_of_mem _ member))
  rw [bytes, grouping.length_of_mem group member]
  rfl

private theorem filter_withCommas (grouping : IsGrouping first others) :
    (withCommas first others).filter (· != ',') = first ++ others.flatten := by
  have kept (group : Text) (member : group ∈ first :: others) :
      group.filter (· != ',') = group := by
    refine List.filter_eq_self.2 fun char inGroup => bne_iff_ne.2 ?_
    rintro rfl
    cases List.all_eq_true.1 (grouping.group_isDigit group member) ',' inGroup
  have keptLater : ∀ groups : List Text, (∀ group ∈ groups, group ∈ first :: others) →
      (groups.flatMap (',' :: ·)).filter (· != ',') = groups.flatten := by
    intro groups among
    induction groups with
    | nil => rfl
    | cons group later ih =>
        rw [List.forall_mem_cons] at among
        simp [kept group among.1, ih among.2]
  rw [withCommas_eq_append, List.filter_append, kept first (List.mem_cons_self ..),
    keptLater others (fun _ member => List.mem_cons_of_mem _ member)]

private theorem matches_number (grouping : IsGrouping first others) {sign fraction : Text}
    (signed : IsSignText sign) (pointed : IsFractionText fraction) :
    Shape.number.pattern.Matches (sign ++ (withCommas first others ++ fraction)) := by
  have signMatched : Shape.sign.Matches sign :=
    (Pattern.matches_optional_iff _ _).2
      (signed.imp id fun isOne => (Pattern.matches_oneOf_iff _ _).2 isOne)
  have firstMatched : (Pattern.some Shape.digit).Matches first :=
    (Pattern.matches_some_oneOf_iff _ _).2 ⟨grouping.nonempty, grouping.first_isDigit⟩
  have othersMatched : (Pattern.many Shape.commaGroup).Matches (others.flatMap (',' :: ·)) := by
    apply matches_commaGroups
    intro group member
    refine ⟨?_, grouping.group_isDigit group (List.mem_cons_of_mem _ member)⟩
    rintro rfl
    cases grouping.length_of_mem [] member
  have pointMatched : (Pattern.many Shape.pointGroup).Matches fraction := by
    rcases pointed with rfl | ⟨digits, rfl, accepted⟩
    · exact .none
    · have group : Shape.pointGroup.Matches ('.' :: digits) :=
        (Pattern.matches_char_sequence_iff _ _ _).2
          ⟨digits, rfl, (Pattern.matches_many_oneOf_iff _ _).2 accepted⟩
      have whole := Pattern.Matches.more group .none
      rwa [List.append_nil] at whole
  rw [withCommas_eq_append, List.append_assoc]
  exact .sequence signMatched (.sequence firstMatched (.sequence othersMatched pointMatched))

private theorem ofParts_withCommas (grouping : IsGrouping first others) (negative : Bool)
    (fraction : Text) (fractionDigits : fraction.all Char.isDigit = true) :
    Decimal.ofParts negative (withCommas first others) fraction =
      Decimal.ofDigits negative (first ++ others.flatten) fraction := by
  have onePoint : fraction.contains '.' = false := by
    rw [List.contains_eq_mem, decide_eq_false_iff_not]
    intro point
    cases List.all_eq_true.1 fractionDigits '.' point
  have whole : (withCommas first others).isEmpty = false := by
    simp [withCommas_eq_append, grouping.nonempty]
  have grouped : ((withCommas first others).contains ',' &&
      !groupedByThrees (withCommas first others)) = false := by
    by_cases alone : others = []
    · have noComma : (withCommas first others).contains ',' = false := by
        rw [alone, withCommas, List.intercalate_singleton, List.contains_eq_mem,
          decide_eq_false_iff_not]
        intro comma
        cases List.all_eq_true.1 grouping.first_isDigit ',' comma
      rw [noComma]
      rfl
    · rw [grouping.groupedByThrees_withCommas alone, Bool.not_true, Bool.and_false]
  have characters : (withCommas first others).all
      (fun char => char.isDigit || char == ',') = true := by
    rw [List.all_eq_true]
    intro char member
    simpa using grouping.char_of_withCommas char member
  rw [Decimal.ofParts, onePoint, whole, grouped, characters, fractionDigits,
    grouping.filter_withCommas]
  rfl

theorem read_number (grouping : IsGrouping first others) {sign fraction : Text}
    (signed : IsSignText sign) (pointed : IsFractionText fraction) :
    Decimal.read (sign ++ (withCommas first others ++ fraction)) =
      Decimal.ofDigits (sign == ['-']) (first ++ others.flatten) (fraction.drop 1) := by
  obtain ⟨digit, more, rfl⟩ := List.exists_cons_of_ne_nil grouping.nonempty
  have isDigit : digit.isDigit = true :=
    List.all_eq_true.1 grouping.first_isDigit digit (List.mem_cons_self ..)
  obtain ⟨negative, unsigned⟩ :=
    signed.read_sign digit (withCommas more others ++ fraction) isDigit
  rw [← List.cons_append, ← withCommas_cons_digit] at negative unsigned
  obtain ⟨before, after⟩ := pointed.split_at_point _ grouping.no_point
  rw [Decimal.read, negative, unsigned, before, after,
    grouping.ofParts_withCommas _ _ pointed.digits_behind]

end IsGrouping

/-! ### Digits grouped from the right -/

private theorem groupDigits_cons_digit (digit : Char) (rest : Text) (room : rest.length % 3 ≠ 0) :
    groupDigits (digit :: rest) = digit :: groupDigits rest := by
  rw [groupDigits, if_neg (by simp [room])]

private theorem groupDigits_cons_group (digit : Char) (rest : Text) (nonempty : rest ≠ [])
    (full : rest.length % 3 = 0) :
    groupDigits (digit :: rest) = digit :: ',' :: groupDigits rest := by
  rw [groupDigits, if_pos (by simp [full, nonempty])]

private theorem IsGrouping.cons_digit {first : Text} {others : List Text}
    (grouping : IsGrouping first others) (room : first.length < 3) (digit : Char)
    (isDigit : digit.isDigit = true) : IsGrouping (digit :: first) others where
  nonempty := List.cons_ne_nil _ _
  digits := by
    rw [List.cons_append, List.all_cons, isDigit, grouping.digits]
    rfl
  threes _ := ⟨room, grouping.length_of_mem⟩

private theorem IsGrouping.cons_group {first : Text} {others : List Text}
    (grouping : IsGrouping first others) (full : first.length = 3) (digit : Char)
    (isDigit : digit.isDigit = true) : IsGrouping [digit] (first :: others) where
  nonempty := List.cons_ne_nil _ _
  digits := by
    rw [List.singleton_append, List.all_cons, isDigit, List.flatten_cons, grouping.digits]
    rfl
  threes _ := ⟨by simp, List.forall_mem_cons.2 ⟨full, grouping.length_of_mem⟩⟩

/-- A comma stands before every third digit from the right, so the length of the first
group is what is left of the number of digits. -/
theorem exists_grouping (digits : Text) (nonempty : digits ≠ [])
    (accepted : digits.all Char.isDigit = true) :
    ∃ first others, groupDigits digits = withCommas first others ∧
      first ++ others.flatten = digits ∧ first.length = (digits.length - 1) % 3 + 1 ∧
      IsGrouping first others := by
  induction digits with
  | nil => exact absurd rfl nonempty
  | cons digit rest ih =>
      have isDigit : digit.isDigit = true ∧ rest.all Char.isDigit = true := by
        rwa [List.all_cons, Bool.and_eq_true] at accepted
      by_cases alone : rest = []
      · subst alone
        refine ⟨[digit], [], rfl, rfl, rfl, List.cons_ne_nil _ _, accepted, ?_⟩
        exact fun several => absurd rfl several
      · obtain ⟨first, others, written, whole, length, grouping⟩ := ih alone isDigit.2
        have positive := List.length_pos_iff.2 alone
        by_cases full : rest.length % 3 = 0
        · refine ⟨[digit], first :: others, ?_, ?_, ?_,
            grouping.cons_group (by omega) digit isDigit.1⟩
          · rw [groupDigits_cons_group digit rest alone full, written, withCommas_cons_group]
          · rw [List.flatten_cons, whole]
            rfl
          · simp [full]
        · refine ⟨digit :: first, others, ?_, ?_, ?_,
            grouping.cons_digit (by omega) digit isDigit.1⟩
          · rw [groupDigits_cons_digit digit rest full, written, withCommas_cons_digit]
          · rw [List.cons_append, whole]
          · simp only [List.length_cons]
            omega

namespace Decimal

variable (number : Decimal)

/-- The decimal as it is printed, with commas in the integer part and with a plus sign
before it if they are asked for. -/
def spelling (grouped plus : Bool) : Text :=
  (if plus then ['+'] else []) ++ if grouped then number.groupedText else number.text

private theorem digits_length : number.scale + 1 ≤ number.digits.length := by
  rw [digits, paddedNumeral, List.length_leftpad]
  exact Nat.le_max_left _ _

private theorem wholeDigits_append_fractionDigits :
    number.wholeDigits ++ number.fractionDigits = number.digits :=
  List.take_append_drop _ _

private theorem wholeDigits_ne_nil : number.wholeDigits ≠ [] := by
  have enough := number.digits_length
  rw [← List.length_pos_iff, wholeDigits, List.length_take]
  omega

private theorem fractionDigits_length : number.fractionDigits.length = number.scale := by
  have enough := number.digits_length
  rw [fractionDigits, List.length_drop]
  omega

theorem parts_isDigit :
    number.wholeDigits.all Char.isDigit = true ∧ number.fractionDigits.all Char.isDigit = true := by
  have accepted : number.digits.all Char.isDigit = true := paddedNumeral_isDigit _ _
  rwa [← wholeDigits_append_fractionDigits, List.all_append, Bool.and_eq_true] at accepted

private theorem fractionText_drop : number.fractionText.drop 1 = number.fractionDigits := by
  unfold fractionText
  split
  · rename_i unscaled
    have length := number.fractionDigits_length
    rw [unscaled, List.length_eq_zero_iff] at length
    rw [length]
    rfl
  · rfl

private theorem isFractionText : IsFractionText number.fractionText := by
  unfold fractionText
  split
  · exact Or.inl rfl
  · exact Or.inr ⟨_, rfl, number.parts_isDigit.2⟩

private theorem ofDigits_parts :
    ofDigits number.negative number.wholeDigits number.fractionDigits = .ok number := by
  have value : digitsValue (number.wholeDigits ++ number.fractionDigits) = number.coefficient := by
    rw [wholeDigits_append_fractionDigits]
    exact digitsValue_paddedNumeral _ _
  have wholeFits : digitsValue number.wholeDigits < coefficientBound := by
    have atMost := digitsValue_le_append number.wholeDigits number.fractionDigits
    rw [value] at atMost
    exact Nat.lt_of_le_of_lt atMost number.coefficient_lt
  have fits : digitsValue (number.wholeDigits ++ number.fractionDigits) < coefficientBound ∧
      number.fractionDigits.length ≤ scaleBound := by
    rw [value, fractionDigits_length]
    exact ⟨number.coefficient_lt, number.scale_le⟩
  rw [ofDigits, if_neg (Nat.not_le_of_lt wholeFits), dif_pos fits]
  simp only [value, fractionDigits_length]

private theorem exists_whole_grouping (grouped : Bool) :
    ∃ first others,
      (if grouped then groupDigits number.wholeDigits else number.wholeDigits) =
        withCommas first others ∧
      first ++ others.flatten = number.wholeDigits ∧ IsGrouping first others := by
  have nonempty := number.wholeDigits_ne_nil
  have accepted := number.parts_isDigit.1
  cases grouped with
  | true =>
      obtain ⟨first, others, written, whole, _, grouping⟩ :=
        exists_grouping number.wholeDigits nonempty accepted
      exact ⟨first, others, written, whole, grouping⟩
  | false =>
      refine ⟨number.wholeDigits, [], ?_, List.append_nil _, nonempty, ?_, ?_⟩
      · simp [withCommas]
      · simpa using accepted
      · exact fun several => absurd rfl several

private theorem exists_parts (grouped plus : Bool)
    (noMinus : plus = true → number.negative = false) :
    ∃ sign first others,
      number.spelling grouped plus = sign ++ (withCommas first others ++ number.fractionText) ∧
      IsSignText sign ∧ (sign == ['-']) = number.negative ∧
      first ++ others.flatten = number.wholeDigits ∧ IsGrouping first others := by
  obtain ⟨first, others, written, whole, grouping⟩ := number.exists_whole_grouping grouped
  have signs : IsSignText ((if plus then ['+'] else []) ++ minusSign number.negative) ∧
      (((if plus then ['+'] else []) ++ minusSign number.negative) == ['-']) =
        number.negative := by
    cases plus with
    | true =>
        rw [noMinus rfl]
        exact ⟨Or.inr ⟨'+', rfl, rfl⟩, rfl⟩
    | false =>
        cases number.negative with
        | true => exact ⟨Or.inr ⟨'-', rfl, rfl⟩, rfl⟩
        | false => exact ⟨Or.inl rfl, rfl⟩
  refine ⟨_, first, others, ?_, signs.1, signs.2, whole, grouping⟩
  rw [← written]
  cases grouped <;> simp [spelling, text, groupedText]

theorem read_spelling (grouped plus : Bool) (noMinus : plus = true → number.negative = false) :
    read (number.spelling grouped plus) = .ok number := by
  obtain ⟨sign, first, others, written, signed, negative, whole, grouping⟩ :=
    number.exists_parts grouped plus noMinus
  rw [written, grouping.read_number signed number.isFractionText, negative, whole,
    fractionText_drop, ofDigits_parts]

private theorem spelling_matches (grouped plus : Bool)
    (noMinus : plus = true → number.negative = false) :
    Shape.number.pattern.Matches (number.spelling grouped plus) := by
  obtain ⟨sign, first, others, written, signed, _, _, grouping⟩ :=
    number.exists_parts grouped plus noMinus
  rw [written]
  exact grouping.matches_number signed number.isFractionText

end Decimal

/-! ### Written decimals in a session -/

private theorem Cut.next?_spelling (lines : Nat) (number : Decimal) (grouped plus : Bool)
    (noMinus : plus = true → number.negative = false) (rest : Text)
    (ends : meetsRunEnd rest = true) :
    next? lines (number.spelling grouped plus ++ rest) =
      some (token .number (some (.number number)) (number.spelling grouped plus) rest) := by
  have longest := Shape.longest?_before_runEnd .number _ rest
    (number.spelling_matches grouped plus noMinus) (by decide) (by decide) ends
  obtain ⟨first, later, _, here⟩ := next?_of_longest lines _ _ longest
  rw [here]
  change some (ofNumber _ rest) = _
  rw [ofNumber, number.read_spelling grouped plus noMinus]

namespace Session

/-- A decimal as it is printed, grouped or not and with a plus sign or not, is the first
token of a session, if a blank, a line end or the end of the input is behind it: its sign,
its coefficient and its scale are read back, and nothing is reported. -/
theorem pull_spelling (number : Decimal) (grouped plus : Bool)
    (noMinus : plus = true → number.negative = false) (rest : Text)
    (ends : meetsRunEnd rest = true) (options : Options) (firstLine : Nat) :
    (start (number.spelling grouped plus ++ rest) options firstLine).pull =
      ⟨some ⟨.number, firstLine, number.spelling grouped plus, some (.number number)⟩,
        midLine rest options firstLine⟩ :=
  pull_of_token_ahead options firstLine .number (some (.number number)) _ rest (by decide)
    (Cut.next?_spelling _ number grouped plus noMinus rest ends)

/-- A grouped decimal with a plus sign, and a zero that keeps its sign and its places. -/
theorem pull_spelling_signs :
    let price : Decimal := ⟨false, 123450, 2, by decide, by decide⟩
    let nothing : Decimal := ⟨true, 0, 2, by decide, by decide⟩
    let written := ['+', '1', ',', '2', '3', '4', '.', '5', '0']
    let zero := ['-', '0', '.', '0', '0']
    (start (written ++ ['\t', ';']) Options.standard 1).pull =
      ⟨some ⟨.number, 1, written, some (.number price)⟩,
        midLine ['\t', ';'] Options.standard 1⟩ ∧
    (start (zero ++ []) Options.standard 1).pull =
      ⟨some ⟨.number, 1, zero, some (.number nothing)⟩, midLine [] Options.standard 1⟩ := by
  intro price nothing written zero
  have writtenPrice : price.spelling true true = written := by decide
  have writtenZero : nothing.spelling true false = zero := by decide
  rw [← writtenPrice, ← writtenZero]
  exact ⟨pull_spelling price true true (fun _ => rfl) ['\t', ';'] rfl Options.standard 1,
    pull_spelling nothing true false nofun [] rfl Options.standard 1⟩

end Session

end LedgerLexer
