/-
Which texts the reader of decimals accepts, and what it makes of them. A number is written
with one sign or none, with an integer part that is plain or grouped in threes, and with a
point and digits behind it or without them. All texts of this form are read exactly as long
as the decimal format holds them, and no other text is.
-/

import LedgerLexer.Proofs.DecimalSpelling

namespace LedgerLexer

structure WrittenNumber where
  sign : Text
  first : Text
  others : List Text
  fraction : Text
  signed : IsSignText sign
  grouping : IsGrouping first others
  pointed : IsFractionText fraction

namespace WrittenNumber

variable (written : WrittenNumber)

def text : Text :=
  written.sign ++ (withCommas written.first written.others ++ written.fraction)

/-- Nothing of the point itself, and nothing when there is no point. -/
def fractionDigits : Text :=
  written.fraction.drop 1

def wholeDigits : Text :=
  written.first ++ written.others.flatten

def digits : Text :=
  written.wholeDigits ++ written.fractionDigits

def places : Nat :=
  written.fractionDigits.length

/-- The decimal has the digits and the places of the written number, and its sign. -/
structure Denotes (number : Decimal) : Prop where
  coefficient : number.coefficient = digitsValue written.digits
  scale : number.scale = written.places
  negative : number.negative = true ↔ written.text.head? = some '-'

private theorem read_text :
    Decimal.read written.text =
      Decimal.ofDigits (written.sign == ['-']) written.wholeDigits written.fractionDigits :=
  written.grouping.read_number written.signed written.pointed

private theorem head?_text : written.text.head? = some '-' ↔ (written.sign == ['-']) = true := by
  obtain ⟨digit, more, front⟩ := List.exists_cons_of_ne_nil written.grouping.nonempty
  have isDigit : digit.isDigit = true := by
    have digits := written.grouping.first_isDigit
    rw [front, List.all_cons, Bool.and_eq_true] at digits
    exact digits.1
  have negative := (written.signed.read_sign digit
    (withCommas more written.others ++ written.fraction) isDigit).1
  rw [← List.cons_append, ← withCommas_cons_digit, ← front] at negative
  rw [← negative, beq_iff_eq]
  rfl

end WrittenNumber

theorem Decimal.ofDigits_eq_ok_iff (negative : Bool) (whole fraction : Text) (number : Decimal) :
    Decimal.ofDigits negative whole fraction = .ok number ↔
      (digitsValue (whole ++ fraction) < coefficientBound ∧ fraction.length ≤ scaleBound) ∧
        number.coefficient = digitsValue (whole ++ fraction) ∧ number.scale = fraction.length ∧
        number.negative = negative := by
  have atMost := digitsValue_le_append whole fraction
  constructor
  · intro read
    unfold ofDigits at read
    split at read
    · cases read
    · split at read
      · rename_i fits
        cases read
        exact ⟨fits, rfl, rfl, rfl⟩
      · cases read
  · rintro ⟨fits, coefficient, scale, sign⟩
    have wholeFits : ¬ coefficientBound ≤ digitsValue whole :=
      Nat.not_le_of_lt (Nat.lt_of_le_of_lt atMost fits.1)
    rw [ofDigits, if_neg wholeFits, dif_pos fits]
    obtain ⟨_, _, _, _, _⟩ := number
    simp_all

private theorem exists_sign (text : Text) :
    ∃ sign, IsSignText sign ∧ text = sign ++ withoutSign text := by
  unfold withoutSign
  split
  · rename_i first rest
    split
    · rename_i isSignChar
      exact ⟨[first], Or.inr ⟨first, rfl, isSignChar⟩, rfl⟩
    · exact ⟨[], Or.inl rfl, rfl⟩
  · exact ⟨[], Or.inl rfl, rfl⟩

private theorem exists_fraction (text : Text) (digits : (afterPoint text).all Char.isDigit = true) :
    ∃ fraction, IsFractionText fraction ∧ text = beforePoint text ++ fraction := by
  refine ⟨text.dropWhile (· != '.'), ?_, List.takeWhile_append_dropWhile.symm⟩
  rw [afterPoint] at digits
  cases pointed : text.dropWhile (· != '.') with
  | nil => exact Or.inl rfl
  | cons point rest =>
      have isPoint : point = '.' := by
        have stopped := List.head?_dropWhile_not (· != '.') text
        rw [pointed] at stopped
        simpa using stopped
      rw [pointed] at digits
      exact Or.inr ⟨rest, by rw [isPoint], digits⟩

private theorem mem_withCommas (first : Text) (others : List Text) (group : Text) (char : Char)
    (member : group ∈ first :: others) (inGroup : char ∈ group) :
    char ∈ withCommas first others := by
  rw [withCommas_eq_append, List.mem_append, List.mem_flatMap]
  rcases List.mem_cons.1 member with rfl | later
  · exact Or.inl inGroup
  · exact Or.inr ⟨group, later, List.mem_cons_of_mem _ inGroup⟩

private theorem isGrouping_of_bytes (first : Text) (others : List Text)
    (digits : ∀ group ∈ first :: others, group.all Char.isDigit = true)
    (firstBytes : 1 ≤ byteLength first ∧ byteLength first ≤ 3)
    (otherBytes : ∀ group ∈ others, byteLength group = 3) : IsGrouping first others where
  nonempty := by
    rintro rfl
    exact absurd firstBytes.1 (by decide)
  digits := by
    rw [← List.flatten_cons, List.all_eq_true]
    intro char member
    obtain ⟨group, inGroups, inGroup⟩ := List.mem_flatten.1 member
    exact List.all_eq_true.1 (digits group inGroups) char inGroup
  threes := by
    intro _
    have length (group : Text) (member : group ∈ first :: others) :
        group.length = byteLength group := (byteLength_of_digits group (digits group member)).symm
    refine ⟨?_, fun group member => ?_⟩
    · rw [length first (List.mem_cons_self ..)]
      exact firstBytes.2
    · rw [length group (List.mem_cons_of_mem _ member), otherBytes group member]

private theorem exists_grouping_of_whole (whole : Text) (nonempty : whole ≠ [])
    (characters : whole.all (fun char => char.isDigit || char == ',') = true)
    (threes : whole.contains ',' = true → groupedByThrees whole = true) :
    ∃ first others, whole = withCommas first others ∧ IsGrouping first others := by
  obtain ⟨first, others, parts⟩ := List.exists_cons_of_ne_nil (List.splitOn_ne_nil ',' whole)
  have joined : withCommas first others = whole := by
    rw [withCommas, ← parts]
    exact List.intercalate_splitOn ','
  have digits : ∀ group ∈ first :: others, group.all Char.isDigit = true := by
    intro group member
    rw [List.all_eq_true]
    intro char inGroup
    have inWhole := mem_withCommas first others group char member inGroup
    rw [joined] at inWhole
    have either := List.all_eq_true.1 characters char inWhole
    rw [Bool.or_eq_true, beq_iff_eq] at either
    refine either.resolve_right ?_
    rintro rfl
    rw [← parts] at member
    exact not_mem_of_mem_splitOn ',' whole group member inGroup
  refine ⟨first, others, joined.symm, ?_⟩
  cases others with
  | nil =>
      have alone : first = whole := by
        rwa [withCommas, List.intercalate_singleton] at joined
      refine ⟨alone ▸ nonempty, ?_, fun several => absurd rfl several⟩
      rw [List.flatten_nil, List.append_nil]
      exact digits first (List.mem_cons_self ..)
  | cons second later =>
      have comma : whole.contains ',' = true := by
        rw [← joined, withCommas_eq_append, List.contains_iff_mem]
        simp
      have bytes := threes comma
      rw [groupedByThrees, parts, Bool.and_eq_true, decide_eq_true_iff, List.all_eq_true] at bytes
      exact isGrouping_of_bytes first (second :: later) digits bytes.1
        (fun group member => eq_of_beq (bytes.2 group member))

namespace Decimal

private theorem parts_of_ofParts (negative : Bool) (whole fraction : Text) (number : Decimal)
    (read : ofParts negative whole fraction = .ok number) :
    whole ≠ [] ∧ (whole.contains ',' = true → groupedByThrees whole = true) ∧
      whole.all (fun char => char.isDigit || char == ',') = true ∧
      fraction.all Char.isDigit = true := by
  unfold ofParts at read
  split at read
  · cases read
  · split at read
    · cases read
    · rename_i present
      split at read
      · cases read
      · rename_i grouped
        split at read
        · cases read
        · rename_i digits
          refine ⟨fun empty => present (by rw [empty]; rfl), ?_, ?_⟩
          · simpa using grouped
          · simp only [Bool.not_eq_true, Bool.not_eq_false', Bool.and_eq_true] at digits
            exact digits

private theorem exists_written_of_read (text : Text) (number : Decimal)
    (ok : read text = .ok number) : ∃ written : WrittenNumber, written.text = text := by
  obtain ⟨nonempty, threes, characters, fractionDigits⟩ := parts_of_ofParts _ _ _ _ ok
  obtain ⟨sign, signed, signText⟩ := exists_sign text
  obtain ⟨fraction, pointed, unsigned⟩ := exists_fraction (withoutSign text) fractionDigits
  obtain ⟨first, others, whole, grouping⟩ :=
    exists_grouping_of_whole _ nonempty characters threes
  refine ⟨⟨sign, first, others, fraction, signed, grouping, pointed⟩, ?_⟩
  rw [whole] at unsigned
  rw [signText, unsigned]
  rfl

/-- A written number is read as the decimal that it denotes, if there is one. -/
theorem read_written_iff (written : WrittenNumber) (number : Decimal) :
    read written.text = .ok number ↔ written.Denotes number := by
  rw [written.read_text, ofDigits_eq_ok_iff]
  constructor
  · rintro ⟨_, coefficient, scale, negative⟩
    exact ⟨coefficient, scale, by rw [written.head?_text, negative]⟩
  · intro denotes
    have fits := number.coefficient_lt
    have places := number.scale_le
    rw [denotes.coefficient] at fits
    rw [denotes.scale] at places
    refine ⟨⟨fits, places⟩, denotes.coefficient, denotes.scale, ?_⟩
    rw [Bool.eq_iff_iff, denotes.negative, written.head?_text]

/-- Reading accepts a text exactly when it is a written number with no more than 28 places,
and with digits that make no more than 96 bits. What it yields has all of the digits, and so
is never rounded, it has the places of the text, and it has the sign, of a zero too. -/
theorem read_is_exact (text : Text) :
    ((∃ number, read text = .ok number) ↔
      ∃ written : WrittenNumber, written.text = text ∧ written.places ≤ 28 ∧
        digitsValue written.digits ≤ Nat.pow 2 96 - 1) ∧
    ∀ number, read text = .ok number →
      ∀ written : WrittenNumber, written.text = text →
        number.coefficient = digitsValue written.digits ∧ number.scale = written.places ∧
        (number.negative = true ↔ text.head? = some '-') := by
  have bound : coefficientBound = Nat.pow 2 96 := by decide
  refine ⟨⟨?_, ?_⟩, ?_⟩
  · rintro ⟨number, ok⟩
    obtain ⟨written, rfl⟩ := exists_written_of_read text number ok
    have denotes := (read_written_iff written number).1 ok
    have fits := number.coefficient_lt
    rw [denotes.coefficient, bound] at fits
    exact ⟨written, rfl, denotes.scale ▸ number.scale_le, Nat.le_sub_one_of_lt fits⟩
  · rintro ⟨written, rfl, places, digits⟩
    have fits : digitsValue written.digits < coefficientBound := by
      rw [bound]
      exact Nat.lt_of_le_sub_one (Nat.two_pow_pos 96) digits
    let number : Decimal :=
      ⟨written.text.head? == some '-', digitsValue written.digits, written.places, fits, places⟩
    exact ⟨number, (read_written_iff written number).2 ⟨rfl, rfl, beq_iff_eq⟩⟩
  · rintro number ok written rfl
    have denotes := (read_written_iff written number).1 ok
    exact ⟨denotes.coefficient, denotes.scale, denotes.negative⟩

/-- A grouped zero keeps its sign and its place. -/
theorem read_is_exact_negative_zero :
    let text : Text := ['-', '0', ',', '0', '0', '0', '.', '0']
    let zero : Decimal := ⟨true, 0, 1, by decide, by decide⟩
    let written : WrittenNumber :=
      { sign := ['-']
        first := ['0']
        others := [['0', '0', '0']]
        fraction := ['.', '0']
        signed := Or.inr ⟨'-', rfl, rfl⟩
        grouping := ⟨List.cons_ne_nil _ _, rfl, fun _ => ⟨by decide, by decide⟩⟩
        pointed := Or.inr ⟨['0'], rfl, rfl⟩ }
    read text = .ok zero ∧ written.text = text ∧
      zero.coefficient = digitsValue written.digits ∧ zero.scale = written.places ∧
      (zero.negative = true ↔ text.head? = some '-') := by
  intro text zero written
  have ok : read text = .ok zero := rfl
  exact ⟨ok, rfl, (read_is_exact text).2 zero ok written rfl⟩

end Decimal

end LedgerLexer
