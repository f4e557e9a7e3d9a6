/-
Which texts the reader of dates accepts. Of any text it takes three counts in four, two and
two places, between equal separators, that name a day of the calendar; a plus sign may fill
the first place of a count. A text of the date shape has no plus sign, so the reader accepts
it exactly when it writes a day of the calendar in digits.
-/

import LedgerLexer.Date.Reader
import LedgerLexer.Proofs.Numerals

namespace LedgerLexer

structure IsField (width : Nat) (field : Text) : Prop where
  length : field.length = width
  digits : field.all Char.isDigit = true

/-- The text names the year, the month and the day in fields of four, two and two digits,
with the same separator twice. -/
inductive WritesDay : Text → Nat → Nat → Nat → Prop where
  | fields {year month day : Text} {separator : Char} (separates : separator ∈ ['-', '/'])
      (yearField : IsField 4 year) (monthField : IsField 2 month) (dayField : IsField 2 day) :
      WritesDay (year ++ separator :: (month ++ separator :: day)) (Nat.ofDigitChars 10 year 0)
        (Nat.ofDigitChars 10 month 0) (Nat.ofDigitChars 10 day 0)

/-- What belongs to a date: four digits and a separator, optionally the digits of a month,
and behind at least one of them optionally one more separator and the digits of a day. -/
inductive IsDateText : Text → Prop where
  | month {year month : Text} {separator : Char} (separates : separator ∈ ['-', '/'])
      (yearField : IsField 4 year) (monthDigits : month.all Char.isDigit = true) :
      IsDateText (year ++ separator :: month)
  | day {year month day : Text} {separator second : Char} (separates : separator ∈ ['-', '/'])
      (separatesToo : second ∈ ['-', '/']) (yearField : IsField 4 year)
      (monthDigits : month.all Char.isDigit = true) (monthPresent : month ≠ [])
      (dayDigits : day.all Char.isDigit = true) :
      IsDateText (year ++ separator :: (month ++ second :: day))

/-- A count in so many places: digits, or a plus sign and digits behind it. -/
inductive WritesCount (width : Nat) : Text → Nat → Prop where
  | digits {field : Text} (present : field ≠ []) (isField : IsField width field) :
      WritesCount width field (Nat.ofDigitChars 10 field 0)
  | signed {digits : Text} (present : digits ≠ []) (accepted : digits.all Char.isDigit = true)
      (length : digits.length + 1 = width) :
      WritesCount width ('+' :: digits) (Nat.ofDigitChars 10 digits 0)

inductive WritesCounts : Text → Nat → Nat → Nat → Prop where
  | fields {year month day : Text} {separator : Char} {yearNumber monthNumber dayNumber : Nat}
      (separates : separator ∈ ['-', '/']) (yearCount : WritesCount 4 year yearNumber)
      (monthCount : WritesCount 2 month monthNumber) (dayCount : WritesCount 2 day dayNumber) :
      WritesCounts (year ++ separator :: (month ++ separator :: day))
        yearNumber monthNumber dayNumber

theorem isDateSeparator_iff (char : Char) : isDateSeparator char = true ↔ char ∈ ['-', '/'] := by
  simp [isDateSeparator]

private theorem IsField.ne_nil {width : Nat} {field : Text} (isField : IsField (width + 1) field) :
    field ≠ [] := by
  intro empty
  have length := isField.length
  rw [empty] at length
  cases length

theorem WritesDay.length {text : Text} {year month day : Nat}
    (writes : WritesDay text year month day) : text.length = 10 := by
  cases writes with
  | fields separates yearField monthField dayField =>
      simp [yearField.length, monthField.length, dayField.length]

private theorem WritesDay.year_lt {text : Text} {year month day : Nat}
    (writes : WritesDay text year month day) : year < 10000 := by
  cases writes with
  | @fields year month day separator separates yearField monthField dayField =>
      have bound := digitsValue_lt year yearField.digits
      rw [yearField.length] at bound
      exact bound

/-! ### Plus signs -/

private theorem no_plus_of_digits (digits : Text) (accepted : digits.all Char.isDigit = true) :
    '+' ∉ digits :=
  fun member => absurd (List.all_eq_true.1 accepted '+' member) (by decide)

private theorem ne_plus_of_separates (separator : Char) (separates : separator ∈ ['-', '/']) :
    '+' ≠ separator := by
  rintro rfl
  exact absurd separates (by decide)

private theorem WritesCount.isField_of_no_plus {width number : Nat} {field : Text}
    (writes : WritesCount width field number) (noPlus : '+' ∉ field) :
    IsField width field ∧ number = Nat.ofDigitChars 10 field 0 := by
  cases writes with
  | digits present isField => exact ⟨isField, rfl⟩
  | signed present accepted length => exact absurd (List.mem_cons_self ..) noPlus

/-- Days are written in digits where no count has a plus sign. -/
theorem writesDay_iff (text : Text) (year month day : Nat) :
    WritesDay text year month day ↔ WritesCounts text year month day ∧ '+' ∉ text := by
  constructor
  · intro writes
    cases writes with
    | @fields year month day separator separates yearField monthField dayField =>
        refine ⟨.fields separates (.digits yearField.ne_nil yearField)
          (.digits monthField.ne_nil monthField) (.digits dayField.ne_nil dayField), ?_⟩
        simp only [List.mem_append, List.mem_cons, not_or]
        exact ⟨no_plus_of_digits year yearField.digits, ne_plus_of_separates separator separates,
          no_plus_of_digits month monthField.digits, ne_plus_of_separates separator separates,
          no_plus_of_digits day dayField.digits⟩
  · rintro ⟨writes, noPlus⟩
    cases writes with
    | fields separates yearCount monthCount dayCount =>
        simp only [List.mem_append, List.mem_cons, not_or] at noPlus
        obtain ⟨noPlusYear, _, noPlusMonth, _, noPlusDay⟩ := noPlus
        obtain ⟨yearField, rfl⟩ := yearCount.isField_of_no_plus noPlusYear
        obtain ⟨monthField, rfl⟩ := monthCount.isField_of_no_plus noPlusMonth
        obtain ⟨dayField, rfl⟩ := dayCount.isField_of_no_plus noPlusDay
        exact .fields separates yearField monthField dayField

theorem IsDateText.no_plus {text : Text} (shaped : IsDateText text) : '+' ∉ text := by
  cases shaped with
  | @month year month separator separates yearField monthDigits =>
      simp only [List.mem_append, List.mem_cons, not_or]
      exact ⟨no_plus_of_digits year yearField.digits, ne_plus_of_separates separator separates,
        no_plus_of_digits month monthDigits⟩
  | @day year month day separator second separates separatesToo yearField monthDigits _ dayDigits =>
      simp only [List.mem_append, List.mem_cons, not_or]
      exact ⟨no_plus_of_digits year yearField.digits, ne_plus_of_separates separator separates,
        no_plus_of_digits month monthDigits, ne_plus_of_separates second separatesToo,
        no_plus_of_digits day dayDigits⟩

theorem isDateText_of_writesDay {text : Text} {year month day : Nat}
    (writes : WritesDay text year month day) : IsDateText text := by
  cases writes with
  | fields separates yearField monthField dayField =>
      exact .day separates separates yearField monthField.digits monthField.ne_nil dayField.digits

def IsUnseparated (field : Text) : Prop :=
  ∀ char ∈ field, isDateSeparator char = false

private theorem isUnseparated_of_digits (digits : Text)
    (accepted : digits.all Char.isDigit = true) : IsUnseparated digits := by
  intro char member
  have digit := List.all_eq_true.1 accepted char member
  apply Bool.eq_false_iff.2
  intro separates
  rw [Shape.isDigit_of_isDateSeparator char separates] at digit
  cases digit

private theorem WritesCount.isUnseparated {width number : Nat} {field : Text}
    (writes : WritesCount width field number) : IsUnseparated field := by
  cases writes with
  | digits present isField => exact isUnseparated_of_digits field isField.digits
  | signed present accepted length =>
      intro char member
      rcases List.mem_cons.1 member with rfl | later
      · rfl
      · exact isUnseparated_of_digits _ accepted char later

private theorem WritesCount.ne_nil {width number : Nat} {field : Text}
    (writes : WritesCount width field number) : field ≠ [] := by
  cases writes with
  | digits present isField => exact present
  | signed present accepted length => exact List.cons_ne_nil _ _

private theorem isUnseparated_or_exists_separator (text : Text) :
    IsUnseparated text ∨ ∃ field separator rest, text = field ++ separator :: rest ∧
      IsUnseparated field ∧ isDateSeparator separator = true := by
  induction text with
  | nil => exact Or.inl (List.forall_mem_nil _)
  | cons char later ih =>
      cases separates : isDateSeparator char with
      | true => exact Or.inr ⟨[], char, later, rfl, List.forall_mem_nil _, separates⟩
      | false =>
          have longer (field : Text) (free : IsUnseparated field) :
              IsUnseparated (char :: field) := by
            intro other member
            rcases List.mem_cons.1 member with rfl | inField
            · exact separates
            · exact free other inField
          rcases ih with free | ⟨field, separator, rest, rfl, free, separatesToo⟩
          · exact Or.inl (longer later free)
          · exact Or.inr ⟨char :: field, separator, rest, rfl, longer field free, separatesToo⟩

private theorem splitOnP_last (field : Text) (free : IsUnseparated field) :
    field.splitOnP isDateSeparator = [field] :=
  List.splitOnP_eq_singleton free

private theorem splitOnP_field (field rest : Text) (separator : Char) (free : IsUnseparated field)
    (separates : isDateSeparator separator = true) :
    (field ++ separator :: rest).splitOnP isDateSeparator =
      field :: rest.splitOnP isDateSeparator :=
  List.splitOnP_append_cons_of_forall_mem free separator separates rest

private theorem exists_separator_of_splitOnP (text first second : Text) (later : List Text)
    (split : text.splitOnP isDateSeparator = first :: second :: later) :
    ∃ separator rest, text = first ++ separator :: rest ∧ IsUnseparated first ∧
      isDateSeparator separator = true ∧ rest.splitOnP isDateSeparator = second :: later := by
  rcases isUnseparated_or_exists_separator text with
    free | ⟨field, separator, rest, rfl, free, separates⟩
  · rw [splitOnP_last text free] at split
    cases split
  · rw [splitOnP_field field rest separator free separates] at split
    obtain ⟨rfl, others⟩ := List.cons.inj split
    exact ⟨separator, rest, rfl, free, separates, others⟩

private theorem isUnseparated_of_splitOnP (text only : Text)
    (split : text.splitOnP isDateSeparator = [only]) : text = only ∧ IsUnseparated only := by
  rcases isUnseparated_or_exists_separator text with
    free | ⟨field, separator, rest, rfl, free, separates⟩
  · rw [splitOnP_last text free] at split
    obtain rfl : text = only := List.singleton_inj.1 split
    exact ⟨rfl, free⟩
  · rw [splitOnP_field field rest separator free separates] at split
    exact absurd (List.cons.inj split).2 (List.splitOnP_ne_nil _ _)

private theorem filter_unseparated (field : Text) (free : IsUnseparated field) :
    field.filter isDateSeparator = [] := by
  rw [List.filter_eq_nil_iff]
  intro char member separates
  rw [free char member] at separates
  cases separates

/-! ### The reader -/

theorem writesCount_iff (width : Nat) (field : Text) (number : Nat) :
    WritesCount width field number ↔
      byteLength field = width ∧ readCount? field = some number := by
  constructor
  · intro writes
    cases writes with
    | digits present isField =>
        refine ⟨?_, (readCount?_eq_some_iff _ _).2
          ⟨field, Or.inl rfl, present, isField.digits, rfl⟩⟩
        rw [byteLength_of_digits field isField.digits, isField.length]
    | @signed digits present accepted length =>
        refine ⟨?_, (readCount?_eq_some_iff _ _).2
          ⟨digits, Or.inr rfl, present, accepted, rfl⟩⟩
        rw [byteLength, byteLength_of_digits digits accepted, ← length, Nat.add_comm]
        rfl
  · rintro ⟨bytes, read⟩
    obtain ⟨digits, written, present, accepted, rfl⟩ := (readCount?_eq_some_iff _ _).1 read
    rcases written with rfl | rfl
    · rw [byteLength_of_digits field accepted] at bytes
      exact .digits present ⟨bytes, accepted⟩
    · rw [byteLength, byteLength_of_digits digits accepted, Nat.add_comm] at bytes
      exact .signed present accepted bytes

namespace Date

theorem ofCounts_eq_ok_iff (year month day : Nat) (date : Date) :
    ofCounts year month day = .ok date ↔
      date.year = year ∧ date.month = month ∧ date.day = day := by
  constructor
  · intro ok
    unfold ofCounts ofNumbers? at ok
    split at ok
    · split at ok
      · rename_i found
        cases ok
        split at found
        · cases found
          exact ⟨rfl, rfl, rfl⟩
        · cases found
      · cases ok
    · cases ok
  · rintro ⟨rfl, rfl, rfl⟩
    rw [ofCounts, if_pos date.valid.monthBound, ofNumbers?, dif_pos date.valid]

theorem ofFields_eq_ok_iff (year month day : Text) (date : Date) :
    ofFields year month day = .ok date ↔ WritesCount 4 year date.year ∧
      WritesCount 2 month date.month ∧ WritesCount 2 day date.day := by
  simp only [writesCount_iff]
  constructor
  · intro ok
    unfold ofFields at ok
    split at ok
    · cases ok
    rename_i yearWidth
    split at ok
    · cases ok
    rename_i monthWidth
    split at ok
    · cases ok
    rename_i dayWidth
    split at ok
    · rename_i yearNumber monthNumber dayNumber yearRead monthRead dayRead
      obtain ⟨rfl, rfl, rfl⟩ := (ofCounts_eq_ok_iff _ _ _ date).1 ok
      exact ⟨⟨Classical.not_not.1 yearWidth, yearRead⟩, ⟨Classical.not_not.1 monthWidth, monthRead⟩,
        Classical.not_not.1 dayWidth, dayRead⟩
    · cases ok
  · rintro ⟨⟨yearWidth, yearRead⟩, ⟨monthWidth, monthRead⟩, dayWidth, dayRead⟩
    rw [ofFields, if_neg (Classical.not_not.2 yearWidth), if_neg (Classical.not_not.2 monthWidth),
      if_neg (Classical.not_not.2 dayWidth), yearRead, monthRead, dayRead]
    exact (ofCounts_eq_ok_iff _ _ _ date).2 ⟨rfl, rfl, rfl⟩

private theorem read_fields (year month day : Text) (separator second : Char)
    (separates : isDateSeparator separator = true) (separatesToo : isDateSeparator second = true)
    (yearFree : IsUnseparated year) (monthFree : IsUnseparated month)
    (dayFree : IsUnseparated day) :
    read (year ++ separator :: (month ++ second :: day)) =
      if month.isEmpty || day.isEmpty then .error .incomplete
      else if separator ≠ second then .error .mixedSeparators
      else ofFields year month day := by
  have separators : (year ++ separator :: (month ++ second :: day)).filter isDateSeparator =
      [separator, second] := by
    simp [filter_unseparated, yearFree, monthFree, dayFree, separates, separatesToo]
  rw [read, splitOnP_field year _ separator yearFree separates,
    splitOnP_field month _ second monthFree separatesToo, splitOnP_last day dayFree]
  simp [sameSeparators, separators]

private theorem exists_fields_of_read (text : Text) (date : Date) (ok : read text = .ok date) :
    ∃ year month day separator second, text = year ++ separator :: (month ++ second :: day) ∧
      isDateSeparator separator = true ∧ isDateSeparator second = true ∧
      IsUnseparated year ∧ IsUnseparated month ∧ IsUnseparated day := by
  unfold read at ok
  split at ok
  · rename_i year month day split
    obtain ⟨separator, rest, rfl, yearFree, separates, others⟩ :=
      exists_separator_of_splitOnP text year month [day] split
    obtain ⟨second, last, rfl, monthFree, separatesToo, only⟩ :=
      exists_separator_of_splitOnP rest month day [] others
    obtain ⟨rfl, dayFree⟩ := isUnseparated_of_splitOnP last day only
    exact ⟨year, month, last, separator, second, rfl, separates, separatesToo, yearFree, monthFree,
      dayFree⟩
  · cases ok
  · cases ok

/-- The reader accepts three counts between equal separators when they are a day of the
calendar, and no other text. -/
theorem read_eq_ok_iff_writesCounts (text : Text) (date : Date) :
    read text = .ok date ↔ WritesCounts text date.year date.month date.day := by
  constructor
  · intro ok
    obtain ⟨year, month, day, separator, second, rfl, separates, separatesToo, yearFree, monthFree,
      dayFree⟩ := exists_fields_of_read text date ok
    rw [read_fields _ _ _ _ _ separates separatesToo yearFree monthFree dayFree] at ok
    split at ok
    · cases ok
    split at ok
    · cases ok
    rename_i sameSeparator
    obtain rfl : separator = second := Classical.not_not.1 sameSeparator
    obtain ⟨yearCount, monthCount, dayCount⟩ := (ofFields_eq_ok_iff year month day date).1 ok
    exact .fields ((isDateSeparator_iff separator).1 separates) yearCount monthCount dayCount
  · intro writes
    cases writes with
    | @fields year month day separator _ _ _ separates yearCount monthCount dayCount =>
        have present : (month.isEmpty || day.isEmpty) = false := by
          simp [monthCount.ne_nil, dayCount.ne_nil]
        rw [← isDateSeparator_iff] at separates
        rw [read_fields _ _ _ _ _ separates separates yearCount.isUnseparated
          monthCount.isUnseparated dayCount.isUnseparated, present, if_neg Bool.false_ne_true,
          if_neg (fun differ => differ rfl)]
        exact (ofFields_eq_ok_iff year month day date).2 ⟨yearCount, monthCount, dayCount⟩

theorem read_eq_ok_iff (text : Text) (shaped : IsDateText text) (date : Date) :
    read text = .ok date ↔ WritesDay text date.year date.month date.day := by
  rw [read_eq_ok_iff_writesCounts, writesDay_iff]
  exact (and_iff_left shaped.no_plus).symm

/-- A year has a leap day when 4 divides it and 100 does not, or when 400 divides it. -/
def HasLeapDay (year : Nat) : Prop :=
  4 ∣ year ∧ ¬ 100 ∣ year ∨ 400 ∣ year

inductive MonthLength (year : Nat) : Nat → Nat → Prop where
  | long {month : Nat} (listed : month ∈ [1, 3, 5, 7, 8, 10, 12]) : MonthLength year month 31
  | short {month : Nat} (listed : month ∈ [4, 6, 9, 11]) : MonthLength year month 30
  | leapFebruary (leap : HasLeapDay year) : MonthLength year 2 29
  | february (noLeap : ¬ HasLeapDay year) : MonthLength year 2 28

def OnCalendar (year month day : Nat) : Prop :=
  ∃ length, MonthLength year month length ∧ 1 ≤ day ∧ day ≤ length

theorem isLeapYear_iff (year : Nat) : IsLeapYear year ↔ HasLeapDay year := by
  simp only [IsLeapYear, HasLeapDay, Nat.dvd_iff_mod_eq_zero]
  omega

theorem monthLength_iff (year month length : Nat) :
    MonthLength year month length ↔ IsMonth month ∧ daysInMonth year month = length := by
  constructor
  · intro lasts
    cases lasts with
    | long listed =>
        simp only [List.mem_cons, List.not_mem_nil, or_false] at listed
        rcases listed with rfl | rfl | rfl | rfl | rfl | rfl | rfl
        all_goals exact ⟨by decide, rfl⟩
    | short listed =>
        simp only [List.mem_cons, List.not_mem_nil, or_false] at listed
        rcases listed with rfl | rfl | rfl | rfl
        all_goals exact ⟨by decide, rfl⟩
    | leapFebruary leap => exact ⟨by decide, if_pos ((isLeapYear_iff year).2 leap)⟩
    | february noLeap => exact ⟨by decide, if_neg (mt (isLeapYear_iff year).1 noLeap)⟩
  · rintro ⟨⟨atLeastOne, atMostTwelve⟩, rfl⟩
    match month with
    | 1 | 3 | 5 | 7 | 8 | 10 | 12 => exact .long (by decide)
    | 4 | 6 | 9 | 11 => exact .short (by decide)
    | 2 =>
        rw [daysInMonth]
        split
        · rename_i leap
          exact .leapFebruary ((isLeapYear_iff year).1 leap)
        · rename_i noLeap
          exact .february (mt (isLeapYear_iff year).2 noLeap)

theorem onCalendar_iff (year month day : Nat) :
    OnCalendar year month day ↔ IsMonth month ∧ 1 ≤ day ∧ day ≤ daysInMonth year month := by
  simp only [OnCalendar, monthLength_iff]
  constructor
  · rintro ⟨_, ⟨isMonth, rfl⟩, bounds⟩
    exact ⟨isMonth, bounds⟩
  · rintro ⟨isMonth, bounds⟩
    exact ⟨_, ⟨isMonth, rfl⟩, bounds⟩

/-- A text of the date shape has a date exactly when it writes a day of the calendar. -/
theorem exists_read_iff (text : Text) (shaped : IsDateText text) (year month day : Nat) :
    (∃ date, read text = .ok date ∧ date.year = year ∧ date.month = month ∧ date.day = day) ↔
      WritesDay text year month day ∧ OnCalendar year month day := by
  rw [onCalendar_iff]
  constructor
  · rintro ⟨date, ok, rfl, rfl, rfl⟩
    have valid := date.valid
    exact ⟨(read_eq_ok_iff text shaped date).1 ok, valid.monthBound, valid.dayPositive,
      valid.dayBound⟩
  · rintro ⟨writes, isMonth, dayPositive, dayBound⟩
    let date : Date := ⟨year, month, day, writes.year_lt, isMonth, dayPositive, dayBound⟩
    exact ⟨date, (read_eq_ok_iff text shaped date).2 writes, rfl, rfl, rfl⟩

end Date

end LedgerLexer
