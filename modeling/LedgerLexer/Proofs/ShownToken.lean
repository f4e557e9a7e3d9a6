/-
The shown forms of tokens and errors. Each takes one line, and each can be read back: the
line number, the kind, the lexeme and the value of a token, and the line number and the
message of an error. The kind of an error is read off its message. A token and an error
differ in what follows the line number.
-/

import LedgerLexer.Display
import LedgerLexer.Proofs.DecimalSpelling
import LedgerLexer.Proofs.PieceValues
import LedgerLexer.Proofs.ShownText

namespace LedgerLexer

private theorem no_feed_of_all (accepted : Char → Bool) (text : Text)
    (all : text.all accepted = true) (refused : accepted '\n' = false) : '\n' ∉ text := by
  intro feed
  have taken := List.all_eq_true.1 all '\n' feed
  rw [refused] at taken
  cases taken

private theorem numeral_injective (number other : Nat) (same : numeral number = numeral other) :
    number = other := by
  rw [← digitsValue_numeral number, same, digitsValue_numeral]

private theorem paddedNumeral_injective (width number other : Nat)
    (same : paddedNumeral width number = paddedNumeral width other) : number = other := by
  rw [← digitsValue_paddedNumeral width number, same, digitsValue_paddedNumeral]

private theorem numeral_no_feed (number : Nat) : '\n' ∉ numeral number :=
  no_feed_of_all Char.isDigit _ (numeral_isDigit number) rfl

private theorem numeral_unique (number other : Nat) (back behind : Text)
    (stops : back.head?.any Char.isDigit = false) (otherStops : behind.head?.any Char.isDigit = false)
    (same : numeral number ++ back = numeral other ++ behind) : number = other ∧ back = behind := by
  obtain ⟨digits, rest⟩ := front_unique Char.isDigit _ _ _ _ (numeral_isDigit number)
    (numeral_isDigit other) stops otherStops same
  exact ⟨numeral_injective number other digits, rest⟩

private theorem paddedNumeral_unique (width number other : Nat) (back behind : Text)
    (stops : back.head?.any Char.isDigit = false) (otherStops : behind.head?.any Char.isDigit = false)
    (same : paddedNumeral width number ++ back = paddedNumeral width other ++ behind) :
    number = other ∧ back = behind := by
  obtain ⟨digits, rest⟩ := front_unique Char.isDigit _ _ _ _ (paddedNumeral_isDigit width number)
    (paddedNumeral_isDigit width other) stops otherStops same
  exact ⟨paddedNumeral_injective width number other digits, rest⟩

theorem Date.text_injective (day other : Date) (same : day.text = other.text) : day = other := by
  simp only [Date.text, List.append_assoc, List.cons_append] at same
  obtain ⟨sameYear, afterYear⟩ := paddedNumeral_unique 4 _ _ _ _ rfl rfl same
  obtain ⟨sameMonth, afterMonth⟩ :=
    paddedNumeral_unique 2 _ _ _ _ rfl rfl (List.cons.inj afterYear).2
  have sameDay := paddedNumeral_injective 2 _ _ (List.cons.inj afterMonth).2
  cases day
  cases other
  cases sameYear
  cases sameMonth
  cases sameDay
  rfl

theorem Decimal.text_injective (number other : Decimal) (same : number.text = other.text) :
    number = other := by
  have read (amount : Decimal) : Decimal.read amount.text = .ok amount :=
    amount.read_spelling false false nofun
  have twice := read number
  rw [same, read other] at twice
  exact (Except.ok.inj twice).symm

def isDateOrNumberPart (char : Char) : Bool :=
  char.isDigit || char == '-' || char == '.'

private theorem isDateOrNumberPart_of_digits (digits : Text)
    (accepted : digits.all Char.isDigit = true) : digits.all isDateOrNumberPart = true := by
  rw [List.all_eq_true] at accepted ⊢
  intro char member
  rw [isDateOrNumberPart, accepted char member]
  rfl

private theorem Date.no_feed_text (day : Date) : '\n' ∉ day.text := by
  refine no_feed_of_all isDateOrNumberPart _ ?_ rfl
  have part (width number : Nat) : (paddedNumeral width number).all isDateOrNumberPart = true :=
    isDateOrNumberPart_of_digits _ (paddedNumeral_isDigit width number)
  simp [Date.text, part, isDateOrNumberPart]

private theorem Decimal.no_feed_text (number : Decimal) : '\n' ∉ number.text := by
  refine no_feed_of_all isDateOrNumberPart _ ?_ rfl
  have whole := isDateOrNumberPart_of_digits _ number.parts_isDigit.1
  have fraction := isDateOrNumberPart_of_digits _ number.parts_isDigit.2
  have sign : (minusSign number.negative).all isDateOrNumberPart = true := by
    cases number.negative <;> rfl
  have point : number.fractionText.all isDateOrNumberPart = true := by
    unfold Decimal.fractionText
    split
    · rfl
    · rw [List.all_cons, fraction]
      rfl
  rw [Decimal.text, List.all_append, List.all_append, sign, whole, point]
  rfl

namespace Value

/-- Values of one sort are read back from their shown forms. -/
theorem shown_unique (value other : Value) (sameSort : value.sort = other.sort)
    (same : value.shown = other.shown) : value = other := by
  cases value with
  | date day =>
      cases other with
      | date otherDay => exact congrArg date (Date.text_injective _ _ same)
      | _ => cases sameSort
  | number amount =>
      cases other with
      | number otherAmount => exact congrArg number (Decimal.text_injective _ _ same)
      | _ => cases sameSort
  | content inner =>
      cases other with
      | content otherInner =>
          exact congrArg content (shownText_unique inner otherInner [] [] (congrArg (· ++ []) same)).1
      | _ => cases sameSort
  | text plain =>
      cases other with
      | text otherPlain => exact congrArg text same
      | _ => cases sameSort
  | truth bit =>
      cases other with
      | truth otherBit =>
          cases bit with
          | true =>
              cases otherBit with
              | true => rfl
              | false => cases same
          | false =>
              cases otherBit with
              | true => cases same
              | false => rfl
      | _ => cases sameSort

theorem no_feed_shown (value : Value) (oneLine : ∀ plain, value = text plain → '\n' ∉ plain) :
    '\n' ∉ value.shown := by
  cases value with
  | date day => exact day.no_feed_text
  | number amount => exact amount.no_feed_text
  | content inner => exact no_feed_shownText inner
  | text plain => exact oneLine plain rfl
  | truth bit => cases bit <;> decide

end Value

namespace Kind

private theorem mem_all (kind : Kind) : kind ∈ all := by
  cases kind with
  | punctuation mark => cases mark <;> decide
  | keyword directive => cases directive <;> decide
  | _ => decide

private theorem ofLabel?_label (kind : Kind) : ofLabel? kind.label = some kind := by
  have readBack : ∀ kind ∈ all, ofLabel? kind.label = some kind := by decide +kernel
  exact readBack kind kind.mem_all

theorem label_injective (kind other : Kind) (same : kind.label = other.label) : kind = other := by
  have read := ofLabel?_label kind
  rw [same, ofLabel?_label other] at read
  exact (Option.some.inj read).symm

theorem label_isUpper (kind : Kind) : kind.label.all Char.isUpper = true := by
  have capitals : ∀ kind ∈ all, kind.label.all Char.isUpper = true := by decide +kernel
  exact capitals kind kind.mem_all

end Kind

namespace Token

private theorem shownValue_unique (token other : Token) (plain : token.IsPlain)
    (otherPlain : other.IsPlain)
    (sameKind : token.kind = other.kind) (same : token.shownValue = other.shownValue) :
    token.value = other.value := by
  have sorted := plain.sorted
  rw [sameKind, ← otherPlain.sorted] at sorted
  unfold shownValue at same
  cases value : token.value with
  | none =>
      rw [value] at sorted
      exact (Option.map_eq_none_iff.1 sorted.symm).symm
  | some found =>
      cases otherValue : other.value with
      | none =>
          rw [value, otherValue] at sorted
          cases sorted
      | some otherFound =>
          rw [value, otherValue] at same sorted
          have sameShown := (List.cons.inj same).2
          rw [Value.shown_unique found otherFound (Option.some.inj sorted) sameShown]

/-- A token that a session can hand out is read back from its shown form. -/
theorem shown_unique (token other : Token) (plain : token.IsPlain) (otherPlain : other.IsPlain)
    (same : token.shown = other.shown) : token = other := by
  simp only [shown, List.append_assoc, List.cons_append] at same
  obtain ⟨sameLine, afterLine⟩ := numeral_unique _ _ _ _ rfl rfl same
  obtain ⟨sameLabel, afterLabel⟩ := front_unique Char.isUpper _ _ _ _ token.kind.label_isUpper
    other.kind.label_isUpper rfl rfl (List.cons.inj afterLine).2
  have sameKind := Kind.label_injective _ _ sameLabel
  obtain ⟨sameLexeme, afterLexeme⟩ := shownText_unique _ _ _ _ (List.cons.inj afterLabel).2
  have sameValue := shownValue_unique token other plain otherPlain sameKind afterLexeme
  cases token
  cases other
  cases sameLine
  cases sameKind
  cases sameLexeme
  cases sameValue
  rfl

theorem no_feed_shown (token : Token) (plain : token.IsPlain) : '\n' ∉ token.shown := by
  have line := numeral_no_feed token.line
  have label := no_feed_of_all Char.isUpper _ token.kind.label_isUpper rfl
  have lexeme := no_feed_shownText token.lexeme
  have value : '\n' ∉ token.shownValue := by
    unfold shownValue
    split
    · rename_i found present
      have shown := found.no_feed_shown (fun text same => plain.oneLine text (by rw [present, same]))
      simpa using shown
    · exact List.not_mem_nil
  simp [shown, line, label, lexeme, value]

end Token

/-! ### Errors -/

/-- The kind of an error, told by the ninth character of its message. -/
def ErrorKind.ofMark : Option Char → ErrorKind
  | some 'd' => conversion
  | some 'n' => conversion
  | some 'o' => resourceLimit
  | _ => lexical

private theorem DateFault.no_feed_message (reason : DateFault) : '\n' ∉ reason.message := by
  cases reason with
  | monthRange month =>
      exact List.not_mem_append (by decide) (numeral_no_feed month)
  | _ => decide +kernel

private theorem NumberFault.no_feed_message (reason : NumberFault) : '\n' ∉ reason.message := by
  cases reason <;> decide +kernel

namespace Fault

private theorem kind_eq_ofMark (reason : Fault) :
    reason.kind = ErrorKind.ofMark reason.message[8]? := by
  cases reason <;> rfl

private theorem no_feed_message (reason : Fault) (plain : reason.IsPlain) :
    '\n' ∉ reason.message := by
  have before (front text : Text) (clean : '\n' ∉ front) (named : text ∈ reason.named) :
      '\n' ∉ front ++ text :=
    List.not_mem_append clean (plain text named)
  cases reason with
  | unknownRun run =>
      exact List.not_mem_append (before _ run (by decide) (List.mem_cons_self ..)) (by decide)
  | malformedAccount account component =>
      refine List.not_mem_append (before _ component (List.not_mem_append ?_ (by decide)) ?_)
        (by decide)
      · exact before _ account (by decide) (List.mem_cons_self ..)
      · exact List.mem_cons_of_mem _ (List.mem_cons_self ..)
  | badDate text reason =>
      refine List.not_mem_append (List.not_mem_append ?_ (by decide)) reason.no_feed_message
      exact before _ text (by decide) (List.mem_cons_self ..)
  | badNumber text reason =>
      refine List.not_mem_append (List.not_mem_append ?_ (by decide)) reason.no_feed_message
      exact before _ text (by decide) (List.mem_cons_self ..)
  | overlongString lines =>
      exact List.not_mem_append (List.not_mem_append (by decide) (numeral_no_feed lines))
        (by decide)
  | unterminatedString => decide

theorem toError_unique (reason other : Fault) (line otherLine : Nat)
    (same : (reason.toError line).shown = (other.toError otherLine).shown) :
    reason.toError line = other.toError otherLine := by
  simp only [toError, LexError.shown, List.append_assoc] at same
  obtain ⟨sameLine, afterLine⟩ := numeral_unique _ _ _ _ rfl rfl same
  have sameMessage : reason.message = other.message := List.append_cancel_left afterLine
  have sameKind : reason.kind = other.kind := by
    rw [kind_eq_ofMark, sameMessage, ← kind_eq_ofMark]
  rw [toError, toError, sameLine, sameMessage, sameKind]

theorem no_feed_shown (reason : Fault) (plain : reason.IsPlain) (line : Nat) :
    '\n' ∉ (reason.toError line).shown :=
  List.not_mem_append (List.not_mem_append (numeral_no_feed line) (by decide))
    (reason.no_feed_message plain)

end Fault

theorem Token.shown_ne_shown (token : Token) (error : LexError) : token.shown ≠ error.shown := by
  intro same
  simp only [shown, LexError.shown, List.append_assoc, List.cons_append] at same
  have afterLine := (numeral_unique _ _ _ _ rfl rfl same).2
  exact absurd (List.cons.inj afterLine).1 (by decide)

end LedgerLexer
