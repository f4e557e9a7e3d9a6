/-
The longest match at the front of a text. The first character leaves few shapes
possible, and the characters behind it choose among them: a sign needs a digit, or a
point and a digit, behind it; four digits with a date separator behind them are a
date and never a shorter number; a comma counts to a number only when a digit follows
it. Each match is returned with the text behind it.
-/

import LedgerLexer.Shape

namespace LedgerLexer

structure Match where
  shape : Shape
  text : Text
  rest : Text
  deriving DecidableEq

def Match.cons (char : Char) (found : Match) : Match :=
  { found with text := char :: found.text }

/-- A match takes at least one character off the front of a text. -/
def Match.Splits (found : Match) (text : Text) : Prop :=
  found.text ≠ [] ∧ found.text ++ found.rest = text

namespace Shape

def startsWith (accepts : Char → Bool) : Text → Bool
  | char :: _ => accepts char
  | [] => false

/-- The shape with the longest stretch of accepted characters behind the first. -/
def stretch (shape : Shape) (first : Char) (accepts : Char → Bool) (rest : Text) : Match :=
  ⟨shape, first :: rest.takeWhile accepts, rest.dropWhile accepts⟩

def integerPart : Text → Text × Text
  | [] => ([], [])
  | char :: rest =>
      if char.isDigit || (char == ',' && startsWith Char.isDigit rest) then
        let later := integerPart rest
        (char :: later.1, later.2)
      else ([], char :: rest)

def isPointOrDigit (char : Char) : Bool :=
  char == '.' || char.isDigit

def numberAt (text : Text) : Match :=
  let whole := integerPart text
  ⟨number, whole.1 ++ whole.2.takeWhile isPointOrDigit, whole.2.dropWhile isPointOrDigit⟩

def fractionAt (rest : Text) : Option Match :=
  if startsWith Char.isDigit rest then some (stretch fraction '.' Char.isDigit rest) else none

def unsignedAt : Text → Option Match
  | char :: rest =>
      if char.isDigit then some (numberAt (char :: rest))
      else if char = '.' then fractionAt rest
      else none
  | [] => none

def startsWithDate : Text → Bool
  | first :: second :: third :: fourth :: separator :: _ =>
      first.isDigit && second.isDigit && third.isDigit && fourth.isDigit &&
        isDateSeparator separator
  | _ => false

/-- The length of what belongs to a date behind its first separator. -/
def monthDayLength (text : Text) : Nat :=
  let month := text.takeWhile Char.isDigit
  match text.dropWhile Char.isDigit with
  | separator :: rest =>
      if !month.isEmpty && isDateSeparator separator then
        month.length + 1 + (rest.takeWhile Char.isDigit).length
      else month.length
  | [] => month.length

def dateAt (text : Text) : Match :=
  let length := 5 + monthDayLength (text.drop 5)
  ⟨date, text.take length, text.drop length⟩

/-- A colon right behind a name belongs to it. -/
def nameAt (first : Char) (rest : Text) : Match :=
  match rest.dropWhile isNamePart with
  | ':' :: behind => ⟨name, first :: rest.takeWhile isNamePart ++ [':'], behind⟩
  | behind => ⟨name, first :: rest.takeWhile isNamePart, behind⟩

def lineBreakAt : Text → Option Match
  | '\n' :: rest => some ⟨lineBreak, ['\n'], rest⟩
  | '\r' :: '\n' :: rest => some ⟨lineBreak, ['\r', '\n'], rest⟩
  | _ => none

def markAt (text : Text) : Option Match :=
  match Mark.ofText? (text.take 2) with
  | some mark => some ⟨punctuation mark, text.take 2, text.drop 2⟩
  | none => (Mark.ofText? (text.take 1)).map (⟨punctuation ·, text.take 1, text.drop 1⟩)

/-! ### The choice of a shape -/

def dateOrNumberAt (text : Text) : Match :=
  if startsWithDate text then dateAt text else numberAt text

def labelAt (shape : Shape) (marker : Char) (rest : Text) : Option Match :=
  if startsWith isLabelPart rest then some (stretch shape marker isLabelPart rest) else none

def symbolAt (first : Char) (rest : Text) : Option Match :=
  if first = ';' then some (stretch comment first isCommentPart rest)
  else if first = '.' then fractionAt rest
  else if first = '"' then some ⟨quote, [first], rest⟩
  else if first = '^' then labelAt link first rest
  else if first = '#' then (labelAt tag first rest).or (some ⟨flag, [first], rest⟩)
  else if isFlagMark first then some ⟨flag, [first], rest⟩
  else markAt (first :: rest)

/-- Nothing when no shape matches any front of the text. -/
def longest? : Text → Option Match
  | [] => none
  | first :: rest =>
      if isBlank first then some (stretch blank first isBlank rest)
      else if isLineEnd first then lineBreakAt (first :: rest)
      else if first.isUpper then some (stretch word first isWordPart rest)
      else if first.isLower then some (nameAt first rest)
      else if first.isDigit then some (dateOrNumberAt (first :: rest))
      else if isSign first then (unsignedAt rest).map (Match.cons first)
      else symbolAt first rest

/-! ### A match and what is behind it make up the text -/

private theorem stretch_splits (shape : Shape) (first : Char) (accepts : Char → Bool)
    (rest : Text) : (stretch shape first accepts rest).Splits (first :: rest) := by
  refine ⟨List.cons_ne_nil _ _, ?_⟩
  change first :: rest.takeWhile accepts ++ rest.dropWhile accepts = first :: rest
  rw [List.cons_append, List.takeWhile_append_dropWhile]

private theorem integerPart_append (text : Text) :
    (integerPart text).1 ++ (integerPart text).2 = text := by
  induction text with
  | nil => rfl
  | cons char rest ih =>
      unfold integerPart
      split
      · exact congrArg (char :: ·) ih
      · rfl

private theorem numberAt_splits (first : Char) (rest : Text) (digit : first.isDigit = true) :
    (numberAt (first :: rest)).Splits (first :: rest) := by
  constructor
  · unfold numberAt integerPart
    rw [digit, Bool.true_or, if_pos rfl]
    exact List.cons_ne_nil _ _
  · change ((integerPart (first :: rest)).1 ++ List.takeWhile _ (integerPart (first :: rest)).2) ++
      List.dropWhile _ (integerPart (first :: rest)).2 = first :: rest
    rw [List.append_assoc, List.takeWhile_append_dropWhile, integerPart_append]

private theorem fractionAt_splits (rest : Text) (found : Match)
    (here : fractionAt rest = some found) : found.Splits ('.' :: rest) := by
  unfold fractionAt at here
  split at here
  · cases here
    exact stretch_splits _ _ _ _
  · cases here

private theorem unsignedAt_splits (text : Text) (found : Match)
    (here : unsignedAt text = some found) : found.Splits text := by
  unfold unsignedAt at here
  split at here
  · rename_i char rest
    split at here
    · rename_i digit
      cases here
      exact numberAt_splits char rest digit
    · split at here
      · rename_i point
        subst point
        exact fractionAt_splits rest found here
      · cases here
  · cases here

private theorem dateAt_splits (first : Char) (rest : Text) :
    (dateAt (first :: rest)).Splits (first :: rest) := by
  unfold dateAt
  rw [Nat.add_comm]
  exact ⟨List.cons_ne_nil _ _, List.take_append_drop _ _⟩

private theorem nameAt_splits (first : Char) (rest : Text) :
    (nameAt first rest).Splits (first :: rest) := by
  have whole := List.takeWhile_append_dropWhile (p := isNamePart) (l := rest)
  unfold nameAt
  split
  · rename_i behind colon
    rw [colon] at whole
    refine ⟨List.cons_ne_nil _ _, ?_⟩
    change (first :: rest.takeWhile isNamePart ++ [':']) ++ behind = first :: rest
    rw [List.append_assoc, List.cons_append]
    exact congrArg (first :: ·) whole
  · exact ⟨List.cons_ne_nil _ _, congrArg (first :: ·) whole⟩

private theorem lineBreakAt_splits (text : Text) (found : Match)
    (here : lineBreakAt text = some found) : found.Splits text := by
  unfold lineBreakAt at here
  split at here
  · cases here
    exact ⟨List.cons_ne_nil _ _, rfl⟩
  · cases here
    exact ⟨List.cons_ne_nil _ _, rfl⟩
  · cases here

private theorem markAt_splits (first : Char) (rest : Text) (found : Match)
    (here : markAt (first :: rest) = some found) : found.Splits (first :: rest) := by
  unfold markAt at here
  split at here
  · cases here
    exact ⟨List.cons_ne_nil _ _, List.take_append_drop 2 _⟩
  · obtain ⟨mark, _, rfl⟩ := Option.map_eq_some_iff.1 here
    exact ⟨List.cons_ne_nil _ _, List.take_append_drop 1 _⟩

private theorem dateOrNumberAt_splits (first : Char) (rest : Text) (digit : first.isDigit = true) :
    (dateOrNumberAt (first :: rest)).Splits (first :: rest) := by
  unfold dateOrNumberAt
  split
  · exact dateAt_splits first rest
  · exact numberAt_splits first rest digit

private theorem labelAt_splits (shape : Shape) (marker : Char) (rest : Text) (found : Match)
    (here : labelAt shape marker rest = some found) : found.Splits (marker :: rest) := by
  unfold labelAt at here
  split at here
  · cases here
    exact stretch_splits _ _ _ _
  · cases here

private theorem single_splits (shape : Shape) (first : Char) (rest : Text) (found : Match)
    (here : some ⟨shape, [first], rest⟩ = some found) : found.Splits (first :: rest) := by
  cases here
  exact ⟨List.cons_ne_nil _ _, rfl⟩

private theorem symbolAt_splits (first : Char) (rest : Text) (found : Match)
    (here : symbolAt first rest = some found) : found.Splits (first :: rest) := by
  unfold symbolAt at here
  split at here
  · cases here
    exact stretch_splits _ _ _ _
  split at here
  · rename_i point
    subst point
    exact fractionAt_splits _ _ here
  split at here
  · exact single_splits _ _ _ _ here
  split at here
  · exact labelAt_splits _ _ _ _ here
  split at here
  · rcases Option.or_eq_some_iff.1 here with label | ⟨_, flag⟩
    · exact labelAt_splits _ _ _ _ label
    · exact single_splits _ _ _ _ flag
  split at here
  · exact single_splits _ _ _ _ here
  · exact markAt_splits _ _ _ here

theorem longest?_splits (text : Text) (found : Match) (here : longest? text = some found) :
    found.Splits text := by
  cases text with
  | nil => cases here
  | cons first rest =>
      rw [longest?] at here
      split at here
      · cases here
        exact stretch_splits _ _ _ _
      split at here
      · exact lineBreakAt_splits _ _ here
      split at here
      · cases here
        exact stretch_splits _ _ _ _
      split at here
      · cases here
        exact nameAt_splits _ _
      split at here
      · rename_i digit
        cases here
        exact dateOrNumberAt_splits _ _ digit
      split at here
      · obtain ⟨unsigned, unsignedHere, rfl⟩ := Option.map_eq_some_iff.1 here
        have splits := unsignedAt_splits _ _ unsignedHere
        exact ⟨List.cons_ne_nil _ _, congrArg (first :: ·) splits.2⟩
      · exact symbolAt_splits _ _ _ here

end Shape

end LedgerLexer
