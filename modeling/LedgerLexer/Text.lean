/-
Text as a list of characters, the character classes that the lexical shapes are
drawn from, and the two measures that positions and field widths need: line feeds
and encoded bytes. Letters and digits are the ASCII ones; every character beyond
ASCII belongs to one class of its own. Nothing here knows a shape or a token.
-/

namespace LedgerLexer

abbrev Text := List Char

def isBlank (char : Char) : Bool :=
  char == ' ' || char == '\t'

def isLineEnd (char : Char) : Bool :=
  char == '\n' || char == '\r'

/-- A run of text ends before a blank, a line end, or the end of the input. -/
def endsRun (char : Char) : Bool :=
  isBlank char || isLineEnd char

def continuesRun (char : Char) : Bool :=
  !endsRun char

def isBeyondAscii (char : Char) : Bool :=
  128 ≤ char.toNat

def isSign (char : Char) : Bool :=
  char == '-' || char == '+'

def isDateSeparator (char : Char) : Bool :=
  char == '-' || char == '/'

def lineFeeds (text : Text) : Nat :=
  text.count '\n'

/-- The number of bytes of the text in UTF-8. -/
def byteLength : Text → Nat
  | [] => 0
  | char :: rest => char.utf8Size + byteLength rest

@[simp]
theorem lineFeeds_nil : lineFeeds [] = 0 := rfl

@[simp]
theorem lineFeeds_append (front back : Text) :
    lineFeeds (front ++ back) = lineFeeds front + lineFeeds back :=
  List.count_append

theorem lineFeeds_cons (char : Char) (text : Text) :
    lineFeeds (char :: text) = (if char = '\n' then 1 else 0) + lineFeeds text := by
  unfold lineFeeds
  rw [List.count_cons, Nat.add_comm]
  simp only [beq_iff_eq]

theorem intercalate_cons (separator : Char) (first : Text) (others : List Text) :
    [separator].intercalate (first :: others) = first ++ others.flatMap (separator :: ·) := by
  induction others generalizing first with
  | nil => simp
  | cons next later ih => simp [List.intercalate_cons_cons, ih next]

/-- No part of a text that was split holds the character it was split at. -/
theorem not_mem_of_mem_splitOn (separator : Char) (text part : Text)
    (member : part ∈ text.splitOn separator) : separator ∉ part := by
  induction text generalizing part with
  | nil =>
      obtain rfl : part = [] := by simpa using member
      exact List.not_mem_nil
  | cons char rest ih =>
      rw [List.splitOn_cons_eq_if_modifyHead] at member
      split at member
      · rcases List.mem_cons.1 member with rfl | later
        · exact List.not_mem_nil
        · exact ih part later
      · rename_i otherChar
        obtain ⟨first, others, parts⟩ :=
          List.exists_cons_of_ne_nil (List.splitOn_ne_nil separator rest)
        rw [parts] at member ih
        rcases List.mem_cons.1 member with rfl | later
        · have absent := ih first (List.mem_cons_self ..)
          simp only [List.mem_cons, not_or]
          exact ⟨fun same => otherChar (by simp [← same]), absent⟩
        · exact ih part (List.mem_cons_of_mem _ later)

theorem intercalate_append_cons (separator : Char) (parts : List Text) (part : Text)
    (later : List Text) :
    [separator].intercalate (parts ++ part :: later) =
      parts.flatMap (· ++ [separator]) ++ [separator].intercalate (part :: later) := by
  induction parts with
  | nil => rfl
  | cons first others ih =>
      obtain ⟨next, behind, shown⟩ : ∃ next behind, others ++ part :: later = next :: behind :=
        List.exists_cons_of_ne_nil (by simp)
      rw [List.cons_append, shown, List.intercalate_cons_cons, ← shown, ih]
      simp

theorem splitOn_flatMap_append (separator : Char) (parts : List Text) (behind : Text)
    (absent : ∀ part ∈ parts, separator ∉ part) :
    (parts.flatMap (· ++ [separator]) ++ behind).splitOn separator =
      parts ++ behind.splitOn separator := by
  induction parts with
  | nil => rfl
  | cons part later ih =>
      have split := List.splitOn_append_cons_self_of_not_mem
        (absent part (List.mem_cons_self ..)) (later.flatMap (· ++ [separator]) ++ behind)
      rw [ih (fun other member => absent other (List.mem_cons_of_mem _ member))] at split
      simpa using split

/-- A front of accepted characters before one that is not accepted, or before the end, can
be cut off in one way only. -/
theorem front_unique (accepted : Char → Bool) (front other back behind : Text)
    (frontAccepted : front.all accepted = true) (otherAccepted : other.all accepted = true)
    (stops : back.head?.any accepted = false) (otherStops : behind.head?.any accepted = false)
    (same : front ++ back = other ++ behind) : front = other ∧ back = behind := by
  induction front generalizing other with
  | nil =>
      cases other with
      | nil => exact ⟨rfl, same⟩
      | cons char later =>
          rw [List.all_cons, Bool.and_eq_true] at otherAccepted
          rw [show back = char :: (later ++ behind) from same] at stops
          exact absurd otherAccepted.1 (Bool.eq_false_iff.1 stops)
  | cons char rest ih =>
      rw [List.all_cons, Bool.and_eq_true] at frontAccepted
      cases other with
      | nil =>
          rw [show behind = char :: (rest ++ back) from same.symm] at otherStops
          exact absurd frontAccepted.1 (Bool.eq_false_iff.1 otherStops)
      | cons first later =>
          rw [List.all_cons, Bool.and_eq_true] at otherAccepted
          obtain ⟨rfl, sameRest⟩ := List.cons.inj same
          obtain ⟨rfl, sameBack⟩ := ih later frontAccepted.2 otherAccepted.2 sameRest
          exact ⟨rfl, sameBack⟩

/-- The run that begins a text: its first character, and after it everything up to
the next blank or line end. A first character that itself ends runs stands alone. -/
def runFrom (first : Char) (others : Text) : Text :=
  if endsRun first then [first] else first :: others.takeWhile continuesRun

def afterRun (first : Char) (others : Text) : Text :=
  if endsRun first then others else others.dropWhile continuesRun

theorem runFrom_append_afterRun (first : Char) (others : Text) :
    runFrom first others ++ afterRun first others = first :: others := by
  unfold runFrom afterRun
  split
  · rfl
  · rw [List.cons_append, List.takeWhile_append_dropWhile]

end LedgerLexer
