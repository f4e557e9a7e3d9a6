/-
The shown form of a text stands on one line, and the text can be read back from it. Every
character has one of three forms: itself, a short escape, or its code. Whatever follows, a
form tells where it ends and of which character it is, so a shown text tells where its
closing quote is.
-/

import LedgerLexer.Escape

namespace LedgerLexer

private theorem exists_digitChar_of_mem (number : Nat) (char : Char)
    (member : char ∈ Nat.toDigits 16 number) : ∃ digit : Nat, char = digit.digitChar := by
  induction number using Nat.strongRecOn with
  | ind number ih =>
      rw [Nat.toDigits_eq_if (by decide)] at member
      split at member
      · exact ⟨number, List.mem_singleton.1 member⟩
      · rename_i large
        rcases List.mem_append.1 member with front | last
        · exact ih (number / 16) (by omega) front
        · exact ⟨number % 16, List.mem_singleton.1 last⟩

private theorem digitChar_unique :
    ∀ first < 16, ∀ second < 16, Nat.digitChar first = Nat.digitChar second → first = second := by
  decide

private theorem toDigits_injective (first second : Nat)
    (same : Nat.toDigits 16 first = Nat.toDigits 16 second) : first = second := by
  induction first using Nat.strongRecOn generalizing second with
  | ind first ih =>
      -- A number of one digit differs from a longer one in the digits before the last.
      have front (small large : Nat) (isSmall : small < 16) (isLarge : ¬ large < 16)
          (equal : Nat.toDigits 16 small = Nat.toDigits 16 large) : False := by
        rw [Nat.toDigits_of_lt_base isSmall, Nat.toDigits_of_base_le (by decide) (by omega)] at equal
        have lengths := congrArg List.length equal
        have positive := List.length_pos_iff.2 (Nat.toDigits_ne_nil (n := large / 16) (b := 16))
        rw [List.length_append] at lengths
        simp only [List.length_singleton] at lengths
        omega
      by_cases firstSmall : first < 16
      · by_cases secondSmall : second < 16
        · rw [Nat.toDigits_of_lt_base firstSmall, Nat.toDigits_of_lt_base secondSmall] at same
          exact digitChar_unique first firstSmall second secondSmall (List.cons.inj same).1
        · exact (front first second firstSmall secondSmall same).elim
      · by_cases secondSmall : second < 16
        · exact (front second first secondSmall firstSmall same.symm).elim
        · rw [Nat.toDigits_of_base_le (n := first) (by decide) (by omega),
            Nat.toDigits_of_base_le (n := second) (by decide) (by omega)] at same
          obtain ⟨higher, last⟩ := List.append_inj' same rfl
          have sameLast := digitChar_unique _ (Nat.mod_lt first (by decide)) _
            (Nat.mod_lt second (by decide)) (List.cons.inj last).1
          have sameHigher := ih (first / 16) (by omega) (second / 16) higher
          omega

/-- Characters with a short escape, and the letter of the escape. -/
def shortEscapes : List (Char × Char) :=
  [('\x00', '0'), ('\t', 't'), ('\n', 'n'), ('\r', 'r'), ('"', '"'), ('\\', '\\')]

inductive Escapes (char : Char) : Text → Prop where
  | plain (notQuote : char ≠ '"') (notBackslash : char ≠ '\\') (notFeed : char ≠ '\n') :
      Escapes char [char]
  | short {letter : Char} (named : (char, letter) ∈ shortEscapes) : Escapes char ['\\', letter]
  | code : Escapes char (codeEscape char)

private theorem escapeChar_escapes (char : Char) : Escapes char (escapeChar char) := by
  unfold escapeChar
  repeat
    split
    · rename_i same
      subst same
      exact .short (by decide)
  rename_i notFeed _ notQuote notBackslash
  split
  · exact .plain notQuote notBackslash notFeed
  · exact .code

private theorem shortEscapes_unique (char other letter : Char)
    (named : (char, letter) ∈ shortEscapes)
    (otherNamed : (other, letter) ∈ shortEscapes) : char = other := by
  simp only [shortEscapes, List.mem_cons, Prod.mk.injEq, List.not_mem_nil, or_false] at named
  rcases named with ⟨rfl, rfl⟩ | ⟨rfl, rfl⟩ | ⟨rfl, rfl⟩ | ⟨rfl, rfl⟩ | ⟨rfl, rfl⟩ | ⟨rfl, rfl⟩
  all_goals
    simp [shortEscapes] at otherNamed
    exact otherNamed.symm

namespace Escapes

variable {char other : Char} {form otherForm : Text}

private theorem head_ne_quote (escapes : Escapes char form) (back : Text) :
    (form ++ back).head? ≠ some '"' := by
  cases escapes with
  | plain notQuote _ _ => simpa using notQuote
  | short _ => nofun
  | code => nofun

theorem noFeed (escapes : Escapes char form) : '\n' ∉ form := by
  cases escapes with
  | plain _ _ notFeed => simpa using notFeed.symm
  | @short letter named =>
      have notFeed : letter ≠ '\n' := by
        rintro rfl
        simp [shortEscapes] at named
      simpa using notFeed.symm
  | code =>
      intro member
      simp only [codeEscape, List.mem_cons, List.mem_append, List.not_mem_nil, or_false,
        Char.reduceEq, false_or] at member
      obtain ⟨digit, feed⟩ := exists_digitChar_of_mem _ _ member
      exact Nat.digitChar_ne '\n' rfl feed.symm

private theorem code_unique (back behind : Text)
    (same : codeEscape char ++ back = codeEscape other ++ behind) :
    char = other ∧ back = behind := by
  have noBrace (number : Nat) : (Nat.toDigits 16 number).all (· != '}') = true := by
    refine List.all_eq_true.2 fun digitChar member => bne_iff_ne.2 ?_
    rintro rfl
    obtain ⟨digit, brace⟩ := exists_digitChar_of_mem _ _ member
    exact Nat.digitChar_ne '}' rfl brace.symm
  simp only [codeEscape, List.cons_append, List.append_assoc, List.nil_append,
    List.cons.injEq, true_and] at same
  obtain ⟨digits, rest⟩ :=
    front_unique (· != '}') _ _ _ _ (noBrace _) (noBrace _) rfl rfl same
  exact ⟨Char.toNat_inj.1 (toDigits_injective _ _ digits), (List.cons.inj rest).2⟩

/-- A form tells its character and where it ends, whatever follows. -/
theorem unique (escapes : Escapes char form) (otherEscapes : Escapes other otherForm)
    (back behind : Text) (same : form ++ back = otherForm ++ behind) :
    char = other ∧ back = behind := by
  cases escapes with
  | plain _ notBackslash _ =>
      cases otherEscapes with
      | plain _ _ _ => exact List.cons.inj same
      | short _ => exact absurd (List.cons.inj same).1 notBackslash
      | code => exact absurd (List.cons.inj same).1 notBackslash
  | @short letter named =>
      cases otherEscapes with
      | plain _ notBackslash _ => exact absurd (List.cons.inj same).1.symm notBackslash
      | @short otherLetter otherNamed =>
          obtain ⟨rfl, rest⟩ := List.cons.inj (List.cons.inj same).2
          exact ⟨shortEscapes_unique _ _ _ named otherNamed, rest⟩
      | code =>
          obtain ⟨rfl, _⟩ := List.cons.inj (List.cons.inj same).2
          simp [shortEscapes] at named
  | code =>
      cases otherEscapes with
      | plain _ notBackslash _ => exact absurd (List.cons.inj same).1.symm notBackslash
      | @short otherLetter otherNamed =>
          obtain ⟨rfl, _⟩ := List.cons.inj (List.cons.inj same).2
          simp [shortEscapes] at otherNamed
      | code => exact code_unique back behind same

end Escapes

private theorem escaped_unique (text other back behind : Text)
    (same : text.flatMap escapeChar ++ '"' :: back = other.flatMap escapeChar ++ '"' :: behind) :
    text = other ∧ back = behind := by
  induction text generalizing other with
  | nil =>
      cases other with
      | nil => exact ⟨rfl, (List.cons.inj same).2⟩
      | cons char later =>
          rw [List.flatMap_cons, List.append_assoc] at same
          exact absurd (congrArg List.head? same).symm ((escapeChar_escapes char).head_ne_quote _)
  | cons char rest ih =>
      cases other with
      | nil =>
          rw [List.flatMap_cons, List.append_assoc] at same
          exact absurd (congrArg List.head? same) ((escapeChar_escapes char).head_ne_quote _)
      | cons first later =>
          rw [List.flatMap_cons, List.flatMap_cons, List.append_assoc, List.append_assoc] at same
          obtain ⟨rfl, sameRest⟩ :=
            (escapeChar_escapes char).unique (escapeChar_escapes first) _ _ same
          obtain ⟨rfl, sameBack⟩ := ih later sameRest
          exact ⟨rfl, sameBack⟩

theorem shownText_unique (text other back behind : Text)
    (same : shownText text ++ back = shownText other ++ behind) : text = other ∧ back = behind := by
  simp only [shownText, List.cons_append, List.append_assoc, List.nil_append, List.cons.injEq,
    true_and] at same
  exact escaped_unique text other back behind same

theorem no_feed_shownText (text : Text) : '\n' ∉ shownText text := by
  intro member
  simp only [shownText, List.mem_cons, List.mem_append, List.mem_flatMap, List.not_mem_nil,
    or_false, Char.reduceEq, false_or] at member
  obtain ⟨char, _, inForm⟩ := member
  exact (escapeChar_escapes char).noFeed inForm

end LedgerLexer
