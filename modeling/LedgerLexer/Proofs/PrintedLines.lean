/-
The lines that are printed for one file when its tokens are wanted: one for every token,
in the order of the stream, and then one for every error, in the order in which the errors
were found. No line is broken by what it shows, so the output falls into its lines in one
way only, and with that the tokens and the errors of the file can be read back from it.
-/

import LedgerLexer.Proofs.FileOutcomes
import LedgerLexer.Proofs.ShownToken

namespace LedgerLexer

/-- What one printed line shows. -/
inductive Entry where
  | token (found : Token)
  | error (found : LexError)

namespace Entry

def shown : Entry → Text
  | token found => found.shown
  | error found => found.shown

/-- The line of an entry, without the feed that ends it. -/
def line (path : Text) (entry : Entry) : Text :=
  path ++ ':' :: entry.shown

def printed (path : Text) (entry : Entry) : Text :=
  entry.line path ++ ['\n']

/-- Of an entry that the run of a session can lead to. -/
inductive IsPlain : Entry → Prop where
  | token {found : Token} (plain : found.IsPlain) : IsPlain (.token found)
  | error {reason : Fault} (plain : reason.IsPlain) (line : Nat) :
      IsPlain (.error (reason.toError line))

theorem shown_unique (entry other : Entry) (plain : entry.IsPlain) (otherPlain : other.IsPlain)
    (same : entry.shown = other.shown) : entry = other := by
  cases plain with
  | @token found plain =>
      cases otherPlain with
      | @token other otherPlain =>
          exact congrArg token (found.shown_unique other plain otherPlain same)
      | error _ _ => exact absurd same (found.shown_ne_shown _)
  | @error reason plain line =>
      cases otherPlain with
      | @token other _ => exact absurd same.symm (other.shown_ne_shown _)
      | @error other otherPlain otherLine =>
          exact congrArg error (reason.toError_unique other line otherLine same)

theorem no_feed_shown (entry : Entry) (plain : entry.IsPlain) : '\n' ∉ entry.shown := by
  cases plain with
  | @token found plain => exact found.no_feed_shown plain
  | @error reason plain line => exact reason.no_feed_shown plain line

private theorem no_feed_line (path : Text) (clean : '\n' ∉ path) (entry : Entry)
    (plain : entry.IsPlain) : '\n' ∉ entry.line path := by
  refine List.not_mem_append clean ?_
  rw [List.mem_cons, not_or]
  exact ⟨by decide, entry.no_feed_shown plain⟩

/-- Entries are read back from the lines they are printed in. -/
theorem printed_unique (path : Text) (clean : '\n' ∉ path) (entries others : List Entry)
    (plain : ∀ entry ∈ entries, entry.IsPlain) (otherPlain : ∀ entry ∈ others, entry.IsPlain)
    (same : entries.flatMap (printed path) = others.flatMap (printed path)) : entries = others := by
  induction entries generalizing others with
  | nil =>
      cases others with
      | nil => rfl
      | cons other later => simp [printed] at same
  | cons entry rest ih =>
      cases others with
      | nil => simp [printed] at same
      | cons other later =>
          rw [List.forall_mem_cons] at plain otherPlain
          have feedless (entry : Entry) (plain : entry.IsPlain) :
              (entry.line path).all (· != '\n') = true := by
            rw [List.all_bne', Bool.not_eq_true', List.contains_eq_mem, decide_eq_false_iff_not]
            exact no_feed_line path clean entry plain
          rw [List.flatMap_cons, List.flatMap_cons, printed, printed, List.append_assoc _ ['\n'],
            List.append_assoc _ ['\n']] at same
          obtain ⟨sameLine, sameEnd⟩ := front_unique (· != '\n') _ _ _ _
            (feedless entry plain.1) (feedless other otherPlain.1) rfl rfl same
          obtain rfl := entry.shown_unique other plain.1 otherPlain.1
            (List.cons.inj (List.append_cancel_left sameLine)).2
          rw [ih later plain.2 otherPlain.2 (List.cons.inj sameEnd).2]

theorem lineFeeds_printed_one (path : Text) (entry : Entry) (plain : entry.IsPlain) :
    lineFeeds (entry.printed path) = lineFeeds path + 1 := by
  have absent : lineFeeds entry.shown = 0 := List.count_eq_zero.2 (entry.no_feed_shown plain)
  rw [printed, line, lineFeeds_append, lineFeeds_append, lineFeeds_cons, absent]
  rfl

/-- Every printed entry ends as many lines as the path holds, and one more. -/
theorem lineFeeds_printed (path : Text) (entries : List Entry)
    (plain : ∀ entry ∈ entries, entry.IsPlain) :
    lineFeeds (entries.flatMap (printed path)) = entries.length * (lineFeeds path + 1) := by
  induction entries with
  | nil => exact (Nat.zero_mul _).symm
  | cons entry rest ih =>
      rw [List.forall_mem_cons] at plain
      rw [List.flatMap_cons, lineFeeds_append, ih plain.2, lineFeeds_printed_one path entry plain.1,
        List.length_cons, Nat.succ_mul, Nat.add_comm]

def listed (tokens : List Token) (errors : List LexError) : List Entry :=
  tokens.map token ++ errors.map error

private theorem listed_injective (tokens others : List Token) (errors otherErrors : List LexError)
    (same : listed tokens errors = listed others otherErrors) :
    tokens = others ∧ errors = otherErrors := by
  induction tokens generalizing others with
  | nil =>
      cases others with
      | nil => exact ⟨rfl, List.map_injective_iff.2 (fun _ _ => error.inj) same⟩
      | cons other later => cases errors <;> cases same
  | cons found rest ih =>
      cases others with
      | nil => cases otherErrors <;> cases same
      | cons other later =>
          obtain ⟨sameToken, sameRest⟩ := List.cons.inj same
          obtain ⟨rfl, sameErrors⟩ := ih later sameRest
          rw [token.inj sameToken]
          exact ⟨rfl, sameErrors⟩

private theorem flatMap_listed (path : Text) (tokens : List Token) (errors : List LexError) :
    (listed tokens errors).flatMap (printed path) =
      (tokens.map (tokenLine path)).flatten ++ (errors.map (errorLine path)).flatten := by
  unfold listed
  rw [List.flatMap_append, List.flatMap_map, List.flatMap_map]
  rfl

end Entry

private theorem Session.errors_of_finish (session : Session) (fresh : session.errors = #[]) :
    session.finish.session.errors.toList = errorsOf session.trail.stages := by
  rw [session.reaches_finish.errors_eq, fresh]
  rfl

theorem Entry.isPlain_of_listed (session : Session) (fresh : session.errors = #[])
    (entry : Entry)
    (member : entry ∈ listed session.finish.tokens session.finish.session.errors.toList) :
    entry.IsPlain := by
  rw [session.errors_of_finish fresh] at member
  rcases List.mem_append.1 member with inTokens | inErrors
  · obtain ⟨found, present, rfl⟩ := List.mem_map.1 inTokens
    exact .token (session.isPlain_of_finish found present)
  · obtain ⟨found, present, rfl⟩ := List.mem_map.1 inErrors
    obtain ⟨reason, line, rfl, plain⟩ := session.exists_fault_of_errorsOf found present
    exact .error plain line

namespace FileRun

private theorem output_eq_printed (directory : Directory) (options : Options) (path source : Text)
    (found : directory path = some source) :
    (FileRun.outcome ⟨directory, options, .tokens⟩ path).output =
      (Entry.listed (lex source options).tokens
        (lex source options).session.errors.toList).flatMap (Entry.printed path) := by
  rw [outcome_eq_lexed, lexed_of_source _ path source found, Entry.flatMap_listed]
  rfl

/-- The printed tokens and errors of a file can be read back: its output is one line for
every token and then one for every error, none of them broken by what it shows, and two
sources under the same path, lexed with whatever options, have the same output only if
they have the same tokens and the same errors. -/
theorem printed_lines_are_read_back (path : Text) (clean : '\n' ∉ path)
    (directory otherDirectory : Directory) (options otherOptions : Options) (source other : Text)
    (here : directory path = some source) (there : otherDirectory path = some other) :
    let output := (FileRun.outcome ⟨directory, options, .tokens⟩ path).output
    let otherOutput := (FileRun.outcome ⟨otherDirectory, otherOptions, .tokens⟩ path).output
    let tokens := (lex source options).tokens
    let errors := (lex source options).session.errors
    output =
      (tokens.map (tokenLine path) ++ errors.toList.map (errorLine path)).flatten ∧
    (∀ token ∈ tokens, ∃ line, tokenLine path token = line ++ ['\n'] ∧ '\n' ∉ line) ∧
    (∀ error ∈ errors.toList, ∃ line, errorLine path error = line ++ ['\n'] ∧ '\n' ∉ line) ∧
    (output = otherOutput →
      tokens = (lex other otherOptions).tokens ∧
        errors = (lex other otherOptions).session.errors) := by
  intro output otherOutput tokens errors
  have plain (source : Text) (options : Options) :=
    Entry.isPlain_of_listed ((Setup.ofOptions options).session source) rfl
  refine ⟨?_, ?_, ?_, ?_⟩
  · rw [List.flatten_append, ← Entry.flatMap_listed]
    exact output_eq_printed directory options path source here
  · intro token member
    have inList : Entry.token token ∈ Entry.listed tokens errors.toList :=
      List.mem_append_left _ (List.mem_map_of_mem member)
    exact ⟨_, rfl, Entry.no_feed_line path clean _ (plain source options _ inList)⟩
  · intro error member
    have inList : Entry.error error ∈ Entry.listed tokens errors.toList :=
      List.mem_append_right _ (List.mem_map_of_mem member)
    exact ⟨_, rfl, Entry.no_feed_line path clean _ (plain source options _ inList)⟩
  · intro same
    have sameLines := (output_eq_printed directory options path source here).symm.trans
      (same.trans (output_eq_printed otherDirectory otherOptions path other there))
    have sameEntries := Entry.printed_unique path clean _ _ (plain source options)
      (plain other otherOptions) sameLines
    obtain ⟨sameTokens, sameErrors⟩ := Entry.listed_injective _ _ _ _ sameEntries
    exact ⟨sameTokens, Array.toList_inj.1 sameErrors⟩

/-- A literal of two lines and a character that no shape reads, under limits of two and of
three lines. -/
theorem printed_lines_of_literal_and_error :
    let source : Text := ['"', '\n', '"', ' ', '€']
    let directory : Directory := fun path => if path = ['f'] then some source else none
    let output (lines : Nat) := (FileRun.outcome ⟨directory, ⟨lines⟩, .tokens⟩ ['f']).output
    '\n' ∉ ['f'] ∧ directory ['f'] = some source ∧
    output 2 = ("f:1 STRING \"\\\"\\n\\\"\" \"\\n\"\n".toList ++
      "f:2 ERROR \"€\"\n".toList ++ "f:2: Erroneous token '€'\n".toList) ∧
    output 2 = output 3 ∧
    (lex source ⟨2⟩).tokens = (lex source ⟨3⟩).tokens ∧
    (lex source ⟨2⟩).session.errors = (lex source ⟨3⟩).session.errors := by
  intro source directory output
  have finishedTwo : lex source ⟨2⟩ = _ :=
    (Session.Reaches.step rfl (.step rfl (.step rfl (.here _)))).finish_of_end rfl
  have finishedThree : lex source ⟨3⟩ = _ :=
    (Session.Reaches.step rfl (.step rfl (.step rfl (.here _)))).finish_of_end rfl
  have clean : '\n' ∉ ['f'] := by decide
  obtain ⟨two, _, _, readBack⟩ := printed_lines_are_read_back ['f'] clean directory directory
    ⟨2⟩ ⟨3⟩ source source rfl rfl
  obtain ⟨three, _⟩ := printed_lines_are_read_back ['f'] clean directory directory
    ⟨3⟩ ⟨2⟩ source source rfl rfl
  rw [finishedTwo] at two
  rw [finishedThree] at three
  have same : output 2 = output 3 := two.trans three.symm
  obtain ⟨sameTokens, sameErrors⟩ := readBack same
  exact ⟨clean, rfl, two.trans (by decide +kernel), same, sameTokens, sameErrors⟩

end FileRun

end LedgerLexer
