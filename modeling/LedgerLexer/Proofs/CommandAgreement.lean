/-
The two commands lex the same files and differ only in whether they print the tokens. For
every input they count the same errors, one for each error token, and what checking prints
is what printing the tokens adds at the end. So they leave the same status. It is zero
exactly when every input is there, is valid UTF-8 and has no error token; an input that
cannot be read costs one error and prints nothing.
-/

import LedgerLexer.Proofs.FolderPaths
import LedgerLexer.Proofs.Lines
import LedgerLexer.Proofs.PrintedLines

namespace LedgerLexer

def errorTokens (tokens : List Token) : List Token :=
  tokens.filter (fun token => token.kind == .error)

theorem errorTokens_eq_nil_iff (tokens : List Token) :
    errorTokens tokens = [] ↔ ∀ token ∈ tokens, token.kind ≠ .error := by
  simp only [errorTokens, List.filter_eq_nil_iff, beq_iff_eq, ne_eq]

private theorem Session.errors_length (session : Session) (fresh : session.errors = #[]) :
    session.finish.session.errors.toList.length = (errorTokens session.finish.tokens).length := by
  rw [session.reaches_finish.errors_eq, fresh, ← session.tokensOf_trail]
  exact session.reaches_finish.errorsOf_length

private theorem Session.lineFeeds_reports (session : Session) (fresh : session.errors = #[])
    (path : Text) :
    lineFeeds (session.finish.session.errors.toList.map (errorLine path)).flatten =
      session.finish.session.errors.size * (lineFeeds path + 1) := by
  have counted := Entry.lineFeeds_printed path
    (session.finish.session.errors.toList.map Entry.error)
    (fun entry member => Entry.isPlain_of_listed session fresh entry
      (List.mem_append_right _ member))
  rw [List.length_map, List.flatMap_map, Array.length_toList] at counted
  exact counted

/-- The line is the one for the token: it begins with the path and the shown form, and ends
with the only line feed besides those of the path. -/
structure Token.IsPrintedAs (path : Text) (token : Token) (line : Text) : Prop where
  begins : path ++ ':' :: (Nat.toDigits 10 token.line ++ ' ' :: (token.kind.label ++
    ' ' :: shownText token.lexeme)) <+: line
  ends : line.getLast? = some '\n'
  feeds : lineFeeds line = lineFeeds path + 1

/-- Behind the path and the number the line has the word for errors. -/
def showsError (path line : Text) : Bool :=
  " ERROR ".toList.isPrefixOf ((line.drop (path.length + 1)).dropWhile Char.isDigit)

private theorem Token.isPrintedAs_tokenLine (path : Text) (token : Token) (plain : token.IsPlain) :
    token.IsPrintedAs path (tokenLine path token) where
  begins := by
    refine ⟨token.shownValue ++ ['\n'], ?_⟩
    simp [tokenLine, Token.shown, numeral]
  ends := List.getLast?_concat
  feeds := Entry.lineFeeds_printed_one path (.token token) (.token plain)

private theorem behind_number (path : Text) (token : Token) :
    ∃ later, ((tokenLine path token).drop (path.length + 1)).dropWhile Char.isDigit =
      ' ' :: (token.kind.label ++ ' ' :: later) := by
  refine ⟨shownText token.lexeme ++ token.shownValue ++ ['\n'], ?_⟩
  have behindPath : (tokenLine path token).drop (path.length + 1) = numeral token.line ++
      ' ' :: (token.kind.label ++ ' ' :: (shownText token.lexeme ++ token.shownValue ++ ['\n'])) := by
    simp [tokenLine, Token.shown]
  rw [behindPath, Shape.dropWhile_append_of_all _ _ _ (numeral_isDigit token.line),
    Shape.dropWhile_of_stop _ _ rfl]

private theorem showsError_tokenLine (path : Text) (token : Token) :
    showsError path (tokenLine path token) = (token.kind == .error) := by
  obtain ⟨later, behind⟩ := behind_number path token
  rw [Bool.eq_iff_iff, showsError, behind, List.isPrefixOf_iff_prefix, beq_iff_eq]
  constructor
  · rintro ⟨rest, same⟩
    have sameLabel : Kind.error.label ++ ' ' :: rest = token.kind.label ++ ' ' :: later :=
      (List.cons.inj same).2
    obtain ⟨label, _⟩ := front_unique Char.isUpper _ _ _ _ Kind.error.label_isUpper
      token.kind.label_isUpper rfl rfl sameLabel
    exact (Kind.label_injective _ _ label).symm
  · intro isError
    rw [isError]
    exact ⟨later, rfl⟩

private theorem length_filter_showsError (path : Text) (tokens : List Token) :
    ((tokens.map (tokenLine path)).filter (showsError path)).length =
      (errorTokens tokens).length := by
  rw [List.filter_map, List.length_map, errorTokens]
  congr 2
  funext token
  exact showsError_tokenLine path token

/-- What printing the tokens and checking make of the same readable file. -/
structure Outcome.Agree (path source : Text) (options : Options) (printed checked : Outcome) :
    Prop where
  sameErrors : printed.errors = checked.errors
  /-- One line for each token, in the order of the tokens, and then what checking prints. -/
  tokensFirst : ∃ lines : List Text, printed.output = lines.flatten ++ checked.output ∧
    List.Forall₂ (Token.IsPrintedAs path) (lex source options).tokens lines ∧
    (lines.filter (showsError path)).length = checked.errors
  reportsOnly : checked.output =
    ((lex source options).session.errors.toList.map (errorLine path)).flatten
  reportCount : (lex source options).session.errors.toList.length = checked.errors
  reportLines : lineFeeds checked.output = checked.errors * (lineFeeds path + 1)
  errorCount : checked.errors = (errorTokens (lex source options).tokens).length

namespace FileRun

private theorem outcomes_agree (directory : Directory) (options : Options) (path source : Text)
    (found : directory path = some source) :
    Outcome.Agree path source options (FileRun.outcome ⟨directory, options, .tokens⟩ path)
      (FileRun.outcome ⟨directory, options, .check⟩ path) := by
  let session := (Setup.ofOptions options).session source
  rw [outcome_eq_lexed, outcome_eq_lexed, lexed_of_source _ path source found,
    lexed_of_source _ path source found]
  let tokens := (lex source options).tokens
  have errorCount := session.errors_length rfl
  rw [Array.length_toList] at errorCount
  have lines : List.Forall₂ (Token.IsPrintedAs path) tokens (tokens.map (tokenLine path)) := by
    rw [List.forall₂_map_right_iff, List.forall₂_same]
    exact fun token member =>
      token.isPrintedAs_tokenLine path (session.isPlain_of_finish token member)
  exact {
    sameErrors := rfl
    tokensFirst := ⟨tokens.map (tokenLine path), rfl, lines,
      (length_filter_showsError path tokens).trans errorCount.symm⟩
    reportsOnly := rfl
    reportCount := Array.length_toList
    reportLines := session.lineFeeds_reports rfl path
    errorCount := errorCount }

private theorem outcome_of_missing (run : FileRun) (path : Text)
    (absent : run.directory path = none) : run.outcome path = .missing := by
  rw [outcome_eq_lexed, lexed_of_missing run path absent]

/-- The path leads to a readable text, and no token of it is an error. -/
def IsClean (directory : Directory) (options : Options) (path : Text) : Prop :=
  ∃ source, directory path = some source ∧
    ∀ token ∈ (lex source options).tokens, token.kind ≠ .error

theorem errors_eq_zero_iff (run : FileRun) (path : Text) :
    (run.outcome path).errors = 0 ↔ IsClean run.directory run.options path := by
  rw [outcome_eq_lexed]
  cases found : run.directory path with
  | none =>
      rw [lexed_of_missing run path found, IsClean, found]
      exact ⟨nofun, nofun⟩
  | some source =>
      have counted := ((Setup.ofOptions run.options).session source).errors_length rfl
      rw [Array.length_toList] at counted
      rw [lexed_of_source run path source found, IsClean, found]
      change ((Setup.ofOptions run.options).session source).finish.session.errors.size = 0 ↔ _
      rw [counted, List.length_eq_zero_iff, errorTokens_eq_nil_iff]
      simp only [Option.some.injEq, exists_eq_left']
      rfl

end FileRun

theorem Answer.status_eq_zero_iff (outcomes : List Outcome) :
    (ofOutcomes outcomes).status = 0 ↔ ∀ outcome ∈ outcomes, outcome.errors = 0 := by
  have counted : outcomes.all (fun outcome => outcome.errors == 0) = true ↔
      ∀ outcome ∈ outcomes, outcome.errors = 0 := by
    simp only [List.all_eq_true, beq_iff_eq]
  rw [ofOutcomes, ← counted]
  split
  · rename_i clean
    exact iff_of_true rfl clean
  · rename_i faulty
    exact iff_of_false nofun faulty

private theorem Answer.status_zero_or_one (outcomes : List Outcome) :
    (ofOutcomes outcomes).status = 0 ∨ (ofOutcomes outcomes).status = 1 := by
  rw [ofOutcomes]
  split
  · exact .inl rfl
  · exact .inr rfl

namespace Invocation

variable (invocation : Invocation) (environment : Environment) (processors : Nat)
  (directory : Directory)

private theorem answer_eq_outcomes (schedule : List Nat) :
    invocation.answer environment processors directory schedule =
      Answer.ofOutcomes
        (invocation.inputs.map (invocation.run environment directory).outcome) := by
  have sameOutcome : (invocation.run environment directory).outcome =
      (invocation.run environment directory).lexed :=
    funext (invocation.run environment directory).outcome_eq_lexed
  rw [answer, sameOutcome, (invocation.run environment directory).outcomes_eq_lexed _ _ _
    (invocation.threads_pos environment processors)]

theorem status_eq_zero_iff (schedule : List Nat) :
    (invocation.answer environment processors directory schedule).status = 0 ↔
      ∀ path ∈ invocation.inputs,
        FileRun.IsClean directory (invocation.options environment) path := by
  rw [answer_eq_outcomes, Answer.status_eq_zero_iff, List.forall_mem_map]
  exact forall₂_congr (fun path _ =>
    (invocation.run environment directory).errors_eq_zero_iff path)

private theorem status_zero_or_one (schedule : List Nat) :
    (invocation.answer environment processors directory schedule).status = 0 ∨
      (invocation.answer environment processors directory schedule).status = 1 := by
  rw [answer_eq_outcomes]
  exact Answer.status_zero_or_one _

private theorem output_eq (schedule : List Nat) :
    (invocation.answer environment processors directory schedule).output =
      invocation.inputs.flatMap
        (fun path => ((invocation.run environment directory).outcome path).output) := by
  rw [answer_eq_outcomes, Answer.ofOutcomes, List.map_map]
  rfl

/-- Printing the tokens and checking agree: on every readable file, on every other path,
and in the status they leave, which is zero exactly when every input is readable and has no
error token. The output joins those of the inputs in their order, and to leave out an input
that cannot be read changes nothing of it. In a folder of files the readable paths are
those of its files in UTF-8. -/
theorem commands_agree (directory : Directory) (environment : Environment) (limit : Option Nat)
    (inputs : List Text) (processors otherProcessors : Nat) (schedule otherSchedule : List Nat) :
    let answer (command : Command) (inputs : List Text) (processors : Nat) :=
      (⟨inputs, limit, command⟩ : Invocation).answer environment processors directory
    let options := (⟨inputs, limit, .check⟩ : Invocation).options environment
    let outcome (command : Command) := FileRun.outcome ⟨directory, options, command⟩
    let printing := answer .tokens inputs processors schedule
    let checking := answer .check inputs otherProcessors otherSchedule
    (∀ options path source, directory path = some source →
      Outcome.Agree path source options (FileRun.outcome ⟨directory, options, .tokens⟩ path)
        (FileRun.outcome ⟨directory, options, .check⟩ path)) ∧
    (∀ options command path, directory path = none →
      FileRun.outcome ⟨directory, options, command⟩ path = ⟨[], 1⟩) ∧
    printing.status = checking.status ∧
    (checking.status = 0 ↔ ∀ path ∈ inputs, FileRun.IsClean directory options path) ∧
    (checking.status = 0 ∨ checking.status = 1) ∧
    (∀ command, (answer command inputs processors schedule).output =
      inputs.flatMap (fun path => (outcome command path).output)) ∧
    (∀ command path before behind, directory path = none →
      (answer command (before ++ path :: behind) processors schedule).output =
        (answer command (before ++ behind) otherProcessors otherSchedule).output) ∧
    ∀ (folder : Folder) (path source : Text),
      folder.directory path = some source ↔ folder.Holds path source := by
  intro answer options outcome printing checking
  have missing (options : Options) (command : Command) (path : Text)
      (absent : directory path = none) :
      FileRun.outcome ⟨directory, options, command⟩ path = ⟨[], 1⟩ :=
    FileRun.outcome_of_missing _ path absent
  have clean (command : Command) (processors : Nat) (schedule : List Nat) :
      (answer command inputs processors schedule).status = 0 ↔
        ∀ path ∈ inputs, FileRun.IsClean directory options path :=
    status_eq_zero_iff _ environment processors directory schedule
  have outputs (command : Command) (inputs : List Text) (processors : Nat)
      (schedule : List Nat) : (answer command inputs processors schedule).output =
        inputs.flatMap (fun path => (outcome command path).output) :=
    output_eq _ environment processors directory schedule
  have printingStatus : printing.status = 0 ∨ printing.status = 1 :=
    status_zero_or_one _ environment processors directory schedule
  have checkingStatus : checking.status = 0 ∨ checking.status = 1 :=
    status_zero_or_one _ environment otherProcessors directory otherSchedule
  refine ⟨FileRun.outcomes_agree directory, missing, ?_, clean .check otherProcessors otherSchedule,
    checkingStatus, fun command => outputs command inputs processors schedule, ?_,
    Folder.directory_eq_some_iff⟩
  · have sameZero : printing.status = 0 ↔ checking.status = 0 :=
      (clean .tokens processors schedule).trans (clean .check otherProcessors otherSchedule).symm
    omega
  · intro command path before behind absent
    rw [outputs, outputs, List.flatMap_append, List.flatMap_append, List.flatMap_cons,
      show outcome command path = ⟨[], 1⟩ from missing options command path absent,
      List.nil_append]

end Invocation

/-- Neither the number of workers nor the order of their steps shows in what the program
answers, so the processors of the machine do not matter to it. -/
theorem answer_of_any_schedule (arguments : List Text) (environment : Environment)
    (directory : Directory) (schedule otherSchedule : List Nat)
    (processors otherProcessors : Nat) :
    answer arguments environment directory schedule processors =
      answer arguments environment directory otherSchedule otherProcessors := by
  unfold answer
  cases Request.read arguments with
  | none => rfl
  | some request =>
      cases request with
      | version => rfl
      | help => rfl
      | lex invocation =>
          have answered (processors : Nat) (schedule : List Nat) :=
            invocation.answer_eq_outcomes environment processors directory schedule
          exact (answered processors schedule).trans (answered otherProcessors otherSchedule).symm

end LedgerLexer
