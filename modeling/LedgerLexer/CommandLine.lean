/-
The command line: options, then one command. Inputs are given one by one and at
least one is needed; the limit on string lines is given at most once and overrides
the setting of the environment. An option may carry its value itself, behind an
equals sign or, in its short form, directly; otherwise the next argument is its
value, unless that looks like an option. Asking for the version or for help ends the
reading at once; the text of the help is not part of the answer. After the command
only the end mark for options may stand.
-/

import LedgerLexer.FileReport

namespace LedgerLexer

inductive OptionName where
  | input
  | limit
  deriving DecidableEq

inductive Argument where
  | command (command : Command)
  | helpCommand
  | version
  | help
  | option (name : OptionName) (value : Option Text)
  | unknown
  deriving DecidableEq

namespace Argument

/-- The value of a long option behind its equals sign. -/
def attached (written : Text) : Option Text :=
  match written.dropWhile (· != '=') with
  | _ :: value => some value
  | [] => none

def ofLong (written : Text) : Argument :=
  let name := written.takeWhile (· != '=')
  let value := attached written
  if name = "input".toList then option .input value
  else if name = "long-string-maxlines".toList then option .limit value
  else if value.isSome then unknown
  else if name = "version".toList then version
  else if name = "help".toList then help
  else unknown

def ofShort (letter : Char) (written : Text) : Argument :=
  if letter = 'i' then
    match written with
    | [] => option .input none
    | '=' :: value => option .input (some value)
    | value => option .input (some value)
  else if letter = 'V' then version
  else if letter = 'h' then help
  else unknown

def read (argument : Text) : Argument :=
  match argument with
  | ['-', '-'] => unknown
  | '-' :: '-' :: written => ofLong written
  | '-' :: letter :: written => ofShort letter written
  | _ =>
      if argument = "tokens".toList then command .tokens
      else if argument = "check".toList then command .check
      else if argument = "help".toList then helpCommand
      else unknown

/-- A lone hyphen is a value, and so is the empty text. -/
def isValue (argument : Text) : Bool :=
  argument == ['-'] || argument.head? != some '-'

end Argument

/-! ### Requests -/

structure Invocation where
  inputs : List Text
  limit : Option Nat
  command : Command
  deriving DecidableEq

inductive Request where
  | version
  | help
  | lex (invocation : Invocation)
  deriving DecidableEq

structure GivenOptions where
  inputs : List Text
  limit : Option Nat
  deriving DecidableEq

namespace GivenOptions

def none : GivenOptions :=
  ⟨[], Option.none⟩

def add (given : GivenOptions) (name : OptionName) (value : Text) : Option GivenOptions :=
  match name with
  | .input => some { given with inputs := given.inputs ++ [value] }
  | .limit =>
      if given.limit.isSome then Option.none
      else (readSize? value).map (fun lines => { given with limit := some lines })

def invocation (given : GivenOptions) (command : Command) : Option Invocation :=
  if given.inputs.isEmpty then Option.none
  else some ⟨given.inputs, given.limit, command⟩

end GivenOptions

namespace Request

def ofCommand (given : GivenOptions) (command : Command) (rest : List Text) : Option Request :=
  match rest with
  | [] => (given.invocation command).map lex
  | argument :: _ =>
      if Argument.read argument = .help then some help
      else if rest = ["--".toList] then (given.invocation command).map lex
      else none

def ofHelpCommand : List Text → Option Request
  | [] => some help
  | [name] =>
      match Argument.read name with
      | .command _ | .helpCommand => some help
      | _ => none
  | _ => none

/-- Nothing when the arguments are no use of the program. -/
def readFrom (given : GivenOptions) : List Text → Option Request
  | [] => none
  | argument :: rest =>
      match Argument.read argument with
      | .command command => ofCommand given command rest
      | .helpCommand => ofHelpCommand rest
      | .version => some version
      | .help => some help
      | .option name (some value) => (given.add name value).bind (readFrom · rest)
      | .option name none =>
          match rest with
          | value :: later =>
              if Argument.isValue value then (given.add name value).bind (readFrom · later)
              else none
          | [] => none
      | .unknown => none

def read (arguments : List Text) : Option Request :=
  readFrom GivenOptions.none arguments

end Request

/-! ### Answers -/

structure Environment where
  stringLimit : Option Text
  threads : Option Text

structure Answer where
  status : Nat
  output : Text
  deriving DecidableEq

namespace Answer

def versionText : Text :=
  "lumi-lex 0.1.0\n".toList

def usageFault : Answer :=
  ⟨2, []⟩

def ofOutcomes (outcomes : List Outcome) : Answer :=
  { status := if outcomes.all (fun outcome => outcome.errors == 0) then 0 else 1
    output := (outcomes.map Outcome.output).flatten }

end Answer

def Invocation.options (invocation : Invocation) (environment : Environment) : Options :=
  match invocation.limit with
  | some lines => Options.withLimit lines
  | none => Options.ofSetting environment.stringLimit

def Invocation.run (invocation : Invocation) (environment : Environment) (directory : Directory) :
    FileRun :=
  ⟨directory, invocation.options environment, invocation.command⟩

/-- The workers that the environment asks for; one for each processor when it asks for none. -/
def Invocation.threads (invocation : Invocation) (environment : Environment) (processors : Nat) :
    Nat :=
  workerCount ((environment.threads.bind readSize?).getD processors) invocation.inputs.length

def Invocation.answer (invocation : Invocation) (environment : Environment) (processors : Nat)
    (directory : Directory) (schedule : List Nat) : Answer :=
  Answer.ofOutcomes ((invocation.run environment directory).outcomes
    (invocation.threads environment processors) schedule invocation.inputs)

def Request.answer (request : Request) (environment : Environment) (processors : Nat)
    (directory : Directory) (schedule : List Nat) : Answer :=
  match request with
  | .version => ⟨0, Answer.versionText⟩
  | .help => ⟨0, []⟩
  | .lex invocation => invocation.answer environment processors directory schedule

/-- The machine has one processor unless another count is given. -/
def answer (arguments : List Text) (environment : Environment) (directory : Directory)
    (schedule : List Nat) (processors : Nat := 1) : Answer :=
  match Request.read arguments with
  | some request => request.answer environment processors directory schedule
  | none => Answer.usageFault

end LedgerLexer
