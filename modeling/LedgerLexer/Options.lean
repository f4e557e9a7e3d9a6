/-
Options of a session, and where they come from: the standard value, a setting given
as text, or a setup that is changed step by step. A limit below one line is raised
to one when it is set, and once more when a session starts, so that options built
by hand are safe too. A first line below one is raised only by a setup.
-/

import LedgerLexer.Numeral

namespace LedgerLexer

structure Options where
  /-- A string literal that spans more lines than this is given up. -/
  maxStringLines : Nat
  deriving DecidableEq

namespace Options

def standard : Options :=
  ⟨64⟩

def withLimit (lines : Nat) : Options :=
  ⟨max lines 1⟩

/-- The same options with a limit that a session can use. -/
def usable (options : Options) : Options :=
  withLimit options.maxStringLines

/-- A setting that is absent or is no size leaves the standard options. -/
def ofSetting (setting : Option Text) : Options :=
  match setting.bind readSize? with
  | some lines => withLimit lines
  | none => standard

/-- A limit of at least one line is kept as it is. -/
theorem usable_of_pos (options : Options) (positive : 1 ≤ options.maxStringLines) :
    options.usable = options := by
  unfold usable withLimit
  rw [Nat.max_eq_left positive]

theorem usable_limit_pos (options : Options) : 1 ≤ options.usable.maxStringLines :=
  Nat.le_max_right _ _

end Options

structure Setup where
  options : Options
  firstLine : Nat
  deriving DecidableEq

namespace Setup

def ofOptions (options : Options) : Setup :=
  ⟨options, 1⟩

def standard : Setup :=
  ofOptions Options.standard

def limitStrings (setup : Setup) (lines : Nat) : Setup :=
  { setup with options := Options.withLimit lines }

def startAt (setup : Setup) (line : Nat) : Setup :=
  { setup with firstLine := max line 1 }

end Setup

end LedgerLexer
