/-
The program: takes the arguments and the environment, reads the input files, prints
the answer and returns its status.
-/

import LedgerLexer.CommandLine
import LedgerLexer.Folder

namespace LedgerLexer

def readText? (path : Text) : IO (Option Text) := do
  try
    let bytes ← IO.FS.readBinFile (String.ofList path)
    pure (decodedText? bytes)
  catch _ => pure none

/-- The texts of the given paths, each read once. -/
def readDirectory (paths : List Text) : IO Directory := do
  let entries ← paths.eraseDups.mapM (fun path => do pure (path, ← readText? path))
  pure (fun path => (entries.lookup path).bind id)

def readEnvironment : IO Environment := do
  let stringLimit ← IO.getEnv "LUMI_LONG_STRING_MAXLINES"
  let threads ← IO.getEnv "LUMI_LEXER_THREADS"
  pure ⟨stringLimit.map String.toList, threads.map String.toList⟩

def wantedPaths : Option Request → List Text
  | some (.lex invocation) => invocation.inputs
  | _ => []

end LedgerLexer

open LedgerLexer in
def main (arguments : List String) : IO UInt32 := do
  let arguments := arguments.map String.toList
  let environment ← readEnvironment
  let directory ← readDirectory (wantedPaths (Request.read arguments))
  let reply := answer arguments environment directory []
  (← IO.getStdout).putStr (String.ofList reply.output)
  if reply.status = 2 then
    (← IO.getStderr).putStrLn "usage: lumi-lex [OPTIONS] --input <INPUTS> <COMMAND>"
  pure reply.status.toUInt32
