import SmallLisp.Program

/-!
# `SmallLisp.Main` — the command line

With the path of a program file as its argument the program runs that file; without one it answers the lines
of its standard input. The option `-v`, which asks for a log, is accepted and changes nothing here.
-/

namespace SmallLisp

/-- Answers the lines of a stream as they come in. -/
partial def answerLines (input output : IO.FS.Stream) (session : Session) : IO Unit := do
  let line ← input.getLine
  if line.isEmpty then return
  let (next, text) := Lines.steps session (Text.lines line)
  output.putStr text
  output.flush
  answerLines input output next

/-- Runs the program of a file. -/
def runFile (path : String) : IO Exit := do
  match ← (IO.FS.readFile path).toBaseIO with
  | .ok source => return Program.run Session.defaultLimit source
  | .error _   => return Program.missing path

/-- Whether an argument only asks for a log. -/
def asksForLog (arg : String) : Bool := arg ∈ ["-v", "-vv", "--verbose"]

end SmallLisp

open SmallLisp in
/-- Runs the file named by the first argument, or answers the lines of standard input. -/
def main (args : List String) : IO UInt32 := do
  match args.filter fun arg => !asksForLog arg with
  | []        =>
    answerLines (← IO.getStdin) (← IO.getStdout) (Session.root Session.defaultLimit)
    return 0
  | path :: _ =>
    let exit ← runFile path
    (← IO.getStdout).putStr exit.stdout
    (← IO.getStderr).putStr exit.stderr
    return UInt32.ofNat exit.code
