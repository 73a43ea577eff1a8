import TxTree.Command.Run

set_option relaxedAutoImplicit false
set_option autoImplicit false

/-!
# The program

The command line over the file system: the file that is asked for is read, the command is run on
its text, and what it prints goes to the two output streams.

## Main definitions

* `main` — the program.
-/

namespace TxTree.Command

/-- The text of a file of the file system. -/
def readSource (path : String) : IO (Except ReadError String) := do
  try
    let bytes ← IO.FS.readBinFile path
    return decode bytes
  catch e =>
    match e with
    | .noFileOrDirectory .. => return .error .notFound
    | .inappropriateType _ code _ =>
      -- A file in the place of a directory has the code 20; some calls report codes negated.
      return .error (if code == 20 || code == -20 then .notDirectory else .isDirectory)
    | e => return .error (.other (toString e))

/-- Whether colours are wanted: by the environment, or else if a terminal is there to show
them. -/
def wantsColor : IO Bool := do
  if (← IO.getEnv "CLICOLOR_FORCE").any (· != "0") then return true
  if (← IO.getEnv "NO_COLOR").isSome then return false
  (← IO.getStdout).isTty

/-- Reads the file that is asked for and runs the command on it. -/
def runOnFiles (color : Bool) (args : List String) : IO Outcome := do
  match Invocation.ofArgs? args with
  | none => return usage color
  | some i =>
    match i.request.file? with
    | none => return run color (fun _ => .error .notFound) i
    | some path =>
      let source ← readSource path
      return run color (fun _ => source) i

end TxTree.Command

/-- The program: runs the command and prints what it says. -/
def main (args : List String) : IO UInt32 := do
  let color ← TxTree.Command.wantsColor
  let outcome ← TxTree.Command.runOnFiles color args
  for line in outcome.out do
    IO.println line
  for line in outcome.err do
    IO.eprintln line
  return outcome.code.toUInt32
