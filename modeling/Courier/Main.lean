import Courier.Command.Plan
import Courier.Host.Connection

/-!
# The program

The outer layer of the program: it collects the command line, the variables and the
files, lets the plan be made, and carries it out over a socket.  It ends with 0 when
all went well, with 1 after a failure and with 2 after a command line that cannot
be followed.
-/

namespace Courier
namespace Program

/-- The variable that holds the filter of the log. -/
def filterName : String := "RUST_LOG"

/-- The variables that are looked at: overrides of settings, the style of the help and
the filter of the log. -/
def variableNames : List String :=
  ["APDU_HOST_ADDR", "APDU_HOST_CHUNK_SIZE", "APDU_HOST_MAX_ROUNDS",
    "APDU_HOST_BLOCKS", "CLICOLOR_FORCE", "NO_COLOR", filterName]

def environment : IO Environment := do
  let pairs ← variableNames.filterMapM fun name => do
    return (← IO.getEnv name).map fun value => (name, Utf8.encode value)
  return fun name => pairs.lookup name

def readFile (path : String) : IO (Except SystemFault Bytes) := do
  try return .ok (← IO.FS.readBinFile path).toList
  catch e => return .error (SystemFault.ofError e)

/-- Reads the files with the given paths; no other file is there. -/
def readFiles (paths : List String) : IO Files := do
  let contents ← paths.mapM fun path => do return (path, ← readFile path)
  return fun path =>
    (contents.lookup path).getD (.error SystemFault.noSuchFile)

def carryOut : Plan → IO (Except Failure String)
  | .print text => return .ok text
  | .talk address timeout dialogue => do
      match ← Connection.establish address timeout with
      | .error why => return .error (.transport (.connect address.text why))
      | .ok connection => dialogue.perform connection.exchange IO.monoMsNow

/-- Follows a command line. -/
def follow (args : List String) : IO Outcome := do
  let env ← environment
  match Arguments.parse args with
  | .error why => return Outcome.ofUsage (Style.ofEnvironment env) why
  | .ok arguments =>
      let files ← readFiles arguments.paths
      let log := ((env.text? filterName).map Log.Filter.parse).getD {}
      match arguments.plan env files with
      | .error e => return Outcome.ofFailure log e
      | .ok plan => return Outcome.ofResult log (← carryOut plan)

def report (o : Outcome) : IO UInt32 := do
  IO.print o.output
  match o.error with
  | none => pure ()
  | some text => IO.eprintln ((if o.code = 1 then Log.Record.opening else "") ++ text)
  return UInt32.ofNat o.code

end Program
end Courier

def main (args : List String) : IO UInt32 := do
  Courier.Program.report (← Courier.Program.follow args)
