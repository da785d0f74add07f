import Courier.Client
import Courier.Command.Arguments
import Courier.Command.Help
import Courier.Log
import Courier.Manifest
import Courier.Settings.Document
import Courier.Settings.Environment
import Courier.Socket.Address

/-!
# What a command line comes to

A command line, the variables of the process and the files that it names decide
what the program does: print a text, or talk to a device and print what comes of
it.

* `Arguments.settings` takes each setting from the first of: the flags, the
  environment, the settings file, the standard values.
* `Arguments.plan` decides; it looks at the path and the files before the address.
  Both are instances, at the reader for TOML, of what they are for any reader.
* `Plan.finish` gives the result, once it is known how connecting ends.
* `Outcome.ofResult` is what the program leaves behind: a text, or a record of a
  failure in a log.
-/

namespace Courier

/-- The files that a command line may name, by their paths. -/
abbrev Files := String → Except SystemFault Bytes

/-- What is left to do for a command. -/
inductive Plan
  | print (text : String)
  | talk (address : SocketAddress) (timeout : Nat)
      (dialogue : Dialogue (Except Failure String))

/-- What the program leaves behind. -/
structure Outcome where
  code : Nat
  output : String := ""
  error : Option String := none
  deriving DecidableEq, Repr

namespace Arguments

section Reading

variable (parse : String → Option Toml.Entries)

/-- The settings before the flags.  A settings file and its overrides have to be
good; without one, overrides that are not are left out as a whole. -/
def baseSettings (args : Arguments) (env : Environment) (files : Files) :
    Except Failure Settings :=
  match args.config with
  | none => .ok (Settings.ofEnvironment env)
  | some path =>
      match Settings.ofFileWith parse path (files path) with
      | .error e => .error e
      | .ok settings =>
          match settings.applyEnvironment env with
          | (.error e, _) => .error e
          | (.ok _, settings) => .ok settings

/-- The settings that a command sees, if `parse` reads the settings file. -/
def settingsWith (args : Arguments) (env : Environment) (files : Files) :
    Except Failure Settings :=
  (args.baseSettings parse env files).map fun s =>
    { s with
      address := args.address.getD s.address
      useBlocks := args.blocks || s.useBlocks }

end Reading

/-- The settings that a command sees. -/
def settings (args : Arguments) (env : Environment) (files : Files) :
    Except Failure Settings :=
  args.settingsWith Toml.Document.parse env files

end Arguments

namespace Command

/-- Bytes given on the command line, or else in a file. -/
def bytesFrom (files : Files) (missing : ConfigFault) :
    Option Bytes → Option String → Except Failure Bytes
  | some b, _ => .ok b
  | none, some path =>
      match files path with
      | .ok b => .ok b
      | .error why => .error (.input (.system why))
  | none, none => .error (.config missing)

def keyText (answer : KeyAnswer) : String :=
  "Public key: " ++ Hex.encode answer.publicKey ++ "\nChain code: " ++
    Hex.encode answer.chainCode ++ "\n"

/-- A plan to talk to the device at the address of the settings. -/
def talk {α : Type} (settings : Settings) (text : α → String)
    (dialogue : Client → Dialogue (Except Failure α)) : Except Failure Plan :=
  match SocketAddress.parse settings.address with
  | none => .error (.config (.badAddress settings.address))
  | some address =>
      .ok (.talk address settings.exchangeTimeout
        ((dialogue (Client.ofSettings settings)).bind fun result =>
          .done (result.map text)))

def manifest (settings : Settings) (size : Option Nat) (payload : Bytes) :
    Except Failure Plan := do
  let settings := { settings with chunkSize := size.getD settings.chunkSize }
  settings.validate
  let manifest ← Manifest.build payload settings.chunkSize
  .ok (.print (manifest.text ++ "\n"))

/-- The plan for a command under the settings. -/
def plan (settings : Settings) (files : Files) : Command → Except Failure Plan
  | .version => talk settings (·.text ++ "\n") Client.version
  | .pubkey path confirm => do
      let path ← Path.parse path
      talk settings keyText fun client =>
        if confirm then client.confirmedKey path else client.publicKey path
  | .sign path tx file => do
      let path ← Path.parse path
      let tx ← bytesFrom files .noTransaction tx file
      talk settings (fun signature => "Signature: " ++ Hex.encode signature ++ "\n")
        fun client => client.sign path tx
  | .chunks size payload file => do
      let payload ← bytesFrom files .noPayload payload file
      manifest settings size payload

end Command

namespace Arguments

/-- The plan for a command line, if `parse` reads the settings file. -/
def planWith (parse : String → Option Toml.Entries) (args : Arguments)
    (env : Environment) (files : Files) : Except Failure Plan := do
  let settings ← args.settingsWith parse env files
  args.command.plan settings files

/-- The plan for a command line. -/
def plan (args : Arguments) (env : Environment) (files : Files) :
    Except Failure Plan :=
  args.planWith Toml.Document.parse env files

/-- The paths of the files that a command line names. -/
def paths (args : Arguments) : List String :=
  args.config.toList ++
    match args.command with
    | .sign _ none (some path) => [path]
    | .chunks _ none (some path) => [path]
    | _ => []

end Arguments

namespace Outcome

/-- The outcome of a failure, of which the log may show nothing. -/
def ofFailure (log : Log.Filter) (e : Failure) : Outcome :=
  { code := 1, error := log.record? e.message }

/-- The outcome of a command line that cannot be followed; asking for help is not a
fault. -/
def ofUsage (style : Style) : UsageFault → Outcome
  | .help command => { code := 0, output := Help.text style command }
  | why => { code := 2, error := some (why.message style) }

/-- The outcome of a result to print. -/
def ofResult (log : Log.Filter) : Except Failure String → Outcome
  | .ok text => { code := 0, output := text }
  | .error e => ofFailure log e

end Outcome

namespace Plan

/-- The result of a plan.  The device is played on the channel to which connecting
leads, or it cannot be reached. -/
def finish {σ : Type} (connect : SocketAddress → Except SystemFault (Channel σ × σ)) :
    Plan → Except Failure String × Option σ
  | .print text => (.ok text, none)
  | .talk address _ dialogue =>
      match connect address with
      | .error why => (.error (.transport (.connect address.text why)), none)
      | .ok (channel, s) =>
          let played := dialogue.run channel s
          (played.1, some played.2)

end Plan
end Courier
