import Courier.Command.Table
import Courier.Settings.Environment

/-!
# Help and usage texts

What the program says about itself, made from the tables of commands and options:
the help for the program and for each command, and a line for each way in which a
command line can be wrong.  Variables of the process can ask for a style of the help.
-/

namespace Courier
/-- How texts of help are set off: what stands before headings, and what stands before
words to be typed. -/
structure Style where
  heading : String := ""
  word : String := ""
  deriving DecidableEq, Repr

namespace Style

def plain : Style := {}

/-- Headings and words are bold, and headings are underlined too. -/
def bright : Style := ⟨"\x1b[1m\x1b[4m", "\x1b[1m"⟩

/-- A text that is set off, and what ends that. -/
def put (code text : String) : String :=
  if code.isEmpty then text else code ++ text ++ "\x1b[0m"

/-- The style that the variables ask for; one of them asks for plain texts, and it
comes first. -/
def ofEnvironment (env : Environment) : Style :=
  let isSet (name : String) : Bool := (env name).any (!·.isEmpty)
  if isSet "CLICOLOR_FORCE" && !isSet "NO_COLOR" then bright else plain

def title (s : Style) (text : String) : String := put s.heading (text ++ ":")

def typed (s : Style) (text : String) : String := put s.word text

end Style

namespace Help

def program : String := "apdu-block-host"

/-- Two columns, the second one aligned.  The first one comes without and with what
sets it off, which takes no width. -/
def columns (rows : List ((String × String) × String)) : List String :=
  let width := rows.foldl (fun w r => max w r.1.1.length) 0
  rows.map fun r =>
    "  " ++ r.1.2 ++ String.ofList (List.replicate (width - r.1.1.length) ' ') ++ "  " ++
      r.2

def valueName (row : OptionRow) : String :=
  "<" ++ (row.name.map fun c => if c = '-' then '_' else c.toUpper) ++ ">"

/-- An option with its value. -/
def optionForm (s : Style) (row : OptionRow) : String :=
  s.typed ("--" ++ row.name) ++ (if row.kind = .flag then "" else " " ++ valueName row)

/-- An option as it is listed, with room for a short form. -/
def optionEntry (s : Style) (row : OptionRow) : String :=
  let short :=
    match row.short with
    | some c => s.typed ("-" ++ c.toString) ++ ", "
    | none => "    "
  short ++ optionForm s row

/-- A row of a list, in which `entry` is set off as the style says. -/
def listed (s : Style) (entry : Style → String) (text : String) :
    (String × String) × String :=
  ((entry Style.plain, entry s), text)

/-- Options with their place in their own list. -/
def numbered (rows : List OptionRow) : List (Nat × OptionRow) :=
  rows.zipIdx.map fun r => (r.2, r.1)

/-- The order of listing: by place, and by name where places are the same. -/
def listedBefore (a b : Nat × OptionRow) : Bool :=
  a.1 < b.1 || (a.1 == b.1 && a.2.name ≤ b.2.name)

/-- The list of the options of a command, its own and the shared ones. -/
def optionLines (s : Style) (own : List OptionRow) : List String :=
  let rows :=
    (numbered own ++ numbered CommandTable.shared).mergeSort listedBefore
  s.title "Options" :: columns
    ((rows.map fun r => listed s (optionEntry · r.2) r.2.help) ++
      [listed s (fun s => s.typed "-h" ++ ", " ++ s.typed "--help") "Print help"])

/-- The command that gives help, the last one in the list of commands. -/
def helpEntry : String × String :=
  ("help", "Print this message or the help of the given subcommand(s)")

/-- The line that shows how a command is called. -/
def usageLine (s : Style) (command rest : String) : String :=
  s.title "Usage" ++ " " ++ s.typed command ++ rest

def programHelp (s : Style) : String :=
  let commands := CommandTable.commands.map (fun c => (c.name, c.about)) ++ [helpEntry]
  String.intercalate "\n"
    (["Talk to a signing app over APDU", "",
      usageLine s program " [OPTIONS] <COMMAND>", "", s.title "Commands"] ++
      columns (commands.map fun c => listed s (·.typed c.1) c.2) ++
      [""] ++ optionLines s []) ++ "\n"

def commandHelp (s : Style) (row : CommandRow) : String :=
  let required := (row.options.filter (·.required)).map fun o => " " ++ optionForm s o
  String.intercalate "\n"
    ([row.about, "",
      usageLine s (program ++ " " ++ row.name) (" [OPTIONS]" ++ String.join required),
      ""] ++ optionLines s row.options) ++ "\n"

/-- The help for the command that gives help. -/
def helpHelp (s : Style) : String :=
  String.intercalate "\n"
    ([helpEntry.2, "", usageLine s (program ++ " " ++ helpEntry.1) " [COMMAND]...", "",
      s.title "Arguments"] ++
      columns [listed s (fun _ => "[COMMAND]...") "Print help for the subcommand(s)"]) ++
    "\n"

/-- The help for a command given by its name, or for the program. -/
def text (s : Style) (command : Option String) : String :=
  if command = some helpEntry.1 then helpHelp s
  else
    match command.bind CommandTable.find? with
    | some row => commandHelp s row
    | none => programHelp s

end Help

namespace UsageFault

/-- What is wrong with a command line. -/
def message (s : Style) : UsageFault → String
  | .help command => Help.text s command
  | .nothingGiven => Help.text s none
  | .noCommand => "error: a command is required"
  | .unknownCommand word => "error: unrecognized command '" ++ word ++ "'"
  | .unknownArgument word => "error: unexpected argument '" ++ word ++ "' found"
  | .noValue option => "error: a value is required for '--" ++ option ++ "'"
  | .badValue option why => "error: invalid value for '--" ++ option ++ "': " ++ why
  | .unwantedValue option => "error: '--" ++ option ++ "' takes no value"
  | .conflict option => "error: '--" ++ option ++ "' cannot be used here again"
  | .missingOption option => "error: '--" ++ option ++ "' is required"

end UsageFault
end Courier
