import Courier.Text.Blank
import Courier.Text.Decimal
import Courier.Text.Hex

/-!
# Commands and their options

The tables that define the command line: which commands there are, which options
each of them takes, and how the value of an option is read.
-/

namespace Courier

/-- How the value of an option is read. -/
inductive OptionKind
  | flag
  | text
  | file
  | bytes
  | count
  deriving DecidableEq, Repr

/-- The value of an option on the command line. -/
inductive OptionValue
  | flag
  | text (s : String)
  | bytes (b : Bytes)
  | count (n : Nat)
  deriving DecidableEq, Repr

/-- An option: its name, its value, and what it goes with. -/
structure OptionRow where
  name : String
  kind : OptionKind
  help : String
  short : Option Char := none
  required : Bool := false
  excludes : List String := []

/-- A command with its own options. -/
structure CommandRow where
  name : String
  about : String
  options : List OptionRow

/-- Why a command line cannot be followed; the first two ask for help. -/
inductive UsageFault
  | help (command : Option String)
  | nothingGiven
  | noCommand
  | unknownCommand (word : String)
  | unknownArgument (word : String)
  | noValue (option : String)
  | badValue (option : String) (why : String)
  | unwantedValue (option : String)
  | conflict (option : String)
  | missingOption (option : String)
  deriving DecidableEq, Repr

namespace HexArgument

/-- The text without any number of leading `0x`. -/
def dropMarks : List Char → List Char
  | '0' :: 'x' :: rest => dropMarks rest
  | cs => cs

/-- Reads bytes in hexadecimal, with blanks around them and `0x` in front. -/
def parse (text : String) : Except String Bytes :=
  match Hex.decode (String.ofList (dropMarks (Blank.trim text.toList))) with
  | .ok b => .ok b
  | .error why => .error ("Invalid hex: " ++ why.message)

end HexArgument

namespace OptionRow

/-- Reads the value of an option.  A file has a name. -/
def readValue (row : OptionRow) (text : String) : Except UsageFault OptionValue :=
  match row.kind with
  | .flag => .ok .flag
  | .text => .ok (.text text)
  | .file => if text.isEmpty then .error (.noValue row.name) else .ok (.text text)
  | .bytes =>
      match HexArgument.parse text with
      | .ok b => .ok (.bytes b)
      | .error why => .error (.badValue row.name why)
  | .count =>
      match Decimal.read Decimal.longBound text.toList with
      | .ok n => .ok (.count n)
      | .error why => .error (.badValue row.name why.message)

end OptionRow

namespace CommandTable

/-- The options that every command takes. -/
def shared : List OptionRow :=
  [{ name := "config", kind := .file, help := "TOML settings file" },
    { name := "addr", kind := .text, help := "Emulator APDU socket as HOST:PORT" },
    { name := "blocks", kind := .flag
      help := "Use the block protocol for every command" },
    { name := "verbose", kind := .flag, help := "Log every protocol round"
      short := some 'v' }]

def commands : List CommandRow :=
  [{ name := "version", about := "Print the application name and version"
     options := [] },
    { name := "pubkey", about := "Get the public key for a derivation path"
      options :=
        [{ name := "path", kind := .text, required := true
           help := "Derivation path, e.g. m/44'/535348'/0'" },
          { name := "confirm", kind := .flag
            help := "Show the key on the device for approval" }] },
    { name := "sign", about := "Sign a transaction"
      options :=
        [{ name := "path", kind := .text, required := true
           help := "Derivation path of the signing key" },
          { name := "tx-hex", kind := .bytes, excludes := ["tx-file"]
            help := "Transaction bytes as hex" },
          { name := "tx-file", kind := .file
            help := "File holding the raw transaction" }] },
    { name := "chunks"
      about := "Print the chunk manifest for a payload without contacting a device"
      options :=
        [{ name := "chunk-size", kind := .count, help := "Payload bytes per chunk" },
          { name := "hex", kind := .bytes, excludes := ["file"]
            help := "Payload as hex" },
          { name := "file", kind := .file, help := "File holding the payload" }] }]

def find? (name : String) : Option CommandRow :=
  commands.find? (·.name == name)

end CommandTable
end Courier
