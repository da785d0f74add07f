import Courier.Command.Matches

/-!
# Command lines

A command line is options that every command takes, a command, and the options of
the command.  The shared options may stand before the command or behind it; where
one stands in both places, the one behind the command counts.

* `Arguments.parse` reads a command line.
-/

namespace Courier

/-- What the program is asked to do. -/
inductive Command
  | version
  | pubkey (path : String) (confirm : Bool)
  | sign (path : String) (tx : Option Bytes) (file : Option String)
  | chunks (size : Option Nat) (payload : Option Bytes) (file : Option String)
  deriving DecidableEq, Repr

structure Arguments where
  config : Option String
  address : Option String
  blocks : Bool
  verbose : Bool
  command : Command
  deriving DecidableEq, Repr

namespace Arguments

def commandOf (name : String) (l : Level) : Command :=
  if name = "version" then .version
  else if name = "pubkey" then
    .pubkey ((l.textOf "path").getD "") (l.has "confirm")
  else if name = "sign" then
    .sign ((l.textOf "path").getD "") (l.bytesOf "tx-hex") (l.textOf "tx-file")
  else .chunks (l.countOf "chunk-size") (l.bytesOf "hex") (l.textOf "file")

/-- Follows the words behind `help`: each has to name a command of the one before
it, and only the program has commands. -/
def helpFor : List String → UsageFault
  | [] => .help none
  | [w] =>
      if w = "help" ∨ (CommandTable.find? w).isSome then .help (some w)
      else .unknownCommand w
  | w :: v :: _ =>
      if w = "help" ∨ (CommandTable.find? w).isSome then .unknownCommand v
      else .unknownCommand w

/-- Reads the words behind a command. -/
def readCommand (row : CommandRow) : Level → List String → Except UsageFault Level
  | l, [] =>
      match l.settle with
      | .error e => .error e
      | .ok l => l.check
  | l, w :: rest =>
      match l.word (some row.name) w with
      | .error e => .error e
      | .ok .stray => .error (.unknownArgument w)
      | .ok (.taken l) => readCommand row l rest

/-- Puts the two levels of a command line together. -/
def combine (name : String) (outer inner : Level) : Arguments where
  config := (inner.textOf "config").or (outer.textOf "config")
  address := (inner.textOf "addr").or (outer.textOf "addr")
  blocks := inner.has "blocks" || outer.has "blocks"
  verbose := inner.has "verbose" || outer.has "verbose"
  command := commandOf name inner

/-- Reads the words up to the command, and then those behind it. -/
def readFrom : Level → List String → Except UsageFault Arguments
  | l, [] =>
      match l.settle with
      | .error e => .error e
      | .ok l => .error (if l.settled.isEmpty then .nothingGiven else .noCommand)
  | l, w :: rest =>
      let row? := CommandTable.find? w
      if !l.closed && !l.awaiting && w == "help" then .error (helpFor rest)
      else
        match l.closed || l.awaiting, row? with
        | false, some row =>
            match readCommand row
                { rows := row.options ++ CommandTable.shared } rest with
            | .error e => .error e
            | .ok inner =>
                match l.settle with
                | .error e => .error e
                | .ok l => .ok (combine row.name l inner)
        | _, _ =>
            match l.word none w with
            | .error e => .error e
            | .ok .stray =>
                if l.closed && (w == "help" || row?.isSome) then
                  .error (.unknownArgument w)
                else .error (.unknownCommand w)
            | .ok (.taken l) => readFrom l rest

/-- Reads a command line, without the name of the program. -/
def parse (words : List String) : Except UsageFault Arguments :=
  readFrom { rows := CommandTable.shared } words

end Arguments
end Courier
