import Courier.Command.Table

/-!
# Options on a command line

The reader of one level of a command line, given the options that may stand
there.  An option whose value is a word of its own is settled only when the next
option comes up, or at the end; so of two faults the one that is met first is
reported.

* `Level.word` takes in one word and `Level.words` all of them, up to a command.
* `Level.settle` settles the option at hand.
* `Level.check` looks at the options of a level as a whole.
-/

namespace Courier

/-- The options of one level while it is read: those that are settled, the one at
hand with its value, whether that value is still awaited, and whether the rest of
the line is closed to options. -/
structure Level where
  rows : List OptionRow
  settled : List (String × OptionValue) := []
  atHand : Option (OptionRow × Option String) := none
  awaiting : Bool := false
  closed : Bool := false

namespace Level

/-- Settles an option with its value.  No option is given twice. -/
def put (l : Level) (row : OptionRow) (value : Option String) :
    Except UsageFault Level :=
  match row.kind, value with
  | .flag, _ =>
      if (l.settled.lookup row.name).isSome then .error (.conflict row.name)
      else .ok { l with settled := l.settled ++ [(row.name, .flag)] }
  | _, none => .error (.noValue row.name)
  | _, some text =>
      if (l.settled.lookup row.name).isSome then .error (.conflict row.name)
      else
        match row.readValue text with
        | .error e => .error e
        | .ok v => .ok { l with settled := l.settled ++ [(row.name, v)] }

/-- Settles the option at hand, if there is one. -/
def settle (l : Level) : Except UsageFault Level :=
  match l.atHand with
  | none => .ok l
  | some (row, value) => { l with atHand := none }.put row value

/-- Takes in an option without a value of its own in the word. -/
def option (l : Level) (row : OptionRow) : Except UsageFault Level :=
  match l.settle with
  | .error e => .error e
  | .ok l =>
      if row.kind = .flag then
        match l.put row none with
        | .error e => .error e
        | .ok l => .ok { l with awaiting := false }
      else .ok { l with atHand := some (row, none), awaiting := true }

/-- A request for help about a command; the option at hand is settled first. -/
def help (l : Level) (command : Option String) : Except UsageFault Level :=
  match l.settle with
  | .error e => .error e
  | .ok _ => .error (.help command)

/-- Takes in a word that starts with two dashes. -/
def long (l : Level) (command : Option String) (word : List Char) :
    Except UsageFault Level :=
  let (name, value) := (word.drop 2).span (· != '=')
  let name := String.ofList name
  if name = "help" then
    if value.isEmpty then l.help command else .error (.unwantedValue name)
  else
    match l.rows.find? (·.name == name) with
    | none => .error (.unknownArgument (String.ofList word))
    | some row =>
        match value with
        | [] => l.option row
        | _ :: text =>
            if row.kind = .flag then .error (.unwantedValue name)
            else
              match l.settle with
              | .error e => .error e
              | .ok l =>
                  match l.put row (some (String.ofList text)) with
                  | .error e => .error e
                  | .ok l => .ok { l with awaiting := false }

/-- Takes in the letters behind a single dash. -/
def short (l : Level) (command : Option String) :
    List Char → Except UsageFault Level
  | [] => .ok l
  | c :: rest =>
      if c = 'h' then l.help command
      else
        match l.rows.find? (·.short == some c) with
        | none => .error (.unknownArgument ("-" ++ c.toString))
        | some row =>
            match l.option row with
            | .error e => .error e
            | .ok l => l.short command rest

/-- What a word is to a level: taken in, or none of its business. -/
inductive Taken
  | taken (l : Level)
  | stray

/-- Takes in one word, unless it is neither an option nor a value. -/
def word (l : Level) (command : Option String) (w : String) :
    Except UsageFault Taken :=
  if l.closed then .ok .stray
  else
    match w.toList with
    | ['-', '-'] => .ok (.taken { l with closed := true })
    | '-' :: '-' :: _ => (l.long command w.toList).map .taken
    | '-' :: c :: rest => (l.short command (c :: rest)).map .taken
    | _ =>
        match l.awaiting, l.atHand with
        | true, some (row, _) =>
            .ok (.taken { l with atHand := some (row, some w), awaiting := false })
        | _, _ => .ok .stray

/-- Two options that exclude each other and are both given. -/
def exclusion? (l : Level) : Option String :=
  (l.rows.find? fun row =>
    (l.settled.lookup row.name).isSome &&
      row.excludes.any fun other => (l.settled.lookup other).isSome).map (·.name)

/-- A required option that is not given. -/
def missing? (l : Level) : Option String :=
  (l.rows.find? fun row =>
    row.required && (l.settled.lookup row.name).isNone).map (·.name)

/-- Looks at the options as a whole: exclusions first, then missing ones. -/
def check (l : Level) : Except UsageFault Level :=
  match l.exclusion?, l.missing? with
  | some name, _ => .error (.conflict name)
  | none, some name => .error (.missingOption name)
  | none, none => .ok l

def textOf (l : Level) (name : String) : Option String :=
  match l.settled.lookup name with
  | some (.text s) => some s
  | _ => none

def bytesOf (l : Level) (name : String) : Option Bytes :=
  match l.settled.lookup name with
  | some (.bytes b) => some b
  | _ => none

def countOf (l : Level) (name : String) : Option Nat :=
  match l.settled.lookup name with
  | some (.count n) => some n
  | _ => none

def has (l : Level) (name : String) : Bool :=
  (l.settled.lookup name).isSome

end Level
end Courier
