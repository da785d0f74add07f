import Courier.Settings

/-!
# Settings in the environment

Four variables that override settings.  They are applied one after another up to
the first one that cannot be read, and the outcome is validated.

* `Settings.applyEnvironment` gives the settings as they are left, with the error
  if there was one.
* `Settings.ofEnvironment` takes all overrides or none.
-/

namespace Courier

/-- The variables of a process; a value need not be text. -/
abbrev Environment := String → Option Bytes

namespace Environment

/-- The value of a variable, if it is text. -/
def text? (env : Environment) (name : String) : Option String :=
  match env name with
  | none => none
  | some bytes =>
      match Utf8.decode bytes with
      | .error _ => none
      | .ok text => some text

end Environment

namespace Settings

/-- The words that switch block transfers on; any other text switches them off. -/
def isYes (text : String) : Bool :=
  text == "1" || text == "true" || text == "yes"

/-- The override of a number, or the value it has without one. -/
def numberFrom (env : Environment) (name : String) (standard : Nat) :
    Except Failure Nat :=
  match env.text? name with
  | none => .ok standard
  | some text =>
      match Decimal.read Decimal.longBound text.toList with
      | .error why => .error (.config (.variable name text why))
      | .ok n => .ok n

/-- The settings with the overrides applied, and what went wrong. -/
def applyEnvironment (s : Settings) (env : Environment) :
    Except Failure Unit × Settings :=
  let s := { s with address := (env.text? "APDU_HOST_ADDR").getD s.address }
  match numberFrom env "APDU_HOST_CHUNK_SIZE" s.chunkSize with
  | .error e => (.error e, s)
  | .ok chunkSize =>
      let s := { s with chunkSize := chunkSize }
      match numberFrom env "APDU_HOST_MAX_ROUNDS" s.maxRounds with
      | .error e => (.error e, s)
      | .ok maxRounds =>
          let useBlocks :=
            match env.text? "APDU_HOST_BLOCKS" with
            | none => s.useBlocks
            | some text => isYes text
          let s := { s with maxRounds := maxRounds, useBlocks := useBlocks }
          (s.validate, s)

/-- The standard settings with all overrides, or without any if one of them does
not do. -/
def ofEnvironment (env : Environment) : Settings :=
  match standard.applyEnvironment env with
  | (.ok _, s) => s
  | (.error _, _) => standard

end Settings
end Courier
