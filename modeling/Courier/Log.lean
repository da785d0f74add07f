import Courier.Pattern.Reader
import Courier.Text.Parts

/-!
# Records of failures

A failure that ends the program is left in its log as a record: one text, written
so that the lines after the first one stand back.  A filter may hold records
back.  It is a list of rules, each for the targets that begin with a given text,
and a pattern that some part of a record has to fit.

* `Record.indent` gives a text the form that it has in the log.
* `Filter.parse` reads a filter such as `info,apdu_block_host=off/no .* found`.
* `Filter.record?` gives the record of a failure, unless the filter holds it back.
-/

namespace Courier
namespace Log

/-- How far the records of a target are shown, from not at all to all of them. -/
inductive Threshold
  | off
  | error
  | warn
  | info
  | debug
  | trace
  deriving DecidableEq, Repr

namespace Threshold

def names : List (String × Threshold) :=
  [("off", .off), ("error", .error), ("warn", .warn), ("info", .info),
    ("debug", .debug), ("trace", .trace)]

/-- The threshold with a name, in large or small letters. -/
def named? (word : List Char) : Option Threshold :=
  names.lookup (String.ofList (word.map Char.toLower))

end Threshold

/-- A rule for the targets that begin with `start`; all of them begin with nothing. -/
structure Rule where
  start : List Char
  threshold : Threshold
  deriving DecidableEq, Repr

namespace Rule

/-- The rule that holds before any other is given. -/
def standard : Rule := ⟨[], .info⟩

/-- Reads a rule: a threshold for all targets, a target that is shown in full, or a
target and its threshold with `=` between them.  Other texts are no rules. -/
def parse? (text : List Char) : Option Rule :=
  match Parts.split '=' text with
  | [word] =>
      match Threshold.named? word with
      | some threshold => some ⟨[], threshold⟩
      | none => some ⟨word, .trace⟩
  | [start, word] =>
      let word := Blank.trim word
      if word.isEmpty then some ⟨start, .trace⟩
      else (Threshold.named? word).map fun threshold => ⟨start, threshold⟩
  | _ => none

/-- Says whether a rule is for a target. -/
def covers (rule : Rule) (target : List Char) : Bool :=
  rule.start.isPrefixOf target

/-- The rule that says more about its targets; of equals the second. -/
def closer (a b : Rule) : Rule :=
  if a.start.length ≤ b.start.length then b else a

end Rule

/-- What is shown of a log. -/
structure Filter where
  rules : List Rule := []
  pattern : Pattern := .empty
  deriving DecidableEq, Repr

namespace Record

/-- The target of the program's own records. -/
def target : List Char := "apdu_block_host".toList

/-- What stands before the message of a failure. -/
def opening : String := "Error: "

/-- A text with four blanks before each line but the first. -/
def indent (text : String) : String :=
  String.ofList (Parts.join "\n    ".toList (Parts.split '\n' text.toList))

end Record

namespace Filter

/-- Reads a filter: rules with commas between them, and behind a slash a pattern,
which counts for nothing if it cannot be used.  With more than one slash the whole
filter counts for nothing. -/
def parse (text : String) : Filter :=
  let rules (part : List Char) : List Rule :=
    (((Parts.split ',' part).map Blank.trim).filter (!·.isEmpty)).filterMap Rule.parse?
  match Parts.split '/' text.toList with
  | [part] => { rules := rules part }
  | [part, pattern] =>
      { rules := rules part, pattern := (Pattern.parse? pattern).getD .empty }
  | _ => {}

/-- How far a target is shown: the closest of its rules decides. -/
def threshold (f : Filter) (target : List Char) : Threshold :=
  ((f.rules.filter (·.covers target)).foldl Rule.closer Rule.standard).threshold

/-- Says whether the record of a failure is shown: every threshold but `off` lets it
through, and a part of it has to fit the pattern. -/
def shows (f : Filter) (message : String) : Bool :=
  f.threshold Record.target != .off &&
    f.pattern.occursIn (Record.opening ++ message).toList

/-- The record of a failure as the log holds it, behind its opening. -/
def record? (f : Filter) (message : String) : Option String :=
  if f.shows message then some (Record.indent message) else none

end Filter
end Log
end Courier
