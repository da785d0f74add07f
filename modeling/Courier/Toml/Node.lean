/-!
# Trees of TOML documents

The values of a document and the rules under which keys and headers may add to
it: a table is defined once, by a header or by dotted keys, and a value written in
full is never extended.

* `Entries.define` adds one key with its value to a table.
* `Entries.openTable` and `Entries.openElement` enter a header.
* `Entries.under` applies a change to the table that a header names.
-/

namespace Courier
namespace Toml

/-- How a table came to be: by its own header, as part of the path of a header, by
dotted keys, or written in braces. -/
inductive TableKind
  | header
  | implicit
  | dotted
  | inline
  deriving DecidableEq, Repr

/-- A value of a document. -/
inductive Node
  | text (s : String)
  | integer (n : Int)
  | float (written : String)
  | boolean (b : Bool)
  | moment (written : String)
  | array (items : List Node)
  | table (kind : TableKind) (entries : List (String × Node))
  | tables (items : List (List (String × Node)))

/-- The entries of a table, in the order in which their keys came up. -/
abbrev Entries := List (String × Node)

namespace Entries

/-- Puts another value under a key that is there. -/
def replace (es : Entries) (key : String) (node : Node) : Entries :=
  es.map fun e => if e.1 = key then (key, node) else e

/-- Adds a key that is not there yet. -/
def add (es : Entries) (key : String) (node : Node) : Option Entries :=
  match es.lookup key with
  | some _ => none
  | none => some (es ++ [(key, node)])

/-- Adds a key behind a dotted path.  `dotted` says whether the table at hand was
made by dotted keys; only such a table may be the last one on a path. -/
def extend (key : String) (node : Node) (dotted : Bool) :
    List String → Entries → Option Entries
  | [], es => if dotted then es.add key node else none
  | p :: path, es =>
      match es.lookup p with
      | none => (extend key node true path []).map fun sub =>
          es ++ [(p, .table .dotted sub)]
      | some (.table .dotted sub) => (extend key node true path sub).map fun sub =>
          es.replace p (.table .dotted sub)
      | some (.table .implicit sub) => (extend key node false path sub).map fun sub =>
          es.replace p (.table .implicit sub)
      | some (.tables items) =>
          match items.reverse with
          | [] => none
          | last :: before => (extend key node false path last).map fun last =>
              es.replace p (.tables (last :: before).reverse)
      | some _ => none

/-- Defines a key, dotted or not, in a table. -/
def define (path : List String) (key : String) (node : Node) (es : Entries) :
    Option Entries :=
  match path with
  | [] => es.add key node
  | _ :: _ => es.extend key node false path

/-- Applies a change to the table that the path of a header names; the last table
counts where there are several. -/
def under (change : Entries → Option Entries) : List String → Entries → Option Entries
  | [], es => change es
  | p :: path, es =>
      match es.lookup p with
      | none => (under change path []).map fun sub =>
          es ++ [(p, .table .implicit sub)]
      | some (.table .inline _) => none
      | some (.table kind sub) => (under change path sub).map fun sub =>
          es.replace p (.table kind sub)
      | some (.tables items) =>
          match items.reverse with
          | [] => none
          | last :: before => (under change path last).map fun last =>
              es.replace p (.tables (last :: before).reverse)
      | some _ => none

/-- Enters the header of a table.  A table that was only part of a path becomes a
table of its own. -/
def openTable (key : String) (es : Entries) : Option Entries :=
  match es.lookup key with
  | none => some (es ++ [(key, .table .header [])])
  | some (.table .implicit sub) => some (es.replace key (.table .header sub))
  | some _ => none

/-- Enters the header of one more element of an array of tables. -/
def openElement (key : String) (es : Entries) : Option Entries :=
  match es.lookup key with
  | none => some (es ++ [(key, .tables [[]])])
  | some (.tables items) => some (es.replace key (.tables (items ++ [[]])))
  | some _ => none

end Entries
end Toml
end Courier
