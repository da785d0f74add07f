import Courier.Failure
import Courier.Text.Parts

/-!
# Derivation paths

Paths such as `m/44'/535348'/0'` that name a key: the master key and at most ten
components, each an index below 2³¹ that may be hardened.

* `Path.parse` reads the text, `Path.text` writes it.
* `Path.pack` gives the bytes that go to the device: the number of components,
  then each of them in four bytes.
-/

namespace Courier

/-- A derivation path; bit 31 of a component marks it as hardened. -/
structure Path where
  components : List UInt32
  deriving DecidableEq, Repr

namespace Path

/-- The mark of a hardened component, and the bound of the indices. -/
def hardenedBit : UInt32 := 0x80000000

def maxDepth : Nat := 10

/-- The digits of a component, and whether an apostrophe follows them. -/
def splitMark (part : List Char) : List Char × Bool :=
  match part.reverse with
  | '\'' :: digits => (digits.reverse, true)
  | _ => (part, false)

/-- Reads one component of the path `text`. -/
def parseComponent (text : String) (part : List Char) : Except PathFault UInt32 :=
  if part.isEmpty then .error (.emptyComponent text)
  else
    let (digits, hardened) := splitMark part
    match Decimal.read Decimal.wordBound digits with
    | .error why => .error (.badIndex text (String.ofList part) why)
    | .ok index =>
        if hardenedBit.toNat ≤ index then .error (.indexTooLarge text index)
        else
          .ok (if hardened then UInt32.ofNat index ||| hardenedBit
            else UInt32.ofNat index)

/-- Reads components from left to right, up to the first fault. -/
def parseComponents (text : String) :
    List (List Char) → Except PathFault (List UInt32)
  | [] => .ok []
  | part :: parts =>
      match parseComponent text part with
      | .error why => .error why
      | .ok component =>
          match parseComponents text parts with
          | .error why => .error why
          | .ok components => .ok (component :: components)

/-- Reads a path, and says what is wrong with it otherwise. -/
def parse? (text : String) : Except PathFault Path :=
  match Parts.split '/' text.toList with
  | ['m'] :: parts =>
      match parseComponents text parts with
      | .error why => .error why
      | .ok components =>
          if maxDepth < components.length then
            .error (.tooDeep text components.length)
          else .ok ⟨components⟩
  | _ => .error (.noMaster text)

def parse (text : String) : Except Failure Path :=
  match parse? text with
  | .error why => .error (.invalidPath why)
  | .ok path => .ok path

/-- The text of a component behind its slash. -/
def componentText (c : UInt32) : String :=
  if c &&& hardenedBit = 0 then "/" ++ toString c.toNat
  else "/" ++ toString (c &&& ~~~hardenedBit).toNat ++ "'"

def text (p : Path) : String :=
  "m" ++ String.join (p.components.map componentText)

def pack (p : Path) : Bytes :=
  UInt8.ofNat p.components.length ::
    (p.components.map fun c => Bytes.ofNatLE 4 c.toNat).flatten

end Path
end Courier
