import Courier.Field
import Courier.Instruction
import Courier.Path
import Courier.Strategy

/-!
# Clients of the signing application

The requests that the host makes of a signing application, and the reading of its
answers.

* `AppVersion.parse` and `KeyAnswer.parse` read answers.
* `Client.version`, `Client.publicKey` and `Client.sign` are whole operations.
-/

namespace Courier

/-- The name and the version of the application. -/
structure AppVersion where
  major : UInt8
  minor : UInt8
  patch : UInt8
  name : String
  deriving DecidableEq, Repr

namespace AppVersion

/-- Reads three version bytes and an ASCII name. -/
def parse : Bytes → Except Failure AppVersion
  | major :: minor :: patch :: rest =>
      match Utf8.decode rest with
      | .error why => .error (.protocol (.nameNotText why))
      | .ok name =>
          if rest.all (· < 0x80) then .ok ⟨major, minor, patch, name⟩
          else .error (.protocol .nameNotAscii)
  | short => .error (.protocol (.shortVersion short.length))

def text (v : AppVersion) : String :=
  v.name ++ " " ++ toString v.major.toNat ++ "." ++ toString v.minor.toNat ++
    "." ++ toString v.patch.toNat

end AppVersion

/-- A public key with its chain code. -/
structure KeyAnswer where
  publicKey : Bytes
  chainCode : Bytes
  deriving DecidableEq, Repr

namespace KeyAnswer

/-- Reads two fields, each behind its length, and nothing more. -/
def parse (response : Bytes) : Except Failure KeyAnswer :=
  match Field.counted response with
  | .error e => .error e
  | .ok (publicKey, rest) =>
      match Field.counted rest with
      | .error e => .error e
      | .ok (chainCode, rest) =>
          if rest.isEmpty then .ok ⟨publicKey, chainCode⟩
          else .error (.protocol (.trailingKeyBytes rest.length))

end KeyAnswer

/-- The host's view of a signing application. -/
structure Client where
  settings : Settings
  mode : SendMode
  deriving DecidableEq

namespace Client

def ofSettings (settings : Settings) : Client :=
  ⟨settings, SendMode.ofFlag settings.useBlocks⟩

def send (c : Client) (ins : Instruction) (payloads : List Bytes) :
    Dialogue Response :=
  c.mode.send c.settings ins.header payloads

/-- Reads the response of an operation. -/
def read {α : Type} (parse : Bytes → Except Failure α) :
    Response → Except Failure α
  | .error e => .error e
  | .ok response => parse response

/-- Asks for the name and the version of the application. -/
def version (c : Client) : Dialogue (Except Failure AppVersion) :=
  (c.send .getVersion [[]]).bind fun response =>
    .done (read AppVersion.parse response)

/-- Asks for the public key of a path. -/
def publicKey (c : Client) (path : Path) : Dialogue (Except Failure KeyAnswer) :=
  (c.send .getPublicKey [path.pack]).bind fun response =>
    .done (read KeyAnswer.parse response)

/-- Asks for the public key of a path, which the device shows for approval. -/
def confirmedKey (c : Client) (path : Path) :
    Dialogue (Except Failure KeyAnswer) :=
  (c.send .verifyAddress [path.pack]).bind fun response =>
    .done (read KeyAnswer.parse response)

/-- A transaction behind its length in four bytes. -/
def framed (tx : Bytes) : Bytes :=
  Bytes.ofNatLE 4 tx.length ++ tx

/-- The longest transaction whose length fits four bytes. -/
def maxTransaction : Nat := 0xffffffff

/-- Asks for the signature of a transaction with the key of a path. -/
def sign (c : Client) (path : Path) (tx : Bytes) : Dialogue Response :=
  if maxTransaction < tx.length then
    .done (.error (.encoding (.transactionTooLong tx.length)))
  else
    c.send .signTx [framed tx, path.pack]

end Client
end Courier
