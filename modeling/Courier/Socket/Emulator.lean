import Courier.Device.Signer
import Courier.Socket.Wire

/-!
# Emulators

Servers for the framing of an emulator socket: one that sends prepared bytes for
every command, and one that runs a signing application.
-/

namespace Courier

/-- A server that sends prepared bytes, one piece for each command.  With the last
piece it ends its stream, or falls silent; before that it waits for commands. -/
structure Replay where
  replies : List Bytes
  atEnd : Ending

def Replay.server : Server Replay where
  react s _ := (s.replies.headD [], { s with replies := s.replies.tail })
  ending s := if s.replies.isEmpty then s.atEnd else .silent

namespace Emulator

/-- The bytes of a response in a frame; a failure other than a refusal has none. -/
def responseBytes : Response → Bytes
  | .ok body => Bytes.ofNatBE 4 body.length ++ body ++ Status.ok.bytes
  | .error (.peer status data) =>
      Bytes.ofNatBE 4 data.length ++ data ++ status.bytes
  | .error _ => []

def requestOf? : Bytes → Option Request
  | _ :: _ :: _ :: _ :: cla :: ins :: p1 :: p2 :: _ :: body =>
      some ⟨⟨cla, ins, p1, p2⟩, body⟩
  | _ => none

/-- The server that runs a signing application. -/
def server : Server Signer where
  react s framed :=
    match requestOf? framed with
    | none => ([], s)
    | some request =>
        let answered := s.answer request
        (responseBytes answered.1, answered.2)
  ending _ := .silent

end Emulator
end Courier
