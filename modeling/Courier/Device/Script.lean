import Courier.Dialogue

/-!
# Scripted devices

A device that replays a list of responses, then repeats one for ever if it has
such a fallback.  It notes what it is sent, and each answer may take some time.
-/

namespace Courier

/-- A device that answers from a script. -/
structure Script where
  replies : List Response
  fallback : Option Bytes := none
  delay : Nat := 0
  sent : List Request := []
  time : Nat := 0

namespace Script

def next (s : Script) : Response :=
  match s.replies with
  | reply :: _ => reply
  | [] =>
      match s.fallback with
      | some body => .ok body
      | none => .error (.transport .scriptExhausted)

/-- Answers a command; the commands are kept with the latest first. -/
def answer (s : Script) (request : Request) : Response × Script :=
  (s.next,
    { s with
      replies := s.replies.tail
      sent := request :: s.sent
      time := s.time + s.delay })

def channel : Channel Script where
  answer := answer
  time s := (s.time, s)

end Script
end Courier
