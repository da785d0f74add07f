import Courier.Failure

/-!
# Errors of the running system

The system faults behind the errors of the runtime: each error carries the number
that the operating system gave it, and the number decides the wording.
-/

namespace Courier
namespace SystemFault

/-- The wording of system errors, by their numbers. -/
def texts : List (Nat × String) :=
  [(1, "Operation not permitted"), (2, "No such file or directory"),
    (4, "Interrupted system call"), (5, "Input/output error"),
    (13, "Permission denied"), (20, "Not a directory"), (21, "Is a directory"),
    (22, "Invalid argument"), (23, "Too many open files in system"),
    (24, "Too many open files"), (32, "Broken pipe"), (36, "File name too long"),
    (40, "Too many levels of symbolic links"),
    (97, "Address family not supported by protocol"),
    (99, "Cannot assign requested address"), (100, "Network is down"),
    (101, "Network is unreachable"), (104, "Connection reset by peer"),
    (110, "Connection timed out"), (111, "Connection refused"),
    (113, "No route to host")]

/-- The number of an error; some parts of the runtime hand it out negated. -/
def number (code : UInt32) : Nat :=
  if code < 0x80000000 then code.toNat else (0 - code).toNat

/-- The fault with a number; `details` stands in for a wording that is not known. -/
def ofCode (code : UInt32) (details : String) : SystemFault :=
  ⟨(texts.lookup (number code)).getD details, number code⟩

/-- The fault behind an error of the runtime. -/
def ofError : IO.Error → SystemFault
  | .alreadyExists _ code details => ofCode code details
  | .otherError code details => ofCode code details
  | .resourceBusy code details => ofCode code details
  | .resourceVanished code details => ofCode code details
  | .unsupportedOperation code details => ofCode code details
  | .hardwareFault code details => ofCode code details
  | .unsatisfiedConstraints code details => ofCode code details
  | .illegalOperation code details => ofCode code details
  | .protocolError code details => ofCode code details
  | .timeExpired code details => ofCode code details
  | .interrupted _ code details => ofCode code details
  | .noFileOrDirectory _ code details => ofCode code details
  | .invalidArgument _ code details => ofCode code details
  | .permissionDenied _ code details => ofCode code details
  | .resourceExhausted _ code details => ofCode code details
  | .inappropriateType _ code details => ofCode code details
  | .noSuchThing _ code details => ofCode code details
  | .unexpectedEof => ⟨"unexpected end of file", 0⟩
  | .userError text => ⟨text, 0⟩

end SystemFault
end Courier
