import Courier.Proofs.Device.Moves
import Courier.Proofs.Message.Acceptance

/-!
# Bodies that were not written as messages

A device for block transfers reads every body as a message, also the frames of a host
that sends its payloads as they are.  What gets past a device is told here phase by
phase: an idle device lets nothing pass but an opening, one that pulls nothing but the
chunk that it has asked for.

* `Peer.handleAll`: the answer to several bodies one after another, up to the first
  refusal; `Peer.exists_encode_of_handleAll`: it is a message of the device.
* `Peer.opening_of_idle`, `Peer.chunk_of_pulling`: what a body is that is not refused.
* `Peer.handle_opening`, `Peer.handle_empty_opening`: an opening with and without roots.
* `Peer.refuses_behind_empty_opening`: behind an opening without roots the second body
  is refused at the latest, if the application wants payloads.
* `Peer.handleAll_slices`: a byte string in plain frames.
-/

namespace Courier
namespace Peer

/-- The answer to the last of several bodies, or the first refusal. -/
def handleAll (app : Application) : Peer → Bytes → List Bytes → Response
  | _, last, [] => .ok last
  | p, _, body :: rest =>
      let turn := p.handle app body
      match turn.response with
      | .error e => .error e
      | .ok response => turn.peer.handleAll app response rest

variable {p : Peer} {app : Application} {body last response : Bytes} {rest : List Bytes}

theorem handleAll_of_refusal {e : Failure} (h : (p.handle app body).response = .error e) :
    p.handleAll app last (body :: rest) = .error e := by
  simp only [handleAll, h]

theorem handleAll_of_response (h : (p.handle app body).response = .ok response) :
    p.handleAll app last (body :: rest) =
      (p.handle app body).peer.handleAll app response rest := by
  simp only [handleAll, h]

theorem handleAll_singleton : p.handleAll app last [body] = (p.handle app body).response := by
  cases hresponse : (p.handle app body).response with
  | error e => exact handleAll_of_refusal hresponse
  | ok response => exact handleAll_of_response hresponse

/-- A refusal comes with the first body, or with one behind it. -/
theorem handleAll_refuses
    (h : ∀ response, (p.handle app body).response = .ok response →
      ∃ e, (p.handle app body).peer.handleAll app response rest = .error e) :
    ∃ e, p.handleAll app last (body :: rest) = .error e := by
  cases hresponse : (p.handle app body).response with
  | error e => exact ⟨e, handleAll_of_refusal hresponse⟩
  | ok response =>
      rw [handleAll_of_response hresponse]
      exact h response hresponse

/-- All goes well only if the first body is answered. -/
theorem response_of_handleAll {b : Bytes} (h : p.handleAll app last (body :: rest) = .ok b) :
    ∃ response, (p.handle app body).response = .ok response ∧
      (p.handle app body).peer.handleAll app response rest = .ok b := by
  cases hresponse : (p.handle app body).response with
  | error e =>
      rw [handleAll_of_refusal hresponse] at h
      cases h
  | ok response =>
      rw [handleAll_of_response hresponse] at h
      exact ⟨response, rfl, h⟩

/-- What comes back from a device is a message of its own. -/
theorem exists_encode_of_handleAll {b : Bytes}
    (h : p.handleAll app last (body :: rest) = .ok b) : ∃ m : PeerMessage, b = m.encode := by
  induction rest generalizing p body last with
  | nil =>
      obtain ⟨response, hresponse, hlast⟩ := response_of_handleAll h
      obtain rfl := Except.ok.inj hlast
      cases (p.moves_handle app body).settles with
      | refused status hrefused _ => cases hrefused.symm.trans hresponse
      | said m hsaid _ => exact ⟨m, Except.ok.inj (hresponse.symm.trans hsaid)⟩
  | cons next rest ih =>
      obtain ⟨response, _, hrest⟩ := response_of_handleAll h
      exact ih hrest

/-- What is answered has been read as a message. -/
theorem message_of_response (h : (p.handle app body).response = .ok response) :
    ∃ m, HostMessage.decode body = .ok m ∧
      (p.dispatch app p.phase m).response = .ok response := by
  cases hdecode : HostMessage.decode body with
  | error e =>
      simp only [handle, hdecode] at h
      cases h
  | ok m =>
      simp only [handle, hdecode] at h
      exact ⟨m, rfl, h⟩

/-- An idle device lets nothing pass but an opening. -/
theorem opening_of_idle (hidle : p.isIdle = true)
    (h : (p.handle app body).response = .ok response) :
    ∃ roots, body = (HostMessage.start roots).encode := by
  obtain ⟨m, hdecode, hsaid⟩ := message_of_response h
  rw [isIdle_iff.mp hidle] at hsaid
  cases m with
  | start roots => exact ⟨roots, (HostMessage.encode_of_decode hdecode).symm⟩
  | chunkFound chunk => cases hsaid
  | chunkNotFound => cases hsaid
  | putChunkAck => cases hsaid
  | accumulateAck => cases hsaid

/-- A device that pulls lets nothing pass but the chunk that it has asked for. -/
theorem chunk_of_pulling {roots : List Hash} {index : Nat} {expecting : Hash}
    {slices finished : List Bytes}
    (hphase : p.phase = .pulling roots index expecting slices finished)
    (h : (p.handle app body).response = .ok response) :
    ∃ chunk, body = (HostMessage.chunkFound chunk).encode ∧
      Hash.ofChunk chunk = expecting ∧ Hash.size ≤ chunk.length := by
  obtain ⟨m, hdecode, hsaid⟩ := message_of_response h
  rw [hphase] at hsaid
  cases m with
  | chunkFound chunk =>
      refine ⟨chunk, (HostMessage.encode_of_decode hdecode).symm, ?_⟩
      simp only [dispatch, receive] at hsaid
      split_ifs at hsaid with hhash
      · refine ⟨hhash, ?_⟩
        by_contra hshort
        have hnone : Hash.ofBytes? (chunk.take Hash.size) = none := by
          rw [Hash.ofBytes?_eq_none_iff, List.length_take]
          omega
        simp only [Linked.ofBytes, hnone] at hsaid
        cases hsaid
      · cases hsaid
  | start roots => cases hsaid
  | chunkNotFound => cases hsaid
  | putChunkAck => cases hsaid
  | accumulateAck => cases hsaid

/-- The device asks for the first root. -/
theorem handle_opening (hidle : p.isIdle = true) {root : Hash} (hroot : root ≠ Hash.zero)
    (roots : List Hash) :
    p.handle app (HostMessage.start (root :: roots)).encode =
      p.say (.getChunk root) (.pulling (root :: roots) 0 root [] []) := by
  have hnonzero : ¬ root.isZero = true := fun hzero => hroot ((Hash.isZero_iff root).mp hzero)
  rw [handle, HostMessage.decode_encode, isIdle_iff.mp hidle]
  simp only [dispatch, pullNext, List.drop_zero, pullFrom, if_neg hnonzero]

/-- Without roots the device has nothing to ask for. -/
theorem handle_empty_opening (hidle : p.isIdle = true) :
    p.handle app (HostMessage.start []).encode = p.afterPull app [] := by
  rw [handle, HostMessage.decode_encode, isIdle_iff.mp hidle]
  rfl

/-- A device that has pushed a chunk asks for it, if it says anything. -/
theorem verifying_of_pushing {payloads : List Bytes} (hphase : p.phase = .pushing payloads)
    (h : (p.handle app body).response = .ok response) :
    ∃ hash, (p.handle app body).peer.phase = .verifying payloads hash := by
  obtain ⟨m, hdecode, hsaid⟩ := message_of_response h
  rw [hphase] at hsaid
  cases m with
  | putChunkAck =>
      cases hpush : p.push with
      | none =>
          simp only [dispatch, readBack, hpush] at hsaid
          cases hsaid
      | some chunk =>
          simp only [handle, hdecode, hphase, dispatch, readBack, hpush]
          exact ⟨_, rfl⟩
  | start roots => cases hsaid
  | chunkFound chunk => cases hsaid
  | chunkNotFound => cases hsaid
  | accumulateAck => cases hsaid

section NoPayloads

variable {status : Status} (happ : app [] = .error status)
include happ

/-- Without roots and without a chunk to push, the application is asked at once. -/
theorem no_response_of_no_push (hidle : p.isIdle = true) (hpush : p.push = none) :
    (p.handle app (HostMessage.start []).encode).response ≠ .ok response := by
  intro h
  simp only [handle_empty_opening hidle, afterPull, hpush, finish, happ] at h
  cases h

/-- A device that has its chunk back asks the application, if it does not refuse. -/
theorem no_response_of_verifying {hash : Hash} (hphase : p.phase = .verifying [] hash) :
    (p.handle app body).response ≠ .ok response := by
  intro h
  obtain ⟨m, _, hsaid⟩ := message_of_response h
  rw [hphase] at hsaid
  cases m with
  | chunkFound chunk =>
      simp only [dispatch, verify, finish, happ] at hsaid
      split_ifs at hsaid <;> cases hsaid
  | start roots => cases hsaid
  | chunkNotFound => cases hsaid
  | putChunkAck => cases hsaid
  | accumulateAck => cases hsaid

/-- Behind an opening without roots the second body is refused at the latest. -/
theorem refuses_behind_empty_opening (hidle : p.isIdle = true) (second third : Bytes) :
    ∃ e, p.handleAll app last ((HostMessage.start []).encode :: second :: third :: rest) =
      .error e := by
  refine handleAll_refuses fun _ hopening => ?_
  cases hpush : p.push with
  | none => exact absurd hopening (no_response_of_no_push happ hidle hpush)
  | some chunk =>
      have hphase : (p.handle app (HostMessage.start []).encode).peer.phase = .pushing [] := by
        simp only [handle_empty_opening hidle, afterPull, hpush, say]
      refine handleAll_refuses fun _ hsecond => handleAll_refuses fun _ hthird => ?_
      obtain ⟨hash, hverifying⟩ := verifying_of_pushing hphase hsecond
      exact absurd hthird (no_response_of_verifying happ hverifying)

/-- **A byte string in plain frames.**  If the device has an answer for all frames of a
byte string, then the first frame is an opening with roots.  If the first of these
stands for a chunk, the device asks for it; so a second frame brings that chunk. -/
theorem handleAll_slices (hidle : p.isIdle = true) {size : Nat} (hsize : 0 < size)
    {data b : Bytes} (hlength : 3 ≤ data.length)
    (h : p.handleAll app last (Bytes.slices size data) = .ok b) :
    ∃ root roots, data.take size = (HostMessage.start (root :: roots)).encode ∧
      (root ≠ Hash.zero →
        (data.length ≤ size ∧ b = (PeerMessage.getChunk root).encode) ∨
        (size < data.length ∧ ∃ chunk,
          (data.drop size).take size = (HostMessage.chunkFound chunk).encode ∧
          Hash.ofChunk chunk = root ∧ Hash.size ≤ chunk.length)) := by
  have hslices : ∀ {rest : Bytes}, rest ≠ [] →
      Bytes.slices size rest = rest.take size :: Bytes.slices size (rest.drop size) :=
    fun hrest => Bytes.slices_of_ne_nil hsize hrest
  rw [hslices (List.ne_nil_of_length_pos (by omega))] at h
  obtain ⟨response, hresponse, hrest⟩ := response_of_handleAll h
  obtain ⟨roots, hopening⟩ := opening_of_idle hidle hresponse
  rw [hopening] at h hresponse hrest
  cases roots with
  | nil =>
      -- the tag fills the frame, so there are two more frames
      have hone : size = 1 := by
        have htag := congrArg List.length hopening
        rw [List.length_take] at htag
        change min size data.length = 1 at htag
        omega
      have hsecond : data.drop 1 ≠ [] := List.ne_nil_of_length_pos (by simp; omega)
      have hthird : (data.drop 1).drop 1 ≠ [] := List.ne_nil_of_length_pos (by simp; omega)
      subst hone
      rw [hslices hsecond, hslices hthird] at h
      obtain ⟨e, hrefused⟩ := refuses_behind_empty_opening happ hidle _ _
      cases h.symm.trans hrefused
  | cons root roots =>
      refine ⟨root, roots, hopening, fun hroot => ?_⟩
      have hturn : p.handle app (HostMessage.start (root :: roots)).encode = _ :=
        handle_opening hidle hroot roots
      rw [hturn] at hresponse hrest
      obtain rfl : _ = response := Except.ok.inj hresponse
      rcases Nat.lt_or_ge size data.length with hlong | hfits
      · right
        rw [hslices (List.ne_nil_of_length_pos (by rw [List.length_drop]; omega))] at hrest
        obtain ⟨_, hsecond, _⟩ := response_of_handleAll hrest
        exact ⟨hlong, chunk_of_pulling rfl hsecond⟩
      · left
        rw [List.drop_eq_nil_of_le hfits, Bytes.slices_nil] at hrest
        exact ⟨hfits, (Except.ok.inj hrest).symm⟩

end NoPayloads

end Peer
end Courier
