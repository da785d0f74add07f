import Courier.Proofs.Slices
import Courier.Strategy

/-!
# Plain frames, one after another

The payloads run together, the frames cut what they spell, and the frames go out in
order up to the first error.  Where one payload ends and the next one starts cannot be
seen from outside.

* `Frames.IsCut`: the frames of a byte string, said without the cut, and
  `Frames.isCut_iff`: there is one such list, and it is the cut.
* `Frames.Sends`: exchanges that send frames up to the first error, with their result;
  `Frames.sends_sendAll`: sending makes such exchanges on every channel.
* `Frames.Sends.requests_prefix`, `Frames.Sends.exists_getLast?_eq`,
  `Frames.Sends.requests_eq` and `Frames.Sends.length_of_error`: what these exchanges show.
* `Frames.sends_in_order`: the whole of plain sending.
-/

namespace Courier
namespace Frames

variable {size : Nat} {payloads : List Bytes}

/-- Payloads that are not all empty are cut as they run together. -/
theorem cut_of_ne_nil (h : payloads.flatten ≠ []) :
    cut size payloads = Bytes.slices size payloads.flatten := by
  unfold cut
  cases hslices : Bytes.slices size payloads.flatten with
  | nil =>
      have hnil := Bytes.flatten_slices size payloads.flatten
      rw [hslices] at hnil
      exact absurd hnil.symm h
  | cons first rest => rfl

theorem cut_of_eq_nil (h : payloads.flatten = []) : cut size payloads = [[]] := by
  simp [cut, h]

/-- The frames of a byte string: full ones, and a last one that is neither empty nor
longer than these.  For nothing at all there is one empty frame. -/
inductive IsCut (size : Nat) : Bytes → List Bytes → Prop
  | nothing : IsCut size [] [[]]
  | pieces {full : List Bytes} {last : Bytes} (hfull : ∀ frame ∈ full, frame.length = size)
      (hlast : 1 ≤ last.length) (hfits : last.length ≤ size) :
      IsCut size (full ++ [last]).flatten (full ++ [last])

/-- The cut is the only list of frames of what the payloads spell. -/
theorem isCut_iff (hsize : 0 < size) {frames : List Bytes} :
    IsCut size payloads.flatten frames ↔ frames = cut size payloads := by
  constructor
  · intro h
    generalize hdata : payloads.flatten = data at h
    cases h with
    | nothing => exact (cut_of_eq_nil hdata).symm
    | @pieces full last hfull hlast hfits =>
        have hne : last ≠ [] := List.ne_nil_of_length_pos hlast
        rw [List.flatten_append, List.flatten_singleton] at hdata
        rw [cut_of_ne_nil (by simp [hdata, hne]), hdata,
          Bytes.slices_flatten_append hsize full hfull,
          Bytes.slices_of_length_le hsize hne hfits]
  · rintro rfl
    by_cases hnil : payloads.flatten = []
    · rw [cut_of_eq_nil hnil, hnil]
      exact .nothing
    · obtain ⟨full, last, hslices, hfull, hlast, hfits⟩ := Bytes.exists_slices_eq hsize hnil
      have hspelled := Bytes.flatten_slices size payloads.flatten
      rw [cut_of_ne_nil hnil, hslices]
      rw [hslices] at hspelled
      rw [← hspelled]
      exact .pieces hfull hlast hfits

/-- There is always a frame, and the others are as many as it takes. -/
theorem length_cut (hsize : 0 < size) (payloads : List Bytes) :
    (cut size payloads).length = max 1 (payloads.flatten.length ⌈/⌉ size) := by
  by_cases hnil : payloads.flatten = []
  · rw [cut_of_eq_nil hnil, hnil, List.length_nil, Bytes.max_ceilDiv_of_le hsize (Nat.zero_le _)]
    rfl
  · rw [cut_of_ne_nil hnil, Bytes.length_slices hsize]
    have hpos : 0 < payloads.flatten.length ⌈/⌉ size := by
      rw [← Bytes.length_slices hsize, Bytes.slices_of_ne_nil hsize hnil]
      exact Nat.zero_lt_succ _
    omega

theorem flatten_cut (size : Nat) (payloads : List Bytes) :
    (cut size payloads).flatten = payloads.flatten := by
  by_cases hnil : payloads.flatten = []
  · rw [cut_of_eq_nil hnil, hnil]
    rfl
  · rw [cut_of_ne_nil hnil, Bytes.flatten_slices]

/-- Exchanges that send frames in order up to the first error, and what comes of it: the
last response, or the given one if there is no frame. -/
inductive Sends (header : Header) : Bytes → List Bytes → List Exchange → Response → Prop
  | nothing (last : Bytes) : Sends header last [] [] (.ok last)
  | refused (last frame : Bytes) (rest : List Bytes) (e : Failure) :
      Sends header last (frame :: rest) [⟨⟨header, frame⟩, .error e⟩] (.error e)
  | answered (last frame : Bytes) {rest : List Bytes} {response : Bytes}
      {later : List Exchange} {result : Response}
      (h : Sends header response rest later result) :
      Sends header last (frame :: rest) (⟨⟨header, frame⟩, .ok response⟩ :: later) result

/-- Frames are sent so on every channel. -/
theorem sends_sendAll {σ : Type} (channel : Channel σ) (header : Header) (last : Bytes)
    (frames : List Bytes) (s : σ) (log : List Exchange) :
    let played := (sendAll header last frames).run channel.logged (s, log)
    ∃ made, played.2.2 = made.reverse ++ log ∧ Sends header last frames made played.1 := by
  induction frames generalizing last s log with
  | nil => exact ⟨[], rfl, .nothing last⟩
  | cons frame rest ih =>
      simp only [sendAll, Dialogue.run_ask, Channel.logged]
      generalize channel.answer s ⟨header, frame⟩ = answered
      obtain ⟨response, later⟩ := answered
      cases response with
      | error e => exact ⟨_, rfl, .refused last frame rest e⟩
      | ok response =>
          obtain ⟨made, hlog, hsends⟩ := ih response later
            (⟨⟨header, frame⟩, .ok response⟩ :: log)
          refine ⟨_ :: made, ?_, .answered last frame hsends⟩
          rw [List.reverse_cons, List.append_assoc]
          exact hlog

namespace Sends

variable {header : Header} {last : Bytes} {frames : List Bytes} {made : List Exchange}
variable {result : Response}

theorem requests_prefix (h : Sends header last frames made result) :
    made.map Exchange.request <+: frames.map (Request.mk header) := by
  induction h with
  | nothing last => exact List.prefix_rfl
  | refused last frame rest e => exact List.cons_prefix_cons.mpr ⟨rfl, List.nil_prefix⟩
  | answered last frame h ih => exact List.cons_prefix_cons.mpr ⟨rfl, ih⟩

/-- The result is the last response. -/
theorem result_eq (h : Sends header last frames made result) :
    result = (made.getLast?.map Exchange.response).getD (.ok last) := by
  induction h with
  | nothing last => rfl
  | refused last frame rest e => rfl
  | @answered last frame rest response later result h ih =>
      rw [List.getLast?_cons, ih]
      cases later.getLast? with
      | none => rfl
      | some x => rfl

/-- If there is a frame, there is an exchange, and the last one decides. -/
theorem exists_getLast?_eq (h : Sends header last frames made result) (hframes : frames ≠ []) :
    ∃ x, made.getLast? = some x ∧ result = x.response := by
  have hresult := h.result_eq
  have hmade : made ≠ [] := by
    cases h with
    | nothing last => exact absurd rfl hframes
    | refused last frame rest e => exact List.cons_ne_nil _ _
    | answered last frame h => exact List.cons_ne_nil _ _
  obtain ⟨x, hx⟩ := Option.ne_none_iff_exists'.mp (mt List.getLast?_eq_none_iff.mp hmade)
  rw [hx] at hresult
  exact ⟨x, hx, hresult⟩

/-- Without an error all frames are sent. -/
theorem requests_eq (h : Sends header last frames made result)
    (hanswered : ∀ x ∈ made, ∃ response, x.response = .ok response) :
    made.map Exchange.request = frames.map (Request.mk header) := by
  induction h with
  | nothing last => rfl
  | refused last frame rest e =>
      obtain ⟨response, hresponse⟩ := hanswered _ List.mem_cons_self
      cases hresponse
  | answered last frame h ih =>
      rw [List.map_cons, List.map_cons, ih fun x hx => hanswered x (List.mem_cons_of_mem _ hx)]

/-- Nothing is sent after an error. -/
theorem length_of_error (h : Sends header last frames made result) {i : Nat} {x : Exchange}
    {e : Failure} (hx : made[i]? = some x) (herror : x.response = .error e) :
    made.length = i + 1 ∧ result = .error e := by
  induction h generalizing i with
  | nothing last => cases hx
  | refused last frame rest e' =>
      cases i with
      | zero =>
          obtain rfl := Option.some.inj hx
          exact ⟨rfl, herror⟩
      | succ i => cases hx
  | answered last frame h ih =>
      cases i with
      | zero =>
          obtain rfl := Option.some.inj hx
          cases herror
      | succ i =>
          obtain ⟨hlength, hresult⟩ := ih hx
          exact ⟨by rw [List.length_cons, hlength], hresult⟩

end Sends

/-- **Plain frames go out in order.**  On every channel the exchanges are for the first
frames of what the payloads spell, and the last response is the result.  Without an error
all frames are sent; an error ends the sending, and it is the result.  So nothing depends
on how the bytes are split into payloads.  Without a frame size nothing is sent. -/
theorem sends_in_order (header : Header) (payloads : List Bytes) :
    (∀ size, 1 ≤ size →
      let frames := cut size payloads
      (∀ other, IsCut size payloads.flatten other ↔ other = frames) ∧
      frames.flatten = payloads.flatten ∧
      frames.length = max 1 (payloads.flatten.length ⌈/⌉ size) ∧
      ∀ {σ : Type} (channel : Channel σ) (s : σ),
        let played := (send header payloads size).run channel.logged (s, [])
        let made := played.2.2.reverse
        made.map Exchange.request <+: frames.map (Request.mk header) ∧
        (∃ x, made.getLast? = some x ∧ played.1 = x.response) ∧
        ((∀ x ∈ made, ∃ response, x.response = .ok response) →
          made.map Exchange.request = frames.map (Request.mk header)) ∧
        (∀ i x e, made[i]? = some x → x.response = .error e →
          made.length = i + 1 ∧ played.1 = .error e) ∧
        ∀ others : List Bytes, others.flatten = payloads.flatten →
          (send header others size).run channel.logged (s, []) = played) ∧
    ∀ {σ : Type} (channel : Channel σ) (s : σ),
      (send header payloads 0).run channel.logged (s, []) =
        (.error (.config .noFrameSize), s, []) := by
  refine ⟨fun size hsize => ?_, fun channel s => rfl⟩
  intro frames
  refine ⟨fun other => isCut_iff hsize, flatten_cut size payloads, length_cut hsize payloads,
    fun {σ} channel s => ?_⟩
  intro played made
  have hsend : ∀ others, send header others size = sendAll header [] (cut size others) :=
    fun others => if_neg (Nat.ne_of_gt hsize)
  have hframes : frames ≠ [] := by
    refine List.ne_nil_of_length_pos ?_
    rw [length_cut hsize]
    exact Nat.lt_of_lt_of_le Nat.one_pos (Nat.le_max_left _ _)
  have hsends : Sends header [] frames made played.1 := by
    obtain ⟨made', hlog, hsends⟩ := sends_sendAll channel header [] frames s []
    rw [List.append_nil, ← hsend] at hlog
    rw [← hsend] at hsends
    have hmade : made = made' := by
      rw [← List.reverse_reverse made']
      exact congrArg List.reverse hlog
    rw [hmade]
    exact hsends
  refine ⟨hsends.requests_prefix, hsends.exists_getLast?_eq hframes, hsends.requests_eq,
    fun i x e => hsends.length_of_error, ?_⟩
  intro others hothers
  have hcut : cut size others = cut size payloads := by rw [cut, hothers, cut]
  show (send header others size).run channel.logged (s, []) = played
  rw [hsend, hcut, ← hsend]

/-- Five bytes in frames of two, and a device that fails at the second frame. -/
theorem sends_in_order_up_to_a_refusal :
    let channel : Channel Nat :=
      { answer := fun n _ => (if n = 0 then .ok [7] else .error (.roundLimit n), n + 1)
        time := fun n => (0, n) }
    let played := (send ⟨0, 3, 0, 0⟩ [[1, 2, 3], [], [4, 5]] 2).run channel.logged (0, [])
    1 ≤ 2 ∧ cut 2 [[1, 2, 3], [], [4, 5]] = [[1, 2], [3, 4], [5]] ∧
    played.2.2.reverse.length = 2 ∧ played.1 = .error (.roundLimit 1) := by
  intro channel played
  have hcut : IsCut 2 [[1, 2, 3], [], [4, 5]].flatten [[1, 2], [3, 4], [5]] :=
    @IsCut.pieces 2 [[1, 2], [3, 4]] [5] (by decide) (by decide) (by decide)
  obtain ⟨hcuts, _, _, hsends⟩ :=
    (sends_in_order ⟨0, 3, 0, 0⟩ [[1, 2, 3], [], [4, 5]]).1 2 (by decide)
  obtain ⟨_, _, _, hfails, _⟩ := hsends channel 0
  have hframes := (hcuts _).mp hcut
  refine ⟨by decide, hframes.symm, hfails 1 ⟨⟨⟨0, 3, 0, 0⟩, [3, 4]⟩, .error (.roundLimit 1)⟩ _ ?_ rfl⟩
  rw [send, if_neg (by decide), ← hframes]
  rfl

end Frames
end Courier
