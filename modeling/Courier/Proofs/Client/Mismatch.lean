import Courier.Proofs.Client.Operations
import Courier.Proofs.Client.Signing
import Courier.Proofs.Signer.Crossed
import Courier.Proofs.Strategy.Frames

/-!
# A client and an application in different modes

The header of a command does not say in which way payloads are sent.  A client in one
mode and an application in the other one talk past each other: the answers to a block
transfer are read as messages, and plain frames are.  Nearly always one side finds that
this makes no sense.  Here is when it does not.

* `Client.blocks_on_plain`: block transfers with an application for plain frames.
* `Client.version_on_blocks`, `Client.any_key_on_blocks`, `Client.sign_nothing_on_blocks`,
  `Client.sign_something_on_blocks`: what each operation spells in plain frames.
* `Client.mismatch_can_go_unreported`: mismatches that nobody notices.
* `Client.mismatch_is_reported_unless_spelled`: all operations in both mismatches.
-/

namespace Courier

/-- Only the master path has a packed form that starts with zero. -/
theorem Path.components_eq_nil {path : Path} (hpath : path.components.length ≤ maxDepth)
    (h : UInt8.ofNat path.components.length = 0) : path.components = [] := by
  have hcount := congrArg UInt8.toNat h
  rw [UInt8.toNat_ofNat', UInt8.toNat_zero] at hcount
  rw [maxDepth] at hpath
  exact List.eq_nil_of_length_eq_zero (by omega)

namespace Client

variable {settings : Settings} {s : Signer} {readings : Nat → Nat} {path : Path}

theorem exists_error_of_read {α : Type} {parse : Bytes → Except Failure α}
    {response : Response} (h : ∃ e, response = .error e) :
    ∃ e, read parse response = .error e := by
  obtain ⟨e, rfl⟩ := h
  exact ⟨e, rfl⟩

/-- An operation through block transfers on an application for plain frames fails. -/
theorem blocks_on_plain (hvalid : settings.validate = .ok ()) (hmode : s.mode = .simple)
    (operation : Operation) :
    ∃ e, (s.serve readings (perform ⟨settings, .blocks⟩ operation)).1 = .error e := by
  rcases perform_blocks_cases hvalid operation with
    ⟨why, hnone⟩ | ⟨ins, t, parse, ht, hperform⟩
  · exact ⟨_, congrArg (fun d => (s.serve readings d).1) hnone⟩
  · rw [hperform, Signer.serve_bind]
    exact exists_error_of_read (Signer.run_on_plain ht hmode)

section Plain

variable (hframe : 0 < settings.maxFrame) (hmode : s.mode = .blocks)
variable (hidle : s.peer.isIdle = true)
include hframe hmode hidle

/-- A request for the version is an empty frame, which is no message. -/
theorem version_on_blocks :
    ∃ e, (s.serve readings (version ⟨settings, .simple⟩)).1 = .error e := by
  have hcut : Frames.cut settings.maxFrame [[]] = [[]] := by simp [Frames.cut]
  have hrefused : (s.peer.handle (Signer.perform s.approves .getVersion) []).response =
      .error (Failure.refusal Status.wrongApduLength) := rfl
  rw [version, Signer.serve_bind, Signer.serve_plain .getVersion hframe hmode hidle, hcut,
    Peer.handleAll_of_refusal hrefused]
  exact ⟨_, rfl⟩

/-- A path with components starts with their number, which is not the tag of an
opening. -/
theorem key_on_blocks (ins : Instruction) (hpath : path.components.length ≤ Path.maxDepth)
    (hcomponents : path.components ≠ []) :
    ∃ e, (s.serve readings ((send ⟨settings, .simple⟩ ins [path.pack]).bind fun response =>
      .done (read KeyAnswer.parse response))).1 = .error e := by
  rw [Signer.serve_bind, Signer.serve_plain ins hframe hmode hidle]
  refine exists_error_of_read ?_
  obtain ⟨rest, hcut, _⟩ := Signer.exists_cut_eq hframe path.pack
  rw [hcut]
  refine Peer.handleAll_refuses fun response hresponse => ?_
  obtain ⟨roots, hopening⟩ := Peer.opening_of_idle hidle hresponse
  have htag : UInt8.ofNat path.components.length = 0 := by
    obtain ⟨m, hm⟩ : ∃ m, settings.maxFrame = m + 1 := ⟨settings.maxFrame - 1, by omega⟩
    rw [hm, Path.pack, List.take_succ_cons] at hopening
    exact (List.cons.inj hopening).1
  exact absurd (Path.components_eq_nil hpath htag) hcomponents

/-- The path of the master key is one zero byte, which is an opening without roots. -/
theorem master_key_on_blocks (ins : Instruction) (hcomponents : path.components = []) :
    (s.serve readings ((send ⟨settings, .simple⟩ ins [path.pack]).bind fun response =>
      .done (read KeyAnswer.parse response))).1 =
      read KeyAnswer.parse
        (s.peer.afterPull (Signer.perform s.approves ins) []).response := by
  have hpack : path.pack = (HostMessage.start []).encode := by
    rw [Path.pack, hcomponents]
    rfl
  obtain ⟨rest, hcut, hrest⟩ := Signer.exists_cut_eq hframe path.pack
  have hfits : path.pack.length ≤ settings.maxFrame := by
    rw [hpack]
    exact hframe
  rw [hrest hfits, List.take_of_length_le hfits, hpack] at hcut
  rw [Signer.serve_bind, Signer.serve_plain ins hframe hmode hidle, hpack, hcut,
    Peer.handleAll_singleton, Peer.handle_empty_opening hidle]

/-- A request for a key, of either kind. -/
theorem any_key_on_blocks (ins : Instruction) {status : Status}
    (hwants : Signer.perform s.approves ins [] = .error status)
    (hpath : path.components.length ≤ Path.maxDepth) :
    let result := (s.serve readings ((send ⟨settings, .simple⟩ ins [path.pack]).bind
      fun response => .done (read KeyAnswer.parse response))).1
    (path.components ≠ [] ∨ s.peer.push = none → ∃ e, result = .error e) ∧
    (path.components = [] → ∀ chunk, s.peer.push = some chunk →
      result = KeyAnswer.parse (PeerMessage.putChunk chunk).encode) := by
  intro result
  constructor
  · intro hcause
    by_cases hcomponents : path.components = []
    · have hpush := hcause.resolve_left (not_not_intro hcomponents)
      have hresult : result = _ := master_key_on_blocks hframe hmode hidle ins hcomponents
      rw [hresult, Peer.afterPull, hpush]
      simp only [Peer.finish, hwants]
      exact ⟨_, rfl⟩
    · exact key_on_blocks hframe hmode hidle ins hpath hcomponents
  · intro hcomponents chunk hpush
    have hresult : result = _ := master_key_on_blocks hframe hmode hidle ins hcomponents
    rw [hresult, Peer.afterPull, hpush]
    rfl

end Plain

section Sign

variable {tx b : Bytes} {size : Nat} {root : Hash} {roots : List Hash}

/-- What a request to sign sends in plain frames. -/
def signData (path : Path) (tx : Bytes) : Bytes :=
  framed tx ++ path.pack

theorem length_signData (path : Path) (tx : Bytes) :
    (signData path tx).length = 5 + tx.length + 4 * path.components.length := by
  rw [signData, List.length_append, length_framed, path.length_pack]
  omega

theorem sign_plain (hframe : 0 < settings.maxFrame) (hmode : s.mode = .blocks)
    (hidle : s.peer.isIdle = true) (htx : tx.length ≤ maxTransaction) :
    (s.serve readings (sign ⟨settings, .simple⟩ path tx)).1 =
      s.peer.handleAll (Signer.perform s.approves .signTx) []
        (Bytes.slices settings.maxFrame (signData path tx)) := by
  have hdata : [framed tx, path.pack].flatten = signData path tx := by
    simp [signData]
  have hne : [framed tx, path.pack].flatten ≠ [] := by
    rw [hdata]
    exact List.ne_nil_of_length_pos (by rw [length_signData]; omega)
  rw [sign, if_neg (Nat.not_lt.mpr htx), Signer.serve_plain .signTx hframe hmode hidle,
    Frames.cut_of_ne_nil hne, hdata]

/-- The first root that a request to sign spells. -/
theorem take_of_opening
    (h : (signData path tx).take size = (HostMessage.start (root :: roots)).encode) :
    (signData path tx).take 33 = 0 :: root.bytes := by
  have hlength := congrArg List.length h
  rw [List.length_take, HostMessage.length_encode_start, List.length_cons, Hash.size]
    at hlength
  have hfront := congrArg (List.take 33) h
  rw [List.take_take, Nat.min_eq_left (by omega)] at hfront
  rw [hfront]
  change List.take 33 (0 :: (root.bytes ++ (roots.map Hash.bytes).flatten)) = _
  rw [List.take_succ_cons, ← root.length_bytes, List.take_left]

/-- Only a request for nothing with the master key spells the sentinel, and it is too
short for that. -/
theorem root_ne_zero (hpath : path.components.length ≤ Path.maxDepth)
    (htx : tx.length ≤ maxTransaction)
    (h : (signData path tx).take size = (HostMessage.start (root :: roots)).encode) :
    root ≠ Hash.zero := by
  rintro rfl
  have htake := take_of_opening h
  have hnone : tx = [] := by
    have hwidth : (Bytes.ofNatLE 4 tx.length).length = 4 := Bytes.length_ofNatLE 4 _
    have hlength : Bytes.ofNatLE 4 tx.length = [0, 0, 0, 0] := by
      have hfront := congrArg (List.take 4) htake
      rw [List.take_take, signData, framed, List.append_assoc] at hfront
      change List.take 4 _ = [0, 0, 0, 0] at hfront
      rw [← hfront, List.take_append_of_le_length (by omega),
        List.take_of_length_le (by omega)]
    have hread : Bytes.toNatLE (Bytes.ofNatLE 4 tx.length) = tx.length :=
      Bytes.toNatLE_ofNatLE (by rw [maxTransaction] at htx; omega)
    rw [hlength] at hread
    exact List.eq_nil_of_length_eq_zero hread.symm
  subst hnone
  -- behind the length of nothing stands the number of components
  have hcount : UInt8.ofNat path.components.length = 0 :=
    Option.some.inj (congrArg (fun b : Bytes => b[4]?) htake)
  have hlong := congrArg List.length htake
  rw [List.length_take, length_signData, Path.components_eq_nil hpath hcount] at hlong
  cases hlong

section Blocks

variable (hframe : 0 < settings.maxFrame) (hmode : s.mode = .blocks)
variable (hidle : s.peer.isIdle = true) (hpath : path.components.length ≤ Path.maxDepth)
include hframe hmode hidle hpath

/-- What it takes for a request to sign not to be refused. -/
theorem opening_of_sign (htx : tx.length ≤ maxTransaction)
    (h : (s.serve readings (sign ⟨settings, .simple⟩ path tx)).1 = .ok b) :
    ∃ root roots,
      (signData path tx).take settings.maxFrame = (HostMessage.start (root :: roots)).encode ∧
      (((signData path tx).length ≤ settings.maxFrame ∧
        b = (PeerMessage.getChunk root).encode) ∨
      (settings.maxFrame < (signData path tx).length ∧ ∃ chunk,
        ((signData path tx).drop settings.maxFrame).take settings.maxFrame =
          (HostMessage.chunkFound chunk).encode ∧
        Hash.ofChunk chunk = root ∧ Hash.size ≤ chunk.length)) := by
  rw [sign_plain hframe hmode hidle htx] at h
  have hwants : Signer.perform s.approves .signTx [] = .error Status.wrongApduLength := rfl
  obtain ⟨root, roots, hopening, hnext⟩ :=
    Peer.handleAll_slices hwants hidle hframe (by rw [length_signData]; omega) h
  exact ⟨root, roots, hopening, hnext (root_ne_zero hpath htx hopening)⟩

/-- Without a transaction there is one length at which a path reads as a root. -/
theorem sign_nothing_on_blocks :
    let result := (s.serve readings (sign ⟨settings, .simple⟩ path [])).1
    (path.components.length = 7 ∧ 33 ≤ settings.maxFrame →
      result = .ok (2 :: 0 :: 0 :: 0 :: path.pack)) ∧
    (¬ (path.components.length = 7 ∧ 33 ≤ settings.maxFrame) →
      ∃ e, result = .error e) := by
  intro result
  have hdata : signData path [] = 0 :: 0 :: 0 :: 0 :: path.pack := rfl
  have hnothing : ([] : Bytes).length ≤ maxTransaction := Nat.zero_le _
  constructor
  · rintro ⟨hcount, hfits⟩
    let root : Hash := ⟨0 :: 0 :: 0 :: path.pack, by
      simp only [List.length_cons, path.length_pack]
      omega⟩
    have hopening : signData path [] = (HostMessage.start [root]).encode := by
      change _ = 0 :: (root.bytes ++ [])
      rw [List.append_nil, hdata]
    have hlength : (signData path []).length = 33 := by
      rw [length_signData, hcount]
      rfl
    have hwhole : (signData path []).take 33 = (HostMessage.start [root]).encode := by
      rw [← hopening, List.take_of_length_le (by omega)]
    have hroot : root ≠ Hash.zero := root_ne_zero hpath hnothing hwhole
    have hslices : Bytes.slices settings.maxFrame (signData path []) = [signData path []] :=
      Bytes.slices_of_length_le hframe (List.ne_nil_of_length_pos (by omega)) (by omega)
    have hresult : result = _ := sign_plain hframe hmode hidle hnothing
    rw [hresult, hslices, hopening, Peer.handleAll_singleton,
      Peer.handle_opening hidle hroot]
    rfl
  · intro hother
    cases hresult : result with
    | error e => exact ⟨e, rfl⟩
    | ok b =>
        exfalso
        obtain ⟨root, roots, hopening, hnext⟩ :=
          opening_of_sign hframe hmode hidle hpath hnothing hresult
        have hfirst := congrArg List.length hopening
        rw [List.length_take, length_signData, HostMessage.length_encode_start,
          List.length_cons, List.length_nil, Hash.size] at hfirst
        rw [Path.maxDepth] at hpath
        rcases hnext with ⟨hfits, _⟩ | ⟨hover, chunk, hchunk, _, hlong⟩
        · rw [length_signData, List.length_nil] at hfits
          omega
        · -- what is left behind the opening is too short for a chunk
          have hsecond := congrArg List.length hchunk
          rw [List.length_take, List.length_drop, length_signData, List.length_nil] at hsecond
          change _ = chunk.length + 1 at hsecond
          rw [Hash.size] at hlong
          omega

/-- A transaction has to spell a chunk behind an opening. -/
theorem sign_something_on_blocks (hmax : settings.maxFrame ≤ Frame.maxBody) (htx : tx ≠ [])
    (h : (s.serve readings (sign ⟨settings, .simple⟩ path tx)).1 = .ok b) :
    tx.length ≤ maxTransaction ∧ 256 ∣ tx.length ∧
    (∃ (chunk : Bytes) (roots : List Hash),
      settings.maxFrame = 33 + 32 * roots.length ∧
      (signData path tx).take settings.maxFrame =
        (HostMessage.start (Hash.ofChunk chunk :: roots)).encode ∧
      ((signData path tx).drop settings.maxFrame).take settings.maxFrame =
        (HostMessage.chunkFound chunk).encode) ∧
    ∃ m : PeerMessage, b = m.encode := by
  have hshort : tx.length ≤ maxTransaction := by
    by_contra hlong
    rw [sign, if_pos (Nat.lt_of_not_le hlong)] at h
    cases h
  obtain ⟨root, roots, hopening, hnext⟩ :=
    opening_of_sign hframe hmode hidle hpath hshort h
  -- the lowest byte of the length is read as the tag of the opening
  have htag : UInt8.ofNat (tx.length % 256) = 0 := (List.cons.inj (take_of_opening hopening)).1
  have hwhole : 256 ∣ tx.length := by
    have hzero := congrArg UInt8.toNat htag
    rw [UInt8.toNat_ofNat', UInt8.toNat_zero] at hzero
    omega
  have hlong : settings.maxFrame < (signData path tx).length := by
    have hpos := List.length_pos_of_ne_nil htx
    rw [Frame.maxBody] at hmax
    rw [length_signData]
    omega
  have hwidth : settings.maxFrame = 33 + 32 * roots.length := by
    have hfirst := congrArg List.length hopening
    rw [List.length_take, Nat.min_eq_left (Nat.le_of_lt hlong),
      HostMessage.length_encode_start, List.length_cons, Hash.size] at hfirst
    omega
  obtain ⟨hfits, _⟩ | ⟨_, chunk, hchunk, rfl, _⟩ := hnext
  · exact absurd hlong (Nat.not_lt.mpr hfits)
  refine ⟨hshort, hwhole, ⟨chunk, roots, hwidth, hopening, hchunk⟩, ?_⟩
  have hne : signData path tx ≠ [] := List.ne_nil_of_length_pos (by omega)
  rw [sign_plain hframe hmode hidle hshort, Bytes.slices_of_ne_nil hframe hne] at h
  exact Peer.exists_encode_of_handleAll h

end Blocks

end Sign

/-- Three mismatches that go unreported: a path that is spelled as a root, a pushed chunk
that is spelled as a key, and a transaction of which the second frame is spelled as the
chunk that the first one asks for. -/
theorem mismatch_can_go_unreported :
    let signer : Signer := { mode := .blocks }
    let pushing : Signer :=
      { mode := .blocks, peer := { push := some [0xaa, 0xbb, 0xcc, 1, 0xdd] } }
    let narrow : Settings := { maxFrame := 225 }
    let chunk : Bytes := 0x0f :: 0xec :: 0x46 :: 0x01 :: List.replicate 31 0
    let crafted : Bytes :=
      (Digest.sha256 chunk).drop 3 ++ List.replicate 192 0 ++ 1 :: chunk.take 34
    Settings.standard.validate = .ok () ∧ narrow.validate = .ok () ∧
    signer.peer.isIdle = true ∧ pushing.peer.isIdle = true ∧
    (signer.serve (fun _ => 0)
      (sign ⟨Settings.standard, .simple⟩ ⟨List.replicate 7 0⟩ [])).1 =
        .ok (2 :: 0 :: 0 :: 0 :: 7 :: List.replicate 28 0) ∧
    (pushing.serve (fun _ => 0) (publicKey ⟨Settings.standard, .simple⟩ ⟨[]⟩)).1 =
      .ok ⟨[0xaa, 0xbb, 0xcc], [0xdd]⟩ ∧
    (signer.serve (fun _ => 0) (sign ⟨narrow, .simple⟩ ⟨[]⟩ crafted)).1 =
      .ok (2 :: chunk.take 32) := by
  decide +kernel

/-- **A mismatch of the modes is reported unless it is spelled as a message.**  With
settings that are valid, a client for block transfers gets nothing from an application
for plain frames, and a client for plain frames gets no version from an application for
block transfers.  It gets a key for the master path only, if the application pushes a
chunk that reads as one.  A request to sign nothing is answered for paths of seven
components that fit the frame, with a request for the path as a chunk.  A request to
sign something succeeds if the device has an answer for each of its frames; then its
length is a multiple of 256, its first frame is spelled as an opening and the second one
as the chunk that the opening asks for, and what it gets is a message of the device. -/
theorem mismatch_is_reported_unless_spelled (hvalid : settings.validate = .ok ())
    (readings : Nat → Nat) :
    (∀ (s : Signer) (operation : Operation), s.mode = .simple →
      ∃ e, (s.serve readings (perform ⟨settings, .blocks⟩ operation)).1 = .error e) ∧
    ∀ s : Signer, s.mode = .blocks → s.peer.isIdle = true →
      let plain : Client := ⟨settings, .simple⟩
      (∃ e, (s.serve readings plain.version).1 = .error e) ∧
      ∀ path : Path, path.components.length ≤ 10 →
        (∀ request ∈ [plain.publicKey path, plain.confirmedKey path],
          (path.components ≠ [] ∨ s.peer.push = none →
            ∃ e, (s.serve readings request).1 = .error e) ∧
          (path.components = [] → ∀ chunk, s.peer.push = some chunk →
            (s.serve readings request).1 =
              KeyAnswer.parse (PeerMessage.putChunk chunk).encode)) ∧
        (path.components.length = 7 ∧ 33 ≤ settings.maxFrame →
          (s.serve readings (plain.sign path [])).1 = .ok (2 :: 0 :: 0 :: 0 :: path.pack)) ∧
        (¬ (path.components.length = 7 ∧ 33 ≤ settings.maxFrame) →
          ∃ e, (s.serve readings (plain.sign path [])).1 = .error e) ∧
        ∀ tx : Bytes, tx ≠ [] →
          let sent := framed tx ++ path.pack
          let size := settings.maxFrame
          (tx.length ≤ 0xffffffff → (s.serve readings (plain.sign path tx)).1 =
            s.peer.handleAll (Signer.perform s.approves .signTx) [] (Bytes.slices size sent)) ∧
          ∀ b, (s.serve readings (plain.sign path tx)).1 = .ok b →
            tx.length ≤ 0xffffffff ∧ 256 ∣ tx.length ∧
            (∃ (chunk : Bytes) (roots : List Hash), size = 33 + 32 * roots.length ∧
              sent.take size = (HostMessage.start (Hash.ofChunk chunk :: roots)).encode ∧
              (sent.drop size).take size = (HostMessage.chunkFound chunk).encode) ∧
            ∃ m : PeerMessage, b = m.encode := by
  obtain ⟨_, _, hframe, hmax⟩ := Settings.bounds_of_validate hvalid
  refine ⟨fun s operation hmode => blocks_on_plain hvalid hmode operation, ?_⟩
  intro s hmode hidle plain
  refine ⟨version_on_blocks hframe hmode hidle, fun path hpath => ⟨?_, ?_, ?_, ?_⟩⟩
  · intro request hrequest
    rcases List.mem_pair.mp hrequest with rfl | rfl
    · exact any_key_on_blocks hframe hmode hidle .getPublicKey rfl hpath
    · exact any_key_on_blocks hframe hmode hidle .verifyAddress rfl hpath
  · exact (sign_nothing_on_blocks hframe hmode hidle hpath).1
  · exact (sign_nothing_on_blocks hframe hmode hidle hpath).2
  · intro tx htx sent size
    exact ⟨fun hshort => sign_plain hframe hmode hidle hshort,
      fun b h => sign_something_on_blocks hframe hmode hidle hpath hmax htx h⟩

/-- A key and a signature for a path of one component, and a signature the other way
round. -/
theorem mismatch_is_reported_for_one_component :
    let blocks : Signer := { mode := .blocks }
    let simple : Signer := { mode := .simple }
    let path : Path := ⟨[7]⟩
    (∃ e, (blocks.serve (fun _ => 0)
      (publicKey ⟨Settings.standard, .simple⟩ path)).1 = .error e) ∧
    (∃ e, (blocks.serve (fun _ => 0)
      (sign ⟨Settings.standard, .simple⟩ path [])).1 = .error e) ∧
    ∃ e, (simple.serve (fun _ => 0)
      (perform ⟨Settings.standard, .blocks⟩ (.sign path [1, 2, 3]))).1 = .error e := by
  intro blocks simple path
  have hvalid : Settings.standard.validate = .ok () := rfl
  obtain ⟨htransfer, hplain⟩ := mismatch_is_reported_unless_spelled hvalid fun _ => 0
  obtain ⟨_, hpaths⟩ := hplain blocks rfl rfl
  obtain ⟨hkeys, _, hnothing, _⟩ := hpaths path (by decide)
  obtain ⟨hkey, _⟩ := hkeys _ List.mem_cons_self
  exact ⟨hkey (Or.inl (by decide)), hnothing (by decide),
    htransfer simple (.sign path [1, 2, 3]) rfl⟩

end Client
end Courier
