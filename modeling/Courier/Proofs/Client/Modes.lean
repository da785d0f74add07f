import Courier.Proofs.Signer.Payloads
import Courier.Proofs.Signer.Sessions

/-!
# Both ways to send come to the same

For a request that is not for a signature, a plain frame and a block transfer bring the
same answer, as long as the payload fits the frame and the rounds suffice.  A packed
path that does not fit the frame is refused in its first part; block transfers do not
mind.

* `Client.reads_plain`, `Client.reads_blocks`: what the host reads in each of the ways.
* `Client.key_plain`, `Client.key_blocks`: keys in each of the ways;
  `Client.refused_plain`: a path that does not fit the frame.
* `Client.modes_agree`: requests for the version, for a key and for a confirmed key.
-/

namespace Courier
namespace Client

variable {settings : Settings} {path : Path} {payload : Bytes} {s t : Signer}
variable {ins : Instruction} {readings : Nat → Nat}

section Reads

variable {α : Type} (parse : Bytes → Except Failure α)

/-- The answer in a plain frame, as the host reads it. -/
theorem reads_plain (hframe : 0 < settings.maxFrame) (hmode : t.mode = .simple)
    (hins : ins ≠ .signTx) (hfits : payload.length ≤ settings.maxFrame) :
    (t.serve readings ((send ⟨settings, .simple⟩ ins [payload]).bind fun response =>
        .done (read parse response))).1 =
      read parse (Response.ofAnswer (Signer.perform t.approves ins [payload])) := by
  rw [Signer.serve_bind, Signer.serve_simple hframe hmode (Or.inl hfits),
    List.take_of_length_le hfits, Signer.answerPlain_eq hins]

/-- The answer to a short payload through a block transfer, as the host reads it. -/
theorem reads_blocks (hsize : 0 < settings.chunkSize) (hshort : payload.length ≤ 222)
    (hs : s.TakesBlocks)
    (hchunks : Chain.Separable (Chain.ofPayloads settings.chunkSize [payload]))
    (htime : ∀ i, readings (i + 1) < readings 0 + settings.operationTimeout)
    (hrounds : s.asked settings.chunkSize [payload] +
      s.peer.laterRounds (Signer.perform s.approves ins [payload]) ≤
        settings.maxRounds) :
    (s.serve readings ((send ⟨settings, .blocks⟩ ins [payload]).bind fun response =>
        .done (read parse response))).1 =
      read parse (Response.ofAnswer (Signer.perform s.approves ins [payload])) := by
  obtain ⟨henough, _⟩ := Signer.serve_blocks ins hsize
    (fun c hc => Chain.length_le_of_short_payloads (by simpa using hshort) hc)
    (by simp) hs hchunks htime
  rw [Signer.serve_bind, (henough hrounds).1]

end Reads

section Keys

/-- The exchanges up to the answer to a request for a key. -/
theorem asked_pack (s : Signer) (size : Nat) (path : Path) :
    s.asked size [path.pack] =
      1 + (if s.peer.push.isSome then 2 else 0) +
        (1 + 4 * path.components.length) ⌈/⌉ size := by
  simp only [Signer.asked, List.map_cons, List.map_nil, List.sum_cons, List.sum_nil,
    path.length_pack]
  omega

/-- The answer to a request for a key, as the host reads it. -/
theorem read_performKey (needsApproval approves : Bool)
    (hpath : path.components.length ≤ Path.maxDepth) :
    read KeyAnswer.parse
        (Response.ofAnswer (Signer.performKey needsApproval approves [path.pack])) =
      if needsApproval && !approves then .error (.peer Status.deny [])
      else .ok ⟨Signer.publicKey path.pack, Signer.chainCode path.pack⟩ := by
  rw [Signer.performKey_pack needsApproval approves hpath]
  split_ifs
  · rfl
  · rw [Response.ofAnswer, read, KeyAnswer.parse_keyBytes]

/-- A key through a block transfer. -/
theorem key_blocks (ins : Instruction) (needsApproval : Bool)
    (hsize : 0 < settings.chunkSize)
    (hpath : path.components.length ≤ Path.maxDepth) (hs : s.TakesBlocks)
    (hchunks : Chain.Separable (Chain.ofPayloads settings.chunkSize [path.pack]))
    (htime : ∀ i, readings (i + 1) < readings 0 + settings.operationTimeout)
    (hins : Signer.perform s.approves ins = Signer.performKey needsApproval s.approves) :
    let asked := 1 + (if s.peer.push.isSome then 2 else 0) +
      (1 + 4 * path.components.length) ⌈/⌉ settings.chunkSize
    (if needsApproval && !s.approves then asked
      else asked + 66 ⌈/⌉ s.peer.fragmentSize - 1) ≤ settings.maxRounds →
    (s.serve readings ((send ⟨settings, .blocks⟩ ins [path.pack]).bind fun response =>
        .done (read KeyAnswer.parse response))).1 =
      if needsApproval && !s.approves then .error (.peer Status.deny [])
      else .ok ⟨Signer.publicKey path.pack, Signer.chainCode path.pack⟩ := by
  intro asked hrounds
  rw [← read_performKey needsApproval s.approves hpath, ← hins]
  have hshort : path.pack.length ≤ 222 := by
    rw [Path.maxDepth] at hpath
    rw [path.length_pack]
    omega
  refine reads_blocks KeyAnswer.parse hsize hshort hs hchunks htime ?_
  have hlater := Peer.laterRounds_ok hs.fragment
    (Signer.length_keyBytes path.pack) (by decide)
  rw [asked_pack, hins, Signer.performKey_pack needsApproval s.approves hpath]
  by_cases hdenied : (needsApproval && !s.approves) = true
  · rw [if_pos hdenied] at hrounds ⊢
    exact hrounds
  · rw [if_neg hdenied] at hrounds ⊢
    omega

/-- A key in a plain frame. -/
theorem key_plain (ins : Instruction) (needsApproval : Bool)
    (hframe : 0 < settings.maxFrame) (hmode : t.mode = .simple)
    (hpath : path.components.length ≤ Path.maxDepth)
    (hfits : 1 + 4 * path.components.length ≤ settings.maxFrame) (hsign : ins ≠ .signTx)
    (hins : Signer.perform t.approves ins = Signer.performKey needsApproval t.approves) :
    (t.serve readings ((send ⟨settings, .simple⟩ ins [path.pack]).bind fun response =>
        .done (read KeyAnswer.parse response))).1 =
      if needsApproval && !t.approves then .error (.peer Status.deny [])
      else .ok ⟨Signer.publicKey path.pack, Signer.chainCode path.pack⟩ := by
  rw [← path.length_pack] at hfits
  rw [← read_performKey needsApproval t.approves hpath, ← hins]
  exact reads_plain KeyAnswer.parse hframe hmode hsign hfits

/-- A path that does not fit the frame is refused in its first part. -/
theorem refused_plain (ins : Instruction) (needsApproval : Bool)
    (hframe : 0 < settings.maxFrame) (hmode : t.mode = .simple)
    (hpath : path.components.length ≤ Path.maxDepth)
    (hlong : settings.maxFrame < 1 + 4 * path.components.length) (hsign : ins ≠ .signTx)
    (hins : Signer.perform t.approves ins = Signer.performKey needsApproval t.approves) :
    t.serve readings ((send ⟨settings, .simple⟩ ins [path.pack]).bind fun response =>
        .done (read KeyAnswer.parse response)) =
      (.error (.peer Status.displayBip32PathFail []),
        { t with exchanges := t.exchanges + 1 }) := by
  have hpart : ¬ Signer.isPath (path.pack.take settings.maxFrame) = true := by
    rw [Signer.isPath_take_pack hpath, path.length_pack]
    omega
  have hrefused : t.answerPlain ins (path.pack.take settings.maxFrame) =
      .error (.peer Status.displayBip32PathFail []) := by
    rw [Signer.answerPlain_eq hsign, hins, Signer.performKey, if_pos (by simp [hpart])]
    rfl
  rw [Signer.serve_bind, Signer.serve_simple hframe hmode (Or.inr ⟨_, hrefused⟩), hrefused]
  rfl

end Keys

/-- **The two ways to send agree.**  Requests for the version and, as long as the packed
path fits a plain frame, for a key and a confirmed key have the same result on an
application for plain frames as on one for block transfers, if the rounds suffice
there.  If the path does not fit, the application for plain frames refuses it in the
first exchange, and the results of block transfers are what they were. -/
theorem modes_agree (hvalid : settings.validate = .ok ())
    (hpath : path.components.length ≤ 10)
    (hblocks : s.mode = .blocks) (hidle : s.peer.isIdle = true)
    (hfragment : 1 ≤ s.peer.fragmentSize)
    (hpush : ∀ chunk, s.peer.push = some chunk → chunk.length ≤ 254)
    (hsimple : t.mode = .simple) (happroves : t.approves = s.approves)
    (hchunks : Chain.Separable (Chain.ofPayloads settings.chunkSize [path.pack]))
    (htime : ∀ i, readings (i + 1) < readings 0 + settings.operationTimeout) :
    let plain : Client := ⟨settings, .simple⟩
    let blocks : Client := ⟨settings, .blocks⟩
    let opening := 1 + if s.peer.push.isSome then 2 else 0
    let asked := opening + (1 + 4 * path.components.length) ⌈/⌉ settings.chunkSize
    let answered := asked + 66 ⌈/⌉ s.peer.fragmentSize - 1
    let version : AppVersion := ⟨0, 1, 0, Signer.appName⟩
    let key : KeyAnswer := ⟨Signer.publicKey path.pack, Signer.chainCode path.pack⟩
    let confirmed : Except Failure KeyAnswer :=
      if s.approves then .ok key else .error (.peer Status.deny [])
    let refused : Except Failure KeyAnswer × Signer :=
      (.error (.peer Status.displayBip32PathFail []),
        { t with exchanges := t.exchanges + 1 })
    (t.serve readings plain.version).1 = .ok version ∧
    (opening + 17 ⌈/⌉ s.peer.fragmentSize - 1 ≤ settings.maxRounds →
      (s.serve readings blocks.version).1 = .ok version) ∧
    (answered ≤ settings.maxRounds →
      (s.serve readings (blocks.publicKey path)).1 = .ok key) ∧
    ((if s.approves then answered else asked) ≤ settings.maxRounds →
      (s.serve readings (blocks.confirmedKey path)).1 = confirmed) ∧
    (1 + 4 * path.components.length ≤ settings.maxFrame →
      (t.serve readings (plain.publicKey path)).1 = .ok key ∧
      (t.serve readings (plain.confirmedKey path)).1 = confirmed) ∧
    (settings.maxFrame < 1 + 4 * path.components.length →
      t.serve readings (plain.publicKey path) = refused ∧
      t.serve readings (plain.confirmedKey path) = refused) := by
  intro plain blocks opening asked answered version key confirmed refused
  obtain ⟨hsize, _, hframe, _⟩ := Settings.bounds_of_validate hvalid
  have hs : s.TakesBlocks := ⟨hblocks, hidle, hfragment, hpush⟩
  have hversion : read AppVersion.parse (Response.ofAnswer (.ok Signer.versionBytes)) =
      .ok version := AppVersion.parse_versionBytes
  -- the approval decides between two answers and between two numbers of exchanges
  have happroval : ∀ {β : Type} (x y : β),
      (if true && !s.approves then x else y) = if s.approves then y else x := by
    intro β x y
    cases s.approves <;> rfl
  refine ⟨?_, ?_, ?_, ?_, ?_, ?_⟩
  · rw [← hversion]
    exact reads_plain AppVersion.parse hframe hsimple (by decide) (Nat.zero_le _)
  · intro hrounds
    have hlater : s.peer.laterRounds (.ok Signer.versionBytes) + 1 = _ :=
      Peer.laterRounds_ok hfragment Signer.length_versionBytes (by decide)
    have hfits : s.asked settings.chunkSize [[]] +
        s.peer.laterRounds (.ok Signer.versionBytes) ≤ settings.maxRounds := by
      rw [Signer.asked_nil]
      omega
    rw [← hversion]
    exact reads_blocks AppVersion.parse hsize (Nat.zero_le _) hs
      ⟨by simp [Chain.ofPayloads], by simp [Chain.ofPayloads]⟩ htime hfits
  · exact key_blocks .getPublicKey false hsize hpath hs hchunks htime rfl
  · intro hrounds
    rw [← happroval] at hrounds
    have hkey := key_blocks .verifyAddress true hsize hpath hs hchunks htime rfl hrounds
    exact hkey.trans (happroval _ _)
  · intro hfits
    constructor
    · exact key_plain .getPublicKey false hframe hsimple hpath hfits (by decide) rfl
    · have hkey : (t.serve readings (plain.confirmedKey path)).1 = _ :=
        key_plain .verifyAddress true hframe hsimple hpath hfits (by decide) rfl
      rw [happroves, happroval] at hkey
      exact hkey
  · intro hlong
    constructor
    · exact refused_plain .getPublicKey false hframe hsimple hpath hlong (by decide) rfl
    · exact refused_plain .verifyAddress true hframe hsimple hpath hlong (by decide) rfl

/-- A path of two components, with frames of eight bytes. -/
theorem modes_agree_but_for_a_long_path :
    let settings : Settings := { maxFrame := 8 }
    let path : Path := ⟨[1, 2]⟩
    let s : Signer := { mode := .blocks }
    let t : Signer := { mode := .simple }
    (s.serve (fun _ => 0) (publicKey ⟨settings, .blocks⟩ path)).1 =
      .ok ⟨Signer.publicKey path.pack, Signer.chainCode path.pack⟩ ∧
    (t.serve (fun _ => 0) (publicKey ⟨settings, .simple⟩ path)).1 =
      .error (.peer Status.displayBip32PathFail []) := by
  intro settings path s t
  have hchunks : Chain.Separable (Chain.ofPayloads 180 [path.pack]) :=
    Chain.separable_of_nodup (by decide +kernel)
  obtain ⟨_, _, hkey, _, _, hlong⟩ := @modes_agree settings path s t (fun _ => 0) rfl
    (by decide) rfl rfl (by decide) (by simp [s]) rfl rfl hchunks (fun _ => by decide)
  refine ⟨hkey (by decide +kernel), ?_⟩
  rw [(hlong (by decide)).1]

end Client
end Courier
