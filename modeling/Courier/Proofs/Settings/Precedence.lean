import Courier.Command.Plan
import Mathlib.Tactic

/-!
# Which source decides a setting

The flags, the environment, a settings file and the standard values are asked in this
order, and each setting comes from the first of them that names it.  What the sources
say is used only where it does: a file and its overrides have to be good for any command
to run, and overrides without a file count as a whole or not at all.

* `Overrides`: what one source says, with `Overrides.or` for the first of two sources
  and `Overrides.applyTo` for what it makes of settings.
* `Arguments.overrides`, `Overrides.ofEnvironment`, `Overrides.ofEntries`: the sources.
* `Environment.fault?`, `Overrides.Typed`: when the environment and a document can be
  understood; `Settings.Usable` and `Settings.Unusable`: what becomes of a file.
* `Settings.ofEntries_eq_some_iff`, `Settings.applyEnvironment_of_readable`,
  `Settings.ofFileWith_of_usable`: each source is put over the next one.
* `Arguments.first_source_decides`: all of them together.
-/

namespace Courier

/-- What one source says about the settings. -/
structure Overrides where
  address : Option String := none
  chunkSize : Option Nat := none
  maxFrame : Option Nat := none
  maxRounds : Option Nat := none
  exchangeTimeout : Option Nat := none
  operationTimeout : Option Nat := none
  useBlocks : Option Bool := none
  deriving DecidableEq, Repr

namespace Overrides

/-- For each setting the first of two sources that names it. -/
def or (a b : Overrides) : Overrides where
  address := a.address.or b.address
  chunkSize := a.chunkSize.or b.chunkSize
  maxFrame := a.maxFrame.or b.maxFrame
  maxRounds := a.maxRounds.or b.maxRounds
  exchangeTimeout := a.exchangeTimeout.or b.exchangeTimeout
  operationTimeout := a.operationTimeout.or b.operationTimeout
  useBlocks := a.useBlocks.or b.useBlocks

/-- The settings with what a source says in their place. -/
def applyTo (o : Overrides) (s : Settings) : Settings where
  address := o.address.getD s.address
  chunkSize := o.chunkSize.getD s.chunkSize
  maxFrame := o.maxFrame.getD s.maxFrame
  maxRounds := o.maxRounds.getD s.maxRounds
  exchangeTimeout := o.exchangeTimeout.getD s.exchangeTimeout
  operationTimeout := o.operationTimeout.getD s.operationTimeout
  useBlocks := o.useBlocks.getD s.useBlocks

/-- The first of two sources is put over the second. -/
theorem applyTo_or (a b : Overrides) (s : Settings) :
    (a.or b).applyTo s = a.applyTo (b.applyTo s) := by
  simp only [applyTo, or, Option.getD_or]

/-- Settings are validated by their sizes and budgets only. -/
theorem validate_applyTo {o : Overrides} (hchunk : o.chunkSize = none)
    (hframe : o.maxFrame = none) (hrounds : o.maxRounds = none)
    (hexchange : o.exchangeTimeout = none) (hoperation : o.operationTimeout = none)
    (s : Settings) : (o.applyTo s).validate = s.validate := by
  obtain ⟨address, chunkSize, maxFrame, maxRounds, exchangeTimeout, operationTimeout,
    useBlocks⟩ := o
  cases hchunk
  cases hframe
  cases hrounds
  cases hexchange
  cases hoperation
  rfl

end Overrides

/-- What the flags say; block transfers can only be switched on. -/
def Arguments.overrides (args : Arguments) : Overrides where
  address := args.address
  useBlocks := if args.blocks then some true else none

namespace Environment

/-- The number in a variable, if there is one. -/
def number? (env : Environment) (name : String) : Option Nat :=
  (env.text? name).bind fun text => (Decimal.read Decimal.longBound text.toList).toOption

/-- What is wrong with the text of a variable that should be a number. -/
def numberFault? (env : Environment) (name : String) : Option Failure :=
  (env.text? name).bind fun text =>
    match Decimal.read Decimal.longBound text.toList with
    | .error why => some (.config (.variable name text why))
    | .ok _ => none

/-- The first of the two numbers in the environment that is wrong. -/
def fault? (env : Environment) : Option Failure :=
  (env.numberFault? "APDU_HOST_CHUNK_SIZE").or (env.numberFault? "APDU_HOST_MAX_ROUNDS")

end Environment

/-- What the environment says. -/
def Overrides.ofEnvironment (env : Environment) : Overrides where
  address := env.text? "APDU_HOST_ADDR"
  chunkSize := env.number? "APDU_HOST_CHUNK_SIZE"
  maxRounds := env.number? "APDU_HOST_MAX_ROUNDS"
  useBlocks := (env.text? "APDU_HOST_BLOCKS").map fun text => text ∈ ["1", "true", "yes"]

/-- The overrides of the environment do for the standard settings. -/
def Environment.Sound (env : Environment) : Prop :=
  env.fault? = none ∧
    ((Overrides.ofEnvironment env).applyTo Settings.standard).validate = .ok ()

namespace Toml
namespace Entries

/-- The text under a key. -/
def text? (es : Entries) (key : String) : Option String :=
  match es.lookup key with
  | some (.text s) => some s
  | _ => none

/-- The number under a key. -/
def number? (es : Entries) (key : String) : Option Nat :=
  match es.lookup key with
  | some (.integer n) => some n.toNat
  | _ => none

/-- The truth value under a key. -/
def flag? (es : Entries) (key : String) : Option Bool :=
  match es.lookup key with
  | some (.boolean b) => some b
  | _ => none

end Entries
end Toml

namespace Overrides

/-- What a document says. -/
def ofEntries (es : Toml.Entries) : Overrides where
  address := es.text? "emulator_addr"
  chunkSize := es.number? "chunk_size"
  maxFrame := es.number? "max_frame_len"
  maxRounds := es.number? "max_rounds"
  exchangeTimeout := es.number? "exchange_timeout_ms"
  operationTimeout := es.number? "operation_timeout_ms"
  useBlocks := es.flag? "use_block_protocol"

/-- The keys of numbers. -/
def numberKeys : List String :=
  ["chunk_size", "max_frame_len", "max_rounds", "exchange_timeout_ms",
    "operation_timeout_ms"]

/-- A known key that is there holds a value of its type. -/
structure Typed (es : Toml.Entries) : Prop where
  address : ∀ v, es.lookup "emulator_addr" = some v → ∃ s, v = .text s
  number : ∀ key ∈ numberKeys, ∀ v, es.lookup key = some v → ∃ n : Nat, v = .integer n
  useBlocks : ∀ v, es.lookup "use_block_protocol" = some v → ∃ b, v = .boolean b

end Overrides

namespace Settings

/-- A file that can be used, and what it says. -/
inductive Usable (parse : String → Option Toml.Entries) :
    Except SystemFault Bytes → Overrides → Prop
  | read {bytes : Bytes} {text : String} {es : Toml.Entries}
      (htext : Utf8.decode bytes = .ok text) (hparse : parse text = some es)
      (htyped : Overrides.Typed es)
      (hvalid : ((Overrides.ofEntries es).applyTo standard).validate = .ok ()) :
      Usable parse (.ok bytes) (Overrides.ofEntries es)

/-- A file that cannot be used, and why: it cannot be read, it is no text, the text is
no document, a value is not of its type, or the settings in it are not valid. -/
inductive Unusable (parse : String → Option Toml.Entries) (path : String) :
    Except SystemFault Bytes → Failure → Prop
  | unreadable (why : SystemFault) :
      Unusable parse path (.error why) (.config (.unreadable path (.system why)))
  | notText {bytes : Bytes} {why : Utf8.Fault} (htext : Utf8.decode bytes = .error why) :
      Unusable parse path (.ok bytes) (.config (.unreadable path .notText))
  | malformed {bytes : Bytes} {text : String} (htext : Utf8.decode bytes = .ok text)
      (hparse : parse text = none) :
      Unusable parse path (.ok bytes) (.config .malformedDocument)
  | untyped {bytes : Bytes} {text : String} {es : Toml.Entries}
      (htext : Utf8.decode bytes = .ok text) (hparse : parse text = some es)
      (htyped : ¬ Overrides.Typed es) :
      Unusable parse path (.ok bytes) (.config .malformedDocument)
  | invalid {bytes : Bytes} {text : String} {es : Toml.Entries} {e : Failure}
      (htext : Utf8.decode bytes = .ok text) (hparse : parse text = some es)
      (htyped : Overrides.Typed es)
      (hinvalid : ((Overrides.ofEntries es).applyTo standard).validate = .error e) :
      Unusable parse path (.ok bytes) e

section Document

variable {es : Toml.Entries} {key : String}

theorem textAt_eq_some_iff {s t : String} :
    textAt es key s = some t ↔
      (∀ v, es.lookup key = some v → ∃ u, v = .text u) ∧ t = (es.text? key).getD s := by
  rw [textAt, Toml.Entries.text?]
  cases es.lookup key with
  | none => simp [eq_comm]
  | some v => cases v <;> simp [eq_comm]

theorem numberAt_eq_some_iff {n k : Nat} :
    numberAt es key n = some k ↔
      (∀ v, es.lookup key = some v → ∃ m : Nat, v = .integer m) ∧
        k = (es.number? key).getD n := by
  rw [numberAt, Toml.Entries.number?]
  cases es.lookup key with
  | none => simp [eq_comm]
  | some v =>
      cases v with
      | integer m =>
          have hsign : (∃ l : Nat, m = l) ↔ 0 ≤ m := by
            constructor
            · rintro ⟨l, rfl⟩
              exact Int.natCast_nonneg l
            · exact Int.eq_ofNat_of_zero_le
          simp [hsign, eq_comm]
      | _ => simp

theorem flagAt_eq_some_iff {b c : Bool} :
    flagAt es key b = some c ↔
      (∀ v, es.lookup key = some v → ∃ d, v = .boolean d) ∧
        c = (es.flag? key).getD b := by
  rw [flagAt, Toml.Entries.flag?]
  cases es.lookup key with
  | none => simp [eq_comm]
  | some v => cases v <;> simp [eq_comm]

/-- A document of the right types is put over the standard settings. -/
theorem ofEntries_eq_some_iff {s : Settings} :
    ofEntries es = some s ↔
      Overrides.Typed es ∧ s = (Overrides.ofEntries es).applyTo standard := by
  simp only [ofEntries, Option.bind_eq_bind, Option.bind_eq_some_iff, textAt_eq_some_iff,
    numberAt_eq_some_iff, flagAt_eq_some_iff]
  constructor
  · rintro ⟨_, ⟨ha, rfl⟩, _, ⟨hc, rfl⟩, _, ⟨hf, rfl⟩, _, ⟨hr, rfl⟩, _, ⟨he, rfl⟩, _,
      ⟨ho, rfl⟩, _, ⟨hb, rfl⟩, hs⟩
    refine ⟨⟨ha, ?_, hb⟩, (Option.some.inj hs).symm⟩
    simpa [Overrides.numberKeys] using ⟨hc, hf, hr, he, ho⟩
  · rintro ⟨⟨ha, hn, hb⟩, rfl⟩
    simp only [Overrides.numberKeys, List.forall_mem_cons] at hn
    obtain ⟨hc, hf, hr, he, ho, -⟩ := hn
    exact ⟨_, ⟨ha, rfl⟩, _, ⟨hc, rfl⟩, _, ⟨hf, rfl⟩, _, ⟨hr, rfl⟩, _, ⟨he, rfl⟩, _,
      ⟨ho, rfl⟩, _, ⟨hb, rfl⟩, rfl⟩

end Document

section File

variable {parse : String → Option Toml.Entries}
variable {path : String} {content : Except SystemFault Bytes}

/-- A file that can be used is put over the standard settings. -/
theorem ofFileWith_of_usable {o : Overrides} (h : Usable parse content o) :
    ofFileWith parse path content = .ok (o.applyTo standard) := by
  cases h with
  | read htext hparse htyped hvalid =>
      have hentries := ofEntries_eq_some_iff.mpr ⟨htyped, rfl⟩
      simp only [ofFileWith, htext, ofDocument, hparse, Option.bind_some, hentries, hvalid]

theorem ofFileWith_of_unusable {e : Failure} (h : Unusable parse path content e) :
    ofFileWith parse path content = .error e := by
  cases h with
  | unreadable why => rfl
  | notText htext => simp only [ofFileWith, htext]
  | malformed htext hparse =>
      simp only [ofFileWith, htext, ofDocument, hparse, Option.bind_none]
  | untyped htext hparse htyped =>
      have hentries : ofEntries _ = none := Option.eq_none_iff_forall_ne_some.mpr
        fun s hs => htyped (ofEntries_eq_some_iff.mp hs).1
      simp only [ofFileWith, htext, ofDocument, hparse, Option.bind_some, hentries]
  | invalid htext hparse htyped hinvalid =>
      have hentries := ofEntries_eq_some_iff.mpr ⟨htyped, rfl⟩
      simp only [ofFileWith, htext, ofDocument, hparse, Option.bind_some, hentries, hinvalid]

/-- Every file is one or the other. -/
theorem usable_or_unusable (parse : String → Option Toml.Entries) (path : String)
    (content : Except SystemFault Bytes) :
    (∃ o, Usable parse content o) ∨ ∃ e, Unusable parse path content e := by
  cases content with
  | error why => exact .inr ⟨_, .unreadable why⟩
  | ok bytes =>
      cases htext : Utf8.decode bytes with
      | error why => exact .inr ⟨_, .notText htext⟩
      | ok text =>
          cases hparse : parse text with
          | none => exact .inr ⟨_, .malformed htext hparse⟩
          | some es =>
              by_cases htyped : Overrides.Typed es
              · cases hvalid : ((Overrides.ofEntries es).applyTo standard).validate with
                | error e => exact .inr ⟨e, .invalid htext hparse htyped hvalid⟩
                | ok _ => exact .inl ⟨_, .read htext hparse htyped hvalid⟩
              · exact .inr ⟨_, .untyped htext hparse htyped⟩

end File

section Environment

variable {env : Environment} {name : String}

theorem numberFrom_of_fault {n : Nat} {e : Failure} (h : env.numberFault? name = some e) :
    numberFrom env name n = .error e := by
  obtain ⟨text, htext, hfault⟩ := Option.bind_eq_some_iff.mp h
  cases hread : Decimal.read Decimal.longBound text.toList with
  | ok k =>
      rw [hread] at hfault
      cases hfault
  | error why =>
      rw [hread] at hfault
      cases hfault
      simp only [numberFrom, htext, hread]

theorem numberFrom_of_readable (n : Nat) (h : env.numberFault? name = none) :
    numberFrom env name n = .ok ((env.number? name).getD n) := by
  cases htext : env.text? name with
  | none => simp only [numberFrom, Environment.number?, htext, Option.bind_none, Option.getD_none]
  | some text =>
      cases hread : Decimal.read Decimal.longBound text.toList with
      | ok k =>
          simp only [numberFrom, Environment.number?, htext, hread, Option.bind_some,
            Except.toOption, Option.getD_some]
      | error why =>
          simp only [Environment.numberFault?, htext, hread, Option.bind_some] at h
          cases h

/-- Overrides that cannot be read are reported, whatever they are put over. -/
theorem applyEnvironment_of_fault (s : Settings) {e : Failure} (h : env.fault? = some e) :
    (s.applyEnvironment env).1 = .error e := by
  cases hchunk : env.numberFault? "APDU_HOST_CHUNK_SIZE" with
  | some why =>
      rw [Environment.fault?, hchunk, Option.some_or] at h
      cases h
      simp only [applyEnvironment, numberFrom_of_fault hchunk]
  | none =>
      rw [Environment.fault?, hchunk, Option.none_or] at h
      simp only [applyEnvironment, numberFrom_of_readable _ hchunk, numberFrom_of_fault h]

theorem isYes_eq (text : String) : isYes text = decide (text ∈ ["1", "true", "yes"]) := by
  rw [Bool.eq_iff_iff]
  simp [isYes, or_assoc]

/-- Overrides that can be read are put over the settings. -/
theorem applyEnvironment_of_readable (s : Settings) (h : env.fault? = none) :
    let overridden := (Overrides.ofEnvironment env).applyTo s
    s.applyEnvironment env = (overridden.validate, overridden) := by
  intro overridden
  obtain ⟨hchunk, hrounds⟩ := Option.or_eq_none_iff.mp h
  simp only [applyEnvironment, numberFrom_of_readable _ hchunk,
    numberFrom_of_readable _ hrounds, overridden, Overrides.applyTo, Overrides.ofEnvironment]
  cases env.text? "APDU_HOST_BLOCKS" with
  | none => rfl
  | some text =>
      simp only [isYes_eq]
      rfl

theorem ofEnvironment_of_error {e : Failure} (h : (standard.applyEnvironment env).1 = .error e) :
    ofEnvironment env = standard := by
  rw [ofEnvironment]
  generalize standard.applyEnvironment env = applied at h
  obtain ⟨outcome, s⟩ := applied
  cases h
  rfl

/-- Without a file the overrides count together, or none of them does. -/
theorem ofEnvironment_of_sound (h : env.Sound) :
    ofEnvironment env = (Overrides.ofEnvironment env).applyTo standard := by
  simp only [ofEnvironment, applyEnvironment_of_readable standard h.1, h.2]

theorem ofEnvironment_of_not_sound (h : ¬ env.Sound) : ofEnvironment env = standard := by
  cases hfault : env.fault? with
  | some e => exact ofEnvironment_of_error (applyEnvironment_of_fault standard hfault)
  | none =>
      cases hvalid : ((Overrides.ofEnvironment env).applyTo standard).validate with
      | ok _ => exact absurd ⟨hfault, hvalid⟩ h
      | error e =>
          refine ofEnvironment_of_error (e := e) ?_
          rw [applyEnvironment_of_readable standard hfault, hvalid]

end Environment

end Settings

namespace Arguments

variable {parse : String → Option Toml.Entries}
variable {args : Arguments} {env : Environment} {files : Files}

/-- The flags are put over everything else. -/
theorem settingsWith_eq :
    args.settingsWith parse env files =
      (args.baseSettings parse env files).map args.overrides.applyTo := by
  have hflags : (fun s : Settings =>
      { s with
        address := args.address.getD s.address
        useBlocks := args.blocks || s.useBlocks }) = args.overrides.applyTo := by
    funext s
    simp only [Overrides.applyTo, overrides, Option.getD_none]
    cases args.blocks <;> rfl
  rw [settingsWith, hflags]

/-- The flags name nothing that is validated. -/
theorem validate_overrides (s : Settings) :
    (args.overrides.applyTo s).validate = s.validate :=
  Overrides.validate_applyTo rfl rfl rfl rfl rfl s

section File

variable {path : String} (hpath : args.config = some path)
include hpath

theorem settingsWith_of_unusable {e : Failure}
    (h : Settings.Unusable parse path (files path) e) :
    args.settingsWith parse env files = .error e := by
  rw [settingsWith_eq, baseSettings, hpath]
  simp only [Settings.ofFileWith_of_unusable h]
  rfl

variable {file : Overrides} (hfile : Settings.Usable parse (files path) file)
include hfile

theorem settingsWith_of_fault {e : Failure} (h : env.fault? = some e) :
    args.settingsWith parse env files = .error e := by
  have happlied := Settings.applyEnvironment_of_fault (file.applyTo Settings.standard) h
  rw [settingsWith_eq, baseSettings, hpath]
  simp only [Settings.ofFileWith_of_usable hfile]
  generalize (file.applyTo Settings.standard).applyEnvironment env = applied at happlied
  obtain ⟨outcome, s⟩ := applied
  cases happlied
  rfl

/-- With everything in place, the settings are put together and validated. -/
theorem settingsWith_of_readable (h : env.fault? = none) :
    let chosen := ((args.overrides.or (Overrides.ofEnvironment env)).or file).applyTo
      Settings.standard
    args.settingsWith parse env files = chosen.validate.map fun _ => chosen := by
  intro chosen
  let overridden := (Overrides.ofEnvironment env).applyTo (file.applyTo Settings.standard)
  have hchosen : chosen = args.overrides.applyTo overridden := by
    simp only [chosen, overridden, Overrides.applyTo_or]
  rw [hchosen, validate_overrides, settingsWith_eq, baseSettings, hpath]
  simp only [Settings.ofFileWith_of_usable hfile, Settings.applyEnvironment_of_readable _ h]
  cases overridden.validate with
  | ok _ => rfl
  | error e => rfl

end File

/-- Without a file there are settings in any case. -/
theorem settingsWith_without_file (hconfig : args.config = none) :
    args.settingsWith parse env files =
      .ok (args.overrides.applyTo (Settings.ofEnvironment env)) := by
  rw [settingsWith_eq, baseSettings, hconfig]
  rfl

theorem validate_ofEnvironment : (Settings.ofEnvironment env).validate = .ok () := by
  by_cases hsound : env.Sound
  · rw [Settings.ofEnvironment_of_sound hsound]
    exact hsound.2
  · rw [Settings.ofEnvironment_of_not_sound hsound]
    rfl

/-- Settings that a command sees are valid. -/
theorem validate_of_settingsWith {s : Settings} (h : args.settingsWith parse env files = .ok s) :
    s.validate = .ok () := by
  cases hconfig : args.config with
  | none =>
      rw [settingsWith_without_file hconfig] at h
      cases h
      rw [validate_overrides, validate_ofEnvironment]
  | some path =>
      rcases Settings.usable_or_unusable parse path (files path) with
        ⟨file, hfile⟩ | ⟨e, hfile⟩
      · cases hfault : env.fault? with
        | some e =>
            rw [settingsWith_of_fault hconfig hfile hfault] at h
            cases h
        | none =>
            rw [settingsWith_of_readable hconfig hfile hfault] at h
            generalize Overrides.applyTo _ Settings.standard = chosen at h
            cases hvalid : chosen.validate with
            | error e =>
                rw [hvalid] at h
                cases h
            | ok _ =>
                rw [hvalid] at h
                cases h
                exact hvalid
      · rw [settingsWith_of_unusable hconfig hfile] at h
        cases h

/-- **The first source that names a setting decides it.**  The settings that a command
sees are valid, and where there are none no command is planned.  With a settings file,
a file that cannot be used is the fault whatever the environment holds, then a number in
the environment that cannot be read, then settings that are not valid put together;
otherwise the flags come before the environment, the file and the standard values.
Without a file nothing fails: overrides that do for the standard settings count all
together, and otherwise only the flags do.  None of this depends on how the text of a
file is read. -/
theorem first_source_decides (parse : String → Option Toml.Entries) (args : Arguments)
    (env : Environment) (files : Files) :
    (∀ s, args.settingsWith parse env files = .ok s →
      s.validate = .ok () ∧ args.planWith parse env files = args.command.plan s files) ∧
    (∀ e, args.settingsWith parse env files = .error e →
      ∀ command, { args with command := command }.planWith parse env files = .error e) ∧
    (∀ path, args.config = some path →
      ((∃ file, Settings.Usable parse (files path) file) ∨
        ∃ e, Settings.Unusable parse path (files path) e) ∧
      (∀ e, Settings.Unusable parse path (files path) e →
        args.settingsWith parse env files = .error e) ∧
      ∀ file, Settings.Usable parse (files path) file →
        (∀ e, env.fault? = some e → args.settingsWith parse env files = .error e) ∧
        (env.fault? = none →
          let chosen := ((args.overrides.or (Overrides.ofEnvironment env)).or file).applyTo
            Settings.standard
          args.settingsWith parse env files = chosen.validate.map fun _ => chosen)) ∧
    (args.config = none →
      (env.Sound → args.settingsWith parse env files =
        .ok ((args.overrides.or (Overrides.ofEnvironment env)).applyTo Settings.standard)) ∧
      (¬ env.Sound →
        args.settingsWith parse env files = .ok (args.overrides.applyTo Settings.standard))) := by
  refine ⟨?_, ?_, ?_, ?_⟩
  · intro s hs
    refine ⟨validate_of_settingsWith hs, ?_⟩
    rw [planWith, hs]
    rfl
  · intro e he command
    have hsame : { args with command := command }.settingsWith parse env files = .error e := he
    rw [planWith, hsame]
    rfl
  · intro path hpath
    refine ⟨Settings.usable_or_unusable parse path (files path),
      fun e hfile => settingsWith_of_unusable hpath hfile, fun file hfile => ⟨?_, ?_⟩⟩
    · intro e hfault
      exact settingsWith_of_fault hpath hfile hfault
    · intro hfault
      exact settingsWith_of_readable hpath hfile hfault
  · intro hconfig
    constructor
    · intro hsound
      rw [settingsWith_without_file hconfig, Settings.ofEnvironment_of_sound hsound,
        Overrides.applyTo_or]
    · intro hsound
      rw [settingsWith_without_file hconfig, Settings.ofEnvironment_of_not_sound hsound]

/-- A word other than the three in the environment overrides a true in the file. -/
theorem first_source_decides_over_a_file :
    let args : Arguments := ⟨some "courier.toml", some "localhost:1", false, false, .version⟩
    let env : Environment := fun name =>
      if name = "APDU_HOST_BLOCKS" then some (Utf8.encode "on")
      else if name = "APDU_HOST_CHUNK_SIZE" then some (Utf8.encode "64") else none
    let files : Files := fun _ =>
      .ok (Utf8.encode "use_block_protocol = true\nmax_rounds = 8\n")
    args.settings env files =
      .ok { address := "localhost:1", chunkSize := 64, maxRounds := 8, useBlocks := false } := by
  intro args env files
  have htext : Utf8.decode (Utf8.encode "use_block_protocol = true\nmax_rounds = 8\n") =
      .ok "use_block_protocol = true\nmax_rounds = 8\n" := by decide +kernel
  have hdocument : Settings.ofDocument Toml.Document.parse
      "use_block_protocol = true\nmax_rounds = 8\n" =
        some { maxRounds := 8, useBlocks := true } := by decide +kernel
  obtain ⟨es, hparse, hentries⟩ := Option.bind_eq_some_iff.mp hdocument
  obtain ⟨htyped, hfile⟩ := Settings.ofEntries_eq_some_iff.mp hentries
  have hvalid : ((Overrides.ofEntries es).applyTo Settings.standard).validate = .ok () := by
    rw [← hfile]
    rfl
  have hfault : env.fault? = none := by decide +kernel
  obtain ⟨_, _, hwithFile, _⟩ := first_source_decides Toml.Document.parse args env files
  obtain ⟨_, _, husable⟩ := hwithFile "courier.toml" rfl
  have hsettings := (husable _ (.read htext hparse htyped hvalid)).2 hfault
  have hchosen : (args.overrides.or (Overrides.ofEnvironment env)).applyTo
      { maxRounds := 8, useBlocks := true } =
        { address := "localhost:1", chunkSize := 64, maxRounds := 8 } := by decide +kernel
  rw [Overrides.applyTo_or, ← hfile, hchosen] at hsettings
  exact hsettings

end Arguments
end Courier
