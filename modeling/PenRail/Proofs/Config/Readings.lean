import PenRail.Config.Sections

/-!
# What a configuration says

`MeansPath` and its siblings say what a value of a document stands for as a setting, without the functions that read it.
`ReadFrom` is what is asked of settings that were read: setting by setting, what is written at the key, or the default
where nothing is. Everything that `Settings.ofDocument` gives is read in this way, from tables and from lists.
-/

namespace PenRail.Config

open Toml (Value Entries)

/-! ## What a value means -/

def MeansPath (v : Value) (path : String) : Prop :=
  v = .string path

def MeansFlag (v : Value) (b : Bool) : Prop :=
  v = .boolean b

def MeansNatural (v : Value) (n : UInt64) : Prop :=
  ∃ i : Int64, v = .integer i ∧ i.toInt = n.toNat

def MeansAddress (v : Value) (a : UInt16) : Prop :=
  ∃ i : Int64, v = .integer i ∧ i.toInt = a.toNat

def MeansLine (v : Value) (line : Option UInt64) : Prop :=
  ∃ n, line = some n ∧ MeansNatural v n

theorem path?_eq_some_iff {v : Value} {path : String} : path? v = some path ↔ MeansPath v path := by
  cases v <;> simp [path?, MeansPath]

theorem flag?_eq_some_iff {v : Value} {b : Bool} : flag? v = some b ↔ MeansFlag v b := by
  cases v <;> simp [flag?, MeansFlag]

/-- An integer that is not negative keeps its value as a number without sign. -/
theorem toNat_toUInt64 {i : Int64} (h : 0 ≤ i) : (i.toUInt64.toNat : Int) = i.toInt := by
  have hle : (0 : Int) ≤ i.toInt := by simpa using Int64.le_iff_toInt_le.mp h
  rw [Int64.toNat_toUInt64_of_le h, ← Int64.toNat_toInt]
  omega

theorem natural?_eq_some_iff {v : Value} {n : UInt64} : natural? v = some n ↔ MeansNatural v n := by
  constructor
  · intro h
    unfold natural? at h
    split at h
    · next i =>
      by_cases hi : 0 ≤ i
      · rw [if_pos hi] at h
        cases h
        exact ⟨i, rfl, (toNat_toUInt64 hi).symm⟩
      · rw [if_neg hi] at h
        cases h
    · cases h
  · rintro ⟨i, rfl, hn⟩
    have hi : 0 ≤ i := by
      rw [Int64.le_iff_toInt_le]
      simp only [Int64.toInt_zero]
      omega
    have hto := toNat_toUInt64 hi
    have heq : i.toUInt64 = n := by
      apply UInt64.toNat_inj.mp
      omega
    simp only [natural?, if_pos hi, heq]

theorem address?_eq_some_iff {v : Value} {a : UInt16} : address? v = some a ↔ MeansAddress v a := by
  constructor
  · intro h
    obtain ⟨n, hn, hif⟩ := Option.bind_eq_some_iff.mp h
    obtain ⟨i, rfl, hi⟩ := natural?_eq_some_iff.mp hn
    by_cases hsize : n.toNat < UInt16.size
    · rw [if_pos hsize] at hif
      cases hif
      refine ⟨i, rfl, ?_⟩
      rw [hi, UInt64.toNat_toUInt16, Nat.mod_eq_of_lt hsize]
    · rw [if_neg hsize] at hif
      cases hif
  · rintro ⟨i, rfl, hi⟩
    have hn : natural? (.integer i) = some a.toUInt64 :=
      natural?_eq_some_iff.mpr ⟨i, rfl, by rw [hi, UInt16.toNat_toUInt64]⟩
    have hsize : a.toNat < UInt16.size := a.toNat_lt
    simp [address?, hn, hsize]

theorem line?_eq_some_iff {v : Value} {line : Option UInt64} :
    (some <$> natural? v : Option (Option UInt64)) = some line ↔ MeansLine v line := by
  constructor
  · intro h
    obtain ⟨n, hn, rfl⟩ := Option.map_eq_some_iff.mp h
    exact ⟨n, rfl, natural?_eq_some_iff.mp hn⟩
  · rintro ⟨n, rfl, hn⟩
    rw [natural?_eq_some_iff.mpr hn]
    rfl

/-! ## Settings of a section -/

/-- What a setting is, by what is written at its key: the value's meaning, or the default where nothing is written. -/
def Settled {α : Type} (means : Value → α → Prop) (default : α) (written : Option Value) (a : α) : Prop :=
  match written with
  | some v => means v a
  | none => a = default

theorem setting_eq_some_iff {α : Type} {read : Value → Option α} {means : Value → α → Prop}
    (hread : ∀ {v a}, read v = some a ↔ means v a) {entries : Entries} {key : String} {default a : α} :
    setting entries key read default = some a ↔ Settled means default (entries.lookup key) a := by
  unfold setting Settled
  cases entries.lookup key with
  | none => exact ⟨fun h => (Option.some.inj h).symm, fun h => congrArg some h.symm⟩
  | some v => exact hread

/-- The digitizer's settings, read from what is written at each key. -/
structure DigitizerSettings.ReadFrom (written : String → Option Value) (s : DigitizerSettings) : Prop where
  bus : Settled MeansPath "/dev/i2c-1" (written "bus") s.bus
  address : Settled MeansAddress 9 (written "address") s.address
  irqLine : Settled MeansLine none (written "irq_gpio") s.irqLine
  pollInterval : Settled MeansNatural 5 (written "poll_interval_ms") s.pollInterval

/-- The regulator's settings, read from what is written at each key. -/
structure RegulatorSettings.ReadFrom (written : String → Option Value) (s : RegulatorSettings) : Prop where
  bus : Settled MeansPath "/dev/i2c-3" (written "bus") s.bus
  address : Settled MeansAddress 98 (written "address") s.address
  powerGoodLine : Settled MeansLine none (written "pgood_gpio") s.powerGoodLine
  powerGoodActiveLow : Settled MeansFlag false (written "pgood_active_low") s.powerGoodActiveLow

/-- What is written at a key of a section: in a list the keys go by position. -/
def writtenIn (keys : List String) : Option Value → String → Option Value
  | some (.table entries), key => entries.lookup key
  | some (.array items), key => (keys.zip items).lookup key
  | _, _ => none

/-- Settings read from a whole document. -/
structure Settings.ReadFrom (document : Entries) (s : Settings) : Prop where
  digitizer : s.digitizer.ReadFrom (writtenIn DigitizerSettings.keys (document.lookup "digitizer"))
  regulator : s.regulator.ReadFrom (writtenIn RegulatorSettings.keys (document.lookup "regulator"))

theorem guard_bind_eq_some_iff {α : Type} {c : Bool} {next : Option α} {a : α} :
    (do guard c; next) = some a ↔ c = true ∧ next = some a := by
  cases c with
  | false => exact ⟨nofun, nofun⟩
  | true => exact ⟨fun h => ⟨rfl, h⟩, fun h => h.2⟩

/-- In a section that is absent every setting has the default that it has where only its key is. -/
theorem DigitizerSettings.readFrom_default : DigitizerSettings.ReadFrom (fun _ => none) {} :=
  ⟨rfl, rfl, rfl, rfl⟩

theorem RegulatorSettings.readFrom_default : RegulatorSettings.ReadFrom (fun _ => none) {} :=
  ⟨rfl, rfl, rfl, rfl⟩

theorem DigitizerSettings.ofTable_eq_some_iff {entries : Entries} {s : DigitizerSettings} :
    ofTable entries = some s ↔ onlyKeys keys entries = true ∧ s.ReadFrom fun key => entries.lookup key := by
  unfold ofTable
  rw [guard_bind_eq_some_iff]
  refine and_congr_right fun _ => ?_
  constructor
  · intro h
    obtain ⟨bus, hbus, h⟩ := Option.bind_eq_some_iff.mp h
    obtain ⟨address, haddress, h⟩ := Option.bind_eq_some_iff.mp h
    obtain ⟨irqLine, hirqLine, h⟩ := Option.bind_eq_some_iff.mp h
    obtain ⟨pollInterval, hpollInterval, h⟩ := Option.bind_eq_some_iff.mp h
    cases h
    exact ⟨(setting_eq_some_iff path?_eq_some_iff).mp hbus, (setting_eq_some_iff address?_eq_some_iff).mp haddress,
      (setting_eq_some_iff line?_eq_some_iff).mp hirqLine,
      (setting_eq_some_iff natural?_eq_some_iff).mp hpollInterval⟩
  · intro h
    have hbus := (setting_eq_some_iff path?_eq_some_iff).mpr h.bus
    have haddress := (setting_eq_some_iff address?_eq_some_iff).mpr h.address
    have hirqLine := (setting_eq_some_iff line?_eq_some_iff).mpr h.irqLine
    have hpollInterval := (setting_eq_some_iff natural?_eq_some_iff).mpr h.pollInterval
    refine Option.bind_eq_some_iff.mpr ⟨_, hbus, Option.bind_eq_some_iff.mpr ⟨_, haddress, ?_⟩⟩
    exact Option.bind_eq_some_iff.mpr ⟨_, hirqLine, Option.bind_eq_some_iff.mpr ⟨_, hpollInterval, rfl⟩⟩

theorem RegulatorSettings.ofTable_eq_some_iff {entries : Entries} {s : RegulatorSettings} :
    ofTable entries = some s ↔ onlyKeys keys entries = true ∧ s.ReadFrom fun key => entries.lookup key := by
  unfold ofTable
  rw [guard_bind_eq_some_iff]
  refine and_congr_right fun _ => ?_
  constructor
  · intro h
    obtain ⟨bus, hbus, h⟩ := Option.bind_eq_some_iff.mp h
    obtain ⟨address, haddress, h⟩ := Option.bind_eq_some_iff.mp h
    obtain ⟨line, hline, h⟩ := Option.bind_eq_some_iff.mp h
    obtain ⟨activeLow, hactiveLow, h⟩ := Option.bind_eq_some_iff.mp h
    cases h
    exact ⟨(setting_eq_some_iff path?_eq_some_iff).mp hbus, (setting_eq_some_iff address?_eq_some_iff).mp haddress,
      (setting_eq_some_iff line?_eq_some_iff).mp hline, (setting_eq_some_iff flag?_eq_some_iff).mp hactiveLow⟩
  · intro h
    have hbus := (setting_eq_some_iff path?_eq_some_iff).mpr h.bus
    have haddress := (setting_eq_some_iff address?_eq_some_iff).mpr h.address
    have hline := (setting_eq_some_iff line?_eq_some_iff).mpr h.powerGoodLine
    have hactiveLow := (setting_eq_some_iff flag?_eq_some_iff).mpr h.powerGoodActiveLow
    refine Option.bind_eq_some_iff.mpr ⟨_, hbus, Option.bind_eq_some_iff.mpr ⟨_, haddress, ?_⟩⟩
    exact Option.bind_eq_some_iff.mpr ⟨_, hline, Option.bind_eq_some_iff.mpr ⟨_, hactiveLow, rfl⟩⟩

/-! ## Sections that are lists -/

theorem DigitizerSettings.readFrom_of_ofList {items : List Value} {s : DigitizerSettings} (h : ofList items = some s) :
    s.ReadFrom fun key => (keys.zip items).lookup key := by
  unfold ofList at h
  split at h
  · next bus address line rest =>
    obtain ⟨b, hb, h⟩ := Option.bind_eq_some_iff.mp h
    obtain ⟨a, ha, h⟩ := Option.bind_eq_some_iff.mp h
    obtain ⟨l, hl, h⟩ := Option.bind_eq_some_iff.mp h
    have hbus := path?_eq_some_iff.mp hb
    have haddress := address?_eq_some_iff.mp ha
    have hline : MeansLine line (some l) := ⟨l, rfl, natural?_eq_some_iff.mp hl⟩
    -- the last setting is the one that a list may leave out
    cases rest with
    | nil =>
      cases h
      exact ⟨hbus, haddress, hline, rfl⟩
    | cons v more =>
      obtain ⟨interval, hlast, h⟩ := Option.bind_eq_some_iff.mp h
      cases h
      exact ⟨hbus, haddress, hline, natural?_eq_some_iff.mp hlast⟩
  · cases h

theorem RegulatorSettings.readFrom_of_ofList {items : List Value} {s : RegulatorSettings} (h : ofList items = some s) :
    s.ReadFrom fun key => (keys.zip items).lookup key := by
  unfold ofList at h
  split at h
  · next bus address line rest =>
    obtain ⟨b, hb, h⟩ := Option.bind_eq_some_iff.mp h
    obtain ⟨a, ha, h⟩ := Option.bind_eq_some_iff.mp h
    obtain ⟨l, hl, h⟩ := Option.bind_eq_some_iff.mp h
    have hbus := path?_eq_some_iff.mp hb
    have haddress := address?_eq_some_iff.mp ha
    have hline : MeansLine line (some l) := ⟨l, rfl, natural?_eq_some_iff.mp hl⟩
    -- the last setting is the one that a list may leave out
    cases rest with
    | nil =>
      cases h
      exact ⟨hbus, haddress, hline, rfl⟩
    | cons v more =>
      obtain ⟨low, hlast, h⟩ := Option.bind_eq_some_iff.mp h
      cases h
      exact ⟨hbus, haddress, hline, flag?_eq_some_iff.mp hlast⟩
  · cases h

/-! ## Sections and documents -/

theorem DigitizerSettings.readFrom_of_ofValue {v : Value} {s : DigitizerSettings} (h : ofValue v = some s) :
    s.ReadFrom (writtenIn keys (some v)) := by
  unfold ofValue at h
  split at h
  · exact (ofTable_eq_some_iff.mp h).2
  · exact readFrom_of_ofList h
  · cases h

theorem RegulatorSettings.readFrom_of_ofValue {v : Value} {s : RegulatorSettings} (h : ofValue v = some s) :
    s.ReadFrom (writtenIn keys (some v)) := by
  unfold ofValue at h
  split at h
  · exact (ofTable_eq_some_iff.mp h).2
  · exact readFrom_of_ofList h
  · cases h

theorem Settings.ofDocument_eq_some_iff {document : Entries} {s : Settings} :
    ofDocument document = some s ↔ onlyKeys ["digitizer", "regulator"] document = true ∧
      setting document "digitizer" DigitizerSettings.ofValue {} = some s.digitizer ∧
      setting document "regulator" RegulatorSettings.ofValue {} = some s.regulator := by
  unfold ofDocument
  rw [guard_bind_eq_some_iff]
  refine and_congr_right fun _ => ?_
  constructor
  · intro h
    obtain ⟨digitizer, hdigitizer, h⟩ := Option.bind_eq_some_iff.mp h
    obtain ⟨regulator, hregulator, h⟩ := Option.bind_eq_some_iff.mp h
    cases h
    exact ⟨hdigitizer, hregulator⟩
  · rintro ⟨hdigitizer, hregulator⟩
    simp [hdigitizer, hregulator]

/-- What holds of the default where nothing is written, and of whatever is read, holds of a setting. -/
theorem of_setting_eq_some {α : Type} {read : Value → Option α} {P : Option Value → α → Prop} {default : α}
    (hdefault : P none default) (hread : ∀ {v a}, read v = some a → P (some v) a) {entries : Entries}
    {key : String} {a : α} (h : setting entries key read default = some a) : P (entries.lookup key) a := by
  unfold setting at h
  cases hv : entries.lookup key with
  | none =>
    rw [hv] at h
    cases h
    exact hdefault
  | some v =>
    rw [hv] at h
    exact hread h

/-- Settings that a document gives are read from it. -/
theorem Settings.readFrom_of_ofDocument {document : Entries} {s : Settings} (h : ofDocument document = some s) :
    s.ReadFrom document := by
  obtain ⟨-, hdigitizer, hregulator⟩ := ofDocument_eq_some_iff.mp h
  constructor
  · exact of_setting_eq_some (P := fun found s => s.ReadFrom (writtenIn DigitizerSettings.keys found))
      DigitizerSettings.readFrom_default DigitizerSettings.readFrom_of_ofValue hdigitizer
  · exact of_setting_eq_some (P := fun found s => s.ReadFrom (writtenIn RegulatorSettings.keys found))
      RegulatorSettings.readFrom_default RegulatorSettings.readFrom_of_ofValue hregulator

end PenRail.Config
