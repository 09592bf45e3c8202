import Mathlib
import PenRail.Proofs.Config.Readings
import PenRail.Proofs.Toml.DistinctKeys

/-!
# Which configuration files are accepted

`Acceptable` is the rule for documents: every section is one of the two and a table, every key of it is one of the four
that the section has, and the value there is of its kind and in its range. A file whose text is a document gives settings
exactly if the document is acceptable. The settings are then read key by key, and they do not depend on the order in
which sections and keys were written.

Sections may also be lists; the rule is about documents in which neither section is one.
-/

namespace PenRail.Config

open Toml (Value Entries keysOf lookup_of_mem mem_of_lookup)

/-! ## The rule -/

/-- What the value at a key has to be. -/
inductive Kind
  | path
  | address
  | natural
  | flag

def Kind.Holds : Kind → Value → Prop
  | .path, .string _ => True
  | .address, .integer i => 0 ≤ i.toInt ∧ i.toInt ≤ 65535
  | .natural, .integer i => 0 ≤ i.toInt
  | .flag, .boolean _ => True
  | _, _ => False

def digitizerKinds : List (String × Kind) :=
  [("bus", .path), ("address", .address), ("irq_gpio", .natural), ("poll_interval_ms", .natural)]

def regulatorKinds : List (String × Kind) :=
  [("bus", .path), ("address", .address), ("pgood_gpio", .natural), ("pgood_active_low", .flag)]

def sectionKinds : List (String × List (String × Kind)) :=
  [("digitizer", digitizerKinds), ("regulator", regulatorKinds)]

/-- Every entry has a known key and a value of its kind. -/
def Fits (kinds : List (String × Kind)) (entries : Entries) : Prop :=
  ∀ key v, (key, v) ∈ entries → ∃ kind, kinds.lookup key = some kind ∧ kind.Holds v

def Acceptable (document : Entries) : Prop :=
  ∀ name v, (name, v) ∈ document →
    ∃ kinds entries, sectionKinds.lookup name = some kinds ∧ v = .table entries ∧ Fits kinds entries

/-- Neither section is written as a list. -/
def NoListSection (document : Entries) : Prop :=
  ∀ items, ("digitizer", .array items) ∉ document ∧ ("regulator", .array items) ∉ document

theorem Kind.holds_path_iff {v : Value} : Kind.path.Holds v ↔ ∃ path, MeansPath v path := by
  cases v <;> simp [Kind.Holds, MeansPath]

theorem Kind.holds_flag_iff {v : Value} : Kind.flag.Holds v ↔ ∃ b, MeansFlag v b := by
  cases v <;> simp [Kind.Holds, MeansFlag]

theorem Kind.holds_natural_iff {v : Value} : Kind.natural.Holds v ↔ ∃ n, MeansNatural v n := by
  constructor
  · intro h
    cases v with
    | integer i =>
      have hi : 0 ≤ i := by
        rw [Int64.le_iff_toInt_le]
        simpa [Kind.Holds] using h
      exact ⟨i.toUInt64, i, rfl, (toNat_toUInt64 hi).symm⟩
    | _ => exact h.elim
  · rintro ⟨n, i, rfl, hi⟩
    simp only [Kind.Holds]
    omega

theorem Kind.holds_line_iff {v : Value} : Kind.natural.Holds v ↔ ∃ line, MeansLine v line := by
  rw [Kind.holds_natural_iff]
  constructor
  · rintro ⟨n, hn⟩
    exact ⟨some n, n, rfl, hn⟩
  · rintro ⟨line, n, -, hn⟩
    exact ⟨n, hn⟩

theorem Kind.holds_address_iff {v : Value} : Kind.address.Holds v ↔ ∃ a, MeansAddress v a := by
  constructor
  · intro h
    cases v with
    | integer i =>
      obtain ⟨hlow, hhigh⟩ := h
      have hsize : i.toInt.toNat < UInt16.size := by
        simp only [UInt16.size]
        omega
      refine ⟨UInt16.ofNat i.toInt.toNat, i, rfl, ?_⟩
      rw [UInt16.toNat_ofNat_of_lt' hsize]
      omega
    | _ => exact h.elim
  · rintro ⟨a, i, rfl, hi⟩
    have hlt : a.toNat < 65536 := a.toNat_lt
    simp only [Kind.Holds]
    omega

/-! ## Sections -/

theorem onlyKeys_iff {keys : List String} {entries : Entries} :
    onlyKeys keys entries = true ↔ ∀ key v, (key, v) ∈ entries → key ∈ keys := by
  unfold onlyKeys
  simp only [List.all_eq_true, List.contains_iff_mem, Prod.forall]

/-- There is something to settle on exactly if what is written means something. -/
theorem exists_settled_iff {α : Type} {means : Value → α → Prop} {default : α} {written : Option Value} :
    (∃ a, Settled means default written a) ↔ ∀ v, written = some v → ∃ a, means v a := by
  cases written with
  | none => exact ⟨fun _ => nofun, fun _ => ⟨default, rfl⟩⟩
  | some v =>
    constructor
    · rintro h v' hv
      cases hv
      exact h
    · intro h
      exact h v rfl

theorem exists_setting_iff {α : Type} {read : Value → Option α} {entries : Entries} {key : String} {default : α} :
    (∃ a, setting entries key read default = some a) ↔ ∀ v, entries.lookup key = some v → ∃ a, read v = some a := by
  have hsettled : ∀ a, setting entries key read default = some a ↔
      Settled (fun v a => read v = some a) default (entries.lookup key) a :=
    fun _ => setting_eq_some_iff Iff.rfl
  simp only [hsettled, exists_settled_iff]

variable {entries : Entries} {kinds : List (String × Kind)} {key : String} {kind : Kind} {v : Value}

theorem Fits.holds (h : Fits kinds entries) (hkind : kinds.lookup key = some kind) (hv : entries.lookup key = some v) :
    kind.Holds v := by
  obtain ⟨kind', hkind', hholds⟩ := h key v (mem_of_lookup hv)
  rw [hkind] at hkind'
  cases hkind'
  exact hholds

/-- A setting whose value, if there is one, is of the right kind can be settled. -/
theorem Fits.settled {α : Type} {means : Value → α → Prop} (h : Fits kinds entries) (key : String)
    (hkind : kinds.lookup key = some kind) (hmeans : ∀ {v}, kind.Holds v ↔ ∃ a, means v a) (default : α) :
    ∃ a, Settled means default (entries.lookup key) a := by
  rw [exists_settled_iff]
  intro v hv
  exact hmeans.mp (h.holds hkind hv)

theorem Fits.onlyKeys {keys : List String} (h : Fits kinds entries)
    (hkeys : ∀ key kind, kinds.lookup key = some kind → key ∈ keys) : onlyKeys keys entries = true := by
  rw [onlyKeys_iff]
  intro key v hmem
  obtain ⟨kind, hkind, -⟩ := h key v hmem
  exact hkeys key kind hkind

theorem Settled.means {α : Type} {means : Value → α → Prop} {default a : α} {written : Option Value}
    (h : Settled means default written a) (hv : written = some v) : means v a := by
  subst hv
  exact h

theorem DigitizerSettings.exists_ofTable_iff (hd : (keysOf entries).Nodup) :
    (∃ s, ofTable entries = some s) ↔ Fits digitizerKinds entries := by
  constructor
  · rintro ⟨s, hs⟩ key v hmem
    obtain ⟨honly, hread⟩ := ofTable_eq_some_iff.mp hs
    have hkey : key ∈ keys := onlyKeys_iff.mp honly key v hmem
    have hv : entries.lookup key = some v := lookup_of_mem hd hmem
    simp only [keys, List.mem_cons, List.not_mem_nil, or_false] at hkey
    rcases hkey with rfl | rfl | rfl | rfl
    · exact ⟨.path, rfl, Kind.holds_path_iff.mpr ⟨_, hread.bus.means hv⟩⟩
    · exact ⟨.address, rfl, Kind.holds_address_iff.mpr ⟨_, hread.address.means hv⟩⟩
    · exact ⟨.natural, rfl, Kind.holds_line_iff.mpr ⟨_, hread.irqLine.means hv⟩⟩
    · exact ⟨.natural, rfl, Kind.holds_natural_iff.mpr ⟨_, hread.pollInterval.means hv⟩⟩
  · intro h
    obtain ⟨bus, hbus⟩ := h.settled "bus" rfl Kind.holds_path_iff "/dev/i2c-1"
    obtain ⟨address, haddress⟩ := h.settled "address" rfl Kind.holds_address_iff 9
    obtain ⟨irqLine, hirqLine⟩ := h.settled "irq_gpio" rfl Kind.holds_line_iff none
    obtain ⟨pollInterval, hpollInterval⟩ := h.settled "poll_interval_ms" rfl Kind.holds_natural_iff 5
    refine ⟨⟨bus, address, irqLine, pollInterval⟩, ofTable_eq_some_iff.mpr ⟨h.onlyKeys ?_, ?_⟩⟩
    · intro key kind hkind
      have hmem := Toml.mem_keysOf (mem_of_lookup hkind)
      simpa [digitizerKinds, keys] using hmem
    · exact ⟨hbus, haddress, hirqLine, hpollInterval⟩

theorem RegulatorSettings.exists_ofTable_iff (hd : (keysOf entries).Nodup) :
    (∃ s, ofTable entries = some s) ↔ Fits regulatorKinds entries := by
  constructor
  · rintro ⟨s, hs⟩ key v hmem
    obtain ⟨honly, hread⟩ := ofTable_eq_some_iff.mp hs
    have hkey : key ∈ keys := onlyKeys_iff.mp honly key v hmem
    have hv : entries.lookup key = some v := lookup_of_mem hd hmem
    simp only [keys, List.mem_cons, List.not_mem_nil, or_false] at hkey
    rcases hkey with rfl | rfl | rfl | rfl
    · exact ⟨.path, rfl, Kind.holds_path_iff.mpr ⟨_, hread.bus.means hv⟩⟩
    · exact ⟨.address, rfl, Kind.holds_address_iff.mpr ⟨_, hread.address.means hv⟩⟩
    · exact ⟨.natural, rfl, Kind.holds_line_iff.mpr ⟨_, hread.powerGoodLine.means hv⟩⟩
    · exact ⟨.flag, rfl, Kind.holds_flag_iff.mpr ⟨_, hread.powerGoodActiveLow.means hv⟩⟩
  · intro h
    obtain ⟨bus, hbus⟩ := h.settled "bus" rfl Kind.holds_path_iff "/dev/i2c-3"
    obtain ⟨address, haddress⟩ := h.settled "address" rfl Kind.holds_address_iff 98
    obtain ⟨line, hline⟩ := h.settled "pgood_gpio" rfl Kind.holds_line_iff none
    obtain ⟨activeLow, hactiveLow⟩ := h.settled "pgood_active_low" rfl Kind.holds_flag_iff false
    refine ⟨⟨bus, address, line, activeLow⟩, ofTable_eq_some_iff.mpr ⟨h.onlyKeys ?_, ?_⟩⟩
    · intro key kind hkind
      have hmem := Toml.mem_keysOf (mem_of_lookup hkind)
      simpa [regulatorKinds, keys] using hmem
    · exact ⟨hbus, haddress, hline, hactiveLow⟩

/-- A section that is no list has to be a table. -/
theorem DigitizerSettings.exists_ofValue_iff (hw : v.WellKeyed) (hlist : ∀ items, v ≠ .array items) :
    (∃ s, ofValue v = some s) ↔ ∃ entries, v = .table entries ∧ Fits digitizerKinds entries := by
  cases v with
  | table entries =>
    rw [ofValue, exists_ofTable_iff hw.entries.distinct]
    simp
  | array items => exact absurd rfl (hlist items)
  | _ => simp [ofValue]

theorem RegulatorSettings.exists_ofValue_iff (hw : v.WellKeyed) (hlist : ∀ items, v ≠ .array items) :
    (∃ s, ofValue v = some s) ↔ ∃ entries, v = .table entries ∧ Fits regulatorKinds entries := by
  cases v with
  | table entries =>
    rw [ofValue, exists_ofTable_iff hw.entries.distinct]
    simp
  | array items => exact absurd rfl (hlist items)
  | _ => simp [ofValue]

/-! ## Documents -/

/-- A section can be settled exactly if it is absent or a table that fits. -/
theorem exists_section_iff {α : Type} {read : Value → Option α} {document : Entries} {name : String}
    (hw : Entries.WellKeyed document) (hlist : ∀ items, (name, .array items) ∉ document)
    (hread : ∀ {v}, v.WellKeyed → (∀ items, v ≠ .array items) →
      ((∃ s, read v = some s) ↔ ∃ entries, v = .table entries ∧ Fits kinds entries)) (default : α) :
    (∃ s, setting document name read default = some s) ↔
      ∀ v, (name, v) ∈ document → ∃ entries, v = .table entries ∧ Fits kinds entries := by
  have hv : ∀ v, (name, v) ∈ document →
      ((∃ s, read v = some s) ↔ ∃ entries, v = .table entries ∧ Fits kinds entries) := by
    intro v hmem
    refine hread (hw.all _ hmem) ?_
    rintro items rfl
    exact hlist items hmem
  rw [exists_setting_iff]
  constructor
  · intro h v hmem
    exact (hv v hmem).mp (h v (lookup_of_mem hw.distinct hmem))
  · intro h v hlookup
    have hmem := mem_of_lookup hlookup
    exact (hv v hmem).mpr (h v hmem)

theorem Acceptable.section {document : Entries} (h : Acceptable document) {name : String}
    (hkinds : sectionKinds.lookup name = some kinds) :
    ∀ v, (name, v) ∈ document → ∃ entries, v = .table entries ∧ Fits kinds entries := by
  intro v hmem
  obtain ⟨kinds', entries, hkinds', hentries, hfits⟩ := h name v hmem
  rw [hkinds] at hkinds'
  cases hkinds'
  exact ⟨entries, hentries, hfits⟩

theorem Settings.exists_ofDocument_iff {document : Entries} (hw : Entries.WellKeyed document)
    (hlists : NoListSection document) : (∃ s, ofDocument document = some s) ↔ Acceptable document := by
  have hdigitizer := exists_section_iff hw (fun items => (hlists items).1) DigitizerSettings.exists_ofValue_iff {}
  have hregulator := exists_section_iff hw (fun items => (hlists items).2) RegulatorSettings.exists_ofValue_iff {}
  constructor
  · rintro ⟨s, hs⟩ name v hmem
    obtain ⟨honly, hd, hr⟩ := ofDocument_eq_some_iff.mp hs
    have hname := onlyKeys_iff.mp honly name v hmem
    simp only [List.mem_cons, List.not_mem_nil, or_false] at hname
    rcases hname with rfl | rfl
    · obtain ⟨entries, hentries, hfits⟩ := hdigitizer.mp ⟨_, hd⟩ v hmem
      exact ⟨digitizerKinds, entries, rfl, hentries, hfits⟩
    · obtain ⟨entries, hentries, hfits⟩ := hregulator.mp ⟨_, hr⟩ v hmem
      exact ⟨regulatorKinds, entries, rfl, hentries, hfits⟩
  · intro h
    have honly : onlyKeys ["digitizer", "regulator"] document = true := by
      rw [onlyKeys_iff]
      intro name v hmem
      obtain ⟨kinds, -, hkinds, -⟩ := h name v hmem
      have hname := Toml.mem_keysOf (mem_of_lookup hkinds)
      simpa [sectionKinds] using hname
    obtain ⟨digitizer, hd⟩ := hdigitizer.mpr (h.section rfl)
    obtain ⟨regulator, hr⟩ := hregulator.mpr (h.section rfl)
    exact ⟨⟨digitizer, regulator⟩, ofDocument_eq_some_iff.mpr ⟨honly, hd, hr⟩⟩

/-! ## The order in which a file is written -/

/-- The same value, or a section with its keys in another order. -/
inductive SameSection : Value → Value → Prop
  | same (v : Value) : SameSection v v
  | reordered {entries entries' : Entries} (h : entries.Perm entries') : SameSection (.table entries) (.table entries')

theorem SameSection.trans {v v' v'' : Value} (h : SameSection v v') (h' : SameSection v' v'') : SameSection v v'' := by
  cases h with
  | same => exact h'
  | reordered hp =>
    cases h' with
    | same => exact .reordered hp
    | reordered hp' => exact .reordered (hp.trans hp')

/-- The same document with its sections, and the keys of each section, in another order. -/
inductive Reordered : Entries → Entries → Prop
  | nil : Reordered [] []
  | cons (name : String) {v v' : Value} {document document' : Entries} (hv : SameSection v v')
      (h : Reordered document document') : Reordered ((name, v) :: document) ((name, v') :: document')
  | swap (e e' : String × Value) (document : Entries) : Reordered (e :: e' :: document) (e' :: e :: document)
  | trans {document document' document'' : Entries} (h : Reordered document document')
      (h' : Reordered document' document'') : Reordered document document''

theorem Reordered.keysOf {document document' : Entries} (h : Reordered document document') :
    (keysOf document).Perm (keysOf document') := by
  induction h with
  | nil => exact .nil
  | cons name _ _ ih => exact ih.cons name
  | swap e e' document => exact (List.Perm.swap e'.1 e.1 (Toml.keysOf document))
  | trans _ _ ih ih' => exact ih.trans ih'

theorem sameFound_refl (found : Option Value) : Option.Rel SameSection found found := by
  cases found with
  | none => exact .none
  | some v => exact .some (.same v)

theorem sameFound_trans {found found' found'' : Option Value} (h : Option.Rel SameSection found found')
    (h' : Option.Rel SameSection found' found'') : Option.Rel SameSection found found'' := by
  cases h with
  | none => exact h'
  | some hv =>
    cases h' with
    | some hv' => exact .some (hv.trans hv')

/-- A section is found in both orders or in neither, and it is the same. -/
theorem Reordered.lookup {document document' : Entries} (h : Reordered document document')
    (hd : (Toml.keysOf document).Nodup) (name : String) :
    Option.Rel SameSection (document.lookup name) (document'.lookup name) := by
  induction h with
  | nil => exact sameFound_refl _
  | cons key hv _ ih =>
    rw [Toml.keysOf_cons, List.nodup_cons] at hd
    rw [List.lookup_cons, List.lookup_cons]
    cases name == key with
    | true => exact .some hv
    | false => exact ih hd.2
  | swap e e' document =>
    rw [Toml.lookup_perm hd (List.Perm.swap e' e document)]
    exact sameFound_refl _
  | trans h h' ih ih' =>
    have hd' := h.keysOf.nodup_iff.mp hd
    exact sameFound_trans (ih hd) (ih' hd')

theorem onlyKeys_perm {entries entries' : Entries} (h : (keysOf entries).Perm (keysOf entries'))
    (keys : List String) : onlyKeys keys entries' = onlyKeys keys entries := by
  have heq : ∀ entries : Entries, onlyKeys keys entries = (keysOf entries).all fun key => keys.contains key := by
    intro entries
    simp [onlyKeys, Toml.keysOf, Function.comp_def]
  rw [heq, heq, h.all_eq]

theorem setting_perm {α : Type} {entries entries' : Entries} (hd : (keysOf entries).Nodup)
    (h : entries.Perm entries') (key : String) (read : Value → Option α) (default : α) :
    setting entries' key read default = setting entries key read default := by
  unfold setting
  rw [Toml.lookup_perm hd h]

theorem DigitizerSettings.ofValue_reordered {v v' : Value} (hw : v.WellKeyed) (h : SameSection v v') :
    ofValue v' = ofValue v := by
  cases h with
  | same => rfl
  | reordered hp =>
    have hd := hw.entries.distinct
    simp only [ofValue, ofTable, onlyKeys_perm (hp.map Prod.fst), setting_perm hd hp]

theorem RegulatorSettings.ofValue_reordered {v v' : Value} (hw : v.WellKeyed) (h : SameSection v v') :
    ofValue v' = ofValue v := by
  cases h with
  | same => rfl
  | reordered hp =>
    have hd := hw.entries.distinct
    simp only [ofValue, ofTable, onlyKeys_perm (hp.map Prod.fst), setting_perm hd hp]

theorem Reordered.setting {α : Type} {document document' : Entries} (h : Reordered document document')
    (hw : Entries.WellKeyed document) {read : Value → Option α}
    (hread : ∀ {v v'}, v.WellKeyed → SameSection v v' → read v' = read v) (name : String) (default : α) :
    setting document' name read default = setting document name read default := by
  have hfound := h.lookup hw.distinct name
  unfold Config.setting
  cases hv : document.lookup name with
  | none =>
    rw [hv] at hfound
    cases hv' : document'.lookup name with
    | none => rfl
    | some v' =>
      rw [hv'] at hfound
      cases hfound
  | some v =>
    rw [hv] at hfound
    cases hv' : document'.lookup name with
    | none =>
      rw [hv'] at hfound
      cases hfound
    | some v' =>
      rw [hv'] at hfound
      cases hfound with
      | some hsame => exact hread (hw.all _ (mem_of_lookup hv)) hsame

theorem Settings.ofDocument_reordered {document document' : Entries} (hw : Entries.WellKeyed document)
    (h : Reordered document document') : ofDocument document' = ofDocument document := by
  simp only [ofDocument, onlyKeys_perm h.keysOf, h.setting hw DigitizerSettings.ofValue_reordered,
    h.setting hw RegulatorSettings.ofValue_reordered]

/-! ## Files -/

theorem Settings.ofText_of_parse {text : String} {document : Entries} (h : Toml.parse text = some document) :
    ofText text = ofDocument document := by
  unfold ofText
  rw [h]
  rfl

/-- A file that reads as a document is accepted exactly if the document is acceptable. Its settings are then read from
it key by key, and a file that says the same in another order is as good. -/
theorem Settings.ofText_iff_acceptable {text : String} {document : Entries} (hparse : Toml.parse text = some document)
    (hlists : NoListSection document) :
    ((∃ s, ofText text = some s) ↔ Acceptable document) ∧
      (∀ s, ofText text = some s → s.ReadFrom document) ∧
      ∀ text' document', Toml.parse text' = some document' → Reordered document document' →
        ofText text' = ofText text := by
  have hw := Toml.wellKeyed_of_parse hparse
  have htext := ofText_of_parse hparse
  refine ⟨?_, ?_, ?_⟩
  · rw [htext]
    exact exists_ofDocument_iff hw hlists
  · intro s hs
    rw [htext] at hs
    exact readFrom_of_ofDocument hs
  · intro text' document' hparse' horder
    rw [ofText_of_parse hparse', htext]
    exact ofDocument_reordered hw horder

def bothSections : String :=
  "[digitizer]\naddress = 11\n\n[regulator]\npgood_gpio = 8\npgood_active_low = true\n"

def bothSectionsBackwards : String :=
  "regulator = \x7b pgood_active_low = true, pgood_gpio = 8 \x7d\ndigitizer.address = 11\n"

def bothSectionsDocument : Entries :=
  [("digitizer", .table [("address", .integer 11)]),
    ("regulator", .table [("pgood_gpio", .integer 8), ("pgood_active_low", .boolean true)])]

/-- A file with both sections, and the same with everything the other way round. -/
theorem Settings.ofText_iff_acceptable_bothSections :
    ofText bothSections = some ⟨⟨"/dev/i2c-1", 11, none, 5⟩, ⟨"/dev/i2c-3", 98, some 8, true⟩⟩ ∧
      Acceptable bothSectionsDocument ∧ ofText bothSectionsBackwards = ofText bothSections := by
  have hparse : Toml.parse bothSections = some bothSectionsDocument := by cbv
  have hparse' : Toml.parse bothSectionsBackwards =
      some [("regulator", .table [("pgood_active_low", .boolean true), ("pgood_gpio", .integer 8)]),
        ("digitizer", .table [("address", .integer 11)])] := by
    cbv
  have hsettings : ofText bothSections = some ⟨⟨"/dev/i2c-1", 11, none, 5⟩, ⟨"/dev/i2c-3", 98, some 8, true⟩⟩ := by
    rw [ofText_of_parse hparse]
    rfl
  have hlists : NoListSection bothSectionsDocument := by
    intro items
    simp [bothSectionsDocument]
  obtain ⟨haccepted, -, horder⟩ := ofText_iff_acceptable hparse hlists
  refine ⟨hsettings, haccepted.mp ⟨_, hsettings⟩, horder _ _ hparse' ?_⟩
  exact .trans (.swap _ _ _) (.cons _ (.reordered (.swap _ _ _)) (.cons _ (.same _) .nil))

/-- A key that no section has. -/
example : Settings.ofText "[digitizer]\norientation = \"portrait\"\n" = none := by cbv

end PenRail.Config
