import PenRail.Toml.Document

/-!
# The keys of one table differ

`WellKeyed` says of a value that in every table of it the keys differ. It holds of every document that `parse` reads:
a statement adds to the tree only where a key is free, or replaces what its key already stands for, and a table in
braces is grown in the same way. So a lookup in a document that was read finds the one entry of its key.
-/

namespace PenRail.Toml

/-- The keys of entries, in the order in which they stand. -/
def keysOf {α : Type} (entries : List (String × α)) : List String :=
  entries.map Prod.fst

@[simp] theorem keysOf_nil {α : Type} : keysOf ([] : List (String × α)) = [] := rfl

@[simp] theorem keysOf_cons {α : Type} (e : String × α) (entries : List (String × α)) :
    keysOf (e :: entries) = e.1 :: keysOf entries := rfl

theorem mem_keysOf {α : Type} {entries : List (String × α)} {key : String} {a : α} (h : (key, a) ∈ entries) :
    key ∈ keysOf entries :=
  List.mem_map_of_mem h

/-! ## Lookups -/

theorem mem_of_lookup {α : Type} {entries : List (String × α)} {key : String} {a : α}
    (h : entries.lookup key = some a) : (key, a) ∈ entries := by
  obtain ⟨before, after, rfl, -⟩ := List.lookup_eq_some_iff.mp h
  simp

/-- Where the keys differ, a lookup finds what is in the list. -/
theorem lookup_of_mem {α : Type} {entries : List (String × α)} (hd : (keysOf entries).Nodup) {key : String} {a : α}
    (h : (key, a) ∈ entries) : entries.lookup key = some a := by
  induction entries with
  | nil => cases h
  | cons e rest ih =>
    obtain ⟨k, b⟩ := e
    rw [keysOf_cons, List.nodup_cons] at hd
    rcases List.mem_cons.mp h with heq | hrest
    · cases heq
      simp
    · have hk : key ≠ k := by
        intro hk
        subst hk
        exact hd.1 (mem_keysOf hrest)
      have hne : (key == k) = false := by simpa using hk
      rw [List.lookup_cons, hne]
      exact ih hd.2 hrest

theorem lookup_eq_some_iff_mem {α : Type} {entries : List (String × α)} (hd : (keysOf entries).Nodup) {key : String}
    {a : α} : entries.lookup key = some a ↔ (key, a) ∈ entries :=
  ⟨mem_of_lookup, lookup_of_mem hd⟩

/-- The order of entries with different keys does not matter to a lookup. -/
theorem lookup_perm {α : Type} {entries entries' : List (String × α)} (hd : (keysOf entries).Nodup)
    (hp : entries.Perm entries') (key : String) : entries'.lookup key = entries.lookup key := by
  have hd' : (keysOf entries').Nodup := (hp.map Prod.fst).nodup_iff.mp hd
  apply Option.ext
  intro a
  rw [lookup_eq_some_iff_mem hd, lookup_eq_some_iff_mem hd', hp.mem_iff]

/-! ## Values and trees -/

/-- In every table of a value the keys differ. -/
inductive Value.WellKeyed : Value → Prop
  | string (s : String) : WellKeyed (.string s)
  | integer (i : Int64) : WellKeyed (.integer i)
  | float (literal : String) : WellKeyed (.float literal)
  | boolean (b : Bool) : WellKeyed (.boolean b)
  | dateTime (literal : String) : WellKeyed (.dateTime literal)
  | array {items : List Value} (all : ∀ v ∈ items, v.WellKeyed) : WellKeyed (.array items)
  | table {entries : Entries} (distinct : (keysOf entries).Nodup) (all : ∀ e ∈ entries, e.2.WellKeyed) :
      WellKeyed (.table entries)

/-- The same of a whole document. -/
structure Entries.WellKeyed (entries : Entries) : Prop where
  distinct : (keysOf entries).Nodup
  all : ∀ e ∈ entries, e.2.WellKeyed

theorem Value.WellKeyed.entries {entries : Entries} (h : (Value.table entries).WellKeyed) :
    Entries.WellKeyed entries := by
  cases h with
  | table distinct all => exact ⟨distinct, all⟩

/-- The same of a document while it grows. -/
inductive Node.WellKeyed : Node → Prop
  | value {v : Value} (h : v.WellKeyed) : WellKeyed (.value v)
  | table (origin : Origin) {entries : Nodes} (distinct : (keysOf entries).Nodup)
      (all : ∀ e ∈ entries, e.2.WellKeyed) : WellKeyed (.table origin entries)
  | tables {all : List Nodes} (distinct : ∀ entries ∈ all, (keysOf entries).Nodup)
      (each : ∀ entries ∈ all, ∀ e ∈ entries, e.2.WellKeyed) : WellKeyed (.tables all)

namespace Nodes

/-- The same of the entries of one table while it grows. -/
structure WellKeyed (nodes : Nodes) : Prop where
  distinct : (keysOf nodes).Nodup
  all : ∀ e ∈ nodes, e.2.WellKeyed

theorem wellKeyed_nil : WellKeyed [] :=
  ⟨List.nodup_nil, by simp⟩

theorem wellKeyed_single {key : String} {node : Node} (h : node.WellKeyed) : WellKeyed [(key, node)] :=
  ⟨by simp, by simpa using h⟩

end Nodes

theorem Node.wellKeyed_table_iff {origin : Origin} {entries : Nodes} :
    (Node.table origin entries).WellKeyed ↔ entries.WellKeyed := by
  constructor
  · intro h
    cases h with
    | table _ distinct all => exact ⟨distinct, all⟩
  · intro h
    exact .table origin h.distinct h.all

theorem Node.wellKeyed_tables_iff {all : List Nodes} :
    (Node.tables all).WellKeyed ↔ ∀ entries ∈ all, entries.WellKeyed := by
  constructor
  · intro h entries hmem
    cases h with
    | tables distinct each => exact ⟨distinct entries hmem, each entries hmem⟩
  · intro h
    exact .tables (fun entries hmem => (h entries hmem).distinct) fun entries hmem => (h entries hmem).all

/-! ## What a grown tree reads as -/

theorem entriesToValues_eq_map (entries : Nodes) :
    entriesToValues entries = entries.map fun e => (e.1, e.2.toValue) := by
  induction entries with
  | nil => rfl
  | cons e rest ih => simp [entriesToValues, ih]

theorem tablesToValues_eq_map (all : List Nodes) :
    tablesToValues all = all.map fun entries => .table (entriesToValues entries) := by
  induction all with
  | nil => rfl
  | cons entries rest ih => simp [tablesToValues, ih]

@[simp] theorem keysOf_entriesToValues (entries : Nodes) : keysOf (entriesToValues entries) = keysOf entries := by
  rw [entriesToValues_eq_map, keysOf, keysOf, List.map_map]
  rfl

theorem Node.WellKeyed.toValue {node : Node} (h : node.WellKeyed) : node.toValue.WellKeyed := by
  -- on how the node was seen to be well-keyed: `ih` is there for each node below
  induction h with
  | value h => exact h
  | @table origin entries distinct _ ih =>
    rw [Node.toValue]
    refine .table (by simpa using distinct) ?_
    intro e he
    rw [entriesToValues_eq_map] at he
    obtain ⟨node, hnode, rfl⟩ := List.mem_map.mp he
    exact ih node hnode
  | @tables all distinct _ ih =>
    rw [Node.toValue, tablesToValues_eq_map]
    refine .array ?_
    intro v hv
    obtain ⟨entries, hentries, rfl⟩ := List.mem_map.mp hv
    refine .table (by simpa using distinct entries hentries) ?_
    intro e he
    rw [entriesToValues_eq_map] at he
    obtain ⟨node, hnode, rfl⟩ := List.mem_map.mp he
    exact ih entries hentries node hnode

theorem Nodes.WellKeyed.toValues {nodes : Nodes} (h : nodes.WellKeyed) :
    Entries.WellKeyed (entriesToValues nodes) := by
  have htable : (Node.table .header nodes).WellKeyed := Node.wellKeyed_table_iff.mpr h
  have hvalue := htable.toValue
  rw [Node.toValue] at hvalue
  exact hvalue.entries

/-! ## What a statement does to the tree -/

namespace Nodes

theorem WellKeyed.of_lookup {nodes : Nodes} (h : nodes.WellKeyed) {key : String} {node : Node}
    (hl : nodes.lookup key = some node) : node.WellKeyed :=
  h.all _ (mem_of_lookup hl)

theorem mem_keysOf_set {nodes : Nodes} {key k : String} {node : Node} (h : k ∈ keysOf (set nodes key node)) :
    k = key ∨ k ∈ keysOf nodes := by
  induction nodes with
  | nil => simpa [set] using h
  | cons e rest ih =>
    obtain ⟨k', old⟩ := e
    rw [set] at h
    by_cases hk : k' = key
    · rw [if_pos hk] at h
      exact .inr h
    · rw [if_neg hk, keysOf_cons, List.mem_cons] at h
      rcases h with h | h
      · exact .inr (by simp [h])
      · rcases ih h with h | h
        · exact .inl h
        · exact .inr (by simp [h])

theorem WellKeyed.set {nodes : Nodes} (h : nodes.WellKeyed) (key : String) {node : Node} (hn : node.WellKeyed) :
    (set nodes key node).WellKeyed := by
  induction nodes with
  | nil => exact wellKeyed_single hn
  | cons e rest ih =>
    obtain ⟨k, old⟩ := e
    obtain ⟨hdistinct, hall⟩ := h
    rw [keysOf_cons, List.nodup_cons] at hdistinct
    have hrest : ∀ e ∈ rest, e.2.WellKeyed := fun e he => hall e (List.mem_cons_of_mem _ he)
    rw [Nodes.set]
    by_cases hk : k = key
    · rw [if_pos hk]
      refine ⟨List.nodup_cons.mpr hdistinct, ?_⟩
      intro e he
      rcases List.mem_cons.mp he with rfl | he
      · exact hn
      · exact hrest e he
    · rw [if_neg hk]
      have hset := ih ⟨hdistinct.2, hrest⟩
      refine ⟨List.nodup_cons.mpr ⟨?_, hset.distinct⟩, ?_⟩
      · intro hmem
        rcases mem_keysOf_set hmem with heq | hmem
        · exact hk heq
        · exact hdistinct.1 hmem
      · intro e he
        rcases List.mem_cons.mp he with rfl | he
        · exact hall _ List.mem_cons_self
        · exact hset.all e he

/-- What a change keeps of well-keyed tables. -/
def Keeps (change : Nodes → Option Nodes) : Prop :=
  ∀ nodes nodes', nodes.WellKeyed → change nodes = some nodes' → nodes'.WellKeyed

theorem wellKeyed_changeLast {change : Nodes → Option Nodes} (hc : Keeps change) {all all' : List Nodes}
    (h : ∀ nodes ∈ all, nodes.WellKeyed) (hall : changeLast change all = some all') :
    ∀ nodes ∈ all', nodes.WellKeyed := by
  induction all generalizing all' with
  | nil => cases hall
  | cons first rest ih =>
    cases rest with
    | nil =>
      obtain ⟨changed, hchanged, rfl⟩ := Option.map_eq_some_iff.mp hall
      have hw : Nodes.WellKeyed changed := hc first changed (h first (by simp)) hchanged
      simpa using hw
    | cons second rest =>
      obtain ⟨more, hmore, rfl⟩ := Option.map_eq_some_iff.mp hall
      have hrest := ih (fun nodes hmem => h nodes (List.mem_cons_of_mem _ hmem)) hmore
      intro nodes hmem
      rcases List.mem_cons.mp hmem with rfl | hmem
      · exact h _ (by simp)
      · exact hrest nodes hmem

theorem keeps_underHeader (path : List String) {change : Nodes → Option Nodes} (hc : Keeps change) :
    Keeps (underHeader path change) := by
  induction path with
  | nil => exact hc
  | cons key rest ih =>
    intro nodes nodes' h heq
    rw [underHeader] at heq
    split at heq
    · obtain ⟨below, hbelow, heq⟩ := Option.bind_eq_some_iff.mp heq
      cases heq
      exact h.set key (Node.wellKeyed_table_iff.mpr (ih [] below wellKeyed_nil hbelow))
    · cases heq
    · next origin below hl =>
      obtain ⟨below', hbelow, heq⟩ := Option.bind_eq_some_iff.mp heq
      cases heq
      have hw : Nodes.WellKeyed below := Node.wellKeyed_table_iff.mp (h.of_lookup hl)
      exact h.set key (Node.wellKeyed_table_iff.mpr (ih below below' hw hbelow))
    · next all hl =>
      obtain ⟨all', hall, heq⟩ := Option.bind_eq_some_iff.mp heq
      cases heq
      have hw := Node.wellKeyed_tables_iff.mp (h.of_lookup hl)
      exact h.set key (Node.wellKeyed_tables_iff.mpr (wellKeyed_changeLast ih hw hall))

theorem keeps_add (key : String) {v : Value} (hv : v.WellKeyed) : Keeps (add key v) := by
  intro nodes nodes' h heq
  rw [add] at heq
  split at heq
  · cases heq
    exact h.set key (.value hv)
  · cases heq

theorem keeps_addDotted (path : List String) (key : String) {v : Value} (hv : v.WellKeyed) :
    Keeps fun nodes => addDotted nodes path key v := by
  induction path with
  | nil => exact keeps_add key hv
  | cons step rest ih =>
    intro nodes nodes' h heq
    -- the table that takes the entry is the last one of the path, and has a rule of its own
    cases rest with
    | nil =>
      simp only [addDotted] at heq
      split at heq
      · cases heq
        exact h.set step (Node.wellKeyed_table_iff.mpr (wellKeyed_single (.value hv)))
      · next below hl =>
        obtain ⟨below', hbelow, heq⟩ := Option.bind_eq_some_iff.mp heq
        cases heq
        have hw : Nodes.WellKeyed below := Node.wellKeyed_table_iff.mp (h.of_lookup hl)
        exact h.set step (Node.wellKeyed_table_iff.mpr (keeps_add key hv below below' hw hbelow))
      · cases heq
    | cons next rest =>
      simp only [addDotted] at heq
      split at heq
      · obtain ⟨below, hbelow, heq⟩ := Option.bind_eq_some_iff.mp heq
        cases heq
        exact h.set step (Node.wellKeyed_table_iff.mpr (ih [] below wellKeyed_nil hbelow))
      · next origin below hl =>
        split at heq
        · cases heq
        · obtain ⟨below', hbelow, heq⟩ := Option.bind_eq_some_iff.mp heq
          cases heq
          have hw : Nodes.WellKeyed below := Node.wellKeyed_table_iff.mp (h.of_lookup hl)
          exact h.set step (Node.wellKeyed_table_iff.mpr (ih below below' hw hbelow))
      · next all hl =>
        obtain ⟨all', hall, heq⟩ := Option.bind_eq_some_iff.mp heq
        cases heq
        have hw := Node.wellKeyed_tables_iff.mp (h.of_lookup hl)
        exact h.set step (Node.wellKeyed_tables_iff.mpr (wellKeyed_changeLast ih hw hall))
      · cases heq

theorem keeps_openTable (key : String) : Keeps (openTable key) := by
  intro nodes nodes' h heq
  rw [openTable] at heq
  split at heq
  · cases heq
    exact h.set key (Node.wellKeyed_table_iff.mpr wellKeyed_nil)
  · next below hl =>
    cases heq
    have hw : Nodes.WellKeyed below := Node.wellKeyed_table_iff.mp (h.of_lookup hl)
    exact h.set key (Node.wellKeyed_table_iff.mpr hw)
  · cases heq

theorem keeps_openNext (key : String) : Keeps (openNext key) := by
  intro nodes nodes' h heq
  rw [openNext] at heq
  split at heq
  · cases heq
    refine h.set key (Node.wellKeyed_tables_iff.mpr ?_)
    simpa using wellKeyed_nil
  · next all hl =>
    cases heq
    have hw := Node.wellKeyed_tables_iff.mp (h.of_lookup hl)
    refine h.set key (Node.wellKeyed_tables_iff.mpr ?_)
    intro entries hmem
    rcases List.mem_append.mp hmem with hmem | hmem
    · exact hw entries hmem
    · rw [List.mem_singleton.mp hmem]
      exact wellKeyed_nil
  · cases heq

end Nodes

theorem keeps_addEntry (path : List String) {v : Value} (hv : v.WellKeyed) :
    Nodes.Keeps fun nodes => addEntry nodes path v := by
  intro nodes nodes' h heq
  simp only [addEntry] at heq
  obtain ⟨⟨steps, key⟩, -, heq⟩ := Option.bind_eq_some_iff.mp heq
  exact Nodes.keeps_addDotted steps key hv nodes nodes' h heq

/-- What is read into a statement is well-keyed. -/
def Statement.WellKeyed : Statement → Prop
  | .header _ => True
  | .nextHeader _ => True
  | .entry _ v => v.WellKeyed

theorem Growth.wellKeyed_next {g g' : Growth} {s : Statement} (hs : s.WellKeyed) (h : g.root.WellKeyed)
    (heq : g.next s = some g') : g'.root.WellKeyed := by
  cases s with
  | header path =>
    simp only [Growth.next] at heq
    obtain ⟨⟨steps, key⟩, -, heq⟩ := Option.bind_eq_some_iff.mp heq
    obtain ⟨root, hroot, heq⟩ := Option.bind_eq_some_iff.mp heq
    cases heq
    exact Nodes.keeps_underHeader steps (Nodes.keeps_openTable key) _ _ h hroot
  | nextHeader path =>
    simp only [Growth.next] at heq
    obtain ⟨⟨steps, key⟩, -, heq⟩ := Option.bind_eq_some_iff.mp heq
    obtain ⟨root, hroot, heq⟩ := Option.bind_eq_some_iff.mp heq
    cases heq
    exact Nodes.keeps_underHeader steps (Nodes.keeps_openNext key) _ _ h hroot
  | entry path v =>
    simp only [Growth.next] at heq
    obtain ⟨root, hroot, heq⟩ := Option.bind_eq_some_iff.mp heq
    cases heq
    exact Nodes.keeps_underHeader g.current (keeps_addEntry path hs) _ _ h hroot

/-- A step that keeps something of the state keeps it over a whole list, as long as it goes through. -/
theorem foldlM_keeps {σ α : Type} {step : σ → α → Option σ} {P : σ → Prop} {Q : α → Prop}
    (hstep : ∀ s a s', P s → Q a → step s a = some s' → P s') {all : List α} (hall : ∀ a ∈ all, Q a) {s s' : σ}
    (hs : P s) (heq : all.foldlM step s = some s') : P s' := by
  induction all generalizing s with
  | nil =>
    cases heq
    exact hs
  | cons a rest ih =>
    rw [List.foldlM_cons] at heq
    obtain ⟨middle, hmiddle, heq⟩ := Option.bind_eq_some_iff.mp heq
    have hm : P middle := hstep s a middle hs (hall a List.mem_cons_self) hmiddle
    exact ih (fun b hb => hall b (List.mem_cons_of_mem _ hb)) hm heq

/-! ## What the readers read -/

namespace Reader

variable {α β : Type} {P : α → Prop} {Q : β → Prop}

/-- Whatever a reader reads is so. -/
def Yields (P : α → Prop) (r : Reader α) : Prop :=
  ∀ text a rest, r.run text = some (a, rest) → P a

theorem Yields.pure {a : α} (h : P a) : Yields P (pure a : Reader α) := by
  intro text b rest heq
  cases heq
  exact h

theorem Yields.failure : Yields P (failure : Reader α) := by
  intro text b rest heq
  cases heq

theorem Yields.bind {r : Reader α} {next : α → Reader β} (hr : Yields P r) (hn : ∀ a, P a → Yields Q (next a)) :
    Yields Q (r >>= next) := by
  intro text b rest heq
  rw [StateT.run_bind] at heq
  obtain ⟨⟨a, middle⟩, ha, hb⟩ := Option.bind_eq_some_iff.mp heq
  exact hn a (hr text a middle ha) middle b rest hb

/-- Where it does not matter what is read first. -/
theorem Yields.after {r : Reader α} {next : α → Reader β} (hn : ∀ a, Yields Q (next a)) : Yields Q (r >>= next) :=
  Yields.bind (P := fun _ => True) (fun _ _ _ _ => trivial) fun a _ => hn a

theorem Yields.map {r : Reader α} {f : α → β} (h : Yields (fun a => Q (f a)) r) : Yields Q (f <$> r) := by
  intro text b rest heq
  rw [StateT.run_map] at heq
  obtain ⟨⟨a, middle⟩, ha, hb⟩ := Option.map_eq_some_iff.mp heq
  cases hb
  exact h text a _ ha

theorem Yields.orElse {r r' : Reader α} (h : Yields P r) (h' : Yields P r') : Yields P (r <|> r') := by
  intro text a rest heq
  have hrun : (r <|> r').run text = (r.run text).or (r'.run text) := by
    cases hr : r.run text with
    | none => exact (congrArg (fun found => Option.orElse found fun _ => r'.run text) hr).trans (by simp)
    | some found => exact (congrArg (fun found => Option.orElse found fun _ => r'.run text) hr).trans (by simp)
  rw [hrun, Option.or_eq_some_iff] at heq
  rcases heq with hr | ⟨-, hr⟩
  · exact h text a rest hr
  · exact h' text a rest hr

theorem Yields.optional {r : Reader α} (h : Yields P r) : Yields (fun found => ∀ a ∈ found, P a) (optional r) := by
  refine Yields.orElse (Yields.map ?_) (Yields.pure ?_)
  · intro text a rest heq b hb
    cases hb
    exact h text a rest heq
  · intro a ha
    cases ha

/-- On the rounds of the repetition: what one round takes is so, and what the rounds after it take. -/
theorem all_manyFrom {r : Reader α} (h : Yields P r) (text : List Char) : ∀ a ∈ (manyFrom r text).1, P a := by
  fun_induction manyFrom r text with
  | case1 text _ => simp
  | case2 text a rest hr _ more rest' hmore ih =>
    intro b hb
    rcases List.mem_cons.mp hb with rfl | hb
    · exact h text b rest hr
    · rw [hmore] at ih
      exact ih b hb
  | case3 text a rest _ _ => simp

theorem Yields.many {r : Reader α} (h : Yields P r) : Yields (fun all => ∀ a ∈ all, P a) (many r) := by
  intro text all rest heq
  have hall : manyFrom r text = (all, rest) := Option.some.inj heq
  have hmany := all_manyFrom h text
  rwa [hall] at hmany

theorem Yields.separated1 {r : Reader α} {separator : Reader β} (h : Yields P r) :
    Yields (fun all => ∀ a ∈ all, P a) (separated1 r separator) := by
  refine Yields.bind h fun a ha => Yields.bind (Yields.many (Yields.after fun _ => h)) fun more hmore => Yields.pure ?_
  intro b hb
  rcases List.mem_cons.mp hb with rfl | hb
  · exact ha
  · exact hmore b hb

end Reader

open Reader

theorem yields_accept {α β : Type} {P : α → Prop} {Q : β → Prop} {f : α → Option β} {r : Reader α} (hr : Yields P r)
    (hf : ∀ a b, P a → f a = some b → Q b) : Yields Q (accept f r) := by
  refine Yields.bind hr fun a ha => ?_
  cases hb : f a with
  | none => exact Yields.failure
  | some b => exact Yields.pure (hf a b ha hb)

theorem yields_entry {value : Reader Value} (h : Yields Value.WellKeyed value) :
    Yields (fun e => e.2.WellKeyed) (entry value) :=
  Yields.after fun _ => Yields.after fun _ => Yields.after fun _ => Yields.bind h fun _ hv => Yields.pure hv

theorem yields_items {value : Reader Value} (h : Yields Value.WellKeyed value) :
    Yields (fun all => ∀ v ∈ all, Value.WellKeyed v) (items value) := by
  have hitem : Yields Value.WellKeyed (do gap; let v ← value; gap; pure v) :=
    Yields.after fun _ => Yields.bind h fun _ hv => Yields.after fun _ => Yields.pure hv
  refine Yields.after fun _ => Yields.bind (P := fun found => ∀ all ∈ found, ∀ v ∈ all, Value.WellKeyed v) ?_ ?_
  · exact Yields.optional (Yields.bind (Yields.separated1 hitem) fun all hall => Yields.after fun _ => Yields.pure hall)
  · intro found hfound
    refine Yields.after fun _ => Yields.after fun _ => Yields.pure ?_
    cases found with
    | none => simp
    | some all => exact hfound all rfl

/-- A table in braces is grown as a document is. -/
theorem wellKeyed_tableOf {entries : List (List String × Value)} (h : ∀ e ∈ entries, e.2.WellKeyed) {v : Value}
    (heq : tableOf entries = some v) : v.WellKeyed := by
  obtain ⟨nodes, hnodes, heq⟩ := Option.bind_eq_some_iff.mp heq
  cases heq
  have hw : Nodes.WellKeyed nodes := by
    refine foldlM_keeps (Q := fun e : List String × Value => e.2.WellKeyed) ?_ h Nodes.wellKeyed_nil hnodes
    intro nodes e nodes' hn he hstep
    exact keeps_addEntry e.1 he nodes nodes' hn hstep
  have hv := hw.toValues
  exact .table hv.distinct hv.all

theorem yields_braced {value : Reader Value} (h : Yields Value.WellKeyed value) :
    Yields Value.WellKeyed (braced value) := by
  have hentry : Yields (fun e => e.2.WellKeyed) (do let e ← entry value; blanks; pure e) :=
    Yields.bind (yields_entry h) fun _ he => Yields.after fun _ => Yields.pure he
  refine Yields.after fun _ => Yields.bind (Yields.optional (Yields.separated1 hentry)) fun found hfound =>
    Yields.after fun _ => Yields.bind ?_ fun v hv => Yields.after fun _ => Yields.pure hv
  refine yields_accept (P := fun all => ∀ e ∈ all, e.2.WellKeyed) (Yields.pure ?_) fun _ _ h heq =>
    wellKeyed_tableOf h heq
  cases found with
  | none => simp
  | some all => exact hfound all rfl

theorem yields_scalar : Yields Value.WellKeyed value.scalar := by
  refine Yields.orElse (Yields.map ?_) (Yields.orElse (Yields.map ?_) (Yields.orElse (Yields.map ?_)
    (Yields.orElse (Yields.map ?_) (Yields.map ?_))))
  · intro _ s _ _
    exact .string s
  · intro _ b _ _
    exact .boolean b
  · intro _ literal _ _
    exact .dateTime literal
  · intro _ literal _ _
    exact .float literal
  · intro _ i _ _
    exact .integer i

theorem yields_value (depth : Nat) : Yields Value.WellKeyed (value depth) := by
  induction depth with
  | zero => exact yields_scalar
  | succ depth ih =>
    refine Yields.orElse yields_scalar (Yields.orElse (Yields.map ?_) (yields_braced ih))
    intro text all rest heq
    exact .array (yields_items ih text all rest heq)

/-- Only an entry has a value, and its value is read by `value`. -/
theorem yields_statements : Yields (fun all => ∀ s ∈ all, Statement.WellKeyed s) statements := by
  have hheader : Yields Statement.WellKeyed headerLine :=
    Yields.after fun _ => Yields.after fun _ => Yields.after fun _ => Yields.after fun _ => Yields.pure trivial
  have hnext : Yields Statement.WellKeyed nextHeaderLine :=
    Yields.after fun _ => Yields.after fun _ => Yields.after fun _ => Yields.after fun _ => Yields.pure trivial
  have hentry : Yields Statement.WellKeyed entryLine :=
    Yields.bind (yields_entry (yields_value _)) fun _ he => Yields.after fun _ => Yields.pure he
  have hline : Yields (fun line => ∀ s ∈ line, Statement.WellKeyed s)
      ((do emptyLine; pure none) <|> some <$> (nextHeaderLine <|> headerLine <|> entryLine)) := by
    refine Yields.orElse (Yields.after fun _ => Yields.pure (by simp)) (Yields.map ?_)
    intro text s rest heq s' hs'
    cases hs'
    exact Yields.orElse hnext (Yields.orElse hheader hentry) text s rest heq
  refine Yields.after fun _ => Yields.after fun _ => Yields.bind (Yields.many (Yields.bind hline fun _ h =>
    Yields.after fun _ => Yields.pure h)) fun lines hlines => Yields.after fun _ => Yields.pure ?_
  intro s hs
  obtain ⟨line, hline, hs⟩ := List.mem_filterMap.mp hs
  exact hlines line hline s hs

/-- In every table of a document that was read the keys differ. -/
theorem wellKeyed_of_parse {text : String} {document : Entries} (h : parse text = some document) :
    Entries.WellKeyed document := by
  obtain ⟨⟨all, rest⟩, hall, h⟩ := Option.bind_eq_some_iff.mp h
  obtain ⟨grown, hgrown, h⟩ := Option.bind_eq_some_iff.mp h
  cases h
  have hw : Nodes.WellKeyed grown.root := by
    refine foldlM_keeps (P := fun g : Growth => g.root.WellKeyed) ?_ (yields_statements text.toList all rest hall)
      Nodes.wellKeyed_nil hgrown
    intro g s g' hg hs hstep
    exact Growth.wellKeyed_next hs hg hstep
  exact hw.toValues

end PenRail.Toml
