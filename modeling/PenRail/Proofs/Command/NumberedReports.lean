import PenRail.Proofs.Command.ForwardLoop
import PenRail.Proofs.Command.ReportLines
import PenRail.Proofs.Places

/-!
# Reports are numbered as they come

The command that prints reports looks for one again and again. A report that could be fetched is printed with its number, and
one that could not leaves no trace but in the log. `Tally` lists what can be added to such a run, exchange by exchange: a report
is always followed by its line, and once as many are out as were asked for nothing is added any more. A round keeps to that
(`Dump.ends_round`), so any number of rounds does, and all that can be said of the lines is read off a tally.
`dump_counts_reports` says it of the whole program.
-/

namespace PenRail

open Config (DigitizerSettings)
open Pen (Sample)
open Program (ends_bind ends_done)

namespace Host

/-- The line that was printed. -/
def line? (x : Exchange interface) : Option String :=
  match x.request with
  | .print line => some line
  | _ => none

/-- Fetches a report, or tries to. -/
def Request.isFetch : Request → Bool
  | .transfer _ ⟨_, .read _⟩ => true
  | _ => false

theorem Request.not_isPreparation {q : Request} (hq : q.isFetch = true) : q.isPreparation = false := by
  unfold isFetch at hq
  split at hq
  · rfl
  · cases hq

@[simp] theorem report?_print (line : String) (u : Unit) : report? ⟨.print line, u⟩ = none := rfl

@[simp] theorem line?_print (line : String) (u : Unit) : line? ⟨.print line, u⟩ = some line := rfl

section
variable {x : Exchange interface}

theorem isFetch_of_report? {raw : Bytes} (hx : report? x = some raw) : x.request.isFetch = true := by
  unfold report? at hx
  split at hx
  · rfl
  · cases hx

theorem line?_of_isFetch (hx : x.request.isFetch = true) : line? x = none := by
  unfold line?
  split
  · next hprint =>
    rw [hprint] at hx
    cases hx
  · rfl

theorem report?_of_isPreparation (hx : x.request.isPreparation = true) : report? x = none := by
  unfold report?
  split
  · exact absurd hx Bool.false_ne_true
  · rfl

theorem line?_of_isPreparation (hx : x.request.isPreparation = true) : line? x = none := by
  unfold line?
  split
  · next hprint =>
    rw [hprint] at hx
    cases hx
  · rfl

end

end Host

namespace Command

/-! ## Lines and samples -/

/-- Lines for samples, numbered from one. -/
def Numbered (samples : List Sample) (lines : List String) : Prop :=
  List.Forall₂ (fun (sample, number) line => Depicts number sample line) (samples.zipIdx 1) lines

namespace Numbered

variable {samples samples' : List Sample} {lines : List String}

theorem length_eq (hn : Numbered samples lines) : lines.length = samples.length := by
  rw [← List.Forall₂.length_eq hn, List.length_zipIdx]

theorem concat (hn : Numbered samples lines) {sample : Sample} {line : String}
    (hline : Depicts (samples.length + 1) sample line) : Numbered (samples ++ [sample]) (lines ++ [line]) := by
  rw [Nat.add_comm] at hline
  rw [Numbered, List.zipIdx_append]
  exact List.rel_append hn (.cons hline .nil)

/-- The lines tell the samples. -/
theorem samples_eq (hn : Numbered samples lines) (hn' : Numbered samples' lines) : samples = samples' := by
  have hunique : Relator.LeftUnique fun (numbered : Sample × Nat) line => Depicts numbered.2 numbered.1 line := by
    intro numbered line numbered' h h'
    obtain ⟨hnumber, hsample⟩ := h.determines h'
    exact Prod.ext hsample hnumber
  have hzip : samples.zipIdx 1 = samples'.zipIdx 1 := List.left_unique_forall₂' hunique hn hn'
  simpa using congrArg (List.map Prod.fst) hzip

end Numbered

/-- The reports that were fetched are of these samples, and each has its line. -/
structure Shows (h : History Host.interface) (samples : List Sample) : Prop where
  reports : (h.filterMap Host.report?).map Sample.decode = samples.map .ok
  lines : Numbered samples (h.filterMap Host.line?)

/-- Each report that was fetched has its line, but for the last one where that is what was done last. -/
def KeepsUp (h : History Host.interface) : Prop :=
  (∃ samples, Shows h samples) ∨
    ∃ earlier samples x raw, h = earlier ++ [x] ∧ Host.report? x = some raw ∧ Shows earlier samples

/-- More reports are wanted than so many. -/
def Wanted (count : Option UInt64) (printed : Nat) : Prop :=
  ∀ limit, count = some limit → printed < limit.toNat

/-- What may be done after something else: reports are fetched while more are wanted, and apart from preparations nothing is
done once they are all printed. -/
structure InTurn (count : Option UInt64) (earlier : History Host.interface) (x : Exchange Host.interface) : Prop where
  fetch : x.request.isFetch = true → Wanted count (earlier.filterMap Host.report?).length
  any : x.request.isPreparation = false → Wanted count (earlier.filterMap Host.line?).length

variable {count : Option UInt64} {h : History Host.interface} {samples : List Sample}

namespace Shows

theorem length_reports (hs : Shows h samples) : (h.filterMap Host.report?).length = samples.length := by
  simpa using congrArg List.length hs.reports

theorem length_lines (hs : Shows h samples) : (h.filterMap Host.line?).length = samples.length :=
  hs.lines.length_eq

/-- What is neither a report nor a line changes nothing. -/
theorem other (hs : Shows h samples) {x : Exchange Host.interface} (hreport : Host.report? x = none)
    (hline : Host.line? x = none) : Shows (h ++ [x]) samples := by
  refine ⟨?_, ?_⟩
  · simp [List.filterMap_append, hreport, hs.reports]
  · simpa [List.filterMap_append, hline] using hs.lines

/-- A report and its line. -/
theorem shown (hs : Shows h samples) {x : Exchange Host.interface} {raw : Bytes} {sample : Sample}
    (hreport : Host.report? x = some raw) (hdecode : Sample.decode raw = .ok sample) :
    Shows (h ++ [x, ⟨.print (reportLine (samples.length + 1) sample), ()⟩]) (samples ++ [sample]) := by
  have hline : Host.line? x = none := Host.line?_of_isFetch (Host.isFetch_of_report? hreport)
  refine ⟨?_, ?_⟩
  · simp [List.filterMap_append, List.filterMap_cons, hreport, hs.reports, hdecode]
  · simpa [List.filterMap_append, hline] using hs.lines.concat (depicts_reportLine (samples.length + 1) sample)

/-- While more are wanted anything may be done, and preparations in any case. -/
theorem inTurn (hs : Shows h samples) {x : Exchange Host.interface}
    (hwanted : x.request.isPreparation = true ∨ Wanted count samples.length) : InTurn count h x := by
  rw [← Bool.not_eq_false] at hwanted
  refine ⟨fun hx => ?_, fun hx => ?_⟩
  · rw [hs.length_reports]
    exact hwanted.resolve_left (not_not_intro (Host.Request.not_isPreparation hx))
  · rw [hs.length_lines]
    exact hwanted.resolve_left (not_not_intro hx)

end Shows

/-! ## Counting -/

/-- A run that counts, and the samples it has counted. -/
inductive Tally (count : Option UInt64) : History Host.interface → List Sample → Prop
  | nothing : Tally count [] []
  /-- Something is done that brings no report and prints no line. -/
  | other {h : History Host.interface} {samples : List Sample} {x : Exchange Host.interface} (before : Tally count h samples)
      (hreport : Host.report? x = none) (hline : Host.line? x = none)
      (hwanted : x.request.isPreparation = true ∨ Wanted count samples.length) : Tally count (h ++ [x]) samples
  /-- A report is fetched and printed. -/
  | shown {h : History Host.interface} {samples : List Sample} {x : Exchange Host.interface} {raw : Bytes} {sample : Sample}
      (before : Tally count h samples) (hreport : Host.report? x = some raw) (hdecode : Sample.decode raw = .ok sample)
      (hwanted : Wanted count samples.length) :
      Tally count (h ++ [x, ⟨.print (reportLine (samples.length + 1) sample), ()⟩]) (samples ++ [sample])

namespace Tally

theorem shows (ht : Tally count h samples) : Shows h samples := by
  induction ht with
  | nothing => exact ⟨rfl, .nil⟩
  | other _ hreport hline _ ih => exact ih.other hreport hline
  | shown _ hreport hdecode _ ih => exact ih.shown hreport hdecode

theorem keepsUp (ht : Tally count h samples) {part : History Host.interface} (hpart : part <+: h) : KeepsUp part := by
  induction ht with
  | nothing => exact .inl ⟨[], List.prefix_nil.1 hpart ▸ ⟨rfl, .nil⟩⟩
  | @other _ samples _ before hreport hline _ ih =>
    rcases List.prefix_concat_iff.1 hpart with rfl | hpart
    · exact .inl ⟨samples, before.shows.other hreport hline⟩
    · exact ih hpart
  | @shown earlier samples x raw sample before hreport hdecode _ ih =>
    rw [List.append_cons] at hpart
    rcases List.prefix_concat_iff.1 hpart with rfl | hpart
    · rw [← List.append_cons]
      exact .inl ⟨samples ++ [sample], before.shows.shown hreport hdecode⟩
    · rcases List.prefix_concat_iff.1 hpart with rfl | hpart
      · exact .inr ⟨earlier, samples, x, raw, rfl, hreport, before.shows⟩
      · exact ih hpart

theorem inTurn (ht : Tally count h samples) : Throughout (fun earlier x _ => InTurn count earlier x) h := by
  induction ht with
  | nothing => exact throughout_nil
  | @other earlier samples x before hreport hline hwanted ih =>
    exact throughout_concat.2 ⟨ih, before.shows.inTurn hwanted⟩
  | @shown earlier samples x raw sample before hreport hdecode hwanted ih =>
    rw [List.append_cons]
    refine throughout_concat.2 ⟨throughout_concat.2 ⟨ih, before.shows.inTurn (.inr hwanted)⟩, nofun, fun _ => ?_⟩
    have hline : Host.line? x = none := Host.line?_of_isFetch (Host.isFetch_of_report? hreport)
    simpa [List.filterMap_append, hline, before.shows.length_lines] using hwanted

/-- Preparations are not counted. -/
theorem preparations (ht : Tally count h samples) {setup : History Host.interface}
    (hall : ∀ x ∈ setup, x.request.isPreparation = true) : Tally count (h ++ setup) samples := by
  induction setup generalizing h with
  | nil => simpa using ht
  | cons x setup ih =>
    obtain ⟨hx, hall⟩ := List.forall_mem_cons.1 hall
    rw [List.append_cons]
    exact ih (ht.other (Host.report?_of_isPreparation hx) (Host.line?_of_isPreparation hx) (.inl hx)) hall

theorem length_le (ht : Tally count h samples) {limit : UInt64} (hcount : count = some limit) :
    samples.length ≤ limit.toNat := by
  induction ht with
  | nothing => exact Nat.zero_le _
  | other _ _ _ _ ih => exact ih
  | shown _ _ _ hwanted _ =>
    rw [List.length_append]
    exact hwanted limit hcount

end Tally

/-! ## One look -/

/-- What begins a look: the line is read, or without a line an interval is waited for. -/
def beginsLook (s : DigitizerSettings) (x : Exchange Host.interface) : Bool :=
  match s.irqLine, x.request with
  | some _, .readLine _ | none, .sleep _ => true
  | _, _ => false

variable {s : DigitizerSettings} {d : Dump} {before : History Host.interface} {g : History interface}

theorem Tally.notice (ht : Tally count before samples) (hwanted : Wanted count samples.length) :
    Tally count (before ++ [notice s]) samples := by
  unfold Command.notice
  cases s.irqLine <;> exact ht.other rfl rfl (.inr hwanted)

@[simp] theorem beginsLook_notice (s : DigitizerSettings) : beginsLook s (notice s) = true := by
  unfold beginsLook notice
  cases s.irqLine <;> rfl

@[simp] theorem beginsLook_fetched (s : DigitizerSettings) (reply : Except Bus.Cause Bytes) :
    beginsLook s (fetched s reply) = false := by
  unfold beginsLook fetched
  cases s.irqLine <;> rfl

@[simp] theorem beginsLook_print (s : DigitizerSettings) (line : String) (u : Unit) :
    beginsLook s ⟨.print line, u⟩ = false := by
  unfold beginsLook
  cases s.irqLine <;> rfl

/-- The last that was done was to read the line, and it could not be read. -/
def LineLost (h : History Host.interface) : Prop :=
  ∃ earlier line reason, h = earlier ++ [⟨.readLine line, .error reason⟩]

theorem LineLost.behind {h : History Host.interface} (hlost : LineLost h) (earlier : History Host.interface) :
    LineLost (earlier ++ h) := by
  obtain ⟨between, line, reason, rfl⟩ := hlost
  exact ⟨earlier ++ between, line, reason, (List.append_assoc _ _ _).symm⟩

namespace Dump

/-- The digitizer is where the settings say, and so many samples have been printed. -/
structure Has (s : DigitizerSettings) (samples : List Sample) (d : Dump) : Prop where
  place : d.place = ⟨s.bus, s.address.toUInt8⟩
  printed : d.printed = samples.length

/-- The report cannot be fetched, and nothing is printed; or it is fetched and printed. -/
theorem ends_printNext (hd : d.Has s samples) {d' : Dump} (he : d.printNext.Ends g d') :
    (∃ cause, effects g = [fetched s (.error cause)] ∧ d' = d) ∨
      ∃ raw sample, Sample.decode (Bus.fit 22 raw) = .ok sample ∧
        effects g = [fetched s (.ok raw), ⟨.print (reportLine (samples.length + 1) sample), ()⟩] ∧
          d'.Has s (samples ++ [sample]) := by
  obtain ⟨place, printed⟩ := d
  obtain ⟨rfl, rfl⟩ := hd
  obtain ⟨_, result, _, rfl, hread, hrest⟩ := ends_bind.1 he
  obtain ⟨_, reply, _, rfl, htransfer, hdecoded⟩ := ends_bind.1 hread
  obtain ⟨raw, rfl, rfl⟩ := ends_transfer htransfer
  rcases raw with cause | raw
  · obtain ⟨rfl, rfl⟩ := ends_done.1 hdecoded
    obtain ⟨_, _, _, rfl, hsay, hend⟩ := ends_bind.1 hrest
    obtain ⟨rfl, rfl⟩ := ends_done.1 hend
    obtain rfl := ends_say.1 hsay
    exact .inl ⟨cause, rfl, rfl⟩
  · obtain ⟨sample, hsample⟩ := Pen.decode_sample_of_length (Bus.fit_length 22 raw)
    obtain ⟨rfl, hresult⟩ := ends_done.1 hdecoded
    obtain rfl : result = .ok sample := hresult.trans (congrArg (Except.mapError Pen.Error.malformed) hsample)
    obtain ⟨_, _, _, rfl, hprint, hend⟩ := ends_bind.1 hrest
    obtain ⟨rfl, rfl⟩ := ends_done.1 hend
    obtain rfl := ends_host.1 hprint
    exact .inr ⟨raw, sample, hsample, rfl, rfl, by simp⟩

/-- A round is one look. What it prints is the report it fetches, and it fails only if the line cannot be read. -/
theorem ends_round (hd : d.Has s samples) (ht : Tally count before samples) (hwanted : Wanted count samples.length)
    {r : Except Failure Dump} (he : (d.round s).run.Ends g r) :
    ∃ later, Tally count (before ++ effects g) later ∧ later.length ≤ samples.length + 1 ∧
      (effects g).countP (beginsLook s) = 1 ∧
      Task.Reaches (fun _ => Wanted count later.length ∧ LineLost (effects g)) (Has s later) r := by
  rcases Task.ends_bind he with ⟨failure, rfl, hlook⟩ | ⟨_, there, _, rfl, hlook, hrest⟩
  · obtain ⟨_, -, hno, -⟩ | ⟨hyes, -⟩ | ⟨line, reason, hline, -, heffects⟩ := DataReady.ends_look hlook
    · cases hno
    · cases hyes
    · rw [heffects]
      refine ⟨samples, ht.other rfl rfl (.inr hwanted), Nat.le_succ _, ?_, hwanted, [], line, reason, rfl⟩
      simp [beginsLook, hline]
  · obtain ⟨line, hline, hno, heffects⟩ | ⟨hyes, heffects⟩ | ⟨_, _, -, herror, -⟩ := DataReady.ends_look hlook
    · obtain rfl := Except.ok.inj hno
      obtain ⟨rfl, rfl⟩ := Task.ends_pure hrest
      rw [List.append_nil, heffects, List.append_cons]
      refine ⟨samples, (ht.other rfl rfl (.inr hwanted)).other rfl rfl (.inr hwanted), Nat.le_succ _, ?_, hd⟩
      simp [beginsLook, hline]
    · obtain rfl := Except.ok.inj hyes
      obtain ⟨d', rfl, hprint⟩ := Task.ends_lift hrest
      have hnoticed := ht.notice (s := s) hwanted
      rw [effects_append, heffects, ← List.append_assoc, List.countP_append]
      rcases ends_printNext hd hprint with ⟨cause, heffects, rfl⟩ | ⟨raw, sample, hdecode, heffects, hd'⟩
      · rw [heffects]
        exact ⟨samples, hnoticed.other rfl rfl (.inr hwanted), Nat.le_succ _, by simp, hd⟩
      · rw [heffects]
        exact ⟨_, hnoticed.shown rfl hdecode hwanted, by simp, by simp, hd'⟩
    · cases herror

/-! ## Round after round -/

theorem enough_iff (hd : d.Has s samples) :
    d.enough count = true ↔ ∃ limit, count = some limit ∧ limit.toNat ≤ samples.length := by
  cases count with
  | none => simp [enough]
  | some limit => simp [enough, hd.printed]

theorem wanted_of_not_enough (hd : d.Has s samples) (henough : ¬d.enough count = true) : Wanted count samples.length :=
  fun limit hcount => Nat.lt_of_not_le fun hle => henough ((enough_iff hd).2 ⟨limit, hcount, hle⟩)

/-- How it is with a count after any number of rounds. It ends because all that was asked for is printed, or before that
because the line cannot be read. -/
inductive Came (count : Option UInt64) (h : History Host.interface) (printed : Nat) : Option (Except Failure Unit) → Prop
  | on : Came count h printed none
  | enough {limit : UInt64} (hcount : count = some limit) (hall : printed = limit.toNat) : Came count h printed (some (.ok ()))
  | lineLost (failure : Failure) (hwanted : Wanted count printed) (hlost : LineLost h) :
      Came count h printed (some (.error failure))

/-- So many rounds are so many looks, or fewer and it is over, and none prints more than one line. -/
theorem ends_rounds (hd : d.Has s samples) (ht : Tally count before samples) {n : Nat}
    {turn : Turn Dump (Except Failure Unit)} (he : ((dump s count).rounds n (.again d)).Ends g turn) :
    ∃ later, Tally count (before ++ effects g) later ∧ later.length ≤ samples.length + n ∧
      Came count (before ++ effects g) later.length turn.result? ∧
      (turn.result? = none → (effects g).countP (beginsLook s) = n) := by
  induction n generalizing d g before samples with
  | zero =>
    obtain ⟨rfl, rfl⟩ := ends_done.1 he
    exact ⟨samples, by simpa using ht, Nat.le_refl _, .on, fun _ => rfl⟩
  | succ n ih =>
    obtain ⟨g₁, t, g₂, rfl, hround, hrest⟩ := ends_bind.1 he
    have hround : (if d.enough count then pure (.over (.ok ())) else Turn.ofTask (d.round s)).Ends g₁ t := hround
    split at hround
    · next henough =>
      obtain ⟨limit, hcount, hle⟩ := (enough_iff hd).1 henough
      obtain ⟨rfl, rfl⟩ := ends_done.1 hround
      obtain ⟨rfl, rfl⟩ := Process.ends_rounds_over hrest
      exact ⟨samples, by simpa using ht, Nat.le_add_right _ _, .enough hcount (Nat.le_antisymm (ht.length_le hcount) hle), nofun⟩
    · next henough =>
      obtain ⟨r, hr, rfl⟩ := ends_ofTask hround
      obtain ⟨later, htally, hlater, hlook, hgoes⟩ := ends_round hd ht (wanted_of_not_enough hd henough) hr
      rcases r with failure | d'
      · obtain ⟨rfl, rfl⟩ := Process.ends_rounds_over hrest
        obtain ⟨hwanted, hlost⟩ := hgoes
        rw [List.append_nil]
        exact ⟨later, htally, by omega, .lineLost failure hwanted (hlost.behind before), nofun⟩
      · obtain ⟨last, htally, hlast, hcame, hlooks⟩ := ih hgoes htally hrest
        rw [effects_append, ← List.append_assoc, List.countP_append, hlook]
        refine ⟨last, htally, by omega, hcame, fun hon => ?_⟩
        rw [hlooks hon, Nat.add_comm]

theorem prepares_start {strict : Prop} (haddress : s.address.toNat ≤ 0x7f) : Prepares strict (start s) (Has s []) := by
  refine Task.meets_bind (prepares_reachDigitizer haddress) fun (place, digitizer) ⟨hplace, _⟩ => ?_
  refine Task.meets_bind (prepares_setUp s) fun _ _ => ?_
  refine Task.meets_bind (prepares_report _) fun _ _ => ?_
  exact Task.meets_bind (prepares_report _) fun _ _ => Task.meets_pure ⟨hplace, rfl⟩

/-- A start does nothing but prepare. It comes to the digitizer of the settings, or a preparation failed. -/
theorem ends_start (haddress : s.address.toNat ≤ 0x7f) {r : Except Failure Dump} (he : (start s).run.Ends g r) :
    (∀ x ∈ effects g, x.request.isPreparation = true) ∧ (∀ d, r = .ok d → d.Has s []) ∧
      ∀ failure, r = .error failure → ∃ x ∈ effects g, Host.failed x = true := by
  obtain ⟨hasks, hloose⟩ := (@prepares_start s False haddress).ends he fun _ _ => nofun
  refine ⟨fun x hx => ?_, ?_, ?_⟩
  · refine (of_mem_effects hasks hx).resolve_right ?_
    simpa using (List.mem_filter.1 hx).2
  · rintro d rfl
    exact hloose
  · rintro failure rfl
    obtain ⟨x, hx, hfailed⟩ := exists_failed_of_meets (@prepares_start s True haddress) (fun _ hx _ => hx) he fun h => h trivial
    rw [← deeds_effects] at hx
    exact ⟨x, (List.mem_filter.1 hx).1, hfailed⟩

end Dump

theorem beginsLook_of_isPreparation {x : Exchange Host.interface} (hx : x.request.isPreparation = true) :
    beginsLook s x = false := by
  unfold beginsLook
  split
  · next hq =>
    rw [hq] at hx
    cases hx
  · next hq =>
    rw [hq] at hx
    cases hx
  · rfl

/-- A run prepares and then counts. -/
theorem ends_dump (haddress : s.address.toNat ≤ 0x7f) {n : Nat} {turn : Turn (dump s count).State (Except Failure Unit)}
    (he : ((dump s count).unroll n).Ends g turn) :
    ∃ samples, Tally count (effects g) samples ∧ samples.length ≤ n ∧
      ((∃ failure, turn.result? = some (.error failure) ∧
          ∃ x ∈ effects g, x.request.isPreparation = true ∧ Host.failed x = true) ∨
        Dump.Came count (effects g) samples.length turn.result? ∧
          (turn.result? = none → (effects g).countP (beginsLook s) = n)) := by
  obtain ⟨g₁, t, g₂, rfl, hstart, hrest⟩ := ends_bind.1 he
  obtain ⟨r, hr, rfl⟩ := ends_ofTask hstart
  obtain ⟨hprepares, hreaches, hfails⟩ := Dump.ends_start haddress hr
  have htally : Tally count (effects g₁) [] := Tally.nothing.preparations hprepares
  rcases r with failure | d
  · obtain ⟨rfl, rfl⟩ := Process.ends_rounds_over hrest
    obtain ⟨x, hx, hfailed⟩ := hfails failure rfl
    rw [List.append_nil]
    exact ⟨[], htally, Nat.zero_le _, .inl ⟨failure, rfl, x, hx, hprepares x hx, hfailed⟩⟩
  · obtain ⟨samples, htally, hle, hcame, hlooks⟩ := Dump.ends_rounds (hreaches d rfl) htally hrest
    have hnone : (effects g₁).countP (beginsLook s) = 0 :=
      List.countP_eq_zero.2 fun x hx => by simp [beginsLook_of_isPreparation (hprepares x hx)]
    rw [effects_append, List.countP_append, hnone, Nat.zero_add]
    exact ⟨samples, htally, by simpa using hle, .inr ⟨hcame, hlooks⟩⟩

end Command

/-! ## The whole program -/

section
variable {env : Environment} {files : Config.Files} {arguments : List String} {count : Option UInt64}
  {given : CommandLine.Given}

section
variable {h : History Host.interface} {printed : Nat} {outcome : Except Command.Failure Unit}

/-- The exit code of a count that is over tells whether all that was asked for is printed. -/
theorem Command.Dump.Came.codeOf_eq_zero_iff (hcame : Came count h printed (some outcome)) :
    Run.codeOf outcome = 0 ↔ ∃ limit, count = some limit ∧ printed = limit.toNat := by
  cases hcame with
  | enough hcount hall => exact iff_of_true rfl ⟨_, hcount, hall⟩
  | lineLost failure hwanted hlost =>
    refine iff_of_false nofun ?_
    rintro ⟨limit, hcount, hall⟩
    exact Nat.ne_of_lt (hwanted limit hcount) hall

theorem Command.Dump.Came.lineLost_of_codeOf_ne_zero (hcame : Came count h printed (some outcome))
    (hcode : Run.codeOf outcome ≠ 0) : Command.LineLost h := by
  cases hcame with
  | enough hcount hall => exact absurd rfl hcode
  | lineLost failure hwanted hlost => exact hlost

end

/-- A run of the whole program counts, or does nothing because the settings cannot be used. -/
theorem ends_run_dump (hparse : CommandLine.parse env.configPath arguments = .ok ⟨.dump count, given⟩) {n : Nat}
    {h : History Host.interface} {turn : Turn (run env files arguments).State UInt8}
    (he : ((run env files arguments).unroll n).Ends h turn) :
    let s := (given.settings files env.home).1
    ∃ samples, Command.Tally count (Host.effects h) samples ∧ samples.length ≤ n ∧
      ((turn.result? = some 1 ∧
          (s.check = .ok () → ∃ x ∈ Host.effects h, x.request.isPreparation = true ∧ Host.failed x = true)) ∨
        ∃ outcome, turn.result? = outcome.map Run.codeOf ∧
          Command.Dump.Came count (Host.effects h) samples.length outcome ∧
            (outcome = none → (Host.effects h).countP (Command.beginsLook s.digitizer) = n)) := by
  intro s
  rcases ends_run_effects hparse he with ⟨⟨invalid, hinvalid⟩, heffects, hcode⟩ | ⟨hcheck, outer, outcome, hdump, heffects, hcode⟩
  · rw [heffects]
    exact ⟨[], .nothing, Nat.zero_le _, .inl ⟨hcode, fun hcheck => by cases hinvalid.symm.trans hcheck⟩⟩
  · have haddress : s.digitizer.address.toNat ≤ 0x7f := ((Config.Settings.check_eq_ok_iff s).1 hcheck).1
    obtain ⟨samples, htally, hle, hends⟩ := Command.ends_dump haddress hdump
    rw [heffects]
    refine ⟨samples, htally, hle, ?_⟩
    rcases hends with ⟨failure, hover, hfailed⟩ | ⟨hcame, hlooks⟩
    · exact .inl ⟨hcode.trans (congrArg (Option.map Run.codeOf) hover), fun _ => hfailed⟩
    · exact .inr ⟨_, hcode, hcame, hlooks⟩

/-- Take any run of the command that prints reports, on any machine, after any number of rounds. The lines that were printed
are those of the reports that were fetched, in order: each has its number, the first being one, and shows its sample. At no
point of the run is there more than one report without its line, which is then the last thing that was done. If so many
reports were asked for, no more are printed; while reports are fetched fewer have been, and once they are all out nothing is
done any more. Nor are there more lines than rounds. Where the settings can be used and no preparation fails, a run that is
over has the exit code 0 exactly if so many lines are out, and otherwise the line could not be read. Without a number the exit
code is never 0. As long as a run is not over each round has been a look. -/
theorem dump_counts_reports {σ : Type} (answer : Answerer Host.interface σ) (start : σ)
    (hparse : CommandLine.parse env.configPath arguments = .ok ⟨.dump count, given⟩) (n : Nat) :
    let s := (given.settings files env.home).1
    let r := ((run env files arguments).unroll n).play answer start
    let h := Host.effects r.history
    (∃ samples, Command.Shows h samples) ∧ (∀ part, part <+: h → Command.KeepsUp part) ∧
      (∀ limit, count = some limit → (h.filterMap Host.line?).length ≤ limit.toNat) ∧ (h.filterMap Host.line?).length ≤ n ∧
      Throughout (fun earlier x _ => Command.InTurn count earlier x) h ∧
      (s.check = .ok () → (∀ x ∈ h, x.request.isPreparation = true → Host.failed x = false) →
        ∀ code, r.result.result? = some code →
          (code = 0 ↔ ∃ limit, count = some limit ∧ (h.filterMap Host.line?).length = limit.toNat) ∧
            (code ≠ 0 → Command.LineLost h)) ∧
      (count = none → r.result.result? ≠ some 0) ∧
      (r.result.result? = none → h.countP (Command.beginsLook s.digitizer) = n) := by
  intro s r h
  obtain ⟨samples, htally, hle, hends⟩ :=
    ends_run_dump hparse (Program.ends_play answer ((run env files arguments).unroll n) start)
  have hlength : (h.filterMap Host.line?).length = samples.length := htally.shows.length_lines
  refine ⟨⟨samples, htally.shows⟩, fun part => htally.keepsUp, fun limit hcount => ?_, ?_, htally.inTurn, ?_, ?_, ?_⟩
  · rw [hlength]
    exact htally.length_le hcount
  · rw [hlength]
    exact hle
  · intro hcheck hprepared code hover
    rcases hends with ⟨-, hfails⟩ | ⟨outcome, hcode, hcame, -⟩
    · obtain ⟨x, hx, hpreparation, hfailed⟩ := hfails hcheck
      cases hfailed.symm.trans (hprepared x hx hpreparation)
    · obtain ⟨outcome, rfl, rfl⟩ := Option.map_eq_some_iff.1 (hcode.symm.trans hover)
      rw [hlength]
      exact ⟨hcame.codeOf_eq_zero_iff, hcame.lineLost_of_codeOf_ne_zero⟩
  · rintro rfl hzero
    rcases hends with ⟨hcode, -⟩ | ⟨outcome, hcode, hcame, -⟩
    · cases hcode.symm.trans hzero
    · obtain ⟨outcome, rfl, hzero⟩ := Option.map_eq_some_iff.1 (hcode.symm.trans hzero)
      obtain ⟨limit, hcount, -⟩ := hcame.codeOf_eq_zero_iff.1 hzero
      cases hcount
  · intro hgoes
    rcases hends with ⟨hcode, -⟩ | ⟨outcome, hcode, hcame, hlooks⟩
    · cases hcode.symm.trans hgoes
    · exact hlooks (Option.map_eq_none_iff.1 (hcode.symm.trans hgoes))

end

/-- A machine on which the tip of a pen is down, then a report cannot be fetched, and after that the eraser is near. -/
def Host.strokeMachine : Answerer Host.interface Nat
  | .transfer _ ⟨_, .read _⟩ => fun fetched =>
    (match fetched with
      | 0 => .ok [0x0f, 0, 2, 0x31, 0xd2, 0x04, 0x37, 0x02, 89, 0, 1, 0xfd, 0xff, 4, 0]
      | 1 => .error .bus
      | _ => .ok [0x0f, 0, 2, 0x2c, 0x20, 0x4e, 7, 0, 0, 0, 12, 0, 0, 0xf6, 0xff], fetched + 1)
  | q => Host.penMachine q

/-- Asked for two there, the command prints the first, looks again after the report that is lost, prints the third and is done. -/
theorem dump_counts_reports_strokeMachine :
    let r := ((run {} (fun _ => none) ["dump", "--count", "2", "--pen-irq-gpio", "4"]).unroll 4).play Host.strokeMachine 0
    let h := Host.effects r.history
    r.result.result? = some 0 ∧ (∃ samples, samples.length = 2 ∧ Command.Shows h samples) ∧
      h.filterMap Host.line? =
        ["     1  pen    PROX TIP - - B2  x=1234 y=567 p=89 d=1 tilt=(-3, 4)",
          "     2  rubber PROX - ERS - -  x=20000 y=7 p=0 d=12 tilt=(0, -10)"] ∧
      h.countP (fun x => x.request.isFetch) = 3 := by
  intro r h
  have hover : r.result.result? = some 0 := by decide +kernel
  obtain ⟨⟨samples, hshows⟩, -, -, -, -, hcode, -, -⟩ := @dump_counts_reports {} (fun _ => none)
    ["dump", "--count", "2", "--pen-irq-gpio", "4"] (some 2) { penIrqLine := some 4, count := some 2 } _ Host.strokeMachine 0
    (by rfl) 4
  have hprepared : ∀ x ∈ h, x.request.isPreparation = true → Host.failed x = false := by decide +kernel
  obtain ⟨limit, hcount, hall⟩ := (hcode (by rfl) hprepared 0 hover).1.1 rfl
  obtain rfl := Option.some.inj hcount
  exact ⟨hover, ⟨samples, hshows.length_lines.symm.trans hall, hshows⟩, by decide +kernel, by decide +kernel⟩

end PenRail
