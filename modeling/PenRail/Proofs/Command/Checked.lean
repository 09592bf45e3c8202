import PenRail.Proofs.Command.Deeds
import PenRail.Proofs.Command.Tasks

/-!
# Settings are checked first

Addresses come from the command line, where they are checked when they are read, and from a file, where any sixteen bits will
do. What a command is given in the end has been checked as a whole. So each part of every command is shown to keep within the
settings it was given, if these are usable: it opens the adapters of the settings, talks to the addresses of the settings, and
never sleeps for less than a millisecond. In particular the address of a chip always fits a transfer.
`settings_are_checked_first` says so of the whole program.
-/

namespace PenRail

open Config (Settings DigitizerSettings RegulatorSettings)

/-- Both addresses have seven bits, and the polling interval is not empty. -/
def Config.Settings.Usable (s : Settings) : Prop :=
  s.digitizer.address.toNat ≤ 0x7f ∧ s.regulator.address.toNat ≤ 0x7f ∧ 1 ≤ s.digitizer.pollInterval.toNat

instance (s : Settings) : Decidable s.Usable :=
  inferInstanceAs (Decidable (_ ∧ _ ∧ _))

/-- That is what the check is for. -/
theorem Config.Settings.check_eq_ok_iff (s : Settings) : s.check = .ok () ↔ s.Usable := by
  unfold Settings.check Settings.Usable
  split
  · next hdigitizer => exact ⟨nofun, fun h => absurd h.1 (Nat.not_le.2 hdigitizer)⟩
  · next hdigitizer =>
    split
    · next hregulator => exact ⟨nofun, fun h => absurd h.2.1 (Nat.not_le.2 hregulator)⟩
    · next hregulator =>
      split
      · next hpoll =>
        rw [hpoll]
        exact ⟨nofun, fun h => absurd h.2.2 (by decide)⟩
      · next hpoll =>
        rw [← UInt64.toNat_inj] at hpoll
        exact ⟨fun _ => ⟨Nat.not_lt.1 hdigitizer, Nat.not_lt.1 hregulator, Nat.pos_of_ne_zero hpoll⟩, fun _ => rfl⟩

/-! ## Within the settings -/

namespace Command

/-- The place of one of the two chips of the settings. -/
def Place.IsOf (s : Settings) (place : Place) : Prop :=
  (place.path = s.digitizer.bus ∧ place.address.toNat = s.digitizer.address.toNat) ∨
    (place.path = s.regulator.bus ∧ place.address.toNat = s.regulator.address.toNat)

end Command

/-- What may be asked of the machine with these settings: to open their adapters, to reach the places of their chips, and to
sleep for no less than a millisecond. -/
def Host.Request.Within (s : Settings) : Host.Request → Prop
  | .openAdapter path => path = s.digitizer.bus ∨ path = s.regulator.bus
  | .transfer path q => Command.Place.IsOf s ⟨path, q.address⟩
  | .sleep nanoseconds => Rail.millisecond ≤ nanoseconds
  | _ => True

/-- Text is always within the settings. -/
theorem Host.Request.within_of_isText {s : Settings} {q : Host.Request} (hq : q.isText = true) : q.Within s := by
  cases q with
  | print | report | usage => trivial
  | _ => cases hq

namespace Command

/-- The terms on which a command uses the machine. -/
def within (s : Settings) : Terms interface where
  asks
    | .host q => q.Within s
    | .log _ => True

/-- A part of a command that keeps within the settings and, where it succeeds, comes to something good. It never fails because
an address does not fit. -/
abbrev Checked {α : Type} (s : Settings) (t : Task α) (good : α → Prop := fun _ => True) : Prop :=
  t.run.Meets (within s) (Task.Reaches (· ≠ .address) good)

variable {s : Settings} {α ε : Type}

theorem checked_attempt {failure : ε → Failure} {p : Program interface (Except ε α)}
    (hp : p.Meets (within s) fun _ => True) (hfailure : ∀ e, failure e ≠ .address) : Checked s (attempt failure p) :=
  Task.meets_attempt hp (fun _ _ => trivial) fun e _ => hfailure e

theorem checked_lift {p : Program interface α} (hp : p.Meets (within s) fun _ => True) : Checked s (liftM p) :=
  Task.meets_lift hp

/-- What may be asked for may be asked for. -/
theorem meets_host {q : Host.Request} (hq : q.Within s) : (host q).Meets (within s) fun _ => True :=
  Program.meets_request hq fun _ _ => trivial

theorem meets_log (entry : Log.Entry) : (Program.request (I := interface) (.log entry)).Meets (within s) fun _ => True :=
  Program.meets_request trivial fun _ _ => trivial

theorem meets_say (level : Log.Level) (text : String) : (say level text).Meets (within s) fun _ => True :=
  meets_log _

theorem meets_print (line : String) : (print line).Meets (within s) fun _ => True :=
  meets_host trivial

/-! ## Places -/

theorem meets_transfer {place : Place} (hplace : place.IsOf s) (t : Bus.Transfer) :
    (place.transfer t).Meets (within s) fun _ => True := by
  refine ⟨hplace, fun raw _ => ?_⟩
  rcases raw with cause | reply <;> trivial

/-- A chip whose address has seven bits can be reached, if its adapter can be opened. -/
theorem checked_reach {path : String} {address : UInt16} (hpath : path = s.digitizer.bus ∨ path = s.regulator.bus)
    (haddress : address.toNat ≤ 0x7f) : Checked s (Place.reach path address) (· = ⟨path, address.toUInt8⟩) := by
  unfold Place.reach
  rw [if_neg (by omega)]
  refine Task.meets_bind (checked_attempt (meets_host hpath) nofun) fun _ _ => ?_
  exact Task.meets_bind (checked_lift (meets_say _ _)) fun _ _ => Task.meets_pure rfl

/-- A seven-bit address is the same in eight bits. -/
theorem toNat_toUInt8 {address : UInt16} (h : address.toNat ≤ 0x7f) : address.toUInt8.toNat = address.toNat := by
  rw [UInt16.toNat_toUInt8]
  omega

theorem checked_setUpLine (line : UInt64) : Checked s (setUpLine line) :=
  Task.meets_bind (checked_attempt (meets_host trivial) nofun) fun _ _ =>
    Task.meets_bind (checked_attempt (meets_host trivial) nofun) fun _ _ => checked_attempt (meets_host trivial) nofun

/-! ## The digitizer -/

theorem meets_answerReader {place : Place} (hplace : place.IsOf s) (q : Pen.Request) :
    (place.answerReader q).Meets (within s) fun _ => True := by
  cases q with
  | transfer t => exact meets_transfer hplace t
  | submit frame => trivial
  | log entry => exact meets_log entry

theorem meets_answerUinput (q : Uinput.Request) : (answerUinput q).Meets (within s) fun _ => True := by
  cases q with
  | call | systemName => exact meets_host trivial
  | log entry => exact meets_log entry

theorem meets_answerForwarder {place : Place} (hplace : place.IsOf s) (q : Pen.Request) (writer : Uinput.Writer) :
    ((place.answerForwarder q).run writer).Meets (within s) fun _ => True := by
  cases q with
  | transfer t => exact (meets_transfer hplace t).bind fun _ _ => trivial
  | submit frame => exact Program.meets_under meets_answerUinput (writer.submit frame)
  | log entry => exact (meets_log entry).bind fun _ _ => trivial

theorem checked_reachDigitizer (hs : s.Usable) : Checked s (reachDigitizer s.digitizer) fun r => r.1.IsOf s := by
  refine Task.meets_bind (checked_reach (.inl rfl) hs.1) fun place hplace => ?_
  have hof : place.IsOf s := .inl (by rw [hplace]; exact ⟨rfl, toNat_toUInt8 hs.1⟩)
  have hprobe := Program.meets_under (meets_answerReader hof) Pen.Digitizer.probe
  exact Task.meets_bind (checked_attempt hprobe nofun) fun _ _ => Task.meets_pure hof

namespace DataReady

theorem meets_pause (hs : s.Usable) : (ofSettings s.digitizer).pause.Meets (within s) fun _ => True :=
  meets_host (Nat.le_mul_of_pos_left Rail.millisecond hs.2.2)

theorem checked_setUp : Checked s (ofSettings s.digitizer).setUp := by
  unfold setUp
  cases (ofSettings s.digitizer).line with
  | none => exact Task.meets_pure trivial
  | some line => exact checked_setUpLine line

theorem checked_look (hs : s.Usable) : Checked s (ofSettings s.digitizer).look := by
  unfold look
  cases (ofSettings s.digitizer).line with
  | none => exact Task.meets_bind (checked_lift (meets_pause hs)) fun _ _ => Task.meets_pure trivial
  | some line =>
    refine Task.meets_bind (checked_attempt (meets_host trivial) nofun) fun level _ => ?_
    cases level with
    | false => exact Task.meets_pure trivial
    | true => exact Task.meets_bind (checked_lift (meets_pause hs)) fun _ _ => Task.meets_pure trivial

end DataReady

/-! ## Processes over the digitizer -/

/-- How a command over these settings may end, if it does. -/
def EndsChecked : Except Failure Unit → Prop :=
  Task.Reaches (· ≠ .address) fun _ => True

theorem meets_ofTask {t : Task α} {good : α → Prop} (ht : Checked s t good) :
    (Turn.ofTask t).Meets (within s) (Turn.Holds good EndsChecked) := by
  refine Program.Meets.bind ht fun outcome houtcome => ?_
  rcases outcome with failure | a
  · exact houtcome
  · exact houtcome

namespace Forwarder

theorem checked_start (hs : s.Usable) : Checked s (start s.digitizer) (·.place.IsOf s) := by
  refine Task.meets_bind (checked_lift (meets_say _ _)) fun _ _ => ?_
  refine Task.meets_bind (checked_reachDigitizer hs) fun (place, digitizer) hplace => ?_
  refine Task.meets_bind (checked_lift (meets_say _ _)) fun _ _ => ?_
  refine Task.meets_bind (checked_lift (meets_say _ _)) fun _ _ => ?_
  have hcreate := Program.meets_under (@meets_answerUinput s) (Uinput.Writer.create digitizer.capabilities)
  refine Task.meets_bind (checked_attempt hcreate nofun) fun _ _ => ?_
  have hattach : (Host.Request.sleep attachTime).Within s := Nat.le_mul_of_pos_left Rail.millisecond (by decide)
  refine Task.meets_bind (checked_lift (meets_host hattach)) fun _ _ => ?_
  refine Task.meets_bind (checked_lift (meets_say _ _)) fun _ _ => ?_
  exact Task.meets_bind DataReady.checked_setUp fun _ _ => Task.meets_pure hplace

theorem checked_forward {f : Forwarder} (hf : f.place.IsOf s) : Checked s f.forward (·.place.IsOf s) := by
  have hnotify := Program.meets_underState (meets_answerForwarder hf) f.digitizer.notify f.writer
  refine Task.meets_bind (Task.meets_lift hnotify) fun ((result, digitizer), writer) _ => ?_
  have hstop (error : Pen.Error) : Checked s (throw (.pen error) : Task Unit) := nofun
  rcases result with (failure | what | reason) | seen
  · exact Task.meets_bind (hstop _) fun _ _ => Task.meets_pure hf
  · exact Task.meets_bind (checked_lift (meets_say _ _)) fun _ _ => Task.meets_pure hf
  · exact Task.meets_bind (hstop _) fun _ _ => Task.meets_pure hf
  · exact Task.meets_pure hf

theorem checked_round (hs : s.Usable) {f : Forwarder} (hf : f.place.IsOf s) :
    Checked s (round s.digitizer f) (·.place.IsOf s) := by
  refine Task.meets_bind (DataReady.checked_look hs) fun there _ => ?_
  cases there with
  | true => exact checked_forward hf
  | false => exact Task.meets_pure hf

end Forwarder

theorem meets_printAll (lines : List String) : (printAll lines).Meets (within s) fun _ => True := by
  induction lines with
  | nil => trivial
  | cons line rest ih => exact (meets_print line).bind fun _ _ => ih

theorem checked_printCapabilities (hs : s.Usable) : Checked s (printCapabilities s.digitizer) :=
  Task.meets_bind (checked_reachDigitizer hs) fun (_, _) _ => checked_lift (meets_printAll _)

namespace Dump

theorem checked_start (hs : s.Usable) : Checked s (start s.digitizer) (·.place.IsOf s) := by
  refine Task.meets_bind (checked_reachDigitizer hs) fun (place, _) hplace => ?_
  refine Task.meets_bind DataReady.checked_setUp fun _ _ => ?_
  refine Task.meets_bind (checked_lift (meets_host trivial)) fun _ _ => ?_
  exact Task.meets_bind (checked_lift (meets_host trivial)) fun _ _ => Task.meets_pure hplace

theorem meets_printNext {d : Dump} (hd : d.place.IsOf s) : d.printNext.Meets (within s) (·.place.IsOf s) := by
  refine (Program.meets_under (meets_answerReader hd) Pen.Digitizer.readSample).bind fun read _ => ?_
  rcases read with error | sample
  · exact (meets_say _ _).bind fun _ _ => hd
  · exact (meets_print _).bind fun _ _ => hd

theorem checked_round (hs : s.Usable) {d : Dump} (hd : d.place.IsOf s) : Checked s (round s.digitizer d) (·.place.IsOf s) := by
  refine Task.meets_bind (DataReady.checked_look hs) fun there _ => ?_
  cases there with
  | true => exact Task.meets_lift (meets_printNext hd)
  | false => exact Task.meets_pure hd

end Dump

/-! ## The rail -/

namespace PowerGoodLine

theorem checked_setUp (number : Option UInt64) (activeLow : Bool) : Checked s (setUp number activeLow) := by
  cases number with
  | none => exact Task.meets_pure trivial
  | some number => exact Task.meets_bind (checked_setUpLine number) fun _ _ => Task.meets_pure trivial

theorem meets_read (line : PowerGoodLine) : line.read.Meets (within s) fun _ => True := by
  cases line with
  | unconfigured => exact (meets_say _ _).bind fun _ _ => trivial
  | line number activeLow =>
    refine (@meets_host s (.readLine number) trivial).bind fun level _ => ?_
    rcases level with reason | level
    · exact (meets_say _ _).bind fun _ _ => trivial
    · trivial

end PowerGoodLine

namespace RailAccess

variable {access : RailAccess}

theorem meets_answer (haccess : access.place.IsOf s) (q : Rail.Request) : (access.answer q).Meets (within s) fun _ => True := by
  cases q with
  | transfer t => exact meets_transfer haccess t
  | powerGood => exact access.line.meets_read
  | delay nanoseconds => exact meets_host trivial
  | log entry => exact meets_log entry

theorem checked_run (haccess : access.place.IsOf s) (p : Program Rail.interface (Rail.Result α)) : Checked s (access.run p) :=
  checked_attempt (Program.meets_under (meets_answer haccess) p) nofun

theorem checked_perform (haccess : access.place.IsOf s) (action : CommandLine.PowerAction) :
    Checked s (access.perform action) := by
  cases action with
  | enable =>
    refine Task.meets_bind (checked_run haccess _) fun _ _ => ?_
    exact Task.meets_bind (checked_run haccess _) fun _ _ => checked_lift (meets_say _ _)
  | disable => exact Task.meets_bind (checked_run haccess _) fun _ _ => checked_lift (meets_say _ _)
  | status =>
    refine Task.meets_bind (checked_run haccess _) fun status _ => ?_
    refine Task.meets_bind (checked_run haccess _) fun enabled _ => ?_
    refine Task.meets_bind (checked_lift (meets_print _)) fun _ _ => ?_
    exact Task.meets_bind (checked_lift (meets_print _)) fun _ _ => checked_lift (meets_print _)
  | vcom set =>
    cases set with
    | none => exact Task.meets_bind (checked_run haccess _) fun _ _ => checked_lift (meets_print _)
    | some millivolts =>
      refine Task.meets_bind (checked_run haccess _) fun _ _ => ?_
      exact Task.meets_bind (checked_run haccess _) fun _ _ => checked_lift (meets_print _)
  | temperature => exact Task.meets_bind (checked_run haccess _) fun _ _ => checked_lift (meets_print _)

end RailAccess

theorem checked_reachRail (hs : s.Usable) : Checked s (reachRail s.regulator) (·.place.IsOf s) := by
  refine Task.meets_bind (checked_reach (.inr rfl) hs.2.1) fun place hplace => ?_
  refine Task.meets_bind (PowerGoodLine.checked_setUp _ _) fun line _ => Task.meets_pure ?_
  exact .inr (by rw [hplace]; exact ⟨rfl, toNat_toUInt8 hs.2.1⟩)

theorem checked_power (hs : s.Usable) (action : CommandLine.PowerAction) : Checked s (power s.regulator action) :=
  Task.meets_bind (checked_reachRail hs) fun _ haccess => RailAccess.checked_perform haccess action

/-! ## Every command -/

theorem meets_once {t : Task Unit} (ht : Checked s t) (n : Nat) :
    ((Process.once t.run).unroll n).Meets (within s) (Turn.Holds (fun _ => True) EndsChecked) := by
  rw [Process.unroll_once]
  exact Program.Meets.bind ht fun _ hr => hr

/-- Whatever the command, it keeps within usable settings. -/
theorem meets_commandProcess (hs : s.Usable) (command : CommandLine.Command) (n : Nat) :
    ∃ between, ((Run.commandProcess s command).unroll n).Meets (within s) (Turn.Holds between EndsChecked) := by
  cases command with
  | pen =>
    refine ⟨fun f : Forwarder => f.place.IsOf s, Process.meets_unroll (meets_ofTask (Forwarder.checked_start hs)) ?_ n⟩
    exact fun f hf => meets_ofTask (Forwarder.checked_round hs hf)
  | caps => exact ⟨_, meets_once (checked_printCapabilities hs) n⟩
  | dump count =>
    refine ⟨fun d : Dump => d.place.IsOf s, Process.meets_unroll (meets_ofTask (Dump.checked_start hs)) (fun d hd => ?_) n⟩
    change (if d.enough count then pure (.over (.ok ())) else Turn.ofTask (d.round s.digitizer) : Program _ _).Meets _ _
    split
    · trivial
    · exact meets_ofTask (Dump.checked_round hs hd)
  | power action => exact ⟨_, meets_once (checked_power hs action) n⟩

/-- So its deeds are within the settings, and it does not fail because an address does not fit. -/
theorem ends_commandProcess (hs : s.Usable) {command : CommandLine.Command} {n : Nat} {h : History interface}
    {turn : Turn (Run.commandProcess s command).State (Except Failure Unit)}
    (he : ((Run.commandProcess s command).unroll n).Ends h turn) :
    (∀ y ∈ deeds h, y.request.Within s) ∧ turn.result? ≠ some (.error .address) := by
  obtain ⟨between, hmeets⟩ := meets_commandProcess hs command n
  obtain ⟨hasks, hturn⟩ := hmeets.ends he fun _ _ => trivial
  refine ⟨fun y hy => of_mem_deeds hasks hy, fun haddress => ?_⟩
  rcases turn with state | outcome
  · cases haddress
  · obtain rfl := Option.some.inj haddress
    exact hturn rfl

end Command

/-- The settings of a run are checked before anything is done. Take any command line that is understood, with any environment
and files, on any machine. If anything at all is done, the merged settings are usable: both addresses have at most seven bits
and the polling interval is at least a millisecond. Whatever is asked of the machine is within the settings, so transfers go
to their two chips alone, and no sleep is shorter than a millisecond. With usable settings no command fails because an address
does not fit, whatever the machine answers. With settings that are not, nothing is done and the exit code is 1. -/
theorem settings_are_checked_first {σ : Type} (answer : Answerer Host.interface σ) (start : σ) {env : Environment}
    {files : Config.Files} {arguments : List String} {invocation : CommandLine.Invocation}
    (hparse : CommandLine.parse env.configPath arguments = .ok invocation) (n : Nat) :
    let s := (invocation.given.settings files env.home).1
    let r := ((run env files arguments).unroll n).play answer start
    (Host.deeds r.history ≠ [] → s.Usable) ∧ (∀ x ∈ r.history, x.request.Within s) ∧
      (s.Usable → ∀ (τ : Type) (other : Answerer Command.interface τ) (state : τ),
        (((Run.commandProcess s invocation.command).unroll n).play other state).result.result? ≠ some (.error .address)) ∧
      (¬s.Usable → Host.deeds r.history = [] ∧ r.result.result? = some 1) := by
  intro s r
  have hwithin (hdeeds : ∀ y ∈ Host.deeds r.history, y.request.Within s) : ∀ x ∈ r.history, x.request.Within s := by
    intro x hx
    cases htext : x.request.isText with
    | true => exact Host.Request.within_of_isText htext
    | false => exact hdeeds x (List.mem_filter.2 ⟨hx, by rw [htext]; rfl⟩)
  have hnever (hs : s.Usable) (τ : Type) (other : Answerer Command.interface τ) (state : τ) :=
    (Command.ends_commandProcess hs (Program.ends_play other ((Run.commandProcess s invocation.command).unroll n) state)).2
  rcases ends_run hparse (Program.ends_play answer ((run env files arguments).unroll n) start) with
    ⟨⟨invalid, hinvalid⟩, hnone, hcode⟩ | ⟨hcheck, outer, outcome, hcommand, hdeeds, -⟩
  · have hnot : ¬s.Usable := fun hs => by cases hinvalid.symm.trans (s.check_eq_ok_iff.2 hs)
    refine ⟨fun hsome => absurd hnone hsome, hwithin ?_, hnever, fun _ => ⟨hnone, hcode⟩⟩
    rw [hnone]
    exact nofun
  · have hs : s.Usable := s.check_eq_ok_iff.1 hcheck
    refine ⟨fun _ => hs, hwithin ?_, hnever, fun hnot => absurd hs hnot⟩
    rw [hdeeds]
    exact (Command.ends_commandProcess hs hcommand).1

/-- A machine that has the adapters, and nothing on them. -/
def Host.emptyMachine : Answerer Host.interface Unit
  | .openAdapter _ => pure (.ok ())
  | .transfer _ _ => pure (.error (.noAcknowledge .address))
  | .setUpLine _ _ | .readLine _ | .uinput _ => pure (.error "NoSuchDevice")
  | .systemName => pure none
  | .delay _ | .sleep _ | .print _ | .report _ | .usage _ => pure ()

/-- The transfer that was asked for, with the adapter it is for. -/
def Host.transfer? (x : Exchange Host.interface) : Option (String × Bus.Addressed) :=
  match x.request with
  | .transfer path q => some (path, q)
  | _ => none

/-- There a command with the default settings tries the digitizer at its address, and one with an empty interval does nothing. -/
theorem settings_are_checked_first_emptyMachine :
    let tried := ((run {} (fun _ => none) ["caps"]).unroll 0).play Host.emptyMachine ()
    let refused := ((run {} (fun _ => none) ["pen", "--poll-interval-ms", "0"]).unroll 5).play Host.emptyMachine ()
    (tried.history.filterMap Host.transfer? = [("/dev/i2c-1", ⟨9, .exchange Pen.queryCommand 21⟩)] ∧
      ∀ x ∈ tried.history, x.request.Within {}) ∧
      Host.deeds refused.history = [] ∧ refused.result.result? = some 1 := by
  intro tried refused
  obtain ⟨-, hwithin, -, -⟩ :=
    @settings_are_checked_first _ Host.emptyMachine () {} (fun _ => none) ["caps"] ⟨.caps, {}⟩ (by rfl) 0
  obtain ⟨-, -, -, hrefused⟩ := @settings_are_checked_first _ Host.emptyMachine () {} (fun _ => none)
    ["pen", "--poll-interval-ms", "0"] ⟨.pen, { pollInterval := some 0 }⟩ (by rfl) 5
  exact ⟨⟨by decide +kernel, hwithin⟩, hrefused (by decide)⟩

end PenRail
