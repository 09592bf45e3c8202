import PenRail.Proofs.Command.RailChip

/-!
# What the exit code of a switch-on says

The command that enables the rail opens the adapter, makes the power-good line ready, clears the power-on delay and switches the
rail on. Each of these can fail, and the chip may be on although the controller begins with the view of a rail that is off.
`Enables` lists the ways through the command as the controller sees them, and `ends_enable` says that there are no others. What
each of them leaves in the chip is known from the acts alone, so the exit code tells whether the rail is up, and where it is
not, which failures can have left it on.
-/

namespace PenRail

open Bus (RegisterChip)
open Config (RegulatorSettings)
open Program (Unfolds ends_bind ends_done ends_map ends_request ends_under)
open Rail (BitSet SetsOnOff SwitchesOn Told acts modeRead registersAfter)

/-! ## The controller -/

namespace Rail

/-- The power-on delay was to be cleared. -/
def delayCleared (reply : Except Bus.Failure Unit) : Exchange interface :=
  ⟨.transfer (.write [Register.powerOnDelay, 0]), reply⟩

theorem ends_clearPowerOnDelay {h : History interface} {r : Result Unit} (he : clearPowerOnDelay.Ends h r) :
    ∃ reply, h = [delayCleared reply] ∧ r = reply.mapError .bus := by
  unfold clearPowerOnDelay onBus at he
  rw [RegisterChip.writeRegister_run, Program.under_request] at he
  obtain ⟨_, reply, _, rfl, hwrite, hend⟩ := ends_bind.1 he
  obtain rfl := ends_request.1 hwrite
  obtain ⟨rfl, rfl⟩ := ends_done.1 hend
  exact ⟨reply, rfl, rfl⟩

/-- A rail that is not enabled is not enabled by doing nothing. -/
theorem acts_enable_ne_nil {c : Controller} (hc : c.phase ≠ .enabled) {h : History interface} {o : Outcome Unit}
    (he : c.enable.Ends h o) : acts h ≠ [] := by
  unfold Controller.enable at he
  rw [if_neg hc] at he
  obtain ⟨_, _, _, rfl, -, hrest⟩ := ends_bind.1 he
  obtain ⟨sent, _, _, rfl, hsent, -⟩ := ends_bind.1 hrest
  have hattempt := ends_setOnOff hsent
  rw [acts_append, acts_append, hattempt.acts_eq]
  intro hnil
  exact hattempt.ne_nil (List.append_eq_nil_iff.1 (List.append_eq_nil_iff.1 hnil).2).1

end Rail

namespace Command

/-- How enabling the rail can go, as the controller sees it, and how the command ends. -/
inductive Enables : History Rail.interface → Except Failure Unit → Prop
  /-- The adapter cannot be opened, or the line not be made ready. -/
  | unreached (failure : Failure) : Enables [] (.error failure)
  | uncleared (failure : Bus.Failure) : Enables [Rail.delayCleared (.error failure)] (.error (.rail (.bus failure)))
  | switched {on : History Rail.interface} {outcome : Rail.Result Unit} (tried : on ≠ []) (sent : SwitchesOn on outcome) :
      Enables (Rail.delayCleared (.ok ()) :: on) (outcome.mapError .rail)

namespace Enables

variable {registers : UInt8 → UInt8} {h : History Rail.interface}

/-- Clearing the power-on delay leaves the on/off bit alone. -/
theorem bitSet_delayCleared (reply : Except Bus.Failure Unit) :
    BitSet (Rail.stored registers (Rail.delayCleared reply)) ↔ BitSet registers := by
  rcases reply with failure | u
  · exact Iff.rfl
  · have hother : Rail.Register.operationMode ≠ Rail.Register.powerOnDelay := by decide
    rw [BitSet, BitSet, Rail.delayCleared, Rail.stored, RegisterChip.store_of_ne _ _ hother]

theorem told_tail {reply : Except Bus.Failure Unit} (told : Told registers (Rail.delayCleared reply :: h)) :
    Told (Rail.stored registers (Rail.delayCleared reply)) h :=
  (@Rail.told_append registers [Rail.delayCleared reply] h).1 told |>.2

/-- Success means that the bit is set, that there is no power-on delay, and that power good was seen last. -/
theorem of_ok (he : Enables h (.ok ())) (told : Told registers h) :
    BitSet (registersAfter registers h) ∧ registersAfter registers h Rail.Register.powerOnDelay = 0 ∧
      (h.filterMap Rail.reading?).getLast? = some (.ok true) := by
  generalize hr : (Except.ok () : Except Failure Unit) = r at he
  cases he with
  | unreached | uncleared => cases hr
  | @switched on outcome tried sent =>
    rcases outcome with error | u
    · cases hr
    · obtain ⟨hset, hlast⟩ := sent.of_ok tried (told_tail told)
      refine ⟨hset, ?_, hlast⟩
      rw [Rail.registersAfter_cons, sent.registersAfter_of_ne (by decide)]
      exact RegisterChip.store_same _ _ _

/-- Success needs power good to have been seen. -/
theorem sawHigh_of_ok (he : Enables h (.ok ())) : Rail.sawHigh ∈ h := by
  generalize hr : (Except.ok () : Except Failure Unit) = r at he
  cases he with
  | unreached | uncleared => cases hr
  | @switched on outcome tried sent =>
    cases sent with
    | already => exact absurd rfl tried
    | good => simp
    | _ => cases hr

/-- Where every read brings a byte, a failure leaves the bit set only if it was set before, if power good could not be read, or if
the line was low to the end and a transfer of the switch-off failed. -/
theorem of_error {failure : Failure} (he : Enables h (.error failure)) (told : Told registers h)
    (hfull : modeRead (.ok []) ∉ h) (hset : BitSet (registersAfter registers h)) :
    BitSet registers ∨ (∃ reason, (h.filterMap Rail.reading?).getLast? = some (.error reason)) ∨
      ∃ earlier t failure later, h = earlier ++ ⟨.transfer t, .error failure⟩ :: later ∧ SetsOnOff false t ∧
        earlier.filterMap Rail.reading? = List.replicate 500 (.ok false) ∧ later.filterMap Rail.reading? = [] := by
  generalize hr : (Except.error failure : Except Failure Unit) = r at he
  cases he with
  | unreached => exact .inl hset
  | uncleared => exact .inl hset
  | @switched on outcome tried sent =>
    rcases outcome with error | u
    · rcases sent.of_error (told_tail told) (fun hin => hfull (List.mem_cons_of_mem _ hin)) hset with
        hbefore | hunread | ⟨earlier, t, failure, later, rfl, hsets, hlow, hnone⟩
      · exact .inl (bitSet_delayCleared _ |>.1 hbefore)
      · exact .inr (.inl hunread)
      · exact .inr (.inr ⟨Rail.delayCleared (.ok ()) :: earlier, t, failure, later, rfl, hsets, hlow, hnone⟩)
    · cases hr

end Enables

/-! ## The command -/

/-- The line of the settings. -/
def PowerGoodLine.ofSettings (s : RegulatorSettings) : PowerGoodLine :=
  match s.powerGoodLine with
  | some number => .line number s.powerGoodActiveLow
  | none => .unconfigured

/-- The rail of the settings. -/
def RailAccess.ofSettings (s : RegulatorSettings) : RailAccess :=
  ⟨⟨s.bus, s.address.toUInt8⟩, .ofSettings s⟩

/-- What is asked for to reach a chip and to make a line ready. -/
def reaching : Terms interface where
  asks
    | .host (.openAdapter _) | .host (.setUpLine _ _) | .log _ => True
    | _ => False

/-- A part of a command that does no more than that and, where it succeeds, comes to something good. -/
abbrev Reached {α : Type} (t : Task α) (good : α → Prop := fun _ => True) : Prop :=
  t.run.Meets reaching (Task.Reaches (fun _ => True) good)

theorem reached_attempt {ε α : Type} {failure : ε → Failure} {p : Program interface (Except ε α)}
    (hp : p.Meets reaching fun _ => True) : Reached (attempt failure p) :=
  Task.meets_attempt hp (fun _ _ => trivial) fun _ _ => trivial

theorem meets_reaching {q : Request} (hq : reaching.asks q) :
    (Program.request (I := interface) q).Meets reaching fun _ => True :=
  Program.meets_request hq fun _ _ => trivial

theorem reached_setUpLine (number : UInt64) : Reached (setUpLine number) :=
  Task.meets_bind (reached_attempt (meets_reaching trivial)) fun _ _ =>
    Task.meets_bind (reached_attempt (meets_reaching trivial)) fun _ _ => reached_attempt (meets_reaching trivial)

theorem reached_place (path : String) (address : UInt16) :
    Reached (Place.reach path address) (· = ⟨path, address.toUInt8⟩) := by
  unfold Place.reach
  split
  · trivial
  · refine Task.meets_bind (reached_attempt (meets_reaching trivial)) fun _ _ => ?_
    exact Task.meets_bind (Task.meets_lift (meets_reaching trivial)) fun _ _ => Task.meets_pure rfl

theorem reached_line (s : RegulatorSettings) :
    Reached (PowerGoodLine.setUp s.powerGoodLine s.powerGoodActiveLow) (· = .ofSettings s) := by
  unfold PowerGoodLine.ofSettings
  cases s.powerGoodLine with
  | none => exact Task.meets_pure rfl
  | some number => exact Task.meets_bind (reached_setUpLine number) fun _ _ => Task.meets_pure rfl

theorem reached_rail (s : RegulatorSettings) : Reached (reachRail s) (· = .ofSettings s) := by
  refine Task.meets_bind (reached_place _ _) fun place hplace => ?_
  refine Task.meets_bind (reached_line s) fun line hline => Task.meets_pure ?_
  rw [hplace, hline]
  rfl

/-- The controller sees nothing of this. -/
theorem Reached.unseen {α : Type} {t : Task α} {good : α → Prop} (ht : Reached t good) {h : History interface}
    {r : Except Failure α} (he : t.run.Ends h r) (place : Place) (line : UInt64) (activeLow : Bool) :
    (deeds h).filterMap (toRail? place line activeLow) = [] := by
  obtain ⟨hasks, -⟩ := Program.Meets.ends ht he fun _ _ => trivial
  refine List.filterMap_eq_nil_iff.2 fun y hy => ?_
  have hq : reaching.asks (.host y.request) := of_mem_deeds hasks hy
  obtain ⟨q, reply⟩ := y
  cases q with
  | openAdapter | setUpLine => rfl
  | _ => exact hq.elim

namespace RailAccess

variable {access : RailAccess} {h : History interface}

theorem ends_used {α : Type} {p : Program Rail.interface (Rail.Result α)} {r : Except Failure α}
    (he : (access.run p).run.Ends h r) :
    ∃ outer result, p.Ends outer result ∧ Unfolds access.answer outer h ∧ r = result.mapError .rail := by
  obtain ⟨result, rfl, hrun⟩ := Task.ends_attempt he
  obtain ⟨outer, hends, hunfolds⟩ := ends_under hrun
  exact ⟨outer, result, hends, hunfolds, rfl⟩

theorem ends_cleared {r : Except Failure Unit} (he : (access.run Rail.clearPowerOnDelay).run.Ends h r) :
    ∃ reply, Unfolds access.answer [Rail.delayCleared reply] h ∧ r = (reply.mapError .bus).mapError .rail := by
  obtain ⟨_, _, hends, hunfolds, rfl⟩ := ends_used he
  obtain ⟨reply, rfl, rfl⟩ := Rail.ends_clearPowerOnDelay hends
  exact ⟨reply, hunfolds, rfl⟩

theorem ends_switched {r : Except Failure Unit} (he : (access.runStep (Rail.Controller.enable {})).run.Ends h r) :
    ∃ outer outcome, Unfolds access.answer outer h ∧ acts outer ≠ [] ∧ SwitchesOn (acts outer) outcome ∧
      r = outcome.mapError .rail := by
  obtain ⟨outer, _, hends, hunfolds, rfl⟩ := ends_used he
  obtain ⟨o, rfl, henable⟩ := ends_map.1 hends
  exact ⟨outer, o.1, hunfolds, Rail.acts_enable_ne_nil (by decide) henable, Rail.acts_enable henable, rfl⟩

/-- Once the rail is reached, the command is one of the ways through it, and an entry in the log at the end. -/
theorem ends_enable {r : Except Failure Unit} (he : (access.perform .enable).run.Ends h r) :
    ∃ outer inner said, h = inner ++ said ∧ deeds said = [] ∧ Unfolds access.answer outer inner ∧ Enables (acts outer) r := by
  rcases Task.ends_bind he with ⟨failure, rfl, hclear⟩ | ⟨cleared, _, _, rfl, hclear, hrest⟩
  · obtain ⟨reply, hunfolds, hr⟩ := ends_cleared hclear
    rcases reply with cause | u
    · obtain rfl := Except.error.inj hr
      exact ⟨_, h, [], (List.append_nil h).symm, rfl, hunfolds, .uncleared cause⟩
    · cases hr
  obtain ⟨reply, hcleared, hok⟩ := ends_cleared hclear
  obtain rfl : reply = .ok () := by rcases reply with cause | u <;> trivial
  rcases Task.ends_bind hrest with ⟨failure, rfl, hon⟩ | ⟨switched, _, said, rfl, hon, hsay⟩
  · obtain ⟨outer, outcome, hunfolds, htried, hsent, hr⟩ := ends_switched hon
    refine ⟨_, cleared ++ _, [], (List.append_nil _).symm, rfl, hcleared.append hunfolds, ?_⟩
    rw [hr]
    exact .switched htried hsent
  · obtain ⟨outer, outcome, hunfolds, htried, hsent, hr⟩ := ends_switched hon
    obtain ⟨_, rfl, hlog⟩ := Task.ends_lift hsay
    refine ⟨_, cleared ++ switched, said, (List.append_assoc _ _ _).symm, ?_, hcleared.append hunfolds, ?_⟩
    · rw [ends_say.1 hlog]
      rfl
    · rw [hr]
      exact .switched htried hsent

end RailAccess

/-- With a line, the command is one of the ways through it. -/
theorem ends_powerEnable {s : RegulatorSettings} {number : UInt64} (hline : s.powerGoodLine = some number)
    {h : History interface} {r : Except Failure Unit} (he : (power s .enable).run.Ends h r) :
    Enables ((deeds h).filterMap (toRail? ⟨s.bus, s.address.toUInt8⟩ number s.powerGoodActiveLow)) r := by
  rcases Task.ends_bind he with ⟨failure, rfl, hreach⟩ | ⟨reached, access, rest, rfl, hreach, hperform⟩
  · rw [(reached_rail s).unseen hreach]
    exact .unreached failure
  · obtain ⟨-, haccess⟩ := (reached_rail s).ends hreach fun _ _ => trivial
    obtain rfl : access = .ofSettings s := haccess
    obtain ⟨outer, inner, said, rfl, hsaid, hunfolds, henables⟩ := RailAccess.ends_enable hperform
    have hof : PowerGoodLine.ofSettings s = .line number s.powerGoodActiveLow := by
      rw [PowerGoodLine.ofSettings, hline]
    have hacts := acts_eq rfl hof hunfolds
    rw [deeds_append, deeds_append, hsaid, List.append_nil, List.filterMap_append, (reached_rail s).unseen hreach]
    exact hacts.symm ▸ henables

/-- Without one it fails. -/
theorem fails_of_unconfigured {s : RegulatorSettings} (hline : s.powerGoodLine = none) {h : History interface}
    {r : Except Failure Unit} (he : (power s .enable).run.Ends h r) : ∃ failure, r = .error failure := by
  rcases Task.ends_bind he with ⟨failure, rfl, -⟩ | ⟨reached, access, rest, rfl, hreach, hperform⟩
  · exact ⟨failure, rfl⟩
  obtain ⟨-, haccess⟩ := (reached_rail s).ends hreach fun _ _ => trivial
  obtain rfl : access = .ofSettings s := haccess
  obtain ⟨outer, inner, said, rfl, -, hunfolds, henables⟩ := RailAccess.ends_enable hperform
  rcases r with failure | u
  · exact ⟨failure, rfl⟩
  · -- A success has seen power good, and without a line nobody says so.
    have hseen : Rail.sawHigh ∈ acts outer := henables.sawHigh_of_ok
    obtain ⟨stretch, hstretch⟩ := hunfolds.of_mem (List.mem_filter.1 hseen).1
    have hread : (PowerGoodLine.ofSettings s).read.Ends stretch (.ok true) := hstretch
    rw [PowerGoodLine.ofSettings, hline] at hread
    obtain ⟨_, _, _, -, -, hend⟩ := ends_bind.1 hread
    cases (ends_done.1 hend).2

/-! ## On a machine with the chip -/

/-- The rail is up: the on/off bit is set, there is no power-on delay, and the last reading of the line says that power is
good. -/
def Up (s : RegulatorSettings) (registers : UInt8 → UInt8) (h : History Host.interface) : Prop :=
  BitSet registers ∧ registers Rail.Register.powerOnDelay = 0 ∧
    ∃ line, s.powerGoodLine = some line ∧ (h.filterMap (Host.reading? line)).getLast? = some (.ok (!s.powerGoodActiveLow))

/-- Power good could not be read: there is no line, or its last reading failed. -/
def Unreadable (s : RegulatorSettings) (h : History Host.interface) : Prop :=
  s.powerGoodLine = none ∨
    ∃ line reason, s.powerGoodLine = some line ∧ (h.filterMap (Host.reading? line)).getLast? = some (.error reason)

/-- Power good never came: the line was read 500 times and said each time that it is not good. After that a transfer of the
switch-off failed. -/
def StuckOn (s : RegulatorSettings) (h : History Host.interface) : Prop :=
  ∃ line earlier t cause later, s.powerGoodLine = some line ∧
    h = earlier ++ ⟨.transfer s.bus ⟨s.address.toUInt8, t⟩, .error cause⟩ :: later ∧ SetsOnOff false t ∧
    earlier.filterMap (Host.reading? line) = List.replicate 500 (.ok s.powerGoodActiveLow) ∧
      later.filterMap (Host.reading? line) = []

section
variable {s : RegulatorSettings} {number : UInt64} {registers : UInt8 → UInt8} {h : History Host.interface}
  {seen : History Rail.interface} (hline : s.powerGoodLine = some number)
  (hseen : h.filterMap (toRail? ⟨s.bus, s.address.toUInt8⟩ number s.powerGoodActiveLow) = seen)
include hline hseen

theorem up_of_enables (he : Enables seen (.ok ())) (told : Told registers seen) : Up s (registersAfter registers seen) h := by
  obtain ⟨hset, hdelay, hlast⟩ := he.of_ok told
  refine ⟨hset, hdelay, number, hline, ?_⟩
  rw [← hseen, readings_eq, List.getLast?_map] at hlast
  obtain ⟨level, hlevel, hheard⟩ := Option.map_eq_some_iff.1 hlast
  rw [hlevel, PowerGoodLine.heard_eq_ok.1 hheard, Bool.true_bne]

theorem left_on_of_enables {failure : Failure} (he : Enables seen (.error failure)) (told : Told registers seen)
    (hset : BitSet (registersAfter registers seen)) : BitSet registers ∨ Unreadable s h ∨ StuckOn s h := by
  subst hseen
  rcases he.of_error told (modeRead_not_empty h) hset with hbefore | ⟨_, hlast⟩ | ⟨_, t, _, _, hacts, hsets, hlow, hnone⟩
  · exact .inl hbefore
  · rw [readings_eq, List.getLast?_map] at hlast
    obtain ⟨level, hlevel, hheard⟩ := Option.map_eq_some_iff.1 hlast
    obtain ⟨reason, rfl⟩ := PowerGoodLine.exists_of_heard_error hheard
    exact .inr (.inl (.inr ⟨number, reason, hline, hlevel⟩))
  · obtain ⟨earlier, cause, later, rfl, hearlier, hlater⟩ := exists_failed hacts
    rw [← hearlier, readings_eq] at hlow
    rw [← hlater, readings_eq, List.map_eq_nil_iff] at hnone
    refine .inr (.inr ⟨number, earlier, t, cause, later, hline, rfl, hsets, ?_, hnone⟩)
    obtain ⟨hlength, hall⟩ := List.eq_replicate_iff.1 hlow
    refine List.eq_replicate_iff.2 ⟨(List.length_map _).symm.trans hlength, fun level hlevel => ?_⟩
    rw [PowerGoodLine.heard_eq_ok.1 (hall _ (List.mem_map_of_mem hlevel)), Bool.false_bne]

end

end Command

/-- A run that is to enable the rail ends as that command does. -/
theorem ends_run_powerEnable {env : Environment} {files : Config.Files} {arguments : List String} {given : CommandLine.Given}
    (hparse : CommandLine.parse env.configPath arguments = .ok ⟨.power .enable, given⟩)
    (hcheck : (given.settings files env.home).1.check = .ok ()) {n : Nat} {h : History Host.interface}
    {turn : Turn (run env files arguments).State UInt8} (he : ((run env files arguments).unroll n).Ends h turn) :
    ∃ outer outcome, (Command.power (given.settings files env.home).1.regulator .enable).run.Ends outer outcome ∧
      Host.deeds h = Command.deeds outer ∧ turn.result? = some (Run.codeOf outcome) := by
  obtain ⟨outer, turn, hcommand, hdeeds, hresult⟩ := ends_run_of_check hparse hcheck he
  have hunroll := Process.unroll_once (Command.power (given.settings files env.home).1.regulator .enable).run n
  obtain ⟨outcome, rfl, henable⟩ := ends_map.1 (hunroll ▸ hcommand)
  exact ⟨outer, outcome, henable, hdeeds, hresult⟩

/-- The exit code of a switch-on tells the truth. Take any command line that asks to enable the rail, with any environment and
files whose merged settings can be used, on any machine that has a chip of registers where the settings say: whether the
adapter opens, which transfers fail, what the line reads and what else there is may be anything. The run is over, with some
exit code. If that is 0 the rail is up. If not, the on/off bit is set only if it was set before, if power good could not be
read, or if power good never came and then a transfer of the switch-off failed. -/
theorem power_enable_tells_the_truth {σ : Type} {answer : Answerer Host.interface σ} {registers : σ → UInt8 → UInt8} (start : σ)
    {env : Environment} {files : Config.Files} {arguments : List String} {given : CommandLine.Given}
    (hparse : CommandLine.parse env.configPath arguments = .ok ⟨.power .enable, given⟩)
    (hcheck : (given.settings files env.home).1.check = .ok ())
    (hchip : Host.HoldsChip answer ⟨(given.settings files env.home).1.regulator.bus,
      (given.settings files env.home).1.regulator.address.toUInt8⟩ registers) (n : Nat) :
    let s := (given.settings files env.home).1.regulator
    let r := ((run env files arguments).unroll n).play answer start
    ∃ code, r.result.result? = some code ∧ (code = 0 → Command.Up s (registers r.state) r.history) ∧
      (code ≠ 0 → BitSet (registers r.state) →
        BitSet (registers start) ∨ Command.Unreadable s r.history ∨ Command.StuckOn s r.history) := by
  intro s r
  obtain ⟨outer, outcome, henable, hdeeds, hresult⟩ :=
    ends_run_powerEnable hparse hcheck (Program.ends_play answer ((run env files arguments).unroll n) start)
  refine ⟨Run.codeOf outcome, hresult, ?_⟩
  cases hline : s.powerGoodLine with
  | none =>
    obtain ⟨failure, rfl⟩ := Command.fails_of_unconfigured hline henable
    exact ⟨nofun, fun _ _ => .inr (.inl (.inl hline))⟩
  | some number =>
    have henables := Command.ends_powerEnable hline henable
    rw [← hdeeds, Command.toRail?_deeds] at henables
    have told := Command.told_play hchip number s.powerGoodActiveLow ((run env files arguments).unroll n) start
    rw [Command.registers_play hchip number s.powerGoodActiveLow ((run env files arguments).unroll n) start]
    rcases outcome with failure | u
    · exact ⟨nofun, fun _ => Command.left_on_of_enables hline rfl henables told⟩
    · exact ⟨fun _ => Command.up_of_enables hline rfl henables told, fun hcode => absurd rfl hcode⟩

/-! ### A machine with the chip -/

/-- What a chip of registers brings back. -/
def Host.chipReply (registers : UInt8 → UInt8) : (t : Bus.Transfer) → t.Reply
  | .write _ => ()
  | .exchange [register] length => Bench.Chip.block registers register length
  | .exchange _ length | .read length => List.replicate length 0

/-- A machine with a chip of registers where the default settings look for it. Its transfers all work, and every line has the
same level. -/
def Host.railMachine (level : Except String Bool) : Answerer Host.interface (UInt8 → UInt8)
  | .transfer path q => fun registers =>
    let place : Command.Place := ⟨"/dev/i2c-3", 98⟩
    let reply := if ⟨path, q.address⟩ = place then .ok (chipReply registers q.transfer) else .error (.noAcknowledge .address)
    (reply, Host.stored place registers ⟨.transfer path q, reply⟩)
  | .readLine _ => pure level
  | .openAdapter _ | .setUpLine _ _ | .uinput _ => pure (.ok ())
  | .systemName => pure none
  | .delay _ | .sleep _ | .print _ | .report _ | .usage _ => pure ()

theorem Host.holdsChip_railMachine (level : Except String Bool) :
    Host.HoldsChip (Host.railMachine level) ⟨"/dev/i2c-3", 98⟩ id where
  stores q registers := by cases q <;> rfl
  tells q registers := by
    intro register bytes h
    obtain rfl : q = _ := congrArg Exchange.request h
    have hreply : (Host.railMachine level (.transfer "/dev/i2c-3" ⟨98, .exchange [register] 1⟩) registers).1 =
        .ok (Bench.Chip.block registers register 1) := by
      simp [Host.railMachine, Host.chipReply]
    obtain rfl := Except.ok.inj (hreply.symm.trans (eq_of_heq (Exchange.mk.inj h).2))
    rw [RegisterChip.block_one]
    rfl

/-- There the rail comes up with a line that is high. Without a line the command fails and leaves the bit set. -/
theorem power_enable_tells_the_truth_railMachine :
    let up := ((run {} (fun _ => none) ["power", "enable", "--pgood-gpio", "7"]).unroll 0).play (Host.railMachine (.ok true))
      fun _ => 0x05
    let blind := ((run {} (fun _ => none) ["power", "enable"]).unroll 0).play (Host.railMachine (.ok true)) fun _ => 0x05
    (up.result.result? = some 0 ∧ Command.Up { powerGoodLine := some 7 } up.state up.history) ∧
      blind.result.result? = some 1 ∧ BitSet blind.state ∧ Command.Unreadable {} blind.history := by
  intro up blind
  obtain ⟨code, hcode, hup, -⟩ := @power_enable_tells_the_truth _ (Host.railMachine (.ok true)) id (fun _ => 0x05) {}
    (fun _ => none) ["power", "enable", "--pgood-gpio", "7"] { powerGoodLine := some 7 } (by rfl) (by rfl)
    (Host.holdsChip_railMachine _) 0
  obtain rfl : code = 0 := by
    have hzero : up.result.result? = some 0 := by decide +kernel
    exact Option.some.inj (hcode.symm.trans hzero)
  obtain ⟨one, hone, -, hleft⟩ := @power_enable_tells_the_truth _ (Host.railMachine (.ok true)) id (fun _ => 0x05) {}
    (fun _ => none) ["power", "enable"] {} (by rfl) (by rfl) (Host.holdsChip_railMachine _) 0
  have hresult : blind.result.result? = some 1 := by decide +kernel
  obtain rfl : one = 1 := Option.some.inj (hone.symm.trans hresult)
  have hset : BitSet blind.state := by
    unfold BitSet
    decide +kernel
  refine ⟨⟨hcode, hup rfl⟩, hresult, hset, ?_⟩
  rcases hleft (by decide) hset with hbefore | hunreadable | ⟨_, _, _, _, _, hline, -⟩
  · exact absurd hbefore (by unfold BitSet; decide)
  · exact hunreadable
  · cases hline

end PenRail
