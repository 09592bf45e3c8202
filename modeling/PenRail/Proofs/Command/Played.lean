import PenRail.Proofs.Command.Deeds

/-!
# A run on a machine that is deaf to text

Nothing that a run shows as text makes a difference to most machines. On such a machine the log, the messages and the
reading of the settings can be left out: a run comes to what its command comes to, with the same deeds, and leaves the
machine as the command does (`play_run`). Where `ends_run` says what a run can be like with any answers, this says what it
is like on one machine, so two runs can be compared by their commands.
-/

namespace PenRail

open Program (Only)

/-- What only turns the result into another one exchanges nothing. -/
theorem Program.play_map {I : Interface} {σ α β : Type} (answer : Answerer I σ) (f : α → β) (p : Program I α) (s : σ) :
    (f <$> p).play answer s = ⟨f (p.play answer s).result, (p.play answer s).state, (p.play answer s).history⟩ := by
  rw [map_eq_pure_bind, play_bind]
  simp [Played.behind]

variable {σ : Type} {answer : Answerer Host.interface σ}

/-- Text makes no difference to the machine. -/
def Host.Deaf (answer : Answerer Host.interface σ) : Prop :=
  ∀ (q : Host.Request) (s : σ), q.isText = true → (answer q s).2 = s

namespace Command

/-- The machine as a command meets it where nobody looks at the log. -/
def on (answer : Answerer Host.interface σ) : Answerer interface σ
  | .host q => answer q
  | .log _ => pure ()

/-- Only saying something leaves the machine as it is. -/
theorem play_said {α : Type} (hdeaf : Host.Deaf answer) {p : Program interface α} (hp : p.Only Request.IsSaid) (s : σ) :
    (p.play (on answer) s).state = s ∧ deeds (p.play (on answer) s).history = [] := by
  refine ⟨?_, deeds_of_said hp (p.ends_play (on answer) s)⟩
  induction p generalizing s with
  | done a => rfl
  | ask q next ih =>
    obtain ⟨hsaid, hnext⟩ := hp
    have hsame : (on answer q s).2 = s := by
      cases q with
      | host q => exact hdeaf q s hsaid
      | log entry => rfl
    rw [Program.play_ask, Played.behind_state, ih _ (hnext _), hsame]

end Command

namespace Run

open CommandLine (Invocation)

variable {env : Environment} {files : Config.Files} {invocation : Invocation}

/-- How the machine and a command see the same. -/
structure Shown {α : Type} (r : Played Host.interface σ α) (c : Played Command.interface σ α) : Prop where
  result : r.result = c.result
  state : r.state = c.state
  deeds : Host.deeds r.history = Command.deeds c.history

/-- Showing the log makes no difference. -/
theorem play_showing {α : Type} (hdeaf : Host.Deaf answer) (filter : Log.Filter) (p : Program Command.interface α) (s : σ) :
    Shown ((p.under (showing filter)).play answer s) (p.play (Command.on answer) s) := by
  induction p generalizing s with
  | done a => exact ⟨rfl, rfl, rfl⟩
  | ask q next ih =>
    cases q with
    | host q =>
      obtain ⟨hresult, hstate, hdeeds⟩ := ih (answer q s).1 (answer q s).2
      refine ⟨hresult, hstate, ?_⟩
      have hcons := congrArg (Host.deeds [⟨q, (answer q s).1⟩] ++ ·) hdeeds
      rw [Program.play_ask, Played.behind_history, Command.deeds_append]
      exact (Host.deeds_append [⟨q, (answer q s).1⟩] _).trans hcons
    | log entry =>
      obtain ⟨hresult, hstate, hdeeds⟩ := ih () s
      have hlog : Command.deeds ((Program.ask (I := Command.interface) (.log entry) next).play (Command.on answer) s).history =
          Command.deeds ((next ()).play (Command.on answer) s).history :=
        rfl
      by_cases hshown : filter.shows logTarget entry.level = true
      · have hunder : (Program.ask (I := Command.interface) (.log entry) next).under (showing filter) =
            .ask (I := Host.interface) (.report entry.shown) fun _ => (next ()).under (showing filter) := by
          simp only [Program.under_ask, showing, if_pos hshown]
          rfl
        have hsame : (answer (.report entry.shown) s).2 = s := hdeaf _ s rfl
        rw [hunder, Program.play_ask, hsame]
        exact ⟨hresult, hstate, hdeeds⟩
      · have hunder : (Program.ask (I := Command.interface) (.log entry) next).under (showing filter) =
            (next ()).under (showing filter) := by
          simp only [Program.under_ask, showing, if_neg hshown]
          rfl
        rw [hunder]
        exact ⟨hresult, hstate, hdeeds⟩

theorem play_reportAll (hdeaf : Host.Deaf answer) (lines : List String) (s : σ) :
    ((reportAll lines).play answer s).state = s ∧ Host.deeds ((reportAll lines).play answer s).history = [] := by
  refine ⟨?_, deeds_reportAll ((reportAll lines).ends_play answer s)⟩
  induction lines with
  | nil => rfl
  | cons line rest ih =>
    have hsame : (answer (.report (line ++ "\n")) s).2 = s := hdeaf _ s rfl
    have hstate : ((reportAll (line :: rest)).play answer s).state =
        ((reportAll rest).play answer (answer (.report (line ++ "\n")) s).2).state :=
      rfl
    rw [hstate, hsame, ih]

theorem said_exitCode (result : Except Command.Failure Unit) : (exitCode result).Only Command.Request.IsSaid := by
  rcases result with failure | u
  · exact (Command.said_report _).bind fun _ => trivial
  · trivial

/-- Once a command is over, its outcome is the exit code, and what is left to do is to say something. -/
theorem play_closing (hdeaf : Host.Deaf answer) {τ : Type} (t : Turn τ (Except Command.Failure Unit)) (s : σ) :
    let k := (Process.closing exitCode t).play (Command.on answer) s
    k.result.result? = t.result?.map codeOf ∧ k.state = s ∧ Command.deeds k.history = [] := by
  rcases t with state | result
  · exact ⟨rfl, rfl, rfl⟩
  · intro k
    have hsaid : (Process.closing exitCode (.over result : Turn τ _)).Only Command.Request.IsSaid :=
      (said_exitCode result).bind fun _ => trivial
    refine ⟨?_, Command.play_said hdeaf hsaid s⟩
    cases result with
    | error failure => rfl
    | ok u => rfl

/-- Where the settings cannot be used nothing is done. -/
theorem play_configured_refused (hdeaf : Host.Deaf answer) {s : Config.Settings} {invalid : Config.Invalid}
    (hcheck : s.check = .error invalid) (command : CommandLine.Command) (n : Nat) (start : σ) :
    let k := ((configured s command).unroll n).play (Command.on answer) start
    k.result.result? = some 1 ∧ k.state = start ∧ Command.deeds k.history = [] := by
  have hconfigured : configured s command =
      .once (Command.report ("Error: " ++ invalid.message) >>= fun _ => pure 1) := by
    rw [configured, hcheck]
  have hsaid : (Turn.over (σ := Empty) <$>
      (Command.report ("Error: " ++ invalid.message) >>= fun _ => pure (1 : UInt8))).Only Command.Request.IsSaid := by
    rw [map_eq_pure_bind]
    exact Only.bind (Only.bind (Command.said_report _) fun _ => trivial) fun _ => trivial
  rw [hconfigured, Process.unroll_once]
  exact ⟨rfl, Command.play_said hdeaf hsaid start⟩

theorem play_configured (hdeaf : Host.Deaf answer) {s : Config.Settings} (hcheck : s.check = .ok ())
    (command : CommandLine.Command) (n : Nat) (start : σ) :
    let k := ((configured s command).unroll n).play (Command.on answer) start
    let c := ((commandProcess s command).unroll n).play (Command.on answer) start
    k.result.result? = c.result.result?.map codeOf ∧ k.state = c.state ∧
      Command.deeds k.history = Command.deeds c.history := by
  have hconfigured : configured s command = (commandProcess s command).followedBy exitCode := by
    rw [configured, hcheck]
  rw [hconfigured]
  intro k c
  have hk : k = ((Process.closing exitCode c.result).play (Command.on answer) c.state).behind c.history :=
    (congrArg (·.play (Command.on answer) start) (Process.unroll_followedBy (commandProcess s command) exitCode n)).trans
      (Program.play_bind (Command.on answer) _ _ start)
  obtain ⟨hresult, hstate, hdeeds⟩ := play_closing hdeaf c.result c.state
  have hhistory : Command.deeds k.history = Command.deeds (c.history ++ _) := congrArg (Command.deeds ·.history) hk
  refine ⟨(congrArg (·.result.result?) hk).trans hresult, (congrArg Played.state hk).trans hstate, ?_⟩
  rw [hhistory, Command.deeds_append, hdeeds, List.append_nil]

/-- What comes before the command only says something. -/
theorem play_invoked (hdeaf : Host.Deaf answer) (n : Nat) (start : σ) :
    let r := ((invoked env files invocation).unroll n).play answer start
    let k := ((configured (invocation.given.settings files env.home).1 invocation.command).unroll n).play
      (Command.on answer) start
    r.result.result? = k.result.result? ∧ r.state = k.state ∧ Host.deeds r.history = Command.deeds k.history := by
  intro r k
  generalize hentries : (invocation.given.settings files env.home).2 = entries
  let reports := (reportAll (filter env invocation.command).2).play answer start
  let inner := sayAll entries >>= fun _ =>
    (configured (invocation.given.settings files env.home).1 invocation.command).unroll n
  let shown := (inner.under (showing (filter env invocation.command).1)).play answer start
  have hr : r = shown.behind reports.history := by
    have hunroll : (invoked env files invocation).unroll n =
        reportAll (filter env invocation.command).2 >>= fun _ => inner.under (showing (filter env invocation.command).1) := by
      subst hentries
      simp only [invoked]
      rw [Process.unroll_after, Process.unroll_under, Process.unroll_after]
      rfl
    have hstate : reports.state = start := (play_reportAll hdeaf _ start).1
    refine (congrArg (·.play answer start) hunroll).trans ((Program.play_bind answer _ _ start).trans ?_)
    exact congrArg (fun s => ((inner.under (showing (filter env invocation.command).1)).play answer s).behind reports.history)
      hstate
  have hinner : inner.play (Command.on answer) start = k.behind ((sayAll entries).play (Command.on answer) start).history := by
    have hstate : ((sayAll entries).play (Command.on answer) start).state = start :=
      (Command.play_said hdeaf (said_sayAll entries) start).1
    refine (Program.play_bind (Command.on answer) _ _ start).trans ?_
    rw [hstate]
  obtain ⟨hresult, hstate, hdeeds⟩ := play_showing hdeaf (filter env invocation.command).1 inner start
  have hreports : Host.deeds reports.history = [] := (play_reportAll hdeaf _ start).2
  have hsaid : Command.deeds ((sayAll entries).play (Command.on answer) start).history = [] :=
    (Command.play_said hdeaf (said_sayAll entries) start).2
  rw [hinner] at hresult hstate hdeeds
  rw [Played.behind_history, Command.deeds_append, hsaid] at hdeeds
  have hhistory : Host.deeds r.history = Host.deeds (reports.history ++ shown.history) := congrArg (Host.deeds ·.history) hr
  refine ⟨?_, (congrArg Played.state hr).trans hstate, ?_⟩
  · exact (congrArg (·.result.result?) hr).trans (congrArg Turn.result? hresult)
  · rw [hhistory, Host.deeds_append, hreports]
    exact hdeeds

end Run

/-- A run of the program that was told what to do comes to what its command comes to, or it refuses its settings. -/
theorem play_run (hdeaf : Host.Deaf answer) {env : Environment} {files : Config.Files} {arguments : List String}
    {invocation : CommandLine.Invocation} (hparse : CommandLine.parse env.configPath arguments = .ok invocation) (n : Nat)
    (start : σ) :
    let s := (invocation.given.settings files env.home).1
    let r := ((run env files arguments).unroll n).play answer start
    let c := ((Run.commandProcess s invocation.command).unroll n).play (Command.on answer) start
    ((∃ invalid, s.check = .error invalid) ∧ r.result.result? = some 1 ∧ r.state = start ∧ Host.deeds r.history = []) ∨
      (s.check = .ok () ∧ r.result.result? = c.result.result?.map Run.codeOf ∧ r.state = c.state ∧
        Host.deeds r.history = Command.deeds c.history) := by
  have hrun : run env files arguments = Run.invoked env files invocation := by
    rw [run, hparse]
  rw [hrun]
  intro s r c
  obtain ⟨hresult, hstate, hdeeds⟩ := @Run.play_invoked _ _ env files invocation hdeaf n start
  cases hcheck : s.check with
  | error invalid =>
    obtain ⟨hcode, hsame, hnone⟩ := Run.play_configured_refused hdeaf hcheck invocation.command n start
    exact .inl ⟨⟨invalid, rfl⟩, hresult.trans hcode, hstate.trans hsame, hdeeds.trans hnone⟩
  | ok u =>
    obtain ⟨hcode, hsame, hcommand⟩ := Run.play_configured hdeaf hcheck invocation.command n start
    exact .inr ⟨rfl, hresult.trans hcode, hstate.trans hsame, hdeeds.trans hcommand⟩

/-- An action on the rail has no rounds. -/
theorem play_run_power (hdeaf : Host.Deaf answer) {env : Environment} {files : Config.Files} {arguments : List String}
    {action : CommandLine.PowerAction} {given : CommandLine.Given}
    (hparse : CommandLine.parse env.configPath arguments = .ok ⟨.power action, given⟩) (n : Nat) (start : σ) :
    let s := (given.settings files env.home).1
    let r := ((run env files arguments).unroll n).play answer start
    let c := (Command.power s.regulator action).run.play (Command.on answer) start
    ((∃ invalid, s.check = .error invalid) ∧ r.result.result? = some 1 ∧ r.state = start ∧ Host.deeds r.history = []) ∨
      (s.check = .ok () ∧ r.result.result? = some (Run.codeOf c.result) ∧ r.state = c.state ∧
        Host.deeds r.history = Command.deeds c.history) := by
  intro s r c
  have honce : ((Run.commandProcess s (.power action)).unroll n).play (Command.on answer) start =
      ⟨.over c.result, c.state, c.history⟩ := by
    have hunroll := Process.unroll_once (Command.power s.regulator action).run n
    exact (congrArg (·.play (Command.on answer) start) hunroll).trans (Program.play_map _ _ _ _)
  rcases play_run hdeaf hparse n start with hrefused | ⟨hcheck, hcode, hstate, hdeeds⟩
  · exact .inl hrefused
  · rw [honce] at hcode hstate hdeeds
    exact .inr ⟨hcheck, hcode, hstate, hdeeds⟩

end PenRail
