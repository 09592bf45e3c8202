import PenRail.Proofs.Layers
import PenRail.Run

/-!
# What a run does

The program begins with the command line, the log and the settings, and a command follows. None of this but the command does
anything: it only says something. `deeds` are the exchanges of a history where something is done, and `ends_run` says that a
run of the whole program has the deeds of its command, or none if the settings cannot be used. So what a command does with
adapters, lines and the input layer can be looked at on its own.

Some commands print what they find. `effects` are the deeds and the printed lines, in order, and `ends_run_effects` is the same
statement for these.
-/

namespace PenRail

open Program (Only Unfolds ends_bind ends_done ends_map ends_request ends_under)

/-! ## Deeds -/

namespace Host

/-- Shows text, and does nothing. -/
def Request.isText : Request → Bool
  | .print _ | .report _ | .usage _ => true
  | _ => false

/-- The exchanges of a history where something is done: all that is not text. -/
def deeds (h : History interface) : History interface :=
  h.filter fun x => !x.request.isText

theorem deeds_append (h₁ h₂ : History interface) : deeds (h₁ ++ h₂) = deeds h₁ ++ deeds h₂ :=
  List.filter_append h₁ h₂

theorem deeds_eq_nil {h : History interface} (htext : ∀ x ∈ h, x.request.isText = true) : deeds h = [] := by
  rw [deeds, List.filter_eq_nil_iff]
  intro x hx
  simp [htext x hx]

/-- Shows text that is not part of the output. -/
def Request.isMessage : Request → Bool
  | .report _ | .usage _ => true
  | _ => false

/-- The exchanges of a history where something is done or printed: all that is not a message. -/
def effects (h : History interface) : History interface :=
  h.filter fun x => !x.request.isMessage

theorem effects_append (h₁ h₂ : History interface) : effects (h₁ ++ h₂) = effects h₁ ++ effects h₂ :=
  List.filter_append h₁ h₂

theorem effects_eq_nil {h : History interface} (hmessage : ∀ x ∈ h, x.request.isMessage = true) : effects h = [] := by
  rw [effects, List.filter_eq_nil_iff]
  intro x hx
  simp [hmessage x hx]

/-- The deeds are the effects without the printed lines. -/
theorem deeds_effects (h : History interface) : deeds (effects h) = deeds h := by
  rw [deeds, effects, List.filter_filter, deeds]
  refine List.filter_congr fun x _ => ?_
  cases x.request <;> rfl

end Host

namespace Command

/-- The exchange with the machine. -/
def toHost? : Exchange interface → Option (Exchange Host.interface)
  | ⟨.host q, reply⟩ => some ⟨q, reply⟩
  | ⟨.log _, _⟩ => none

/-- What a command does: its exchanges with the machine that are not text. -/
def deeds (h : History interface) : History Host.interface :=
  Host.deeds (h.filterMap toHost?)

@[simp] theorem deeds_nil : deeds [] = [] := rfl

@[simp] theorem deeds_append (h₁ h₂ : History interface) : deeds (h₁ ++ h₂) = deeds h₁ ++ deeds h₂ := by
  rw [deeds, List.filterMap_append, Host.deeds_append]
  rfl

theorem deeds_cons (x : Exchange interface) (h : History interface) : deeds (x :: h) = deeds [x] ++ deeds h :=
  deeds_append [x] h

/-- What a command does and prints: its exchanges with the machine that are not messages. -/
def effects (h : History interface) : History Host.interface :=
  Host.effects (h.filterMap toHost?)

@[simp] theorem effects_nil : effects [] = [] := rfl

@[simp] theorem effects_append (h₁ h₂ : History interface) : effects (h₁ ++ h₂) = effects h₁ ++ effects h₂ := by
  rw [effects, List.filterMap_append, Host.effects_append]
  rfl

theorem effects_cons (x : Exchange interface) (h : History interface) : effects (x :: h) = effects [x] ++ effects h :=
  effects_append [x] h

theorem deeds_effects (h : History interface) : Host.deeds (effects h) = deeds h :=
  Host.deeds_effects _

section
variable {P : Request → Prop} {h : History interface} {y : Exchange Host.interface}

/-- What the machine was asked for was asked for by the command. -/
theorem of_mem_toHost (hasks : ∀ x ∈ h, P x.request) (hy : y ∈ h.filterMap toHost?) : P (.host y.request) := by
  obtain ⟨⟨q, r⟩, hx, hxy⟩ := List.mem_filterMap.1 hy
  cases q with
  | host q =>
    obtain rfl := Option.some.inj hxy
    exact hasks _ hx
  | log entry => cases hxy

theorem of_mem_deeds (hasks : ∀ x ∈ h, P x.request) (hy : y ∈ deeds h) : P (.host y.request) :=
  of_mem_toHost hasks (List.mem_filter.1 hy).1

theorem of_mem_effects (hasks : ∀ x ∈ h, P x.request) (hy : y ∈ effects h) : P (.host y.request) :=
  of_mem_toHost hasks (List.mem_filter.1 hy).1

end

/-- An entry in the log, or text. -/
def Request.IsSaid : Request → Prop
  | .host q => q.isText = true
  | .log _ => True

/-- An entry in the log, or a message. -/
def Request.IsAside : Request → Prop
  | .host q => q.isMessage = true
  | .log _ => True

theorem Request.IsAside.isSaid {q : Request} (hq : q.IsAside) : q.IsSaid := by
  cases q with
  | log entry => trivial
  | host q =>
    cases q with
    | report | usage => rfl
    | _ => cases hq

/-- What is only said is no deed. -/
theorem deeds_of_said {α : Type} {p : Program interface α} (hp : p.Only Request.IsSaid) {h : History interface} {a : α}
    (he : p.Ends h a) : deeds h = [] :=
  Host.deeds_eq_nil fun _ hy => of_mem_toHost (hp.ends he) hy

/-- What is only said aside has no effect. -/
theorem effects_of_aside {α : Type} {p : Program interface α} (hp : p.Only Request.IsAside) {h : History interface} {a : α}
    (he : p.Ends h a) : effects h = [] :=
  Host.effects_eq_nil fun _ hy => of_mem_toHost (hp.ends he) hy

theorem aside_say (level : Log.Level) (text : String) : (say level text).Only Request.IsAside :=
  ⟨trivial, fun _ => trivial⟩

theorem aside_report (line : String) : (report line).Only Request.IsAside :=
  ⟨rfl, fun _ => trivial⟩

theorem said_report (line : String) : (report line).Only Request.IsSaid :=
  (aside_report line).mono fun _ => Request.IsAside.isSaid

end Command

/-! ## The whole program -/

namespace Run

open CommandLine (Invocation)

variable {env : Environment} {files : Config.Files} {invocation : Invocation} {h : History Host.interface}

/-- Showing the log adds no effects, and takes none away. -/
theorem effects_showing {filter : Log.Filter} {outer : History Command.interface} (hu : Unfolds (showing filter) outer h) :
    Host.effects h = Command.effects outer := by
  induction hu with
  | nil => rfl
  | @cons x outer stretch inner answered _ ih =>
    have hstretch : Host.effects stretch = Command.effects [x] := by
      obtain ⟨q, r⟩ := x
      cases q with
      | host q =>
        obtain rfl := ends_request.1 answered
        rfl
      | log entry =>
        simp only [showing] at answered
        split at answered
        · obtain rfl := ends_request.1 answered
          rfl
        · obtain ⟨rfl, -⟩ := ends_done.1 answered
          rfl
    rw [Host.effects_append, Command.effects_cons, hstretch, ih]

theorem effects_reportAll {lines : List String} (he : (reportAll lines).Ends h ()) : Host.effects h = [] := by
  induction lines generalizing h with
  | nil =>
    obtain ⟨rfl, -⟩ := ends_done.1 he
    rfl
  | cons line rest ih =>
    obtain ⟨_, _, later, rfl, hline, hrest⟩ := ends_bind.1 he
    obtain rfl := ends_request.1 hline
    rw [Host.effects_append, ih hrest]
    rfl

theorem deeds_reportAll {lines : List String} (he : (reportAll lines).Ends h ()) : Host.deeds h = [] := by
  rw [← Host.deeds_effects, effects_reportAll he]
  rfl

theorem aside_sayAll (entries : List Log.Entry) : (sayAll entries).Only Command.Request.IsAside := by
  induction entries with
  | nil => trivial
  | cons entry rest ih => exact (Command.aside_say entry.level entry.text).bind fun _ => ih

theorem said_sayAll (entries : List Log.Entry) : (sayAll entries).Only Command.Request.IsSaid :=
  (aside_sayAll entries).mono fun _ => Command.Request.IsAside.isSaid

/-- The exit code for what a command came to. -/
def codeOf : Except Command.Failure Unit → UInt8
  | .ok () => 0
  | .error _ => 1

theorem ends_exitCode {result : Except Command.Failure Unit} {inner : History Command.interface} {code : UInt8}
    (he : (exitCode result).Ends inner code) : Command.effects inner = [] ∧ code = codeOf result := by
  rcases result with failure | u
  · obtain ⟨_, _, _, rfl, hreport, hend⟩ := ends_bind.1 he
    obtain ⟨rfl, rfl⟩ := ends_done.1 hend
    rw [List.append_nil]
    exact ⟨Command.effects_of_aside (Command.aside_report _) hreport, rfl⟩
  · obtain ⟨rfl, rfl⟩ := ends_done.1 he
    exact ⟨rfl, rfl⟩

/-- Settings that cannot be used are reported, and that is all. Otherwise the command is run, and its outcome is the exit
code. -/
theorem ends_configured {s : Config.Settings} {command : CommandLine.Command} {n : Nat} {inner : History Command.interface}
    {turn : Turn (configured s command).State UInt8} (he : ((configured s command).unroll n).Ends inner turn) :
    ((∃ invalid, s.check = .error invalid) ∧ Command.effects inner = [] ∧ turn.result? = some 1) ∨
      (s.check = .ok () ∧ ∃ outer outcome, ((commandProcess s command).unroll n).Ends outer outcome ∧
        Command.effects inner = Command.effects outer ∧ turn.result? = outcome.result?.map codeOf) := by
  generalize hp : configured s command = p at turn he
  unfold configured at hp
  cases hcheck : s.check with
  | error invalid =>
    rw [hcheck] at hp
    subst hp
    rw [Process.unroll_once] at he
    obtain ⟨code, rfl, hreport⟩ := ends_map.1 he
    obtain ⟨_, _, _, rfl, hsaid, hcode⟩ := ends_bind.1 hreport
    obtain ⟨rfl, rfl⟩ := ends_done.1 hcode
    rw [List.append_nil]
    exact .inl ⟨⟨invalid, rfl⟩, Command.effects_of_aside (Command.aside_report _) hsaid, rfl⟩
  | ok u =>
    rw [hcheck] at hp
    subst hp
    rw [Process.unroll_followedBy] at he
    obtain ⟨outer, outcome, later, rfl, hcommand, hclosing⟩ := ends_bind.1 he
    refine .inr ⟨rfl, outer, outcome, hcommand, ?_⟩
    rw [Command.effects_append]
    rcases outcome with state | result
    · obtain ⟨rfl, rfl⟩ := ends_done.1 hclosing
      exact ⟨List.append_nil _, rfl⟩
    · obtain ⟨code, rfl, hcode⟩ := ends_map.1 hclosing
      obtain ⟨hsaid, rfl⟩ := ends_exitCode hcode
      rw [hsaid]
      exact ⟨List.append_nil _, rfl⟩

/-- A run of the program that was told what to do has the effects of what it was told to do. -/
theorem ends_invoked {n : Nat} {turn : Turn (invoked env files invocation).State UInt8}
    (he : ((invoked env files invocation).unroll n).Ends h turn) :
    ∃ inner, ((configured (invocation.given.settings files env.home).1 invocation.command).unroll n).Ends inner turn ∧
      Host.effects h = Command.effects inner := by
  have hunroll : (invoked env files invocation).unroll n =
      reportAll (filter env invocation.command).2 >>= fun _ =>
        (sayAll (invocation.given.settings files env.home).2 >>= fun _ =>
          (configured (invocation.given.settings files env.home).1 invocation.command).unroll n).under
            (showing (filter env invocation.command).1) := by
    simp only [invoked]
    rw [Process.unroll_after, Process.unroll_under, Process.unroll_after]
    rfl
  rw [hunroll] at he
  obtain ⟨complaints, _, shown, rfl, hcomplaints, hshown⟩ := ends_bind.1 he
  obtain ⟨outer, hends, hunfolds⟩ := ends_under hshown
  obtain ⟨said, _, inner, rfl, hsaid, hinner⟩ := ends_bind.1 hends
  refine ⟨inner, hinner, ?_⟩
  rw [Host.effects_append, effects_reportAll hcomplaints, effects_showing hunfolds, Command.effects_append,
    Command.effects_of_aside (aside_sayAll _) hsaid]
  rfl

end Run

section
variable {env : Environment} {files : Config.Files} {arguments : List String} {invocation : CommandLine.Invocation} {n : Nat}
  {h : History Host.interface} {turn : Turn (run env files arguments).State UInt8}

/-- Where a command line is understood, a run of the program has no effects and fails if the settings cannot be used, and else
has the effects of the command, whose outcome is the exit code. -/
theorem ends_run_effects (hparse : CommandLine.parse env.configPath arguments = .ok invocation)
    (he : ((run env files arguments).unroll n).Ends h turn) :
    let s := (invocation.given.settings files env.home).1
    ((∃ invalid, s.check = .error invalid) ∧ Host.effects h = [] ∧ turn.result? = some 1) ∨
      (s.check = .ok () ∧ ∃ outer outcome, ((Run.commandProcess s invocation.command).unroll n).Ends outer outcome ∧
        Host.effects h = Command.effects outer ∧ turn.result? = outcome.result?.map Run.codeOf) := by
  intro s
  generalize hp : run env files arguments = p at turn he
  obtain rfl : Run.invoked env files invocation = p := by rw [← hp, run, hparse]
  obtain ⟨inner, hinner, heffects⟩ := Run.ends_invoked he
  rw [heffects]
  exact Run.ends_configured hinner

/-- In particular a run has the deeds of the command. -/
theorem ends_run (hparse : CommandLine.parse env.configPath arguments = .ok invocation)
    (he : ((run env files arguments).unroll n).Ends h turn) :
    let s := (invocation.given.settings files env.home).1
    ((∃ invalid, s.check = .error invalid) ∧ Host.deeds h = [] ∧ turn.result? = some 1) ∨
      (s.check = .ok () ∧ ∃ outer outcome, ((Run.commandProcess s invocation.command).unroll n).Ends outer outcome ∧
        Host.deeds h = Command.deeds outer ∧ turn.result? = outcome.result?.map Run.codeOf) := by
  intro s
  rcases ends_run_effects hparse he with ⟨hinvalid, heffects, hcode⟩ | ⟨hcheck, outer, outcome, hcommand, heffects, hcode⟩
  · refine .inl ⟨hinvalid, ?_, hcode⟩
    rw [← Host.deeds_effects, heffects]
    rfl
  · refine .inr ⟨hcheck, outer, outcome, hcommand, ?_, hcode⟩
    rw [← Host.deeds_effects, heffects, Command.deeds_effects]

/-- With settings that can be used, a run of the program has the deeds of the command, whose outcome is the exit code. -/
theorem ends_run_of_check (hparse : CommandLine.parse env.configPath arguments = .ok invocation)
    (hcheck : (invocation.given.settings files env.home).1.check = .ok ())
    (he : ((run env files arguments).unroll n).Ends h turn) :
    ∃ outer outcome,
      ((Run.commandProcess (invocation.given.settings files env.home).1 invocation.command).unroll n).Ends outer outcome ∧
        Host.deeds h = Command.deeds outer ∧ turn.result? = outcome.result?.map Run.codeOf := by
  rcases ends_run hparse he with ⟨⟨invalid, hinvalid⟩, -⟩ | ⟨-, hcommand⟩
  · cases hinvalid.symm.trans hcheck
  · exact hcommand

end

end PenRail
