import PenRail.Proofs.Abreast
import PenRail.Proofs.Command.Played
import PenRail.Proofs.Command.PowerEnable

/-!
# Power good is inverted once

Three settings could invert the power-good line: an attribute of the line in the system, the file and the command line. The
attribute is switched off before the line is read, and of the other two one is enough and both are no more. So a run on a
machine whose line is wired the other way round, with the other polarity in its settings, is the same run: the same
transfers with the same answers, the same delays, as many readings of the line, and the same exit code.

The two runs go abreast (`Abreast`) part by part: reaching the rail asks for nothing that a level has a part in and leaves
the attribute off in both; from there on the controller hears the same of the line in both.
-/

namespace PenRail

open CommandLine (Given PowerAction)
open Config (Files RegulatorSettings Settings)
open Program (Abreast AnswersAlike abreast_done abreast_request)

/-- The same settings with one polarity or the other. -/
def Config.RegulatorSettings.withPolarity (s : RegulatorSettings) (low : Bool) : RegulatorSettings :=
  { s with powerGoodActiveLow := low }

/-! ## Lines that are inverted -/

namespace Host

variable {σ : Type}

/-- The answer as it comes through where the readings of some lines are inverted. A reading that fails stays as it is. -/
def inverting (lines : UInt64 → Bool) : (q : Request) → q.Reply → q.Reply
  | .readLine line, level => level.map (· != lines line)
  | _, reply => reply

/-- An exchange as it would be with these lines inverted. -/
def turned (lines : UInt64 → Bool) (x : Exchange interface) : Exchange interface :=
  ⟨x.request, inverting lines x.request x.reply⟩

/-- A machine with some lines wired the other way round. -/
def rewired (lines : UInt64 → Bool) (machine : Answerer interface σ) : Answerer interface σ := fun q s =>
  (inverting lines q (machine q s).1, (machine q s).2)

/-- Which lines the system inverts after an exchange: setting a line up for what is on the wire switches that off. -/
def attributesAfter (attributes : UInt64 → Bool) : Exchange interface → UInt64 → Bool
  | ⟨.setUpLine line .activeLow, .ok _⟩ => fun l => if l = line then false else attributes l
  | _ => attributes

/-- A machine behind a system that inverts what is read of some lines, as its attributes say. -/
def behindAttributes (machine : Answerer interface σ) : Answerer interface (σ × (UInt64 → Bool)) := fun q s =>
  (inverting s.2 q (machine q s.1).1, ((machine q s.1).2, attributesAfter s.2 ⟨q, (machine q s.1).1⟩))

/-- The transfers of a history, with what came of them. -/
def transfers (h : History interface) : History interface :=
  h.filter fun x => match x.request with
    | .transfer _ _ => true
    | _ => false

/-- How often a line was read. -/
def pinReads (h : History interface) : Nat :=
  h.countP fun x => match x.request with
    | .readLine _ => true
    | _ => false

/-- The delays of a history, in nanoseconds. -/
def delays (h : History interface) : List Nat :=
  h.filterMap fun x => match x.request with
    | .delay nanoseconds | .sleep nanoseconds => some nanoseconds
    | _ => none

theorem deaf_behindAttributes {machine : Answerer interface σ} (hdeaf : Deaf machine) : Deaf (behindAttributes machine) := by
  intro q s htext
  have hsame : (machine q s.1).2 = s.1 := hdeaf q s.1 htext
  have hattributes : attributesAfter s.2 ⟨q, (machine q s.1).1⟩ = s.2 := by
    cases q <;> first | rfl | cases htext
  exact Prod.ext hsame hattributes

theorem deaf_rewired (lines : UInt64 → Bool) {machine : Answerer interface σ} (hdeaf : Deaf machine) :
    Deaf (rewired lines machine) :=
  hdeaf

theorem inverting_of_not_readLine {lines : UInt64 → Bool} {q : Request} (hq : ∀ line, q ≠ .readLine line) (r : q.Reply) :
    inverting lines q r = r := by
  cases q with
  | readLine line => exact absurd rfl (hq line)
  | _ => rfl

theorem attributesAfter_false {attributes : UInt64 → Bool} {line : UInt64} (h : attributes line = false)
    (x : Exchange interface) : attributesAfter attributes x line = false := by
  unfold attributesAfter
  split
  · split
    · rfl
    · exact h
  · exact h

/-- A line that was set up for what is on the wire is not inverted. -/
theorem attributesAfter_activeLow (attributes : UInt64 → Bool) (line : UInt64) (u : Unit) :
    attributesAfter attributes ⟨.setUpLine line .activeLow, .ok u⟩ line = false := by
  simp [attributesAfter]

theorem transfers_turned (lines : UInt64 → Bool) (h : History interface) : transfers (h.map (turned lines)) = transfers h := by
  induction h with
  | nil => rfl
  | cons x h ih =>
    obtain ⟨q, r⟩ := x
    cases q <;> simp [transfers, turned, inverting] at ih ⊢ <;> exact ih

theorem pinReads_turned (lines : UInt64 → Bool) (h : History interface) : pinReads (h.map (turned lines)) = pinReads h := by
  rw [pinReads, List.countP_map]
  rfl

theorem delays_turned (lines : UInt64 → Bool) (h : History interface) : delays (h.map (turned lines)) = delays h := by
  rw [delays, List.filterMap_map]
  rfl

theorem transfers_deeds (h : History interface) : transfers (deeds h) = transfers h := by
  rw [transfers, transfers, deeds, List.filter_filter]
  congr 1
  funext x
  obtain ⟨q, r⟩ := x
  cases q <;> rfl

theorem pinReads_deeds (h : History interface) : pinReads (deeds h) = pinReads h := by
  rw [pinReads, pinReads, deeds, List.countP_filter]
  congr 1
  funext x
  obtain ⟨q, r⟩ := x
  cases q <;> rfl

theorem delays_deeds (h : History interface) : delays (deeds h) = delays h := by
  rw [delays, delays, deeds, List.filterMap_filter]
  congr 1
  funext x
  obtain ⟨q, r⟩ := x
  cases q <;> rfl

end Host

namespace Command

/-! ## Two machines, the lines of one wired the other way round -/

/-- An exchange of a command as it would be with these lines inverted. -/
def turned (lines : UInt64 → Bool) : Exchange interface → Exchange interface
  | ⟨.host q, reply⟩ => ⟨.host q, Host.inverting lines q reply⟩
  | x => x

theorem deeds_turned (lines : UInt64 → Bool) (h : History interface) :
    deeds (h.map (turned lines)) = (deeds h).map (Host.turned lines) := by
  induction h with
  | nil => rfl
  | cons x h ih =>
    rw [List.map_cons, deeds_cons, deeds_cons x, List.map_append, ih]
    congr 1
    obtain ⟨q, r⟩ := x
    cases q with
    | host q => cases q <;> rfl
    | log entry => rfl

/-- All that a command can ask for but the level of a line. -/
def Request.NoLevel : Request → Prop
  | .host (.readLine _) => False
  | _ => True

/-- The same devices behind the two machines, with the attribute of some lines off in both. -/
def SameDevices {σ : Type} (off : UInt64 → Prop) (s t : σ × (UInt64 → Bool)) : Prop :=
  t.1 = s.1 ∧ ∀ line, off line → s.2 line = false ∧ t.2 line = false

theorem SameDevices.none {σ : Type} {off : UInt64 → Prop} {s t : σ × (UInt64 → Bool)} (h : SameDevices off s t) :
    SameDevices (fun _ => False) s t :=
  ⟨h.1, fun _ hoff => hoff.elim⟩

section

variable {σ : Type} (machine : Answerer Host.interface σ) (wires : UInt64 → Bool)

/-- Two programs go abreast on the machine and on the one that is wired the other way round. -/
abbrev GoAbreast {α β : Type} (before : σ × (UInt64 → Bool) → σ × (UInt64 → Bool) → Prop)
    (after : α → β → σ × (UInt64 → Bool) → σ × (UInt64 → Bool) → Prop) (p : Program interface α)
    (q : Program interface β) : Prop :=
  Abreast (on (Host.behindAttributes machine)) (on (Host.behindAttributes (Host.rewired wires machine)))
    (turned wires) before after p q

variable {machine wires} {off : UInt64 → Prop}

/-- What has nothing to do with a level is answered alike. -/
theorem answersAlike_of_noLevel {q : Request} (hq : q.NoLevel) :
    AnswersAlike (on (Host.behindAttributes machine)) (on (Host.behindAttributes (Host.rewired wires machine)))
      (turned wires) (SameDevices off) q := by
  intro s t hst
  cases q with
  | log entry => exact ⟨rfl, hst, rfl⟩
  | host q =>
    have hread : ∀ line, q ≠ .readLine line := by
      rintro line rfl
      exact hq
    obtain ⟨hsame, hoff⟩ := hst
    have hsecond : on (Host.behindAttributes (Host.rewired wires machine)) (.host q) t =
        ((machine q s.1).1, ((machine q s.1).2, Host.attributesAfter t.2 ⟨q, (machine q s.1).1⟩)) := by
      simp only [on, Host.behindAttributes, Host.rewired, Host.inverting_of_not_readLine hread, hsame]
    have hfirst : on (Host.behindAttributes machine) (.host q) s =
        ((machine q s.1).1, ((machine q s.1).2, Host.attributesAfter s.2 ⟨q, (machine q s.1).1⟩)) := by
      simp only [on, Host.behindAttributes, Host.inverting_of_not_readLine hread]
    rw [hfirst, hsecond]
    refine ⟨rfl, ⟨rfl, ?_⟩, ?_⟩
    · intro line hline
      obtain ⟨hs, ht⟩ := hoff line hline
      exact ⟨Host.attributesAfter_false hs _, Host.attributesAfter_false ht _⟩
    · simp only [turned, Host.inverting_of_not_readLine hread]

/-- A program that reads no level goes abreast with itself. -/
theorem abreast_of_noLevel {α : Type} {p : Program interface α} {good : α → Prop} (hp : p.Meets { asks := Request.NoLevel } good) :
    GoAbreast machine wires (SameDevices off) (fun a b s t => b = a ∧ good a ∧ SameDevices off s t) p p :=
  hp.abreast fun _ hq => answersAlike_of_noLevel hq

/-! ## Tasks -/

/-- How two tasks have gone: both have come to something, or both to the same failure. -/
def Together {α β : Type} (good : α → β → σ × (UInt64 → Bool) → σ × (UInt64 → Bool) → Prop) :
    Except Failure α → Except Failure β → σ × (UInt64 → Bool) → σ × (UInt64 → Bool) → Prop
  | .ok a, .ok b, s, t => good a b s t
  | .error failure, .error failure', s, t => failure' = failure ∧ SameDevices (fun _ => False) s t
  | _, _, _, _ => False

/-- Both have come to the same, and to the same devices. -/
def Same {α : Type} (off : UInt64 → Prop) (a b : α) (s t : σ × (UInt64 → Bool)) : Prop :=
  b = a ∧ SameDevices off s t

theorem Together.same {α : Type} {r r' : Except Failure α} {s t : σ × (UInt64 → Bool)} (h : Together (Same off) r r' s t) :
    r' = r ∧ t.1 = s.1 := by
  cases r with
  | error failure =>
    cases r' with
    | error failure' => exact ⟨congrArg Except.error h.1, h.2.1⟩
    | ok b => exact h.elim
  | ok a =>
    cases r' with
    | error failure' => exact h.elim
    | ok b => exact ⟨congrArg Except.ok h.1, h.2.1⟩

variable {α β γ δ ε : Type} {before : σ × (UInt64 → Bool) → σ × (UInt64 → Bool) → Prop}

theorem abreast_task_bind {t : Task α} {t' : Task β} {f : α → Task γ} {g : β → Task δ}
    {between : α → β → σ × (UInt64 → Bool) → σ × (UInt64 → Bool) → Prop}
    {good : γ → δ → σ × (UInt64 → Bool) → σ × (UInt64 → Bool) → Prop}
    (ht : GoAbreast machine wires before (Together between) t.run t'.run)
    (hf : ∀ a b, GoAbreast machine wires (between a b) (Together good) (f a).run (g b).run) :
    GoAbreast machine wires before (Together good) (t >>= f).run (t' >>= g).run := by
  refine Abreast.bind ht fun r r' => ?_
  cases r with
  | error failure =>
    cases r' with
    | error failure' => exact abreast_done fun s t hst => hst
    | ok b =>
      intro s t hst
      exact hst.elim
  | ok a =>
    cases r' with
    | error failure' =>
      intro s t hst
      exact hst.elim
    | ok b => exact hf a b

/-- The same after a task that has come to the same. -/
theorem abreast_task_bind_same {t t' : Task α} {f : α → Task γ} {g : α → Task δ}
    {good : γ → δ → σ × (UInt64 → Bool) → σ × (UInt64 → Bool) → Prop}
    (ht : GoAbreast machine wires before (Together (Same off)) t.run t'.run)
    (hf : ∀ a, GoAbreast machine wires (SameDevices off) (Together good) (f a).run (g a).run) :
    GoAbreast machine wires before (Together good) (t >>= f).run (t' >>= g).run := by
  refine abreast_task_bind ht fun a b => ?_
  rintro s t ⟨rfl, hst⟩
  exact hf b s t hst

theorem abreast_attempt {failure : ε → Failure} {p q : Program interface (Except ε α)}
    {good : α → α → σ × (UInt64 → Bool) → σ × (UInt64 → Bool) → Prop}
    (hp : GoAbreast machine wires before
      (fun r r' s t => r' = r ∧ SameDevices (fun _ => False) s t ∧ ∀ a, r = .ok a → good a a s t) p q) :
    GoAbreast machine wires before (Together good) (attempt failure p).run (attempt failure q).run := by
  refine Abreast.bind hp fun r r' => abreast_done ?_
  rintro s t ⟨rfl, hsame, hgood⟩
  cases r' with
  | error e => exact ⟨rfl, hsame⟩
  | ok a => exact hgood a rfl

theorem abreast_attempt_same {failure : ε → Failure} {p q : Program interface (Except ε α)}
    (hp : GoAbreast machine wires before (Same off) p q) :
    GoAbreast machine wires before (Together (Same off)) (attempt failure p).run (attempt failure q).run := by
  refine abreast_attempt (hp.mono (fun _ _ h => h) ?_)
  rintro r r' s t ⟨hr, hsame⟩
  exact ⟨hr, hsame.none, fun a _ => ⟨rfl, hsame⟩⟩

theorem abreast_lift {p q : Program interface α} (hp : GoAbreast machine wires before (Same off) p q) :
    GoAbreast machine wires before (Together (Same off)) (liftM p : Task α).run (liftM q : Task α).run :=
  Abreast.bind hp fun _ _ => abreast_done fun _ _ hst => hst

theorem abreast_request_of_noLevel {q : Request} (hq : q.NoLevel) :
    GoAbreast machine wires (SameDevices off) (Same off) (Program.request (I := interface) q)
      (Program.request (I := interface) q) := by
  have hmeets : (Program.request (I := interface) q).Meets { asks := Request.NoLevel } fun _ => True :=
    Program.meets_request hq fun _ _ => trivial
  exact (abreast_of_noLevel hmeets).mono (fun _ _ h => h) fun a b s t h => ⟨h.1, h.2.2⟩

theorem abreast_print (line : String) :
    GoAbreast machine wires (SameDevices off) (Together (Same off)) (liftM (print line) : Task Unit).run
      (liftM (print line) : Task Unit).run :=
  abreast_lift (abreast_request_of_noLevel (q := .host (.print line)) trivial)

theorem abreast_say (level : Log.Level) (text : String) :
    GoAbreast machine wires (SameDevices off) (Together (Same off)) (liftM (say level text) : Task Unit).run
      (liftM (say level text) : Task Unit).run :=
  abreast_lift (abreast_request_of_noLevel (q := .log ⟨level, text⟩) trivial)

/-! ## Reaching the rail -/

theorem abreast_setUpLine (number : UInt64) :
    GoAbreast machine wires (SameDevices fun _ => False) (Together fun _ _ => SameDevices (· = number))
      (setUpLine number).run (setUpLine number).run := by
  refine abreast_task_bind_same (abreast_attempt_same (abreast_request_of_noLevel trivial)) fun _ => ?_
  refine abreast_task_bind_same (abreast_attempt_same (abreast_request_of_noLevel trivial)) fun _ => ?_
  -- where the last step works the attribute is off, whatever it was before
  let q : Host.Request := .setUpLine number .activeLow
  have halike : AnswersAlike (on (Host.behindAttributes machine)) (on (Host.behindAttributes (Host.rewired wires machine)))
      (turned wires) (SameDevices fun _ => False) (.host q) :=
    answersAlike_of_noLevel trivial
  refine abreast_attempt (abreast_request (I := interface) (q := .host q) ?_)
  intro s t hst
  obtain ⟨hreply, hsame, hturned⟩ := halike s t hst
  refine ⟨⟨hreply, hsame, ?_⟩, ?_⟩
  · intro u hok
    have hfirst : (machine q s.1).1 = .ok u := hok
    have hsecond : (machine q t.1).1 = .ok u := hreply.trans hok
    refine ⟨hsame.1, ?_⟩
    rintro line rfl
    have hs : Host.attributesAfter s.2 ⟨q, (machine q s.1).1⟩ line = false := by
      rw [hfirst]
      exact Host.attributesAfter_activeLow s.2 line u
    have ht : Host.attributesAfter t.2 ⟨q, (machine q t.1).1⟩ line = false := by
      rw [hsecond]
      exact Host.attributesAfter_activeLow t.2 line u
    exact ⟨hs, ht⟩
  · exact (congrArg (Exchange.mk (I := interface) (.host q)) hreply).trans hturned.symm

theorem noLevel_of_reaching {q : Request} (hq : reaching.asks q) : q.NoLevel := by
  cases q with
  | log entry => trivial
  | host q =>
    cases q with
    | readLine line => exact hq
    | _ => trivial

variable {s : RegulatorSettings} {low : Bool}

theorem PowerGoodLine.ofSettings_of_line {number : UInt64} (hs : s.powerGoodLine = some number) (low : Bool) :
    ofSettings (s.withPolarity low) = .line number low := by
  have hline : (s.withPolarity low).powerGoodLine = some number := hs
  rw [ofSettings, hline]
  rfl

theorem PowerGoodLine.ofSettings_of_no_line (hs : s.powerGoodLine = none) (low : Bool) :
    ofSettings (s.withPolarity low) = .unconfigured := by
  have hline : (s.withPolarity low).powerGoodLine = none := hs
  rw [ofSettings, hline]

/-- The lines whose attribute is off once the rail has been reached. -/
def lineOf (s : RegulatorSettings) (line : UInt64) : Prop :=
  s.powerGoodLine = some line

theorem abreast_reachRail (s : RegulatorSettings) (low : Bool) :
    GoAbreast machine wires (SameDevices fun _ => False)
      (Together fun a b s₁ t₁ => a = .ofSettings s ∧ b = .ofSettings (s.withPolarity low) ∧
        SameDevices (lineOf s) s₁ t₁)
      (reachRail s).run (reachRail (s.withPolarity low)).run := by
  have hplace : GoAbreast machine wires (SameDevices fun _ => False)
      (Together fun a b s₁ t₁ => a = ⟨s.bus, s.address.toUInt8⟩ ∧ Same (fun _ => False) a b s₁ t₁)
      (Place.reach s.bus s.address).run (Place.reach s.bus s.address).run := by
    have hreached : (Place.reach s.bus s.address).run.Meets { asks := reaching.asks }
        (Task.Reaches (fun _ => True) (· = ⟨s.bus, s.address.toUInt8⟩)) :=
      reached_place s.bus s.address
    refine (hreached.abreast fun q hq => answersAlike_of_noLevel (noLevel_of_reaching hq)).mono (fun _ _ h => h) ?_
    rintro r r' s₁ t₁ ⟨rfl, hgood, hsame⟩
    cases r' with
    | error failure => exact ⟨rfl, hsame⟩
    | ok place => exact ⟨hgood, rfl, hsame⟩
  have hline : GoAbreast machine wires (SameDevices fun _ => False)
      (Together fun a b s₁ t₁ => a = .ofSettings s ∧ b = .ofSettings (s.withPolarity low) ∧
        SameDevices (lineOf s) s₁ t₁)
      (PowerGoodLine.setUp s.powerGoodLine s.powerGoodActiveLow).run (PowerGoodLine.setUp s.powerGoodLine low).run := by
    cases hs : s.powerGoodLine with
    | none =>
      refine abreast_done fun s₁ t₁ hst => ⟨?_, (PowerGoodLine.ofSettings_of_no_line hs low).symm, hst.1, ?_⟩
      · exact (PowerGoodLine.ofSettings_of_no_line hs s.powerGoodActiveLow).symm
      · intro line hoff
        cases hs.symm.trans hoff
    | some number =>
      refine abreast_task_bind (abreast_setUpLine number) fun _ _ => abreast_done fun s₁ t₁ hst =>
        ⟨?_, (PowerGoodLine.ofSettings_of_line hs low).symm, hst.1, ?_⟩
      · exact (PowerGoodLine.ofSettings_of_line hs s.powerGoodActiveLow).symm
      · intro line hoff
        cases hs.symm.trans hoff
        exact hst.2 _ rfl
  refine abreast_task_bind hplace fun a b => ?_
  rintro s₁ t₁ ⟨rfl, rfl, hst⟩
  refine abreast_task_bind hline (fun a b => abreast_done ?_) s₁ t₁ hst
  rintro s₂ t₂ ⟨rfl, rfl, hst⟩
  exact ⟨rfl, rfl, hst⟩

/-! ## The rail as the controller has it -/

theorem inverting_of_off {attributes : UInt64 → Bool} {line : UInt64} (hoff : attributes line = false)
    (level : Except String Bool) : Host.inverting attributes (.readLine line) level = level := by
  simp only [Host.inverting, hoff]
  cases level with
  | error reason => rfl
  | ok level => cases level <;> rfl

/-- A reading brings what is on the wire, which is the other way round in the second run if its wire is. -/
theorem abreast_readLine {number : UInt64} (hs : s.powerGoodLine = some number) :
    GoAbreast machine wires (SameDevices (lineOf s))
      (fun level level' s₁ t₁ => level' = level.map (· != wires number) ∧ SameDevices (lineOf s) s₁ t₁)
      (host (.readLine number)) (host (.readLine number)) := by
  refine abreast_request (I := interface) (q := .host (.readLine number)) ?_
  rintro s₁ t₁ ⟨hsame, hoff⟩
  obtain ⟨hs₁, ht₁⟩ := hoff number hs
  have hfirst : (on (Host.behindAttributes machine) (.host (.readLine number)) s₁).1 = (machine (.readLine number) s₁.1).1 :=
    inverting_of_off hs₁ _
  have hsecond : (on (Host.behindAttributes (Host.rewired wires machine)) (.host (.readLine number)) t₁).1 =
      (machine (.readLine number) s₁.1).1.map (· != wires number) := by
    rw [← hsame]
    exact inverting_of_off ht₁ _
  rw [hfirst, hsecond]
  refine ⟨⟨rfl, ?_, hoff⟩, rfl⟩
  exact congrArg (fun s => (machine (.readLine number) s).2) hsame

section

variable (hwires : ∀ line, s.powerGoodLine = some line → wires line = (s.powerGoodActiveLow != low))

include hwires

/-- The two inversions of the second run, by the wire and by its settings, are the one of the first. -/
theorem abreast_readPowerGood :
    GoAbreast machine wires (SameDevices (lineOf s)) (Same (lineOf s)) (PowerGoodLine.ofSettings s).read
      (PowerGoodLine.ofSettings (s.withPolarity low)).read := by
  cases hs : s.powerGoodLine with
  | none =>
    have hfirst : PowerGoodLine.ofSettings s = .unconfigured :=
      PowerGoodLine.ofSettings_of_no_line hs s.powerGoodActiveLow
    rw [hfirst, PowerGoodLine.ofSettings_of_no_line hs low]
    refine Abreast.bind (abreast_request_of_noLevel (q := .log _) trivial) fun _ _ => abreast_done ?_
    rintro s₁ t₁ ⟨-, hst⟩
    exact ⟨rfl, hst⟩
  | some number =>
    have hfirst : PowerGoodLine.ofSettings s = .line number s.powerGoodActiveLow :=
      PowerGoodLine.ofSettings_of_line hs s.powerGoodActiveLow
    rw [hfirst, PowerGoodLine.ofSettings_of_line hs low]
    refine Abreast.bind (abreast_readLine hs) fun level level' => ?_
    rintro s₁ t₁ ⟨rfl, hst⟩
    cases level with
    | error reason =>
      refine Abreast.bind (abreast_request_of_noLevel (q := .log _) trivial) (fun _ _ => abreast_done ?_) s₁ t₁ hst
      rintro s₂ t₂ ⟨-, hst⟩
      exact ⟨rfl, hst⟩
    | ok level =>
      refine abreast_done (fun s₂ t₂ hst => ⟨?_, hst⟩) s₁ t₁ hst
      have hlevel : ((level != wires number) != low) = (level != s.powerGoodActiveLow) := by
        rw [hwires number hs]
        cases level <;> cases low <;> cases s.powerGoodActiveLow <;> rfl
      exact congrArg Except.ok hlevel

/-- So the controller hears the same in both. -/
theorem abreast_answer (q : Rail.Request) :
    GoAbreast machine wires (SameDevices (lineOf s)) (Same (lineOf s)) ((RailAccess.ofSettings s).answer q)
      ((RailAccess.ofSettings (s.withPolarity low)).answer q) := by
  cases q with
  | transfer t =>
    have htransfer : ((RailAccess.ofSettings s).place.transfer t).Meets { asks := Request.NoLevel } fun _ => True := by
      refine ⟨trivial, fun raw _ => ?_⟩
      cases raw <;> trivial
    exact (abreast_of_noLevel htransfer).mono (fun _ _ h => h) fun _ _ _ _ h => ⟨h.1, h.2.2⟩
  | powerGood => exact abreast_readPowerGood hwires
  | delay nanoseconds => exact abreast_request_of_noLevel (q := .host (.delay nanoseconds)) trivial
  | log entry => exact abreast_request_of_noLevel (q := .log entry) trivial

theorem abreast_run {α : Type} (p : Program Rail.interface (Rail.Result α)) :
    GoAbreast machine wires (SameDevices (lineOf s)) (Together (Same (lineOf s))) ((RailAccess.ofSettings s).run p).run
      ((RailAccess.ofSettings (s.withPolarity low)).run p).run :=
  abreast_attempt_same (Abreast.under (abreast_answer hwires) p)

theorem abreast_perform (action : PowerAction) :
    GoAbreast machine wires (SameDevices (lineOf s)) (Together (Same (lineOf s)))
      ((RailAccess.ofSettings s).perform action).run
      ((RailAccess.ofSettings (s.withPolarity low)).perform action).run := by
  cases action with
  | enable =>
    refine abreast_task_bind_same (abreast_run hwires _) fun _ => ?_
    refine abreast_task_bind_same (abreast_run hwires _) fun _ => ?_
    exact abreast_say _ _
  | disable =>
    refine abreast_task_bind_same (abreast_run hwires _) fun _ => ?_
    exact abreast_say _ _
  | status =>
    refine abreast_task_bind_same (abreast_run hwires _) fun _ => ?_
    refine abreast_task_bind_same (abreast_run hwires _) fun _ => ?_
    refine abreast_task_bind_same (abreast_print _) fun _ => ?_
    refine abreast_task_bind_same (abreast_print _) fun _ => ?_
    exact abreast_print _
  | vcom set =>
    cases set with
    | none =>
      refine abreast_task_bind_same (abreast_run hwires _) fun _ => ?_
      exact abreast_print _
    | some millivolts =>
      refine abreast_task_bind_same (abreast_run hwires _) fun _ => ?_
      refine abreast_task_bind_same (abreast_run hwires _) fun _ => ?_
      exact abreast_print _
  | temperature =>
    refine abreast_task_bind_same (abreast_run hwires _) fun _ => ?_
    exact abreast_print _

/-- The command goes abreast with itself, from the same devices to the same devices. -/
theorem abreast_power (action : PowerAction) :
    GoAbreast machine wires (SameDevices fun _ => False) (fun r r' s₁ t₁ => r' = r ∧ t₁.1 = s₁.1) (power s action).run
      (power (s.withPolarity low) action).run := by
  have htogether : GoAbreast machine wires (SameDevices fun _ => False) (Together (Same (lineOf s))) (power s action).run
      (power (s.withPolarity low) action).run := by
    refine abreast_task_bind (abreast_reachRail s low) fun a b => ?_
    rintro s₁ t₁ ⟨rfl, rfl, hst⟩
    exact abreast_perform hwires action s₁ t₁ hst
  exact htogether.mono (fun _ _ h => h) fun _ _ _ _ h => h.same

end

end

end Command

/-! ## Two runs -/

/-- The same settings with one polarity or the other. -/
def Config.Settings.withPolarity (s : Settings) (low : Bool) : Settings :=
  { s with regulator := s.regulator.withPolarity low }

/-- Whether the power-good line is to be inverted: the command line or the file that is used asks for it. -/
def CommandLine.Given.asksActiveLow (g : Given) (files : Files) (home : Option String) : Bool :=
  g.activeLow || ((Config.search files (Config.candidates g.config home)).1.getD {}).regulator.powerGoodActiveLow

theorem eq_withPolarity {s s' : Settings} (h : s'.withPolarity false = s.withPolarity false) :
    s' = s.withPolarity s'.regulator.powerGoodActiveLow := by
  obtain ⟨digitizer, regulator⟩ := s
  obtain ⟨digitizer', regulator'⟩ := s'
  obtain ⟨bus, address, line, low⟩ := regulator
  obtain ⟨bus', address', line', low'⟩ := regulator'
  simp only [Settings.withPolarity, RegulatorSettings.withPolarity, Settings.mk.injEq, RegulatorSettings.mk.injEq] at h ⊢
  exact ⟨h.1, h.2.1, h.2.2.1, h.2.2.2.1, trivial⟩

/-- A run on a machine is the run with the other polarity on the machine whose line is wired the other way round: the exit
code, the devices afterwards and all that is done are the same, but that each reading of the line is inverted. Where the
polarity is asked for makes no difference, and neither does what the system did to the line before. -/
theorem power_good_is_inverted_once {σ : Type} {machine : Answerer Host.interface σ} (hdeaf : Host.Deaf machine)
    {env env' : Environment} {files files' : Files} {arguments arguments' : List String} {action : PowerAction}
    {given given' : Given} (hparse : CommandLine.parse env.configPath arguments = .ok ⟨.power action, given⟩)
    (hparse' : CommandLine.parse env'.configPath arguments' = .ok ⟨.power action, given'⟩)
    (hsame : (given'.settings files' env'.home).1.withPolarity false = (given.settings files env.home).1.withPolarity false)
    {wires : UInt64 → Bool}
    (hwires : ∀ line, (given.settings files env.home).1.regulator.powerGoodLine = some line →
      wires line = (given.asksActiveLow files env.home != given'.asksActiveLow files' env'.home))
    (n n' : Nat) (start : σ) (attributes attributes' : UInt64 → Bool) :
    let r := ((run env files arguments).unroll n).play (Host.behindAttributes machine) (start, attributes)
    let r' := ((run env' files' arguments').unroll n').play (Host.behindAttributes (Host.rewired wires machine))
      (start, attributes')
    (∃ code, r.result.result? = some code ∧ r'.result.result? = some code) ∧
      Host.transfers r'.history = Host.transfers r.history ∧ Host.pinReads r'.history = Host.pinReads r.history ∧
      Host.delays r'.history = Host.delays r.history ∧
      Host.deeds r'.history = (Host.deeds r.history).map (Host.turned wires) ∧ r'.state.1 = r.state.1 := by
  intro r r'
  let s := (given.settings files env.home).1
  let s' := (given'.settings files' env'.home).1
  have hs' : s' = s.withPolarity s'.regulator.powerGoodActiveLow := eq_withPolarity hsame
  have hcheck : s'.check = s.check := by
    rw [hs']
    rfl
  suffices h : (∃ code, r.result.result? = some code ∧ r'.result.result? = some code) ∧
      Host.deeds r'.history = (Host.deeds r.history).map (Host.turned wires) ∧ r'.state.1 = r.state.1 by
    obtain ⟨hcode, hdeeds, hstate⟩ := h
    refine ⟨hcode, ?_, ?_, ?_, hdeeds, hstate⟩
    · rw [← Host.transfers_deeds, hdeeds, Host.transfers_turned, Host.transfers_deeds]
    · rw [← Host.pinReads_deeds, hdeeds, Host.pinReads_turned, Host.pinReads_deeds]
    · rw [← Host.delays_deeds, hdeeds, Host.delays_turned, Host.delays_deeds]
  let c := (Command.power s.regulator action).run.play (Command.on (Host.behindAttributes machine)) (start, attributes)
  let c' := (Command.power s'.regulator action).run.play
    (Command.on (Host.behindAttributes (Host.rewired wires machine))) (start, attributes')
  have hdeaf' : Host.Deaf (Host.rewired wires machine) := Host.deaf_rewired wires hdeaf
  rcases play_run_power (Host.deaf_behindAttributes hdeaf) hparse n (start, attributes) with
    ⟨⟨invalid, hrefused⟩, hcode, hstate, hdeeds⟩ | ⟨hok, hcode, hstate, hdeeds⟩
  · rcases play_run_power (Host.deaf_behindAttributes hdeaf') hparse' n' (start, attributes') with
      ⟨-, hcode', hstate', hdeeds'⟩ | ⟨hok', -⟩
    · refine ⟨⟨1, hcode, hcode'⟩, ?_, ?_⟩
      · rw [hdeeds, hdeeds']
        rfl
      · rw [hstate, hstate']
    · cases (hcheck.symm.trans hok').symm.trans hrefused
  · rcases play_run_power (Host.deaf_behindAttributes hdeaf') hparse' n' (start, attributes') with
      ⟨⟨invalid, hrefused'⟩, -⟩ | ⟨-, hcode', hstate', hdeeds'⟩
    · cases (hcheck.symm.trans hrefused').symm.trans hok
    · obtain ⟨⟨hresult, hdevices⟩, hhistory⟩ : (c'.result = c.result ∧ c'.state.1 = c.state.1) ∧
          c'.history = c.history.map (Command.turned wires) := by
        have hregulator : s'.regulator = s.regulator.withPolarity s'.regulator.powerGoodActiveLow :=
          congrArg Settings.regulator hs'
        have habreast : Command.GoAbreast machine wires (Command.SameDevices fun _ => False)
            (fun r r' s₁ t₁ => r' = r ∧ t₁.1 = s₁.1) (Command.power s.regulator action).run
            (Command.power s'.regulator action).run := by
          rw [hregulator]
          exact Command.abreast_power hwires action
        exact habreast (start, attributes) (start, attributes') ⟨rfl, fun _ hoff => hoff.elim⟩
      refine ⟨⟨Run.codeOf c.result, hcode, ?_⟩, ?_, ?_⟩
      · rw [hcode', hresult]
      · rw [hdeeds, hdeeds', hhistory, Command.deeds_turned]
      · rw [hstate, hstate', hdevices]

/-! ### A line that comes up at the second look -/

/-- A machine where all transfers work, with a chip that holds nothing. A line gives the levels of a script and then stays
low. -/
def Host.scriptedLine : Answerer Host.interface (List (Except String Bool))
  | .transfer _ q => pure (.ok (chipReply (fun _ => 0) q.transfer))
  | .readLine _ => fun levels => (levels.headD (.ok false), levels.tail)
  | .openAdapter _ | .setUpLine _ _ | .uinput _ => pure (.ok ())
  | .systemName => pure none
  | .delay _ | .sleep _ | .print _ | .report _ | .usage _ => pure ()

theorem Host.deaf_scriptedLine : Deaf scriptedLine := by
  intro q levels htext
  cases q <;> first | rfl | cases htext

/-- A file that names the line and says nothing of its polarity. -/
def lineFile : Files := fun path =>
  if path = "rm-periph.toml" then some "[regulator]\npgood_gpio = 7\n".toUTF8 else none

/-- Power good when low, asked for on the command line, with a line that the system inverted before. The same wired the
other way round, with the line from a file: both commands bring the rail up at the second look. -/
theorem power_good_is_inverted_once_scriptedLine :
    let r := ((run {} (fun _ => none) ["power", "enable", "--pgood-gpio", "7", "--pgood-active-low"]).unroll 0).play
      (Host.behindAttributes Host.scriptedLine) ([.ok true, .ok false], fun _ => true)
    let r' := ((run {} lineFile ["power", "enable"]).unroll 0).play
      (Host.behindAttributes (Host.rewired (fun _ => true) Host.scriptedLine)) ([.ok true, .ok false], fun _ => false)
    r.result.result? = some 0 ∧ r'.result.result? = some 0 ∧ Host.pinReads r.history = 2 ∧ Host.pinReads r'.history = 2 ∧
      Host.transfers r'.history = Host.transfers r.history := by
  intro r r'
  have hcode : r.result.result? = some 0 := by decide +kernel
  have hreads : Host.pinReads r.history = 2 := by decide +kernel
  have hsame : ((({} : Given).settings lineFile none).1.withPolarity false) =
      (({ powerGoodLine := some 7, activeLow := true } : Given).settings (fun _ => none) none).1.withPolarity false := by
    decide +kernel
  have hwires : (true : Bool) = (({ powerGoodLine := some 7, activeLow := true } : Given).asksActiveLow (fun _ => none) none !=
      ({} : Given).asksActiveLow lineFile none) := by
    decide +kernel
  obtain ⟨⟨code, hfirst, hsecond⟩, htransfers, hpins, -⟩ := @power_good_is_inverted_once _ _ Host.deaf_scriptedLine {} {}
    (fun _ => none) lineFile ["power", "enable", "--pgood-gpio", "7", "--pgood-active-low"] ["power", "enable"] .enable
    { powerGoodLine := some 7, activeLow := true } {} (by rfl) (by rfl) hsame (fun _ => true) (fun _ _ => hwires) 0 0
    [.ok true, .ok false] (fun _ => true) (fun _ => false)
  have hzero : code = 0 := Option.some.inj (hfirst.symm.trans hcode)
  rw [hzero] at hsecond
  exact ⟨hcode, hsecond, hreads, hpins.trans hreads, htransfers⟩

end PenRail
