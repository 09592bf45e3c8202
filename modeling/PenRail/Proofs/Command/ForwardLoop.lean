import PenRail.Proofs.Command.Checked
import PenRail.Proofs.Command.Looks
import PenRail.Proofs.Command.Preparing

/-!
# The loop that forwards the pen

A run of the command that forwards the pen is a start and then one look after the other. While it starts it neither looks at
the data-ready line nor fetches reports nor writes events; it comes to a digitizer that delivers and has seen nothing yet, or
fails because something could not be done. From there on `ends_rounds` says how the looks go.
`forwarding_follows_reports` puts this together for the whole program.
-/

namespace PenRail

open Config (DigitizerSettings)
open Pen (Latch Sample)
open Uinput (rawEvents)

namespace Host

/-- Looks at the line, fetches a report or writes events. -/
def Request.isTraffic : Request → Bool
  | .readLine _ | .transfer _ ⟨_, .read _⟩ | .uinput (.write _) | .uinput .finish => true
  | _ => false

theorem Request.not_isTraffic {q : Request} (hq : q.isPreparation = true ∨ q.isMessage = true) : q.isTraffic = false := by
  rcases hq with hq | hq
  · unfold isPreparation at hq
    split at hq
    · rfl
    · rfl
    · rfl
    · cases hq
  · cases q with
    | report | usage => rfl
    | _ => cases hq

end Host

namespace Command

/-! ## The start -/

/-- The terms of a start: no traffic yet; and, where it is strict, everything can be done. -/
def starting (strict : Prop) : Terms interface where
  asks
    | .host q => q.isTraffic = false
    | .log _ => True
  fine x := strict → ∀ y, toHost? x = some y → Host.failed y = false

/-- A part of a start. Where everything can be done it does not fail. -/
abbrev Starts {α : Type} (strict : Prop) (t : Task α) (good : α → Prop := fun _ => True) : Prop :=
  t.run.Meets (starting strict) (Task.Reaches (fun _ => ¬strict) good)

variable {strict : Prop} {s : DigitizerSettings}

/-- What is allowed for getting ready is allowed for a start. -/
theorem Prepares.starts {α : Type} {t : Task α} {good : α → Prop} (ht : Prepares strict t good) : Starts strict t good := by
  refine Program.Meets.loosen ht (fun q hq => ?_) fun _ hx => hx
  cases q with
  | log entry => trivial
  | host q => exact Host.Request.not_isTraffic hq

theorem starts_say (level : Log.Level) (text : String) : Starts strict (liftM (say level text)) :=
  (prepares_say level text).starts

/-- The terms on which a virtual device is declared. -/
def declaring (strict : Prop) : Terms Uinput.interface where
  asks
    | .call (.write _) | .call .finish => False
    | _ => True
  fine
    | ⟨.call _, reply⟩ => strict → reply = .ok ()
    | _ => True

theorem meets_callAll {calls : List Uinput.Call} (hcalls : ∀ c ∈ calls, (declaring strict).asks (.call c)) :
    (Uinput.callAll calls).Meets (declaring strict) fun r => strict → r = .ok () := by
  induction calls with
  | nil => exact fun _ => rfl
  | cons c rest ih =>
    refine Program.Meets.bind (Program.meets_request (hcalls c List.mem_cons_self) fun _ hr => hr) fun reply hreply => ?_
    rcases reply with reason | u
    · exact fun hstrict => by cases hreply hstrict
    · exact ih fun c hc => hcalls c (List.mem_cons_of_mem _ hc)

theorem meets_create (caps : Pen.Capabilities) : (Uinput.Writer.create caps).Meets (declaring strict) fun r =>
    match r with
    | .ok writer => writer = {}
    | .error _ => ¬strict := by
  have hcalls : ∀ c ∈ Uinput.declaration caps, (declaring strict).asks (.call c) := by
    simp [Uinput.declaration, declaring]
  refine (meets_callAll hcalls).bind fun declared hdeclared => ?_
  rcases declared with reason | u
  · exact fun hstrict => by cases hdeclared hstrict
  · refine ⟨trivial, fun name _ => ?_⟩
    cases name with
    | none => rfl
    | some name => exact ⟨trivial, fun _ _ => rfl⟩

theorem meets_answerUinput_of_declaring {q : Uinput.Request} (hq : (declaring strict).asks q) :
    (answerUinput q).Meets (starting strict) fun r => (declaring strict).fine ⟨q, r⟩ := by
  cases q with
  | call c =>
    refine ⟨?_, fun reply hreply hstrict => ?_⟩
    · cases c with
      | write | finish => exact hq.elim
      | _ => rfl
    · rcases reply with reason | u
      · cases hreply hstrict _ rfl
      · rfl
  | systemName => exact ⟨rfl, fun _ _ => trivial⟩
  | log entry => exact ⟨trivial, fun _ _ => trivial⟩

theorem starts_start (haddress : s.address.toNat ≤ 0x7f) :
    Starts strict (Forwarder.start s) fun f => f.Ready s ∧ f.digitizer.latch = {} := by
  refine Task.meets_bind (starts_say _ _) fun _ _ => ?_
  refine Task.meets_bind (prepares_reachDigitizer haddress).starts fun (place, digitizer) ⟨hplace, hlatch, hsuspended⟩ => ?_
  refine Task.meets_bind (starts_say _ _) fun _ _ => ?_
  refine Task.meets_bind (starts_say _ _) fun _ _ => ?_
  have hcreate : Starts strict (attempt .uinput ((Uinput.Writer.create digitizer.capabilities).under answerUinput)) (· = {}) :=
    Task.meets_attempt ((meets_create _).under fun _ hq => meets_answerUinput_of_declaring hq) (fun _ hw => hw) fun _ he => he
  refine Task.meets_bind hcreate fun writer hwriter => ?_
  have hattach : Starts strict (liftM (host (.sleep Forwarder.attachTime))) :=
    Task.meets_lift (Program.meets_request rfl fun _ _ => trivial)
  refine Task.meets_bind hattach fun _ _ => ?_
  refine Task.meets_bind (starts_say _ _) fun _ _ => ?_
  refine Task.meets_bind (prepares_setUp s).starts fun _ _ => Task.meets_pure ⟨⟨hplace, ?_, ?_⟩, hlatch⟩
  · exact (Bool.true_and _).trans (congrArg (!·) hsuspended)
  · rw [hwriter]

/-- A start does nothing that the looks do. It comes to a digitizer that delivers and has seen nothing, or something could not
be done. -/
theorem ends_start (haddress : s.address.toNat ≤ 0x7f) {h : History interface} {r : Except Failure Forwarder}
    (he : (Forwarder.start s).run.Ends h r) :
    (∀ y ∈ deeds h, y.request.isTraffic = false) ∧ (∀ f, r = .ok f → f.Ready s ∧ f.digitizer.latch = {}) ∧
      ∀ failure, r = .error failure → ∃ y ∈ deeds h, Host.failed y = true := by
  obtain ⟨hasks, hloose⟩ := (@starts_start False s haddress).ends he fun _ _ => nofun
  refine ⟨fun y hy => of_mem_deeds hasks hy, ?_, ?_⟩
  · rintro f rfl
    exact hloose
  · rintro failure rfl
    exact exists_failed_of_meets (@starts_start True s haddress) (fun _ hx _ => hx) he fun h => h trivial

/-- A run is a start and looks. -/
theorem ends_forward (haddress : s.address.toNat ≤ 0x7f) {n : Nat} {h : History interface}
    {turn : Turn (forward s).State (Except Failure Unit)} (he : ((forward s).unroll n).Ends h turn) :
    ∃ setup looks after, deeds h = setup ++ looks.flatten ∧ (∀ y ∈ setup, y.request.isTraffic = false) ∧
      Relays {} looks.flatten after ∧
        (((∃ failure, turn.result? = some (.error failure)) ∧ looks = [] ∧ ∃ y ∈ setup, Host.failed y = true) ∨
          (turn.result? = none ∧ looks.length = n ∧ LookedOn s true looks) ∨
            ((∃ failure, turn.result? = some (.error failure)) ∧ LookedOn s false looks)) := by
  obtain ⟨h₁, t, h₂, rfl, hstart, hrest⟩ := Program.ends_bind.1 he
  obtain ⟨r, hr, rfl⟩ := ends_ofTask hstart
  obtain ⟨hquiet, hready, hfails⟩ := ends_start haddress hr
  rw [deeds_append]
  rcases r with failure | f
  · obtain ⟨rfl, rfl⟩ := Process.ends_rounds_over hrest
    exact ⟨deeds h₁, [], {}, by simp, hquiet, .nothing _ rfl rfl, .inl ⟨⟨failure, rfl⟩, rfl, hfails failure rfl⟩⟩
  · obtain ⟨hready, hlatch⟩ := hready f rfl
    obtain ⟨looks, after, hdeeds, hrelays, hlooks⟩ := ends_rounds hready hrest
    rw [hlatch] at hrelays
    exact ⟨deeds h₁, looks, after, by rw [hdeeds], hquiet, hrelays, .inr hlooks⟩

end Command

/-! ## The whole program -/

/-- A machine where everything works, but for the first report, which cannot be fetched. After it the pen is near. -/
def Host.penMachine : Answerer Host.interface Nat
  | .transfer _ ⟨_, .exchange _ length⟩ => pure (.ok (List.replicate length 0))
  | .transfer _ ⟨_, .read _⟩ => fun fetched =>
    (if fetched = 0 then .error .bus else .ok [0, 0, 0, Pen.Status.inRange], fetched + 1)
  | .transfer _ ⟨_, .write _⟩ | .openAdapter _ | .setUpLine _ _ | .uinput _ => pure (.ok ())
  | .readLine _ => pure (.ok false)
  | .systemName => pure none
  | .delay _ | .sleep _ | .print _ | .report _ | .usage _ => pure ()

end PenRail
