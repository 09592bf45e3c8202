import PenRail.Command.Forward
import PenRail.Proofs.Command.Deeds
import PenRail.Proofs.Command.Tasks
import PenRail.Proofs.Lengths

/-!
# Getting ready for reports

Before a command looks for reports it opens the adapter, asks the digitizer for its limits and makes the data-ready line
ready. These are preparations, and they are all it does until then. With settings that can be used it gets as far as the first
look unless one of them fails: `exists_failed_of_meets` finds it.
-/

namespace PenRail

open Config (DigitizerSettings)

namespace Host

/-- Opens an adapter, makes a line ready or asks a chip. -/
def Request.isPreparation : Request → Bool
  | .openAdapter _ | .setUpLine _ _ | .transfer _ ⟨_, .exchange _ _⟩ => true
  | _ => false

/-- Something could not be done. -/
def failed : Exchange interface → Bool
  | ⟨.openAdapter _, .error _⟩ | ⟨.transfer _ _, .error _⟩ | ⟨.setUpLine _ _, .error _⟩ | ⟨.readLine _, .error _⟩
  | ⟨.uinput _, .error _⟩ => true
  | _ => false

theorem not_isText_of_failed {x : Exchange interface} (hx : failed x = true) : x.request.isText = false := by
  obtain ⟨q, r⟩ := x
  cases q with
  | print | report | usage => cases hx
  | _ => rfl

end Host

namespace Command

/-- The terms of getting ready: nothing but preparations and messages; and, where it is strict, everything can be done. -/
def preparing (strict : Prop) : Terms interface where
  asks
    | .host q => q.isPreparation = true ∨ q.isMessage = true
    | .log _ => True
  fine x := strict → ∀ y, toHost? x = some y → Host.failed y = false

/-- A part of getting ready. Where everything can be done it does not fail. -/
abbrev Prepares {α : Type} (strict : Prop) (t : Task α) (good : α → Prop := fun _ => True) : Prop :=
  t.run.Meets (preparing strict) (Task.Reaches (fun _ => ¬strict) good)

/-- A task that fails although it does not as long as everything can be done has met something that could not be done. -/
theorem exists_failed_of_meets {α : Type} {t : Task α} {terms : Terms interface} {tolerable : Failure → Prop}
    {good : α → Prop} (ht : t.run.Meets terms (Task.Reaches tolerable good))
    (hfine : ∀ x, (∀ y, toHost? x = some y → Host.failed y = false) → terms.fine x) {h : History interface} {failure : Failure}
    (he : t.run.Ends h (.error failure)) (hfailure : ¬tolerable failure) : ∃ y ∈ deeds h, Host.failed y = true := by
  refine Classical.byContradiction fun hnone => hfailure ?_
  refine (ht.ends he fun x hx => hfine x fun y hxy => ?_).2
  cases hfailed : Host.failed y with
  | false => rfl
  | true =>
    refine absurd ⟨y, List.mem_filter.2 ⟨List.mem_filterMap.2 ⟨x, hx, hxy⟩, ?_⟩, hfailed⟩ hnone
    rw [Host.not_isText_of_failed hfailed]
    rfl

variable {strict : Prop} {s : DigitizerSettings}

theorem prepares_say (level : Log.Level) (text : String) : Prepares strict (liftM (say level text)) :=
  Task.meets_lift (Program.meets_request trivial fun _ _ => trivial)

theorem prepares_report (line : String) : Prepares strict (liftM (report line)) :=
  Task.meets_lift (Program.meets_request (.inr rfl) fun _ _ => trivial)

theorem prepares_reach {path : String} {address : UInt16} (haddress : address.toNat ≤ 0x7f) :
    Prepares strict (Place.reach path address) (· = ⟨path, address.toUInt8⟩) := by
  unfold Place.reach
  rw [if_neg (by omega)]
  have hopen : Prepares strict (attempt .adapter (host (.openAdapter path))) := by
    refine Task.meets_attempt (Program.meets_request (.inl rfl) fun _ hr => hr) (fun _ _ => trivial) fun e he hstrict => ?_
    cases he hstrict _ rfl
  refine Task.meets_bind hopen fun _ _ => ?_
  exact Task.meets_bind (prepares_say _ _) fun _ _ => Task.meets_pure rfl

theorem prepares_setUpLine (line : UInt64) : Prepares strict (setUpLine line) := by
  have hstep (step : Host.LineSetup) : Prepares strict (attempt .lineSetup (host (.setUpLine line step))) := by
    refine Task.meets_attempt (Program.meets_request (.inl rfl) fun _ hr => hr) (fun _ _ => trivial) fun e he hstrict => ?_
    cases he hstrict _ rfl
  exact Task.meets_bind (hstep _) fun _ _ => Task.meets_bind (hstep _) fun _ _ => hstep _

theorem prepares_setUp (s : DigitizerSettings) : Prepares strict (DataReady.ofSettings s).setUp := by
  unfold DataReady.setUp
  cases (DataReady.ofSettings s).line with
  | none => exact Task.meets_pure trivial
  | some line => exact prepares_setUpLine line

/-- The terms of a probe. -/
def probing (strict : Prop) : Terms Pen.interface where
  asks
    | .transfer (.exchange _ _) => True
    | .transfer _ => False
    | _ => True
  fine
    | ⟨.transfer t, reply⟩ => ∃ raw, reply = t.received raw ∧ (strict → ∃ bytes, raw = .ok bytes)
    | _ => True

theorem meets_probe : Pen.Digitizer.probe.Meets (probing strict) fun r =>
    match r with
    | .ok d => d.latch = {} ∧ d.suspended = false
    | .error _ => ¬strict := by
  refine Program.Meets.bind (Program.meets_request trivial fun _ hr => hr) fun reply hreply => ?_
  obtain ⟨cause | bytes, rfl, hok⟩ := hreply
  · intro hstrict
    obtain ⟨_, h⟩ := hok hstrict
    cases h
  · obtain ⟨capabilities, hdecode⟩ := Pen.decode_capabilities_of_length (Bus.fit_length Pen.queryLength bytes)
    simp only [Bus.Transfer.received, Bus.Transfer.fitted, hdecode]
    exact ⟨trivial, fun _ _ => ⟨rfl, rfl⟩⟩

theorem meets_answerReader_of_probing (place : Place) {q : Pen.Request} (hq : (probing strict).asks q) :
    (place.answerReader q).Meets (preparing strict) fun r => (probing strict).fine ⟨q, r⟩ := by
  cases q with
  | transfer t =>
    refine ⟨?_, fun raw hraw => ?_⟩
    · cases t with
      | read | write => exact hq.elim
      | exchange => exact .inl rfl
    · rcases raw with cause | bytes
      · exact ⟨.error cause, rfl, fun hstrict => by cases hraw hstrict _ rfl⟩
      · exact ⟨.ok bytes, rfl, fun _ => ⟨bytes, rfl⟩⟩
  | submit frame => trivial
  | log entry => exact ⟨trivial, fun _ _ => trivial⟩

theorem prepares_reachDigitizer (haddress : s.address.toNat ≤ 0x7f) : Prepares strict (reachDigitizer s) fun r =>
    r.1 = ⟨s.bus, s.address.toUInt8⟩ ∧ r.2.latch = {} ∧ r.2.suspended = false := by
  refine Task.meets_bind (prepares_reach haddress) fun place hplace => ?_
  have hprobe : Prepares strict (attempt .pen (Pen.Digitizer.probe.under place.answerReader)) fun d =>
      d.latch = {} ∧ d.suspended = false :=
    Task.meets_attempt (meets_probe.under fun _ hq => meets_answerReader_of_probing place hq) (fun _ hd => hd) fun _ he => he
  exact Task.meets_bind hprobe fun digitizer hdigitizer => Task.meets_pure ⟨hplace, hdigitizer⟩

end Command

end PenRail
