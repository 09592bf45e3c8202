import PenRail.Proofs.Binding
import PenRail.Proofs.Bus.RegisterChip
import PenRail.Proofs.Pen.CapabilityLayout
import PenRail.Proofs.Pen.Notified
import PenRail.Proofs.Pen.ReportLayout
import PenRail.Proofs.Terms

/-!
# Lengths behind an adapter

The drivers can report a reply that is too short. Behind an adapter none ever is: the reply lands in a buffer of the length
asked for, that length is enough for what is read from it, and the adapter has no word for a short transfer. So each part of
a driver is shown to have no such error as long as transfers are exact, and `isExact_behind` says that behind an adapter they
all are, whatever the adapter does. `no_length_errors_behind` puts this together for the register helpers and both drivers.
-/

namespace PenRail

/-! ## Register helpers -/

namespace Bus

/-- Behind an adapter every transfer is exact. -/
theorem isExact_behind {τ : Type} (address : UInt8) (bus : Answerer adapter τ) (t : Transfer) (s : τ × History adapter) :
    isExact ⟨t, (behind address bus t s).1⟩ = true := by
  simp only [behind, play_bindTo]
  rcases (bus ⟨address, t⟩ s.1).1 with cause | reply
  · rfl
  · cases t with
    | write => rfl
    | read length | exchange _ length => exact beq_iff_eq.2 (fit_length length reply)

/-- Transfers that are exact may be counted on. -/
def exactly : Terms device where
  fine x := isExact x

/-- A failure that an adapter has a name for. -/
def Failure.IsNamed (failure : Failure) : Prop :=
  ∃ cause, failure = .adapter cause

/-- What failed, if anything, failed for a cause that an adapter can name. -/
def Named {α : Type} (r : Except Failure α) : Prop :=
  ∀ failure, r = .error failure → failure.IsNamed

theorem named_ok {α : Type} (a : α) : Named (.ok a) :=
  nofun

theorem Named.ne_short {α : Type} {r : Except Failure α} (hr : Named r) (expected actual : Nat) :
    r ≠ .error (.short expected actual) := by
  intro hshort
  obtain ⟨cause, hcause⟩ := hr _ hshort
  cases hcause

/-- A transfer that is exact fails for a cause, if at all. -/
theorem named_of_isExact {t : Transfer} {r : Except Failure t.Reply} (hr : isExact ⟨t, r⟩ = true) : Named r := by
  rintro (⟨expected, actual⟩ | cause) rfl
  · cases hr
  · exact ⟨cause, rfl⟩

theorem meets_writeRegister (register value : UInt8) : (writeRegister register value).run.Meets exactly Named := by
  rw [RegisterChip.writeRegister_run]
  exact Program.meets_request trivial fun r hr => named_of_isExact hr

theorem meets_readRegister (register : UInt8) : (readRegister register).run.Meets exactly Named := by
  rw [RegisterChip.readRegister_run]
  refine ⟨trivial, fun r hr => ?_⟩
  rcases r with failure | (_ | ⟨value, rest⟩)
  · rintro _ ⟨⟩
    exact named_of_isExact hr _ rfl
  · -- One byte was asked for, so there is one.
    cases hr
  · exact named_ok value

theorem meets_updateRegister (register mask value : UInt8) :
    (updateRegister register mask value).run.Meets exactly Named := by
  rw [RegisterChip.updateRegister_run]
  refine (meets_readRegister register).bind fun r hr => ?_
  rcases r with failure | current
  · rintro _ ⟨⟩
    exact hr _ rfl
  · dsimp only
    split
    · exact named_ok ()
    · exact meets_writeRegister _ _

end Bus

/-! ## The rail -/

namespace Rail

/-- Transfers that are exact may be counted on. -/
def exactly : Terms interface where
  fine x := ∀ y, toBus? x = some y → Bus.isExact y

/-- What can go wrong while transfers are exact. A payload that is not understood is one of them only where faults are
decoded. -/
def Error.Expected (decodes : Prop) : Error → Prop
  | .bus failure | .timeoutRailOn failure => failure.IsNamed
  | .malformed what => decodes ∧ ∃ value, what = .unexpected "fault flag" value
  | .timeout _ | .pin _ | .outOfRange _ => True

/-- What went wrong, if anything, is to be expected. -/
def Expected {α : Type} (decodes : Prop) (r : Result α) : Prop :=
  ∀ e, r = .error e → e.Expected decodes

section
variable {α β : Type} {decodes : Prop}

theorem expected_ok (a : α) : Expected decodes (.ok a) :=
  nofun

theorem expected_error {e : Error} (he : e.Expected decodes) : Expected decodes (.error e : Result α) := by
  rintro _ ⟨⟩
  exact he

theorem Expected.error {e : Error} (he : Expected decodes (.error e : Result α)) : Expected decodes (.error e : Result β) :=
  expected_error (he e rfl)

theorem Expected.map {r : Result α} (hr : Expected decodes r) (f : α → β) : Expected decodes (r.map f) := by
  rcases r with e | a
  · exact hr.error
  · exact expected_ok (f a)

/-- Where no fault is decoded there is no more to expect. -/
theorem Expected.mono {r : Result α} (hr : Expected False r) : Expected decodes r := by
  intro e he
  have := hr e he
  cases e with
  | malformed => exact this.1.elim
  | bus | timeout | timeoutRailOn | pin | outOfRange => exact this

theorem expected_mapError {r : Except Bus.Failure α} (hr : Bus.Named r) : Expected decodes (r.mapError .bus) := by
  rcases r with failure | a
  · exact expected_error (hr failure rfl)
  · exact expected_ok a

/-- The rest of a part that only passes its result on. -/
theorem meets_map {p : Program interface (Result α)} (hp : p.Meets exactly (Expected decodes)) (f : α → β) :
    (p >>= fun r => pure (r.map f)).Meets exactly (Expected decodes) :=
  hp.bind fun _ hr => hr.map f

/-- A register program counts on the same as the controller. -/
theorem meets_onBus {action : Bus.Action α} {good : Except Bus.Failure α → Prop} (h : action.run.Meets Bus.exactly good) :
    (onBus action).Meets exactly good :=
  h.under fun _ _ => Program.meets_request trivial fun _ hr => hr _ rfl

theorem meets_setOnOff (on : Bool) : (setOnOff on).Meets exactly Bus.Named :=
  meets_onBus (Bus.meets_updateRegister _ _ _)

theorem meets_switchOff : switchOff.Meets exactly Bus.Named :=
  (meets_setOnOff false).bind fun _ hr => (Program.meets_trivial (delay _)).bind fun _ _ => hr

theorem meets_readByte (register : UInt8) : (readByte register).Meets exactly (Expected decodes) :=
  (meets_onBus (Bus.meets_readRegister register)).bind fun _ hr => expected_mapError hr

theorem meets_clearPowerOnDelay : clearPowerOnDelay.Meets exactly (Expected decodes) :=
  (meets_onBus (Bus.meets_writeRegister _ _)).bind fun _ hr => expected_mapError hr

theorem meets_waitPowerGood : waitPowerGood.Meets exactly (Expected decodes) := by
  refine (Program.meets_trivial poll).bind fun polled _ => ?_
  rcases polled with reason | seen
  · exact expected_error trivial
  · exact expected_ok _

/-- Reading the status is the only place where faults are decoded. -/
theorem meets_readStatus (c : Controller) : c.readStatus.Meets exactly fun o => Expected True o.1 := by
  refine (@meets_readByte True Register.faultFlag).bind fun read hread => ?_
  rcases read with e | flags
  · exact hread.error
  · dsimp only
    unfold Fault.ofStatus
    cases Fault.table[(flags >>> 1).toNat]? with
    | none => exact expected_error ⟨trivial, _, rfl⟩
    | some fault => exact expected_ok _

theorem meets_describeFault (c : Controller) : c.describeFault.Meets exactly fun o => Expected True o.1 :=
  (meets_readStatus c).bind fun ⟨_, _⟩ ho => Expected.map ho _

theorem meets_giveUp (c : Controller) : c.giveUp.Meets exactly fun o => Expected decodes o.1 := by
  refine (Program.meets_trivial (say _ _)).bind fun _ _ => (Program.meets_trivial (c.enter _)).bind fun _ _ => ?_
  refine meets_switchOff.bind fun outcome houtcome => ?_
  rcases outcome with failure | _
  · refine (Program.meets_trivial (say _ _)).bind fun _ _ => (Program.meets_trivial (Controller.enter _ _)).bind fun _ _ => ?_
    exact expected_error (houtcome failure rfl)
  · exact (Program.meets_trivial (Controller.enter _ _)).bind fun _ _ => expected_error trivial

theorem meets_awaitPower (c : Controller) : c.awaitPower.Meets exactly fun o => Expected decodes o.1 := by
  refine (Program.meets_trivial poll).bind fun polled _ => ?_
  rcases polled with reason | (_ | waits)
  · exact expected_error trivial
  · exact meets_giveUp c
  · refine (Program.meets_trivial (say _ _)).bind fun _ _ => (Program.meets_trivial (Controller.enter _ _)).bind fun _ _ => ?_
    exact expected_ok ()

theorem meets_enable (c : Controller) : c.enable.Meets exactly fun o => Expected decodes o.1 := by
  unfold Controller.enable
  split
  · exact expected_ok ()
  · refine (Program.meets_trivial (c.enter _)).bind fun _ _ => (meets_setOnOff true).bind fun outcome houtcome => ?_
    rcases outcome with failure | _
    · exact (Program.meets_trivial (Controller.enter _ _)).bind fun _ _ => expected_error (houtcome failure rfl)
    · exact meets_awaitPower _

theorem meets_disable (c : Controller) : c.disable.Meets exactly fun o => Expected decodes o.1 := by
  refine (Program.meets_trivial (c.enter _)).bind fun _ _ => meets_switchOff.bind fun outcome houtcome => ?_
  rcases outcome with failure | _
  · exact (Program.meets_trivial (Controller.enter _ _)).bind fun _ _ => expected_error (houtcome failure rfl)
  · exact (Program.meets_trivial (Controller.enter _ _)).bind fun _ _ => expected_ok ()

namespace Vcom

theorem meets_readCode : readCode.Meets exactly (Expected decodes) := by
  refine (@meets_readByte decodes Register.vcomLow).bind fun low hlow => ?_
  rcases low with e | low
  · exact hlow.error
  · exact meets_map (meets_readByte Register.vcomHigh) _

theorem meets_read : read.Meets exactly (Expected decodes) :=
  meets_map meets_readCode _

theorem meets_writeCode (code : UInt16) : (writeCode code).Meets exactly (Expected decodes) := by
  refine (meets_onBus (Bus.meets_writeRegister _ _)).bind fun low hlow => ?_
  rcases low with failure | _
  · exact expected_error (hlow failure rfl)
  · exact (meets_onBus (Bus.meets_writeRegister _ _)).bind fun _ hr => expected_mapError hr

theorem meets_write (millivolts : Int32) : (write millivolts).Meets exactly (Expected decodes) := by
  unfold write
  split
  · exact meets_writeCode _
  · exact expected_error trivial

theorem meets_writeSigned (millivolts : Int32) : (writeSigned millivolts).Meets exactly (Expected decodes) := by
  unfold writeSigned
  split
  · exact meets_write _
  · exact expected_error trivial

end Vcom

end

/-- The operations that decode faults. -/
def Method.Decodes (m : Method) : Prop :=
  m = .readStatus ∨ m = .faultState

/-- What an operation of the controller can report while transfers are exact. -/
theorem meets_call (c : Controller) (m : Method) : (c.call m).Meets exactly fun o => Expected m.Decodes o.1 := by
  have hkeep {α : Type} {f : α → Answer} {p : Program interface (Result α)} (hp : p.Meets exactly (Expected False)) :
      (c.keep f p).Meets exactly fun o => Expected m.Decodes o.1 :=
    hp.bind fun _ hr => (hr.map f).mono
  have hchange {α : Type} {f : α → Answer} {p : Program interface (Outcome α)}
      (hp : p.Meets exactly fun o => Expected m.Decodes o.1) :
      (Controller.change f p).Meets exactly fun o => Expected m.Decodes o.1 :=
    hp.bind fun o ho => by
      obtain ⟨result, after⟩ := o
      exact Expected.map ho f
  cases m with
  | init => exact hkeep meets_clearPowerOnDelay
  | enable => exact hchange (meets_enable c)
  | disable => exact hchange (meets_disable c)
  | isEnabled => exact hkeep (meets_map (meets_readByte _) _)
  | waitPowerGood => exact hkeep meets_waitPowerGood
  | readStatus => exact hchange (by simpa [Method.Decodes] using meets_readStatus c)
  | faultState => exact hchange (by simpa [Method.Decodes] using meets_describeFault c)
  | powerGood => exact hkeep (meets_map (meets_readByte _) _)
  | getVoltage => exact hkeep Vcom.meets_read
  | setVoltage millivolts => exact hkeep (Vcom.meets_write millivolts)
  | getVcom => exact hkeep (meets_map Vcom.meets_read _)
  | setVcom millivolts => exact hkeep (Vcom.meets_writeSigned millivolts)
  | getMicrovolts => exact hkeep (meets_map Vcom.meets_readCode _)
  | readTemperature => exact hkeep (meets_map (meets_readByte _) _)

/-- Behind an adapter the controller's transfers are exact. -/
theorem exactly_around {τ υ : Type} (w : Surroundings υ) (address : UInt8) (bus : Answerer Bus.adapter τ) :
    ∀ q s, exactly.fine ⟨q, (w.around (Bus.behind address bus) q s).1⟩ := by
  intro q s y hy
  cases q with
  | transfer t =>
    obtain rfl := Option.some.inj hy
    exact Bus.isExact_behind address bus t s.1
  | powerGood | delay | log => cases hy

end Rail

/-! ## The pen -/

namespace Pen

/-- Transfers that are exact may be counted on. -/
def exactly : Terms interface where
  fine x := ∀ y, toBus? x = some y → Bus.isExact y

/-- Behind an adapter the digitizer's transfers are exact. -/
theorem exactly_around {τ υ : Type} (w : Surroundings υ) (address : UInt8) (bus : Answerer Bus.adapter τ) :
    ∀ q s, exactly.fine ⟨q, (w.around (Bus.behind address bus) q s).1⟩ := by
  intro q s y hy
  cases q with
  | transfer t =>
    obtain rfl := Option.some.inj hy
    exact Bus.isExact_behind address bus t s.1
  | submit | log => cases hy

/-- A reply of the length that is asked for has all the limits. -/
theorem decode_capabilities_of_length {bytes : Bytes} (h : bytes.length = queryLength) :
    ∃ caps, Capabilities.decode bytes = .ok caps :=
  ⟨_, decode_capabilities_of_le (Nat.le_of_eq h.symm)⟩

/-- A report of the length that is fetched has all the data. -/
theorem decode_sample_of_length {bytes : Bytes} (h : bytes.length = reportLength) :
    ∃ s, Sample.decode bytes = .ok s :=
  ⟨_, decode_sample_of_le (h ▸ by decide)⟩

/-- What failed, if anything, is the bus, for a cause that an adapter can name. -/
def Named {α : Type} (r : Result α) : Prop :=
  ∀ e, r = .error e → ∃ cause, e = .bus (.adapter cause)

theorem named_bus {α : Type} {t : Bus.Transfer} {failure : Bus.Failure}
    (hr : exactly.fine ⟨.transfer t, .error failure⟩) : Named (.error (.bus failure) : Result α) := by
  rintro _ ⟨⟩
  obtain ⟨cause, rfl⟩ := Bus.named_of_isExact (hr _ rfl) failure rfl
  exact ⟨cause, rfl⟩

theorem meets_transfer (t : Bus.Transfer) : (transfer t).Meets exactly fun reply => exactly.fine ⟨.transfer t, reply⟩ :=
  Program.meets_request trivial fun _ hr => hr

theorem meets_probe : Digitizer.probe.Meets exactly Named := by
  refine (meets_transfer _).bind fun reply hr => ?_
  rcases reply with failure | bytes
  · exact named_bus hr
  · obtain ⟨caps, hcaps⟩ := decode_capabilities_of_length (beq_iff_eq.1 (hr _ rfl))
    simp only [hcaps]
    exact (Program.meets_trivial (say _ _)).bind fun _ _ => nofun

theorem meets_readSample : Digitizer.readSample.Meets exactly Named := by
  refine (meets_transfer _).bind fun reply hr => ?_
  rcases reply with failure | bytes
  · exact named_bus hr
  · obtain ⟨s, hs⟩ := decode_sample_of_length (beq_iff_eq.1 (hr _ rfl))
    simp only [hs]
    exact nofun

/-- While transfers are exact, only the consumer makes a notification fail. -/
theorem Notified.refused_of_exactly {d d' : Digitizer} {h : History interface} {r : Result Notification} {e : Error}
    (hn : Notified d h r d') (hexact : ∀ x ∈ h, exactly.fine x) (hr : r = .error e) :
    ∃ frame reason, e = .refused reason ∧ handed frame (.error reason) ∈ h := by
  cases hn with
  | masked | dropped | delivered => cases hr
  | @malformed _ bytes what hdecode =>
    obtain ⟨s, hs⟩ := decode_sample_of_length (beq_iff_eq.1 (hexact (asked (.ok bytes)) (by simp) _ rfl))
    cases hdecode.symm.trans hs
  | @refused _ _ s _ reason =>
    cases hr
    exact ⟨d.latch.frame s, reason, rfl, by simp⟩

/-- What an operation of the digitizer can report while transfers are exact. -/
theorem ends_call_of_exactly {d d' : Digitizer} {m : Method} {h : History interface} {r : Result Answer} {e : Error}
    (he : (d.call m).Ends h (r, d')) (hexact : ∀ x ∈ h, exactly.fine x) (hr : r = .error e) :
    (m = .readSample ∧ ∃ cause, e = .bus (.adapter cause)) ∨
      (m = .notify ∧ ∃ frame reason, e = .refused reason ∧ handed frame (.error reason) ∈ h) := by
  cases m with
  | openDevice | closeDevice | suspend | resume | capabilities =>
    obtain ⟨-, hpair⟩ := Program.ends_done.1 he
    obtain ⟨rfl, -⟩ := Prod.mk.inj hpair
    cases hr
  | readSample =>
    obtain ⟨_, sample, _, rfl, hread, hend⟩ := Program.ends_bind.1 he
    obtain ⟨rfl, hpair⟩ := Program.ends_done.1 hend
    obtain ⟨rfl, -⟩ := Prod.mk.inj hpair
    rw [List.append_nil] at hexact
    have hnamed : Named sample := (meets_readSample.ends hread hexact).2
    rcases sample with e' | s
    · cases hr
      exact .inl ⟨rfl, hnamed e rfl⟩
    · cases hr
  | notify =>
    rcases ends_call he with ⟨-, what, rfl, hn⟩ | ⟨hm, -⟩
    · rcases what with e' | what
      · cases hr
        exact .inr ⟨rfl, hn.refused_of_exactly hexact rfl⟩
      · cases hr
    · exact absurd rfl hm

end Pen

/-! ## Both drivers -/

/-- No length is ever wrong behind an adapter, whatever it answers: it fails a transfer for a cause, or has put any bytes at
all into the buffer. A register helper reports no short transfer. Neither does a controller, whatever it is asked to do, not
even as the cause of a timeout; and the only payload it does not understand is a fault flag, read by an operation that decodes
faults. A digitizer understands all it reads: its probe and its reads fail only for a cause that the adapter named, and a
notification only when the consumer refuses the frame. -/
theorem no_length_errors_behind {τ : Type} (bus : Answerer Bus.adapter τ) (address : UInt8) :
    (∀ (register mask value : UInt8) (s : τ × History Bus.adapter) (expected actual : Nat),
      ((Bus.readRegister register).run.play (Bus.behind address bus) s).result ≠ .error (.short expected actual) ∧
        ((Bus.writeRegister register value).run.play (Bus.behind address bus) s).result ≠ .error (.short expected actual) ∧
        ((Bus.updateRegister register mask value).run.play (Bus.behind address bus) s).result ≠
          .error (.short expected actual)) ∧
    (∀ (υ : Type) (w : Rail.Surroundings υ) (methods : List Rail.Method) (view : Rail.Controller)
        (state : (τ × History Bus.adapter) × υ),
      ∀ k ∈ (Course.run Rail.Controller.call (w.around (Bus.behind address bus)) methods view state).calls,
        ∀ e, k.result = .error e →
          (∀ expected actual, e ≠ .bus (.short expected actual) ∧ e ≠ .timeoutRailOn (.short expected actual)) ∧
            ∀ what, e = .malformed what →
              (k.operation = .readStatus ∨ k.operation = .faultState) ∧ ∃ value, what = .unexpected "fault flag" value) ∧
    ∀ (υ : Type) (w : Pen.Surroundings υ) (state : (τ × History Bus.adapter) × υ),
      (∀ e, (Pen.Digitizer.probe.play (w.around (Bus.behind address bus)) state).result = .error e →
        ∃ cause, e = .bus (.adapter cause)) ∧
      ∀ (operations : List Pen.Method) (d : Pen.Digitizer),
        ∀ k ∈ (Course.run Pen.Digitizer.call (w.around (Bus.behind address bus)) operations d state).calls,
          ∀ e, k.result = .error e →
            (k.operation = .readSample ∧ ∃ cause, e = .bus (.adapter cause)) ∨
              (k.operation = .notify ∧
                ∃ frame reason, e = .refused reason ∧ Pen.handed frame (.error reason) ∈ k.history) := by
  have hdevice {α : Type} {action : Bus.Action α} (h : action.run.Meets Bus.exactly Bus.Named)
      (s : τ × History Bus.adapter) : Bus.Named (action.run.play (Bus.behind address bus) s).result :=
    (h.ends (Program.ends_play _ _ s) (Program.fine_play (Bus.isExact_behind address bus) _ s)).2
  refine ⟨fun register mask value s expected actual => ⟨?_, ?_, ?_⟩, ?_, ?_⟩
  · exact (hdevice (Bus.meets_readRegister register) s).ne_short expected actual
  · exact (hdevice (Bus.meets_writeRegister register value) s).ne_short expected actual
  · exact (hdevice (Bus.meets_updateRegister register mask value) s).ne_short expected actual
  · intro υ w methods view state k hk e he
    obtain ⟨hends, hexact⟩ := Course.ends_run (Rail.exactly_around w address bus) methods view state k hk
    have hexpected := ((Rail.meets_call k.before k.operation).ends hends hexact).2 e he
    refine ⟨fun expected actual => ⟨?_, ?_⟩, ?_⟩
    · rintro rfl
      obtain ⟨cause, hcause⟩ := hexpected
      cases hcause
    · rintro rfl
      obtain ⟨cause, hcause⟩ := hexpected
      cases hcause
    · rintro what rfl
      exact hexpected
  · intro υ w state
    refine ⟨fun e he => ?_, fun operations d k hk e he => ?_⟩
    · have hexact := Program.fine_play (Pen.exactly_around w address bus) Pen.Digitizer.probe state
      exact (Pen.meets_probe.ends (Program.ends_play _ _ state) hexact).2 e he
    · obtain ⟨hends, hexact⟩ := Course.ends_run (Pen.exactly_around w address bus) operations d state k hk
      exact Pen.ends_call_of_exactly hends hexact he

/-- An adapter that says it is done when it has put in one byte. -/
def laxAdapter : Answerer Bus.adapter Unit
  | ⟨_, .write _⟩ => pure (.ok ())
  | ⟨_, .read _⟩ | ⟨_, .exchange _ _⟩ => pure (.ok [0xff])

/-- A consumer that refuses every frame. -/
def Pen.Surroundings.refusing : Pen.Surroundings Unit where
  submit _ := pure (.error "full")
  log _ := pure ()

/-- Behind that adapter the status has a fault without a name, and the digitizer's frame is handed over and refused. -/
theorem no_length_errors_behind_laxAdapter :
    let rail := Course.run Rail.Controller.call (Rail.Surroundings.calm.around (Bus.behind 0x62 laxAdapter)) [.readStatus] {}
      (((), []), ())
    let pen := Course.run Pen.Digitizer.call (Pen.Surroundings.refusing.around (Bus.behind 0x09 laxAdapter))
      [.openDevice, .notify] { capabilities := ⟨0, 0, 0, 0, 0, 0, 0, 0⟩ } (((), []), ())
    (∃ k ∈ rail.calls, ∃ what, k.result = .error (.malformed what) ∧ ∃ value, what = .unexpected "fault flag" value) ∧
      ∃ k ∈ pen.calls, ∃ e, k.result = .error e ∧
        ∃ frame reason, e = .refused reason ∧ Pen.handed frame (.error reason) ∈ k.history := by
  intro rail pen
  obtain ⟨-, hrail, -⟩ := no_length_errors_behind laxAdapter 0x62
  obtain ⟨-, -, hpen⟩ := no_length_errors_behind laxAdapter 0x09
  refine ⟨⟨_, List.mem_cons_self, .unexpected "fault flag" 0x7f, rfl, ?_⟩,
    ⟨_, List.mem_cons_of_mem _ List.mem_cons_self, .refused "full", by rfl, ?_⟩⟩
  · exact ((hrail Unit .calm [.readStatus] {} (((), []), ()) _ List.mem_cons_self _ rfl).2 _ rfl).2
  · have hnotified := (hpen Unit .refusing (((), []), ())).2 [.openDevice, .notify]
      { capabilities := ⟨0, 0, 0, 0, 0, 0, 0, 0⟩ } _ (List.mem_cons_of_mem _ List.mem_cons_self) (.refused "full") (by rfl)
    rcases hnotified with ⟨hread, -⟩ | ⟨-, hrefused⟩
    · cases hread
    · exact hrefused

end PenRail
