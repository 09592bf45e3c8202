import PenRail.Bench.Chip
import PenRail.Pen.Digitizer
import PenRail.Proofs.Alike
import PenRail.Rail.Method

/-!
# Binding a driver to an address

A driver can work on its chip directly, or behind an adapter where the chip has an address. The replies of an adapter land in
buffers of the length asked for, and its failures are named by their cause; so a chip that answers a read with anything but
the bytes asked for is seen differently behind an adapter. With a chip that never does, the drivers see no difference:
`behind_of_isExact` says so of one transfer, and the main result of both drivers and any list of operations.
-/

namespace PenRail

/-! ## One transfer -/

namespace Bus

/-- What an adapter calls a failure. It has no name for a reply that is too short. -/
def Failure.cause : Failure → Cause
  | .adapter cause => cause
  | .short _ _ => .other

variable {τ : Type} {chip : Answerer device τ} {bus : Answerer adapter τ} {address : UInt8}

/-- What the adapter carries out at the address, it carries out on the chip. -/
def Serves (bus : Answerer adapter τ) (address : UInt8) (chip : Answerer device τ) : Prop :=
  ∀ t s, bus ⟨address, t⟩ s = ((chip t s).1.mapError Failure.cause, (chip t s).2)

/-- A read brought as many bytes as were asked for, or the transfer was given up for a cause that an adapter can name. -/
def isExact : Exchange device → Bool
  | ⟨_, .error (.adapter _)⟩ => true
  | ⟨_, .error (.short _ _)⟩ => false
  | ⟨.write _, .ok _⟩ => true
  | ⟨.read length, .ok bytes⟩ => bytes.length == length
  | ⟨.exchange _ length, .ok bytes⟩ => bytes.length == length

/-- The device that is bound to an address: whatever it is asked for it does over the adapter. What went over the adapter is
kept. -/
def behind (address : UInt8) (bus : Answerer adapter τ) : Answerer device (τ × History adapter) :=
  fun t s =>
    let r := (bindTo address t).play bus s.1
    (r.result, (r.state, s.2 ++ r.history))

/-- A transfer as the adapter sees it. -/
def addressed (address : UInt8) (x : Exchange device) : Exchange adapter :=
  ⟨⟨address, x.request⟩, x.reply.mapError Failure.cause⟩

/-- What the bound device makes of the adapter's answer: the reply as its buffer holds it, or the failure by its cause. -/
def Transfer.received (t : Transfer) : Except Cause t.Reply → Except Failure t.Reply
  | .ok reply => .ok (t.fitted reply)
  | .error cause => .error (.adapter cause)

theorem play_bindTo (bus : Answerer adapter τ) (address : UInt8) (t : Transfer) (s : τ) :
    (bindTo address t).play bus s =
      ⟨t.received (bus ⟨address, t⟩ s).1, (bus ⟨address, t⟩ s).2, [⟨⟨address, t⟩, (bus ⟨address, t⟩ s).1⟩]⟩ := by
  have hbind : bindTo address t = Program.ask (I := adapter) ⟨address, t⟩ fun r => .done (t.received r) :=
    congrArg (Program.ask (I := adapter) ⟨address, t⟩) (funext fun r => by cases r <;> rfl)
  rw [hbind]
  rfl

/-- An answer that is exact is received as it is. -/
theorem received_of_isExact {t : Transfer} {reply : Except Failure t.Reply} (hexact : isExact ⟨t, reply⟩ = true) :
    t.received (reply.mapError Failure.cause) = reply := by
  rcases reply with (⟨expected, actual⟩ | cause) | reply
  · cases hexact
  · rfl
  · cases t with
    | write bytes => rfl
    | read length => exact congrArg Except.ok (fit_of_length (beq_iff_eq.1 hexact))
    | exchange bytes length => exact congrArg Except.ok (fit_of_length (beq_iff_eq.1 hexact))

/-- A transfer that is exact is the same behind the adapter, and is all that goes over it. -/
theorem behind_of_isExact (hserves : Serves bus address chip) {t : Transfer} {s : τ} (wire : History adapter)
    (hexact : isExact ⟨t, (chip t s).1⟩ = true) :
    behind address bus t (s, wire) = ((chip t s).1, ((chip t s).2, wire ++ [addressed address ⟨t, (chip t s).1⟩])) := by
  simp only [behind, play_bindTo, hserves t s, received_of_isExact hexact]
  rfl

end Bus

/-! ## Two things with a state each -/

section
variable {σ τ α : Type}

/-- Done by the first of two. -/
def onFirst (f : StateM σ α) : StateM (σ × τ) α :=
  fun s => ((f s.1).1, ((f s.1).2, s.2))

/-- Done by the second of two. -/
def onSecond (f : StateM τ α) : StateM (σ × τ) α :=
  fun s => ((f s.2).1, (s.1, (f s.2).2))

end

section
variable {I : Interface} {τ υ α : Type} (toBus? : Exchange I → Option (Exchange Bus.device)) (address : UInt8)
  (wire : History Bus.adapter)

/-- The same chip and the same surroundings; and over the adapter went, after what went over it before, the transfers of the
history with the address on each. -/
def Bound (h : History I) (s : τ × υ) (t : (τ × History Bus.adapter) × υ) : Prop :=
  t = ((s.1, wire ++ (h.filterMap toBus?).map (Bus.addressed address)), s.2)

variable {toBus? address wire} {h : History I} {s : τ × υ} {t : (τ × History Bus.adapter) × υ} {x : Exchange I}

/-- One more transfer, if it is exact. -/
theorem Bound.onFirst {chip : Answerer Bus.device τ} {bus : Answerer Bus.adapter τ} (hserves : Bus.Serves bus address chip)
    (hst : Bound toBus? address wire h s t) {q : Bus.Transfer} (hx : toBus? x = some ⟨q, (chip q s.1).1⟩)
    (hexact : Bus.isExact ⟨q, (chip q s.1).1⟩ = true) :
    (onFirst (Bus.behind address bus q) t).1 = (onFirst (τ := υ) (chip q) s).1 ∧
      Bound toBus? address wire (h ++ [x]) (onFirst (chip q) s).2 (onFirst (Bus.behind address bus q) t).2 := by
  subst hst
  have hsame := Bus.behind_of_isExact hserves (wire ++ (h.filterMap toBus?).map (Bus.addressed address)) hexact
  simp only [PenRail.onFirst, hsame, Bound]
  simp [hx]

/-- Something else was done. -/
theorem Bound.onSecond (f : StateM υ α) (hst : Bound toBus? address wire h s t) (hx : toBus? x = none) :
    (onSecond f t).1 = (onSecond (σ := τ) f s).1 ∧
      Bound toBus? address wire (h ++ [x]) (onSecond f s).2 (onSecond f t).2 := by
  subst hst
  simp [PenRail.onSecond, Bound, hx]

end

/-! ## The two drivers -/

namespace Rail

/-- What a controller meets besides its chip. -/
structure Surroundings (υ : Type) where
  powerGood : StateM υ (Except String Bool)
  delay : Nat → StateM υ Unit
  log : Log.Entry → StateM υ Unit

variable {τ υ : Type}

/-- A chip and what there is around it. -/
def Surroundings.around (w : Surroundings υ) (chip : Answerer Bus.device τ) : Answerer interface (τ × υ)
  | .transfer t => onFirst (chip t)
  | .powerGood => onSecond w.powerGood
  | .delay nanoseconds => onSecond (w.delay nanoseconds)
  | .log entry => onSecond (w.log entry)

/-- The transfer that was asked for, and how it ended. -/
def toBus? : Exchange interface → Option (Exchange Bus.device)
  | ⟨.transfer t, reply⟩ => some ⟨t, reply⟩
  | _ => none

theorem Surroundings.alike (w : Surroundings υ) {chip : Answerer Bus.device τ} {bus : Answerer Bus.adapter τ}
    {address : UInt8} (hserves : Bus.Serves bus address chip) (wire : History Bus.adapter) :
    Alike (w.around chip) (w.around (Bus.behind address bus)) (fun x => ∀ y, toBus? x = some y → Bus.isExact y)
      (Bound toBus? address wire) := by
  intro h s u q hsu hfine
  cases q with
  | transfer t => exact hsu.onFirst hserves rfl (hfine _ rfl)
  | powerGood | delay | log => exact hsu.onSecond _ rfl

end Rail

namespace Pen

/-- What a digitizer meets besides its chip. -/
structure Surroundings (υ : Type) where
  submit : Frame → StateM υ (Except String Unit)
  log : Log.Entry → StateM υ Unit

variable {τ υ : Type}

/-- A chip and what there is around it. -/
def Surroundings.around (w : Surroundings υ) (chip : Answerer Bus.device τ) : Answerer interface (τ × υ)
  | .transfer t => onFirst (chip t)
  | .submit frame => onSecond (w.submit frame)
  | .log entry => onSecond (w.log entry)

/-- The transfer that was asked for, and how it ended. -/
def toBus? : Exchange interface → Option (Exchange Bus.device)
  | ⟨.transfer t, reply⟩ => some ⟨t, reply⟩
  | _ => none

theorem Surroundings.alike (w : Surroundings υ) {chip : Answerer Bus.device τ} {bus : Answerer Bus.adapter τ}
    {address : UInt8} (hserves : Bus.Serves bus address chip) (wire : History Bus.adapter) :
    Alike (w.around chip) (w.around (Bus.behind address bus)) (fun x => ∀ y, toBus? x = some y → Bus.isExact y)
      (Bound toBus? address wire) := by
  intro h s u q hsu hfine
  cases q with
  | transfer t => exact hsu.onFirst hserves rfl (hfine _ rfl)
  | submit | log => exact hsu.onSecond _ rfl

end Pen

/-! ## Sessions -/

/-- Binding to an address is transparent. Take a chip and an adapter that carries out on it what it is asked for at an
address, with surroundings of any kind. Where the chip answers exactly, a controller operated in any way does behind the
adapter what it does on the chip itself: each call has the same result, view, log, readings and waits, and over the adapter
go the transfers of the calls, in order, with the address on each. So does a digitizer, from its probe on. -/
theorem binding_is_transparent {τ : Type} {chip : Answerer Bus.device τ} {bus : Answerer Bus.adapter τ} {address : UInt8}
    (hserves : Bus.Serves bus address chip) :
    (∀ (υ : Type) (w : Rail.Surroundings υ) (methods : List Rail.Method) (view : Rail.Controller) (state : τ × υ),
      let direct := Course.run Rail.Controller.call (w.around chip) methods view state
      let bound := Course.run Rail.Controller.call (w.around (Bus.behind address bus)) methods view ((state.1, []), state.2)
      let transfers := direct.exchanged.filterMap Rail.toBus?
      (∀ x ∈ transfers, Bus.isExact x) →
        bound.calls = direct.calls ∧ bound.view = direct.view ∧
          bound.state = ((direct.state.1, transfers.map (Bus.addressed address)), direct.state.2)) ∧
    ∀ (υ : Type) (w : Pen.Surroundings υ) (state : τ × υ),
      let probed := Pen.Digitizer.probe.play (w.around chip) state
      let boundProbed := Pen.Digitizer.probe.play (w.around (Bus.behind address bus)) ((state.1, []), state.2)
      let asked := probed.history.filterMap Pen.toBus?
      (∀ x ∈ asked, Bus.isExact x) →
        boundProbed.result = probed.result ∧ boundProbed.history = probed.history ∧
          boundProbed.state = ((probed.state.1, asked.map (Bus.addressed address)), probed.state.2) ∧
          ∀ d, probed.result = .ok d → ∀ operations : List Pen.Method,
            let direct := Course.run Pen.Digitizer.call (w.around chip) operations d probed.state
            let bound := Course.run Pen.Digitizer.call (w.around (Bus.behind address bus)) operations d boundProbed.state
            let transfers := direct.exchanged.filterMap Pen.toBus?
            (∀ x ∈ transfers, Bus.isExact x) →
              bound.calls = direct.calls ∧ bound.view = direct.view ∧
                bound.state = ((direct.state.1, (asked ++ transfers).map (Bus.addressed address)), direct.state.2) := by
  constructor
  · intro υ w methods view state direct bound transfers hexact
    have hrun : Course.WentAlike _ direct bound := Course.run_alike Rail.Controller.call (w.alike hserves []) methods view
      rfl fun x hx y hy => hexact y (List.mem_filterMap.2 ⟨x, hx, hy⟩)
    exact ⟨hrun.calls, hrun.view, hrun.state⟩
  · intro υ w state probed boundProbed asked hexact
    obtain ⟨hresult, hhistory, hstate⟩ := Pen.Digitizer.probe.play_alike (w.alike hserves []) (h := []) rfl fun x hx y hy =>
      hexact y (List.mem_filterMap.2 ⟨x, hx, hy⟩)
    refine ⟨hresult, hhistory, hstate, ?_⟩
    intro d _ operations direct bound transfers hexact
    have hstart : Bound Pen.toBus? address (asked.map (Bus.addressed address)) [] probed.state boundProbed.state := by
      rw [Bound, List.filterMap_nil, List.map_nil, List.append_nil]
      exact hstate
    have hrun : Course.WentAlike _ direct bound := Course.run_alike Pen.Digitizer.call (w.alike hserves _) operations d
      hstart fun x hx y hy => hexact y (List.mem_filterMap.2 ⟨x, hx, hy⟩)
    refine ⟨hrun.calls, hrun.view, hrun.state.trans ?_⟩
    rw [List.map_append]

/-- A chip on the bench serves an adapter at any address. -/
theorem serves_chip (address : UInt8) :
    Bus.Serves (fun q c => Bench.Chip.answerAdapter c q.transfer) address fun t c => Bench.Chip.answer c t := by
  intro t c
  simp only [Bench.Chip.answerAdapter]
  rcases c.answer t with ⟨(⟨expected, actual⟩ | cause) | reply, later⟩ <;> rfl

/-- A chip that takes one more write, and has the digitizer's limits, a report of a pen and a failure to give. -/
def sparingChip : Bench.Chip where
  registers _ := 0x05
  replies := [.bytes (List.replicate 21 0), .bytes ([0x00, 0x00, 0x00, 0x20] ++ List.replicate 18 0), .fails (.adapter .bus)]
  writesLeft := some 1

/-- Power is always good, and nobody listens. -/
def Rail.Surroundings.calm : Rail.Surroundings Unit where
  powerGood := pure (.ok true)
  delay _ := pure ()
  log _ := pure ()

/-- Every frame is taken, and nobody listens. -/
def Pen.Surroundings.calm : Pen.Surroundings Unit where
  submit _ := pure (.ok ())
  log _ := pure ()

/-- With that chip a switch-on fails at its write behind the adapter as it does without, and the digitizer delivers one report
and drops the next. -/
theorem binding_is_transparent_sparingChip :
    let bus : Answerer Bus.adapter Bench.Chip := fun q c => c.answerAdapter q.transfer
    let switched := Course.run Rail.Controller.call (Rail.Surroundings.calm.around (Bus.behind 0x62 bus)) [.init, .enable] {}
      ((sparingChip, []), ())
    let probed := Pen.Digitizer.probe.play (Pen.Surroundings.calm.around (Bus.behind 0x09 bus)) ((sparingChip, []), ())
    let notified := Course.run Pen.Digitizer.call (Pen.Surroundings.calm.around (Bus.behind 0x09 bus))
      [.openDevice, .notify, .notify] { capabilities := ⟨0, 0, 0, 0, 0, 0, 0, 0⟩ } probed.state
    (switched.calls.map Called.result = [.ok .unit, .error (.bus (.adapter (.noAcknowledge .data)))] ∧
        switched.state.1.2.map Exchange.request =
          [⟨0x62, .write [0x06, 0x00]⟩, ⟨0x62, .exchange [0x00] 1⟩, ⟨0x62, .write [0x00, 0x85]⟩]) ∧
      notified.calls.map (fun k => k.history.length) = [0, 2, 2] ∧
      notified.state.1.2.map Exchange.request =
        [⟨0x09, .exchange Pen.queryCommand 21⟩, ⟨0x09, .read 22⟩, ⟨0x09, .read 22⟩] := by
  obtain ⟨hswitched, -, hwire⟩ :=
    (binding_is_transparent (serves_chip 0x62)).1 Unit .calm [.init, .enable] {} (sparingChip, ()) (by decide)
  obtain ⟨-, -, -, hsessions⟩ := (binding_is_transparent (serves_chip 0x09)).2 Unit .calm (sparingChip, ()) (by decide)
  obtain ⟨hnotified, -, hasked⟩ :=
    hsessions { capabilities := ⟨0, 0, 0, 0, 0, 0, 0, 0⟩ } (by rfl) [.openDevice, .notify, .notify] (by decide)
  refine ⟨⟨(congrArg (List.map Called.result) hswitched).trans ?_, ?_⟩, ?_, ?_⟩
  · rfl
  · refine (congrArg (fun s => s.1.2.map Exchange.request) hwire).trans ?_
    rfl
  · refine (congrArg (List.map fun k => k.history.length) hnotified).trans ?_
    rfl
  · refine (congrArg (fun s => s.1.2.map Exchange.request) hasked).trans ?_
    rfl

end PenRail
