import PenRail.Proofs.Command.Deeds
import PenRail.Proofs.Command.Tasks
import PenRail.Proofs.Rail.AfterSwitch

/-!
# The chip of the rail on a machine

A machine may have, among all else, a chip of registers at some place. `Host.HoldsChip` asks for no more than that it stores what
is written to it and gives back what it holds, whenever a transfer is carried out; which transfers are, and all that the rest of
the machine does, is left open. `toRail?` is how the controller of the rail sees an exchange with the machine. So what the history
of a run says of the chip and of the power-good line can be read off the acts of the controller, and the other way round.
-/

namespace PenRail

open Bench.Chip (store)
open Program (Unfolds ends_bind ends_done ends_request)
open Rail (acts modeRead registersAfter)

/-! ## The machine -/

namespace Host

/-- The registers of the chip at a place after an exchange: a pair of bytes that was written to it is a register and its new
value. -/
def stored (place : Command.Place) (registers : UInt8 → UInt8) : Exchange interface → UInt8 → UInt8
  | ⟨.transfer path ⟨address, .write [register, value]⟩, .ok _⟩ =>
    if (⟨path, address⟩ : Command.Place) = place then store registers register value else registers
  | _ => registers

/-- A register of the chip at a place that was read is what the chip holds. -/
def Tells (place : Command.Place) (registers : UInt8 → UInt8) (x : Exchange interface) : Prop :=
  ∀ register bytes, x = ⟨.transfer place.path ⟨place.address, .exchange [register] 1⟩, .ok bytes⟩ →
    Bus.fit 1 bytes = [registers register]

/-- The machine has a chip of registers at the place. A transfer that fails changes no register. -/
structure HoldsChip {σ : Type} (answer : Answerer interface σ) (place : Command.Place) (registers : σ → UInt8 → UInt8) :
    Prop where
  stores : ∀ q state, registers (answer q state).2 = stored place (registers state) ⟨q, (answer q state).1⟩
  tells : ∀ q state, Tells place (registers state) ⟨q, (answer q state).1⟩

/-- The level of a reading of the line. -/
def reading? (line : UInt64) : Exchange interface → Option (Except String Bool)
  | ⟨.readLine number, level⟩ => if number = line then some level else none
  | _ => none

end Host

/-! ## As the controller sees it -/

namespace Command

/-- The level of the power-good line as the controller is told. -/
def PowerGoodLine.heard (activeLow : Bool) : Except String Bool → Except String Bool
  | .ok level => .ok (level != activeLow)
  | .error _ => .error unreadable

/-- An exchange with the machine as the controller of the rail at a place sees it, if it sees it at all. -/
def toRail? (place : Place) (line : UInt64) (activeLow : Bool) : Exchange Host.interface → Option (Exchange Rail.interface)
  | ⟨.transfer path q, raw⟩ =>
    if (⟨path, q.address⟩ : Place) = place then some ⟨.transfer q.transfer, q.transfer.received raw⟩ else none
  | ⟨.readLine number, level⟩ => if number = line then some ⟨.powerGood, PowerGoodLine.heard activeLow level⟩ else none
  | ⟨.delay nanoseconds, _⟩ => some ⟨.delay nanoseconds, ()⟩
  | _ => none

variable {place : Place} {line : UInt64} {activeLow : Bool}

/-- Text is nothing to the controller. -/
theorem toRail?_deeds (h : History Host.interface) :
    (Host.deeds h).filterMap (toRail? place line activeLow) = h.filterMap (toRail? place line activeLow) := by
  rw [Host.deeds, List.filterMap_filter]
  congr 1
  funext x
  obtain ⟨q, r⟩ := x
  cases q <;> rfl

/-- What is stored is what the controller sees stored. -/
theorem stored_eq (registers : UInt8 → UInt8) (x : Exchange Host.interface) :
    Host.stored place registers x =
      match toRail? place line activeLow x with
      | some y => Rail.stored registers y
      | none => registers := by
  obtain ⟨q, r⟩ := x
  cases q with
  | transfer path q =>
    obtain ⟨address, t⟩ := q
    have hstored : Host.stored place registers ⟨.transfer path ⟨address, t⟩, r⟩ =
        if (⟨path, address⟩ : Place) = place then Rail.stored registers ⟨.transfer t, t.received r⟩ else registers := by
      cases t with
      | read | exchange => exact (ite_self _).symm
      | write bytes =>
        rcases bytes with _ | ⟨register, _ | ⟨value, _ | _⟩⟩
        · exact (ite_self _).symm
        · exact (ite_self _).symm
        · rcases r with cause | u
          · exact (ite_self _).symm
          · rfl
        · exact (ite_self _).symm
    rw [hstored, toRail?]
    split <;> rfl
  | readLine number =>
    by_cases hnumber : number = line
    · rw [toRail?, if_pos hnumber]
      rfl
    · rw [toRail?, if_neg hnumber]
      rfl
  | _ => rfl

theorem foldl_stored (registers : UInt8 → UInt8) (h : History Host.interface) :
    h.foldl (Host.stored place) registers = registersAfter registers (h.filterMap (toRail? place line activeLow)) := by
  induction h generalizing registers with
  | nil => rfl
  | cons x h ih =>
    rw [List.foldl_cons, ih, @stored_eq place line activeLow, List.filterMap_cons]
    cases toRail? place line activeLow x <;> rfl

/-- A transfer that the controller sees is one with its chip. -/
theorem eq_of_toRail?_transfer {x : Exchange Host.interface} {t : Bus.Transfer} {reply : Except Bus.Failure t.Reply}
    (hx : toRail? place line activeLow x = some ⟨.transfer t, reply⟩) :
    ∃ raw, x = ⟨.transfer place.path ⟨place.address, t⟩, raw⟩ ∧ reply = t.received raw := by
  obtain ⟨q, r⟩ := x
  cases q with
  | transfer path q =>
    obtain ⟨address, u⟩ := q
    by_cases hplace : (⟨path, address⟩ : Place) = place
    · simp only [toRail?, if_pos hplace, Option.some.injEq, Exchange.mk.injEq, Rail.Request.transfer.injEq] at hx
      obtain ⟨rfl, hreply⟩ := hx
      subst hplace
      exact ⟨r, rfl, (eq_of_heq hreply).symm⟩
    · simp [toRail?, if_neg hplace] at hx
  | readLine number =>
    by_cases hnumber : number = line
    · simp [toRail?, if_pos hnumber] at hx
    · simp [toRail?, if_neg hnumber] at hx
  | delay => simp [toRail?] at hx
  | _ => cases hx

/-- The readings that the controller sees are those of its line. -/
theorem readings_eq (h : History Host.interface) :
    (h.filterMap (toRail? place line activeLow)).filterMap Rail.reading? =
      (h.filterMap (Host.reading? line)).map (PowerGoodLine.heard activeLow) := by
  rw [List.filterMap_filterMap, List.map_filterMap]
  congr 1
  funext x
  obtain ⟨q, r⟩ := x
  cases q with
  | transfer path q =>
    rw [toRail?]
    split <;> rfl
  | readLine number =>
    rw [toRail?, Host.reading?]
    split <;> rfl
  | _ => rfl

theorem PowerGoodLine.heard_eq_ok {level : Except String Bool} {good : Bool} :
    heard activeLow level = .ok good ↔ level = .ok (good != activeLow) := by
  rcases level with reason | level
  · exact ⟨nofun, nofun⟩
  · rw [heard, Except.ok.injEq, Except.ok.injEq]
    cases level <;> cases good <;> cases activeLow <;> decide

theorem PowerGoodLine.exists_of_heard_error {level : Except String Bool} {told : String}
    (h : heard activeLow level = .error told) : ∃ reason, level = .error reason := by
  rcases level with reason | level
  · exact ⟨reason, rfl⟩
  · cases h

/-- A transfer that failed for the controller failed on the machine, between what the controller saw before and after. -/
theorem exists_failed {h : History Host.interface} {earlier later : History Rail.interface} {t : Bus.Transfer}
    {failure : Bus.Failure} (hh : h.filterMap (toRail? place line activeLow) = earlier ++ ⟨.transfer t, .error failure⟩ :: later) :
    ∃ before cause after, h = before ++ ⟨.transfer place.path ⟨place.address, t⟩, .error cause⟩ :: after ∧
      before.filterMap (toRail? place line activeLow) = earlier ∧ after.filterMap (toRail? place line activeLow) = later := by
  obtain ⟨before, rest, rfl, hbefore, hrest⟩ := List.filterMap_eq_append_iff.1 hh
  obtain ⟨unseen, x, after, rfl, hunseen, hx, hafter⟩ := List.filterMap_eq_cons_iff.1 hrest
  obtain ⟨raw, rfl, hreply⟩ := eq_of_toRail?_transfer hx
  rcases raw with cause | reply
  · refine ⟨before ++ unseen, cause, after, (List.append_assoc _ _ _).symm, ?_, hafter⟩
    rw [List.filterMap_append, hbefore, List.filterMap_eq_nil_iff.2 hunseen, List.append_nil]
  · cases hreply

theorem heard_read {l : PowerGoodLine} {h : History interface} {r : Except String Bool} (hl : l = .line line activeLow)
    (he : l.read.Ends h r) : ∃ level, deeds h = [⟨.readLine line, level⟩] ∧ r = PowerGoodLine.heard activeLow level := by
  subst hl
  obtain ⟨_, level, _, rfl, hread, hrest⟩ := ends_bind.1 he
  obtain rfl := ends_host.1 hread
  rcases level with reason | level
  · obtain ⟨_, _, _, rfl, hsay, hend⟩ := ends_bind.1 hrest
    obtain rfl := ends_say.1 hsay
    obtain ⟨rfl, rfl⟩ := ends_done.1 hend
    exact ⟨.error reason, rfl, rfl⟩
  · obtain ⟨rfl, rfl⟩ := ends_done.1 hrest
    exact ⟨.ok level, rfl, rfl⟩

/-- Below the controller, its acts and nothing else are done. -/
theorem acts_eq {access : RailAccess} (hplace : access.place = place) (hline : access.line = .line line activeLow)
    {outer : History Rail.interface} {h : History interface} (hu : Unfolds access.answer outer h) :
    (deeds h).filterMap (toRail? place line activeLow) = acts outer := by
  induction hu with
  | nil => rfl
  | @cons x outer stretch inner answered _ ih =>
    have hstretch : (deeds stretch).filterMap (toRail? place line activeLow) = acts [x] := by
      obtain ⟨q, r⟩ := x
      cases q with
      | transfer t =>
        obtain ⟨raw, rfl, hreply⟩ := ends_transfer answered
        subst hplace
        change r = _ at hreply
        subst hreply
        exact List.filterMap_cons_some (if_pos rfl)
      | powerGood =>
        obtain ⟨level, hdeeds, hreply⟩ := heard_read hline answered
        change r = _ at hreply
        subst hreply
        rw [hdeeds]
        exact List.filterMap_cons_some (if_pos rfl)
      | delay nanoseconds =>
        obtain rfl := ends_host.1 answered
        rfl
      | log entry =>
        obtain rfl := ends_request.1 answered
        rfl
    rw [deeds_append, List.filterMap_append, hstretch, ih, ← Rail.acts_append]
    rfl

/-! ## Over a run -/

section
variable {σ α : Type} {answer : Answerer Host.interface σ} {registers : σ → UInt8 → UInt8}
  (hchip : Host.HoldsChip answer place registers) (line : UInt64) (activeLow : Bool) (p : Program Host.interface α) (s : σ)
include hchip

/-- The chip holds what the controller has seen stored. -/
theorem registers_play : registers (p.play answer s).state =
    registersAfter (registers s) ((p.play answer s).history.filterMap (toRail? place line activeLow)) :=
  (Program.view_play hchip.stores p s).trans (foldl_stored (registers s) _)

/-- Each mode byte that the controller has read is the one that the chip held there. -/
theorem told_play : Rail.Told (registers s) ((p.play answer s).history.filterMap (toRail? place line activeLow)) := by
  refine throughout_filterMap.2 ((Program.throughout_play hchip.stores hchip.tells p s).mono fun earlier y _ htells x hy => ?_)
  rintro mode rest rfl
  obtain ⟨raw, rfl, hreply⟩ := eq_of_toRail?_transfer hy
  rw [foldl_stored] at htells
  rcases raw with cause | bytes
  · cases hreply
  · have hheld := htells Rail.Register.operationMode bytes rfl
    exact (List.cons.inj ((Except.ok.inj hreply).trans hheld)).1

end

/-- Behind an adapter every read brings a byte. -/
theorem modeRead_not_empty (h : History Host.interface) : modeRead (.ok []) ∉ h.filterMap (toRail? place line activeLow) := by
  intro hin
  obtain ⟨x, -, hx⟩ := List.mem_filterMap.1 hin
  obtain ⟨raw, -, hreply⟩ := eq_of_toRail?_transfer hx
  rcases raw with cause | bytes
  · cases hreply
  · have hempty : [] = Bus.fit 1 bytes := Except.ok.inj hreply
    have hlength := Bus.fit_length 1 bytes
    rw [← hempty] at hlength
    cases hlength

end Command

end PenRail
