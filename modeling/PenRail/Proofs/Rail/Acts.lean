import PenRail.Proofs.Rail.Footprint

/-!
# What is done in a history

`acts` are the exchanges of a history that reach the chip, the power-good line or the clock, in order; the log is left
out. `tally` sums them up: how often the line was read, the delays that were asked for, and the transfers.
-/

namespace PenRail.Rail

/-- An exchange with the chip, the line or the clock: anything but a log entry. -/
def isAct (x : Exchange interface) : Bool :=
  match x.request with
  | .log _ => false
  | _ => true

def isReading (x : Exchange interface) : Bool :=
  match x.request with
  | .powerGood => true
  | _ => false

def isTransfer (x : Exchange interface) : Bool :=
  match x.request with
  | .transfer _ => true
  | _ => false

/-- The delay that was asked for, in nanoseconds. -/
def delay? (x : Exchange interface) : Option Nat :=
  match x.request with
  | .delay nanoseconds => some nanoseconds
  | _ => none

/-- A history without its log entries. -/
def acts (h : History interface) : History interface :=
  h.filter isAct

structure Tally where
  /-- How often the line was read. -/
  reads : Nat
  delays : List Nat
  transfers : History interface

/-- One tally and another that comes after it. -/
def Tally.append (t u : Tally) : Tally :=
  ⟨t.reads + u.reads, t.delays ++ u.delays, t.transfers ++ u.transfers⟩

def tally (h : History interface) : Tally :=
  ⟨h.countP isReading, h.filterMap delay?, h.filter isTransfer⟩

theorem acts_append (h₁ h₂ : History interface) : acts (h₁ ++ h₂) = acts h₁ ++ acts h₂ :=
  List.filter_append h₁ h₂

theorem tally_append (h₁ h₂ : History interface) : tally (h₁ ++ h₂) = (tally h₁).append (tally h₂) := by
  simp [tally, Tally.append]

/-- What was said does not count. -/
theorem tally_acts (h : History interface) : tally (acts h) = tally h := by
  induction h with
  | nil => rfl
  | cons x h ih =>
    have hx : tally (acts [x]) = tally [x] := by
      obtain ⟨q, r⟩ := x
      cases q <;> rfl
    rw [← List.singleton_append, acts_append, tally_append, tally_append, hx, ih]

/-- All that a part does which only uses the bus are its transfers. -/
theorem tally_of_only {registers : List UInt8} {α : Type} {p : Program interface α}
    (hp : p.Only (Request.StoresIn registers)) {h : History interface} {a : α} (he : p.Ends h a) :
    acts h = h ∧ tally h = ⟨0, [], h⟩ := by
  have hall := hp.ends he
  clear he
  induction h with
  | nil => exact ⟨rfl, rfl⟩
  | cons x h ih =>
    obtain ⟨hacts, htally⟩ := ih fun y hy => hall y (List.mem_cons_of_mem x hy)
    obtain ⟨q, r⟩ := x
    have hq : Request.StoresIn registers q := hall _ List.mem_cons_self
    cases q with
    | transfer t =>
      rw [← List.singleton_append, acts_append, tally_append, hacts, htally]
      exact ⟨rfl, rfl⟩
    | powerGood | delay | log => exact hq.elim

end PenRail.Rail
