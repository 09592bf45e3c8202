import PenRail.Bus.Basic

/-!
# A device behind a shared adapter

An adapter serves many devices, so each transfer names its address. The reply lands in a buffer that was set aside,
zeroed, before the transfer: it has the length asked for whatever the adapter put into it. `fit_length` says so, and it
is why a driver behind an address never sees a short reply.
-/

namespace PenRail.Bus

/-- A transfer and the device it is for. -/
structure Addressed where
  address : UInt8
  transfer : Transfer
  deriving DecidableEq, Repr

/-- An adapter: it brings back a reply or names the cause of its failure. -/
abbrev adapter : Interface where
  Request := Addressed
  Reply q := Except Cause q.transfer.Reply

/-- Bytes in a zeroed buffer of `n`: cut where it ends, zeros where they end. -/
def fit (n : Nat) (bytes : Bytes) : Bytes :=
  bytes.take n ++ List.replicate (n - bytes.length) 0

theorem fit_length (n : Nat) (bytes : Bytes) : (fit n bytes).length = n := by
  simp only [fit, List.length_append, List.length_take, List.length_replicate]
  omega

theorem fit_of_length {n : Nat} {bytes : Bytes} (h : bytes.length = n) : fit n bytes = bytes := by
  simp [fit, h, List.take_of_length_le (Nat.le_of_eq h)]

/-- The reply as its buffer holds it. -/
def Transfer.fitted : (t : Transfer) → t.Reply → t.Reply
  | .write _, reply => reply
  | .read length, reply => fit length reply
  | .exchange _ length, reply => fit length reply

/-- What a device does over an adapter: the same transfers, each carrying its address. -/
def bindTo (address : UInt8) (t : Transfer) : Program adapter (Except Failure t.Reply) := do
  match (← Program.request (⟨address, t⟩ : Addressed) : Except Cause t.Reply) with
  | .ok reply => pure (.ok (t.fitted reply))
  | .error cause => pure (.error (.adapter cause))

end PenRail.Bus
