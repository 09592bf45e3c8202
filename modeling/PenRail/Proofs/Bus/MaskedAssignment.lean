import PenRail.Proofs.Bus.RegisterChip

/-!
# Assignment under a mask

A change under a mask is a read and, only if the register does not hold the wanted value, a write. It acts as one assignment:
the bits that the mask selects are those of the new value and the others are kept (`getLsbD_blend`), or nothing is changed at
all. `history_updateRegister` lists the transfers. From what a blend does to each bit it follows that doing it twice is doing
it once, and that changes under masks without a common bit do not get in each other's way.
-/

namespace PenRail.Bus

/-! ## Bits -/

section
variable (current mask value : UInt8)

/-- A bit that is selected comes from the value, any other stays. -/
theorem getLsbD_blend (i : Nat) : (blend current mask value).toBitVec.getLsbD i =
    if mask.toBitVec.getLsbD i then value.toBitVec.getLsbD i else current.toBitVec.getLsbD i := by
  by_cases hi : i < 8
  · simp only [blend, UInt8.toBitVec_or, UInt8.toBitVec_and, UInt8.toBitVec_not, BitVec.getLsbD_or, BitVec.getLsbD_and,
      BitVec.getLsbD_not, hi]
    cases mask.toBitVec.getLsbD i <;> simp
  · simp [BitVec.getLsbD_of_ge _ i (Nat.not_lt.1 hi)]

/-- A byte is its bits. -/
theorem eq_of_getLsbD {a b : UInt8} (h : ∀ i, a.toBitVec.getLsbD i = b.toBitVec.getLsbD i) : a = b :=
  UInt8.toBitVec_inj.1 (BitVec.eq_of_getLsbD_eq fun i _ => h i)

theorem blend_blend_self : blend (blend current mask value) mask value = blend current mask value := by
  refine eq_of_getLsbD fun i => ?_
  rw [getLsbD_blend, getLsbD_blend]
  split <;> rfl

/-- Without a common bit the order does not matter. -/
theorem blend_blend_comm {mask mask' : UInt8} (hmask : mask &&& mask' = 0) (value' : UInt8) :
    blend (blend current mask value) mask' value' = blend (blend current mask' value') mask value := by
  refine eq_of_getLsbD fun i => ?_
  have hbit : (mask.toBitVec.getLsbD i && mask'.toBitVec.getLsbD i) = false := by
    rw [← BitVec.getLsbD_and, ← UInt8.toBitVec_and, hmask]
    exact BitVec.getLsbD_zero
  simp only [getLsbD_blend]
  cases hfirst : mask.toBitVec.getLsbD i with
  | false => rfl
  | true =>
    rw [hfirst, Bool.true_and] at hbit
    rw [hbit]
    rfl

end

/-- The bytes of a write, whether or not it succeeded. -/
def write? (x : Exchange device) : Option Bytes :=
  match x.request with
  | .write bytes => some bytes
  | _ => none

namespace RegisterChip

open Bench.Chip (store)

/-! ## One change -/

variable (c : RegisterChip) (register mask value : UInt8)

/-- The transfers of a change: the read, and a write if the read has brought another value than the wanted one. -/
theorem history_updateRegister :
    ((updateRegister register mask value).run.play answer c).history =
      ((readRegister register).run.play answer c).history ++
        match c.readOutcome register with
        | .ok current =>
          if blend current mask value = current then []
          else [⟨.write [register, blend current mask value], c.later.writeOutcome⟩]
        | .error _ => [] := by
  rw [updateRegister_run, Program.play_bind, Played.behind_history, play_readRegister]
  cases c.readOutcome register with
  | error failure => rfl
  | ok current =>
    by_cases hsame : blend current mask value = current
    · simp only [if_pos hsame]
      rfl
    · simp only [if_neg hsame, play_writeRegister]

/-- What a read brings is what the register holds. -/
theorem eq_of_readOutcome {current : UInt8} (hread : c.readOutcome register = .ok current) :
    current = c.registers register := by
  unfold readOutcome at hread
  split at hread
  · exact (Except.ok.inj hread).symm
  · cases hread
  · cases hread

theorem registers_of_updateRegister_ok (hok : ((updateRegister register mask value).run.play answer c).result = .ok ()) :
    ((updateRegister register mask value).run.play answer c).state.registers =
      store c.registers register (blend (c.registers register) mask value) := by
  rcases c.registers_updateRegister register mask value with ⟨-, hset⟩ | ⟨failure, herror, -⟩
  · exact hset
  · cases herror.symm.trans hok

theorem registers_of_updateRegister_error {failure : Failure}
    (herror : ((updateRegister register mask value).run.play answer c).result = .error failure) :
    ((updateRegister register mask value).run.play answer c).state.registers = c.registers := by
  rcases c.registers_updateRegister register mask value with ⟨hok, -⟩ | ⟨_, -, hsame⟩
  · cases hok.symm.trans herror
  · exact hsame

/-- What is written: the wanted value, if the read has brought another one. -/
theorem writes_updateRegister :
    ((updateRegister register mask value).run.play answer c).history.filterMap write? =
      match c.readOutcome register with
      | .ok current =>
        if blend current mask value = current then [] else [[register, blend current mask value]]
      | .error _ => [] := by
  have hread : ((readRegister register).run.play answer c).history.filterMap write? = [] := by
    rw [play_readRegister]
    rfl
  rw [history_updateRegister, List.filterMap_append, hread, List.nil_append]
  cases c.readOutcome register with
  | error failure => rfl
  | ok current =>
    by_cases hsame : blend current mask value = current
    · simp only [if_pos hsame]
      rfl
    · simp only [if_neg hsame]
      rfl

/-- Where the register holds the wanted value nothing is written. -/
theorem writes_of_blend_eq (hsame : blend (c.registers register) mask value = c.registers register) :
    ((updateRegister register mask value).run.play answer c).history.filterMap write? = [] := by
  rw [writes_updateRegister]
  cases hread : c.readOutcome register with
  | error failure => rfl
  | ok current =>
    obtain rfl := c.eq_of_readOutcome register hread
    exact if_pos hsame

/-! ## Two changes -/

/-- A bus that works keeps working. -/
theorem works_play {α : Type} {c : RegisterChip} (hworks : ∀ i, c.fates i = .carriedOut) (p : Program device α) :
    ∀ i, (p.play answer c).state.fates i = .carriedOut := by
  induction p generalizing c with
  | done a => exact hworks
  | ask t next ih =>
    refine ih _ fun i => ?_
    rw [answer_fates]
    exact hworks (i + 1)

section
variable (mask' value' : UInt8)

/-- One change after another on the same register, if the first one succeeds. -/
theorem play_updateRegister_bind :
    let first := (updateRegister register mask value).run.play answer c
    (updateRegister register mask value >>= fun _ => updateRegister register mask' value').run.play answer c =
      match first.result with
      | .ok () => ((updateRegister register mask' value').run.play answer first.state).behind first.history
      | .error failure => ⟨.error failure, first.state, first.history⟩ := by
  intro first
  rw [ExceptT.run_bind, Program.play_bind]
  cases hfirst : first.result with
  | error failure => simp [first, Played.behind]
  | ok u => simp [first, Played.behind]

/-- Two changes that succeed blend twice. -/
theorem registers_of_both_ok
    (hok : ((updateRegister register mask value >>= fun _ => updateRegister register mask' value').run.play answer c).result =
      .ok ()) :
    ((updateRegister register mask value >>= fun _ => updateRegister register mask' value').run.play answer c).state.registers =
      store c.registers register (blend (blend (c.registers register) mask value) mask' value') := by
  rw [play_updateRegister_bind] at hok ⊢
  cases hfirst : ((updateRegister register mask value).run.play answer c).result with
  | error failure =>
    rw [hfirst] at hok
    cases hok
  | ok u =>
    rw [hfirst] at hok
    have hset := c.registers_of_updateRegister_ok register mask value hfirst
    simp only [Played.behind_state]
    rw [registers_of_updateRegister_ok _ _ _ _ hok, hset, store_same]
    funext r
    by_cases hr : r = register <;> simp [store, hr]

theorem both_of_works {c : RegisterChip} (hworks : ∀ i, c.fates i = .carriedOut) :
    ((updateRegister register mask value >>= fun _ => updateRegister register mask' value').run.play answer c).result =
      .ok () := by
  rw [play_updateRegister_bind, updateRegister_of_works hworks]
  exact updateRegister_of_works (works_play hworks _) register mask' value'

end

end RegisterChip

open RegisterChip (answer)

/-- A change under a mask is one assignment, whatever becomes of its transfers. Take any chip of registers, whose transfers fail
in any pattern. If the change succeeds the register holds its own bits where the mask has none and those of the value where it
has, and all other registers are as before; if it fails no register has changed. It tries to write exactly if the read
succeeds and brings another value than the wanted one, and then once. After a change that succeeded the same change writes
nothing, whatever becomes of the transfers then. Two changes of one register under masks without a common bit come to the same
contents in either order if all of them succeed, as they do on a bus that works. -/
theorem updateRegister_assigns (c : RegisterChip) (register mask value : UInt8) :
    let held := c.registers register
    let wanted := (held &&& ~~~mask) ||| (value &&& mask)
    let read := (readRegister register).run.play answer c
    let r := (updateRegister register mask value).run.play answer c
    (r.result = .ok () → r.state.registers register = wanted ∧
      ∀ other ≠ register, r.state.registers other = c.registers other) ∧
    (∀ failure, r.result = .error failure → r.state.registers = c.registers) ∧
    (r.history.filterMap write? =
      match read.result with
      | .ok _ => if wanted = held then [] else [[register, wanted]]
      | .error _ => []) ∧
    (r.result = .ok () → ∀ fates,
      ((updateRegister register mask value).run.play answer { r.state with fates }).history.filterMap write? = []) ∧
    ∀ mask' value', mask &&& mask' = 0 →
      let one := (updateRegister register mask value >>= fun _ => updateRegister register mask' value').run.play answer c
      let other := (updateRegister register mask' value' >>= fun _ => updateRegister register mask value).run.play answer c
      (one.result = .ok () → other.result = .ok () → one.state.registers = other.state.registers) ∧
        ((∀ i, c.fates i = .carriedOut) → one.result = .ok () ∧ other.result = .ok ()) := by
  intro held wanted read r
  refine ⟨fun hok => ?_, fun failure herror => ?_, ?_, fun hok fates => ?_, fun mask' value' hmask => ?_⟩
  · have hset := c.registers_of_updateRegister_ok register mask value hok
    refine ⟨?_, fun other hother => ?_⟩
    · rw [hset, RegisterChip.store_same]
      rfl
    · rw [hset, RegisterChip.store_of_ne _ _ hother]
  · exact c.registers_of_updateRegister_error register mask value herror
  · have hresult : read.result = c.readOutcome register := congrArg Played.result (c.play_readRegister register)
    rw [RegisterChip.writes_updateRegister, hresult]
    cases hread : c.readOutcome register with
    | error failure => rfl
    | ok current =>
      obtain rfl := c.eq_of_readOutcome register hread
      rfl
  · have hset := c.registers_of_updateRegister_ok register mask value hok
    refine RegisterChip.writes_of_blend_eq _ register mask value ?_
    change blend (r.state.registers register) mask value = r.state.registers register
    rw [hset, RegisterChip.store_same, blend_blend_self]
  · intro one other
    refine ⟨fun hone hother => ?_, fun hworks => ?_⟩
    · rw [RegisterChip.registers_of_both_ok c register mask value mask' value' hone,
        RegisterChip.registers_of_both_ok c register mask' value' mask value hother, blend_blend_comm _ _ hmask]
    · exact ⟨RegisterChip.both_of_works register mask value mask' value' hworks,
        RegisterChip.both_of_works register mask' value' mask value hworks⟩

/-- Two fields of one register, on a bus that works: either may be written first, and neither is written again. -/
theorem updateRegister_assigns_twoFields :
    let c : RegisterChip := ⟨fun _ => 0x41, fun _ => .carriedOut⟩
    let r := (updateRegister 0 0x80 0x80).run.play answer c
    let again := (updateRegister 0 0x80 0x80).run.play answer r.state
    let one := (updateRegister 0 0x80 0x80 >>= fun _ => updateRegister 0 0x0f 0x02).run.play answer c
    let other := (updateRegister 0 0x0f 0x02 >>= fun _ => updateRegister 0 0x80 0x80).run.play answer c
    r.result = .ok () ∧ r.state.registers 0 = 0xc1 ∧ again.history.filterMap write? = [] ∧ one.state.registers 0 = 0xc2 ∧
      other.state.registers = one.state.registers := by
  intro c r again one other
  obtain ⟨hassigned, -, -, hrepeated, hboth⟩ := updateRegister_assigns c 0 0x80 0x80
  obtain ⟨hsame, hworks⟩ := hboth 0x0f 0x02 (by decide)
  obtain ⟨hone, hother⟩ := hworks fun _ => rfl
  have hok : r.result = .ok () := RegisterChip.updateRegister_of_works (fun _ => rfl) 0 0x80 0x80
  refine ⟨hok, (hassigned hok).1.trans (by decide), hrepeated hok r.state.fates, ?_, (hsame hone hother).symm⟩
  decide

end PenRail.Bus
