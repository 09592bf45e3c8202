import PenRail.Config.Address
import Mathlib.Data.Nat.Digits.Lemmas

/-!
# What an address looks like

An address is a numeral of base ten, or of base sixteen behind a prefix, and the number it denotes has seven bits. `Written` is
that grammar, with the number as the sum of its digits by place; it knows nothing of how a text is read. Reading goes from the
left and gives up as soon as the number so far needs more than sixteen bits, which loses nothing, since more digits only make it
larger (`readDigits_of_digits`). `readAddress_grammar` says that reading accepts what the grammar says, and nothing else.
-/

namespace PenRail.Config

open Nat (ofDigits)

/-! ## The grammar -/

/-- A character that stands for a digit of a base. The digits above nine are letters in either case. -/
def IsDigit (base : Nat) (c : Char) (d : Nat) : Prop :=
  d < base ∧ ("0123456789abcdef".toList[d]? = some c ∨ "0123456789ABCDEF".toList[d]? = some c)

instance (base : Nat) (c : Char) (d : Nat) : Decidable (IsDigit base c d) :=
  inferInstanceAs (Decidable (_ ∧ _))

/-- At least one digit, and the number that the digits denote in a base, the units last. -/
def Denotes (base : Nat) (text : List Char) (n : Nat) : Prop :=
  text ≠ [] ∧ ∃ digits, List.Forall₂ (IsDigit base) text digits ∧ n = ofDigits base digits.reverse

/-- What may stand in front of the digits. -/
inductive Sign : List Char → Prop
  | absent : Sign []
  | plus : Sign ['+']

/-- What an address begins with, and the base that this makes it have. -/
inductive BaseMark : List Char → Nat → Prop
  | decimal : BaseMark [] 10
  | lower : BaseMark ['0', 'x'] 16
  | upper : BaseMark ['0', 'X'] 16

/-- The form of an address, and the number of that form, however large. -/
def Written (text : List Char) (n : Nat) : Prop :=
  ∃ mark base sign digits, BaseMark mark base ∧ Sign sign ∧ text = mark ++ sign ++ digits ∧ Denotes base digits n

/-! ## Digits -/

section
variable {base max n m d : Nat} {above : BadNumber} {c : Char} {text : List Char} {digits : List Nat}

/-- The digits up to nine, and the letters of either case, in the order of their values. -/
theorem getElem?_digits : (∀ k < 10, "0123456789abcdef".toList[k]? = some (Char.ofNat (48 + k))) ∧
    ∀ k < 6, "0123456789abcdef".toList[k + 10]? = some (Char.ofNat (97 + k)) ∧
      "0123456789ABCDEF".toList[k + 10]? = some (Char.ofNat (65 + k)) := by
  decide

theorem isDigit_of_digit? (h : digit? base c = some d) : IsDigit base c d := by
  obtain ⟨hdecimal, hletter⟩ := getElem?_digits
  have hle {a b : Char} (hab : a ≤ b) : a.toNat ≤ b.toNat := UInt32.le_iff_toNat_le.1 hab
  have hchar {k : Nat} (hk : c.toNat = k) : Char.ofNat k = c := by rw [← hk, Char.ofNat_toNat]
  simp only [digit?, Option.filter_eq_some_iff, Bool.and_eq_true, decide_eq_true_eq] at h
  obtain ⟨hvalue, hbase⟩ := h
  refine ⟨hbase, ?_⟩
  split at hvalue
  · next hrange =>
    have hzero : 48 ≤ c.toNat := hle hrange.1
    have hnine : c.toNat ≤ 57 := hle hrange.2
    have hd : c.toNat - 48 = d := Option.some.inj hvalue
    have hdigit := hdecimal d (by omega)
    rw [hchar (by omega)] at hdigit
    exact .inl hdigit
  · split at hvalue
    · next hrange =>
      have ha : 97 ≤ c.toNat := hle hrange.1
      have hf : c.toNat ≤ 102 := hle hrange.2
      obtain rfl : c.toNat - 97 + 10 = d := Option.some.inj hvalue
      have hdigit := (hletter (c.toNat - 97) (by omega)).1
      rw [hchar (by omega)] at hdigit
      exact .inl hdigit
    · split at hvalue
      · next hrange =>
        have ha : 65 ≤ c.toNat := hle hrange.1
        have hf : c.toNat ≤ 70 := hle hrange.2
        obtain rfl : c.toNat - 65 + 10 = d := Option.some.inj hvalue
        have hdigit := (hletter (c.toNat - 65) (by omega)).2
        rw [hchar (by omega)] at hdigit
        exact .inr hdigit
      · cases hvalue

theorem digit?_of_isDigit (h : IsDigit base c d) : digit? base c = some d := by
  have hall : ∀ d < 16, "0123456789abcdef".toList[d]?.all (digit? 16 · == some d) ∧
      "0123456789ABCDEF".toList[d]?.all (digit? 16 · == some d) := by
    decide
  have hsixteen : digit? 16 c = some d := by
    rcases h.2 with hc | hc
    · have hread := (hall d (List.getElem?_eq_some_iff.1 hc).1).1
      rw [hc] at hread
      exact beq_iff_eq.1 hread
    · have hread := (hall d (List.getElem?_eq_some_iff.1 hc).1).2
      rw [hc] at hread
      exact beq_iff_eq.1 hread
  -- The base only says which of the digits are left out.
  simp only [digit?, Option.filter_eq_some_iff, decide_eq_true_eq] at hsixteen ⊢
  exact ⟨hsixteen.1, h.1⟩

theorem digit?_eq_some_iff : digit? base c = some d ↔ IsDigit base c d :=
  ⟨isDigit_of_digit?, digit?_of_isDigit⟩

theorem isDigit_zero (hbase : 0 < base) : IsDigit base '0' 0 :=
  ⟨hbase, .inl rfl⟩

/-- No digit is a sign, or the letter of a mark: what stands for one would be read as a digit. -/
theorem IsDigit.ne (h : IsDigit base c d) : c ≠ '+' ∧ c ≠ 'x' ∧ c ≠ 'X' := by
  have hread : digit? base c = some d := digit?_of_isDigit h
  refine ⟨?_, ?_, ?_⟩
  · rintro rfl
    cases hread
  · rintro rfl
    cases hread
  · rintro rfl
    cases hread

/-! ## Numerals -/

theorem IsDigit.unique {e : Nat} (hd : IsDigit base c d) (he : IsDigit base c e) : d = e :=
  Option.some.inj ((digit?_of_isDigit hd).symm.trans (digit?_of_isDigit he))

/-- A numeral denotes one number. -/
theorem Denotes.unique (hn : Denotes base text n) (hm : Denotes base text m) : n = m := by
  obtain ⟨-, digits, hdigits, rfl⟩ := hn
  obtain ⟨-, digits', hdigits', rfl⟩ := hm
  have hunique : Relator.RightUnique (IsDigit base) := fun _ _ _ => IsDigit.unique
  rw [List.right_unique_forall₂' hunique hdigits hdigits']

/-- There is nothing but digits in a numeral. -/
theorem Denotes.not_mem (h : Denotes base text n) (hc : digit? base c = none) : c ∉ text := by
  obtain ⟨-, digits, hdigits, -⟩ := h
  induction hdigits with
  | nil => exact List.not_mem_nil
  | cons hd _ ih =>
    refine List.not_mem_cons_of_ne_of_not_mem ?_ ih
    rintro rfl
    cases hc.symm.trans (digit?_of_isDigit hd)

/-- Reading digits after those that made `n` gives their number with `n` in front, or finds it too large: giving up early is
giving up rightly. -/
theorem readDigits_of_digits (hdigits : List.Forall₂ (IsDigit base) text digits) (hn : n ≤ max) :
    readDigits base max above n text =
      if ofDigits base (digits.reverse ++ [n]) ≤ max then .ok (ofDigits base (digits.reverse ++ [n])) else .error above := by
  induction hdigits generalizing n with
  | nil => simp [readDigits, hn]
  | @cons c d text digits hd hrest ih =>
    have hplace : ofDigits base ((d :: digits).reverse ++ [n]) = ofDigits base (digits.reverse ++ [n * base + d]) := by
      simp only [List.reverse_cons, List.append_assoc, Nat.ofDigits_append, List.cons_append, List.nil_append,
        Nat.ofDigits_cons, Nat.ofDigits_nil, Nat.mul_zero, Nat.add_zero]
      rw [Nat.mul_comm base n, Nat.add_comm d]
    rw [readDigits, digit?_eq_some_iff.2 hd, hplace]
    by_cases habove : max < n * base + d
    · -- The digits to come are added in front of a part that is too large already.
      have hlarge : n * base + d ≤ ofDigits base (digits.reverse ++ [n * base + d]) := by
        rw [Nat.ofDigits_append, Nat.ofDigits_singleton]
        have hbase : 0 < base := Nat.zero_lt_of_lt hd.1
        exact Nat.le_add_left_of_le (Nat.le_mul_of_pos_left _ (Nat.pow_pos hbase))
      simp only [if_pos habove]
      rw [if_neg (by omega)]
    · simp only [if_neg habove]
      exact ih (Nat.not_lt.1 habove)

/-- Only digits are read as digits. -/
theorem digits_of_readDigits (h : readDigits base max above n text = .ok m) :
    ∃ digits, List.Forall₂ (IsDigit base) text digits := by
  induction text generalizing n with
  | nil => exact ⟨[], .nil⟩
  | cons c text ih =>
    rw [readDigits] at h
    cases hd : digit? base c with
    | none =>
      rw [hd] at h
      cases h
    | some d =>
      simp only [hd] at h
      split at h
      · cases h
      · obtain ⟨digits, hdigits⟩ := ih h
        exact ⟨d :: digits, .cons (digit?_eq_some_iff.1 hd) hdigits⟩

/-- A numeral, with a plus sign or without, is read as its number, unless that is too large. -/
theorem readNat_of_denotes {sign : List Char} (hsign : Sign sign) (h : Denotes base text n) :
    readNat base max (sign ++ text) = if n ≤ max then .ok n else .error .tooLarge := by
  obtain ⟨hne, digits, hdigits, rfl⟩ := h
  have hread : readDigits base max .tooLarge 0 text =
      if ofDigits base digits.reverse ≤ max then .ok (ofDigits base digits.reverse) else .error .tooLarge := by
    have hzero : ofDigits base (digits.reverse ++ [0]) = ofDigits base digits.reverse :=
      Nat.ofDigits_append_replicate_zero (k := 1) digits.reverse
    rw [readDigits_of_digits hdigits (Nat.zero_le max), hzero]
  cases hdigits with
  | nil => exact absurd rfl hne
  | @cons c d text digits hd hrest =>
    rw [← hread]
    cases hsign with
    | plus => rfl
    | absent =>
      have hplus : c ≠ '+' := hd.ne.1
      rw [List.nil_append, readNat]
      · exact nofun
      · rintro ⟨rfl, -⟩
        exact hplus rfl
      · rintro rest ⟨rfl, -⟩
        exact hplus rfl

theorem denotes_of_readNat (h : readNat base max text = .ok n) :
    ∃ sign rest, Sign sign ∧ text = sign ++ rest ∧ ∃ m, Denotes base rest m := by
  unfold readNat at h
  split at h
  · cases h
  · cases h
  · next rest hne =>
    obtain ⟨digits, hdigits⟩ := digits_of_readDigits h
    exact ⟨['+'], rest, .plus, rfl, _, fun hnil => hne (by rw [hnil]), digits, hdigits, rfl⟩
  · next hne _ _ =>
    obtain ⟨digits, hdigits⟩ := digits_of_readDigits h
    exact ⟨[], text, .absent, rfl, _, fun hnil => hne hnil, digits, hdigits, rfl⟩

/-! ## Marks -/

/-- A mark is taken off, and a decimal numeral has none: its second character is a digit. -/
theorem readAddressNumber_of_mark {mark sign : List Char} (hmark : BaseMark mark base) (hsign : Sign sign)
    (h : Denotes base text n) : readAddressNumber (mark ++ sign ++ text) = readNat base 0xffff (sign ++ text) := by
  cases hmark with
  | lower => rfl
  | upper => rfl
  | decimal =>
    obtain ⟨-, digits, hdigits, -⟩ := h
    have hsecond {letter : Char} {rest : List Char} (hletter : letter = 'x' ∨ letter = 'X') :
        sign ++ text ≠ '0' :: letter :: rest := by
      intro hshape
      cases hsign with
      | plus => cases hshape
      | absent =>
        rw [List.nil_append] at hshape
        subst hshape
        obtain _ | ⟨-, _ | ⟨hd, -⟩⟩ := hdigits
        rcases hletter with rfl | rfl
        · exact hd.ne.2.1 rfl
        · exact hd.ne.2.2 rfl
    rw [List.nil_append, readAddressNumber]
    · exact fun rest => hsecond (.inl rfl)
    · exact fun rest => hsecond (.inr rfl)

/-- The number of a text that has the form is read, unless it takes more than sixteen bits. -/
theorem readAddressNumber_of_written (h : Written text n) :
    readAddressNumber text = if n ≤ 0xffff then .ok n else .error .tooLarge := by
  obtain ⟨mark, base, sign, digits, hmark, hsign, rfl, hdenotes⟩ := h
  rw [readAddressNumber_of_mark hmark hsign hdenotes, readNat_of_denotes hsign hdenotes]

/-- Nothing else is read. -/
theorem written_of_readAddressNumber (h : readAddressNumber text = .ok n) : Written text n := by
  suffices hform : ∃ m, Written text m by
    obtain ⟨m, hm⟩ := hform
    rw [readAddressNumber_of_written hm] at h
    split at h
    · obtain rfl := Except.ok.inj h
      exact hm
    · cases h
  unfold readAddressNumber at h
  split at h
  · obtain ⟨sign, rest, hsign, rfl, m, hm⟩ := denotes_of_readNat h
    exact ⟨m, _, _, sign, rest, .lower, hsign, rfl, hm⟩
  · obtain ⟨sign, rest, hsign, rfl, m, hm⟩ := denotes_of_readNat h
    exact ⟨m, _, _, sign, rest, .upper, hsign, rfl, hm⟩
  · obtain ⟨sign, rest, hsign, rfl, m, hm⟩ := denotes_of_readNat h
    exact ⟨m, _, _, sign, rest, .decimal, hsign, rfl, hm⟩

/-- Zeros in front of the digits change nothing. -/
theorem Denotes.zeros (hbase : 0 < base) (h : Denotes base text n) (k : Nat) :
    Denotes base (List.replicate k '0' ++ text) n := by
  obtain ⟨hne, digits, hdigits, rfl⟩ := h
  refine ⟨fun hnil => hne (List.append_eq_nil_iff.1 hnil).2, List.replicate k 0 ++ digits, ?_, ?_⟩
  · induction k with
    | zero => exact hdigits
    | succ k ih => exact .cons (isDigit_zero hbase) ih
  · rw [List.reverse_append, List.reverse_replicate, Nat.ofDigits_append_replicate_zero]

/-- Some digits denote some number. -/
theorem exists_denotes {base : Nat} {text : List Char} (hne : text ≠ []) (hall : ∀ c ∈ text, ∃ d, IsDigit base c d) :
    ∃ n, Denotes base text n := by
  suffices hdigits : ∃ digits, List.Forall₂ (IsDigit base) text digits by
    obtain ⟨digits, hdigits⟩ := hdigits
    exact ⟨_, hne, digits, hdigits, rfl⟩
  clear hne
  induction text with
  | nil => exact ⟨[], .nil⟩
  | cons c text ih =>
    obtain ⟨d, hd⟩ := hall c List.mem_cons_self
    obtain ⟨digits, hdigits⟩ := ih fun a ha => hall a (List.mem_cons_of_mem _ ha)
    exact ⟨d :: digits, .cons hd hdigits⟩

end

/-! ## Addresses -/

theorem BaseMark.base_pos {mark : List Char} {base : Nat} (h : BaseMark mark base) : 0 < base := by
  cases h <;> decide

/-- What becomes of a text that has the form. -/
theorem readAddress_of_written {text : String} {n : Nat} (h : Written text.toList n) :
    readAddress text =
      if n ≤ 0x7f then .ok (UInt16.ofNat n)
      else .error (if n ≤ 0xffff then .notSevenBits n else .notANumber text .tooLarge) := by
  rw [readAddress, readAddressNumber_of_written h]
  by_cases hseven : n ≤ 0x7f
  · have hword : n ≤ 0xffff := by omega
    have hfits : ¬maxAddress < n := Nat.not_lt.2 hseven
    simp only [if_pos hword, if_pos hseven, if_neg hfits]
  · have hlarge : maxAddress < n := Nat.not_le.1 hseven
    by_cases hword : n ≤ 0xffff
    · simp only [if_pos hword, if_neg hseven, if_pos hlarge]
    · simp only [if_neg hword, if_neg hseven]

/-- What becomes of a text that has not. -/
theorem readAddress_of_not_written {text : String} (h : ¬∃ n, Written text.toList n) :
    ∃ why, readAddress text = .error (.notANumber text why) := by
  rw [readAddress]
  cases hread : readAddressNumber text.toList with
  | error why => exact ⟨why, rfl⟩
  | ok n => exact absurd ⟨n, written_of_readAddressNumber hread⟩ h

/-- Addresses are exactly the texts of the grammar whose number has seven bits. Take any text. It is read as an address if and
only if it is that address written: a plus sign or not and decimal digits, or `0x` or `0X`, a plus sign or not and hexadecimal
digits in either case, at least one, that denote it. A text that denotes a larger number is refused, however long it is: with
that number if it has sixteen bits, and otherwise as too large. Any other text is refused as no number. Zeros in front of the
digits, any number of them, make no difference to what is accepted. -/
theorem readAddress_grammar (text : String) :
    (∀ n, readAddress text = .ok n ↔ n.toNat ≤ 0x7f ∧ Written text.toList n.toNat) ∧
    (∀ n, Written text.toList n → 0x7f < n →
      readAddress text = .error (if n ≤ 0xffff then .notSevenBits n else .notANumber text .tooLarge)) ∧
    ((¬∃ n, Written text.toList n) → ∃ why, readAddress text = .error (.notANumber text why)) ∧
    ∀ mark base sign digits, BaseMark mark base → Sign sign → text.toList = mark ++ sign ++ digits → digits ≠ [] →
      (∀ c ∈ digits, ∃ d, IsDigit base c d) → ∀ k,
        (readAddress (String.ofList (mark ++ sign ++ (List.replicate k '0' ++ digits)))).toOption =
          (readAddress text).toOption := by
  refine ⟨fun n => ⟨fun hread => ?_, fun ⟨hseven, hwritten⟩ => ?_⟩, fun n hwritten hlarge => ?_, readAddress_of_not_written, ?_⟩
  · by_cases hform : ∃ m, Written text.toList m
    · obtain ⟨m, hm⟩ := hform
      rw [readAddress_of_written hm] at hread
      split at hread
      · next hseven =>
        obtain rfl := Except.ok.inj hread
        have hm' : (UInt16.ofNat m).toNat = m := UInt16.toNat_ofNat_of_lt' (Nat.lt_of_le_of_lt hseven (by decide))
        rw [hm']
        exact ⟨hseven, hm⟩
      · cases hread
    · obtain ⟨why, herror⟩ := readAddress_of_not_written hform
      cases herror.symm.trans hread
  · rw [readAddress_of_written hwritten, if_pos hseven, UInt16.ofNat_toNat]
  · rw [readAddress_of_written hwritten, if_neg (Nat.not_le.2 hlarge)]
  · intro mark base sign digits hmark hsign htext hne hall k
    obtain ⟨n, hn⟩ := exists_denotes hne hall
    have hwritten : Written text.toList n := ⟨mark, base, sign, digits, hmark, hsign, htext, hn⟩
    have hpadded : Written (String.ofList (mark ++ sign ++ (List.replicate k '0' ++ digits))).toList n := by
      rw [String.toList_ofList]
      exact ⟨mark, base, sign, _, hmark, hsign, rfl, hn.zeros hmark.base_pos k⟩
    rw [readAddress_of_written hwritten, readAddress_of_written hpadded]
    by_cases hseven : n ≤ 0x7f
    · simp only [if_pos hseven]
    · simp only [if_neg hseven, Except.toOption]

/-- A hexadecimal address with a sign and capitals, and a number that would be 9 if it were cut to sixteen bits. -/
theorem readAddress_grammar_capitals :
    readAddress "0X+6B" = .ok 0x6b ∧ (readAddress "0X+0006B").toOption = some 0x6b ∧
      readAddress "65545" = .error (.notANumber "65545" .tooLarge) := by
  have hsix : IsDigit 16 '6' 6 := by decide
  have heleven : IsDigit 16 'B' 11 := by decide
  have hwritten : Written "0X+6B".toList 0x6b :=
    ⟨_, _, _, ['6', 'B'], .upper, .plus, rfl, nofun, [6, 11], .cons hsix (.cons heleven .nil), by decide⟩
  obtain ⟨haccepts, -, -, hzeros⟩ := readAddress_grammar "0X+6B"
  have hread : readAddress "0X+6B" = .ok 0x6b := (haccepts 0x6b).2 ⟨by decide, hwritten⟩
  refine ⟨hread, ?_, ?_⟩
  · have hall : ∀ c ∈ ['6', 'B'], ∃ d, IsDigit 16 c d := by
      simp only [List.mem_cons, List.not_mem_nil, or_false]
      rintro c (rfl | rfl)
      · exact ⟨6, hsix⟩
      · exact ⟨11, heleven⟩
    exact (hzeros _ _ _ _ .upper .plus rfl nofun hall 3).trans (by rw [hread]; rfl)
  · have hlarge : Written "65545".toList 65545 :=
      ⟨_, _, _, ['6', '5', '5', '4', '5'], .decimal, .absent, rfl, nofun, [6, 5, 5, 4, 5], .cons (by decide) <|
        .cons (by decide) <| .cons (by decide) <| .cons (by decide) <| .cons (by decide) .nil, by decide⟩
    exact (readAddress_grammar "65545").2.1 65545 hlarge (by decide)

end PenRail.Config
