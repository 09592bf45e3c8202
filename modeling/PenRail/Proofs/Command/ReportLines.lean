import PenRail.Command.Inspect
import PenRail.Proofs.Config.AddressGrammar

/-!
# What the line of a report says

The line of a report has the number in a column of six, then the tool, a word for each thing that is on, and the numbers of the
sample. `Depicts` says so of the text alone: a numeral is a text whose digits have the value, and nothing is said of how a line
is put together. The lines that are printed are such lines (`depicts_reportLine`), and nothing is lost in one: it tells which
number and which sample it is of (`Depicts.determines`).
-/

namespace PenRail.Command

open Config (Denotes IsDigit digit?)
open Pen (Sample Tool)

/-! ## The form of a line -/

/-- A numeral of base ten, with no more digits than it needs. -/
structure Numeral (n : Nat) (text : String) : Prop where
  denotes : Denotes 10 text.toList n
  shortest : text.toList.head? = some '0' → text = "0"

/-- A number that may be below zero has its sign in front. -/
inductive SignedNumeral : Int → String → Prop
  | natural {n : Nat} {text : String} (htext : Numeral n text) : SignedNumeral n text
  | negative {n : Nat} {text : String} (hn : 0 < n) (htext : Numeral n text) : SignedNumeral (-n) ("-" ++ text)

/-- A numeral at the right of a column of six, or of as many as it needs. -/
inductive NumberColumn (n : Nat) : String → Prop
  | aligned {blanks text : String} (hblanks : ∀ c ∈ blanks.toList, c = ' ') (htext : Numeral n text)
      (hwidth : (blanks ++ text).length = max 6 text.length) : NumberColumn n (blanks ++ text)

/-- Tools have a column of six as well, and stand at its left. -/
inductive ToolColumn : Tool → String → Prop
  | pen : ToolColumn .pen "pen   "
  | eraser : ToolColumn .eraser "rubber"

/-- What is on has its word, and what is off has a dash. -/
inductive Mark (word : String) : Bool → String → Prop
  | on : Mark word true word
  | off : Mark word false "-"

/-- The line of a report, by its number and its sample. -/
inductive Depicts (number : Nat) (s : Sample) (line : String) : Prop
  | intro {column tool proximity touch eraser button1 button2 x y pressure distance tiltX tiltY : String}
      (hnumber : NumberColumn number column) (htool : ToolColumn s.tool tool) (hproximity : Mark "PROX" s.inProximity proximity)
      (htouch : Mark "TIP" s.touch touch) (heraser : Mark "ERS" s.eraser eraser) (hbutton1 : Mark "B1" s.button1 button1)
      (hbutton2 : Mark "B2" s.button2 button2) (hx : Numeral s.x.toNat x) (hy : Numeral s.y.toNat y)
      (hpressure : Numeral s.pressure.toNat pressure) (hdistance : Numeral s.distance.toNat distance)
      (htiltX : SignedNumeral s.tiltX.toInt tiltX) (htiltY : SignedNumeral s.tiltY.toInt tiltY)
      (hline : line = column ++ "  " ++ tool ++ " " ++ proximity ++ " " ++ touch ++ " " ++ eraser ++ " " ++ button1 ++ " " ++
        button2 ++ "  x=" ++ x ++ " y=" ++ y ++ " p=" ++ pressure ++ " d=" ++ distance ++ " tilt=(" ++ tiltX ++ ", " ++ tiltY ++
        ")") :
      Depicts number s line

/-! ## Numerals -/

section
variable {n m d : Nat} {i j : Int} {c : Char} {text : String}

theorem isDigit_digitChar (hd : d < 10) : IsDigit 10 d.digitChar d := by
  have hall : ∀ d < 10, IsDigit 10 (Nat.digitChar d) d := by decide
  exact hall d hd

/-- The last digit is the remainder, and the digits before it are those of the quotient. -/
theorem denotes_toDigits (n : Nat) : Denotes 10 (Nat.toDigits 10 n) n := by
  induction n using Nat.strongRecOn with
  | ind n ih =>
    rw [Nat.toDigits_eq_if (by decide)]
    split
    · next hsmall => exact ⟨List.cons_ne_nil _ _, [n], .cons (isDigit_digitChar hsmall) .nil, Nat.ofDigits_singleton.symm⟩
    · next hlarge =>
      obtain ⟨-, digits, hdigits, hquotient⟩ := ih (n / 10) (by omega)
      have hlast : IsDigit 10 (n % 10).digitChar (n % 10) := isDigit_digitChar (Nat.mod_lt n (by decide))
      refine ⟨by simp, digits ++ [n % 10], List.rel_append hdigits (.cons hlast .nil), ?_⟩
      rw [List.reverse_append, List.reverse_singleton, List.singleton_append, Nat.ofDigits_cons, ← hquotient]
      omega

theorem head?_toDigits (hn : 0 < n) : (Nat.toDigits 10 n).head? ≠ some '0' := by
  induction n using Nat.strongRecOn with
  | ind n ih =>
    rw [Nat.toDigits_eq_if (by decide)]
    split
    · next hsmall =>
      have hall : ∀ n < 10, 0 < n → Nat.digitChar n ≠ '0' := by decide
      simpa using hall n hsmall hn
    · next hlarge =>
      have hquotient := ih (n / 10) (by omega) (by omega)
      have hne : Nat.toDigits 10 (n / 10) ≠ [] := (denotes_toDigits (n / 10)).1
      rwa [List.head?_append_of_ne_nil _ hne]

theorem numeral_toString (n : Nat) : Numeral n (toString n) := by
  have hlist : (toString n).toList = Nat.toDigits 10 n := by
    rw [Nat.toString_eq_repr, Nat.repr_eq_ofList_toDigits, String.toList_ofList]
  refine ⟨hlist ▸ denotes_toDigits n, fun hzero => ?_⟩
  rw [hlist] at hzero
  obtain rfl : n = 0 := Nat.eq_zero_of_not_pos fun hn => head?_toDigits hn hzero
  rfl

theorem signedNumeral_toString (i : Int) : SignedNumeral i (toString i) := by
  rw [Int.toString_eq_repr, Int.repr_eq_if]
  split
  · next hi =>
    have hnumeral : SignedNumeral i.toNat i.toNat.repr := .natural (numeral_toString i.toNat)
    rwa [Int.toNat_of_nonneg hi] at hnumeral
  · next hi =>
    have hnumeral : SignedNumeral (-(-i).toNat) ("-" ++ (-i).toNat.repr) := .negative (by omega) (numeral_toString (-i).toNat)
    rwa [Int.toNat_of_nonneg (by omega), Int.neg_neg] at hnumeral

theorem Numeral.unique (hn : Numeral n text) (hm : Numeral m text) : n = m :=
  hn.denotes.unique hm.denotes

theorem Numeral.not_mem (h : Numeral n text) (hc : digit? 10 c = none) : c ∉ text.toList :=
  h.denotes.not_mem hc

theorem not_numeral_minus : ¬Numeral n ("-" ++ text) := by
  intro h
  refine absurd ?_ (Numeral.not_mem (c := '-') h rfl)
  rw [String.toList_append]
  exact List.mem_append_left _ (List.mem_singleton_self _)

/-- A minus sign tells a number below zero from one that is not. -/
theorem SignedNumeral.unique (hi : SignedNumeral i text) (hj : SignedNumeral j text) : i = j := by
  cases hi with
  | natural hn =>
    generalize htext : text = other at hj
    cases hj with
    | natural hm => rw [hn.unique (htext ▸ hm)]
    | negative _ hm => exact absurd (htext ▸ hn) not_numeral_minus
  | negative _ hn =>
    generalize htext : "-" ++ _ = other at hj
    cases hj with
    | natural hm => exact absurd (htext ▸ hm) not_numeral_minus
    | negative _ hm =>
      have hrest := (String.append_right_inj "-").1 htext
      rw [hn.unique (hrest ▸ hm)]

theorem SignedNumeral.not_mem (h : SignedNumeral i text) (hc : digit? 10 c = none) (hsign : c ≠ '-') : c ∉ text.toList := by
  cases h with
  | natural htext => exact htext.not_mem hc
  | negative _ htext =>
    rw [String.toList_append]
    exact List.not_mem_cons_of_ne_of_not_mem hsign (htext.not_mem hc)

end

/-! ## What is printed -/

theorem numberColumn_padLeft (n : Nat) : NumberColumn n (Text.padLeft 6 ' ' (toString n)) := by
  refine .aligned ?_ (numeral_toString n) ?_
  · rw [String.toList_ofList]
    exact fun c => List.eq_of_mem_replicate
  · rw [String.length_append, String.length_ofList, List.length_replicate]
    omega

theorem toolColumn_padRight (tool : Tool) : ToolColumn tool (Text.padRight 6 ' ' (toolWord tool)) := by
  cases tool
  · exact .pen
  · exact .eraser

theorem mark_flag (on : Bool) (word : String) : Mark word on (flag on word) := by
  cases on
  · exact .off
  · exact .on

/-- The line that is printed is the line of its number and its sample. -/
theorem depicts_reportLine (number : Nat) (s : Sample) : Depicts number s (reportLine number s) := by
  refine .intro (numberColumn_padLeft number) (toolColumn_padRight s.tool) (mark_flag s.inProximity "PROX")
    (mark_flag s.touch "TIP") (mark_flag s.eraser "ERS") (mark_flag s.button1 "B1") (mark_flag s.button2 "B2")
    (numeral_toString s.x.toNat) (numeral_toString s.y.toNat) (numeral_toString s.pressure.toNat)
    (numeral_toString s.distance.toNat) (signedNumeral_toString s.tiltX.toInt) (signedNumeral_toString s.tiltY.toInt) ?_
  simp only [reportLine, sampleText, String.intercalate_cons_cons, String.intercalate_singleton, String.append_assoc]
  rfl

/-! ## What is told by it -/

/-- What comes before the first `c` is told by the whole, and so is what comes after it. -/
theorem append_cons_cancel {c : Char} {before before' after after' : List Char} (hbefore : c ∉ before) (hbefore' : c ∉ before')
    (h : before ++ c :: after = before' ++ c :: after') : before = before' ∧ after = after' := by
  induction before generalizing before' with
  | nil =>
    cases before' with
    | nil => exact ⟨rfl, (List.cons.inj h).2⟩
    | cons d before' => exact absurd (List.cons.inj h).1 (List.ne_of_not_mem_cons hbefore')
  | cons d before ih =>
    cases before' with
    | nil => exact absurd (List.cons.inj h).1.symm (List.ne_of_not_mem_cons hbefore)
    | cons d' before' =>
      obtain ⟨rfl, hrest⟩ := List.cons.inj h
      obtain ⟨rfl, hafter⟩ := ih (List.not_mem_of_not_mem_cons hbefore) (List.not_mem_of_not_mem_cons hbefore') hrest
      exact ⟨rfl, hafter⟩

/-- In front of `gap`, a text of this form tells what it stands for and where it ends. -/
def Tells {α : Type} (Form : α → String → Prop) (gap : String) : Prop :=
  ∀ ⦃a a' text text' after after'⦄, Form a text → Form a' text' → text ++ (gap ++ after) = text' ++ (gap ++ after') →
    a = a' ∧ after = after'

section
variable {α : Type} {Form : α → String → Prop}

/-- It does if what is in front of the gap cannot have the character in it that the gap begins with. -/
theorem tells_of_not_mem {gap : String} {stop : Char} (hgap : gap.toList.head? = some stop)
    (hunique : ∀ {a a' text}, Form a text → Form a' text → a = a') (hstop : ∀ {a text}, Form a text → stop ∉ text.toList) :
    Tells Form gap := by
  intro a a' text text' after after' ha ha' h
  obtain ⟨rest, hrest⟩ : ∃ rest, gap.toList = stop :: rest := List.head?_eq_some_iff.1 hgap
  have hlist : text.toList ++ stop :: (rest ++ after.toList) = text'.toList ++ stop :: (rest ++ after'.toList) := by
    simpa [hrest] using congrArg String.toList h
  obtain ⟨htext, hafter⟩ := append_cons_cancel (hstop ha) (hstop ha') hlist
  obtain rfl := String.toList_inj.1 htext
  exact ⟨hunique ha ha', String.toList_inj.1 (List.append_cancel_left hafter)⟩

/-- Without the blanks in front the numeral is left, since no digit is a blank. -/
theorem exists_dropWhile_numberColumn {n : Nat} {column : String} (h : NumberColumn n column) :
    ∃ text, Numeral n text ∧ ∀ rest, (column.toList ++ rest).dropWhile (· == ' ') = text.toList ++ rest := by
  rcases h with @⟨blanks, text, hblanks, htext, -⟩
  refine ⟨text, htext, fun rest => ?_⟩
  have hblank : ' ' ∉ text.toList := htext.not_mem rfl
  rw [String.toList_append, List.append_assoc, List.dropWhile_append_of_pos fun c hc => beq_iff_eq.2 (hblanks c hc)]
  cases hlist : text.toList with
  | nil => exact absurd hlist htext.denotes.1
  | cons c digits =>
    rw [hlist] at hblank
    have hc : c ≠ ' ' := (List.ne_of_not_mem_cons hblank).symm
    exact List.dropWhile_cons_of_neg (mt beq_iff_eq.1 hc)

variable (gap : String)

theorem tells_numeral {stop : Char} (hgap : gap.toList.head? = some stop) (hstop : digit? 10 stop = none) : Tells Numeral gap :=
  tells_of_not_mem hgap Numeral.unique fun h => h.not_mem hstop

theorem tells_signedNumeral {stop : Char} (hgap : gap.toList.head? = some stop) (hstop : digit? 10 stop = none)
    (hsign : stop ≠ '-') : Tells SignedNumeral gap :=
  tells_of_not_mem hgap SignedNumeral.unique fun h => h.not_mem hstop hsign

theorem tells_mark {word : String} (hgap : gap.toList.head? = some ' ') (hword : word ≠ "-") (hblank : ' ' ∉ word.toList) :
    Tells (Mark word) gap := by
  refine tells_of_not_mem hgap (fun h h' => ?_) (fun h => ?_)
  · cases h <;> cases h' <;> trivial
  · cases h with
    | on => exact hblank
    | off => decide

theorem tells_toolColumn : Tells ToolColumn gap := by
  intro tool tool' text text' after after' h h' heq
  have hsame {text : String} (heq : text ++ (gap ++ after) = text ++ (gap ++ after')) : after = after' :=
    (String.append_right_inj gap).1 ((String.append_right_inj text).1 heq)
  cases h <;> cases h'
  · exact ⟨rfl, hsame heq⟩
  · simp [← String.toList_inj] at heq
  · simp [← String.toList_inj] at heq
  · exact ⟨rfl, hsame heq⟩

theorem tells_numberColumn (hgap : gap.toList.head? = some ' ') : Tells NumberColumn gap := by
  intro n m column column' after after' hn hm h
  obtain ⟨text, htext, hdrop⟩ := exists_dropWhile_numberColumn hn
  obtain ⟨text', htext', hdrop'⟩ := exists_dropWhile_numberColumn hm
  have hlist := congrArg (fun line => line.toList.dropWhile (· == ' ')) h
  simp only [String.toList_append, hdrop, hdrop'] at hlist
  simp only [← String.toList_append, String.toList_inj] at hlist
  exact tells_numeral gap hgap rfl htext htext' hlist

end

/-- The line of a report tells its number and its sample. -/
theorem Depicts.determines {number number' : Nat} {s s' : Sample} {line : String} (h : Depicts number s line)
    (h' : Depicts number' s' line) : number = number' ∧ s = s' := by
  rcases h with ⟨hnumber, htool, hproximity, htouch, heraser, hbutton1, hbutton2, hx, hy, hpressure, hdistance, htiltX, htiltY,
    rfl⟩
  rcases h' with ⟨hnumber', htool', hproximity', htouch', heraser', hbutton1', hbutton2', hx', hy', hpressure', hdistance',
    htiltX', htiltY', h⟩
  simp only [String.append_assoc] at h
  obtain ⟨hnumber, h⟩ := tells_numberColumn "  " rfl hnumber hnumber' h
  obtain ⟨htool, h⟩ := tells_toolColumn " " htool htool' h
  obtain ⟨hproximity, h⟩ := tells_mark " " rfl (by decide) (by decide) hproximity hproximity' h
  obtain ⟨htouch, h⟩ := tells_mark " " rfl (by decide) (by decide) htouch htouch' h
  obtain ⟨heraser, h⟩ := tells_mark " " rfl (by decide) (by decide) heraser heraser' h
  obtain ⟨hbutton1, h⟩ := tells_mark " " rfl (by decide) (by decide) hbutton1 hbutton1' h
  obtain ⟨hbutton2, h⟩ := tells_mark "  x=" rfl (by decide) (by decide) hbutton2 hbutton2' h
  obtain ⟨hx, h⟩ := tells_numeral " y=" rfl rfl hx hx' h
  obtain ⟨hy, h⟩ := tells_numeral " p=" rfl rfl hy hy' h
  obtain ⟨hpressure, h⟩ := tells_numeral " d=" rfl rfl hpressure hpressure' h
  obtain ⟨hdistance, h⟩ := tells_numeral " tilt=(" rfl rfl hdistance hdistance' h
  obtain ⟨htiltX, h⟩ := tells_signedNumeral ", " rfl rfl (by decide) htiltX htiltX' h
  have htiltY : s.tiltY.toInt = s'.tiltY.toInt := htiltY.unique ((String.append_left_inj ")").1 h ▸ htiltY')
  refine ⟨hnumber, ?_⟩
  cases s
  cases s'
  rw [Sample.mk.injEq]
  exact ⟨htouch, heraser, hbutton1, hbutton2, UInt16.toNat_inj.1 hx, UInt16.toNat_inj.1 hy, UInt16.toNat_inj.1 hpressure,
    UInt8.toNat_inj.1 hdistance, Int16.toInt_inj.1 htiltX, Int16.toInt_inj.1 htiltY, hproximity, htool⟩

end PenRail.Command
