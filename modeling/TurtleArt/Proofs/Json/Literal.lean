import Mathlib.Tactic.IntervalCases
import TurtleArt.Proofs.Json.Spelling

/-! String and number literals, read as they are spelled. A string ends with its quote; a number
has no end of its own, and what comes behind it has to tell. -/

namespace TurtleArt.Json

/-! ### String literals -/

namespace OpenText

variable {pieces : List Piece} {c : Char} {d bytes value : Nat} {w digits : List Char}

theorem utf8Size_of_hexDigit? (h : hexDigit? c = some d) : c.utf8Size = 1 := by
  have ascii : c.toNat ≤ 0x7f := by
    unfold hexDigit? at h
    split at h
    · rename_i hdigit
      simp only [Char.isDigit, Bool.and_eq_true, decide_eq_true_eq, ge_iff_le,
        UInt32.le_iff_toNat_le] at hdigit
      exact Nat.le_trans hdigit.2 (by decide)
    · split at h
      · rename_i hlower
        exact Nat.le_trans (UInt32.le_iff_toNat_le.mp hlower.2) (by decide)
      · split at h
        · rename_i hupper
          exact Nat.le_trans (UInt32.le_iff_toNat_le.mp hupper.2) (by decide)
        · cases h
  rw [Char.utf8Size_eq_one_iff]
  exact UInt32.le_iff_toNat_le.mpr ascii

theorem next_unit (hc : hexDigit? c = some d) (hbytes : bytes + 1 < 4) :
    next ⟨pieces, .unit bytes (some value)⟩ c =
      .more ⟨pieces, .unit (bytes + 1) (some (16 * value + d))⟩ := by
  simp [next, hc, utf8Size_of_hexDigit? hc, hbytes]

theorem next_last_unit (hc : hexDigit? c = some d) :
    next ⟨pieces, .unit 3 (some value)⟩ c =
      .more ⟨.ofUnit (16 * value + d) :: pieces, .plain⟩ := by
  simp [next, hc, utf8Size_of_hexDigit? hc, add]

theorem next_plain (hquote : c ≠ '"') (hslash : c ≠ '\\') (hcontrol : ¬c.toNat < 0x20) :
    next ⟨pieces, .plain⟩ c = .more ⟨.char c :: pieces, .plain⟩ := by
  simp [next, hquote, hslash, hcontrol, add]

/-- A place in a text that moves on with the string literal being read there. -/
def Follows (place : OpenText → State) : Prop :=
  ∀ t c u, next t c = .more u → (place t).step c = place u

theorem follows_string (frames : List Frame) : Follows (State.string · frames) := by
  intro t c u h
  simp only [State.step, h]

theorem follows_keyText (before : List Member) (frames : List Frame) :
    Follows (State.keyText · before frames) := by
  intro t c u h
  simp only [State.step, h]

variable {place : OpenText → State}

theorem Follows.run_unit (h : Follows place) (hlength : digits.length = 4)
    (hvalue : hexValue? digits = some value) :
    (place ⟨pieces, .plain⟩).run ('\\' :: 'u' :: digits) =
      place ⟨.ofUnit value :: pieces, .plain⟩ := by
  obtain ⟨c₁, c₂, c₃, c₄, rfl⟩ : ∃ c₁ c₂ c₃ c₄, digits = [c₁, c₂, c₃, c₄] := by
    match digits, hlength with
    | [c₁, c₂, c₃, c₄], _ => exact ⟨c₁, c₂, c₃, c₄, rfl⟩
  have values : ∃ d₁ d₂ d₃ d₄, hexDigit? c₁ = some d₁ ∧ hexDigit? c₂ = some d₂ ∧
      hexDigit? c₃ = some d₃ ∧ hexDigit? c₄ = some d₄ ∧
        16 * (16 * (16 * (16 * 0 + d₁) + d₂) + d₃) + d₄ = value := by
    simpa [hexValue?, Option.bind_eq_some_iff] using hvalue
  obtain ⟨d₁, d₂, d₃, d₄, h₁, h₂, h₃, h₄, rfl⟩ := values
  simp only [State.run_cons, State.run_nil]
  rw [h _ _ ⟨pieces, .escape⟩ rfl, h _ _ ⟨pieces, .unit 0 (some 0)⟩ rfl,
    h _ _ _ (next_unit h₁ (by decide)), h _ _ _ (next_unit h₂ (by decide)),
    h _ _ _ (next_unit h₃ (by decide)), h _ _ _ (next_last_unit h₄)]

theorem Follows.run_piece (h : Follows place) {p : Piece} (hp : p.Spelled w) :
    (place ⟨pieces, .plain⟩).run w = place ⟨p :: pieces, .plain⟩ := by
  cases hp with
  | plain hquote hslash hcontrol =>
    rw [State.run_cons, h _ _ _ (next_plain hquote hslash hcontrol), State.run_nil]
  | @escaped e c he =>
    have hu : e ≠ 'u' := by
      rintro rfl
      cases he
    have last : next ⟨pieces, .escape⟩ e = .more ⟨.char c :: pieces, .plain⟩ := by
      simp [next, hu, he, add]
    rw [State.run_cons, h _ _ ⟨pieces, .escape⟩ rfl, State.run_cons, h _ _ _ last, State.run_nil]
  | unit hlength hvalue => exact h.run_unit hlength hvalue

theorem Follows.run_text (h : Follows place) (pieces : List Piece) {t : Text}
    (ht : t.Spelled w) :
    (place ⟨pieces, .plain⟩).run w = place ⟨t.reverse ++ pieces, .plain⟩ := by
  induction ht generalizing pieces with
  | nil => rfl
  | cons hp _ ih =>
    rw [State.run_append, h.run_piece hp, ih, List.reverse_cons, List.append_assoc]
    rfl

end OpenText

namespace State

variable {frames : List Frame} {before : List Member} {w : List Char} {c : Char} {d : Nat}

theorem run_string {t : Text} (h : t.Spelled w) (frames : List Frame) :
    (due frames).run ('"' :: w ++ ['"']) = complete (.string t) frames := by
  have opened : (due frames).step '"' = string {} frames := rfl
  have body := (OpenText.follows_string frames).run_text [] h
  rw [List.cons_append, run_cons, opened, run_append, body]
  simp [step, OpenText.next, OpenText.text]

theorem run_key {t : Text} (h : t.Spelled w) (before : List Member) (frames : List Frame) :
    (keyDue before frames).run ('"' :: w ++ ['"']) = keyRead before t frames := by
  have opened : (keyDue before frames).step '"' = keyText {} before frames := rfl
  have body := (OpenText.follows_keyText before frames).run_text [] h
  rw [List.cons_append, run_cons, opened, run_append, body]
  simp [step, OpenText.next, OpenText.text]

/-! ### Number literals -/

theorem eq_digitChar_of_digit? (h : digit? c = some d) : d < 10 ∧ c = d.digitChar := by
  unfold digit? at h
  split at h
  · rename_i hdigit
    obtain rfl := Option.some.inj h
    simp only [Char.isDigit, Bool.and_eq_true, decide_eq_true_eq, ge_iff_le,
      UInt32.le_iff_toNat_le] at hdigit
    have low : 48 ≤ c.toNat := hdigit.1
    have high : c.toNat ≤ 57 := hdigit.2
    have zero : '0'.toNat = 48 := rfl
    rw [zero]
    refine ⟨by omega, ?_⟩
    have whole : c.toNat = 48 + (c.toNat - 48) := by omega
    have small : c.toNat - 48 < 10 := by omega
    rw [← Char.ofNat_toNat c, whole]
    generalize c.toNat - 48 = d at small
    interval_cases d <;> rfl
  · cases h

theorem step_due_digit (h : digit? c = some d) (frames : List Frame) :
    (due frames).step c = numeral (.first false d) frames := by
  obtain ⟨hd, rfl⟩ := eq_digitChar_of_digit? h
  interval_cases d <;> rfl

theorem step_sign_digit (h : digit? c = some d) (frames : List Frame) :
    (numeral { negative := true, place := .sign } frames).step c =
      numeral (.first true d) frames := by
  simp only [step, OpenNumeral.next, h]

open Numeral NumeralPlace

variable {negative : Bool} {digits whole fraction : List Nat} {place : NumeralPlace}

theorem run_digits {p : List Nat → State}
    (hstep : ∀ read c d, digit? c = some d → (p read).step c = p (d :: read))
    (h : Digits digits w) (read : List Nat) : (p read).run w = p (digits.reverse ++ read) := by
  induction w generalizing digits read with
  | nil =>
    obtain rfl : digits = [] := by simpa [Digits] using h
    rfl
  | cons c w ih =>
    obtain ⟨d, rest, rfl, hd, hrest⟩ := exists_of_digits_cons h
    rw [run_cons, hstep _ _ _ hd, ih hrest, List.reverse_cons, List.append_assoc]
    rfl

theorem run_whole {s : List Char} (hs : Sign negative s) (hw : Whole digits w)
    (frames : List Frame) : ∃ place, (place = zero ∨ place = .whole) ∧
      (due frames).run (s ++ w) =
        numeral ⟨negative, digits.reverse, [], none, place⟩ frames := by
  have start : ∃ t, (due frames).run s = t ∧ ∀ c d, digit? c = some d →
      t.step c = numeral (.first negative d) frames := by
    cases hs with
    | positive => exact ⟨_, rfl, fun c d hc => step_due_digit hc frames⟩
    | negative => exact ⟨_, rfl, fun c d hc => step_sign_digit hc frames⟩
  obtain ⟨t, ht, first⟩ := start
  obtain ⟨d, rest, rfl⟩ := List.exists_cons_of_ne_nil hw.nonempty
  obtain ⟨c, v, rfl, hd, hrest⟩ := exists_of_cons_digits hw.values
  rw [run_append, ht, run_cons, first c d hd]
  by_cases zero : d = 0
  · subst zero
    obtain rfl : rest = [] := (List.cons.inj (hw.leading rfl)).2
    obtain rfl : v = [] := by simpa [Digits] using hrest
    exact ⟨.zero, .inl rfl, rfl⟩
  · have later := run_digits (p := fun read => numeral ⟨negative, read, [], none, .whole⟩ frames)
      (fun read c d hc => by simp only [step, OpenNumeral.next, hc]) hrest [d]
    refine ⟨.whole, .inr rfl, ?_⟩
    rw [OpenNumeral.first, if_neg zero, List.reverse_cons]
    exact later

theorem run_fraction (h : Fraction digits w) (hplace : place = zero ∨ place = .whole)
    (frames : List Frame) :
    ∃ place', (place' = zero ∨ place' = .whole ∨ place' = .fraction) ∧
      (numeral ⟨negative, whole, [], none, place⟩ frames).run w =
        numeral ⟨negative, whole, digits.reverse, none, place'⟩ frames := by
  cases h with
  | absent => exact ⟨place, hplace.imp_right .inl, rfl⟩
  | @present _ w h nonempty =>
    obtain ⟨d, rest, rfl⟩ := List.exists_cons_of_ne_nil nonempty
    obtain ⟨c, v, rfl, hd, hrest⟩ := exists_of_cons_digits h
    have point : (numeral ⟨negative, whole, [], none, place⟩ frames).step '.' =
        numeral ⟨negative, whole, [], none, .point⟩ frames := by
      rcases hplace with rfl | rfl <;> rfl
    have first : (numeral ⟨negative, whole, [], none, .point⟩ frames).step c =
        numeral ⟨negative, whole, [d], none, .fraction⟩ frames := by
      simp only [step, OpenNumeral.next, hd, OpenNumeral.addFraction]
    have later := run_digits
      (p := fun read => numeral ⟨negative, whole, read, none, .fraction⟩ frames)
      (fun read c d hc => by simp only [step, OpenNumeral.next, hc, OpenNumeral.addFraction])
      hrest [d]
    refine ⟨.fraction, .inr (.inr rfl), ?_⟩
    rw [run_cons, point, run_cons, first, List.reverse_cons]
    exact later

theorem run_exponent {exponent : Option (Bool × List Nat)} (h : Exponent exponent w)
    (hplace : place = zero ∨ place = .whole ∨ place = .fraction) (frames : List Frame) :
    ∃ o : OpenNumeral, o.canEnd = true ∧
      o.numeral = ⟨negative, whole.reverse, fraction.reverse, exponent⟩ ∧
      (numeral ⟨negative, whole, fraction, none, place⟩ frames).run w = numeral o frames := by
  cases h with
  | absent =>
    refine ⟨_, ?_, rfl, rfl⟩
    rcases hplace with rfl | rfl | rfl <;> rfl
  | @present mark minus sign w digits hmark hsign h nonempty =>
    obtain ⟨d, rest, rfl⟩ := List.exists_cons_of_ne_nil nonempty
    obtain ⟨c, v, rfl, hd, hrest⟩ := exists_of_cons_digits h
    have marked : (numeral ⟨negative, whole, fraction, none, place⟩ frames).step mark =
        numeral ⟨negative, whole, fraction, some (false, []), .mark⟩ frames := by
      rcases hplace with rfl | rfl | rfl <;> rcases hmark with rfl | rfl <;> rfl
    have signed : ∃ place', (place' = .mark ∨ place' = .exponentSign) ∧
        (numeral ⟨negative, whole, fraction, some (false, []), .mark⟩ frames).run sign =
          numeral ⟨negative, whole, fraction, some (minus, []), place'⟩ frames := by
      cases hsign with
      | absent => exact ⟨.mark, .inl rfl, rfl⟩
      | plus | minus => exact ⟨.exponentSign, .inr rfl, rfl⟩
    obtain ⟨place', hplace', hsigned⟩ := signed
    have first : (numeral ⟨negative, whole, fraction, some (minus, []), place'⟩ frames).step c =
        numeral ⟨negative, whole, fraction, some (minus, [d]), .exponent⟩ frames := by
      rcases hplace' with rfl | rfl <;>
        simp only [step, OpenNumeral.next, hd, OpenNumeral.addExponent, Option.map_some]
    have later := run_digits
      (p := fun read => numeral ⟨negative, whole, fraction, some (minus, read), .exponent⟩ frames)
      (fun read c d hc => by
        simp only [step, OpenNumeral.next, hc, OpenNumeral.addExponent, Option.map_some])
      hrest [d]
    refine ⟨⟨negative, whole, fraction, some (minus, rest.reverse ++ [d]), .exponent⟩, rfl, ?_, ?_⟩
    · simp [OpenNumeral.numeral]
    · rw [List.cons_append, run_cons, marked, run_append, hsigned, run_cons, first]
      exact later

theorem run_number {n : Numeral} (h : n.Spelled w) (frames : List Frame) :
    ∃ o : OpenNumeral, (due frames).run w = numeral o frames ∧ o.canEnd = true ∧
      o.numeral = n := by
  cases h with
  | mk hsign hwhole hfraction hexponent =>
    obtain ⟨place, hplace, readWhole⟩ := run_whole hsign hwhole frames
    obtain ⟨place', hplace', readFraction⟩ := run_fraction hfraction hplace frames
    obtain ⟨o, canEnd, value, readExponent⟩ := run_exponent hexponent hplace' frames
    refine ⟨o, ?_, canEnd, ?_⟩
    · rw [run_append, run_append, readWhole, readFraction, readExponent]
    · rw [value, List.reverse_reverse, List.reverse_reverse]

end State
end TurtleArt.Json
