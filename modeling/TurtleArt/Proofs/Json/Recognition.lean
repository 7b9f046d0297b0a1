import TurtleArt.Json.Decoder
import TurtleArt.Proofs.Except
import TurtleArt.Proofs.Json.Scanning

/-! A text is read as a value only if it spells that value. Every place reached in a text tells
what the text is made of so far. -/

namespace TurtleArt.Json

variable {c : Char} {w : List Char}

/-! ### String literals -/

namespace OpenText

/-- What stands between the opening quote and the place reached. The digits of an escape have a
value as long as all of them are hexadecimal. -/
inductive Reads : OpenText → List Char → Prop
  | plain {pieces : List Piece} {w : List Char} (h : Text.Spelled pieces.reverse w) :
      Reads ⟨pieces, .plain⟩ w
  | escape {pieces : List Piece} {w : List Char} (h : Text.Spelled pieces.reverse w) :
      Reads ⟨pieces, .escape⟩ (w ++ ['\\'])
  | unit {pieces : List Piece} {w digits : List Char} {bytes : Nat} {value : Option Nat}
      (h : Text.Spelled pieces.reverse w) (hbytes : bytes < 4)
      (hvalue : value ≠ none → digits.length = bytes ∧ hexValue? digits = value) :
      Reads ⟨pieces, .unit bytes value⟩ (w ++ '\\' :: 'u' :: digits)

variable {t u : OpenText}

theorem reads_start : Reads {} [] :=
  .plain .nil

theorem reads_add {pieces : List Piece} {p : Piece} {x : List Char}
    (h : Text.Spelled pieces.reverse w) (hp : p.Spelled x) :
    Reads ⟨p :: pieces, .plain⟩ (w ++ x) := by
  apply Reads.plain
  rw [List.reverse_cons]
  exact h.snoc hp

theorem unit_snoc {digits : List Char} {bytes unit : Nat} {value : Option Nat}
    (hvalue : value ≠ none → digits.length = bytes ∧ hexValue? digits = value)
    (hunit : (do return 16 * (← value) + (← hexDigit? c) : Option Nat) = some unit) :
    digits.length = bytes ∧ c.utf8Size = 1 ∧ hexValue? (digits ++ [c]) = some unit := by
  obtain ⟨value', d, hd, rfl, rfl⟩ :
      ∃ value' d, hexDigit? c = some d ∧ value = some value' ∧ 16 * value' + d = unit := by
    cases value <;> cases hd : hexDigit? c <;> simp_all
  obtain ⟨length, read⟩ := hvalue (by simp)
  refine ⟨length, utf8Size_of_hexDigit? hd, ?_⟩
  rw [hexValue?_snoc, read, hd]
  rfl

theorem Reads.next (h : t.Reads w) (hnext : t.next c = .more u) : u.Reads (w ++ [c]) := by
  cases h with
  | plain h =>
    simp only [OpenText.next, add] at hnext
    split at hnext
    · cases hnext
    · rename_i hquote
      split at hnext
      · rename_i hslash
        subst hslash
        cases hnext
        exact .escape h
      · rename_i hslash
        split at hnext <;> cases hnext
        rename_i hcontrol
        exact reads_add h (.plain hquote hslash hcontrol)
  | escape h =>
    simp only [OpenText.next, add] at hnext
    split at hnext
    · rename_i hu
      subst hu
      cases hnext
      rw [List.append_assoc]
      exact .unit h (by decide) fun _ => ⟨rfl, rfl⟩
    · split at hnext <;> cases hnext
      rename_i e he
      rw [List.append_assoc]
      exact reads_add h (.escaped he)
  | @unit pieces w digits bytes value h hbytes hvalue =>
    simp only [OpenText.next, add] at hnext
    split at hnext
    · rename_i short
      cases hnext
      rw [List.append_assoc, List.cons_append, List.cons_append]
      refine .unit h short fun hsome => ?_
      obtain ⟨unit, hunit⟩ := Option.ne_none_iff_exists'.mp hsome
      obtain ⟨length, size, read⟩ := unit_snoc hvalue hunit
      exact ⟨by rw [List.length_append, length, size, List.length_singleton], by rw [read, hunit]⟩
    · rename_i long
      split at hnext <;> cases hnext
      rename_i unit hunit
      obtain ⟨length, size, read⟩ := unit_snoc hvalue hunit
      rw [List.append_assoc, List.cons_append, List.cons_append]
      exact reads_add h (.unit (by rw [List.length_append, List.length_singleton]; omega) read)

theorem Reads.done (h : t.Reads w) (hnext : t.next c = .done) : c = '"' ∧ t.text.Spelled w := by
  cases h with
  | plain h =>
    simp only [OpenText.next, add] at hnext
    split at hnext
    · rename_i hquote
      exact ⟨hquote, h⟩
    · repeat' split at hnext
      all_goals cases hnext
  | escape h | unit h hbytes hvalue =>
    simp only [OpenText.next, add] at hnext
    repeat' split at hnext
    all_goals cases hnext

end OpenText

/-! ### Number literals -/

namespace OpenNumeral

open Numeral

inductive Stem : Bool → List Nat → List Nat → List Char → Prop
  | mk {negative : Bool} {whole fraction : List Nat} {s w f : List Char} (hs : Sign negative s)
      (hw : Whole whole.reverse w) (hf : Fraction fraction.reverse f) :
      Stem negative whole fraction (s ++ w ++ f)

inductive Reads : OpenNumeral → List Char → Prop
  | sign : Reads { negative := true, place := .sign } ['-']
  | zero {negative : Bool} {w : List Char} (h : Stem negative [0] [] w) :
      Reads ⟨negative, [0], [], none, .zero⟩ w
  | whole {negative : Bool} {digits : List Nat} {s w : List Char} (hs : Sign negative s)
      (h : Whole digits.reverse w) (leading : digits.reverse.head? ≠ some 0) :
      Reads ⟨negative, digits, [], none, .whole⟩ (s ++ w)
  | point {negative : Bool} {whole : List Nat} {w : List Char} (h : Stem negative whole [] w) :
      Reads ⟨negative, whole, [], none, .point⟩ (w ++ ['.'])
  | fraction {negative : Bool} {whole digits : List Nat} {w f : List Char}
      (h : Stem negative whole [] w) (hf : Digits digits.reverse f) (nonempty : digits ≠ []) :
      Reads ⟨negative, whole, digits, none, .fraction⟩ (w ++ '.' :: f)
  | mark {negative : Bool} {whole fraction : List Nat} {mark : Char} {w : List Char}
      (h : Stem negative whole fraction w) (hmark : mark = 'e' ∨ mark = 'E') :
      Reads ⟨negative, whole, fraction, some (false, []), .mark⟩ (w ++ [mark])
  | exponentSign {negative minus : Bool} {whole fraction : List Nat} {mark : Char}
      {w sign : List Char} (h : Stem negative whole fraction w) (hmark : mark = 'e' ∨ mark = 'E')
      (hsign : ExponentSign minus sign) :
      Reads ⟨negative, whole, fraction, some (minus, []), .exponentSign⟩ (w ++ mark :: sign)
  | exponent {negative minus : Bool} {whole fraction digits : List Nat} {mark : Char}
      {w sign e : List Char} (h : Stem negative whole fraction w) (hmark : mark = 'e' ∨ mark = 'E')
      (hsign : ExponentSign minus sign) (he : Digits digits.reverse e) (nonempty : digits ≠ []) :
      Reads ⟨negative, whole, fraction, some (minus, digits), .exponent⟩
        (w ++ (mark :: sign ++ e))

variable {n m : OpenNumeral} {negative : Bool} {whole digits : List Nat} {d : Nat}

theorem digits_cons {x : List Char} (h : Digits digits.reverse x) (hc : digit? c = some d) :
    Digits (d :: digits).reverse (x ++ [c]) := by
  rw [List.reverse_cons]
  exact h.snoc hc

theorem digits_first (hc : digit? c = some d) : Digits [d].reverse [c] := by
  simp [Digits, hc]

theorem Stem.of_whole {s : List Char} (hs : Sign negative s) (hw : Whole whole.reverse w) :
    Stem negative whole [] (s ++ w) := by
  have stem : Stem negative whole [] (s ++ w ++ []) := .mk hs hw .absent
  rwa [List.append_nil] at stem

theorem Stem.fraction {f : List Char} (h : Stem negative whole [] w) (hf : Digits digits.reverse f)
    (nonempty : digits ≠ []) : Stem negative whole digits (w ++ '.' :: f) := by
  cases h with
  | mk hs hw habsent =>
    cases habsent with
    | absent =>
      rw [List.append_nil]
      exact .mk hs hw (.present hf (by simpa using nonempty))
    | present _ nonempty => exact absurd rfl nonempty

theorem Stem.spelled (h : Stem negative whole digits w) {exponent : Option (Bool × List Nat)}
    {e : List Char} (he : Exponent exponent e) :
    Numeral.Spelled ⟨negative, whole.reverse, digits.reverse, exponent⟩ (w ++ e) := by
  cases h with
  | mk hs hw hf => exact .mk hs hw hf he

theorem Stem.numeral_spelled (h : Stem negative whole digits w) :
    Numeral.Spelled ⟨negative, whole.reverse, digits.reverse, none⟩ w := by
  have literal := h.spelled .absent
  rwa [List.append_nil] at literal

theorem reads_first {s : List Char} (hs : Sign negative s) (hc : digit? c = some d) :
    Reads (first negative d) (s ++ [c]) := by
  by_cases zero : d = 0
  · subst zero
    exact .zero (.of_whole hs ⟨digits_first hc, by simp, fun _ => rfl⟩)
  · have leading : [d].reverse.head? ≠ some 0 := by simpa using zero
    rw [first, if_neg zero]
    exact .whole hs ⟨digits_first hc, by simp, fun h => absurd h leading⟩ leading

theorem Stem.leaveFraction {fraction : List Nat} {place : NumeralPlace}
    (h : Stem negative whole fraction w)
    (hnext : OpenNumeral.leaveFraction ⟨negative, whole, fraction, none, place⟩ c = .more m) :
    m.Reads (w ++ [c]) := by
  unfold OpenNumeral.leaveFraction at hnext
  split at hnext <;> cases hnext
  rename_i hmark
  exact .mark h hmark

theorem Stem.leaveWhole {place : NumeralPlace} (h : Stem negative whole [] w)
    (hnext : OpenNumeral.leaveWhole ⟨negative, whole, [], none, place⟩ c = .more m) :
    m.Reads (w ++ [c]) := by
  unfold OpenNumeral.leaveWhole at hnext
  split at hnext
  · rename_i hpoint
    subst hpoint
    cases hnext
    exact .point h
  · exact h.leaveFraction hnext

theorem Reads.next (h : n.Reads w) (hnext : n.next c = .more m) : m.Reads (w ++ [c]) := by
  unfold OpenNumeral.next at hnext
  cases h with
  | sign =>
    cases hc : digit? c <;> rw [hc] at hnext <;> cases hnext
    exact reads_first .negative hc
  | zero h =>
    cases hc : digit? c <;> rw [hc] at hnext
    · exact h.leaveWhole hnext
    · cases hnext
  | @whole negative digits s w hs h leading =>
    cases hc : digit? c <;> rw [hc] at hnext
    · exact (Stem.of_whole hs h).leaveWhole hnext
    · rename_i d
      cases hnext
      have leading' : (d :: digits).reverse.head? ≠ some 0 := by
        obtain ⟨e, he⟩ := Option.ne_none_iff_exists'.mp (mt List.head?_eq_none_iff.mp h.nonempty)
        rw [he] at leading
        rw [List.reverse_cons, List.head?_append, he]
        exact leading
      rw [List.append_assoc]
      exact .whole hs ⟨digits_cons h.values hc, by simp, fun h => absurd h leading'⟩ leading'
  | point h =>
    cases hc : digit? c <;> rw [hc] at hnext <;> cases hnext
    rw [List.append_assoc]
    exact .fraction h (digits_first hc) (by simp)
  | fraction h hf nonempty =>
    cases hc : digit? c <;> rw [hc] at hnext
    · exact (h.fraction hf nonempty).leaveFraction hnext
    · cases hnext
      rw [List.append_assoc]
      exact .fraction h (digits_cons hf hc) (by simp)
  | mark h hmark =>
    cases hc : digit? c <;> rw [hc] at hnext
    · simp only at hnext
      rw [List.append_assoc]
      split at hnext
      · rename_i hplus
        subst hplus
        cases hnext
        exact .exponentSign h hmark .plus
      · split at hnext <;> cases hnext
        rename_i hminus
        subst hminus
        exact .exponentSign h hmark .minus
    · cases hnext
      rw [List.append_assoc]
      exact .exponent h hmark .absent (digits_first hc) (by simp)
  | exponentSign h hmark hsign =>
    cases hc : digit? c <;> rw [hc] at hnext <;> cases hnext
    rw [List.append_assoc]
    exact .exponent h hmark hsign (digits_first hc) (by simp)
  | exponent h hmark hsign he nonempty =>
    cases hc : digit? c <;> rw [hc] at hnext <;> cases hnext
    rw [List.append_assoc, List.append_assoc]
    exact .exponent h hmark hsign (digits_cons he hc) (by simp)

theorem Reads.spelled (h : n.Reads w) (canEnd : n.canEnd = true) : n.numeral.Spelled w := by
  cases h with
  | sign | point | mark | exponentSign => cases canEnd
  | zero h => exact h.numeral_spelled
  | whole hs h => exact (Stem.of_whole hs h).numeral_spelled
  | fraction h hf nonempty => exact (h.fraction hf nonempty).numeral_spelled
  | exponent h hmark hsign he nonempty =>
    exact h.spelled (.present hmark hsign he (by simpa using nonempty))

theorem canEnd_of_next_eq_over (h : n.next c = .over) : n.canEnd = true := by
  obtain ⟨negative, whole, fraction, exponent, place⟩ := n
  cases place with
  | zero | whole | fraction | exponent => rfl
  | sign | point | mark | exponentSign =>
    cases hc : digit? c <;> simp only [next, hc] at h
    all_goals
      repeat' split at h
      all_goals cases h

end OpenNumeral

/-! ### Arrays and objects -/

theorem Value.Spelled.snoc {v : Value} (h : v.Spelled w) (hc : isSpace c = true) :
    v.Spelled (w ++ [c]) :=
  .padded blanks_nil h (blanks_nil.snoc hc)

theorem Value.Spelled.after_blanks {v : Value} {blanks : List Char} (hblanks : Blanks blanks)
    (h : v.Spelled w) : v.Spelled (blanks ++ w) := by
  have padded := h.padded hblanks blanks_nil
  rwa [List.append_nil] at padded

theorem Text.KeySpelled.snoc {key : Text} (h : key.KeySpelled w) (hc : isSpace c = true) :
    key.KeySpelled (w ++ [c]) := by
  cases h with
  | mk hbefore h hafter =>
    have longer := KeySpelled.mk hbefore h (hafter.snoc hc)
    simpa using longer

/-- An open array up to its latest comma, the latest item first. -/
def Bracketed (before : List Value) (w : List Char) : Prop :=
  ∃ items : List (Value × List Char), before.reverse = items.map Prod.fst ∧
    (∀ item ∈ items, item.1.Spelled item.2) ∧
      w = '[' :: items.flatMap fun item => item.2 ++ [',']

def Braced (before : List Member) (w : List Char) : Prop :=
  ∃ entries : List Entry, before.reverse = entries.map Entry.member ∧
    (∀ e ∈ entries, e.key.KeySpelled e.keyText ∧ e.value.Spelled e.valueText) ∧
      w = '\x7b' :: entries.flatMap fun e => e.text ++ [',']

section Brackets

variable {v : Value} {key : Text} {items : List Value} {members : List Member}
  {x k blanks : List Char}

theorem bracketed_nil : Bracketed [] ['['] :=
  ⟨[], rfl, by simp, rfl⟩

theorem Bracketed.snoc (h : Bracketed items w) (hv : v.Spelled x) :
    Bracketed (v :: items) (w ++ (x ++ [','])) := by
  obtain ⟨front, before, hfront, rfl⟩ := h
  refine ⟨front ++ [(v, x)], by simp [before], ?_, by simp⟩
  intro item hitem
  rcases List.mem_append.mp hitem with hitem | hitem
  · exact hfront item hitem
  · obtain rfl := List.mem_singleton.mp hitem
    exact hv

theorem Bracketed.close (h : Bracketed items w) (hv : v.Spelled x) :
    (Value.array (v :: items).reverse).Spelled (w ++ (x ++ [']'])) := by
  obtain ⟨front, before, hfront, rfl⟩ := h
  have whole := Value.Spelled.array hfront hv
  rw [List.reverse_cons, before]
  simpa using whole

theorem Bracketed.close_empty (h : Bracketed [] w) (hblanks : Blanks blanks) :
    (Value.array []).Spelled (w ++ (blanks ++ [']'])) := by
  obtain ⟨front, before, -, rfl⟩ := h
  obtain rfl : front = [] := by simpa using before
  exact .emptyArray hblanks

theorem braced_nil : Braced [] ['\x7b'] :=
  ⟨[], rfl, by simp, rfl⟩

theorem Braced.snoc (h : Braced members w) (hkey : key.KeySpelled k) (hv : v.Spelled x) :
    Braced ((key, v) :: members) (w ++ (k ++ ':' :: (x ++ [',']))) := by
  obtain ⟨front, before, hfront, rfl⟩ := h
  refine ⟨front ++ [⟨key, k, v, x⟩], by simp [before, Entry.member], ?_, by simp [Entry.text]⟩
  intro e he
  rcases List.mem_append.mp he with he | he
  · exact hfront e he
  · obtain rfl := List.mem_singleton.mp he
    exact ⟨hkey, hv⟩

theorem Braced.close (h : Braced members w) (hkey : key.KeySpelled k) (hv : v.Spelled x) :
    (Value.object ((key, v) :: members).reverse).Spelled (w ++ (k ++ ':' :: (x ++ ['\x7d']))) := by
  obtain ⟨front, before, hfront, rfl⟩ := h
  have whole := Value.Spelled.object (fun e he => (hfront e he).1) (fun e he => (hfront e he).2)
    hkey hv
  rw [List.reverse_cons, before]
  simpa using whole

theorem Braced.close_empty (h : Braced [] w) (hblanks : Blanks blanks) :
    (Value.object []).Spelled (w ++ (blanks ++ ['\x7d'])) := by
  obtain ⟨front, before, -, rfl⟩ := h
  obtain rfl : front = [] := by simpa using before
  exact .emptyObject hblanks

end Brackets

/-! ### Places -/

inductive Opened : List Frame → List Char → Prop
  | top {blanks : List Char} (h : Blanks blanks) : Opened [] blanks
  | item {frames : List Frame} {before : List Value} {outer w blanks : List Char}
      (houter : Opened frames outer) (h : Bracketed before w) (hblanks : Blanks blanks) :
      Opened (.item before :: frames) (outer ++ (w ++ blanks))
  | value {frames : List Frame} {before : List Member} {key : Text} {outer w k blanks : List Char}
      (houter : Opened frames outer) (h : Braced before w) (hkey : key.KeySpelled k)
      (hblanks : Blanks blanks) :
      Opened (.value before key :: frames) (outer ++ (w ++ (k ++ ':' :: blanks)))

/-- What the text is made of at each place that can be reached in one. -/
inductive Reached : State → List Char → Prop
  | due {frames : List Frame} {outer : List Char} (h : Opened frames outer) :
      Reached (.due frames) outer
  | keyDue {frames : List Frame} {before : List Member} {outer w blanks : List Char}
      (houter : Opened frames outer) (h : Braced before w) (hblanks : Blanks blanks) :
      Reached (.keyDue before frames) (outer ++ (w ++ blanks))
  | literal {frames : List Frame} {letter : Char} {letters : List Char} {v : Value}
      {outer w : List Char} (houter : Opened frames outer)
      (h : v.Spelled (w ++ letter :: letters)) :
      Reached (.literal letter letters v frames) (outer ++ w)
  | numeral {frames : List Frame} {n : OpenNumeral} {outer w : List Char}
      (houter : Opened frames outer) (h : n.Reads w) : Reached (.numeral n frames) (outer ++ w)
  | string {frames : List Frame} {t : OpenText} {outer w : List Char}
      (houter : Opened frames outer) (h : t.Reads w) :
      Reached (.string t frames) (outer ++ '"' :: w)
  | keyText {frames : List Frame} {before : List Member} {t : OpenText}
      {outer w blanks k : List Char} (houter : Opened frames outer) (h : Braced before w)
      (hblanks : Blanks blanks) (ht : t.Reads k) :
      Reached (.keyText t before frames) (outer ++ (w ++ (blanks ++ '"' :: k)))
  | keyRead {frames : List Frame} {before : List Member} {key : Text} {outer w k : List Char}
      (houter : Opened frames outer) (h : Braced before w) (hkey : key.KeySpelled k) :
      Reached (.keyRead before key frames) (outer ++ (w ++ k))
  | itemRead {frames : List Frame} {before : List Value} {v : Value} {outer w : List Char}
      (houter : Opened (.item before :: frames) outer) (h : v.Spelled w) :
      Reached (.itemRead (v :: before) frames) (outer ++ w)
  | memberRead {frames : List Frame} {before : List Member} {key : Text} {v : Value}
      {outer w : List Char} (houter : Opened (.value before key :: frames) outer)
      (h : v.Spelled w) : Reached (.memberRead ((key, v) :: before) frames) (outer ++ w)
  | closed {v : Value} {outer w : List Char} (houter : Opened [] outer) (h : v.Spelled w) :
      Reached (.closed v) (outer ++ w)
  | trailing {v : Value} {w : List Char} : Reached (.trailing v) w
  | broken {f : Fragment} {w : List Char} : Reached (.broken f) w

section Places

variable {s : State} {v : Value} {frames : List Frame} {outer : List Char}

theorem Opened.snoc (h : Opened frames outer) (hc : isSpace c = true) :
    Opened frames (outer ++ [c]) := by
  cases h with
  | top h => exact .top (h.snoc hc)
  | item houter h hblanks => simpa using houter.item h (hblanks.snoc hc)
  | value houter h hkey hblanks => simpa using houter.value h hkey (hblanks.snoc hc)

theorem Opened.complete (houter : Opened frames outer) (h : v.Spelled w) :
    Reached (.complete v frames) (outer ++ w) := by
  match frames with
  | [] => exact .closed houter h
  | .item _ :: _ => exact .itemRead houter h
  | .value _ _ :: _ => exact .memberRead houter h

theorem Opened.separate (houter : Opened frames outer) (h : v.Spelled w) (c : Char) :
    Reached ((State.complete v frames).separate c) (outer ++ w ++ [c]) := by
  by_cases hc : isSpace c = true
  · have same : (State.complete v frames).separate c = .complete v frames := by
      match frames with
      | [] | .item _ :: _ | .value _ _ :: _ => simp [State.complete, State.separate, hc]
    rw [same, List.append_assoc]
    exact houter.complete (h.snoc hc)
  · cases houter with
    | top =>
      simp only [State.complete, State.separate, if_neg hc]
      exact .trailing
    | @item frames before outer x blanks houter hbefore hblanks =>
      have item := h.after_blanks hblanks
      change Reached ((State.itemRead (v :: before) frames).separate c) _
      simp only [State.separate, if_neg hc]
      split
      · rename_i hcomma
        subst hcomma
        have due := Reached.due (houter.item (hbefore.snoc item) blanks_nil)
        simpa using due
      · split
        · rename_i hbracket
          subst hbracket
          have array := houter.complete (hbefore.close item)
          simpa using array
        · exact .broken
    | @value frames before key outer x k blanks houter hbefore hkey hblanks =>
      have value := h.after_blanks hblanks
      change Reached ((State.memberRead ((key, v) :: before) frames).separate c) _
      simp only [State.separate, if_neg hc]
      split
      · rename_i hcomma
        subst hcomma
        have due := Reached.keyDue houter (hbefore.snoc hkey value) blanks_nil
        simpa using due
      · split
        · rename_i hbrace
          subst hbrace
          have object := houter.complete (hbefore.close hkey value)
          simpa using object
        · exact .broken

theorem Opened.enter (h : Opened frames outer) (c : Char) :
    Reached (State.enter frames c) (outer ++ [c]) := by
  unfold State.enter
  split
  · exact .string h OpenText.reads_start
  · exact .due (h.item bracketed_nil blanks_nil)
  · exact .keyDue h braced_nil blanks_nil
  · exact .literal h .null
  · exact .literal h .yes
  · exact .literal h .no
  · exact .numeral h .sign
  · split
    · rename_i hc
      exact .numeral h (OpenNumeral.reads_first .positive hc)
    · cases h with
      | item houter hbefore hblanks =>
        have array := houter.complete (hbefore.close_empty hblanks)
        simpa using array
    · exact .broken

theorem Reached.step (h : Reached s w) (c : Char) : Reached (s.step c) (w ++ [c]) := by
  cases h with
  | due h =>
    simp only [State.step]
    split
    · rename_i hc
      exact .due (h.snoc hc)
    · exact h.enter c
  | keyDue houter h hblanks =>
    simp only [State.step]
    split
    · rename_i hc
      simpa using Reached.keyDue houter h (hblanks.snoc hc)
    · unfold State.enterKey
      split
      · simpa using Reached.keyText houter h hblanks OpenText.reads_start
      · simpa using houter.complete (h.close_empty hblanks)
      · exact .broken
  | @literal frames letter letters v outer w houter h =>
    simp only [State.step]
    split
    · rename_i hc
      subst hc
      split
      · simpa using houter.complete h
      · rename_i letter letters
        have longer : v.Spelled ((w ++ [c]) ++ letter :: letters) := by simpa using h
        simpa using Reached.literal houter longer
    · exact .broken
  | @numeral frames n outer w houter h =>
    simp only [State.step]
    split
    · rename_i hnext
      simpa using Reached.numeral houter (h.next hnext)
    · -- The number ended before this character, which stands behind it.
      rename_i hnext
      exact houter.separate (.number (h.spelled (OpenNumeral.canEnd_of_next_eq_over hnext))) c
    · exact .broken
    · exact .broken
  | string houter h =>
    simp only [State.step]
    split
    · rename_i hnext
      simpa using Reached.string houter (h.next hnext)
    · rename_i hnext
      obtain ⟨rfl, text⟩ := h.done hnext
      simpa using houter.complete (.string text)
    · exact .broken
    · exact .broken
  | keyText houter h hblanks ht =>
    simp only [State.step]
    split
    · rename_i hnext
      simpa using Reached.keyText houter h hblanks (ht.next hnext)
    · rename_i hnext
      obtain ⟨rfl, text⟩ := ht.done hnext
      simpa using Reached.keyRead houter h (.mk hblanks text blanks_nil)
    · exact .broken
    · exact .broken
  | keyRead houter h hkey =>
    simp only [State.step, State.separate]
    split
    · rename_i hc
      simpa using Reached.keyRead houter h (hkey.snoc hc)
    · split
      · rename_i hcolon
        subst hcolon
        simpa using Reached.due (houter.value h hkey blanks_nil)
      · exact .broken
  | itemRead houter h | memberRead houter h => exact houter.separate h c
  | closed houter h => exact houter.separate h c
  | trailing => exact .trailing
  | broken => exact .broken

theorem Reached.run (h : Reached s w) (text : List Char) : Reached (s.run text) (w ++ text) := by
  induction text generalizing s w with
  | nil =>
    rw [List.append_nil]
    exact h
  | cons c text ih =>
    have rest := ih (h.step c)
    rwa [List.append_assoc] at rest

theorem Reached.spelled (h : Reached s w) (hdocument : s.document = .complete v false) :
    v.Spelled w := by
  have settled : s.settle = .closed v := by
    unfold State.document at hdocument
    split at hdocument <;> simp_all [State.document.cut]
  cases h with
  | closed houter h =>
    cases houter with
    | top hblanks =>
      cases settled
      exact h.after_blanks hblanks
  | @numeral frames n outer w houter h =>
    simp only [State.settle] at settled
    split at settled
    · rename_i canEnd
      cases houter with
      | top hblanks =>
        cases settled
        exact (Value.Spelled.number (h.spelled canEnd)).after_blanks hblanks
      | item | value => cases settled
    · cases settled
  | _ => cases settled

end Places

/-- A text is read to its end as a value exactly if it spells that value. -/
theorem scan_eq_complete_iff {v : Value} {w : List Char} :
    scan w = .complete v false ↔ v.Spelled w := by
  constructor
  · intro h
    have start := Reached.due (.top blanks_nil)
    exact (start.run w).spelled h
  · exact Value.Spelled.scan

theorem Decoder.read_eq_ok_iff {α : Type} {d : Decoder α} {text : String} {a : α} :
    d.read text = .ok a ↔ ∃ v : Value, v.Spelled text.toList ∧ d.complete v = .ok a := by
  constructor
  · intro h
    unfold read at h
    split at h
    · rename_i v trailing hscan
      obtain ⟨a', ha', h⟩ := Except.bind_eq_ok_iff.mp h
      cases trailing with
      | true => cases h
      | false =>
        cases h
        exact ⟨v, scan_eq_complete_iff.mp hscan, ha'⟩
    · cases h
  · rintro ⟨v, hv, ha⟩
    rw [read, hv.scan]
    simp only [ha]
    rfl

end TurtleArt.Json
