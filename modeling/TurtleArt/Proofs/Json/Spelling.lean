import TurtleArt.Json.Scan

/-! The texts that spell a JSON value. A value has many: blanks can stand around every value, key
and bracket, a character can be escaped, and an exponent has a mark of either case. -/

namespace TurtleArt.Json

def Blanks (w : List Char) : Prop :=
  ∀ c ∈ w, isSpace c = true

/-! ### String literals -/

def hexValue? (digits : List Char) : Option Nat :=
  digits.foldlM (fun value c => (hexDigit? c).map (16 * value + ·)) 0

inductive Piece.Spelled : Piece → List Char → Prop
  | plain {c : Char} (hquote : c ≠ '"') (hslash : c ≠ '\\') (hcontrol : ¬c.toNat < 0x20) :
      Spelled (.char c) [c]
  | escaped {e c : Char} (h : OpenText.escape? e = some c) : Spelled (.char c) ['\\', e]
  | unit {digits : List Char} {value : Nat} (hlength : digits.length = 4)
      (h : hexValue? digits = some value) : Spelled (.ofUnit value) ('\\' :: 'u' :: digits)

inductive Text.Spelled : Text → List Char → Prop
  | nil : Spelled [] []
  | cons {p : Piece} {t : Text} {w x : List Char} (hp : p.Spelled w) (ht : Spelled t x) :
      Spelled (p :: t) (w ++ x)

inductive Text.KeySpelled : Text → List Char → Prop
  | mk {t : Text} {before w after : List Char} (hbefore : Blanks before) (h : t.Spelled w)
      (hafter : Blanks after) : KeySpelled t (before ++ '"' :: w ++ '"' :: after)

/-! ### Number literals -/

namespace Numeral

def Digits (digits : List Nat) (w : List Char) : Prop :=
  w.map digit? = digits.map some

inductive Sign : Bool → List Char → Prop
  | positive : Sign false []
  | negative : Sign true ['-']

structure Whole (digits : List Nat) (w : List Char) : Prop where
  values : Digits digits w
  nonempty : digits ≠ []
  leading : digits.head? = some 0 → digits = [0]

inductive Fraction : List Nat → List Char → Prop
  | absent : Fraction [] []
  | present {digits : List Nat} {w : List Char} (h : Digits digits w) (nonempty : digits ≠ []) :
      Fraction digits ('.' :: w)

/-- The sign of an exponent. It may be left out where it is no minus. -/
inductive ExponentSign : Bool → List Char → Prop
  | absent : ExponentSign false []
  | plus : ExponentSign false ['+']
  | minus : ExponentSign true ['-']

inductive Exponent : Option (Bool × List Nat) → List Char → Prop
  | absent : Exponent none []
  | present {mark : Char} {negative : Bool} {sign w : List Char} {digits : List Nat}
      (hmark : mark = 'e' ∨ mark = 'E') (hsign : ExponentSign negative sign)
      (h : Digits digits w) (nonempty : digits ≠ []) :
      Exponent (some (negative, digits)) (mark :: sign ++ w)

inductive Spelled : Numeral → List Char → Prop
  | mk {n : Numeral} {s w f e : List Char} (hsign : Sign n.negative s) (hwhole : Whole n.whole w)
      (hfraction : Fraction n.fraction f) (hexponent : Exponent n.exponent e) :
      Spelled n (s ++ w ++ f ++ e)

end Numeral

/-! ### Values -/

structure Entry where
  key : Text
  keyText : List Char
  value : Value
  valueText : List Char

namespace Entry

def member (e : Entry) : Member :=
  (e.key, e.value)

def text (e : Entry) : List Char :=
  e.keyText ++ ':' :: e.valueText

end Entry

namespace Value

/-- The text may begin and end with blanks. All items of an array but the last are followed by a
comma, and so are the members of an object. -/
inductive Spelled : Value → List Char → Prop
  | null : Spelled .null ['n', 'u', 'l', 'l']
  | yes : Spelled (.bool true) ['t', 'r', 'u', 'e']
  | no : Spelled (.bool false) ['f', 'a', 'l', 's', 'e']
  | number {n : Numeral} {w : List Char} (h : n.Spelled w) : Spelled (.number n) w
  | string {t : Text} {w : List Char} (h : t.Spelled w) : Spelled (.string t) ('"' :: w ++ ['"'])
  | emptyArray {b : List Char} (h : Blanks b) : Spelled (.array []) ('[' :: b ++ [']'])
  | array {front : List (Value × List Char)} {v : Value} {w : List Char}
      (hfront : ∀ item ∈ front, Spelled item.1 item.2) (hlast : Spelled v w) :
      Spelled (.array (front.map Prod.fst ++ [v]))
        ('[' :: front.flatMap (fun item => item.2 ++ [',']) ++ w ++ [']'])
  | emptyObject {b : List Char} (h : Blanks b) : Spelled (.object []) ('\x7b' :: b ++ ['\x7d'])
  | object {front : List Entry} {key : Text} {k : List Char} {v : Value} {w : List Char}
      (hkeys : ∀ e ∈ front, e.key.KeySpelled e.keyText)
      (hfront : ∀ e ∈ front, Spelled e.value e.valueText) (hkey : key.KeySpelled k)
      (hlast : Spelled v w) :
      Spelled (.object (front.map Entry.member ++ [(key, v)]))
        ('\x7b' :: front.flatMap (fun e => e.text ++ [',']) ++ k ++ ':' :: w ++ ['\x7d'])
  | padded {v : Value} {before w after : List Char} (hbefore : Blanks before) (h : Spelled v w)
      (hafter : Blanks after) : Spelled v (before ++ w ++ after)

end Value

/-! ### Spellings put together -/

theorem blanks_nil : Blanks [] := by
  rintro c ⟨⟩

theorem Blanks.append {v w : List Char} (hv : Blanks v) (hw : Blanks w) : Blanks (v ++ w) := by
  intro c hc
  rcases List.mem_append.mp hc with hc | hc
  · exact hv c hc
  · exact hw c hc

theorem Blanks.snoc {w : List Char} {c : Char} (hw : Blanks w) (hc : isSpace c = true) :
    Blanks (w ++ [c]) :=
  hw.append fun _ hd => List.mem_singleton.mp hd ▸ hc

theorem hexValue?_snoc (digits : List Char) (c : Char) :
    hexValue? (digits ++ [c]) =
      (hexValue? digits).bind fun value => (hexDigit? c).map (16 * value + ·) := by
  rw [hexValue?, List.foldlM_append]
  simp only [List.foldlM_cons, List.foldlM_nil, bind_pure]
  rfl

theorem Text.Spelled.append {t u : Text} {w x : List Char} (ht : t.Spelled w) (hu : u.Spelled x) :
    (t ++ u).Spelled (w ++ x) := by
  induction ht with
  | nil => exact hu
  | cons hp _ ih =>
    rw [List.cons_append, List.append_assoc]
    exact .cons hp ih

theorem Text.Spelled.snoc {t : Text} {p : Piece} {w x : List Char} (ht : t.Spelled w)
    (hp : p.Spelled x) : (t ++ [p]).Spelled (w ++ x) := by
  have last : Text.Spelled [p] (x ++ []) := .cons hp .nil
  rw [List.append_nil] at last
  exact ht.append last

theorem Numeral.exists_of_digits_cons {digits : List Nat} {c : Char} {w : List Char}
    (h : Digits digits (c :: w)) :
    ∃ d rest, digits = d :: rest ∧ digit? c = some d ∧ Digits rest w := by
  obtain ⟨d, rest, rfl, hd, hrest⟩ := List.map_eq_cons_iff.mp (Eq.symm h)
  exact ⟨d, rest, rfl, hd.symm, hrest.symm⟩

theorem Numeral.exists_of_cons_digits {d : Nat} {digits : List Nat} {w : List Char}
    (h : Digits (d :: digits) w) :
    ∃ c v, w = c :: v ∧ digit? c = some d ∧ Digits digits v := by
  obtain ⟨c, v, rfl, hc, hv⟩ := List.map_eq_cons_iff.mp h
  exact ⟨c, v, rfl, hc, hv⟩

theorem Numeral.Digits.snoc {digits : List Nat} {w : List Char} {d : Nat} {c : Char}
    (h : Digits digits w) (hc : digit? c = some d) : Digits (digits ++ [d]) (w ++ [c]) := by
  rw [Digits, List.map_append, List.map_append, h, List.map_singleton, List.map_singleton, hc]

end TurtleArt.Json
