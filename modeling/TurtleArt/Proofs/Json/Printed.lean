import TurtleArt.Json.Printer
import TurtleArt.Proofs.Json.Integer
import TurtleArt.Proofs.Json.Scanning

/-! A text that was written for a value spells that value, in every layout that adds nothing but
blanks. -/

namespace TurtleArt.Json

structure Layout.Blank (layout : Layout) : Prop where
  lineBreak : ∀ depth, ∀ c ∈ layout.lineBreak depth, isSpace c
  colon : ∃ blanks, layout.colon = ':' :: blanks ∧ ∀ c ∈ blanks, isSpace c

theorem Layout.blank_pretty : Layout.pretty.Blank where
  lineBreak depth c hc := by
    rcases List.mem_cons.mp hc with rfl | hc
    · rfl
    · rw [List.eq_of_mem_replicate hc]
      rfl
  colon := ⟨[' '], rfl, by simp [isSpace]⟩

/-- The values without lone surrogates and without numbers other than integers. -/
inductive Value.Plain : Value → Prop
  | null : Plain .null
  | bool (b : Bool) : Plain (.bool b)
  | number (i : Int) : Plain (.ofInt i)
  | string (w : List Char) : Plain (.ofWord w)
  | array {items : List Value} (h : ∀ v ∈ items, Plain v) : Plain (.array items)
  | object {members : List Member} (keys : ∀ m ∈ members, ∃ w, m.1 = .ofChars w)
      (values : ∀ m ∈ members, Plain m.2) : Plain (.object members)

/-! ### Strings -/

theorem hexValue?_hexDigits : ∀ n < 0x20,
    (hexDigits n).length = 4 ∧ hexValue? (hexDigits n) = some n := by
  decide

theorem Piece.spelled_escapeChar (c : Char) : (char c).Spelled (escapeChar c) := by
  unfold escapeChar
  split
  case h_8 _ hquote hslash _ _ _ _ _ =>
    split
    · rename_i hc
      obtain ⟨length, value⟩ := hexValue?_hexDigits _ hc
      have piece : ofUnit c.toNat = .char c := by
        rw [ofUnit, if_neg (by omega), Char.ofNat_toNat]
      exact piece ▸ .unit length value
    · rename_i hc
      exact .plain hquote hslash hc
  all_goals exact .escaped rfl

theorem Text.spelled_ofChars (w : List Char) :
    (ofChars w).Spelled ((ofChars w).flatMap Piece.render) := by
  induction w with
  | nil => exact .nil
  | cons c w ih => exact .cons (Piece.spelled_escapeChar c) ih

theorem Text.keySpelled_ofChars (w : List Char) {blanks : List Char} (h : Blanks blanks) :
    (ofChars w).KeySpelled (blanks ++ (ofChars w).render) := by
  have bare : (ofChars w).KeySpelled _ := .mk h (spelled_ofChars w) blanks_nil
  simpa [render] using bare

/-! ### Integers -/

namespace Numeral

theorem digit?_digitChar : ∀ d < 10, digit? d.digitChar = some d := by
  decide

theorem digits_renderDigits {digits : List Nat} (h : ∀ d ∈ digits, d < 10) :
    Digits digits (renderDigits digits) := by
  rw [Digits, renderDigits, List.map_map]
  exact List.map_congr_left fun d hd => digit?_digitChar d (h d hd)

theorem whole_digitsOf (n : Nat) : Whole (digitsOf n) (renderDigits (digitsOf n)) where
  values := digits_renderDigits (digitsOf_lt n)
  nonempty h := by
    rw [digitsOf_eq_if] at h
    split at h <;> simp at h
  leading h := by
    by_cases hn : n = 0
    · subst hn
      rfl
    · obtain ⟨d, ds, hds, hd⟩ := exists_digitsOf_eq_cons hn
      rw [hds] at h
      exact absurd (Option.some.inj h) hd

theorem spelled_ofInt (i : Int) : (ofInt i).Spelled (ofInt i).render := by
  have sign : Sign (ofInt i).negative (if (ofInt i).negative then ['-'] else []) := by
    cases (ofInt i).negative
    · exact .positive
    · exact .negative
  have literal := Spelled.mk (n := ofInt i) sign (whole_digitsOf i.natAbs) .absent .absent
  simpa [render, ofInt] using literal

end Numeral

/-! ### Arrays and objects -/

namespace Value

variable {layout : Layout} {v : Value} {x b : List Char}

/-- The items behind `front`. -/
theorem spelled_renderItems (blank : layout.Blank) {items : List Value} (depth : Nat)
    (h : ∀ u ∈ items, u.Spelled (u.render layout depth)) {front : List (Value × List Char)}
    (hfront : ∀ item ∈ front, item.1.Spelled item.2) (hv : v.Spelled x) (hb : Blanks b) :
    (array (front.map Prod.fst ++ v :: items)).Spelled
      ('[' :: front.flatMap (fun item => item.2 ++ [',']) ++ x ++
        renderItems layout depth items ++ b ++ [']']) := by
  induction items generalizing front v x with
  | nil =>
    have last : v.Spelled ([] ++ x ++ b) := .padded blanks_nil hv hb
    simpa [renderItems] using Spelled.array hfront last
  | cons u items ih =>
    have next : u.Spelled (layout.lineBreak depth ++ u.render layout depth ++ []) :=
      .padded (blank.lineBreak depth) (h u (by simp)) blanks_nil
    have longer : ∀ item ∈ front ++ [(v, x)], item.1.Spelled item.2 := by
      intro item hitem
      rcases List.mem_append.mp hitem with hitem | hitem
      · exact hfront item hitem
      · obtain rfl := List.mem_singleton.mp hitem
        exact hv
    have rest := ih (fun u hu => h u (List.mem_cons_of_mem _ hu)) longer next
    simpa [renderItems] using rest

theorem spelled_renderMembers (blank : layout.Blank) {members : List Member} (depth : Nat)
    (keys : ∀ m ∈ members, ∃ w, m.1 = .ofChars w)
    (h : ∀ m ∈ members, m.2.Spelled (m.2.render layout depth)) {front : List Entry} {e : Entry}
    (hfront : ∀ e ∈ front, e.key.KeySpelled e.keyText ∧ e.value.Spelled e.valueText)
    (hkey : e.key.KeySpelled e.keyText) (hv : e.value.Spelled e.valueText) (hb : Blanks b) :
    (object (front.map Entry.member ++ e.member :: members)).Spelled
      ('\x7b' :: front.flatMap (fun e => e.text ++ [',']) ++ e.text ++
        renderMembers layout depth members ++ b ++ ['\x7d']) := by
  induction members generalizing front e with
  | nil =>
    have last : e.value.Spelled ([] ++ e.valueText ++ b) := .padded blanks_nil hv hb
    have whole := Spelled.object (fun e he => (hfront e he).1) (fun e he => (hfront e he).2) hkey
      last
    simpa [renderMembers, Entry.text, Entry.member] using whole
  | cons m members ih =>
    obtain ⟨w, hw⟩ := keys m (by simp)
    obtain ⟨blanks, hcolon, hblanks⟩ := blank.colon
    have next : m.2.Spelled (blanks ++ m.2.render layout depth ++ []) :=
      .padded hblanks (h m (by simp)) blanks_nil
    have key : m.1.KeySpelled (layout.lineBreak depth ++ m.1.render) :=
      hw ▸ Text.keySpelled_ofChars w (blank.lineBreak depth)
    have longer : ∀ f ∈ front ++ [e], f.key.KeySpelled f.keyText ∧ f.value.Spelled f.valueText := by
      intro f hf
      rcases List.mem_append.mp hf with hf | hf
      · exact hfront f hf
      · obtain rfl := List.mem_singleton.mp hf
        exact ⟨hkey, hv⟩
    have rest := ih (fun m hm => keys m (List.mem_cons_of_mem _ hm))
      (fun m hm => h m (List.mem_cons_of_mem _ hm)) (e := ⟨m.1, _, m.2, _⟩) longer key next
    simpa [renderMembers, Entry.text, Entry.member, hcolon] using rest

theorem Plain.spelled (h : v.Plain) (blank : layout.Blank) (depth : Nat) :
    v.Spelled (v.render layout depth) := by
  induction h generalizing depth with
  | null => exact .null
  | bool b => cases b <;> constructor
  | number i => exact .number (Numeral.spelled_ofInt i)
  | string w => exact .string (Text.spelled_ofChars w)
  | @array items _ ih =>
    cases items with
    | nil => exact .emptyArray blanks_nil
    | cons u items =>
      have first : u.Spelled (layout.lineBreak (depth + 1) ++ u.render layout (depth + 1) ++ []) :=
        .padded (blank.lineBreak (depth + 1)) (ih u (by simp) (depth + 1)) blanks_nil
      have none : ∀ item ∈ ([] : List (Value × List Char)), item.1.Spelled item.2 := by simp
      have whole := spelled_renderItems blank (depth + 1)
        (fun u hu => ih u (List.mem_cons_of_mem _ hu) (depth + 1)) none first
        (blank.lineBreak depth)
      simpa [render] using whole
  | @object members keys _ ih =>
    cases members with
    | nil => exact .emptyObject blanks_nil
    | cons m members =>
      obtain ⟨name, u⟩ := m
      obtain ⟨w, rfl⟩ := keys _ (List.mem_cons_self ..)
      obtain ⟨blanks, hcolon, hblanks⟩ := blank.colon
      have first : u.Spelled (blanks ++ u.render layout (depth + 1) ++ []) :=
        .padded hblanks (ih _ (List.mem_cons_self ..) (depth + 1)) blanks_nil
      have key := Text.keySpelled_ofChars w (blank.lineBreak (depth + 1))
      have none : ∀ e ∈ ([] : List Entry), e.key.KeySpelled e.keyText ∧
          e.value.Spelled e.valueText := by simp
      have whole := spelled_renderMembers blank (depth + 1)
        (fun m hm => keys m (List.mem_cons_of_mem _ hm))
        (fun m hm => ih m (List.mem_cons_of_mem _ hm) (depth + 1)) (e := ⟨.ofChars w, _, u, _⟩)
        none key first (blank.lineBreak depth)
      simpa [render, Entry.text, Entry.member, hcolon] using whole

end Value

theorem scan_render {layout : Layout} (blank : layout.Blank) {v : Value} (h : v.Plain)
    (depth : Nat) : scan (v.render layout depth) = .complete v false :=
  (h.spelled blank depth).scan

end TurtleArt.Json
