import TurtleArt.Proofs.Json.Lawful
import TurtleArt.Proofs.Json.Truncation

/-! Decoders that blame nothing but the cut of a text whose value they would have read. The laws go
from strings and integers up to records, one for each way to put decoders together. -/

namespace TurtleArt.Json

open Value

theorem Value.Stub.eq {v u : Value} (h : v.Stub u) (notNumber : v.isNumber = false) : u = v := by
  cases h with
  | whole => rfl
  | number => cases notNumber

namespace Text

variable {t : Text} {w : List Char}

theorem isUnpaired_ofChars (w : List Char) : (ofChars w).isUnpaired = false := by
  induction w with
  | nil => rfl
  | cons c w ih => exact ih

theorem breach_of_prefix (h : t <+: ofChars w) (b : Breach) : t.breach b = b := by
  obtain ⟨u, -, rfl⟩ := List.prefix_map_iff.mp h
  rw [breach, ← ofChars, isUnpaired_ofChars]
  rfl

end Text

theorem Fragment.refuse_of_cut_ofWord {w : List Char} {f : Fragment} (h : (ofWord w).Cut f)
    (expected : String) : f.refuse expected = .breach .truncated := by
  cases h with
  | missing => rfl
  | string h => rw [refuse, Text.breach_of_prefix h]

theorem Fragment.refuse_of_cut_ofInt {i : Int} {f : Fragment} (h : (ofInt i).Cut f)
    (expected : String) : f.refuse expected = .breach .truncated := by
  cases h with
  | missing | number => rfl

namespace Decoder

variable {α β σ : Type} {d : Decoder α} {v : Value}

/-- Whatever a cut leaves of the value is read as far as it goes. -/
structure Awaits (d : Decoder α) (v : Value) : Prop where
  stub : ∀ u, v.Stub u → ∃ a, d.complete u = .ok a
  cut : ∀ f, v.Cut f → d.fragment f = .breach .truncated

theorem Awaits.map (h : d.Awaits v) (f : α → β) : (d.map f).Awaits v where
  stub u hu := by
    obtain ⟨a, ha⟩ := h.stub u hu
    exact ⟨f a, complete_map f ha⟩
  cut := h.cut

/-- A value that is no number is read in full or not at all. -/
theorem awaits_of_complete {a : α} (complete : d.complete v = .ok a)
    (notNumber : v.isNumber = false) (cut : ∀ f, v.Cut f → d.fragment f = .breach .truncated) :
    d.Awaits v where
  stub _ hu := ⟨a, hu.eq notNumber ▸ complete⟩
  cut := cut

theorem string_awaits (w : List Char) : string.Awaits (.ofWord w) :=
  awaits_of_complete (Text.read_ofChars w) rfl fun _ hf => Fragment.refuse_of_cut_ofWord hf _

theorem char_awaits (c : Char) : char.Awaits (.ofWord [c]) :=
  awaits_of_complete (char_undoes.complete c) rfl fun _ hf => Fragment.refuse_of_cut_ofWord hf _

/-! ### Integers -/

theorem exists_ofInt_of_begins {i : Int} {m : Numeral} (h : m.Begins (.ofInt i))
    (nonempty : m.whole ≠ []) : ∃ j, m = .ofInt j ∧ (0 ≤ j ∧ j ≤ i ∨ i ≤ j ∧ j < 0) := by
  obtain ⟨negative, whole, fraction, exponent⟩ := m
  obtain ⟨rfl, begins, hfraction, hexponent⟩ := h
  obtain rfl : fraction = [] := List.prefix_nil.mp hfraction
  obtain rfl : exponent = none := hexponent rfl
  obtain ⟨k, rfl, le, positive⟩ := Numeral.exists_digitsOf_of_prefix begins nonempty
  by_cases hi : i < 0
  · have size : (-(k : Int)).natAbs = k := by omega
    refine ⟨-k, ?_, .inr (by omega)⟩
    have sign : -(k : Int) < 0 := by omega
    simp only [Numeral.ofInt, hi, sign, size]
  · have sign : ¬(k : Int) < 0 := by omega
    refine ⟨k, ?_, .inl (by omega)⟩
    simp only [Numeral.ofInt, hi, sign, Int.natAbs_natCast]

theorem int32_awaits (i : Int32) : int32.Awaits (.ofInt i.toInt) where
  stub u hu := by
    cases hu with
    | whole => exact ⟨i, int32_undoes.complete i⟩
    | number h nonempty =>
      obtain ⟨j, rfl, between⟩ := exists_ofInt_of_begins h nonempty
      have low := i.le_toInt
      have high := i.toInt_lt
      have same : (Int32.ofInt j).toInt = j := Int32.toInt_ofInt_of_le (by omega) (by omega)
      have read := int32_undoes.complete (.ofInt j)
      rw [same] at read
      exact ⟨_, read⟩
  cut _ hf := Fragment.refuse_of_cut_ofInt hf _

/-! ### Lists -/

/-- Behind the bracket of an empty array an item is due as well, so the cut has to be borne without
any value. -/
theorem list_awaits {items : List Value} (h : ∀ v ∈ items, d.Awaits v)
    (missing : d.fragment (.missing .truncated) = .breach .truncated) :
    d.list.Awaits (.array items) := by
  have readable : ∀ v ∈ items, ∃ a, d.complete v = .ok a := fun v hv => (h v hv).stub v .whole
  obtain ⟨as, complete⟩ := Except.exists_mapM readable
  refine awaits_of_complete complete rfl fun f hf => ?_
  cases hf with
  | missing => rfl
  -- Behind the opening bracket an item is due, whatever items there are.
  | emptyArray => exact missing
  | @item front back v f hf =>
    obtain ⟨as, read⟩ := Except.exists_mapM fun u (hu : u ∈ front) => readable u (by simp [hu])
    have item := (h v (by simp)).cut f hf
    simp only [list, read]
    exact item
  | @array front back v u hu =>
    obtain ⟨as, read⟩ : ∃ as, (front ++ [u]).mapM d.complete = .ok as := by
      apply Except.exists_mapM
      rw [List.forall_mem_append, List.forall_mem_singleton]
      exact ⟨fun w hw => readable w (by simp [hw]), (h v (by simp)).stub u hu⟩
    simp only [list, read]
    rfl

/-! ### Objects -/

variable {expected : String} {start s : σ} {next : σ → Text → Except Rejection (Decoder σ)}

theorem exists_foldlM_front {front back : List Member}
    (h : (front ++ back).foldlM (members.step next) start = .ok s) :
    ∃ s', front.foldlM (members.step next) start = .ok s' ∧
      back.foldlM (members.step next) s' = .ok s := by
  rw [List.foldlM_append] at h
  exact Except.bind_eq_ok_iff.mp h

theorem exists_next {key : Text} {back : List Member}
    (h : ((key, v) :: back).foldlM (members.step next) start = .ok s) :
    ∃ d, next start key = .ok d := by
  rw [List.foldlM_cons] at h
  obtain ⟨s', hs', -⟩ := Except.bind_eq_ok_iff.mp h
  obtain ⟨d, hd, -⟩ := Except.bind_eq_ok_iff.mp hs'
  exact ⟨d, hd⟩

theorem members_awaits {ms : List Member}
    (complete : (members expected start next).complete (.object ms) = .ok s)
    (keys : ∀ m ∈ ms, ∃ w, m.1 = .ofChars w)
    (values : ∀ s key v d, (key, v) ∈ ms → next s key = .ok d → d.Awaits v) :
    (members expected start next).Awaits (.object ms) := by
  refine awaits_of_complete complete rfl fun f hf => ?_
  change ms.foldlM (members.step next) start = .ok s at complete
  cases hf with
  | missing => rfl
  | keyless =>
    obtain ⟨s', front, -⟩ := exists_foldlM_front complete
    simp only [members, front]
    rfl
  | @key _ _ t key v ht =>
    obtain ⟨s', front, -⟩ := exists_foldlM_front complete
    obtain ⟨w, rfl⟩ := keys (key, v) (by simp)
    simp only [members, front, Text.breach_of_prefix ht]
    rfl
  | @value _ _ key v f hf =>
    -- The members before the cut decide how the value that is cut would have been read.
    obtain ⟨s', front, back⟩ := exists_foldlM_front complete
    obtain ⟨d, hd⟩ := exists_next back
    have broken := (values s' key v d (by simp) hd).cut f hf
    simp only [members, front]
    change rejectionOr (next s' key) _ = _
    rw [hd]
    exact broken
  | @object front _ key v u hu =>
    obtain ⟨s', hfront, back⟩ := exists_foldlM_front complete
    obtain ⟨d, hd⟩ := exists_next back
    obtain ⟨s'', hs''⟩ := (values s' key v d (by simp) hd).stub u hu
    have read : (front ++ [(key, u)]).foldlM (members.step next) start = .ok s'' := by
      rw [List.foldlM_append, hfront]
      change members.step next s' (key, u) >>= pure = _
      rw [bind_pure, members.step, hd]
      exact hs''
    simp only [members, read]
    rfl

theorem symbolSet_awaits (cs : List Char) :
    symbolSet.Awaits (.array (cs.map fun c => .ofWord [c])) := by
  refine Awaits.map (list_awaits ?_ rfl) _
  rw [List.forall_mem_map]
  exact fun c _ => char_awaits c

theorem symbolMap_awaits {ms : List Member} {m : SymbolMap α}
    (complete : (symbolMap d).complete (.object ms) = .ok m)
    (keys : ∀ m ∈ ms, ∃ w, m.1 = .ofChars w) (values : ∀ m ∈ ms, d.Awaits m.2) :
    (symbolMap d).Awaits (.object ms) := by
  refine members_awaits complete keys fun s key v d' hmem hnext => ?_
  obtain ⟨name, -, hname⟩ := Except.bind_eq_ok_iff.mp hnext
  obtain ⟨c, -, hc⟩ := Except.bind_eq_ok_iff.mp hname
  cases hc
  exact (values _ hmem).map _

end Decoder

/-! ### Records -/

namespace Fields

open Decoder

variable {α : Type} {βs : List Type} {fields : Fields βs} {v : Value}

inductive Awaits : {βs : List Type} → Fields βs → String → Value → Prop
  | here {β : Type} {βs : List Type} {name : String} {d : Decoder β} {default : Option β}
      {rest : Fields βs} {v : Value} (h : d.Awaits v) :
      Awaits (.cons name d default rest) name v
  | there {β : Type} {βs : List Type} {name key : String} {d : Decoder β} {default : Option β}
      {rest : Fields βs} {v : Value} (h : Awaits rest key v) (other : key ≠ name) :
      Awaits (.cons name d default rest) key v

theorem Awaits.select {key : String} (h : fields.Awaits key v) {slots : Slots βs}
    {d : Decoder (Slots βs)} (hselect : fields.select slots key = .ok d) : d.Awaits v := by
  induction h with
  | here h =>
    obtain ⟨slot, slots⟩ := slots
    rw [Fields.select, if_pos rfl] at hselect
    split at hselect <;> cases hselect
    exact h.map _
  | there _ other ih =>
    obtain ⟨slot, slots⟩ := slots
    rw [Fields.select, if_neg other] at hselect
    obtain ⟨d', hd', hmap⟩ := Except.bind_eq_ok_iff.mp hselect
    cases hmap
    exact (ih hd').map _

theorem fragment_record {ms : List Member} {f : Fragment} (h : (Value.object ms).Cut f)
    (title : String) (build : Values βs → α) :
    (fields.record title build).fragment f = (byName.slots fields title).fragment f := by
  cases h <;> rfl

theorem record_awaits {members : List (String × Value)} {title : String} {build : Values βs → α}
    {a : α} (complete : (fields.record title build).complete (.ofFields members) = .ok a)
    (values : ∀ m ∈ members, fields.Awaits m.1 m.2) :
    (fields.record title build).Awaits (.ofFields members) := by
  have slots : (byName.slots fields title).Awaits (.ofFields members) := by
    obtain ⟨bs, hbs, -⟩ := Except.map_eq_ok_iff.mp complete
    obtain ⟨slots, hslots, -⟩ := Except.bind_eq_ok_iff.mp hbs
    refine members_awaits hslots ?_ fun s key v d hmem hnext => ?_
    · rw [List.forall_mem_map]
      exact fun m _ => ⟨m.1.toList, rfl⟩
    · obtain ⟨m, hm, heq⟩ := List.mem_map.mp hmem
      cases heq
      obtain ⟨name, hname, hselect⟩ := Except.bind_eq_ok_iff.mp hnext
      obtain rfl : m.1 = name := by
        rw [Text.read_ofChars, String.ofList_toList] at hname
        exact Except.ok.inj hname
      exact (values m hm).select hselect
  refine awaits_of_complete complete rfl fun f hf => ?_
  rw [fragment_record hf, slots.cut f hf]

end Fields

/-! ### Choices -/

namespace Choice

open Decoder

variable {α : Type} {c : Choice α} {name : String}

theorem awaits_ofString {a : α} (h : c.lookup name = some (.unit a)) :
    c.decoder.Awaits (.ofString name) := by
  refine awaits_of_complete (complete_ofString (.unit a) h) rfl fun f hf => ?_
  cases hf with
  | missing => rfl
  | string ht => exact congrArg Rejection.breach (Text.breach_of_prefix ht _)

theorem cut_member {key : Text} {v : Value} {f : Fragment} (h : (Value.object [(key, v)]).Cut f) :
    f = .missing .truncated ∨ f = .keyless [] .truncated ∨
      (∃ t, t <+: key ∧ f = .key [] t .truncated) ∨ (∃ g, v.Cut g ∧ f = .value [] key g) ∨
      ∃ u, v.Stub u ∧ f = .object [(key, u)] .truncated := by
  have single {front back : List Member} {m : Member} (h : front ++ m :: back = [(key, v)]) :
      front = [] ∧ m = (key, v) := by
    rcases List.append_eq_singleton_iff.mp h with ⟨rfl, h⟩ | ⟨-, h⟩
    · exact ⟨rfl, (List.cons.inj h).1⟩
    · cases h
  generalize hms : [(key, v)] = ms at h
  cases h with
  | missing => exact .inl rfl
  | keyless more =>
    rcases List.append_eq_singleton_iff.mp hms.symm with ⟨rfl, -⟩ | ⟨rfl, rfl⟩
    · exact .inr (.inl rfl)
    · simp at more
  | key ht =>
    obtain ⟨rfl, hm⟩ := single hms.symm
    cases hm
    exact .inr (.inr (.inl ⟨_, ht, rfl⟩))
  | value hf =>
    obtain ⟨rfl, hm⟩ := single hms.symm
    cases hm
    exact .inr (.inr (.inr (.inl ⟨_, hf, rfl⟩)))
  | object hu =>
    obtain ⟨rfl, hm⟩ := single hms.symm
    cases hm
    exact .inr (.inr (.inr (.inr ⟨_, hu, rfl⟩)))

theorem awaits_ofFields {payload : Payload α} (h : c.lookup name = some payload) {v : Value}
    (hv : payload.decoder.Awaits v) : c.decoder.Awaits (.ofFields [(name, v)]) := by
  have select : c.select (.ofChars name.toList) = .ok payload :=
    select_eq_ok payload h (Text.chars?_ofChars _)
  obtain ⟨a, ha⟩ := hv.stub v .whole
  refine awaits_of_complete ((complete_ofFields payload h v).trans ha) rfl fun f hf => ?_
  rcases cut_member hf with rfl | rfl | ⟨t, ht, rfl⟩ | ⟨g, hg, rfl⟩ | ⟨u, hu, rfl⟩
  · rfl
  · rfl
  · exact congrArg Rejection.breach (Text.breach_of_prefix ht _)
  · change rejectionOr (c.select _) _ = _
    rw [select]
    exact hv.cut g hg
  · obtain ⟨b, hb⟩ := hv.stub u hu
    have member : c.member (.ofChars name.toList, u) = .ok b := by
      rw [member, select]
      exact hb
    change rejectionOr (c.member (.ofChars name.toList, u)) _ = _
    rw [member]
    rfl

end Choice
end TurtleArt.Json
