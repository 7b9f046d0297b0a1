import TurtleArt.Json.Choice
import TurtleArt.Proofs.Json.Members
import TurtleArt.Proofs.Json.Printed
import TurtleArt.Proofs.Symbol.Canonical

/-! Decoders that read back what an encoding writes, from strings and integers up to records. -/

namespace TurtleArt.Json

theorem Text.read_ofChars (w : List Char) : (ofChars w).read = .ok (String.ofList w) := by
  rw [read, chars?_ofChars]

theorem Value.plain_ofString (s : String) : (ofString s).Plain :=
  .string s.toList

theorem Value.plain_ofFields {fields : List (String × Value)} (h : ∀ f ∈ fields, f.2.Plain) :
    (ofFields fields).Plain := by
  apply Plain.object
  · intro m hm
    obtain ⟨f, -, rfl⟩ := List.mem_map.mp hm
    exact ⟨f.1.toList, rfl⟩
  · intro m hm
    obtain ⟨f, hf, rfl⟩ := List.mem_map.mp hm
    exact h f hf

namespace Decoder

variable {α β : Type} {d : Decoder α} {encode : α → Value}

structure Undoes (d : Decoder α) (encode : α → Value) : Prop where
  plain : ∀ a, (encode a).Plain
  complete : ∀ a, d.complete (encode a) = .ok a

theorem Undoes.read_pretty (h : d.Undoes encode) (a : α) : d.read (encode a).pretty = .ok a := by
  have scanned := scan_render Layout.blank_pretty (h.plain a) 0
  rw [read, Value.pretty, String.toList_ofList, scanned]
  simp only [h.complete a]
  rfl

theorem complete_map {v : Value} {a : α} (f : α → β) (h : d.complete v = .ok a) :
    (d.map f).complete v = .ok (f a) := by
  change f <$> d.complete v = .ok (f a)
  rw [h]
  rfl

theorem string_undoes : string.Undoes .ofString where
  plain := Value.plain_ofString
  complete s := by
    change (Text.ofChars s.toList).read = .ok s
    rw [Text.read_ofChars, String.ofList_toList]

theorem word_undoes : word.Undoes .ofWord where
  plain := .string
  complete w := by
    have text : string.complete (.ofWord w) = .ok (String.ofList w) := Text.read_ofChars w
    rw [word, complete_map _ text, String.toList_ofList]

theorem singleton_ofList (c : Char) : singleton (String.ofList [c]) = .ok c := by
  rw [singleton, String.toList_ofList]

theorem char_undoes : char.Undoes fun c => .ofWord [c] where
  plain c := .string [c]
  complete c := by
    have text : char.complete (.ofWord [c]) = (Text.ofChars [c]).read.bind singleton := rfl
    rw [text, Text.read_ofChars, Except.bind, singleton_ofList]

theorem int32_undoes : int32.Undoes fun i => .ofInt i.toInt where
  plain i := .number i.toInt
  complete i := by
    have low := i.minValue_le_toInt
    have high := i.toInt_le
    have number : (Numeral.ofInt i.toInt).number? = some (.integer i.toInt) := by
      apply Numeral.number?_ofInt
      · have : (-2147483648 : Int) ≤ i.toInt := low
        rw [Numeral.significandLimit]
        omega
      · have : i.toInt ≤ 2147483647 := high
        rw [Numeral.significandLimit]
        omega
    simp only [int32, Value.ofInt, number, low, high, and_self, if_true, Int32.ofInt_toInt]

theorem list_undoes (h : d.Undoes encode) : d.list.Undoes fun l => .array (l.map encode) where
  plain l := by
    apply Value.Plain.array
    intro v hv
    obtain ⟨a, -, rfl⟩ := List.mem_map.mp hv
    exact h.plain a
  complete l := by
    change (l.map encode).mapM d.complete = .ok l
    induction l with
    | nil => rfl
    | cons a l ih =>
      rw [List.map_cons, List.mapM_cons, h.complete a, ih]
      rfl

end Decoder

namespace Fields

open Decoder

variable {α : Type} {βs : List Type}

/-- Members that write a value for every field, in the order of the fields. -/
inductive Spells : {βs : List Type} → Fields βs → Values βs → List (String × Value) → Prop
  | nil : Spells .nil () []
  | cons {β : Type} {βs : List Type} {name : String} {d : Decoder β} {encode : β → Value}
      {default : Option β} {rest : Fields βs} {b : β} {bs : Values βs}
      {members : List (String × Value)} (h : d.Undoes encode) (hrest : Spells rest bs members) :
      Spells (.cons name d default rest) (b, bs) ((name, encode b) :: members)

variable {fields : Fields βs} {bs : Values βs} {members : List (String × Value)}

theorem Spells.keys_eq (h : Spells fields bs members) : members.map Prod.fst = fields.names := by
  induction h with
  | nil => rfl
  | cons _ _ ih => rw [List.map_cons, ih, names]

theorem Spells.plain (h : Spells fields bs members) : (Value.ofFields members).Plain := by
  apply Value.plain_ofFields
  induction h with
  | nil => simp
  | @cons _ _ _ _ _ _ _ b _ _ undoes _ ih =>
    intro m hm
    rcases List.mem_cons.mp hm with rfl | hm
    · exact undoes.plain b
    · exact ih m hm

theorem Spells.gathered (h : Spells fields bs members) (nodup : fields.names.Nodup) :
    Gathered fields (members.map fun m => (Text.ofChars m.1.toList, m.2)) bs := by
  induction h with
  | nil => exact .nil
  | @cons _ _ name _ encode _ rest b _ members undoes spells ih =>
    rw [names, List.nodup_cons] at nodup
    have named : Member.IsNamed name (Text.ofChars name.toList, encode b) := Text.chars?_ofChars _
    have others : ∀ m ∈ members.map fun m => (Text.ofChars m.1.toList, m.2),
        ¬Member.IsNamed name m := by
      intro m hm hname
      obtain ⟨n, hn, rfl⟩ := List.mem_map.mp hm
      have own : Member.IsNamed n.1 (Text.ofChars n.1.toList, n.2) := Text.chars?_ofChars _
      exact nodup.1 (own.eq hname ▸ spells.keys_eq ▸ List.mem_map_of_mem hn)
    rw [List.map_cons]
    refine .cons ⟨some b, ?_, rfl⟩ ((ih nodup.2).congr fun other hother => ?_)
    · rw [Member.valuesOf_cons_of_isNamed named, Member.valuesOf_eq_nil others]
      exact .value (undoes.complete b)
    · have elsewhere : ¬Member.IsNamed other (Text.ofChars name.toList, encode b) :=
        fun h => nodup.1 (named.eq h ▸ hother)
      exact (Member.valuesOf_cons_of_not_isNamed elsewhere _).symm

theorem record_ofFields (h : Spells fields bs members) (nodup : fields.names.Nodup) (title : String)
    (build : Values βs → α) :
    (fields.record title build).complete (.ofFields members) = .ok (build bs) := by
  have read : (fields.byName title).complete (.ofFields members) = .ok bs := by
    refine (byName_complete_eq_ok_iff nodup title).mpr ⟨?_, h.gathered nodup⟩
    rw [List.forall_mem_map]
    exact fun m _ => ⟨m.1, Text.chars?_ofChars _⟩
  exact complete_map build read

theorem record_undoes {encode : α → Value} {build : Values βs → α} (nodup : fields.names.Nodup)
    (title : String) (spells : ∀ a, ∃ bs members, Spells fields bs members ∧ build bs = a ∧
      encode a = .ofFields members) : (fields.record title build).Undoes encode where
  plain a := by
    obtain ⟨bs, members, h, -, written⟩ := spells a
    rw [written]
    exact h.plain
  complete a := by
    obtain ⟨bs, members, h, built, written⟩ := spells a
    rw [written, record_ofFields h nodup, built]

end Fields

namespace Choice

variable {α : Type} {c : Choice α} {name : String} (payload : Payload α)

theorem complete_ofString (h : c.lookup name = some payload) :
    c.decoder.complete (.ofString name) = payload.bare := by
  change (do (← c.select (.ofChars name.toList)).bare) = payload.bare
  rw [select_eq_ok payload h (Text.chars?_ofChars _)]
  rfl

theorem complete_ofFields (h : c.lookup name = some payload) (v : Value) :
    c.decoder.complete (.ofFields [(name, v)]) = payload.decoder.complete v :=
  complete_member payload h (Text.chars?_ofChars _) v

end Choice
end TurtleArt.Json
