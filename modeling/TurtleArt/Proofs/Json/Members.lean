import Mathlib.Data.List.Induction
import TurtleArt.Json.Choice
import TurtleArt.Json.Record
import TurtleArt.Proofs.Except

/-! What records and choices take from the members of an object. Each field of a record looks at the
values under its own name only, so neither the order of the members nor those of other names
matter. -/

namespace TurtleArt.Json

theorem Text.read_eq_ok_iff {t : Text} {s : String} :
    t.read = .ok s ↔ t.chars? = some s.toList := by
  unfold read
  split
  · rename_i w h
    rw [h, Option.some.injEq, Except.ok.injEq, ← String.toList_inj, String.toList_ofList]
  · rename_i h
    simp [h]

/-! ### The members of an object by name -/

namespace Member

def IsNamed (name : String) (m : Member) : Prop :=
  m.1.chars? = some name.toList

instance (name : String) : DecidablePred (IsNamed name) :=
  fun m => inferInstanceAs (Decidable (m.1.chars? = some name.toList))

def valuesOf (name : String) (ms : List Member) : List Value :=
  (ms.filter (IsNamed name ·)).map Prod.snd

variable {name other : String} {m : Member}

theorem valuesOf_append (name : String) (ms ns : List Member) :
    valuesOf name (ms ++ ns) = valuesOf name ms ++ valuesOf name ns := by
  rw [valuesOf, List.filter_append, List.map_append]
  rfl

theorem valuesOf_cons_of_isNamed (h : m.IsNamed name) (ms : List Member) :
    valuesOf name (m :: ms) = m.2 :: valuesOf name ms := by
  rw [valuesOf, List.filter_cons_of_pos (by simpa using h), List.map_cons, valuesOf]

theorem valuesOf_cons_of_not_isNamed (h : ¬m.IsNamed name) (ms : List Member) :
    valuesOf name (m :: ms) = valuesOf name ms := by
  rw [valuesOf, List.filter_cons_of_neg (by simpa using h), valuesOf]

theorem valuesOf_snoc_of_isNamed (h : m.IsNamed name) (ms : List Member) :
    valuesOf name (ms ++ [m]) = valuesOf name ms ++ [m.2] := by
  rw [valuesOf_append, valuesOf_cons_of_isNamed h]
  rfl

theorem valuesOf_snoc_of_not_isNamed (h : ¬m.IsNamed name) (ms : List Member) :
    valuesOf name (ms ++ [m]) = valuesOf name ms := by
  rw [valuesOf_append, valuesOf_cons_of_not_isNamed h]
  exact List.append_nil _

theorem valuesOf_eq_nil {ms : List Member} (h : ∀ m ∈ ms, ¬m.IsNamed name) :
    valuesOf name ms = [] := by
  rw [valuesOf, List.filter_eq_nil_iff.mpr (by simpa using h), List.map_nil]

theorem IsNamed.eq (h : m.IsNamed name) (h' : m.IsNamed other) : name = other :=
  String.toList_inj.mp (Option.some.inj (Eq.trans (Eq.symm h) h'))

end Member

namespace Fields

open Member

variable {α β : Type} {βs : List Type} {fields : Fields βs} {ms : List Member}

/-! ### One more member -/

def push {β : Type} (slot : Option β) (slots : Slots βs) : Slots (β :: βs) :=
  (slot, slots)

def enter (fields : Fields βs) (slots : Slots βs) (m : String × Value) :
    Except Rejection (Slots βs) := do
  let d ← fields.select slots m.1
  d.complete m.2

theorem enter_cons_of_ne {β : Type} {name : String} (d : Decoder β) (default : Option β)
    (rest : Fields βs) (slot : Option β) (slots : Slots βs) {m : String × Value}
    (h : m.1 ≠ name) :
    enter (.cons name d default rest) (push slot slots) m =
      (rest.enter slots m).map (push slot) := by
  simp only [enter, push, select, if_neg h]
  cases rest.select slots m.1 <;> rfl

/-! ### What a record takes from an object -/

/-- The one value there is for a field, read, or nothing if there is none. -/
inductive Takes (d : Decoder β) : List Value → Option β → Prop
  | nothing : Takes d [] none
  | value {v : Value} {b : β} (h : d.complete v = .ok b) : Takes d [v] (some b)

inductive Filled : {βs : List Type} → Fields βs → List Member → Slots βs → Prop
  | nil {ms : List Member} : Filled .nil ms ()
  | cons {β : Type} {βs : List Type} {name : String} {d : Decoder β} {default : Option β}
      {rest : Fields βs} {ms : List Member} {slot : Option β} {slots : Slots βs}
      (h : Takes d (valuesOf name ms) slot) (hrest : Filled rest ms slots) :
      Filled (.cons name d default rest) ms (push slot slots)

def Yields (d : Decoder β) (default : Option β) (vs : List Value) (b : β) : Prop :=
  ∃ slot, Takes d vs slot ∧ (slot <|> default) = some b

inductive Gathered : {βs : List Type} → Fields βs → List Member → Values βs → Prop
  | nil {ms : List Member} : Gathered .nil ms ()
  | cons {β : Type} {βs : List Type} {name : String} {d : Decoder β} {default : Option β}
      {rest : Fields βs} {ms : List Member} {b : β} {bs : Values βs}
      (h : Yields d default (valuesOf name ms) b) (hrest : Gathered rest ms bs) :
      Gathered (.cons name d default rest) ms (b, bs)

theorem takes_snoc_iff {d : Decoder β} {vs : List Value} {v : Value} {slot : Option β} :
    Takes d (vs ++ [v]) slot ↔ Takes d vs none ∧ ∃ b, d.complete v = .ok b ∧ slot = some b := by
  constructor
  · intro h
    generalize hws : vs ++ [v] = ws at h
    cases h with
    | nothing => simp at hws
    | @value w b h =>
      cases vs with
      | nil =>
        obtain rfl : v = w := by simpa using hws
        exact ⟨.nothing, b, h, rfl⟩
      | cons u vs => simp at hws
  · rintro ⟨h, b, hb, rfl⟩
    cases h
    exact .value hb

theorem filled_cons_iff {name : String} {d : Decoder β} {default : Option β} {slot : Option β}
    {slots : Slots βs} :
    Filled (.cons name d default fields) ms (push slot slots) ↔
      Takes d (valuesOf name ms) slot ∧ Filled fields ms slots := by
  constructor
  · intro h
    cases h with
    | cons h hrest => exact ⟨h, hrest⟩
  · rintro ⟨h, hrest⟩
    exact .cons h hrest

theorem filled_nil_iff {slots : Slots βs} : Filled fields [] slots ↔ slots = fields.vacant := by
  induction fields with
  | nil => exact ⟨fun _ => rfl, fun _ => .nil⟩
  | cons name d default rest ih =>
    obtain ⟨slot, slots⟩ := slots
    constructor
    · intro h
      obtain ⟨takes, filled⟩ := filled_cons_iff.mp h
      cases takes
      exact congrArg (push none) (ih.mp filled)
    · intro h
      obtain ⟨rfl, rest⟩ := Prod.mk.inj h
      exact .cons .nothing (ih.mpr rest)

theorem Filled.congr {ns : List Member} {slots : Slots βs} (h : Filled fields ms slots)
    (same : ∀ name ∈ fields.names, valuesOf name ms = valuesOf name ns) :
    Filled fields ns slots := by
  induction h with
  | nil => exact .nil
  | cons h _ ih =>
    rw [names, List.forall_mem_cons] at same
    exact .cons (same.1 ▸ h) (ih same.2)

theorem enter_cons_self {name : String} {d : Decoder β} {default slot : Option β} {v : Value}
    {slots : Slots βs} {later : Slots (β :: βs)} :
    enter (.cons name d default fields) (push slot slots) (name, v) = .ok later ↔
      slot = none ∧ ∃ b, d.complete v = .ok b ∧ later = push (some b) slots := by
  cases slot with
  | some b => simp [enter, push, select, bind, Except.bind]
  | none =>
    have read : enter (.cons name d default fields) (push none slots) (name, v) =
        (d.complete v).map fun b => push (some b) slots := by
      simp only [enter, push, select, if_true]
      rfl
    rw [read]
    cases d.complete v with
    | error r => simp [Except.map]
    | ok b => simp [Except.map, eq_comm (a := later)]

/-- One more member goes to the field that it names, if that has no value yet. -/
theorem filled_snoc_iff (nodup : fields.names.Nodup) {m : Member} {key : String}
    (hkey : m.IsNamed key) {slots : Slots βs} :
    Filled fields (ms ++ [m]) slots ↔
      ∃ before, Filled fields ms before ∧ fields.enter before (key, m.2) = .ok slots := by
  induction fields with
  | nil => exact ⟨fun _ => ⟨(), .nil, rfl⟩, fun _ => .nil⟩
  | cons name d default rest ih =>
    rw [names, List.nodup_cons] at nodup
    obtain ⟨slot, slots⟩ := slots
    change Filled _ _ (push slot slots) ↔ ∃ before, _ ∧ _ = Except.ok (push slot slots)
    rw [filled_cons_iff]
    by_cases hname : key = name
    · subst hname
      -- The member goes to this field; as no name occurs twice, the other fields do not see it.
      have elsewhere : ∀ name ∈ rest.names, valuesOf name (ms ++ [m]) = valuesOf name ms := by
        intro name hname
        exact valuesOf_snoc_of_not_isNamed (fun h => nodup.1 (hkey.eq h ▸ hname)) ms
      rw [valuesOf_snoc_of_isNamed hkey, takes_snoc_iff]
      constructor
      · rintro ⟨⟨vacant, b, hb, rfl⟩, filled⟩
        exact ⟨push none slots, .cons vacant (filled.congr elsewhere),
          enter_cons_self.mpr ⟨rfl, b, hb, rfl⟩⟩
      · rintro ⟨⟨before, slots'⟩, filled, entered⟩
        obtain ⟨rfl, b, hb, same⟩ := enter_cons_self.mp entered
        obtain ⟨rfl, rfl⟩ := Prod.mk.inj same
        obtain ⟨vacant, filled⟩ := filled_cons_iff.mp filled
        exact ⟨⟨vacant, b, hb, rfl⟩, filled.congr fun name h => (elsewhere name h).symm⟩
    · have other : ¬m.IsNamed name := fun h => hname (hkey.eq h)
      rw [valuesOf_snoc_of_not_isNamed other, ih nodup.2]
      constructor
      · rintro ⟨takes, before, filled, entered⟩
        refine ⟨push slot before, .cons takes filled, ?_⟩
        rw [enter_cons_of_ne d default rest slot before hname, entered]
        rfl
      · rintro ⟨⟨slot', before⟩, filled, entered⟩
        change enter _ (push slot' before) _ = _ at entered
        rw [enter_cons_of_ne d default rest slot' before hname] at entered
        obtain ⟨takes, filled⟩ := filled_cons_iff.mp filled
        cases hrest : rest.enter before (key, m.2) with
        | error r => rw [hrest] at entered; cases entered
        | ok slots' =>
          rw [hrest] at entered
          obtain ⟨rfl, rfl⟩ := Prod.mk.inj (Except.ok.inj entered)
          exact ⟨takes, before, filled, hrest⟩

theorem slots_complete_eq_ok_iff (nodup : fields.names.Nodup) (title : String)
    {slots : Slots βs} :
    (byName.slots fields title).complete (.object ms) = .ok slots ↔
      (∀ m ∈ ms, ∃ name, m.IsNamed name) ∧ Filled fields ms slots := by
  change ms.foldlM _ fields.vacant = _ ↔ _
  induction ms using List.reverseRecOn generalizing slots with
  | nil =>
    rw [filled_nil_iff, List.foldlM_nil]
    simp [pure, Except.pure, eq_comm]
  | append_singleton ms m ih =>
    rw [List.foldlM_append]
    change Except.bind _ _ = _ ↔ _
    rw [Except.bind_eq_ok_iff, List.forall_mem_append, List.forall_mem_singleton]
    simp only [ih]
    have step (before : Slots βs) : [m].foldlM
        (Decoder.members.step fun slots key => do fields.select slots (← key.read)) before =
          m.1.read.bind fun name => fields.enter before (name, m.2) := by
      rw [List.foldlM_cons]
      simp only [List.foldlM_nil, bind_pure]
      simp only [Decoder.members.step, enter]
      cases m.1.read <;> rfl
    simp only [step, Except.bind_eq_ok_iff, Text.read_eq_ok_iff]
    constructor
    · rintro ⟨before, ⟨readable, filled⟩, name, named, entered⟩
      exact ⟨⟨readable, name, named⟩, (filled_snoc_iff nodup named).mpr ⟨before, filled, entered⟩⟩
    · rintro ⟨⟨readable, name, named⟩, filled⟩
      obtain ⟨before, filled, entered⟩ := (filled_snoc_iff nodup named).mp filled
      exact ⟨before, ⟨readable, filled⟩, name, named, entered⟩

theorem collect_cons_eq_ok_iff {name : String} {d : Decoder β} {default slot : Option β}
    {slots : Slots βs} {b : β} {bs : Values βs} :
    (cons name d default fields).collect (push slot slots) = .ok (b, bs) ↔
      (slot <|> default) = some b ∧ fields.collect slots = .ok bs := by
  simp only [push, collect]
  cases slot <|> default with
  | none => simp
  | some a =>
    cases fields.collect slots with
    | error e => simp
    | ok as =>
      constructor
      · intro h
        obtain ⟨rfl, rfl⟩ := Prod.mk.inj (Except.ok.inj h)
        exact ⟨rfl, rfl⟩
      · rintro ⟨h, h'⟩
        obtain rfl := Option.some.inj h
        obtain rfl := Except.ok.inj h'
        rfl

theorem gathered_iff {bs : Values βs} :
    Gathered fields ms bs ↔ ∃ slots, Filled fields ms slots ∧ fields.collect slots = .ok bs := by
  induction fields with
  | nil => exact ⟨fun _ => ⟨(), .nil, rfl⟩, fun _ => .nil⟩
  | cons name d default rest ih =>
    obtain ⟨b, bs⟩ := bs
    constructor
    · intro h
      cases h with
      | cons h hrest =>
        obtain ⟨slot, takes, hb⟩ := h
        obtain ⟨slots, filled, collected⟩ := ih.mp hrest
        exact ⟨push slot slots, .cons takes filled, collect_cons_eq_ok_iff.mpr ⟨hb, collected⟩⟩
    · rintro ⟨⟨slot, slots⟩, filled, collected⟩
      obtain ⟨takes, filled⟩ := filled_cons_iff.mp filled
      obtain ⟨hb, collected⟩ := collect_cons_eq_ok_iff.mp collected
      exact .cons ⟨slot, takes, hb⟩ (ih.mpr ⟨slots, filled, collected⟩)

theorem Gathered.congr {ns : List Member} {bs : Values βs} (h : Gathered fields ms bs)
    (same : ∀ name ∈ fields.names, valuesOf name ms = valuesOf name ns) :
    Gathered fields ns bs := by
  obtain ⟨slots, filled, collected⟩ := gathered_iff.mp h
  exact gathered_iff.mpr ⟨slots, filled.congr same, collected⟩

/-- An object is read as a record exactly if all its keys can be read and each field has one value
that it reads, or none and a default. -/
theorem byName_complete_eq_ok_iff (nodup : fields.names.Nodup) (title : String)
    {bs : Values βs} :
    (fields.byName title).complete (.object ms) = .ok bs ↔
      (∀ m ∈ ms, ∃ name, m.IsNamed name) ∧ Gathered fields ms bs := by
  rw [gathered_iff]
  constructor
  · intro h
    obtain ⟨slots, hslots, collected⟩ := Except.bind_eq_ok_iff.mp h
    obtain ⟨readable, filled⟩ := (slots_complete_eq_ok_iff nodup title).mp hslots
    split at collected
    · rename_i bs' hbs
      cases collected
      exact ⟨readable, slots, filled, hbs⟩
    · cases collected
  · rintro ⟨readable, slots, filled, collected⟩
    have hslots := (slots_complete_eq_ok_iff nodup title).mpr ⟨readable, filled⟩
    exact Except.bind_eq_ok_iff.mpr ⟨slots, hslots, by simp only [collected]⟩

end Fields

namespace Choice

variable {α : Type} {c : Choice α} {name : String} {key : Text} (payload : Payload α)

theorem select_eq_ok (h : c.lookup name = some payload) (hkey : key.chars? = some name.toList) :
    c.select key = .ok payload := by
  simp only [select, Text.read_eq_ok_iff.mpr hkey, bind, Except.bind, h]

theorem complete_member (h : c.lookup name = some payload) (hkey : key.chars? = some name.toList)
    (v : Value) : c.decoder.complete (.object [(key, v)]) = payload.decoder.complete v := by
  change (do (← c.select key).decoder.complete v) = payload.decoder.complete v
  rw [select_eq_ok payload h hkey]
  rfl

end Choice
end TurtleArt.Json
