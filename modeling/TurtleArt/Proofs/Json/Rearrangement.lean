import Mathlib.Data.List.Nodup
import Mathlib.Logic.Relation
import TurtleArt.Proofs.Json.Members

/-! Changes to a JSON value that a decoder does not notice: records with their members in another
order, with members that no field reads, and without members that say no more than a default. -/

namespace TurtleArt.Json

def Decoder.Tolerates {α : Type} (d : Decoder α) (edit : Value → Value → Prop) : Prop :=
  ∀ v v' a, edit v v' → d.complete v = .ok a → d.complete v' = .ok a

theorem Decoder.Tolerates.map {α β : Type} {d : Decoder α} {edit : Value → Value → Prop}
    (h : d.Tolerates edit) (f : α → β) : (d.map f).Tolerates edit := by
  intro v v' b hedit hv
  obtain ⟨a, ha, hb⟩ := Except.map_eq_ok_iff.mp hv
  exact Except.map_eq_ok_iff.mpr ⟨a, h v v' a hedit ha, hb⟩

theorem Decoder.Tolerates.reflTransGen {α : Type} {d : Decoder α} {edit : Value → Value → Prop}
    (h : d.Tolerates edit) : d.Tolerates (Relation.ReflTransGen edit) := by
  intro v v' a hedits hv
  induction hedits with
  | refl => exact hv
  | tail _ hedit ih => exact h _ _ _ hedit ih

/-- A field as far as changes to a record go: the changes to its value, and the value that says no
more than that there is none. -/
structure Part where
  name : String
  edit : Value → Value → Prop
  empty : Option Value

namespace Part

def plain (name : String) : Part :=
  ⟨name, fun _ _ => False, none⟩

def optional (name : String) (empty : Value) : Part :=
  ⟨name, fun _ _ => False, some empty⟩

def within (name : String) (edit : Value → Value → Prop) : Part :=
  ⟨name, edit, none⟩

end Part

/-- One change to the members of a record. A member put in has a name that is a string, so that the
surrogates in it pair up; its value can be any. -/
inductive MembersEdit (parts : List Part) : List Member → List Member → Prop
  | reorder {ms ns : List Member} (h : ms.Perm ns) : MembersEdit parts ms ns
  | insert {front back : List Member} {m : Member} (hname : ∃ name, m.IsNamed name)
      (h : ∀ p ∈ parts, ¬m.IsNamed p.name) :
      MembersEdit parts (front ++ back) (front ++ m :: back)
  | drop {front back : List Member} {m : Member} {p : Part} (hp : p ∈ parts)
      (hname : m.IsNamed p.name) (h : p.empty = some m.2) :
      MembersEdit parts (front ++ m :: back) (front ++ back)
  | add {front back : List Member} {m : Member} {p : Part} (hp : p ∈ parts)
      (hname : m.IsNamed p.name) (h : p.empty = some m.2)
      (absent : ∀ n ∈ front ++ back, ¬n.IsNamed p.name) :
      MembersEdit parts (front ++ back) (front ++ m :: back)
  | change {front back : List Member} {key : Text} {v v' : Value} {p : Part} (hp : p ∈ parts)
      (hname : Member.IsNamed p.name (key, v)) (h : p.edit v v') :
      MembersEdit parts (front ++ (key, v) :: back) (front ++ (key, v') :: back)

/-- One change to a record. In an array the place of an item tells its field. -/
inductive RecordEdit (parts : List Part) : Value → Value → Prop
  | members {ms ns : List Member} (h : MembersEdit parts ms ns) :
      RecordEdit parts (.object ms) (.object ns)
  | item {before behind : List Part} {front back : List Value} {v v' : Value} {p : Part}
      (hparts : parts = before ++ p :: behind) (hplace : front.length = before.length)
      (h : p.edit v v') :
      RecordEdit parts (.array (front ++ v :: back)) (.array (front ++ v' :: back))

inductive VariantEdit (name : String) (edit : Value → Value → Prop) : Value → Value → Prop
  | body {key : Text} {v v' : Value} (hname : Member.IsNamed name (key, v)) (h : edit v v') :
      VariantEdit name edit (.object [(key, v)]) (.object [(key, v')])

/-! ### The values under one name -/

namespace Part

open Fields Member

variable {β : Type} {p q : Part} {d : Decoder β} {default : Option β} {b : β}
  {vs ws front back : List Value} {v : Value} {parts : List Part} {ms ns : List Member}

/-- What a change to a record may do to the values of a field. -/
inductive Changes (p : Part) : List Value → List Value → Prop
  | reorder {vs ws : List Value} (h : vs.Perm ws) : Changes p vs ws
  | drop {front back : List Value} {v : Value} (h : p.empty = some v) :
      Changes p (front ++ v :: back) (front ++ back)
  | add {v : Value} (h : p.empty = some v) : Changes p [] [v]
  | change {front back : List Value} {v v' : Value} (h : p.edit v v') :
      Changes p (front ++ v :: back) (front ++ v' :: back)

theorem Changes.refl (p : Part) (vs : List Value) : p.Changes vs vs :=
  .reorder (.refl vs)

theorem changes_valuesOf (h : MembersEdit parts ms ns) (nodup : (parts.map name).Nodup)
    (hp : p ∈ parts) : p.Changes (valuesOf p.name ms) (valuesOf p.name ns) := by
  -- The member that a change is about belongs to `p` only if the change says so.
  have same {q : Part} {m : Member} (hq : q ∈ parts) (hm : m.IsNamed q.name)
      (hname : m.IsNamed p.name) : q = p :=
    List.inj_on_of_nodup_map nodup hq hp (hm.eq hname)
  cases h with
  | reorder h => exact .reorder ((h.filter _).map _)
  | @insert front back m _ h =>
    rw [valuesOf_append, valuesOf_append, valuesOf_cons_of_not_isNamed (h p hp)]
    exact .refl p _
  | @drop front back m q hq hm h =>
    rw [valuesOf_append, valuesOf_append]
    by_cases hname : m.IsNamed p.name
    · obtain rfl := same hq hm hname
      rw [valuesOf_cons_of_isNamed hname]
      exact .drop h
    · rw [valuesOf_cons_of_not_isNamed hname]
      exact .refl p _
  | @add front back m q hq hm h absent =>
    by_cases hname : m.IsNamed p.name
    · obtain rfl := same hq hm hname
      have none := valuesOf_eq_nil absent
      rw [valuesOf_append] at none
      rw [valuesOf_append, valuesOf_append, valuesOf_cons_of_isNamed hname,
        (List.append_eq_nil_iff.mp none).1, (List.append_eq_nil_iff.mp none).2]
      exact .add h
    · rw [valuesOf_append, valuesOf_append, valuesOf_cons_of_not_isNamed hname]
      exact .refl p _
  | @change front back key v v' q hq hm h =>
    rw [valuesOf_append, valuesOf_append]
    by_cases hname : Member.IsNamed p.name (key, v)
    · obtain rfl := same hq hm hname
      have hname' : Member.IsNamed q.name (key, v') := hname
      rw [valuesOf_cons_of_isNamed hname, valuesOf_cons_of_isNamed hname']
      exact .change h
    · have hname' : ¬Member.IsNamed p.name (key, v') := hname
      rw [valuesOf_cons_of_not_isNamed hname, valuesOf_cons_of_not_isNamed hname']
      exact .refl p _

structure Suits (p : Part) (d : Decoder β) (default : Option β) : Prop where
  edit : d.Tolerates p.edit
  empty : ∀ v, p.empty = some v → ∃ b, default = some b ∧ d.complete v = .ok b

theorem Suits.plain {name : String} : (plain name).Suits d default where
  edit _ _ _ h := h.elim
  empty _ h := nomatch h

theorem Suits.optional {name : String} (h : d.complete v = .ok b) :
    (optional name v).Suits d (some b) where
  edit _ _ _ h := h.elim
  empty _ hv := ⟨b, rfl, Option.some.inj hv ▸ h⟩

theorem Suits.within {name : String} {edit : Value → Value → Prop} (h : d.Tolerates edit) :
    (within name edit).Suits d default where
  edit := h
  empty _ h := nomatch h

theorem yields_nil_iff : Yields d default [] b ↔ default = some b := by
  constructor
  · rintro ⟨slot, takes, hb⟩
    cases takes
    exact hb
  · exact fun hb => ⟨none, .nothing, hb⟩

theorem yields_middle_iff :
    Yields d default (front ++ v :: back) b ↔ front = [] ∧ back = [] ∧ d.complete v = .ok b := by
  constructor
  · rintro ⟨slot, takes, hb⟩
    generalize hvs : front ++ v :: back = vs at takes
    cases takes with
    | nothing => simp at hvs
    | @value w a h =>
      obtain ⟨rfl, rfl, rfl⟩ : front = [] ∧ v = w ∧ back = [] := by
        cases front <;> simp_all
      exact ⟨rfl, rfl, Option.some.inj hb ▸ h⟩
  · rintro ⟨rfl, rfl, h⟩
    exact ⟨some b, .value h, rfl⟩

theorem Changes.yields (h : p.Changes vs ws) (suits : p.Suits d default)
    (hvs : Yields d default vs b) : Yields d default ws b := by
  cases h with
  | reorder h =>
    obtain ⟨slot, takes, hb⟩ := hvs
    cases takes with
    | nothing => exact h.nil_eq ▸ ⟨none, .nothing, hb⟩
    | value hv => exact h.singleton_eq ▸ ⟨_, .value hv, hb⟩
  | drop h =>
    obtain ⟨rfl, rfl, hv⟩ := yields_middle_iff.mp hvs
    obtain ⟨a, ha, hv'⟩ := suits.empty _ h
    obtain rfl := Except.ok.inj (hv.symm.trans hv')
    exact yields_nil_iff.mpr ha
  | add h =>
    obtain ⟨a, ha, hv⟩ := suits.empty _ h
    obtain rfl := Option.some.inj (ha.symm.trans (yields_nil_iff.mp hvs))
    exact ⟨_, .value hv, rfl⟩
  | change h =>
    obtain ⟨rfl, rfl, hv⟩ := yields_middle_iff.mp hvs
    exact yields_middle_iff.mpr ⟨rfl, rfl, suits.edit _ _ _ h hv⟩

end Part

theorem MembersEdit.exists_name {parts : List Part} {ms ns : List Member}
    (h : MembersEdit parts ms ns) (hms : ∀ m ∈ ms, ∃ name, m.IsNamed name) :
    ∀ n ∈ ns, ∃ name, n.IsNamed name := by
  cases h with
  | reorder h => exact fun n hn => hms n (h.mem_iff.mpr hn)
  | insert hname =>
    simp only [List.forall_mem_append, List.forall_mem_cons] at hms ⊢
    exact ⟨hms.1, hname, hms.2⟩
  | add _ hname =>
    simp only [List.forall_mem_append, List.forall_mem_cons] at hms ⊢
    exact ⟨hms.1, ⟨_, hname⟩, hms.2⟩
  | drop =>
    simp only [List.forall_mem_append, List.forall_mem_cons] at hms ⊢
    exact ⟨hms.1, hms.2.2⟩
  | change =>
    simp only [List.forall_mem_append, List.forall_mem_cons] at hms ⊢
    exact hms

namespace Fields

variable {α : Type} {βs : List Type} {fields : Fields βs} {parts : List Part}

inductive Suited : {βs : List Type} → Fields βs → List Part → Prop
  | nil : Suited .nil []
  | cons {β : Type} {βs : List Type} {p : Part} {d : Decoder β} {default : Option β}
      {rest : Fields βs} {parts : List Part} (h : p.Suits d default) (hrest : Suited rest parts) :
      Suited (.cons p.name d default rest) (p :: parts)

theorem Suited.names_eq (h : Suited fields parts) : fields.names = parts.map Part.name := by
  induction h with
  | nil => rfl
  | cons _ _ ih => rw [names, ih, List.map_cons]

theorem Suited.gathered {ms ns : List Member} {bs : Values βs} (h : Suited fields parts)
    (changes : ∀ p ∈ parts, p.Changes (Member.valuesOf p.name ms) (Member.valuesOf p.name ns))
    (hms : Gathered fields ms bs) : Gathered fields ns bs := by
  induction h with
  | nil => exact .nil
  | cons h _ ih =>
    rw [List.forall_mem_cons] at changes
    cases hms with
    | cons hb hrest => exact .cons (changes.1.yields h hb) (ih changes.2 hrest)

theorem fill_cons_eq_ok_iff {β : Type} {name : String} {d : Decoder β} {default slot : Option β}
    {slots : Slots βs} {v : Value} {items : List Value} :
    (cons name d default fields).fill (v :: items) = .ok (push slot slots) ↔
      ∃ b, d.complete v = .ok b ∧ fields.fill items = .ok slots ∧ slot = some b := by
  change (d.complete v).bind (fun b => (fields.fill items).bind fun later =>
    .ok (push (some b) later)) = _ ↔ _
  simp only [Except.bind_eq_ok_iff]
  constructor
  · rintro ⟨b, hb, later, hlater, same⟩
    obtain ⟨rfl, rfl⟩ := Prod.mk.inj (Except.ok.inj same)
    exact ⟨b, hb, hlater, rfl⟩
  · rintro ⟨b, hb, hlater, rfl⟩
    exact ⟨b, hb, slots, hlater, rfl⟩

theorem Suited.fill {before behind : List Part} {front back : List Value} {v v' : Value}
    {p : Part} (h : Suited fields (before ++ p :: behind))
    (hplace : front.length = before.length) (hedit : p.edit v v') {slots : Slots βs} (hfill : fields.fill (front ++ v :: back) = .ok slots) :
    fields.fill (front ++ v' :: back) = .ok slots := by
  induction before generalizing βs front with
  | nil =>
    obtain rfl := List.length_eq_zero_iff.mp hplace
    cases h with
    | cons suits =>
      obtain ⟨slot, slots⟩ := slots
      obtain ⟨b, hb, later, hslot⟩ := fill_cons_eq_ok_iff.mp hfill
      exact fill_cons_eq_ok_iff.mpr ⟨b, suits.edit _ _ _ hedit hb, later, hslot⟩
  | cons q before ih =>
    obtain ⟨u, front, rfl⟩ := List.exists_cons_of_length_eq_add_one hplace
    cases h with
    | cons _ hrest =>
      obtain ⟨slot, slots⟩ := slots
      obtain ⟨b, hb, later, hslot⟩ := fill_cons_eq_ok_iff.mp hfill
      exact fill_cons_eq_ok_iff.mpr ⟨b, hb, ih hrest (Nat.succ.inj hplace) later, hslot⟩

theorem Suited.record_tolerates (h : Suited fields parts) (nodup : fields.names.Nodup)
    (title : String) (build : Values βs → α) :
    (fields.record title build).Tolerates (RecordEdit parts) := by
  apply Decoder.Tolerates.map
  intro v v' bs hedit hv
  cases hedit with
  | members hedit =>
    obtain ⟨readable, gathered⟩ := (byName_complete_eq_ok_iff nodup title).mp hv
    refine (byName_complete_eq_ok_iff nodup title).mpr ⟨hedit.exists_name readable, ?_⟩
    exact h.gathered (fun p hp => Part.changes_valuesOf hedit (h.names_eq ▸ nodup) hp) gathered
  | item hparts hplace hedit =>
    subst hparts
    obtain ⟨slots, hslots, collected⟩ := Except.bind_eq_ok_iff.mp hv
    exact Except.bind_eq_ok_iff.mpr ⟨slots, h.fill hplace hedit hslots, collected⟩

end Fields

theorem Choice.tolerates_variantEdit {α : Type} {c : Choice α} {name : String} {d : Decoder α}
    {edit : Value → Value → Prop} (hname : c.lookup name = some (.body d))
    (h : d.Tolerates edit) : c.decoder.Tolerates (VariantEdit name edit) := by
  intro v v' a hedit hv
  cases hedit with
  | @body key v v' hkey hedit =>
    have read := Choice.complete_member (.body d) hname hkey
    rw [read] at hv ⊢
    exact h _ _ _ hedit hv

end TurtleArt.Json
