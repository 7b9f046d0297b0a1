/-! Finite sets of symbols, kept as strictly increasing lists: a set has one representation, so
equality of sets is equality of their members. -/

namespace TurtleArt

structure SymbolSet where
  toList : List Char
  increasing : toList.Pairwise (· < ·) := by decide
  deriving DecidableEq

namespace SymbolSet

instance : EmptyCollection SymbolSet := ⟨⟨[], .nil⟩⟩

instance : Membership Char SymbolSet := ⟨fun s c => c ∈ s.toList⟩

instance (s : SymbolSet) (c : Char) : Decidable (c ∈ s) :=
  inferInstanceAs (Decidable (c ∈ s.toList))

def contains (s : SymbolSet) (c : Char) : Bool :=
  s.toList.contains c

def isEmpty (s : SymbolSet) : Bool :=
  s.toList.isEmpty

def insertList (c : Char) : List Char → List Char
  | [] => [c]
  | d :: rest =>
    if c < d then c :: d :: rest
    else if c = d then d :: rest
    else d :: insertList c rest

theorem mem_insertList {c d : Char} {l : List Char} :
    d ∈ insertList c l ↔ d = c ∨ d ∈ l := by
  induction l with
  | nil => simp [insertList]
  | cons e rest ih =>
    unfold insertList
    split
    · simp
    · split
      · rename_i h; subst h; simp
      · simp only [List.mem_cons, ih]
        exact or_left_comm

theorem insertList_increasing {c : Char} {l : List Char} (h : l.Pairwise (· < ·)) :
    (insertList c l).Pairwise (· < ·) := by
  induction l with
  | nil => simp [insertList]
  | cons e rest ih =>
    have hrest := List.pairwise_cons.mp h
    unfold insertList
    split
    · rename_i hce
      refine List.pairwise_cons.mpr ⟨fun d hd => ?_, h⟩
      cases List.mem_cons.mp hd with
      | inl hd => exact hd ▸ hce
      | inr hd => exact Char.lt_trans hce (hrest.1 d hd)
    · split
      · exact h
      · rename_i hce hne
        have hec : e < c :=
          Char.not_le.mp fun hle => hne (Char.le_antisymm hle (Char.not_lt.mp hce))
        refine List.pairwise_cons.mpr ⟨fun d hd => ?_, ih hrest.2⟩
        cases mem_insertList.mp hd with
        | inl hd => exact hd ▸ hec
        | inr hd => exact hrest.1 d hd

def insert (s : SymbolSet) (c : Char) : SymbolSet :=
  ⟨insertList c s.toList, insertList_increasing s.increasing⟩

def filter (s : SymbolSet) (p : Char → Bool) : SymbolSet :=
  ⟨s.toList.filter p, s.increasing.filter p⟩

def erase (s : SymbolSet) (c : Char) : SymbolSet :=
  s.filter (· ≠ c)

def ofList (l : List Char) : SymbolSet :=
  l.foldl insert ∅

@[simp] theorem mem_insert {s : SymbolSet} {c d : Char} : d ∈ s.insert c ↔ d = c ∨ d ∈ s :=
  mem_insertList

@[simp] theorem mem_filter {s : SymbolSet} {p : Char → Bool} {c : Char} :
    c ∈ s.filter p ↔ c ∈ s ∧ p c :=
  List.mem_filter

@[simp] theorem mem_erase {s : SymbolSet} {c d : Char} : d ∈ s.erase c ↔ d ∈ s ∧ d ≠ c := by
  simp [erase]

@[simp] theorem not_mem_empty {c : Char} : c ∉ (∅ : SymbolSet) :=
  List.not_mem_nil

@[simp] theorem contains_iff {s : SymbolSet} {c : Char} : s.contains c ↔ c ∈ s :=
  List.contains_iff_mem

end SymbolSet
end TurtleArt
