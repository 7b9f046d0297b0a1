import TurtleArt.Symbol.Set

/-! Finite maps from symbols, kept as association lists with strictly increasing keys: a map has
one representation, so equality of maps is equality of what they assign. -/

namespace TurtleArt

structure SymbolMap (α : Type) where
  toList : List (Char × α)
  increasing : (toList.map Prod.fst).Pairwise (· < ·) := by decide
  deriving DecidableEq

namespace SymbolMap

variable {α β : Type}

theorem increasing_nil : (([] : List (Char × α)).map Prod.fst).Pairwise (· < ·) :=
  .nil

instance : EmptyCollection (SymbolMap α) := ⟨⟨[], increasing_nil⟩⟩

def get? (m : SymbolMap α) (c : Char) : Option α :=
  m.toList.lookup c

/-- Puts an entry at its place in a list with increasing keys, in the stead of one with its
key. -/
def insertList (c : Char) (a : α) : List (Char × α) → List (Char × α)
  | [] => [(c, a)]
  | (d, b) :: rest =>
    if c < d then (c, a) :: (d, b) :: rest
    else if c = d then (c, a) :: rest
    else (d, b) :: insertList c a rest

theorem keys_insertList (c : Char) (a : α) (l : List (Char × α)) :
    (insertList c a l).map Prod.fst = SymbolSet.insertList c (l.map Prod.fst) := by
  induction l with
  | nil => rfl
  | cons entry rest ih =>
    obtain ⟨d, b⟩ := entry
    simp only [insertList, SymbolSet.insertList, List.map_cons]
    split
    · rfl
    · split
      · rename_i h; simp [h]
      · simp [ih]

def insert (m : SymbolMap α) (c : Char) (a : α) : SymbolMap α :=
  ⟨insertList c a m.toList,
    keys_insertList c a m.toList ▸ SymbolSet.insertList_increasing m.increasing⟩

/-- The map with the given entries; of two for one symbol the later counts. -/
def ofList (l : List (Char × α)) : SymbolMap α :=
  l.foldl (fun m (c, a) => m.insert c a) ∅

def keys (m : SymbolMap α) : SymbolSet :=
  ⟨m.toList.map Prod.fst, m.increasing⟩

def keysWhere (m : SymbolMap α) (p : α → Bool) : SymbolSet :=
  ⟨(m.toList.filter fun (_, a) => p a).map Prod.fst,
    m.increasing.sublist (List.filter_sublist.map Prod.fst)⟩

theorem lookup_insertList (c : Char) (a : α) {l : List (Char × α)}
    (h : (l.map Prod.fst).Pairwise (· < ·)) (d : Char) :
    (insertList c a l).lookup d = if d = c then some a else l.lookup d := by
  induction l with
  | nil =>
    by_cases hd : d = c
    · simp [insertList, hd]
    · simp [insertList, hd, List.lookup_cons, beq_false_of_ne hd]
  | cons entry rest ih =>
    obtain ⟨e, b⟩ := entry
    simp only [List.map_cons, List.pairwise_cons] at h
    unfold insertList
    by_cases hd : d = c
    · subst hd
      split
      · simp
      · split
        · simp
        · rename_i hne
          simp [List.lookup_cons, beq_false_of_ne hne, ih h.2]
    · split
      · simp [List.lookup_cons, beq_false_of_ne hd]
      · split
        · rename_i heq
          subst heq
          simp [List.lookup_cons, beq_false_of_ne hd]
        · simp [List.lookup_cons, ih h.2, hd]

@[simp] theorem get?_insert (m : SymbolMap α) (c : Char) (a : α) (d : Char) :
    (m.insert c a).get? d = if d = c then some a else m.get? d :=
  lookup_insertList c a m.increasing d

end SymbolMap
end TurtleArt
