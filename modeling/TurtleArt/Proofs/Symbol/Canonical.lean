import TurtleArt.Symbol.Map

/-! Maps and sets of symbols have one form each: their entries, inserted again one by one, make
up the same map or set. -/

namespace TurtleArt

namespace SymbolSet

theorem eq_of_toList_eq {s t : SymbolSet} (h : s.toList = t.toList) : s = t := by
  cases s
  cases t
  subst h
  rfl

theorem insertList_of_forall_lt {c : Char} {l : List Char} (h : ∀ d ∈ l, d < c) :
    insertList c l = l ++ [c] := by
  induction l with
  | nil => rfl
  | cons d l ih =>
    have hd : d < c := h d (by simp)
    have hne : c ≠ d := fun heq => Char.lt_irrefl d (heq ▸ hd)
    rw [insertList, if_neg (Char.lt_asymm hd), if_neg hne, ih fun e he => h e (by simp [he])]
    rfl

theorem toList_foldl_insert {l : List Char} {s : SymbolSet}
    (h : (s.toList ++ l).Pairwise (· < ·)) : (l.foldl insert s).toList = s.toList ++ l := by
  induction l generalizing s with
  | nil => simp
  | cons c l ih =>
    have last : (s.insert c).toList = s.toList ++ [c] := by
      apply insertList_of_forall_lt
      intro d hd
      exact (List.pairwise_append.mp h).2.2 d hd c (by simp)
    rw [List.foldl_cons, ih (by simpa [last] using h), last, List.append_assoc]
    rfl

theorem ofList_toList (s : SymbolSet) : ofList s.toList = s :=
  eq_of_toList_eq (toList_foldl_insert (s := ∅) s.increasing)

theorem isEmpty_iff {s : SymbolSet} : s.isEmpty = true ↔ s = ∅ := by
  constructor
  · intro h
    exact eq_of_toList_eq (List.isEmpty_iff.mp h)
  · rintro rfl
    rfl

theorem eq_empty_iff {s : SymbolSet} : s = ∅ ↔ ∀ c, c ∉ s := by
  constructor
  · rintro rfl c
    exact not_mem_empty
  · intro h
    exact eq_of_toList_eq (List.eq_nil_iff_forall_not_mem.mpr h)

end SymbolSet

namespace SymbolMap

variable {α : Type} {m : SymbolMap α} {c : Char} {a : α}

theorem eq_of_toList_eq {n : SymbolMap α} (h : m.toList = n.toList) : m = n := by
  cases m
  cases n
  subst h
  rfl

theorem insertList_of_forall_lt {l : List (Char × α)} (h : ∀ d ∈ l.map Prod.fst, d < c) :
    insertList c a l = l ++ [(c, a)] := by
  induction l with
  | nil => rfl
  | cons entry l ih =>
    obtain ⟨d, b⟩ := entry
    have hd : d < c := h d (by simp)
    have hne : c ≠ d := fun heq => Char.lt_irrefl d (heq ▸ hd)
    rw [insertList, if_neg (Char.lt_asymm hd), if_neg hne,
      ih fun e he => h e (List.mem_cons_of_mem _ he)]
    rfl

theorem toList_foldl_insert {l : List (Char × α)}
    (h : ((m.toList ++ l).map Prod.fst).Pairwise (· < ·)) :
    (l.foldl (fun m entry => m.insert entry.1 entry.2) m).toList = m.toList ++ l := by
  induction l generalizing m with
  | nil => simp
  | cons entry l ih =>
    have last : (m.insert entry.1 entry.2).toList = m.toList ++ [entry] := by
      apply insertList_of_forall_lt
      intro d hd
      rw [List.map_append] at h
      exact (List.pairwise_append.mp h).2.2 d hd entry.1 (by simp)
    rw [List.foldl_cons, ih (by simpa [last] using h), last, List.append_assoc]
    rfl

theorem ofList_toList (m : SymbolMap α) : ofList m.toList = m :=
  eq_of_toList_eq (toList_foldl_insert m.increasing)

theorem mem_toList_iff : (c, a) ∈ m.toList ↔ m.get? c = some a := by
  obtain ⟨l, increasing⟩ := m
  simp only [get?]
  induction l with
  | nil => simp
  | cons entry l ih =>
    obtain ⟨d, b⟩ := entry
    rw [List.map_cons, List.pairwise_cons] at increasing
    by_cases hcd : c = d
    · subst hcd
      -- The keys behind this one are greater.
      have absent : (c, a) ∉ l := fun hmem =>
        Char.lt_irrefl c (increasing.1 c (List.mem_map_of_mem hmem))
      simp [absent, eq_comm]
    · rw [List.lookup_cons, beq_false_of_ne hcd]
      simpa [hcd] using ih increasing.2

theorem mem_keysWhere {p : α → Bool} : c ∈ m.keysWhere p ↔ ∃ a, m.get? c = some a ∧ p a := by
  have mem : c ∈ m.keysWhere p ↔ ∃ a, (c, a) ∈ m.toList ∧ p a := by
    change c ∈ (m.toList.filter fun entry => p entry.2).map Prod.fst ↔ _
    simp only [List.mem_map, List.mem_filter, Prod.exists]
    constructor
    · rintro ⟨d, a, h, rfl⟩
      exact ⟨a, h⟩
    · rintro ⟨a, h⟩
      exact ⟨c, a, h, rfl⟩
  simp only [mem, mem_toList_iff]

end SymbolMap
end TurtleArt
