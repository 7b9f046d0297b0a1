import TurtleArt.Proofs.Json.Recognition

/-! Texts that end too early. A place from which a text goes on to spell a value holds a part of that
value, so the value tells what a cut can leave of the text: what stands before the cut is complete,
and one value after the other around the cut is broken off. Only a number may be complete although
digits of it are missing. -/

namespace TurtleArt.Json

/-! ### What a cut leaves of a value -/

structure Numeral.Begins (n m : Numeral) : Prop where
  negative : n.negative = m.negative
  whole : n.whole <+: m.whole
  fraction : n.fraction <+: m.fraction
  exponent : m.exponent = none → n.exponent = none

namespace Value

def isNumber : Value → Bool
  | number _ => true
  | _ => false

inductive Stub : Value → Value → Prop
  | whole {v : Value} : Stub v v
  | number {n m : Numeral} (h : m.Begins n) (nonempty : m.whole ≠ []) :
      Stub (.number n) (.number m)

/-- The fragments of a value whose text is cut. -/
inductive Cut : Value → Fragment → Prop
  | missing {v : Value} : Cut v (.missing .truncated)
  | null : Cut .null (.literal .truncated)
  | bool {b : Bool} : Cut (.bool b) (.literal .truncated)
  | number {n : Numeral} : Cut (.number n) (.numeral .truncated)
  | string {t text : Text} (h : t <+: text) : Cut (.string text) (.string t .truncated)
  | emptyArray : Cut (.array []) (.item [] (.missing .truncated))
  | item {front back : List Value} {v : Value} {f : Fragment} (h : Cut v f) :
      Cut (.array (front ++ v :: back)) (.item front f)
  | array {front back : List Value} {v u : Value} (h : v.Stub u) :
      Cut (.array (front ++ v :: back)) (.array (front ++ [u]) .truncated)
  | keyless {front back : List Member} (h : front = [] ∨ back ≠ []) :
      Cut (.object (front ++ back)) (.keyless front .truncated)
  | key {front back : List Member} {t key : Text} {v : Value} (h : t <+: key) :
      Cut (.object (front ++ (key, v) :: back)) (.key front t .truncated)
  | value {front back : List Member} {key : Text} {v : Value} {f : Fragment} (h : Cut v f) :
      Cut (.object (front ++ (key, v) :: back)) (.value front key f)
  | object {front back : List Member} {key : Text} {v u : Value} (h : v.Stub u) :
      Cut (.object (front ++ (key, v) :: back)) (.object (front ++ [(key, u)]) .truncated)

/-- `u` stands in `v` at the place that the open arrays and objects lead to. -/
inductive Within (v : Value) : Value → List Frame → Prop
  | top : Within v v []
  | item {before after : List Value} {u : Value} {frames : List Frame}
      (h : Within v (.array (before.reverse ++ u :: after)) frames) :
      Within v u (.item before :: frames)
  | value {before after : List Member} {key : Text} {u : Value} {frames : List Frame}
      (h : Within v (.object (before.reverse ++ (key, u) :: after)) frames) :
      Within v u (.value before key :: frames)

variable {v u : Value} {f : Fragment} {frames : List Frame}

theorem Within.cut (h : v.Within u frames) (hf : u.Cut f) :
    v.Cut (frames.foldl State.enclose f) := by
  induction h generalizing f with
  | top => exact hf
  | item _ ih => exact ih (.item hf)
  | value _ ih => exact ih (.value hf)

end Value

/-! ### Literals go on -/

namespace OpenText

variable {t u : OpenText} {p : Piece} {c : Char}

theorem prefix_of_add (h : t.add p = .more u) : t.text <+: u.text := by
  cases h
  simp [text]

theorem prefix_of_next (h : t.next c = .more u) : t.text <+: u.text := by
  unfold next at h
  split at h
  · split at h
    · cases h
    · split at h
      · cases h
        exact List.prefix_rfl
      · split at h
        · cases h
        · exact prefix_of_add h
  · split at h
    · cases h
      exact List.prefix_rfl
    · split at h
      · exact prefix_of_add h
      · cases h
  · simp only at h
    split at h
    · cases h
      exact List.prefix_rfl
    · split at h
      · exact prefix_of_add h
      · cases h

end OpenText

namespace Numeral.Begins

variable {n m k : Numeral}

theorem refl (n : Numeral) : n.Begins n :=
  ⟨rfl, List.prefix_rfl, List.prefix_rfl, id⟩

theorem trans (h : n.Begins m) (h' : m.Begins k) : n.Begins k where
  negative := h.negative.trans h'.negative
  whole := h.whole.trans h'.whole
  fraction := h.fraction.trans h'.fraction
  exponent hk := h.exponent (h'.exponent hk)

end Numeral.Begins

namespace OpenNumeral

variable {n m : OpenNumeral} {c : Char} {d : Nat} {w : List Char}

theorem begins_of_leaveFraction (h : n.leaveFraction c = .more m) :
    n.numeral.Begins m.numeral := by
  unfold leaveFraction at h
  split at h <;> cases h
  exact ⟨rfl, List.prefix_rfl, List.prefix_rfl, by rintro ⟨⟩⟩

theorem begins_of_leaveWhole (h : n.leaveWhole c = .more m) : n.numeral.Begins m.numeral := by
  unfold leaveWhole at h
  split at h
  · cases h
    exact .refl _
  · exact begins_of_leaveFraction h

theorem begins_addFraction (n : OpenNumeral) (d : Nat) :
    n.numeral.Begins (n.addFraction d).numeral where
  negative := rfl
  whole := List.prefix_rfl
  fraction := by simp [numeral, addFraction]
  exponent := id

theorem begins_addExponent (n : OpenNumeral) (d : Nat) :
    n.numeral.Begins (n.addExponent d).numeral where
  negative := rfl
  whole := List.prefix_rfl
  fraction := List.prefix_rfl
  exponent h := by simpa [numeral, addExponent] using h

/-- A literal only grows. The first digit takes the place of none, which is why the place has to be
one that a text reaches. -/
theorem Reads.begins (h : n.Reads w) (hnext : n.next c = .more m) :
    n.numeral.Begins m.numeral := by
  unfold OpenNumeral.next at hnext
  cases h with
  | sign =>
    cases hc : digit? c <;> rw [hc] at hnext <;> cases hnext
    exact ⟨rfl, List.nil_prefix, List.prefix_rfl, id⟩
  | zero =>
    cases hc : digit? c <;> rw [hc] at hnext
    · exact begins_of_leaveWhole hnext
    · cases hnext
  | whole =>
    cases hc : digit? c <;> rw [hc] at hnext
    · exact begins_of_leaveWhole hnext
    · cases hnext
      exact ⟨rfl, by simp [numeral], List.prefix_rfl, id⟩
  | point =>
    cases hc : digit? c <;> rw [hc] at hnext <;> cases hnext
    exact begins_addFraction ..
  | fraction =>
    cases hc : digit? c <;> rw [hc] at hnext
    · exact begins_of_leaveFraction hnext
    · cases hnext
      exact begins_addFraction ..
  | mark =>
    cases hc : digit? c <;> rw [hc] at hnext
    · simp only at hnext
      split at hnext
      · cases hnext
        exact .refl _
      · split at hnext <;> cases hnext
        exact ⟨rfl, List.prefix_rfl, List.prefix_rfl, by rintro ⟨⟩⟩
    · cases hnext
      exact begins_addExponent ..
  | exponentSign | exponent =>
    cases hc : digit? c <;> rw [hc] at hnext <;> cases hnext
    exact begins_addExponent ..

theorem Reads.whole_ne_nil (h : n.Reads w) (canEnd : n.canEnd = true) : n.numeral.whole ≠ [] := by
  cases h.spelled canEnd with
  | mk _ hwhole => exact hwhole.nonempty

end OpenNumeral

/-! ### Places from which a text goes on -/

namespace State

def LeadsTo (v : Value) : State → Prop
  | due frames =>
    (∃ u, v.Within u frames) ∨ ∃ outer, frames = .item [] :: outer ∧ v.Within (.array []) outer
  | keyDue before frames =>
    ∃ after, (before = [] ∨ after ≠ []) ∧ v.Within (.object (before.reverse ++ after)) frames
  | literal _ _ u frames => v.Within u frames
  | numeral n frames => ∃ m, n.numeral.Begins m ∧ v.Within (.number m) frames
  | string t frames => ∃ text, t.text <+: text ∧ v.Within (.string text) frames
  | keyText t before frames => ∃ key u after, t.text <+: key ∧
      v.Within (.object (before.reverse ++ (key, u) :: after)) frames
  | itemRead items frames => ∃ after, v.Within (.array (items.reverse ++ after)) frames
  | keyRead before key frames => ∃ u after,
      v.Within (.object (before.reverse ++ (key, u) :: after)) frames
  | memberRead members frames => ∃ after, v.Within (.object (members.reverse ++ after)) frames
  | closed u => v = u
  | trailing _ | broken _ => False

variable {v u : Value} {s : State} {frames : List Frame} {before : List Member} {c : Char}
  {w rest : List Char}

theorem leadsTo_complete_iff : (complete u frames).LeadsTo v ↔ v.Within u frames := by
  match frames with
  | [] =>
    constructor
    · rintro rfl
      exact .top
    · intro h
      cases h
      rfl
  | .item before :: frames =>
    constructor
    · rintro ⟨after, h⟩
      exact .item (by simpa using h)
    · intro h
      cases h with
      | item h => exact ⟨_, by simpa using h⟩
  | .value before key :: frames =>
    constructor
    · rintro ⟨after, h⟩
      exact .value (by simpa using h)
    · intro h
      cases h with
      | value h => exact ⟨_, by simpa using h⟩

theorem LeadsTo.of_separate (h : (s.separate c).LeadsTo v) : s.LeadsTo v := by
  cases s with
  | itemRead items frames =>
    simp only [separate] at h
    split at h
    · exact h
    · split at h
      · rcases h with ⟨u, h⟩ | ⟨outer, houter, h⟩
        · cases h with
          | item h => exact ⟨_, h⟩
        · obtain ⟨rfl, rfl⟩ : items = [] ∧ frames = outer := by simpa using houter
          exact ⟨[], h⟩
      · split at h
        · exact ⟨[], by simpa using leadsTo_complete_iff.mp h⟩
        · exact h.elim
  | keyRead before key frames =>
    simp only [separate] at h
    split at h
    · exact h
    · split at h
      · rcases h with ⟨u, h⟩ | ⟨outer, houter, h⟩
        · cases h with
          | value h => exact ⟨_, _, h⟩
        · simp at houter
      · exact h.elim
  | memberRead members frames =>
    simp only [separate] at h
    split at h
    · exact h
    · split at h
      · obtain ⟨after, -, h⟩ := h
        exact ⟨after, h⟩
      · split at h
        · exact ⟨[], by simpa using leadsTo_complete_iff.mp h⟩
        · exact h.elim
  | closed u =>
    simp only [separate] at h
    split at h
    · exact h
    · exact h.elim
  | _ => exact h

theorem LeadsTo.of_enter (h : (enter frames c).LeadsTo v) : (due frames).LeadsTo v := by
  unfold enter at h
  split at h
  · obtain ⟨text, -, h⟩ := h
    exact .inl ⟨_, h⟩
  · rcases h with ⟨u, h⟩ | ⟨outer, houter, h⟩
    · cases h with
      | item h => exact .inl ⟨_, h⟩
    · obtain rfl : frames = outer := by simpa using houter
      exact .inl ⟨_, h⟩
  · obtain ⟨after, -, h⟩ := h
    exact .inl ⟨_, h⟩
  · exact .inl ⟨_, h⟩
  · exact .inl ⟨_, h⟩
  · exact .inl ⟨_, h⟩
  · obtain ⟨m, -, h⟩ := h
    exact .inl ⟨_, h⟩
  · split at h
    · obtain ⟨m, -, h⟩ := h
      exact .inl ⟨_, h⟩
    · exact .inr ⟨_, rfl, leadsTo_complete_iff.mp h⟩
    · exact h.elim

theorem LeadsTo.of_enterKey (h : (enterKey before frames c).LeadsTo v) :
    (keyDue before frames).LeadsTo v := by
  unfold enterKey at h
  split at h
  · obtain ⟨key, u, after, -, h⟩ := h
    exact ⟨_, .inr (by simp), h⟩
  · exact ⟨[], .inl rfl, leadsTo_complete_iff.mp h⟩
  · exact h.elim

theorem LeadsTo.of_step (reached : Reached s w) (h : (s.step c).LeadsTo v) : s.LeadsTo v := by
  cases s with
  | due frames =>
    simp only [step] at h
    split at h
    · exact h
    · exact h.of_enter
  | keyDue before frames =>
    simp only [step] at h
    split at h
    · exact h
    · exact h.of_enterKey
  | literal letter letters u frames =>
    simp only [step] at h
    split at h
    · split at h
      · exact leadsTo_complete_iff.mp h
      · exact h
    · exact h.elim
  | numeral n frames =>
    simp only [step] at h
    split at h
    · rename_i hnext
      obtain ⟨m, begins, h⟩ := h
      cases reached with
      -- Only a literal that was reached in a text has digits that the next one adds to.
      | numeral _ reads => exact ⟨m, (reads.begins hnext).trans begins, h⟩
    · exact ⟨_, .refl _, leadsTo_complete_iff.mp h.of_separate⟩
    · exact h.elim
    · exact h.elim
  | string t frames =>
    simp only [step] at h
    split at h
    · rename_i hnext
      obtain ⟨text, begins, h⟩ := h
      exact ⟨text, (OpenText.prefix_of_next hnext).trans begins, h⟩
    · exact ⟨_, List.prefix_rfl, leadsTo_complete_iff.mp h⟩
    · exact h.elim
    · exact h.elim
  | keyText t before frames =>
    simp only [step] at h
    split at h
    · rename_i hnext
      obtain ⟨key, u, after, begins, h⟩ := h
      exact ⟨key, u, after, (OpenText.prefix_of_next hnext).trans begins, h⟩
    · obtain ⟨u, after, h⟩ := h
      exact ⟨_, u, after, List.prefix_rfl, h⟩
    · exact h.elim
    · exact h.elim
  | _ => exact LeadsTo.of_separate (c := c) h

theorem LeadsTo.of_run (reached : Reached s w) {text : List Char} (h : (s.run text).LeadsTo v) :
    s.LeadsTo v := by
  induction text generalizing s w with
  | nil => exact h
  | cons c text ih => exact .of_step reached (ih (reached.step c) h)

theorem Holds.leadsTo (h : Holds v [] s) : s.LeadsTo v := by
  cases h with
  | complete => exact leadsTo_complete_iff.mpr .top
  | numeral canEnd value => exact ⟨_, .refl _, value ▸ .top⟩

theorem reached_run (w : List Char) : Reached ((due []).run w) w := by
  simpa using (Reached.due (.top blanks_nil)).run w

theorem leadsTo_run (h : v.Spelled (w ++ rest)) : ((due []).run w).LeadsTo v := by
  apply LeadsTo.of_run (reached_run w)
  rw [← run_append]
  exact (holds_run h []).leadsTo

/-- The letters that are due belong to a name, not to a string. -/
def Naming : State → Prop
  | literal _ _ u _ => u = .null ∨ ∃ b, u = .bool b
  | _ => True

theorem naming_complete (u : Value) (frames : List Frame) : (complete u frames).Naming := by
  match frames with
  | [] | .item _ :: _ | .value _ _ :: _ => trivial

theorem Naming.separate (h : s.Naming) (c : Char) : (s.separate c).Naming := by
  cases s with
  | itemRead | memberRead =>
    simp only [State.separate]
    split
    · trivial
    · split
      · trivial
      · split
        · exact naming_complete ..
        · trivial
  | keyRead =>
    simp only [State.separate]
    split
    · trivial
    · split <;> trivial
  | closed =>
    simp only [State.separate]
    split <;> trivial
  | _ => exact h

theorem naming_enter (frames : List Frame) (c : Char) : (enter frames c).Naming := by
  unfold enter
  split
  · trivial
  · trivial
  · trivial
  · exact .inl rfl
  · exact .inr ⟨true, rfl⟩
  · exact .inr ⟨false, rfl⟩
  · trivial
  · split
    · trivial
    · exact naming_complete ..
    · trivial

theorem naming_enterKey (before : List Member) (frames : List Frame) (c : Char) :
    (enterKey before frames c).Naming := by
  unfold enterKey
  split
  · trivial
  · exact naming_complete ..
  · trivial

theorem Naming.step (h : s.Naming) (c : Char) : (s.step c).Naming := by
  cases s with
  | due frames =>
    simp only [State.step]
    split
    · trivial
    · exact naming_enter frames c
  | keyDue before frames =>
    simp only [State.step]
    split
    · trivial
    · exact naming_enterKey before frames c
  | literal letter letters u frames =>
    simp only [State.step]
    split
    · split
      · exact naming_complete ..
      · exact h
    · trivial
  | numeral n frames =>
    simp only [State.step]
    split
    · trivial
    · exact (naming_complete ..).separate c
    · trivial
    · trivial
  | string =>
    simp only [State.step]
    split
    · trivial
    · exact naming_complete ..
    · trivial
    · trivial
  | keyText =>
    simp only [State.step]
    split <;> trivial
  | _ => exact Naming.separate h c

theorem Naming.run (h : s.Naming) (text : List Char) : (s.run text).Naming := by
  induction text generalizing s with
  | nil => exact h
  | cons c text ih => exact ih (h.step c)

/-! ### The end of the text -/

theorem blanks_of_leadsTo (h : ((closed u).run rest).LeadsTo v) : Blanks rest := by
  induction rest with
  | nil => exact blanks_nil
  | cons c rest ih =>
    rw [run_cons] at h
    by_cases hc : isSpace c = true
    · have same : (closed u).step c = closed u := by simp [step, separate, hc]
      rw [same] at h
      intro d hd
      rcases List.mem_cons.mp hd with rfl | hd
      · exact hc
      · exact ih h d hd
    · have trails : (closed u).step c = trailing u := by simp [step, separate, hc]
      rw [trails] at h
      exact (h.of_run (.trailing (w := []))).elim

theorem LeadsTo.document (reached : Reached s w) (naming : s.Naming) (h : s.LeadsTo v)
    (notNumber : v.isNumber = false) (notClosed : ∀ u, s ≠ closed u) :
    ∃ f, s.document = .broken f ∧ v.Cut f := by
  cases reached with
  | due =>
    rcases h with ⟨u, h⟩ | ⟨outer, rfl, h⟩
    · exact ⟨_, rfl, h.cut .missing⟩
    · exact ⟨_, rfl, h.cut .emptyArray⟩
  | keyDue =>
    obtain ⟨after, more, h⟩ := h
    exact ⟨_, rfl, h.cut (.keyless (more.imp_left (by simpa using ·)))⟩
  | literal =>
    rcases naming with rfl | ⟨b, rfl⟩
    · exact ⟨_, rfl, h.cut .null⟩
    · exact ⟨_, rfl, h.cut .bool⟩
  | @numeral frames n outer w houter reads =>
    obtain ⟨m, begins, h⟩ := h
    -- What has been read of a number may be a number itself: then the container around it is cut.
    by_cases canEnd : n.canEnd = true
    · have stub : (Value.number m).Stub (.number n.numeral) :=
        .number begins (reads.whole_ne_nil canEnd)
      have settled : (State.numeral n frames).settle = complete (.number n.numeral) frames :=
        if_pos canEnd
      rw [State.document, settled]
      cases h with
      | top => cases notNumber
      | item h => exact ⟨_, rfl, by simpa using h.cut (.array stub)⟩
      | value h => exact ⟨_, rfl, by simpa using h.cut (.object stub)⟩
    · have settled : (State.numeral n frames).settle = stop (.numeral .truncated) frames :=
        if_neg canEnd
      rw [State.document, settled]
      exact ⟨_, rfl, h.cut .number⟩
  | string =>
    obtain ⟨text, begins, h⟩ := h
    exact ⟨_, rfl, h.cut (.string begins)⟩
  | keyText =>
    obtain ⟨key, u, after, begins, h⟩ := h
    exact ⟨_, rfl, h.cut (.key begins)⟩
  | keyRead =>
    obtain ⟨u, after, h⟩ := h
    exact ⟨_, rfl, h.cut (.value .missing)⟩
  | itemRead =>
    obtain ⟨after, h⟩ := h
    rw [List.reverse_cons, List.append_assoc] at h
    exact ⟨_, rfl, by simpa using h.cut (.array .whole)⟩
  | memberRead =>
    obtain ⟨after, h⟩ := h
    rw [List.reverse_cons, List.append_assoc] at h
    exact ⟨_, rfl, by simpa using h.cut (.object .whole)⟩
  | closed => exact absurd rfl (notClosed _)
  | trailing | broken => exact h.elim

end State

/-- What is read of a text that is cut before its value is complete, which is a cut of the value.
Numbers are left out, as a part of one may be a number. -/
theorem exists_cut {v : Value} {w rest : List Char} (h : v.Spelled (w ++ rest))
    (notNumber : v.isNumber = false) (more : ¬Blanks rest) :
    ∃ f, scan w = .broken f ∧ v.Cut f := by
  have leads := State.leadsTo_run h
  have start : (State.due []).Naming := trivial
  have naming := start.run w
  refine leads.document (State.reached_run w) naming notNumber fun u closed => more ?_
  -- Had the text been complete where it was cut, only blanks could follow.
  have whole := (State.holds_run h []).leadsTo
  rw [State.run_append, closed] at whole
  exact State.blanks_of_leadsTo whole

end TurtleArt.Json
