import TurtleArt.Command
import TurtleArt.Proofs.Plane

/-! A turtle without a canvas. Its commands take it from stance to stance, and the marks it would
leave are listed in order. Only closing a branch that was never opened can stop it. -/

namespace TurtleArt

structure Mark where
  cell : Cell
  glyph : Char
  deriving DecidableEq, Repr

namespace Mark

def glyphAt (marks : List Mark) (p : Cell) : Option Char :=
  (marks.reverse.find? fun m => m.cell = p).map glyph

variable {l l' : List Mark} {m : Mark} {p : Cell}

@[simp] theorem glyphAt_nil (p : Cell) : glyphAt [] p = none := rfl

theorem glyphAt_append (l l' : List Mark) (p : Cell) :
    glyphAt (l ++ l') p = (glyphAt l' p).or (glyphAt l p) := by
  rw [glyphAt, List.reverse_append, List.find?_append, Option.map_or]
  rfl

theorem glyphAt_singleton (m : Mark) (p : Cell) :
    glyphAt [m] p = if p = m.cell then some m.glyph else none := by
  by_cases h : m.cell = p
  · simp [glyphAt, h]
  · simp [glyphAt, h, Ne.symm h]

theorem glyphAt_eq_none_iff : glyphAt l p = none ↔ ∀ m ∈ l, m.cell ≠ p := by
  simp [glyphAt]

theorem glyphAt_eq_some {g : Char} (h : glyphAt l p = some g) :
    ∃ m ∈ l, m.cell = p ∧ m.glyph = g := by
  obtain ⟨m, hfind, rfl⟩ := Option.map_eq_some_iff.mp h
  have hcell := List.find?_some hfind
  exact ⟨m, List.mem_reverse.mp (List.mem_of_find?_eq_some hfind), by simpa using hcell, rfl⟩

end Mark

structure Walker where
  stance : Stance
  /-- The saved poses, the latest first. -/
  saved : List Stance := []
  deriving DecidableEq, Repr

namespace Walker

def place (cell : Cell) (heading : Direction) : Walker :=
  { stance := ⟨cell, heading⟩ }

/-- The mark a command leaves, whether or not it is then carried through. -/
def mark? (w : Walker) : Command → Option Mark
  | .drawLeaf | .drawLine => some ⟨w.stance.advance.cell, w.stance.heading.arrow⟩
  | .turnLeft | .turnRight => none
  | .pushBranch | .popBranch => some ⟨w.stance.cell, w.stance.heading.arrow⟩

def next? (w : Walker) : Command → Option Walker
  | .drawLeaf | .drawLine => some { w with stance := w.stance.advance }
  | .turnLeft => some { w with stance := w.stance.left.left }
  | .turnRight => some { w with stance := w.stance.right.right }
  | .pushBranch => some ⟨w.stance.left, w.stance :: w.saved⟩
  | .popBranch =>
    match w.saved with
    | [] => none
    | stance :: saved => some ⟨stance.right, saved⟩

def walk? (w : Walker) (commands : List Command) : Option Walker :=
  commands.foldlM next? w

def marks (w : Walker) : List Command → List Mark
  | [] => []
  | c :: commands =>
    (w.mark? c).toList ++
      match w.next? c with
      | some v => v.marks commands
      | none => []

variable {w v : Walker} {c : Command}

@[simp] theorem walk?_nil (w : Walker) : w.walk? [] = some w := rfl

theorem walk?_cons (w : Walker) (c : Command) (commands : List Command) :
    w.walk? (c :: commands) = (w.next? c).bind (·.walk? commands) :=
  List.foldlM_cons

theorem walk?_append (w : Walker) (before after : List Command) :
    w.walk? (before ++ after) = (w.walk? before).bind (·.walk? after) :=
  List.foldlM_append

@[simp] theorem marks_nil (w : Walker) : w.marks [] = [] := rfl

theorem marks_cons (h : w.next? c = some v) (commands : List Command) :
    w.marks (c :: commands) = (w.mark? c).toList ++ v.marks commands := by
  rw [marks, h]

theorem marks_turnLeft (w : Walker) (commands : List Command) :
    w.marks (.turnLeft :: commands) = { w with stance := w.stance.left.left }.marks commands := rfl

theorem marks_turnRight (w : Walker) (commands : List Command) :
    w.marks (.turnRight :: commands) = { w with stance := w.stance.right.right }.marks commands := rfl

theorem marks_append {before : List Command} (h : w.walk? before = some v)
    (after : List Command) : w.marks (before ++ after) = w.marks before ++ v.marks after := by
  induction before generalizing w with
  | nil =>
    obtain rfl : w = v := by simpa using h
    rfl
  | cons c before ih =>
    rw [walk?_cons] at h
    obtain ⟨u, hc, hu⟩ := Option.bind_eq_some_iff.mp h
    rw [List.cons_append, marks_cons hc, marks_cons hc, ih hu, List.append_assoc]

theorem next?_eq_none_iff : w.next? c = none ↔ c = .popBranch ∧ w.saved = [] := by
  cases c with
  | popBranch => cases h : w.saved <;> simp [next?, h]
  | _ => simp [next?]

theorem next?_popBranch_eq_some (h : w.next? .popBranch = some v) :
    ∃ stance saved, w.saved = stance :: saved ∧ v = ⟨stance.right, saved⟩ := by
  cases hsaved : w.saved with
  | nil => simp [next?, hsaved] at h
  | cons stance saved =>
    refine ⟨stance, saved, rfl, ?_⟩
    simpa [next?, hsaved] using h.symm

theorem length_saved {commands : List Command} (h : w.walk? commands = some v) :
    v.saved.length + commands.count .popBranch = w.saved.length + commands.count .pushBranch := by
  induction commands generalizing w with
  | nil =>
    obtain rfl : w = v := by simpa using h
    rfl
  | cons c commands ih =>
    rw [walk?_cons] at h
    obtain ⟨u, hc, hu⟩ := Option.bind_eq_some_iff.mp h
    have rest := ih hu
    -- Only the two ends of a branch change how many poses are saved.
    cases c with
    | pushBranch =>
      obtain rfl := Option.some.inj hc
      simp only [List.length_cons] at rest
      simp only [List.count_cons, reduceCtorEq, beq_iff_eq, if_true, if_false]
      omega
    | popBranch =>
      obtain ⟨stance, saved, hsaved, rfl⟩ := next?_popBranch_eq_some hc
      simp only [hsaved, List.length_cons, List.count_cons, reduceCtorEq, beq_iff_eq, if_true,
        if_false] at rest ⊢
      omega
    | _ =>
      obtain rfl := Option.some.inj hc
      simpa [List.count_cons] using rest

theorem glyph_of_mem_marks {commands : List Command} {m : Mark} (h : m ∈ w.marks commands) :
    ∃ d : Direction, m.glyph = d.arrow := by
  induction commands generalizing w with
  | nil => cases h
  | cons c commands ih =>
    rcases List.mem_append.mp h with here | later
    · refine ⟨w.stance.heading, ?_⟩
      cases c <;> simp_all [mark?]
    · split at later
      · exact ih later
      · cases later

end Walker
end TurtleArt
