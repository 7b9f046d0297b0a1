import TurtleArt.Proofs.Json.Literal

/-! A spelled value is read as that value, within whatever arrays and objects are open around
it. -/

namespace TurtleArt.Json

/-- The characters that may follow a value. Each of them ends a number. -/
def ends (c : Char) : Bool :=
  isSpace c || c = ',' || c = ']' || c = '\x7d'

theorem ends_of_isSpace {c : Char} (h : isSpace c) : ends c := by
  rw [ends, h]
  rfl

theorem OpenNumeral.next_eq_over {n : OpenNumeral} {c : Char} (hn : n.canEnd = true) (hc : ends c) :
    n.next c = .over := by
  have other : digit? c = none ∧ c ≠ '.' ∧ c ≠ 'e' ∧ c ≠ 'E' := by
    simp only [ends, isSpace, Bool.or_eq_true, decide_eq_true_eq] at hc
    rcases hc with (((((rfl | rfl) | rfl) | rfl) | rfl) | rfl) | rfl <;> decide
  obtain ⟨digit, point, e, E⟩ := other
  cases hplace : n.place <;>
    simp_all [canEnd, next, leaveWhole, leaveFraction]

namespace State

variable {s : State} {v : Value} {frames : List Frame} {before : List Member} {key : Text}
  {c : Char} {blanks k w : List Char}

theorem run_blanks (hs : ∀ c, isSpace c → s.step c = s) (h : Blanks blanks) :
    s.run blanks = s := by
  induction blanks with
  | nil => rfl
  | cons c blanks ih =>
    rw [run_cons, hs c (h c (by simp)), ih fun d hd => h d (List.mem_cons_of_mem c hd)]

theorem run_due (h : Blanks blanks) : (due frames).run blanks = due frames :=
  run_blanks (fun c hc => by simp [step, hc]) h

theorem run_keyDue (h : Blanks blanks) : (keyDue before frames).run blanks = keyDue before frames :=
  run_blanks (fun c hc => by simp [step, hc]) h

theorem run_keyRead (h : Blanks blanks) :
    (keyRead before key frames).run blanks = keyRead before key frames :=
  run_blanks (fun c hc => by simp [step, separate, hc]) h

theorem run_complete (h : Blanks blanks) : (complete v frames).run blanks = complete v frames := by
  refine run_blanks (fun c hc => ?_) h
  match frames with
  | [] | .item _ :: _ | .value _ _ :: _ => simp [complete, step, separate, hc]

theorem run_keySpelled (h : key.KeySpelled k) (before : List Member) (frames : List Frame) :
    (keyDue before frames).run k = keyRead before key frames := by
  cases h with
  | @mk front w back hfront h hback =>
    have split : front ++ '"' :: w ++ '"' :: back = front ++ (('"' :: w ++ ['"']) ++ back) := by
      simp
    rw [split, run_append, run_keyDue hfront, run_append, run_key h, run_keyRead hback]

theorem step_complete (v : Value) (frames : List Frame) (c : Char) :
    (complete v frames).step c = (complete v frames).separate c := by
  cases frames with
  | nil => rfl
  | cons frame frames => cases frame <;> rfl

/-- A value has been read. A number may still go on. -/
inductive Holds (v : Value) (frames : List Frame) : State → Prop
  | complete : Holds v frames (.complete v frames)
  | numeral {n : OpenNumeral} (canEnd : n.canEnd = true) (value : v = .number n.numeral) :
      Holds v frames (.numeral n frames)

namespace Holds

theorem step (h : Holds v frames s) (hc : ends c) :
    s.step c = (State.complete v frames).step c := by
  cases h with
  | complete => rfl
  | numeral canEnd value =>
    rw [step_complete, value]
    simp only [State.step, OpenNumeral.next_eq_over canEnd hc]

theorem run_blanks (h : Holds v frames s) (hblanks : Blanks blanks) :
    Holds v frames (s.run blanks) := by
  cases blanks with
  | nil => exact h
  | cons c blanks =>
    have same := h.step (ends_of_isSpace (hblanks c (by simp)))
    rw [run_cons, same, ← run_cons, run_complete hblanks]
    exact .complete

theorem document (h : Holds v [] s) : s.document = .complete v false := by
  cases h with
  | complete => rfl
  | numeral canEnd value => simp [State.document, settle, canEnd, State.complete, value]

end Holds

theorem run_items {front : List (Value × List Char)}
    (read : ∀ item ∈ front, ∀ frames, Holds item.1 frames ((due frames).run item.2))
    (before : List Value) :
    (due (.item before :: frames)).run (front.flatMap fun item => item.2 ++ [',']) =
      due (.item ((front.map Prod.fst).reverse ++ before) :: frames) := by
  induction front generalizing before with
  | nil => rfl
  | cons item front ih =>
    have rest := ih (fun item h => read item (List.mem_cons_of_mem _ h)) (item.1 :: before)
    -- The comma ends the number that the item may be.
    have comma := (read item (by simp) (.item before :: frames)).step (c := ',') rfl
    rw [List.flatMap_cons, run_append, run_append, run_cons, run_nil, comma, List.map_cons,
      List.reverse_cons, List.append_assoc]
    exact rest

theorem run_entry {e : Entry} (hkey : e.key.KeySpelled e.keyText)
    (read : ∀ frames, Holds e.value frames ((due frames).run e.valueText)) (before : List Member)
    (frames : List Frame) :
    Holds e.value (.value before e.key :: frames) ((keyDue before frames).run e.text) := by
  have colon : (keyRead before e.key frames).step ':' = due (.value before e.key :: frames) := rfl
  rw [Entry.text, run_append, run_keySpelled hkey, run_cons, colon]
  exact read _

theorem run_entries {front : List Entry} (hkeys : ∀ e ∈ front, e.key.KeySpelled e.keyText)
    (read : ∀ e ∈ front, ∀ frames, Holds e.value frames ((due frames).run e.valueText))
    (before : List Member) :
    (keyDue before frames).run (front.flatMap fun e => e.text ++ [',']) =
      keyDue ((front.map Entry.member).reverse ++ before) frames := by
  induction front generalizing before with
  | nil => rfl
  | cons e front ih =>
    have rest := ih (fun e h => hkeys e (List.mem_cons_of_mem _ h))
      (fun e h => read e (List.mem_cons_of_mem _ h)) (e.member :: before)
    have comma := (run_entry (hkeys e (by simp)) (read e (by simp)) before frames).step
      (c := ',') rfl
    rw [List.flatMap_cons, run_append, run_append, run_cons, run_nil, comma, List.map_cons,
      List.reverse_cons, List.append_assoc]
    exact rest

theorem holds_run (h : v.Spelled w) (frames : List Frame) :
    Holds v frames ((due frames).run w) := by
  induction h generalizing frames with
  | null | yes | no => exact .complete
  | number h =>
    obtain ⟨o, read, canEnd, rfl⟩ := run_number h frames
    rw [read]
    exact .numeral canEnd rfl
  | string h =>
    rw [run_string h]
    exact .complete
  | emptyArray h =>
    have opened : (due frames).step '[' = due (.item [] :: frames) := rfl
    rw [List.cons_append, run_cons, opened, run_append, run_due h]
    exact .complete
  | @array front v w _ _ ihfront ihlast =>
    have opened : (due frames).step '[' = due (.item [] :: frames) := rfl
    have bracket := (ihlast (.item (front.map Prod.fst).reverse :: frames)).step (c := ']') rfl
    rw [List.cons_append, List.cons_append, run_cons, opened, run_append, run_append,
      run_items ihfront, List.append_nil, run_cons, run_nil, bracket]
    have closed : (complete v (.item (front.map Prod.fst).reverse :: frames)).step ']' =
        complete (.array (front.map Prod.fst ++ [v])) frames := by
      simp [complete, step, separate, isSpace]
    rw [closed]
    exact .complete
  | emptyObject h =>
    have opened : (due frames).step '\x7b' = keyDue [] frames := rfl
    rw [List.cons_append, run_cons, opened, run_append, run_keyDue h]
    exact .complete
  | @object front key k v w hkeys _ hkey _ ihfront ihlast =>
    have opened : (due frames).step '\x7b' = keyDue [] frames := rfl
    have last := run_entry (e := ⟨key, k, v, w⟩) hkey ihlast (front.map Entry.member).reverse frames
    have brace := last.step (c := '\x7d') rfl
    have closed : (complete v (.value (front.map Entry.member).reverse key :: frames)).step '\x7d' =
        complete (.object (front.map Entry.member ++ [(key, v)])) frames := by
      simp [complete, step, separate, isSpace]
    have split : '\x7b' :: front.flatMap (fun e => e.text ++ [',']) ++ k ++ ':' :: w ++ ['\x7d'] =
        '\x7b' :: (front.flatMap (fun e => e.text ++ [',']) ++
          ((⟨key, k, v, w⟩ : Entry).text ++ ['\x7d'])) := by
      simp [Entry.text]
    rw [split, run_cons, opened, run_append, run_entries hkeys ihfront, List.append_nil, run_append,
      run_cons, run_nil, brace, closed]
    exact .complete
  | padded hbefore _ hafter ih =>
    rw [run_append, run_append, run_due hbefore]
    exact (ih frames).run_blanks hafter

end State

theorem Value.Spelled.scan {v : Value} {w : List Char} (h : v.Spelled w) :
    scan w = .complete v false :=
  (State.holds_run h []).document

theorem Value.Spelled.unique {v u : Value} {w : List Char} (hv : v.Spelled w) (hu : u.Spelled w) :
    v = u := by
  have same := hv.scan.symm.trans hu.scan
  exact (Document.complete.inj same).1

end TurtleArt.Json
