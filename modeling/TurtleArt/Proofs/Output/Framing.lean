import Mathlib.Data.List.Forall2
import Mathlib.Data.List.Induction
import TurtleArt.Output.Drawer

/-! What is on a sink after any series of jobs. A picture comes to its sink in pieces, but these add
up to one frame, and what does not fit is cut off wherever the sink is full. So the sink holds the
beginning of all the frames in turn, also where jobs go on after one that failed. -/

namespace TurtleArt.Sink

def frame (art : String) : List UInt8 :=
  utf8 art ++ List.replicate 6 10

def Job.art (config : Config) : Job → Except Fault String
  | .print art => .ok art
  | .draw d n => (Render.definition config d n).value

def Job.bytes (config : Config) (job : Job) : List UInt8 :=
  match job.art config with
  | .ok art => frame art
  | .error _ => []

def frames (config : Config) (jobs : List Job) : List UInt8 :=
  jobs.flatMap (Job.bytes config)

/-- The job at a place has a picture, and the frames up to this one, itself included, fit the
limit. -/
def completes (config : Config) (limit : Nat) (jobs : List Job) (k : Nat) : Bool :=
  (jobs[k]?.any fun job => (job.art config).isOk) &&
    decide ((frames config (jobs.take (k + 1))).length ≤ limit)

variable {s : Sink} {bytes sent : List UInt8} {limit : Nat} {config : Config} {job : Job}
  {jobs : List Job} {d : Definition} {n : Nat} {art : String} {fault : Fault}

theorem flatten_pieces (art : String) :
    [utf8 art, utf8 "\n", utf8 spacer, utf8 "\n"].flatten = frame art := by
  have breaks : [utf8 "\n", utf8 spacer, utf8 "\n"].flatten = List.replicate 6 10 := by decide
  rw [List.flatten_cons, breaks, frame]

theorem write_of_unbounded (h : s.capacity = none) (bytes : List UInt8) :
    s.write bytes = ({ s with written := s.written ++ bytes }, none) := by
  rw [write, h]

theorem write_of_bounded (h : s.capacity = some limit) (bytes : List UInt8) :
    s.write bytes =
      ({ s with written := s.written ++ bytes.take (limit - s.written.length) },
        if bytes.length ≤ limit - s.written.length then none else some s.refusal) := by
  rw [write, h]

/-- The second of two writes is made only if the first fits. What the sink then holds is the same
as after a single write, as a full sink takes nothing of the second. -/
theorem write_append (s : Sink) (bytes rest : List UInt8) :
    s.write (bytes ++ rest) =
      match s.write bytes with
      | (s, none) => s.write rest
      | (s, some e) => (s, some e) := by
  cases hcap : s.capacity with
  | none =>
    rw [write_of_unbounded hcap, write_of_unbounded hcap]
    dsimp only
    rw [write_of_unbounded (by exact hcap), List.append_assoc]
  | some limit =>
    rw [write_of_bounded hcap, write_of_bounded hcap, List.take_append, List.length_append]
    -- If the first write does not fit, the sink is full, and the second adds nothing.
    by_cases fits : bytes.length ≤ limit - s.written.length
    · have room : limit - (s.written ++ bytes).length =
          limit - s.written.length - bytes.length := by
        rw [List.length_append, Nat.sub_add_eq]
      have both : bytes.length + rest.length ≤ limit - s.written.length ↔
          rest.length ≤ limit - s.written.length - bytes.length := by omega
      rw [if_pos fits, List.take_of_length_le fits]
      dsimp only
      rw [write_of_bounded (by exact hcap)]
      simp only [room, both, List.append_assoc]
    · have full : limit - s.written.length - bytes.length = 0 := by omega
      rw [if_neg fits, if_neg (by omega), full, List.take_zero, List.append_nil]

theorem writeAll_eq_write (s : Sink) (pieces : List (List UInt8)) :
    s.writeAll pieces = s.write pieces.flatten := by
  induction pieces generalizing s with
  | nil =>
    cases hcap : s.capacity with
    | none => simp [writeAll, write_of_unbounded hcap]
    | some limit => simp [writeAll, write_of_bounded hcap]
  | cons piece pieces ih =>
    rw [List.flatten_cons, write_append, writeAll]
    rcases s.write piece with ⟨t, _ | e⟩
    · exact ih t
    · rfl

theorem print_eq (s : Sink) (art : String) :
    s.print art =
      match s.write (frame art) with
      | (s, none) => s.flush
      | (s, some e) => (s, some e) := by
  rw [← flatten_pieces, ← writeAll_eq_write]
  rfl

theorem print_of_unbounded (h : s.capacity = none) (art : String) :
    s.print art = ({ s with written := s.written ++ frame art, flushes := s.flushes + 1 },
      s.flushAnswer s.flushes) := by
  rw [print_eq, write_of_unbounded h]
  rfl

theorem frame_injective : Function.Injective frame := fun art art' h => by
  have same : utf8 art = utf8 art' := List.append_cancel_right h
  exact String.toByteArray_inj.mp (ByteArray.ext (Array.toList_inj.mp same))

theorem bytes_of_art (h : job.art config = .ok art) : job.bytes config = frame art := by
  rw [Job.bytes, h]

theorem frames_concat (config : Config) (jobs : List Job) (job : Job) :
    frames config (jobs ++ [job]) = frames config jobs ++ job.bytes config := by
  simp [frames]

theorem length_frames_le {before : List Job} (h : before <+: jobs) :
    (frames config before).length ≤ (frames config jobs).length := by
  obtain ⟨after, rfl⟩ := h
  rw [frames, frames, List.flatMap_append, List.length_append]
  exact Nat.le_add_right ..

theorem perform_of_art (h : job.art config = .ok art) (s : Sink) :
    s.perform config job = ((s.print art).1, (s.print art).2.map .io) := by
  cases job with
  | print text =>
    obtain rfl := Except.ok.inj h
    rfl
  | draw d n =>
    change (Render.definition config d n).value = .ok art at h
    rw [perform, draw, h]

theorem draw_of_fault (h : (Render.definition config d n).value = .error fault) (s : Sink) :
    s.draw config d n = (s, some (.fault fault)) := by
  rw [draw, h]

theorem perform_of_fault (h : job.art config = .error fault) (s : Sink) :
    s.perform config job = (s, some (.fault fault)) := by
  cases job with
  | print text => cases h
  | draw d n => exact draw_of_fault h s

theorem draw_of_art (unbounded : s.capacity = none) (sound : s.flushError = none)
    (h : (Render.definition config d n).value = .ok art) :
    s.draw config d n =
      ({ s with written := s.written ++ frame art, flushes := s.flushes + 1 }, none) := by
  have answer : s.flushAnswer s.flushes = none := by
    rw [flushAnswer, sound, ite_self]
  rw [draw, h]
  dsimp only
  rw [print_of_unbounded unbounded, answer]
  rfl

theorem drawAll_of_arts {pictures : List (Definition × Nat)} {arts : List String}
    (unbounded : s.capacity = none) (sound : s.flushError = none)
    (h : List.Forall₂ (fun picture art =>
      (Render.definition config picture.1 picture.2).value = .ok art) pictures arts) :
    (s.drawAll config pictures).1.written = s.written ++ arts.flatMap frame ∧
      (s.drawAll config pictures).2 = none := by
  induction h generalizing s with
  | nil => exact ⟨(List.append_nil _).symm, rfl⟩
  | @cons picture art pictures arts head _ ih =>
    obtain ⟨d, n⟩ := picture
    rw [drawAll, draw_of_art unbounded sound head, List.flatMap_cons, ← List.append_assoc]
    exact ih unbounded sound

def Takes (s : Sink) (limit total : Nat) : Prop :=
  s.capacity = some limit ∨ s.capacity = none ∧ total ≤ limit

theorem Takes.mono {total total' : Nat} (h : s.Takes limit total) (fewer : total' ≤ total) :
    s.Takes limit total' :=
  h.imp_right fun ⟨unbounded, fits⟩ => ⟨unbounded, Nat.le_trans fewer fits⟩

def given (s : Sink) (limit : Nat) (sent : List UInt8) (n : Nat) : Sink :=
  { s with written := sent.take limit, flushes := n }

theorem write_given (takes : s.Takes limit (sent ++ bytes).length) (nonempty : bytes ≠ [])
    (n : Nat) : (s.given limit sent n).write bytes =
      (s.given limit (sent ++ bytes) n,
        if (sent ++ bytes).length ≤ limit then none else some s.refusal) := by
  have positive := List.length_pos_iff.mpr nonempty
  rw [List.length_append] at takes ⊢
  rcases takes with bounded | ⟨unbounded, fits⟩
  · have room : limit - (sent.take limit).length = limit - sent.length := by
      rw [List.length_take]
      omega
    have enough : bytes.length ≤ limit - sent.length ↔ sent.length + bytes.length ≤ limit := by
      omega
    have bounded' : (s.given limit sent n).capacity = some limit := bounded
    rw [write_of_bounded bounded']
    simp only [given, room, enough, List.take_append]
  · rw [write_of_unbounded (by exact unbounded), if_pos fits]
    have all : (sent ++ bytes).take limit = sent ++ bytes := by
      rw [List.take_of_length_le]
      rwa [List.length_append]
    have before : sent.take limit = sent := List.take_of_length_le (by omega)
    simp only [given, all, before]

theorem frame_ne_nil (art : String) : frame art ≠ [] := by
  simp [frame]

theorem print_given (takes : s.Takes limit (sent ++ frame art).length) (n : Nat) :
    (s.given limit sent n).print art =
      if (sent ++ frame art).length ≤ limit then
        (s.given limit (sent ++ frame art) (n + 1), s.flushAnswer n)
      else (s.given limit (sent ++ frame art) n, some s.refusal) := by
  rw [print_eq, write_given takes (frame_ne_nil art)]
  by_cases fits : (sent ++ frame art).length ≤ limit
  · rw [if_pos fits, if_pos fits]
    rfl
  · rw [if_neg fits, if_neg fits]

theorem completes_of_lt {k : Nat} (hk : k < jobs.length) :
    completes config limit (jobs ++ [job]) k = completes config limit jobs k := by
  rw [completes, completes, List.getElem?_append_left hk, List.take_append_of_le_length hk]

theorem completes_last_iff : completes config limit (jobs ++ [job]) jobs.length = true ↔
    (∃ art, job.art config = .ok art) ∧ (frames config (jobs ++ [job])).length ≤ limit := by
  have whole : (jobs ++ [job]).take (jobs.length + 1) = jobs ++ [job] :=
    List.take_of_length_le (by simp)
  rw [completes, whole, List.getElem?_concat_length, Option.any_some, Bool.and_eq_true,
    decide_eq_true_eq]
  cases job.art config <;> simp [Except.isOk, Except.toBool]

theorem countP_completes_concat (config : Config) (limit : Nat) (jobs : List Job) (job : Job) :
    (List.range (jobs ++ [job]).length).countP (completes config limit (jobs ++ [job])) =
      (List.range jobs.length).countP (completes config limit jobs) +
        if completes config limit (jobs ++ [job]) jobs.length then 1 else 0 := by
  have before : (List.range jobs.length).countP (completes config limit (jobs ++ [job])) =
      (List.range jobs.length).countP (completes config limit jobs) :=
    List.countP_congr fun k hk => by rw [completes_of_lt (List.mem_range.mp hk)]
  rw [List.length_append, List.length_singleton, List.range_succ, List.countP_append, before,
    List.countP_singleton]

theorem performAll_concat (s : Sink) (config : Config) (jobs : List Job) (job : Job) :
    (s.performAll config (jobs ++ [job])).1 =
      ((s.performAll config jobs).1.perform config job).1 := by
  induction jobs generalizing s with
  | nil => rfl
  | cons first jobs ih => exact ih (s.perform config first).1

theorem length_performAll (s : Sink) (config : Config) (jobs : List Job) :
    (s.performAll config jobs).2.length = jobs.length := by
  induction jobs generalizing s with
  | nil => rfl
  | cons first jobs ih => exact congrArg (· + 1) (ih (s.perform config first).1)

theorem getElem?_performAll (s : Sink) (config : Config) (before : List Job) (job : Job)
    (after : List Job) :
    (s.performAll config (before ++ job :: after)).2[before.length]? =
      some ((s.performAll config before).1.perform config job).2 := by
  induction before generalizing s with
  | nil => rfl
  | cons first before ih => exact ih (s.perform config first).1

theorem perform_given (takes : s.Takes limit (frames config (jobs ++ [job])).length) (n : Nat) :
    (s.given limit (frames config jobs) n).perform config job =
      (s.given limit (frames config (jobs ++ [job]))
          (n + if completes config limit (jobs ++ [job]) jobs.length then 1 else 0),
        match job.art config with
        | .error fault => some (.fault fault)
        | .ok _ =>
          if (frames config (jobs ++ [job])).length ≤ limit then (s.flushAnswer n).map .io
          else some (.io s.refusal)) := by
  cases hart : job.art config with
  | error fault =>
    have skipped : ¬ completes config limit (jobs ++ [job]) jobs.length = true := fun h => by
      obtain ⟨⟨art, hart'⟩, -⟩ := completes_last_iff.mp h
      cases hart.symm.trans hart'
    rw [perform_of_fault hart, if_neg skipped, frames_concat, Job.bytes, hart, List.append_nil]
    rfl
  | ok art =>
    have whole : completes config limit (jobs ++ [job]) jobs.length = true ↔
        (frames config (jobs ++ [job])).length ≤ limit :=
      completes_last_iff.trans (and_iff_right ⟨art, hart⟩)
    rw [if_congr whole rfl rfl]
    rw [frames_concat, bytes_of_art hart] at takes ⊢
    rw [perform_of_art hart, print_given takes]
    by_cases fits : (frames config jobs ++ frame art).length ≤ limit
    · rw [if_pos fits, if_pos fits, if_pos fits]
    · rw [if_neg fits, if_neg fits, if_neg fits]
      rfl

theorem performAll_given (takes : s.Takes limit (frames config jobs).length) :
    ((s.given limit [] 0).performAll config jobs).1 =
      s.given limit (frames config jobs)
        ((List.range jobs.length).countP (completes config limit jobs)) := by
  -- From the end: what the last job finds on the sink are the frames of all jobs before it.
  induction jobs using List.reverseRecOn with
  | nil => rfl
  | append_singleton jobs job ih =>
    have before := takes.mono (length_frames_le (List.prefix_append jobs [job]))
    rw [performAll_concat, ih before, perform_given takes, countP_completes_concat]

/-- On a sink that is empty at first, the jobs leave the beginning of all their frames, and a flush
for each frame that fits. A job that has no picture leaves the sink as it finds it; one that has a
picture ends well only if all frames up to its own fit, and its flush does not fail. -/
theorem performAll_frames (s : Sink) (config : Config) (jobs : List Job) (limit : Nat)
    (empty : s.written = [] ∧ s.flushes = 0) (takes : s.Takes limit (frames config jobs).length) :
    (s.performAll config jobs).1.written = (frames config jobs).take limit ∧
    (s.performAll config jobs).1.flushes =
      (List.range jobs.length).countP (completes config limit jobs) ∧
    (s.performAll config jobs).2.length = jobs.length ∧
    ∀ before job after, jobs = before ++ job :: after →
      (∀ fault, job.art config = .error fault →
        (s.performAll config jobs).2[before.length]? = some (some (.fault fault)) ∧
        (s.performAll config (before ++ [job])).1 = (s.performAll config before).1) ∧
      ∀ art, job.art config = .ok art →
        (s.performAll config jobs).2[before.length]? = some
          (if (frames config (before ++ [job])).length ≤ limit then
            (s.flushAnswer (s.performAll config before).1.flushes).map .io
          else some (.io s.refusal)) := by
  obtain ⟨written, flushes⟩ := empty
  have start : s.given limit [] 0 = s := by
    rw [given, List.take_nil, ← written, ← flushes]
  have run : ∀ jobs : List Job, s.Takes limit (frames config jobs).length →
      (s.performAll config jobs).1 = s.given limit (frames config jobs)
        ((List.range jobs.length).countP (completes config limit jobs)) := fun jobs takes => by
    rw [← performAll_given takes, start]
  refine ⟨by rw [run jobs takes]; rfl, by rw [run jobs takes]; rfl, length_performAll .., ?_⟩
  rintro before job after rfl
  have through : s.Takes limit (frames config (before ++ [job])).length :=
    takes.mono (length_frames_le ⟨after, by rw [← List.append_cons]⟩)
  have earlier : s.Takes limit (frames config before).length :=
    through.mono (length_frames_le (List.prefix_append before [job]))
  rw [getElem?_performAll]
  refine ⟨fun fault hfault => ⟨by rw [perform_of_fault hfault], ?_⟩, fun art hart => ?_⟩
  · rw [performAll_concat, perform_of_fault hfault]
  · rw [run before earlier, perform_given through, hart]
    rfl

/-- Five jobs on a sink of 17 bytes whose first flush fails. The second and the last have no
picture; of the arrow that comes fourth only two of three bytes fit. -/
theorem performAll_frames_of_cut_arrow :
    let unread : Definition :=
      { name := "unread", grammar := { start := ['?'] }, commands := ∅, start := .central }
    let s : Sink :=
      { capacity := some 17, flushError := some .flushFailed, flushFails := fun n => n == 0 }
    let jobs : List Job := [.print "↑", .draw unread 0, .print "", .print "←", .draw unread 0]
    (s.performAll {} jobs).1.written =
      [226, 134, 145, 10, 10, 10, 10, 10, 10, 10, 10, 10, 10, 10, 10, 226, 134] ∧
    (s.performAll {} jobs).1.flushes = 2 ∧
    (s.performAll {} jobs).2[0]? = some (some (.io .flushFailed)) ∧
    (s.performAll {} jobs).2[2]? = some none ∧
    (s.performAll {} jobs).2[3]? = some (some (.io .closed)) ∧
    (s.performAll {} jobs).2[4]? = some (some (.fault (.unknownSymbol '?' 0))) := by
  intro unread s jobs
  have unread_fault : (Job.draw unread 0).art {} = .error (.unknownSymbol '?' 0) := by decide +kernel
  obtain ⟨written, flushes, -, outcomes⟩ := performAll_frames s {} jobs 17 ⟨rfl, rfl⟩ (.inl rfl)
  have sent : (frames {} jobs).take 17 =
      [226, 134, 145, 10, 10, 10, 10, 10, 10, 10, 10, 10, 10, 10, 10, 226, 134] := by decide +kernel
  have complete : (List.range jobs.length).countP (completes {} 17 jobs) = 2 := by decide +kernel
  have first := (outcomes [] _ (jobs.drop 1) rfl).2 "↑" rfl
  have third := (outcomes (jobs.take 2) _ (jobs.drop 3) rfl).2 "" rfl
  have fourth := (outcomes (jobs.take 3) _ (jobs.drop 4) rfl).2 "←" rfl
  have last := (outcomes (jobs.take 4) _ [] rfl).1 _ unread_fault
  have place {k : Nat} : (jobs.take k).length = min k 5 := List.length_take
  rw [place] at third fourth last
  refine ⟨written.trans sent, flushes.trans complete, first.trans ?_, third.trans ?_,
    fourth.trans ?_, last.1⟩
  · decide +kernel
  · decide +kernel
  · decide +kernel

end TurtleArt.Sink
