import WordMachine.Proofs.Machine.Quiet

/-!
A load takes a run back to where it was saved. A run that is saved, goes on for a while
and is loaded again comes to the moment at which it was saved (`rewind`): what follows is
the same as if the lines between the save and the load, and the load, had not been there,
whatever the program and the commands did meanwhile.
-/
namespace WordMachine

namespace Machine

/-- A machine without a ceiling that is about to run in a state, with an input to come
    and a console on devices that do not fail. -/
def onInput (s : State) (slot prompt : String) (disk : Disk) (bytes : List UInt8) : Machine :=
  .new s ⟨.ofBytes bytes, .new none, [], slot, prompt, disk⟩ none

theorem onInput_append (s : State) (slot prompt : String) (disk : Disk) (bytes more : List UInt8) :
    onInput s slot prompt disk (bytes ++ more) = (onInput s slot prompt disk bytes).within ⟨#[], 0, more⟩ := by
  simp only [onInput, new, within, Console.within, Source.ofBytes_append, Sink.new]
  rfl

/-- The machines agree on the state, the status, the pending words, the unread input and
    the disk, and they have written the same since each had written the given bytes. -/
structure AlikeSince (said told : Array UInt8) (m n : Machine) : Prop where
  state : m.state = n.state
  status : m.status = n.status
  pending : m.console.pending = n.console.pending
  source : m.console.source = n.console.source
  disk : m.console.disk = n.console.disk
  written : ∃ more : Array UInt8, m.console.sink.written = said ++ more ∧ n.console.sink.written = told ++ more

/-- One machine in two settings. -/
theorem alikeSince_within (m : Machine) {v w : Setting} (same : v.more = w.more) :
    AlikeSince v.said w.said (m.within v) (m.within w) where
  state := rfl
  status := rfl
  pending := rfl
  source := by simp only [within, Console.within, same]
  disk := rfl
  written := ⟨m.console.sink.written, rfl, rfl⟩

end Machine

namespace Moment

/-- A moment at the prompt, with nothing pending. -/
def prompting (s : State) (slot prompt : String) (disk : Disk) (bytes : List UInt8) : Moment :=
  ⟨.onInput s slot prompt disk bytes, true⟩

theorem within_within (x : Moment) (v w : Setting) (last : w.more = []) :
    (x.within v).within w = x.within ⟨w.said ++ v.said, w.steps + v.steps, v.more⟩ := by
  simp only [within, Machine.within, Console.within, last, Source.feed_nil, Array.append_assoc, Nat.add_assoc]

/-- After `n` moments there is a line to come with what is given behind it; it gets an
    answer, and the moment after the answer is a given one in a given setting. -/
structure Answers (x : Moment) (n : Nat) (unread : List UInt8) (prompt answer : String) (y : Moment) (w : Setting) :
    Prop where
  asks : (x.after n).AtPrompt unread
  lands : x.after (n + 1) = y.within w
  last : w.more = []
  said : w.said = (x.after n).machine.console.sink.written ++ Console.bytesOfText prompt
    ++ Console.bytesOfText answer

theorem Answers.of_after {x y : Moment} {k n : Nat} {unread : List UInt8} {prompt answer : String} {w : Setting}
    (answers : (x.after k).Answers n unread prompt answer y w) : x.Answers (k + n) unread prompt answer y w where
  asks := by
    rw [after_add]
    exact answers.asks
  lands := by
    rw [Nat.add_assoc, after_add]
    exact answers.lands
  last := answers.last
  said := by
    rw [after_add]
    exact answers.said

theorem Answers.within {x y : Moment} {n : Nat} {unread : List UInt8} {prompt answer : String} {v w : Setting}
    (answers : x.Answers n unread prompt answer y v) (last : w.more = []) :
    (x.within w).Answers n unread prompt answer y ⟨w.said ++ v.said, w.steps + v.steps, v.more⟩ where
  asks := by
    have asks := answers.asks.within w
    rw [last, List.append_nil] at asks
    rw [after_within_of_last x last]
    exact asks
  lands := by
    rw [after_within_of_last x last, answers.lands, within_within y v w last]
  last := answers.last
  said := by
    rw [after_within_of_last x last, answers.said]
    simp only [Moment.within, Machine.within, Console.within, Sink.append_assoc]

/-- At a quiet moment at the prompt a line that gives no words is answered. -/
theorem Quiet.answers {slot prompt : String} {line rest : List UInt8} {x : Moment} {t : State}
    {answer : String} {after : Disk} (quiet : x.Quiet slot prompt (line ++ rest)) (asks : x.AtPrompt (line ++ rest))
    (cut : linesOf (line ++ rest) = line :: linesOf rest)
    (effect : Effect slot (Utf8.decodeLossy (chomp line)) x.machine.state x.machine.console.disk [] answer t after) :
    ∃ w, x.Answers 0 (line ++ rest) prompt answer (prompting t slot prompt after rest) w := by
  let w : Setting := ⟨x.machine.console.sink.written ++ Console.bytesOfText prompt ++ Console.bytesOfText answer,
    x.machine.steps, []⟩
  refine ⟨w, asks, ?_, rfl, rfl⟩
  show x.next = (prompting t slot prompt after rest).within w
  have read := Source.readLine_ofBytes (line ++ rest)
  rw [cut, ← quiet.source] at read
  simp only [flatten_linesOf] at read
  rw [← quiet.slot] at effect
  have turned := Console.turn_of_line quiet.roomy read effect
  obtain ⟨asking, empty, -⟩ := asks
  obtain ⟨runs, -⟩ := quiet.waits asking
  obtain ⟨m, _⟩ := x
  cases asking
  rw [next_of_turn_none empty turned]
  obtain ⟨s, ⟨source, sink, pending, _, _, disk⟩, status, steps, maxSteps⟩ := m
  cases quiet.slot
  cases quiet.prompt
  cases quiet.unlimited
  cases runs
  cases empty
  simp only [w, Moment.within, Machine.within, Console.within, prompting, Machine.onInput, Machine.new, Sink.new,
    Source.feed_nil, Array.append_empty, List.append_nil, Nat.add_zero]

theorem linesOf_saveLine_append (rest : List UInt8) : linesOf (saveLine ++ rest) = saveLine :: linesOf rest :=
  linesOf_append (show Terminated saveLine by decide) rest

theorem linesOf_loadLine_append (rest : List UInt8) : linesOf (loadLine ++ rest) = loadLine :: linesOf rest :=
  linesOf_append (show Terminated loadLine by decide) rest

theorem quiet_onInput (s : State) (slot prompt : String) (disk : Disk) (bytes : List UInt8) :
    (⟨.onInput s slot prompt disk bytes, false⟩ : Moment).Quiet slot prompt bytes :=
  ⟨rfl, rfl, rfl, rfl, rfl, nofun⟩

theorem quiet_prompting {s : State} (inside : s.pc.toNat < Memory.size) (slot prompt : String) (disk : Disk)
    (bytes : List UInt8) : (prompting s slot prompt disk bytes).Quiet slot prompt bytes :=
  ⟨rfl, rfl, rfl, rfl, rfl, fun _ => ⟨rfl, inside⟩⟩

theorem prompting_answers {s t : State} {slot answer : String} (prompt : String) {disk after : Disk}
    {line rest : List UInt8} (inside : s.pc.toNat < Memory.size) (cut : linesOf (line ++ rest) = line :: linesOf rest)
    (effect : Effect slot (Utf8.decodeLossy (chomp line)) s disk [] answer t after) :
    ∃ w, (prompting s slot prompt disk (line ++ rest)).Answers 0 (line ++ rest) prompt answer
      (prompting t slot prompt after rest) w :=
  (quiet_prompting inside slot prompt disk (line ++ rest)).answers ⟨rfl, rfl, rfl⟩ cut effect

/-- A run on whole lines that has read them all has nothing unread. -/
theorem Quiet.after_of_starved {slot prompt : String} {bytes : List UInt8} {x : Moment}
    (quiet : x.Quiet slot prompt bytes) (ended : Terminated bytes) {n : Nat} (starved : (x.after n).AtPrompt []) :
    (x.after n).Quiet slot prompt [] := by
  obtain ⟨rest, still, -, -⟩ := quiet.after ended n
  have unread := congrArg Source.unread (still.source.symm.trans starved.2.2)
  rw [Source.unread_ofBytes, Source.unread_ofBytes] at unread
  rw [unread] at still
  exact still

/-- A run that has read whole lines answers the line behind them that gives no words. -/
theorem Quiet.answers_after {slot prompt answer : String} {bytes line rest : List UInt8} {x : Moment} {t : State}
    {after : Disk} (quiet : x.Quiet slot prompt bytes) (ended : Terminated bytes) {k : Nat}
    (starved : (x.after k).AtPrompt [])
    (same : (x.within ⟨#[], 0, line ++ rest⟩).after k = (x.after k).within ⟨#[], 0, line ++ rest⟩)
    (cut : linesOf (line ++ rest) = line :: linesOf rest)
    (effect : Effect slot (Utf8.decodeLossy (chomp line)) (x.after k).machine.state (x.after k).machine.console.disk []
      answer t after) :
    ∃ w, (x.within ⟨#[], 0, line ++ rest⟩).Answers k (line ++ rest) prompt answer
      (prompting t slot prompt after rest) w := by
  let v : Setting := ⟨#[], 0, line ++ rest⟩
  have still : ((x.after k).within v).Quiet slot prompt (line ++ rest) :=
    (quiet.after_of_starved ended starved).within v
  have asks : ((x.after k).within v).AtPrompt (line ++ rest) := starved.within v
  obtain ⟨w, answers⟩ := still.answers asks cut effect
  rw [← same] at answers
  exact ⟨w, answers.of_after⟩

/-- A detour: lines that save nothing, and then a load of the state that the slot held
    before them. It ends at the prompt where it began. -/
theorem exists_load_after {t : State} {slot prompt : String} {kept : Disk} {bytes rest : List UInt8}
    (holds : Slot.load kept slot = .ok t) (ended : Terminated bytes)
    (unsaved : ∀ line ∈ linesOf bytes, Command.beginsWith "save" (Console.textOfLine line) = false) {n : Nat}
    (comes : ((prompting t slot prompt kept (bytes ++ (loadLine ++ rest))).after n).AtPrompt (loadLine ++ rest)) :
    ∃ k w, (prompting t slot prompt kept (bytes ++ (loadLine ++ rest))).Answers k (loadLine ++ rest)
      prompt "Loaded.\n\n" (prompting t slot prompt kept rest) w := by
  let y := prompting t slot prompt kept bytes
  have set : prompting t slot prompt kept (bytes ++ (loadLine ++ rest)) = y.within ⟨#[], 0, loadLine ++ rest⟩ :=
    congrArg (Moment.mk · true) (Machine.onInput_append t slot prompt kept bytes _)
  rw [set] at comes ⊢
  have quiet : y.Quiet slot prompt bytes := quiet_prompting (Slot.inside_of_load holds) slot prompt kept bytes
  obtain ⟨k, -, starved, same⟩ := quiet.exists_starved ended comes (Nat.le_refl _)
  have effect : Effect slot (Utf8.decodeLossy (chomp loadLine)) (y.after k).machine.state
      (y.after k).machine.console.disk [] "Loaded.\n\n" t kept := by
    rw [quiet.disk_after ended unsaved k]
    exact effect_loadLine holds
  obtain ⟨w, answers⟩ := quiet.answers_after ended starved (same _ k (Nat.le_refl k)) (linesOf_loadLine_append rest) effect
  exact ⟨k, w, answers⟩

end Moment

namespace Machine

/-- The step in which a line is read that gets an answer, and the steps after it. -/
theorem exists_step_of_answers {m : Machine} {n : Nat} {unread bytes : List UInt8} {t : State}
    {slot prompt answer : String} {kept : Disk} {w : Setting}
    (answers : Moment.Answers ⟨m, false⟩ n unread prompt answer (.prompting t slot prompt kept bytes) w)
    (longer : bytes.length < unread.length) :
    ∃ k, bytes.length < (m.after k).console.source.signals.length ∧
      (m.after (k + 1)).console.source.signals.length ≤ bytes.length ∧
      ∀ j, m.after (k + 1 + j) = ((Moment.prompting t slot prompt kept bytes).finish.after j).within w := by
  have last := answers.last
  have asking : (m.moment n).asking = true := answers.asks.1
  have unreads : (m.moment n).machine.console.source = .ofBytes unread := answers.asks.2.2
  have landed : (m.moment n).next = (Moment.prompting t slot prompt kept bytes).within w := answers.lands
  obtain ⟨k, ⟨idle, -⟩ | ⟨-, finishes, before⟩⟩ := m.moment_cases n
  · rw [asking] at idle
    cases idle
  · have ending := Moment.finish_next (m.moment n)
    rw [if_pos asking, finishes, landed, Moment.finish_within_of_last _ last] at ending
    refine ⟨k, ?_, ?_, ?_⟩
    · rw [unreads] at before
      simp only [Source.ofBytes, List.length_map] at before
      omega
    · rw [← ending]
      have less := Moment.length_source_finish_le (.prompting t slot prompt kept bytes)
      simpa [within, Console.within, Source.feed, last, Moment.prompting, onInput, new, Source.ofBytes] using less
    · intro j
      rw [after_add, ← ending, after_within_of_last _ last]

/-- Two runs that have come to the same moment in two settings. -/
theorem alikeSince_of_moment {m n : Machine} {i k : Nat} {x : Moment} {v w : Setting}
    (here : m.moment i = x.within v) (there : n.moment k = x.within w) (last : v.more = []) (alsoLast : w.more = [])
    (j : Nat) :
    (m.moment (i + j)).asking = (n.moment (k + j)).asking ∧
      AlikeSince v.said w.said (m.moment (i + j)).machine (n.moment (k + j)).machine := by
  rw [moment_add, moment_add, here, there, x.after_within_of_last last, x.after_within_of_last alsoLast]
  exact ⟨rfl, alikeSince_within _ (last.trans alsoLast.symm)⟩

/-- Both runs come to the save at the same moment, and the one that makes a detour comes
    back to where the other one is when it has been saved. -/
theorem exists_answers {before between later : List UInt8} {s : State} {slot prompt : String} {disk : Disk}
    (ended : Terminated before) (closed : Terminated between)
    (unsaved : ∀ line ∈ linesOf between, Command.beginsWith "save" (Console.textOfLine line) = false) {n : Nat}
    (saves : ∀ n, ((onInput s slot prompt disk (before ++ (saveLine ++ later))).moment n).AtPrompt
        (saveLine ++ later) →
      ∃ kept, Slot.save ((onInput s slot prompt disk (before ++ (saveLine ++ later))).moment n).machine.console.disk
        slot ((onInput s slot prompt disk (before ++ (saveLine ++ later))).moment n).machine.state = .ok kept)
    (loads : ((onInput s slot prompt disk (before ++ (saveLine ++ (between ++ (loadLine ++ later))))).moment n).AtPrompt
      (loadLine ++ later)) :
    ∃ i k t kept v w,
      Moment.Answers ⟨onInput s slot prompt disk (before ++ (saveLine ++ (between ++ (loadLine ++ later)))), false⟩ i
        (loadLine ++ later) prompt "Loaded.\n\n" (.prompting t slot prompt kept later) v ∧
      Moment.Answers ⟨onInput s slot prompt disk (before ++ (saveLine ++ later)), false⟩ k
        (saveLine ++ later) prompt "Saved.\n\n" (.prompting t slot prompt kept later) w := by
  let x : Moment := ⟨onInput s slot prompt disk before, false⟩
  have quiet : x.Quiet slot prompt before := Moment.quiet_onInput s slot prompt disk before
  have set : ∀ more, (⟨onInput s slot prompt disk (before ++ more), false⟩ : Moment) = x.within ⟨#[], 0, more⟩ :=
    fun more => congrArg (Moment.mk · false) (onInput_append s slot prompt disk before more)
  simp only [moment, set] at saves loads ⊢
  obtain ⟨k, below, starved, same⟩ := quiet.exists_starved ended loads (by
    simp only [List.length_append]
    omega)
  have still := quiet.after_of_starved ended starved
  obtain ⟨kept, saved⟩ : ∃ kept, Slot.save (x.after k).machine.console.disk slot (x.after k).machine.state = .ok kept := by
    have saves := saves k
    rw [same _ k (Nat.le_refl k)] at saves
    exact saves (starved.within ⟨#[], 0, saveLine ++ later⟩)
  have holds : Slot.load kept slot = .ok (x.after k).machine.state := by
    rw [Slot.load_of_save saved, if_pos (still.waits starved.1).2]
  have reaches : ∀ rest, ∃ w, (x.within ⟨#[], 0, saveLine ++ rest⟩).Answers k (saveLine ++ rest) prompt "Saved.\n\n"
      (.prompting (x.after k).machine.state slot prompt kept rest) w := by
    intro rest
    exact quiet.answers_after ended starved (same _ k (Nat.le_refl k)) (Moment.linesOf_saveLine_append rest)
      (effect_saveLine saved)
  obtain ⟨w, short⟩ := reaches later
  obtain ⟨u, long⟩ := reaches (between ++ (loadLine ++ later))
  -- The load is still to come, so what is left of the long run begins at the save.
  have different : n ≠ k := by
    rintro rfl
    have lengths := congrArg List.length (long.asks.unread_unique loads)
    simp only [List.length_append, length_saveLine] at lengths
    omega
  obtain ⟨i, rfl⟩ : ∃ i, n = k + 1 + i := Nat.exists_eq_add_of_le (by omega)
  rw [Moment.after_add, long.lands, Moment.after_within_of_last _ long.last] at loads
  obtain ⟨l, v, answers⟩ := Moment.exists_load_after holds closed unsaved (loads.of_within_of_last long.last)
  have back := answers.within long.last
  rw [← long.lands] at back
  exact ⟨k + 1 + l, k, _, kept, _, w, back.of_after, short⟩

/-- The line that sets register 7 to one. -/
def registerLine : List UInt8 := Console.bytesOfText "reg7 1\n"

private theorem text_registerLine : Utf8.decodeLossy (chomp registerLine) = "reg7 1".toList := by
  have text : chomp registerLine = Utf8.encode "reg7 1".toList := rfl
  rw [text, Utf8.decodeLossy_encode]

private theorem moment_one {s : State} (waits : s.atInput = true) (bytes : List UInt8) :
    (onInput s "save.json" ">>> " .empty bytes).moment 1 = .prompting s "save.json" ">>> " .empty bytes :=
  Moment.next_of_waiting rfl waits

private theorem moment_two {s : State} (waits : s.atInput = true) (rest : List UInt8) :
    ∃ kept w, (onInput s "save.json" ">>> " .empty (saveLine ++ rest)).moment 2
      = (Moment.prompting s "save.json" ">>> " kept rest).within w ∧ w.more = [] := by
  obtain ⟨w, answers⟩ := Moment.prompting_answers ">>> " (State.inside_of_atInput waits)
    (Moment.linesOf_saveLine_append rest) (effect_saveLine (Slot.save_empty s))
  have lands := answers.lands
  rw [← moment_one waits] at lands
  exact ⟨_, w, lands, answers.last⟩

private theorem saves_at_first_line {s : State} (waits : s.atInput = true) {n : Nat}
    (comes : ((onInput s "save.json" ">>> " .empty saveLine).moment n).AtPrompt saveLine) :
    ∃ kept, Slot.save ((onInput s "save.json" ">>> " .empty saveLine).moment n).machine.console.disk "save.json"
      ((onInput s "save.json" ">>> " .empty saveLine).moment n).machine.state = .ok kept := by
  rcases n with _ | _ | n
  · cases comes.1
  · rw [moment_one waits]
    exact ⟨_, Slot.save_empty s⟩
  · obtain ⟨kept, w, lands, last⟩ := moment_two waits []
    have quiet := Moment.quiet_prompting (State.inside_of_atInput waits) "save.json" ">>> " kept []
    obtain ⟨rest, still, -, read⟩ := quiet.after (by decide) n
    rw [Nat.add_assoc, Nat.add_comm n, moment_add] at comes
    rw [List.append_nil] at lands
    rw [lands, Moment.after_within_of_last _ last] at comes
    have comes := comes.of_within_of_last last
    have unread := comes.unread_unique ⟨comes.1, comes.2.1, still.source⟩
    rw [← unread] at read
    cases read saveLine List.mem_cons_self

private theorem loads_after_register {s : State} (waits : s.atInput = true) :
    ((onInput s "save.json" ">>> " .empty (saveLine ++ (registerLine ++ loadLine))).moment 3).AtPrompt loadLine := by
  obtain ⟨kept, w, lands, last⟩ := moment_two waits (registerLine ++ loadLine)
  have effect : Effect "save.json" (Utf8.decodeLossy (chomp registerLine)) s kept []
      (s!"Set register 7 to {(1 : Word).toNat}" ++ "\n\n") { s with registers := s.registers.set 7 1 (by decide) } kept := by
    rw [text_registerLine]
    exact .registerSet (show Command.parse (String.ofList "reg7 1".toList) = .ok (.setRegister7 1) from rfl)
  have cut : linesOf (registerLine ++ loadLine) = registerLine :: linesOf loadLine := by decide
  obtain ⟨v, answers⟩ := Moment.prompting_answers ">>> " (State.inside_of_atInput waits) cut effect
  have back := (answers.within last).lands
  rw [← lands] at back
  have there : (onInput s "save.json" ">>> " .empty (saveLine ++ (registerLine ++ loadLine))).moment 3 = _ := back
  rw [there]
  have asks : (Moment.prompting { s with registers := s.registers.set 7 1 (by decide) } "save.json" ">>> " kept loadLine).AtPrompt
      loadLine := ⟨rfl, rfl, rfl⟩
  have asks := asks.within ⟨w.said ++ v.said, w.steps + v.steps, v.more⟩
  rw [answers.last, List.append_nil] at asks
  rw [answers.last]
  exact asks

/-- Whatever a run does between a save and a load that finds what was saved, it goes on
    from the load like a run without the lines between. From the moment after the answer
    to the load, and after the answer to the save in the other run, the two are alike
    moment by moment; and they are alike after each step, from the steps on in which the
    two lines are read. -/
theorem rewind {before between later : List UInt8} (s : State) (slot prompt : String) (disk : Disk)
    (ended : Terminated before) (closed : Terminated between)
    (unsaved : ∀ line ∈ linesOf between, Command.beginsWith "save" (Console.textOfLine line) = false) :
    let long := onInput s slot prompt disk (before ++ saveLine ++ between ++ loadLine ++ later)
    let short := onInput s slot prompt disk (before ++ saveLine ++ later)
    (∀ n, (short.moment n).AtPrompt (saveLine ++ later) → ∃ kept,
      Slot.save (short.moment n).machine.console.disk slot (short.moment n).machine.state = .ok kept) →
    (∃ n, (long.moment n).AtPrompt (loadLine ++ later)) →
    ∃ (i k : Nat) (said told : Array UInt8),
      ((long.moment i).AtPrompt (loadLine ++ later) ∧ said = (long.moment i).machine.console.sink.written
        ++ Console.bytesOfText prompt ++ Console.bytesOfText "Loaded.\n\n") ∧
      ((short.moment k).AtPrompt (saveLine ++ later) ∧ told = (short.moment k).machine.console.sink.written
        ++ Console.bytesOfText prompt ++ Console.bytesOfText "Saved.\n\n") ∧
      (∀ j, (long.moment (i + 1 + j)).asking = (short.moment (k + 1 + j)).asking ∧
        AlikeSince said told (long.moment (i + 1 + j)).machine (short.moment (k + 1 + j)).machine) ∧
      ∃ p q : Nat,
        (later.length < (long.after p).console.source.signals.length ∧
          (long.after (p + 1)).console.source.signals.length ≤ later.length) ∧
        (later.length < (short.after q).console.source.signals.length ∧
          (short.after (q + 1)).console.source.signals.length ≤ later.length) ∧
        ∀ j, AlikeSince said told (long.after (p + 1 + j)) (short.after (q + 1 + j)) := by
  intro long short saves loads
  obtain ⟨n, loads⟩ := loads
  have longer : before ++ saveLine ++ between ++ loadLine ++ later
      = before ++ (saveLine ++ (between ++ (loadLine ++ later))) := by simp only [List.append_assoc]
  have shorter : before ++ saveLine ++ later = before ++ (saveLine ++ later) := List.append_assoc before saveLine later
  simp only [long, short, longer, shorter] at saves loads ⊢
  obtain ⟨i, k, t, kept, v, w, loaded, saved⟩ := exists_answers ended closed unsaved saves loads
  obtain ⟨p, before, after, here⟩ := exists_step_of_answers loaded (by simp)
  obtain ⟨q, beforeSave, afterSave, there⟩ := exists_step_of_answers saved (by simp)
  refine ⟨i, k, v.said, w.said, ⟨loaded.asks, loaded.said⟩, ⟨saved.asks, saved.said⟩, ?_, p, q,
    ⟨before, after⟩, ⟨beforeSave, afterSave⟩, ?_⟩
  · exact alikeSince_of_moment loaded.lands saved.lands loaded.last saved.last
  · intro j
    rw [here, there]
    exact alikeSince_within _ (loaded.last.trans saved.last.symm)

/-- A register that is set between a save and a load. -/
theorem rewind_register :
    let s : State := .start (.padded [20, 32768])
    let long := onInput s "save.json" ">>> " .empty ([] ++ saveLine ++ registerLine ++ loadLine ++ [])
    let short := onInput s "save.json" ">>> " .empty ([] ++ saveLine ++ [])
    (∀ n, (short.moment n).AtPrompt (saveLine ++ []) → ∃ kept,
      Slot.save (short.moment n).machine.console.disk "save.json" (short.moment n).machine.state = .ok kept) ∧
    (∃ n, (long.moment n).AtPrompt (loadLine ++ [])) ∧
    ∃ said told p q, ∀ j, AlikeSince said told (long.after (p + 1 + j)) (short.after (q + 1 + j)) := by
  have waits : (State.start (.padded [20, 32768])).atInput = true :=
    State.atInput_iff_read?.mpr ⟨by decide, Memory.read?_padded _ (by decide)⟩
  have ended : Terminated registerLine := by decide
  have unsaved : ∀ line ∈ linesOf registerLine, Command.beginsWith "save" (Console.textOfLine line) = false := by
    intro line member
    have only : linesOf registerLine = [registerLine] := by decide
    rw [only, List.mem_singleton] at member
    rw [member, Console.textOfLine, text_registerLine]
    rfl
  intro s long short
  have saves : ∀ n, (short.moment n).AtPrompt (saveLine ++ []) → ∃ kept,
      Slot.save (short.moment n).machine.console.disk "save.json" (short.moment n).machine.state = .ok kept :=
    fun n comes => saves_at_first_line waits comes
  have loads : ∃ n, (long.moment n).AtPrompt (loadLine ++ []) := ⟨3, loads_after_register waits⟩
  obtain ⟨i, k, said, told, -, -, -, p, q, -, -, alike⟩ :=
    rewind s "save.json" ">>> " .empty (show Terminated [] by decide) ended unsaved saves loads
  exact ⟨saves, loads, said, told, p, q, alike⟩

end Machine

end WordMachine
