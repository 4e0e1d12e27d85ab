import WordMachine.Proofs.Console.Retry
import WordMachine.Proofs.Machine.Reload
import WordMachine.Proofs.Machine.Resumable
import WordMachine.Proofs.Machine.Unseen

/-!
Steps that are taken again after a failure of the source. A run that takes each step again
until it succeeds agrees with the run on a source that does not break, but for a prompt
for each failure (`Machine.Retries`), if what the slot holds goes on with an `in`; and
only then does it for every program and input (`retries_iff`). The reason is that a step
taken again begins anew, with the instruction of a state that the failed step may have
loaded (`retry_at_noop`).
-/
namespace WordMachine

namespace Console

/-- Whatever can be loaded from the slot goes on with an `in`. -/
def LoadsAtInput (console : Console) : Prop :=
  ∀ s, Slot.load console.disk console.slot = .ok s → s.atInput = true

namespace LoadsAtInput

variable {console : Console} {s : State}

theorem turn (safe : console.LoadsAtInput) (waits : s.atInput = true) {outcome : Option Delivery} {after : Console}
    {t : State} (turned : console.turn s = (outcome, after, t)) : after.LoadsAtInput ∧ t.atInput = true := by
  obtain ⟨place, -, ⟨-, -, kept, rfl, -⟩ | ⟨line, words, answer, -, -, -, effect⟩⟩ := turn_cases turned
  · refine ⟨?_, waits⟩
    rw [LoadsAtInput, kept, place]
    exact safe
  · have saves : ∀ {disk : Disk}, Slot.save console.disk console.slot s = .ok disk →
        ∀ t, Slot.load disk console.slot = .ok t → t.atInput = true := by
      intro disk saved t loaded
      rw [Slot.load_of_save saved, if_pos (State.inside_of_atInput waits)] at loaded
      cases loaded
      exact waits
    rw [LoadsAtInput, place]
    exact effect.waits (P := fun disk => ∀ t, Slot.load disk console.slot = .ok t → t.atInput = true)
      safe waits (safe _) saves

/-- Neither lines nor what is loaded lead away from an `in`. -/
theorem nextInput (safe : console.LoadsAtInput) (waits : s.atInput = true) :
    (console.nextInput s).2.1.LoadsAtInput ∧ (console.nextInput s).2.2.atInput = true := by
  revert safe waits
  refine nextInput_induction (P := fun console s came => console.LoadsAtInput → s.atInput = true →
    came.2.1.LoadsAtInput ∧ came.2.2.atInput = true) ?_ ?_ ?_ console s
  · intro console s word rest _ safe waits
    exact ⟨safe, waits⟩
  · intro console s delivery after t _ turned safe waits
    exact safe.turn waits turned
  · intro console s after t came _ turned ih safe waits
    obtain ⟨still, further⟩ := safe.turn waits turned
    exact ih still further

end LoadsAtInput

end Console

namespace Machine

/-- A device has failed. -/
def failed : Except DeviceError Status → Bool
  | .ok _ => false
  | .error _ => true

/-- The next step fails. -/
def fails (m : Machine) : Bool := failed m.step.2

/-- How many of the first `n` steps fail. -/
def failures (m : Machine) : Nat → Nat
  | 0 => 0
  | n + 1 => m.failures n + (m.after n).fails.toNat

/-- The step after `k` others succeeds, and `n` others have succeeded before it. -/
structure Succeeds (m : Machine) (n k : Nat) : Prop where
  others : n + m.failures k = k
  succeeds : (m.after k).fails = false

/-- The second machine has come as far as the first, and has written so many prompts
    more. -/
structure Agrees (prompts : Nat) (first second : Machine) : Prop where
  state : second.state = first.state
  status : second.status = first.status
  steps : second.steps = first.steps
  pending : second.console.pending = first.console.pending
  unread : second.console.source.unread = first.console.source.unread
  disk : second.console.disk = first.console.disk
  written : Reprompted first.console.prompt prompts first.console.sink.written second.console.sink.written

/-- The steps of the second machine that succeed agree one by one with the steps of the
    first, and there are as many of them. -/
structure Retries (first second : Machine) : Prop where
  goesOn : ∀ n, ∃ k, second.Succeeds n k
  agrees : ∀ {n k}, second.Succeeds n k → Agrees (second.failures k) (first.after (n + 1)) (second.after (k + 1))

/-- The machines have come equally far, their consoles are alongside, and a load leads to an
    `in`. -/
structure Alongside (n : Nat) (first second : Machine) : Prop where
  state : second.state = first.state
  status : second.status = first.status
  steps : second.steps = first.steps
  console : Console.Alongside n first.console second.console
  safe : second.console.LoadsAtInput

variable {n : Nat} {first second : Machine}

theorem Alongside.agrees (alongside : Alongside n first second) : Agrees n first second where
  state := alongside.state
  status := alongside.status
  steps := alongside.steps
  pending := alongside.console.pending
  unread := by
    obtain ⟨bytes, unread, falters⟩ := alongside.console.unread
    rw [unread, Source.unread_ofBytes]
    exact falters.unread
  disk := alongside.console.disk
  written := alongside.console.written

/-- Instructions that end alike leave the machines alongside. -/
theorem Alongside.conclude (alongside : Alongside n first second) {one other : Console}
    (console : Console.Alongside n one other) (safe : other.LoadsAtInput) (t : State) (status : Status) :
    Alongside n (first.conclude (t, one, .ok status)) (second.conclude (t, other, .ok status)) :=
  ⟨rfl, rfl, congrArg (· + 1) alongside.steps, console, safe⟩

theorem fails_of_running {m : Machine} (runs : m.status = .running) {t : State} {console : Console}
    {result : Except DeviceError Status} (executes : execute m.state m.console = (t, console, result)) :
    m.fails = failed result := by
  rw [fails, step_eq_of_running runs, executes]

/-- What is left of an `in` once its console has had some turns. -/
theorem step_of_asking {m : Machine} (runs : m.status = .running) (waits : m.state.atInput = true) {console : Console}
    {t : State} (asks : m.console.nextInput m.state = console.nextInput t) (still : t.atInput = true) :
    step { m with state := t, console := console } = m.step := by
  have alsoRuns : Machine.status { m with state := t, console := console } = .running := runs
  rw [step_eq_of_running runs, step_eq_of_running alsoRuns]
  simp only [execute_of_atInput waits, execute_of_atInput still, asks]
  rcases console.nextInput t with ⟨_ | _ | _, after, u⟩ <;> rfl

/-- A step of the second machine fails, and then as much is left of it as of the step of
    the first; or both steps end alike. -/
theorem Alongside.step (alongside : Alongside n first second) :
    (second.fails = true ∧ (∃ one, one.step.1 = first.step.1 ∧ Alongside (n + 1) one second.step.1) ∧
      second.step.1.console.source.signals.length < second.console.source.signals.length) ∨
    second.fails = false ∧ Alongside n first.step.1 second.step.1 := by
  have status := alongside.status
  cases final : second.status.isFinal with
  | true =>
    right
    have alsoFinal : first.status.isFinal = true := status ▸ final
    have succeeds : second.fails = false := by
      rw [fails, step_of_isFinal final]
      rfl
    rw [step_of_isFinal final, step_of_isFinal alsoFinal]
    exact ⟨succeeds, alongside⟩
  | false =>
    have runs := Status.eq_running final
    have alsoRuns : first.status = .running := status.symm.trans runs
    cases waits : second.state.atInput with
    | false =>
      right
      obtain ⟨bytes, t, ending, executes⟩ := exists_execute waits
      have written := alongside.console.write bytes
      have here := executes second.console
      have there := executes first.console
      rw [afterWrite_of_roomy alongside.console.alsoRoomy] at here
      rw [alongside.state, afterWrite_of_roomy alongside.console.roomy] at there
      refine ⟨fails_of_running runs here, ?_⟩
      rw [step_of_running runs, step_of_running alsoRuns, here, there]
      exact alongside.conclude written alongside.safe t ending
    | true =>
      have alsoWaits : first.state.atInput = true := alongside.state ▸ waits
      obtain ⟨safe, still⟩ := alongside.safe.nextInput waits
      have meet := alongside.console.nextInput second.state
      have executes := execute_of_atInput waits second.console
      have alsoExecutes := execute_of_atInput alsoWaits first.console
      rw [← alongside.state] at alsoExecutes
      generalize second.console.nextInput second.state = other at safe still meet executes
      generalize alsoCame : first.console.nextInput second.state = one at meet alsoExecutes
      cases meet with
      | @breaks one other t console shorter =>
        left
        refine ⟨fails_of_running runs executes, ?_, ?_⟩
        · refine ⟨{ first with state := t, console := one }, ?_, ?_⟩
          · rw [alongside.state] at alsoCame
            rw [step_of_asking alsoRuns alsoWaits alsoCame still]
          · rw [step_of_running runs, executes]
            exact ⟨rfl, status, alongside.steps, console, safe⟩
        · rw [step_of_running runs, executes]
          exact shorter
      | @same delivery one other t succeeds console =>
        right
        rw [step_of_running runs, step_of_running alsoRuns, executes, ← alongside.state, alsoExecutes]
        cases delivery with
        | failed error => exact absurd rfl (succeeds error)
        | closed => exact ⟨fails_of_running runs executes, alongside.conclude console safe t .inputClosed⟩
        | word word => exact ⟨fails_of_running runs executes, alongside.conclude console safe _ _⟩

/-- How far the second machine has come after so many steps: as many of them have succeeded
    as the first has taken, and what it is alongside of still has to do what is left of the
    next step of the first. -/
structure Behind (first second : Machine) (k n : Nat) : Prop where
  others : n + second.failures k = k
  left : ∃ one, one.step.1 = first.after (n + 1) ∧ Alongside (second.failures k) one (second.after k)

/-- The next step fails, or it takes the machines one step on. -/
theorem Behind.step {k : Nat} (behind : Behind first second k n) :
    ((second.after k).fails = true ∧ Behind first second (k + 1) n ∧
      (second.after (k + 1)).console.source.signals.length < (second.after k).console.source.signals.length) ∨
    (second.after k).fails = false ∧ Behind first second (k + 1) (n + 1) ∧
      Alongside (second.failures k) (first.after (n + 1)) (second.after (k + 1)) := by
  obtain ⟨others, one, rest, alongside⟩ := behind
  have counted : second.failures (k + 1) = second.failures k + (second.after k).fails.toNat := rfl
  rcases alongside.step with ⟨fails, ⟨next, same, still⟩, shorter⟩ | ⟨succeeds, still⟩
  · left
    rw [fails, Bool.toNat_true] at counted
    refine ⟨fails, ⟨by omega, next, same.trans rest, ?_⟩, shorter⟩
    rw [counted]
    exact still
  · right
    rw [succeeds, Bool.toNat_false] at counted
    rw [rest] at still
    refine ⟨succeeds, ⟨by omega, first.after (n + 1), rfl, ?_⟩, still⟩
    rw [counted]
    exact still

theorem Alongside.behind (alongside : Alongside 0 first second) (k : Nat) : ∃ n, Behind first second k n := by
  induction k with
  | zero => exact ⟨0, rfl, first, rfl, alongside⟩
  | succ k ih =>
    obtain ⟨n, behind⟩ := ih
    rcases behind.step with ⟨-, still, -⟩ | ⟨-, still, -⟩
    · exact ⟨n, still⟩
    · exact ⟨n + 1, still⟩

/-- A step that is taken again and again succeeds, since each failure takes a break off the
    source. -/
theorem Behind.exists_succeeds {k : Nat} (behind : Behind first second k n) :
    ∃ j, second.Succeeds n j ∧ Behind first second j n := by
  rcases behind.step with ⟨-, still, shorter⟩ | ⟨succeeds, -, -⟩
  · exact still.exists_succeeds
  · exact ⟨k, ⟨behind.others, succeeds⟩, behind⟩
termination_by (second.after k).console.source.signals.length

theorem Alongside.exists_succeeds (alongside : Alongside 0 first second) (n : Nat) :
    ∃ k, second.Succeeds n k ∧ Behind first second k n := by
  induction n with
  | zero =>
    have begins : Behind first second 0 0 := ⟨rfl, first, rfl, alongside⟩
    exact begins.exists_succeeds
  | succ n ih =>
    obtain ⟨k, taken, behind⟩ := ih
    rcases behind.step with ⟨fails, -, -⟩ | ⟨-, further, -⟩
    · rw [taken.succeeds] at fails
      cases fails
    · exact further.exists_succeeds

/-- Machines that begin alongside stay so over every run. -/
theorem Alongside.retries (alongside : Alongside 0 first second) : Retries first second where
  goesOn := by
    intro n
    obtain ⟨k, taken, -⟩ := alongside.exists_succeeds n
    exact ⟨k, taken⟩
  agrees := by
    intro n k taken
    obtain ⟨most, behind⟩ := alongside.behind k
    obtain rfl : most = n := by
      have one := taken.others
      have other := behind.others
      omega
    rcases behind.step with ⟨fails, -, -⟩ | ⟨-, -, still⟩
    · rw [taken.succeeds] at fails
      cases fails
    · exact still.agrees

/-- The machine on a source that breaks at the given places of an input. -/
def readingWithBreaks (m : Machine) (bytes : List UInt8) (breaks : List Nat) : Machine :=
  { m with console := { m.console with source := .withBreaks bytes breaks } }

theorem alongside_readingWithBreaks {m : Machine} {bytes : List UInt8} {breaks : List Nat}
    (roomy : m.console.sink.room = none) (boundaries : ∀ place ∈ breaks, Source.Boundary bytes place)
    (safe : m.console.LoadsAtInput) : Alongside 0 (m.reading bytes) (m.readingWithBreaks bytes breaks) where
  state := rfl
  status := rfl
  steps := rfl
  console := ⟨⟨bytes, rfl, Source.falters_withBreaks boundaries⟩, roomy, roomy, rfl, rfl, rfl, rfl, .start _⟩
  safe := safe

/-! ### A load before a break -/

/-- An instruction other than `in` does not fail as long as there is room for what it
    writes. -/
theorem fails_of_busy {m : Machine} (runs : m.status = .running) (busy : m.state.atInput = false)
    (roomy : m.console.sink.room = none) : m.fails = false := by
  obtain ⟨bytes, t, ending, executes⟩ := exists_execute busy
  have executed := executes m.console
  rw [afterWrite_of_roomy roomy] at executed
  exact fails_of_running runs executed

/-- A load that a break follows leaves the state that it loads, in a step that fails. -/
theorem step_of_broken_load {m : Machine} {s : State} (awaits : m.Awaits loadLine)
    (loads : Slot.load m.console.disk m.console.slot = .ok s) :
    ∃ console, (m.readingWithBreaks loadLine [5]).step
        = ({ m with state := s, console := console }, .error .inputBroken) ∧
      console.sink.room = none := by
  have waits : m.state.atInput = true := State.atInput_iff_read?.mpr ⟨awaits.inside, awaits.opcode⟩
  let console := (m.readingWithBreaks loadLine [5]).console
  have empty : console.pending = [] := awaits.empty
  have roomy : console.sink.room = none := awaits.roomy
  have reads : console.source.readLine = (.line loadLine, ⟨[.broken]⟩) := rfl
  let asking := { console.loaded [] with source := ⟨[.broken]⟩ }
  have breaks : asking.source.readLine = (.failed .inputBroken, ⟨[]⟩) := rfl
  have turned : console.turn m.state = (none, asking, s) := by
    rw [Console.turn_of_line roomy reads (effect_loadLine loads), List.append_nil]
    rfl
  have asks := Console.nextInput_of_turn_none empty turned
  have broken := @Console.nextInput_of_turn_some asking _ s _ _ empty (Console.turn_of_refused rfl breaks rfl s)
  have stepped : (m.readingWithBreaks loadLine [5]).step = _ := step_eq_of_running awaits.runs
  rw [show (m.readingWithBreaks loadLine [5]).state = m.state from rfl, execute_of_atInput waits,
    asks.trans broken] at stepped
  exact ⟨_, stepped, rfl⟩

/-- The step after that failure is the instruction of the state that was loaded. -/
theorem succeeds_of_broken_load {m : Machine} {s : State} (awaits : m.Awaits loadLine)
    (loads : Slot.load m.console.disk m.console.slot = .ok s) (busy : s.atInput = false) :
    ∃ console, (m.readingWithBreaks loadLine [5]).Succeeds 0 1 ∧
      (m.readingWithBreaks loadLine [5]).after 1 = { m with state := s, console := console } := by
  obtain ⟨console, stepped, roomy⟩ := step_of_broken_load awaits loads
  have here : (m.readingWithBreaks loadLine [5]).after 1 = { m with state := s, console := console } := by
    rw [after_one, stepped]
  have failing : (m.readingWithBreaks loadLine [5]).fails = true := by
    rw [fails, stepped]
    rfl
  refine ⟨console, ⟨?_, ?_⟩, here⟩
  · rw [failures, failures, after, failing]
    rfl
  · rw [here]
    exact fails_of_busy awaits.runs busy roomy

/-- Without the break the step of the load finds the end of the input. -/
theorem after_of_last_load {m : Machine} {s : State} (awaits : m.Awaits loadLine)
    (loads : Slot.load m.console.disk m.console.slot = .ok s) :
    ((m.reading loadLine).after 1).status = .inputClosed ∧ ((m.reading loadLine).after 1).state = s := by
  have again : (m.reading loadLine).Awaits (loadLine ++ []) := { awaits with unread := rfl }
  have closes := @Console.nextInput_of_end ((m.reading loadLine).console.loaded []) rfl awaits.empty rfl s
  rw [after_one, step_of_load again loads, closes]
  exact ⟨rfl, rfl⟩

/-- A load of a state at another instruction, with a break behind it: the step that is
    taken again is that instruction, and cannot close the input. -/
theorem not_retries_of_busy {m : Machine} {s : State} (awaits : m.Awaits loadLine)
    (loads : Slot.load m.console.disk m.console.slot = .ok s) (busy : s.atInput = false) :
    ¬ Retries (m.reading loadLine) (m.readingWithBreaks loadLine [5]) := by
  intro retries
  obtain ⟨console, taken, here⟩ := succeeds_of_broken_load awaits loads busy
  have same := (retries.agrees taken).status
  rw [(after_of_last_load awaits loads).1, after, here] at same
  exact status_step_of_busy (m := { m with state := s, console := console }) awaits.runs busy same

/-- A run on a source that breaks at the beginning of the input or behind the ends of its
    lines, with each step that fails taken again, agrees with the run on a source that does
    not break, for every program and every input, if what can be loaded from the slot goes
    on with an `in`, and only then. -/
theorem retries_iff (slot : String) (disk : Disk) :
    (∀ (m : Machine) (bytes : List UInt8) (breaks : List Nat), m.console.slot = slot → m.console.disk = disk →
      m.console.sink.room = none → (∀ place ∈ breaks, Source.Boundary bytes place) →
      Retries (m.reading bytes) (m.readingWithBreaks bytes breaks)) ↔
    ∀ s, Slot.load disk slot = .ok s → s.pc.toNat ≤ 32766 ∧ s.memory.read? s.pc.toNat = some 20 := by
  simp only [← State.atInput_iff_read?]
  constructor
  · intro retries s loads
    cases waits : s.atInput with
    | true => rfl
    | false =>
      let m := onInput (.start (.padded [20, 32768])) slot ">>> " disk loadLine
      have opcode : (Memory.padded [20, 32768]).read? 0 = some 20 := Memory.read?_padded _ (by decide)
      have awaits : m.Awaits loadLine := ⟨rfl, Nat.zero_le _, opcode, rfl, rfl, rfl⟩
      have boundaries : ∀ place ∈ [5], Source.Boundary loadLine place := by decide
      exact absurd (retries m loadLine [5] rfl rfl rfl boundaries) (not_retries_of_busy awaits loads waits)
  · rintro safe m bytes breaks rfl rfl roomy boundaries
    exact (alongside_readingWithBreaks roomy boundaries safe).retries

/-- The step after that failure does what the instruction does that was loaded. -/
private theorem after_of_broken_load {m : Machine} {s t : State} {status : Status} (awaits : m.Awaits loadLine)
    (loads : Slot.load m.console.disk m.console.slot = .ok s) (busy : s.atInput = false)
    (executes : ∀ console, execute s console = (t, console, .ok status)) :
    ((m.readingWithBreaks loadLine [5]).after 2).status = status ∧
      ((m.readingWithBreaks loadLine [5]).after 2).state = t := by
  obtain ⟨console, -, here⟩ := succeeds_of_broken_load awaits loads busy
  have runs : Machine.status { m with state := s, console := console } = .running := awaits.runs
  rw [after, here, step_of_running runs, executes]
  exact ⟨rfl, rfl⟩

/-- A program that is saved at a `noop`, and loads itself before its source breaks at the
    end of the input. The step that is taken again is the `noop`, where the run without the
    break finds the end of the input. -/
theorem retry_at_noop :
    let s : State := .start (.padded [21, 20, 32768])
    let m := onInput { s with pc := 1 } "save.json" ">>> " (keeping s) loadLine
    Source.Boundary loadLine 5 ∧ (m.readingWithBreaks loadLine [5]).Succeeds 0 1 ∧
      ((m.reading loadLine).after 1).status = .inputClosed ∧ ((m.reading loadLine).after 1).state.pc = 0 ∧
      ((m.readingWithBreaks loadLine [5]).after 2).status = .running ∧
      ((m.readingWithBreaks loadLine [5]).after 2).state.pc = 1 ∧
      ¬ Retries (m.reading loadLine) (m.readingWithBreaks loadLine [5]) := by
  intro s m
  have opcode : s.memory.read? 1 = some 20 := Memory.read?_padded _ (by decide)
  have awaits : m.Awaits loadLine := ⟨rfl, by decide, opcode, rfl, rfl, rfl⟩
  have loads : Slot.load (keeping s) "save.json" = .ok s := load_keeping (by decide)
  have begins : s.memory.read? s.pc.toNat = some 21 := Memory.read?_padded _ (by decide)
  have named : Operation.ofWord? 21 = some .noop := rfl
  obtain ⟨operands, fetched⟩ := State.exists_fetch begins named (by decide)
  have busy : s.atInput = false := by
    rw [State.atInput, fetched]
    rfl
  have executes (console : Console) : execute s console = ({ s with pc := 1 }, console, .ok .running) := by
    rw [execute, fetched]
    rfl
  obtain ⟨console, taken, -⟩ := succeeds_of_broken_load awaits loads busy
  obtain ⟨runs, passed⟩ := after_of_broken_load awaits loads busy executes
  obtain ⟨closes, loaded⟩ := after_of_last_load awaits loads
  exact ⟨by decide, taken, closes, congrArg State.pc loaded, runs, congrArg State.pc passed,
    not_retries_of_busy awaits loads busy⟩

end Machine

end WordMachine
